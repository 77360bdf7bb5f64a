import Mathlib.Data.Set.Lattice
import Mathlib.Order.CompletePartialOrder

set_option autoImplicit false

/- A memory that several owners rely on, each in places of its own. -/
namespace Leases

open Set

variable {Owner Place Value : Type*}

/-- The places that an owner holds, and what it relies on in there. -/
structure Lease (Place Value : Type*) where
  holds : Set Place
  fits : (Place → Value) → Prop
  /-- It looks at no other place. -/
  looks : ∀ memory later : Place → Value, EqOn memory later holds → fits memory → fits later

/-- Who holds nothing relies on nothing. -/
def Lease.none : Lease Place Value where
  holds := ∅
  fits _ := True
  looks _ _ _ _ := trivial

/-- No two owners hold a place, and each finds there what it relies on. -/
structure Safe (leases : Owner → Lease Place Value) (memory : Place → Value) : Prop where
  apart : ∀ owner other, owner ≠ other → Disjoint (leases owner).holds (leases other).holds
  fit : ∀ owner, (leases owner).fits memory

variable {leases later : Owner → Lease Place Value} {memory after : Place → Value}

theorem safe_none : Safe (fun _ : Owner => (Lease.none : Lease Place Value)) memory where
  apart _ _ _ := disjoint_bot_left
  fit _ := trivial

/-- Somebody acts who leaves alone what the others hold. -/
theorem Safe.act (safe : Safe leases memory) (actor : Owner)
    (others : ∀ owner, owner ≠ actor → later owner = leases owner)
    (alone : ∀ owner, owner ≠ actor → EqOn memory after (leases owner).holds)
    (apart : ∀ owner, owner ≠ actor → Disjoint (later actor).holds (leases owner).holds)
    (mine : (later actor).fits after) : Safe later after where
  apart owner other different := by
    by_cases here : owner = actor
    · subst here
      rw [others other (Ne.symm different)]
      exact apart other (Ne.symm different)
    · rw [others owner here]
      by_cases there : other = actor
      · subst there
        exact (apart owner here).symm
      · rw [others other there]
        exact safe.apart owner other different
  fit owner := by
    by_cases here : owner = actor
    · subst here
      exact mine
    · rw [others owner here]
      exact (leases owner).looks memory after (alone owner here) (safe.fit owner)

/-- What is not held may change at any time. -/
theorem Safe.elsewhere (safe : Safe leases memory)
    (alone : ∀ owner, EqOn memory after (leases owner).holds) : Safe leases after where
  apart := safe.apart
  fit owner := (leases owner).looks memory after (alone owner) (safe.fit owner)

/-- Some owners give up what they held, and the others find theirs as it was. -/
theorem Safe.withdraw (safe : Safe leases memory) (gone : Owner → Prop)
    (given : ∀ owner, gone owner → later owner = Lease.none)
    (others : ∀ owner, ¬ gone owner → later owner = leases owner)
    (alone : ∀ owner, ¬ gone owner → EqOn memory after (leases owner).holds) :
    Safe later after where
  apart owner other different := by
    by_cases here : gone owner
    · rw [given owner here]
      exact disjoint_bot_left
    · by_cases there : gone other
      · rw [given other there]
        exact disjoint_bot_right
      · rw [others owner here, others other there]
        exact safe.apart owner other different
  fit owner := by
    by_cases here : gone owner
    · rw [given owner here]
      trivial
    · rw [others owner here]
      exact (leases owner).looks memory after (alone owner here) (safe.fit owner)

end Leases
