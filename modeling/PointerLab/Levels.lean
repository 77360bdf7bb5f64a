import Mathlib.Data.Nat.Find

set_option autoImplicit false

/- Searching backwards from a target, one level of hops at a time: a node joins at the
first level at which it hops into the level before. -/
namespace Levels

variable {Node : Type*} {hop : Node → Node → Prop} {target : Node}

/-- The target can be reached from the node in exactly that many hops. -/
def Reaches (hop : Node → Node → Prop) (target : Node) : Nat → Node → Prop
  | 0, node => node = target
  | hops + 1, node => ∃ next, hop node next ∧ Reaches hop target hops next

/-- The target can be reached in that many hops, and in no fewer. -/
def Away (hop : Node → Node → Prop) (target : Node) (hops : Nat) (node : Node) : Prop :=
  Reaches hop target hops node ∧ ∀ fewer < hops, ¬ Reaches hop target fewer node

theorem Away.unique {hops other : Nat} {node : Node} (left : Away hop target hops node)
    (right : Away hop target other node) : hops = other := by
  have lower : ¬ hops < other := fun less => right.2 hops less left.1
  have upper : ¬ other < hops := fun less => left.2 other less right.1
  omega

theorem exists_away {hops : Nat} {node : Node} (reaches : Reaches hop target hops node) :
    ∃ least ≤ hops, Away hop target least node := by
  classical
  have some_ : ∃ least, Reaches hop target least node := ⟨hops, reaches⟩
  exact ⟨Nat.find some_, Nat.find_min' some_ reaches, Nat.find_spec some_,
    fun _ below => Nat.find_min some_ below⟩

/-- The first hop of a shortest way leaves a shortest way. -/
theorem Away.next {hops : Nat} {node : Node} (away : Away hop target (hops + 1) node) :
    ∃ next, hop node next ∧ Away hop target hops next := by
  obtain ⟨⟨next, first, rest⟩, least⟩ := away
  exact ⟨next, first, rest, fun fewer below sooner =>
    least (fewer + 1) (Nat.succ_lt_succ below) ⟨next, first, sooner⟩⟩

theorem away_succ {hops : Nat} {node next : Node} (first : hop node next)
    (rest : Away hop target hops next) (late : ∀ fewer ≤ hops, ¬ Away hop target fewer node) :
    Away hop target (hops + 1) node := by
  refine ⟨⟨next, first, rest.1⟩, fun fewer below sooner => ?_⟩
  obtain ⟨least, within, away⟩ := exists_away sooner
  exact late least (by omega) away

/-- After `hops` levels: what has been seen, and the last level. -/
structure Level (hop : Node → Node → Prop) (target : Node) (hops : Nat)
    (seen frontier : Node → Prop) : Prop where
  seen : ∀ node, seen node ↔ ∃ least ≤ hops, Away hop target least node
  frontier : ∀ node, frontier node ↔ Away hop target hops node

theorem away_zero {node : Node} : Away hop target 0 node ↔ node = target := by
  constructor
  · exact fun away => away.1
  · exact fun same => ⟨same, fun fewer below => absurd below (Nat.not_lt_zero fewer)⟩

theorem Level.start : Level hop target 0 (· = target) (· = target) := by
  constructor
  · intro node
    constructor
    · exact fun same => ⟨0, Nat.le_refl 0, away_zero.mpr same⟩
    · rintro ⟨least, within, away⟩
      obtain rfl : least = 0 := by omega
      exact away_zero.mp away
  · exact fun node => away_zero.symm

/-- Everything unseen that hops into a level is the next level. -/
theorem Level.next {hops : Nat} {seen frontier after newer : Node → Prop}
    (level : Level hop target hops seen frontier)
    (found : ∀ node, newer node ↔ ¬ seen node ∧ ∃ next, hop node next ∧ frontier next)
    (grown : ∀ node, after node ↔ seen node ∨ newer node) :
    Level hop target (hops + 1) after newer := by
  have joins (node : Node) : newer node ↔ Away hop target (hops + 1) node := by
    rw [found, level.seen]
    constructor
    · rintro ⟨unseen, next, first, inFrontier⟩
      exact away_succ first ((level.frontier next).mp inFrontier)
        fun fewer within away => unseen ⟨fewer, within, away⟩
    · intro away
      refine ⟨?_, ?_⟩
      · rintro ⟨least, within, sooner⟩
        have := sooner.unique away
        omega
      · obtain ⟨next, first, rest⟩ := away.next
        exact ⟨next, first, (level.frontier next).mpr rest⟩
  refine ⟨fun node => ?_, joins⟩
  rw [grown, level.seen, joins]
  constructor
  · rintro (⟨least, within, away⟩ | away)
    · exact ⟨least, by omega, away⟩
    · exact ⟨hops + 1, Nat.le_refl _, away⟩
  · rintro ⟨least, within, away⟩
    by_cases last : least = hops + 1
    · exact Or.inr (last ▸ away)
    · exact Or.inl ⟨least, by omega, away⟩

/-- After an empty level there is nothing further away. -/
theorem Level.exhausted {hops : Nat} {seen frontier : Node → Prop}
    (level : Level hop target hops seen frontier) (empty : ∀ node, ¬ frontier node)
    {further : Nat} (beyond : hops ≤ further) (node : Node) : ¬ Away hop target further node := by
  induction further generalizing node with
  | zero =>
      obtain rfl : hops = 0 := by omega
      exact fun away => empty node ((level.frontier node).mpr away)
  | succ further ih =>
      intro away
      by_cases last : hops = further + 1
      · exact empty node ((level.frontier node).mpr (last ▸ away))
      · obtain ⟨next, _, rest⟩ := away.next
        exact ih (by omega) next rest

end Levels
