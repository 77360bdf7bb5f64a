import Mathlib.Data.List.Nodup

set_option autoImplicit false

/- Ballots counted by a key: one entry for each key, which holds the first ballot that was cast
for it and the number of them. -/
namespace Tally

variable {Ballot Key : Type*} [DecidableEq Key]

/-- One more vote in the entry with a ballot's key, or an entry of its own. -/
def vote (key : Ballot → Key) (ballot : Ballot) : List (Ballot × Nat) → List (Ballot × Nat)
  | [] => [(ballot, 1)]
  | (first, votes) :: rest =>
      if key first = key ballot then (first, votes + 1) :: rest
      else (first, votes) :: vote key ballot rest

def tally (key : Ballot → Key) (ballots : List Ballot) : List (Ballot × Nat) :=
  ballots.foldl (fun entries ballot => vote key ballot entries) []

/-- No two entries have one key, every entry has a ballot of its key and all votes for it, and
every ballot has an entry. -/
structure Counts (key : Ballot → Key) (ballots : List Ballot) (entries : List (Ballot × Nat)) :
    Prop where
  apart : (entries.map fun entry => key entry.1).Nodup
  cast_ : ∀ entry ∈ entries, entry.1 ∈ ballots
  votes : ∀ entry ∈ entries, entry.2 = ballots.countP fun ballot => key ballot = key entry.1
  every : ∀ ballot ∈ ballots, ∃ entry ∈ entries, key entry.1 = key ballot

variable {key : Ballot → Key}

theorem keys_vote (ballot : Ballot) (entries : List (Ballot × Nat)) :
    (vote key ballot entries).map (fun entry => key entry.1) =
      if key ballot ∈ entries.map (fun entry => key entry.1) then
        entries.map fun entry => key entry.1
      else entries.map (fun entry => key entry.1) ++ [key ballot] := by
  induction entries with
  | nil => rfl
  | cons entry rest ih =>
      by_cases same : key entry.1 = key ballot
      · simp [vote, same]
      · have other : ¬key ballot = key entry.1 := fun equal => same equal.symm
        simp only [vote, if_neg same, List.map_cons, ih, List.mem_cons, other, false_or]
        split <;> rfl

/-- What an entry is after one more vote: it was there and has another key, or it is the entry
of the ballot's key. -/
theorem mem_vote {ballot : Ballot} {entries : List (Ballot × Nat)} {entry : Ballot × Nat}
    (apart : (entries.map fun entry => key entry.1).Nodup)
    (found : entry ∈ vote key ballot entries) :
    (entry ∈ entries ∧ key entry.1 ≠ key ballot) ∨
      (∃ votes, (entry.1, votes) ∈ entries ∧ key entry.1 = key ballot ∧ entry.2 = votes + 1) ∨
      (entry = (ballot, 1) ∧ key ballot ∉ entries.map fun entry => key entry.1) := by
  induction entries with
  | nil => exact Or.inr (Or.inr ⟨List.mem_singleton.mp found, List.not_mem_nil⟩)
  | cons head rest ih =>
      obtain ⟨alone, restApart⟩ := List.nodup_cons.mp apart
      by_cases same : key head.1 = key ballot
      · rw [vote, if_pos same] at found
        cases List.mem_cons.mp found with
        | inl equal =>
            rw [equal]
            exact Or.inr (Or.inl ⟨head.2, List.mem_cons_self, same, rfl⟩)
        | inr inRest =>
            apply Or.inl
            constructor
            · exact List.mem_cons_of_mem _ inRest
            · intro equal
              apply alone
              change key head.1 ∈ _
              rw [same, ← equal]
              exact List.mem_map_of_mem (f := fun entry : Ballot × Nat => key entry.1) inRest
      · rw [vote, if_neg same] at found
        cases List.mem_cons.mp found with
        | inl equal =>
            rw [equal]
            exact Or.inl ⟨List.mem_cons_self, same⟩
        | inr inRest =>
            cases ih restApart inRest with
            | inl kept => exact Or.inl ⟨List.mem_cons_of_mem _ kept.1, kept.2⟩
            | inr changed =>
                cases changed with
                | inl raised =>
                    obtain ⟨votes, before, equal, sum⟩ := raised
                    exact Or.inr (Or.inl ⟨votes, List.mem_cons_of_mem _ before, equal, sum⟩)
                | inr fresh =>
                    apply Or.inr
                    apply Or.inr
                    constructor
                    · exact fresh.1
                    · intro inside
                      cases List.mem_cons.mp inside with
                      | inl equal => exact same equal.symm
                      | inr within => exact fresh.2 within

theorem vote_counts {ballots : List Ballot} {entries : List (Ballot × Nat)}
    (counts : Counts key ballots entries) (ballot : Ballot) :
    Counts key (ballots ++ [ballot]) (vote key ballot entries) where
  apart := by
    rw [keys_vote]
    split
    · exact counts.apart
    · rename_i new
      exact List.nodup_append.mpr ⟨counts.apart, List.nodup_singleton _, by
        intro first inside second single
        rw [List.mem_singleton.mp single]
        exact fun equal => new (equal ▸ inside)⟩
  cast_ := by
    intro entry found
    rcases mem_vote counts.apart found with kept | ⟨votes, before, _⟩ | ⟨fresh, _⟩
    · exact List.mem_append_left _ (counts.cast_ entry kept.1)
    · exact List.mem_append_left _ (counts.cast_ (entry.1, votes) before)
    · rw [fresh]
      exact List.mem_append_right _ List.mem_cons_self
  votes := by
    intro entry found
    rw [List.countP_append, List.countP_singleton]
    rcases mem_vote counts.apart found with kept | ⟨votes, before, same, sum⟩ | ⟨fresh, new⟩
    · rw [if_neg (by simpa using fun equal : key ballot = key entry.1 => kept.2 equal.symm)]
      exact counts.votes entry kept.1
    · rw [if_pos (by simpa using same.symm), sum]
      exact congrArg (· + 1) (counts.votes _ before)
    · have none_ : ballots.countP (fun earlier => key earlier = key entry.1) = 0 := by
        apply List.countP_eq_zero.mpr
        intro earlier inside equal
        obtain ⟨other, there, sameKey⟩ := counts.every earlier inside
        apply new
        rw [← (congrArg (fun entry => key entry.1) fresh : key entry.1 = key ballot),
          ← of_decide_eq_true equal, ← sameKey]
        exact List.mem_map_of_mem (f := fun entry : Ballot × Nat => key entry.1) there
      rw [none_, fresh, if_pos (by simp)]
  every := by
    intro earlier inside
    have there : key earlier ∈ (vote key ballot entries).map fun entry => key entry.1 := by
      rw [keys_vote]
      cases List.mem_append.mp inside with
      | inl before =>
          obtain ⟨entry, found, same⟩ := counts.every earlier before
          have kept : key earlier ∈ entries.map fun entry => key entry.1 := by
            rw [← same]
            exact List.mem_map_of_mem (f := fun entry : Ballot × Nat => key entry.1) found
          split
          · exact kept
          · exact List.mem_append_left _ kept
      | inr last =>
          rw [List.mem_singleton.mp last]
          split
          · assumption
          · exact List.mem_append_right _ List.mem_cons_self
    obtain ⟨entry, found, same⟩ := List.mem_map.mp there
    exact ⟨entry, found, same⟩

theorem tally_counts (ballots : List Ballot) : Counts key ballots (tally key ballots) := by
  have run (before after : List Ballot) (entries : List (Ballot × Nat))
      (counts : Counts key before entries) :
      Counts key (before ++ after)
        (after.foldl (fun entries ballot => vote key ballot entries) entries) := by
    induction after generalizing before entries with
    | nil => simpa using counts
    | cons ballot after ih =>
        rw [List.foldl_cons, List.append_cons]
        exact ih _ _ (vote_counts counts ballot)
  exact run [] ballots []
    { apart := List.nodup_nil
      cast_ := fun _ inside => absurd inside List.not_mem_nil
      votes := fun _ inside => absurd inside List.not_mem_nil
      every := fun _ inside => absurd inside List.not_mem_nil }

/-- There is an entry exactly where there was a ballot. -/
theorem tally_eq_nil {ballots : List Ballot} : tally key ballots = [] ↔ ballots = [] := by
  constructor
  · intro empty
    apply List.eq_nil_iff_forall_not_mem.mpr
    intro ballot inside
    obtain ⟨entry, found, _⟩ := (@tally_counts _ _ _ key ballots).every ballot inside
    rw [empty] at found
    contradiction
  · intro empty
    rw [empty]
    rfl

end Tally
