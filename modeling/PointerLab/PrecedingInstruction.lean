import PointerLab.Disassembler
import Mathlib.Order.Interval.Finset.Nat

set_option autoImplicit false

/- What `precedingInstruction` finds: of the instructions that end at an address, the one that
most of the positions in the window before it lead to. -/
namespace PointerLab.Disassembler

open Domain TargetView

section Specification

variable (decode : List UInt8 → Option Nat) (memory : Nat → Option UInt8) (address : Nat)

/-- Decoding forward from a place, through instructions that end before an address, comes to one
that ends at it. The decoder has the bytes up to the address. -/
inductive Reaches : (place start : Nat) → Prop
  | lands {place length : Nat}
      (decoded : decode (readable memory place (address - place)) = some length)
      (positive : 0 < length) (ends : place + length = address) : Reaches place place
  | steps {place length start : Nat}
      (decoded : decode (readable memory place (address - place)) = some length)
      (positive : 0 < length) (before : place + length < address)
      (rest : Reaches (place + length) start) : Reaches place start

/-- Everything from a place up to an address can be read. -/
def OpenFrom (place : Nat) : Prop :=
  ∀ between, place ≤ between → between < address → memory between ≠ none

/-- The longest readable window of at most `back` bytes before an address. -/
structure IsWindow (back size : Nat) : Prop where
  short : size ≤ back
  inside : size ≤ address
  open_ : OpenFrom memory address (address - size)
  longest : ∀ larger ≤ back, larger ≤ address → OpenFrom memory address (address - larger) →
    larger ≤ size

open Classical in
/-- How many positions of a window lead to an instruction start. -/
noncomputable def votes (size start : Nat) : Nat :=
  ((Finset.Icc 1 size).filter fun back =>
    Reaches decode memory address (address - back) start).card

/-- An instruction right before an address that no other has more votes than, and no longer one
as many. -/
structure Precedes (size : Nat) (found : Instruction) : Prop where
  ends : found.address + found.bytes.length = address
  read : readable memory found.address found.bytes.length = found.bytes
  decodes : decode found.bytes = some found.bytes.length
  reached : 0 < votes decode memory address size found.address
  most : ∀ start, 0 < votes decode memory address size start →
    votes decode memory address size start < votes decode memory address size found.address ∨
      votes decode memory address size start = votes decode memory address size found.address ∧
        address - start ≤ found.bytes.length

/-- What the reads of a session see. -/
def shown (view : TargetView) (place : Nat) : Option UInt8 :=
  if view.attached then view.memory place else none

end Specification

variable {decoder : Decoder} {memory : Nat → Option UInt8} {address : Nat}

theorem OpenFrom.later {place later : Nat} (open_ : OpenFrom memory address place)
    (above : place ≤ later) : OpenFrom memory address later :=
  fun between after before => open_ between (Nat.le_trans above after) before

theorem readable_length_of_open {place : Nat} (open_ : OpenFrom memory address place) :
    (readable memory place (address - place)).length = address - place := by
  apply readable_length
  intro index within
  apply open_
  · omega
  · omega

/-- What is left of an open window behind some of its bytes. -/
theorem readable_drop_of_open {place length : Nat} (open_ : OpenFrom memory address place)
    (inside : place + length ≤ address) :
    (readable memory place (address - place)).drop length =
      readable memory (place + length) (address - (place + length)) := by
  rw [readable_drop (by rw [readable_length_of_open open_]; omega), Nat.sub_add_eq]

theorem isWindow_unique {back first second : Nat} (one : IsWindow memory address back first)
    (other : IsWindow memory address back second) : first = second :=
  Nat.le_antisymm (other.longest first one.short one.inside one.open_)
    (one.longest second other.short other.inside other.open_)

/-- The loop over ever shorter reads ends with the window. -/
theorem lookbackWindow_isWindow {view : TargetView} (attached : view.attached = true) {back : Nat}
    (inside : back ≤ address) :
    ∃ size, IsWindow view.memory address back size ∧
      lookbackWindow view address back = readable view.memory (address - size) size := by
  induction back with
  | zero =>
      refine ⟨0, ⟨Nat.le_refl _, inside, ?_, fun larger small _ _ => small⟩, rfl⟩
      intro between after before
      omega
  | succ back ih =>
      have span : address - (address - (back + 1)) = back + 1 := by omega
      by_cases open_ : OpenFrom view.memory address (address - (back + 1))
      · have whole := readable_length_of_open open_
        rw [span] at whole
        refine ⟨back + 1, ⟨Nat.le_refl _, inside, open_, fun larger small _ _ => small⟩, ?_⟩
        rw [lookbackWindow, readBytes_eq attached (by omega)]
        simp only [whole, ↓reduceIte]
      · have cut :
            (readable view.memory (address - (back + 1)) (back + 1)).length ≠ back + 1 := by
          intro whole
          apply open_
          intro between after before
          have last := (@lt_readable_length view.memory (address - (back + 1)) (back + 1) back).mp
            (by omega)
          have here := last.2 (between - (address - (back + 1))) (by omega)
          rwa [Nat.add_sub_cancel' after] at here
        obtain ⟨size, window, found⟩ := ih (by omega)
        refine ⟨size, ⟨?_, window.inside, window.open_, ?_⟩, ?_⟩
        · have short := window.short
          omega
        · intro larger small within openLarger
          apply window.longest larger _ within openLarger
          have other : larger ≠ back + 1 := fun equal => open_ (equal ▸ openLarger)
          omega
        · rw [lookbackWindow]
          cases readBytes_cases (address - (back + 1)) (back + 1) attached with
          | inl answered =>
              rw [answered]
              simp only [if_neg cut, found]
          | inr refused =>
              obtain ⟨⟨failure, answered⟩, _⟩ := refused
              rw [answered]
              exact found

theorem Reaches.le {decode : List UInt8 → Option Nat} {place start : Nat}
    (reaches : Reaches decode memory address place start) : place ≤ start := by
  induction reaches with
  | lands => exact Nat.le_refl _
  | steps _ _ _ _ ih => omega

/-- What is reached is an instruction that ends at the address. -/
theorem Reaches.last {decode : List UInt8 → Option Nat} {place start : Nat}
    (reaches : Reaches decode memory address place start) :
    ∃ length, decode (readable memory start (address - start)) = some length ∧ 0 < length ∧
      start + length = address := by
  induction reaches with
  | lands decoded positive ends => exact ⟨_, decoded, positive, ends⟩
  | steps _ _ _ _ ih => exact ih

theorem decodeOne_address (bytes : List UInt8) (place : Nat) :
    (decodeOne decoder place bytes).address = place := by
  unfold decodeOne
  split <;> rfl

theorem decodeOne_bytes {bytes : List UInt8} {length : Nat}
    (decoded : decoder.decode bytes = some length) (place : Nat) :
    (decodeOne decoder place bytes).bytes = (bytes ++ List.replicate length 0).take length := by
  simp only [decodeOne, decoded]

theorem decodeOne_length {bytes : List UInt8} {length : Nat}
    (decoded : decoder.decode bytes = some length) (place : Nat) :
    (decodeOne decoder place bytes).bytes.length = length := by
  simp only [decodeOne_bytes decoded, List.length_take, List.length_append, List.length_replicate]
  omega

theorem decodeOne_valid {bytes : List UInt8} {length : Nat}
    (decoded : decoder.decode bytes = some length) (place : Nat) :
    (decodeOne decoder place bytes).valid = true := by
  simp only [decodeOne, decoded]

/-- One round of the loop over a listing, with the decode that makes its entry. -/
theorem landing_decodeBuffer {bytes : List UInt8} (some_ : 0 < bytes.length) (count place : Nat) :
    landing address (decodeBuffer decoder (count + 1) bytes place) =
      match decoder.decode bytes with
      | none => none
      | some length =>
          if length = 0 then none
          else if place + length = address then some (decodeOne decoder place bytes)
          else if address < place + length then none
          else
            landing address
              (decodeBuffer decoder count (bytes.drop length) (place + length)) := by
  cases bytes with
  | nil => contradiction
  | cons byte rest =>
      cases decoded : decoder.decode (byte :: rest) with
      | none =>
          have invalid : (decodeOne decoder place (byte :: rest)).valid = false := by
            simp only [decodeOne, decoded]
          simp only [decodeBuffer, landing, invalid, Bool.not_false, Bool.true_or, ↓reduceIte]
      | some length =>
          have size := decodeOne_length decoded place
          have empty :
              (decodeOne decoder place (byte :: rest)).bytes.isEmpty = decide (length = 0) := by
            rw [Bool.eq_iff_iff, decide_eq_true_iff, List.isEmpty_iff,
              ← List.length_eq_zero_iff, size]
          simp only [decodeBuffer, landing, decodeOne_valid decoded, decodeOne_address, size, empty,
            Bool.not_true, Bool.false_or, decide_eq_true_eq]

/-- A listing from an open place that lands has decoded its way there. -/
theorem reaches_of_landing {count place : Nat} {found : Instruction}
    (open_ : OpenFrom memory address place) (before : place < address)
    (lands : landing address
      (decodeBuffer decoder count (readable memory place (address - place)) place) = some found) :
    Reaches decoder.decode memory address place found.address ∧
      found = decodeOne decoder found.address
        (readable memory found.address (address - found.address)) := by
  induction count generalizing place with
  | zero => simp [decodeBuffer, landing] at lands
  | succ count ih =>
      have some_ : 0 < (readable memory place (address - place)).length := by
        rw [readable_length_of_open open_]
        omega
      rw [landing_decodeBuffer some_] at lands
      cases decoded : decoder.decode (readable memory place (address - place)) with
      | none => simp [decoded] at lands
      | some length =>
          simp only [decoded] at lands
          split at lands
          · contradiction
          · rename_i positive
            split at lands
            · rename_i ends
              injection lands with equal
              rw [← equal, decodeOne_address]
              exact ⟨.lands decoded (Nat.pos_of_ne_zero positive) ends, rfl⟩
            · split at lands
              · contradiction
              · have earlier : place + length < address := by omega
                rw [readable_drop_of_open open_ (Nat.le_of_lt earlier)] at lands
                obtain ⟨reaches, equal⟩ :=
                  ih (open_.later (Nat.le_add_right _ _)) earlier lands
                exact ⟨.steps decoded (Nat.pos_of_ne_zero positive) earlier reaches, equal⟩

/-- An instruction has at least one byte, so a listing has room for all that lead to the
address. -/
theorem landing_of_reaches {place start : Nat}
    (reaches : Reaches decoder.decode memory address place start)
    (open_ : OpenFrom memory address place) {count : Nat} (enough : address - place ≤ count) :
    landing address (decodeBuffer decoder count (readable memory place (address - place)) place) =
      some (decodeOne decoder start (readable memory start (address - start))) := by
  induction reaches generalizing count with
  | @lands place length decoded positive ends =>
      obtain ⟨count, rfl⟩ : ∃ less, count = less + 1 := ⟨count - 1, by omega⟩
      rw [landing_decodeBuffer (by rw [readable_length_of_open open_]; omega), decoded]
      simp only [if_neg (Nat.ne_of_gt positive), if_pos ends]
  | @steps place length start decoded positive before _ ih =>
      obtain ⟨count, rfl⟩ : ∃ less, count = less + 1 := ⟨count - 1, by omega⟩
      have short : ¬address < place + length := by omega
      rw [landing_decodeBuffer (by rw [readable_length_of_open open_]; omega), decoded]
      simp only [if_neg (Nat.ne_of_gt positive), if_neg (Nat.ne_of_lt before), if_neg short,
        readable_drop_of_open open_ (Nat.le_of_lt before)]
      exact ih (open_.later (Nat.le_add_right _ _)) (by omega)

section Votes

variable {size : Nat} (open_ : OpenFrom memory address (address - size)) (inside : size ≤ address)
include open_ inside

theorem window_length : (readable memory (address - size) size).length = size := by
  have whole := readable_length_of_open open_
  rwa [Nat.sub_sub_self inside] at whole

theorem window_drop {back : Nat} (short : back ≤ size) :
    (readable memory (address - size) size).drop (size - back) =
      readable memory (address - back) (address - (address - back)) := by
  have span : address - (address - size) = size := Nat.sub_sub_self inside
  have skip : address - size + (size - back) = address - back := by omega
  have dropped := @readable_drop_of_open memory address _ (size - back) open_ (by omega)
  rwa [span, skip] at dropped

theorem mem_landings {found : Instruction} :
    found ∈ landings decoder (readable memory (address - size) size) address ↔
      ∃ back, 1 ≤ back ∧ back ≤ size ∧
        Reaches decoder.decode memory address (address - back) found.address ∧
        found = decodeOne decoder found.address
          (readable memory found.address (address - found.address)) := by
  simp only [landings, List.mem_filterMap, List.mem_reverse, List.mem_range'_1,
    window_length open_ inside]
  constructor
  · rintro ⟨back, ⟨least, below⟩, lands⟩
    rw [window_drop open_ inside (by omega)] at lands
    obtain ⟨reaches, equal⟩ := reaches_of_landing (open_.later (by omega)) (by omega) lands
    exact ⟨back, least, by omega, reaches, equal⟩
  · rintro ⟨back, least, short, reaches, equal⟩
    refine ⟨back, ⟨least, by omega⟩, ?_⟩
    rw [window_drop open_ inside short, equal]
    exact landing_of_reaches reaches (open_.later (by omega)) (by omega)

theorem mem_landings_of_reaches {back start : Nat} (least : 1 ≤ back) (short : back ≤ size)
    (reaches : Reaches decoder.decode memory address (address - back) start) :
    decodeOne decoder start (readable memory start (address - start)) ∈
      landings decoder (readable memory (address - size) size) address := by
  apply (mem_landings open_ inside).mpr
  refine ⟨back, least, short, ?_, ?_⟩
  · rwa [decodeOne_address]
  · rw [decodeOne_address]

/-- The ballots for a start are the positions that lead to it. -/
theorem countP_landings (start : Nat) :
    (landings decoder (readable memory (address - size) size) address).countP
        (fun found => found.address = start) =
      votes decoder.decode memory address size start := by
  classical
  have card : votes decoder.decode memory address size start =
      (List.range' 1 size).countP
        fun back => Reaches decoder.decode memory address (address - back) start := by
    rw [votes, List.countP_eq_length_filter]
    simp only [Finset.card, Finset.filter_val]
    rfl
  rw [card, landings, List.countP_filterMap, List.countP_reverse, window_length open_ inside]
  apply List.countP_congr
  intro back within
  obtain ⟨least, below⟩ := List.mem_range'_1.mp within
  rw [window_drop open_ inside (by omega), decide_eq_true_iff]
  constructor
  · intro lands
    cases shape : landing address (decodeBuffer decoder back
        (readable memory (address - back) (address - (address - back))) (address - back)) with
    | none => simp [shape] at lands
    | some found =>
        have same : found.address = start := by simpa [shape] using lands
        rw [← same]
        exact (reaches_of_landing (open_.later (by omega)) (by omega) shape).1
  · intro reaches
    rw [landing_of_reaches reaches (open_.later (by omega)) (by omega)]
    simp [decodeOne_address]

end Votes

/-- What an address that is reached has before it. -/
theorem decodeOne_of_reaches {place start : Nat}
    (reaches : Reaches decoder.decode memory address place start)
    (open_ : OpenFrom memory address place) :
    let found := decodeOne decoder start (readable memory start (address - start))
    start + found.bytes.length = address ∧ readable memory start found.bytes.length = found.bytes ∧
      decoder.decode found.bytes = some found.bytes.length ∧ found.valid = true := by
  intro found
  obtain ⟨length, decoded, positive, ends⟩ := reaches.last
  have size : found.bytes.length = length := decodeOne_length decoded start
  have whole := readable_length_of_open (open_.later reaches.le)
  have span : address - start = length := by omega
  rw [span] at whole
  have bytes : found.bytes = readable memory start length := by
    rw [decodeOne_bytes decoded, span, List.take_append_of_le_length (Nat.le_of_eq whole.symm),
      List.take_of_length_le (Nat.le_of_eq whole)]
  refine ⟨by omega, by rw [size, bytes], ?_, decodeOne_valid decoded start⟩
  rw [size, bytes, ← span, decoded, span]

theorem votes_pos {decode : List UInt8 → Option Nat} {size start : Nat} :
    0 < votes decode memory address size start ↔
      ∃ back, 1 ≤ back ∧ back ≤ size ∧ Reaches decode memory address (address - back) start := by
  simp only [votes, Finset.card_pos, Finset.Nonempty, Finset.mem_filter, Finset.mem_Icc, and_assoc]

/-- The entries of the vote are the starts that are reached, each with the positions that lead
to it. -/
theorem candidates_iff {size : Nat} (open_ : OpenFrom memory address (address - size))
    (inside : size ≤ address) {start count : Nat} :
    (∃ found, (found, count) ∈ Tally.tally Instruction.address
        (landings decoder (readable memory (address - size) size) address) ∧
      found.address = start) ↔
      0 < votes decoder.decode memory address size start ∧
        count = votes decoder.decode memory address size start := by
  have counts := @Tally.tally_counts _ _ _ Instruction.address
    (landings decoder (readable memory (address - size) size) address)
  constructor
  · rintro ⟨found, entry, rfl⟩
    obtain ⟨back, least, short, reaches, _⟩ :=
      (mem_landings open_ inside).mp (counts.cast_ _ entry)
    constructor
    · exact votes_pos.mpr ⟨back, least, short, reaches⟩
    · rw [← countP_landings open_ inside]
      exact counts.votes _ entry
  · rintro ⟨positive, rfl⟩
    obtain ⟨back, least, short, reaches⟩ := votes_pos.mp positive
    obtain ⟨entry, there, same⟩ :=
      counts.every _ (mem_landings_of_reaches open_ inside least short reaches)
    rw [decodeOne_address] at same
    refine ⟨entry.1, ?_, same⟩
    have all := counts.votes entry there
    rw [countP_landings open_ inside, same] at all
    rw [← all]
    exact there

/-- The first of the entries that none has more votes than, nor as many and more bytes. -/
theorem precedes_of_argmax {size : Nat} (open_ : OpenFrom memory address (address - size))
    (inside : size ≤ address) {best : Instruction × Nat}
    (chosen : best ∈ (Tally.tally Instruction.address
      (landings decoder (readable memory (address - size) size) address)).argmax
        fun candidate => toLex (candidate.2, candidate.1.bytes.length)) :
    Precedes decoder.decode memory address size best.1 ∧ best.1.valid = true := by
  have entry := List.argmax_mem chosen
  obtain ⟨positive, count⟩ := (candidates_iff open_ inside).mp ⟨best.1, entry, rfl⟩
  have counts := @Tally.tally_counts _ _ _ Instruction.address
    (landings decoder (readable memory (address - size) size) address)
  have shape {found : Instruction}
      (there : found ∈ landings decoder (readable memory (address - size) size) address) :
      found.address + found.bytes.length = address ∧
        readable memory found.address found.bytes.length = found.bytes ∧
        decoder.decode found.bytes = some found.bytes.length ∧ found.valid = true := by
    obtain ⟨back, least, short, reaches, equal⟩ := (mem_landings open_ inside).mp there
    have facts := decodeOne_of_reaches reaches (open_.later (by omega))
    rw [← equal] at facts
    exact facts
  obtain ⟨ends, read, decodes, valid⟩ := shape (counts.cast_ _ entry)
  refine ⟨⟨ends, read, decodes, positive, ?_⟩, valid⟩
  intro start reached
  obtain ⟨other, there, rfl⟩ := (candidates_iff open_ inside).mpr ⟨reached, rfl⟩
  have least := List.le_of_mem_argmax there chosen
  rw [Prod.Lex.le_iff] at least
  simp only [ofLex_toLex, count] at least
  cases least with
  | inl fewer => exact Or.inl fewer
  | inr equal =>
      have otherEnds : other.address + other.bytes.length = address :=
        (shape (counts.cast_ _ there)).1
      have longer : other.bytes.length ≤ best.1.bytes.length := equal.2
      exact Or.inr ⟨equal.1, by omega⟩

theorem shown_eq {view : TargetView} (attached : view.attached = true) :
    shown view = view.memory := by
  funext place
  exact if_pos attached

/-- Of the sizes of the readable windows before an address one is the largest. -/
theorem exists_isWindow (memory : Nat → Option UInt8) (address : Nat) :
    ∃ size, IsWindow memory address 24 size := by
  obtain ⟨size, window, _⟩ :=
    @lookbackWindow_isWindow address { memory } rfl (min 24 address) (Nat.min_le_right _ _)
  refine ⟨size, ?_, window.inside, window.open_, ?_⟩
  · exact Nat.le_trans window.short (Nat.min_le_left _ _)
  · intro larger small within
    exact window.longest larger (Nat.le_min.mpr ⟨small, within⟩) within

/-- Beyond the first addresses the answer is the vote: an empty window has no ballots. -/
theorem precedingInstruction_eq (decoder : Bitness → Decoder) {view : TargetView}
    (attached : view.attached = true) {address : Nat} (high : 24 < address) :
    precedingInstruction decoder view address =
      ((Tally.tally Instruction.address
        (landings (decoder view.bitness) (lookbackWindow view address 24) address)).argmax
          fun candidate => toLex (candidate.2, candidate.1.bytes.length)).map Prod.fst := by
  have go : ¬(!view.attached || decide (address ≤ 24)) = true := by
    simp [attached, Nat.not_le_of_lt high]
  rw [precedingInstruction, if_neg go]
  cases lookbackWindow view address 24 with
  | nil => rfl
  | cons byte rest => rfl

/-- For any target and any decoder: what `precedingInstruction` returns ends at the address, is
what the target has there and decodes, and has the most votes of the window, a longer instruction
before a shorter with as many. Nothing is returned for the first 24 addresses, and beyond them
exactly where no position leads to the address. -/
theorem precedingInstruction_precedes (decoder : Bitness → Decoder) (view : TargetView)
    (address : Nat) :
    ∃ size, IsWindow (shown view) address 24 size ∧
      (∀ found, precedingInstruction decoder view address = some found →
        Precedes (decoder view.bitness).decode (shown view) address size found ∧
          found.valid = true) ∧
      (precedingInstruction decoder view address = none ↔ address ≤ 24 ∨
        ∀ back start, 1 ≤ back → back ≤ size →
          ¬Reaches (decoder view.bitness).decode (shown view) address (address - back) start) := by
  obtain ⟨size, window⟩ := exists_isWindow (shown view) address
  refine ⟨size, window, ?_⟩
  by_cases attached : view.attached = true
  · rw [shown_eq attached] at window ⊢
    by_cases low : address ≤ 24
    · have none_ : precedingInstruction decoder view address = none := by
        rw [precedingInstruction, if_pos (by simp [low])]
      simp [none_, low]
    · obtain ⟨other, same, read⟩ := lookbackWindow_isWindow attached (Nat.le_of_not_le low)
      rw [isWindow_unique same window] at read
      rw [precedingInstruction_eq decoder attached (Nat.lt_of_not_le low), read]
      constructor
      · intro found chosen
        obtain ⟨best, first, rfl⟩ := Option.map_eq_some_iff.mp chosen
        exact precedes_of_argmax window.open_ window.inside first
      · rw [Option.map_eq_none_iff, List.argmax_eq_none, Tally.tally_eq_nil,
          List.eq_nil_iff_forall_not_mem]
        simp only [low, false_or]
        constructor
        · intro empty back start least short reaches
          exact empty _ (mem_landings_of_reaches window.open_ window.inside least short reaches)
        · intro none_ found ballot
          obtain ⟨back, least, short, reaches, _⟩ :=
            (mem_landings window.open_ window.inside).mp ballot
          exact none_ back found.address least short reaches
  · have closed : size = 0 := by
      by_contra positive
      apply window.open_ (address - 1)
      · omega
      · have within := window.inside
        omega
      · rw [shown, if_neg attached]
    have none_ : precedingInstruction decoder view address = none := by
      rw [precedingInstruction, if_pos (by simp [attached])]
    simp only [none_, closed, reduceCtorEq, false_implies, implies_true, true_and, true_iff]
    apply Or.inr
    intro back start least short
    omega

/-- Code that is all one-byte nops. -/
def nops : Decoder where
  decode := fun bytes => if bytes.head? = some 0x90 then some 1 else none
  text := fun _ _ => "nop".toList
  branchTarget := fun _ _ => 0

def lowNops : TargetView where
  memory := fun place => if place < 24 then some 0x90 else none

/-- The 24 bytes before address 24 are nops, the last of which ends there. -/
theorem precedingInstruction_low :
    precedingInstruction (fun _ => nops) lowNops 24 = none ∧
      IsWindow (shown lowNops) 24 24 24 ∧ Reaches nops.decode (shown lowNops) 24 (24 - 1) 23 := by
  refine ⟨rfl, ⟨Nat.le_refl _, Nat.le_refl _, ?_, fun larger small _ _ => small⟩, ?_⟩
  · intro between _ before
    simp [shown, lowNops, before]
  · exact @Reaches.lands _ _ _ _ 1 (by decide) Nat.one_pos rfl

end PointerLab.Disassembler
