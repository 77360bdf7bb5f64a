import PointerLab.AllocateNearSearch

set_option autoImplicit false

/- When the block that `allocateNear` returns is within reach of the hint. -/
namespace PointerLab.Win32Platform

open Domain Alignment

variable {space : AddressSpace} {size hint : Nat}

theorem FirstFit.unique {from_ to_ one other : Nat} (first : FirstFit space size from_ to_ one)
    (second : FirstFit space size from_ to_ other) : one = other :=
  Nat.le_antisymm (first.first other second.place second.above)
    (second.first one first.place first.above)

/-- The end of the search above the hint, where the address space does not cut it short. -/
theorem high_eq {place : Nat} (room : Place space size place) :
    (place < if 2 ^ 64 - 1 - reach < hint then 2 ^ 64 - 1 else hint + reach) ↔
      place < hint + reach := by
  have ends := room.room.fits
  have some_ := room.room.1
  have user := space.user
  have reachValue : reach = 0x7FF00000 := rfl
  split <;> omega

theorem firstFit_high {address : Nat} :
    FirstFit space size hint (if 2 ^ 64 - 1 - reach < hint then 2 ^ 64 - 1 else hint + reach)
        address ↔ FirstFit space size hint (hint + reach) address := by
  constructor
  · intro fit
    exact ⟨fit.place, fit.above, (high_eq fit.place).mp fit.below, fit.first⟩
  · intro fit
    exact ⟨fit.place, fit.above, (high_eq fit.place).mpr fit.below, fit.first⟩

/-- What is handed out at a place is within reach exactly where the condition says so. -/
theorem fitsNear_iff_of_first {address : Nat} (low : hint + space.granularity ≤ 2 ^ 64)
    (first : ∀ other, (FirstFit space size hint (hint + reach) other ∨
      (∀ another, Place space size another → hint ≤ another → hint + reach ≤ another) ∧
        FirstFit space size (hint - reach) hint other) ↔ other = address) :
    FitsNear space size hint ↔
      if address ≠ 0 then WithinReach size hint address
      else if space.virtualAlloc 0 size ≠ 0 then
        WithinReach size hint (space.virtualAlloc 0 size)
      else reach ≤ hint := by
  rw [FitsNear, if_neg (Nat.not_lt_of_le low)]
  constructor
  · intro all
    exact all address ((first address).mpr rfl)
  · intro holds other fit
    rw [(first other).mp fit]
    exact holds

/-- With nothing above the hint, the search below it decides. -/
theorem near_below (low : hint + space.granularity ≤ 2 ^ 64) (nonzero : hint ≠ 0)
    (noAbove : ∀ other, Place space size other → hint ≤ other → hint + reach ≤ other)
    {second : Nat} (found : Found space size (hint - reach) hint second) (failure : Failure) :
    Near space size hint (if second ≠ 0 then .ok second else .error failure) ↔
      FitsNear space size hint := by
  have reachValue : reach = 0x7FF00000 := rfl
  have notAbove {place : Nat} (fit : FirstFit space size hint (hint + reach) place) : False := by
    have beyond := noAbove place fit.place fit.above
    have within := fit.below
    omega
  have fits {place : Nat} (fit : FirstFit space size (hint - reach) hint place) :=
    @fitsNear_iff_of_first space size hint place low fun other =>
      ⟨fun either => either.elim (fun other => (notAbove other).elim) fun below =>
        below.2.unique fit, fun same => Or.inr ⟨noAbove, same ▸ fit⟩⟩
  by_cases none_ : second = 0
  · rw [Found, if_pos none_] at found
    rw [if_neg (not_not.mpr none_)]
    have zero {place : Nat} (room : Place space size place) (after : hint - reach ≤ place)
        (before : place < hint) : place = 0 :=
      eq_zero_of_alloc room (found place room after before) room
    by_cases start : Place space size 0 ∧ hint - reach = 0
    · have fit : FirstFit space size (hint - reach) hint 0 :=
        ⟨start.1, by omega, by omega, fun other _ _ => Nat.zero_le other⟩
      have refused := found 0 start.1 (by omega) (by omega)
      rw [fits fit, if_neg (not_not.mpr rfl), if_neg (not_not.mpr refused)]
      constructor
      · intro far
        have apart := far 0 start.1
        omega
      · intro edge place room
        have same := eq_zero_of_alloc start.1 refused room
        omega
    · have never {place : Nat} (room : Place space size place) (after : hint - reach ≤ place)
          (before : place < hint) : False := by
        have same := zero room after before
        apply start
        constructor
        · rwa [same] at room
        · omega
      constructor
      · intro _
        rw [FitsNear, if_neg (Nat.not_lt_of_le low)]
        intro other fit
        cases fit with
        | inl above => exact (notAbove above).elim
        | inr below => exact (never below.2.place below.2.above below.2.below).elim
      · intro _ place room
        by_cases after : hint ≤ place
        · exact Or.inr (noAbove place room after)
        · by_contra apart
          exact never room (by omega) (by omega)
  · rw [Found, if_neg none_] at found
    obtain ⟨place, fit, equal⟩ := found
    rw [if_pos none_, fits fit]
    by_cases zero : place = 0
    · rw [if_neg (not_not.mpr zero)]
      rw [zero] at equal
      rw [if_pos (equal ▸ none_), equal]
      exact Iff.rfl
    · rw [alloc_place fit.place zero] at equal
      rw [if_pos zero, equal]
      exact Iff.rfl

/-- With a place above the hint, the search above it decides. -/
theorem near_above (low : hint + space.granularity ≤ 2 ^ 64) (nonzero : hint ≠ 0) {place : Nat}
    (fit : FirstFit space size hint (hint + reach) place) :
    Near space size hint (.ok place) ↔ FitsNear space size hint := by
  have after := fit.above
  rw [@fitsNear_iff_of_first space size hint place low, if_pos (by omega)]
  · exact Iff.rfl
  · intro other
    constructor
    · intro either
      cases either with
      | inl fits => exact fits.unique fit
      | inr fits =>
          have beyond := fits.1 place fit.place fit.above
          have within := fit.below
          omega
    · intro same
      rw [same]
      exact Or.inl fit

/-- What the search above the hint came back from empty-handed has no place there. -/
theorem none_above (nonzero : hint ≠ 0)
    (found : Found space size hint
      (if 2 ^ 64 - 1 - reach < hint then 2 ^ 64 - 1 else hint + reach) 0)
    (place : Nat) (room : Place space size place) (after : hint ≤ place) :
    hint + reach ≤ place := by
  rw [Found, if_pos rfl] at found
  by_contra within
  have refused := found place room after ((high_eq room).mpr (Nat.lt_of_not_le within))
  rw [alloc_place room (by omega)] at refused
  omega

/-- In the topmost unit the rounded hint wraps, and the search starts over at 0. -/
theorem alignUp_top (hintWord : hint < 2 ^ 64) (top : 2 ^ 64 < hint + space.granularity) :
    alignUp 64 space.granularity hint = 0 := by
  have bits := space.narrow
  rw [space.unit] at top ⊢
  exact alignUp_eq_zero (by omega) hintWord top

/-- The search below comes back empty-handed when the only place is the address it reads as
a failure. -/
theorem Found.eq_zero {from_ to_ result : Nat} (found : Found space size from_ to_ result)
    (positive : from_ ≠ 0) (none_ : ∀ place, Place space size place → place = 0) : result = 0 := by
  by_contra given
  rw [Found, if_neg given] at found
  obtain ⟨place, fit, _⟩ := found
  have zero := none_ place fit.place
  have after := fit.above
  omega

/-- Nothing the system picks is near a hint in the topmost unit. -/
theorem not_near_top (top : 2 ^ 64 < hint + space.granularity)
    (picked : space.virtualAlloc 0 size ≠ 0) :
    ¬Near space size hint (.ok (space.virtualAlloc 0 size)) := by
  have narrow := granularity_le space
  have user := space.user
  have room := (space.pick_free size picked).2
  have ends := room.fits
  intro near
  have first := (near _ (Nat.le_refl _) (by have := room.1; omega)).1
  unfold Rel32 at first
  omega

/-- Both searches end, and what `allocateNear` returns is near exactly where the block that fits
first is within reach. -/
theorem allocateNear_near_iff (space : AddressSpace) {size hint : Nat} (word : size < 2 ^ 64)
    (hintWord : hint < 2 ^ 64) (nonzero : hint ≠ 0) {rounds : Nat} (enough : 2 ^ 66 ≤ rounds) :
    ∃ result, allocateNear space.toKernel size rounds hint = some result ∧
      (Near space size hint result ↔ FitsNear space size hint) := by
  have reachValue : reach = 0x7FF00000 := rfl
  have narrow := granularity_le space
  have user := space.user
  have lowEq : (if reach < hint then hint - reach else 0) = hint - reach := by
    split <;> omega
  rw [allocateNear, if_neg nonzero]
  simp only [lowEq]
  have below : Span space (hint - reach) hint := ⟨by omega, by omega⟩
  obtain ⟨second, ranBelow, foundBelow⟩ := search_span word below enough
  by_cases top : 2 ^ 64 < hint + space.granularity
  · rw [FitsNear, if_pos top, alignUp_top hintWord top, if_pos (by omega)]
    by_cases none_ : ∀ place, Place space size place → place = 0
    · have refused : second = 0 := foundBelow.eq_zero (by omega) none_
      rw [search_top_none top hintWord word none_ (by omega)]
      simp only [ne_eq, not_true_eq_false, ↓reduceIte, ranBelow, refused]
      refine ⟨_, rfl, ?_⟩
      constructor
      · intro _
        exact none_
      · intro _ place room
        have zero := none_ place room
        omega
    · obtain ⟨place, room, positive⟩ : ∃ place, Place space size place ∧ place ≠ 0 := by
        simpa using none_
      have picked := space.pick_some place size positive room.aligned room.room
      have ends := (space.pick_free size picked).2.fits
      rw [search_top_some top hintWord word room positive (by omega) (Nat.zero_le _) (by omega)]
      simp only [ne_eq, picked, not_false_eq_true, ↓reduceIte]
      refine ⟨_, rfl, ?_⟩
      simp only [none_, iff_false]
      exact not_near_top top picked
  · have low : hint + space.granularity ≤ 2 ^ 64 := by omega
    have above : Span space hint
        (if 2 ^ 64 - 1 - reach < hint then 2 ^ 64 - 1 else hint + reach) :=
      ⟨by split <;> omega, low⟩
    obtain ⟨first, ranAbove, foundAbove⟩ := search_span word above enough
    simp only [ranAbove, ranBelow]
    by_cases none_ : first = 0
    · rw [if_neg (not_not.mpr none_)]
      rw [none_] at foundAbove
      have decided := near_below low nonzero (none_above nonzero foundAbove) foundBelow
      by_cases gone : second = 0
      · simp only [gone, ne_eq, not_true_eq_false, ↓reduceIte] at decided ⊢
        exact ⟨_, rfl, decided _⟩
      · simp only [gone, ne_eq, not_false_eq_true, ↓reduceIte] at decided ⊢
        exact ⟨_, rfl, decided ⟨"", 0⟩⟩
    · rw [Found, if_neg none_] at foundAbove
      obtain ⟨place, fit, equal⟩ := foundAbove
      rw [firstFit_high] at fit
      have after := fit.above
      rw [alloc_place fit.place (by omega)] at equal
      rw [if_pos none_, equal]
      exact ⟨_, rfl, near_above low nonzero fit⟩

/-- A block shorter than the margin that `reach` leaves below 2 GB fits, wherever it is. -/
theorem fitsNear_of_short (far : reach < hint) (low : hint + space.granularity ≤ 2 ^ 64)
    (short : size ≤ 0xFFFFD) : FitsNear space size hint := by
  have reachValue : reach = 0x7FF00000 := rfl
  have near {address : Nat} (above : hint - reach ≤ address) (below : address < hint + reach) :
      WithinReach size hint address := by
    intro byte first last
    unfold Rel32
    omega
  rw [FitsNear, if_neg (Nat.not_lt_of_le low)]
  intro address fit
  have bounds : hint - reach ≤ address ∧ address < hint + reach := by
    cases fit with
    | inl above =>
        have least := above.above
        have most := above.below
        omega
    | inr below =>
        have least := below.2.above
        have most := below.2.below
        omega
  rw [if_pos (by omega)]
  exact near bounds.1 bounds.2

theorem freeBlock_hole {first last size address : Nat} :
    FreeBlock (fun byte => first ≤ byte && byte < last) size address ↔
      0 < size ∧ first ≤ address ∧ address + size ≤ last := by
  simp only [FreeBlock, Bool.and_eq_true, decide_eq_true_eq]
  constructor
  · rintro ⟨positive, free⟩
    have start := free address (Nat.le_refl _) (by omega)
    have finish := free (address + size - 1) (by omega) (by omega)
    omega
  · rintro ⟨positive, after, before⟩
    refine ⟨positive, ?_⟩
    intro byte above below
    omega

/-- An address space with one hole in it. -/
def oneHole (first last : Nat) (aligned : 0x10000 ∣ first) (positive : 0 < first)
    (order : first < last) (user : last < 2 ^ 47) : AddressSpace where
  allocationGranularity := 0x10000
  virtualQuery := fun address =>
    if address < first then some ⟨0, first, false⟩
    else if address < last then some ⟨first, last - first, true⟩
    else if address < 2 ^ 47 then some ⟨last, 2 ^ 47 - last, false⟩
    else none
  virtualAlloc := fun address size =>
    if address = 0 then if 0 < size ∧ size ≤ last - first then first else 0
    else if 0 < size ∧ first ≤ address ∧ address + size ≤ last then address else 0
  free := fun byte => first ≤ byte && byte < last
  limit := 2 ^ 47
  user := by decide
  inside := by
    intro byte free
    simp only [Bool.and_eq_true, decide_eq_true_eq] at free
    omega
  bits := 16
  narrow := by decide
  unit := rfl
  query_none := by
    intro address beyond
    rw [if_neg (by omega), if_neg (by omega), if_neg (by omega)]
  query_some := by
    intro address inside
    have free (byte : Nat) (state : Bool) : (first ≤ byte && byte < last) = state ↔
        (if state = true then first ≤ byte ∧ byte < last else byte < first ∨ last ≤ byte) := by
      cases state with
      | true => simp
      | false => simp; omega
    simp only [free]
    by_cases low : address < first
    · refine ⟨_, if_pos low, ?_, ?_, ?_, ?_, ?_⟩ <;> simp <;> omega
    · by_cases within : address < last
      · refine ⟨_, (if_neg low).trans (if_pos within), ?_, ?_, ?_, ?_, ?_⟩ <;> simp <;> omega
      · refine ⟨_, (if_neg low).trans ((if_neg within).trans (if_pos inside)), ?_, ?_, ?_, ?_, ?_⟩
          <;> simp <;> omega
  alloc_free := by
    intro address size nonzero _ room
    rw [if_neg nonzero, if_pos (freeBlock_hole.mp room)]
  alloc_taken := by
    intro address size nonzero _ taken
    rw [if_neg nonzero, if_neg fun room => taken (freeBlock_hole.mpr room)]
  pick_free := by
    intro size given
    simp only [↓reduceIte] at given ⊢
    split at given
    · rename_i fits
      rw [if_pos fits]
      exact ⟨aligned, freeBlock_hole.mpr (by omega)⟩
    · contradiction
  pick_some := by
    intro address size _ _ room
    have fits := freeBlock_hole.mp room
    rw [if_pos rfl, if_pos (by omega)]
    omega

/-- A hole of 2 MB that starts less than 0x7FF00000 bytes above 0x140000000. -/
def farHole : AddressSpace :=
  oneHole 0x1BFEF0000 0x1C00F0000 (by decide) (by decide) (by decide) (by decide)

theorem allocateNear_hole :
    ∃ result, allocateNear farHole.toKernel 0x1000 (2 ^ 66) 0x140000000 = some result ∧
      Near farHole 0x1000 0x140000000 result := by
  obtain ⟨result, ran, near⟩ :=
    @allocateNear_near_iff farHole 0x1000 0x140000000 (by decide) (by decide) (by decide) _
      (Nat.le_refl _)
  have first : Place farHole 0x1000 0x1BFEF0000 := ⟨by decide, freeBlock_hole.mpr (by decide)⟩
  refine ⟨result, ran, near.mpr ?_⟩
  rw [FitsNear, if_neg (by decide)]
  rintro address (fit | ⟨nothingAbove, _⟩)
  · have least := fit.first _ first (by decide)
    obtain ⟨_, start, _⟩ := freeBlock_hole.mp fit.place.room
    obtain rfl : address = 0x1BFEF0000 := Nat.le_antisymm least start
    rw [if_pos (by decide)]
    intro byte low high
    unfold Rel32
    omega
  · exact absurd (nothingAbove _ first (by decide)) (by decide)

/-- The block is the whole hole, and the last byte of it is 2 GB and 0xEFFFF bytes away. -/
theorem allocateNear_far :
    allocateNear farHole.toKernel 0x200000 3 0x140000000 = some (.ok 0x1BFEF0000) ∧
      ¬Near farHole 0x200000 0x140000000 (.ok 0x1BFEF0000) := by
  constructor
  · decide +kernel
  · intro near
    have last := (near 0x1C00EFFFF (by decide) (by decide)).1
    unfold Rel32 at last
    omega

end PointerLab.Win32Platform
