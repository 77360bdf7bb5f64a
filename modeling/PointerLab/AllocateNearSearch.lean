import PointerLab.AllocateNear

set_option autoImplicit false

/- The two loops of `allocateNear` over the regions of a process: a search takes the lowest place
it comes to, and one that ends without a block has come past none. -/
namespace PointerLab.Win32Platform

open Domain Alignment

variable {space : AddressSpace} {size hint : Nat}

theorem FreeBlock.fits {address : Nat} (room : FreeBlock space.free size address) :
    address + size ≤ space.limit := by
  have last := space.inside (address + size - 1)
    (room.2 _ (by have := room.1; omega) (by have := room.1; omega))
  have positive := room.1
  omega

theorem alloc_place {address : Nat} (place : Place space size address) (positive : address ≠ 0) :
    space.virtualAlloc address size = address :=
  space.alloc_free address size positive place.aligned place.room

/-- Only at address 0 can there be a free block that is not handed out, and then there is no
other. -/
theorem eq_zero_of_alloc {address other : Nat} (place : Place space size address)
    (refused : space.virtualAlloc address size = 0) (another : Place space size other) :
    other = 0 := by
  by_contra positive
  by_cases zero : address = 0
  · rw [zero] at refused
    exact space.pick_some other size positive another.aligned another.room refused
  · rw [alloc_place place zero] at refused
    exact zero refused

theorem place_of_alloc {address : Nat} (aligned : space.granularity ∣ address)
    (positive : address ≠ 0) (given : space.virtualAlloc address size ≠ 0) :
    Place space size address := by
  by_contra taken
  apply given
  apply space.alloc_taken address size positive aligned
  intro room
  exact taken ⟨aligned, room⟩

/-- What comes of a search from one address up to another: the lowest place, or 0 when nothing is
handed out. -/
def Found (space : AddressSpace) (size from_ to_ result : Nat) : Prop :=
  if result = 0 then
    ∀ address, Place space size address → from_ ≤ address → address < to_ →
      space.virtualAlloc address size = 0
  else
    ∃ address, FirstFit space size from_ to_ address ∧ result = space.virtualAlloc address size

section Slots

variable {last to_ : Nat}

/-- The slots of a region: the first at which a block is handed out. -/
theorem trySlots_spec (bounded : to_ + space.granularity ≤ 2 ^ 64)
    (low : last < 2 ^ 64) {rounds candidate : Nat} (aligned : space.granularity ∣ candidate)
    (enough : to_ - candidate < rounds) :
    ∃ result, trySlots space.toKernel size last to_ rounds candidate = some result ∧
      if result = 0 then
        ∀ slot, space.granularity ∣ slot → candidate ≤ slot → slot < to_ → slot + size ≤ last →
          space.virtualAlloc slot size = 0
      else
        ∃ slot, space.granularity ∣ slot ∧ candidate ≤ slot ∧ slot < to_ ∧
          (slot + size) % 2 ^ 64 ≤ last ∧ result = space.virtualAlloc slot size ∧
          ∀ earlier, space.granularity ∣ earlier → candidate ≤ earlier → earlier < slot →
            space.virtualAlloc earlier size = 0 := by
  have positive : 0 < space.granularity := by
    rw [space.unit]
    exact Nat.two_pow_pos _
  induction rounds generalizing candidate with
  | zero => omega
  | succ rounds ih =>
      rw [trySlots]
      by_cases goes : (candidate + size) % 2 ^ 64 ≤ last ∧ candidate < to_
      · rw [if_pos goes]
        by_cases given : space.virtualAlloc candidate size = 0
        · simp only [given, ne_eq, not_true_eq_false, ↓reduceIte]
          have next : (candidate + space.granularity) % 2 ^ 64 = candidate + space.granularity :=
            Nat.mod_eq_of_lt (by omega)
          have stays := Nat.dvd_add aligned (Nat.dvd_refl space.granularity)
          obtain ⟨result, ran, facts⟩ := ih stays (by omega)
          have skip {slot : Nat} (multiple : space.granularity ∣ slot) (above : candidate ≤ slot) :
              slot = candidate ∨ candidate + space.granularity ≤ slot := by
            by_cases same : slot = candidate
            · exact Or.inl same
            · exact Or.inr (add_le_of_dvd aligned multiple (by omega))
          rw [next]
          refine ⟨result, ran, ?_⟩
          split at facts
          · rename_i none_
            rw [if_pos none_]
            intro slot multiple above below fits
            cases skip multiple above with
            | inl same => rw [same, given]
            | inr later => exact facts slot multiple later below fits
          · rename_i some_
            rw [if_neg some_]
            obtain ⟨slot, multiple, above, below, within, equal, first⟩ := facts
            refine ⟨slot, multiple, by omega, below, within, equal, ?_⟩
            intro earlier earlierMultiple from_ before
            cases skip earlierMultiple from_ with
            | inl same => rw [same, given]
            | inr later => exact first earlier earlierMultiple later before
        · simp only [given, ne_eq, not_false_eq_true, ↓reduceIte]
          refine ⟨_, rfl, ?_⟩
          rw [if_neg given]
          refine ⟨candidate, aligned, Nat.le_refl _, goes.2, goes.1, rfl, ?_⟩
          intro earlier _ above below
          omega
      · rw [if_neg goes]
        refine ⟨0, rfl, ?_⟩
        rw [if_pos rfl]
        intro slot _ above below fits
        exfalso
        apply goes
        rw [Nat.mod_eq_of_lt (by omega)]
        omega

/-- Where nothing is handed out, the slots of a region are tried up to its end. -/
theorem trySlots_refused
    (refused : ∀ slot, space.granularity ∣ slot → space.virtualAlloc slot size = 0)
    (low : last + space.granularity < 2 ^ 64) {rounds candidate : Nat}
    (aligned : space.granularity ∣ candidate) (word : candidate + size < 2 ^ 64)
    (enough : last + 1 - candidate < rounds) :
    trySlots space.toKernel size last to_ rounds candidate = some 0 := by
  have positive : 0 < space.granularity := by
    rw [space.unit]
    exact Nat.two_pow_pos _
  induction rounds generalizing candidate with
  | zero => omega
  | succ rounds ih =>
      rw [trySlots, Nat.mod_eq_of_lt word]
      split
      · rename_i goes
        simp only [refused candidate aligned, ne_eq, not_true_eq_false, ↓reduceIte]
        rw [Nat.mod_eq_of_lt (by omega)]
        apply ih (Nat.dvd_add aligned (Nat.dvd_refl _))
        · omega
        · omega
      · rfl

end Slots

theorem granularity_le (space : AddressSpace) : space.granularity ≤ 2 ^ 30 := by
  rw [space.unit]
  exact Nat.pow_le_pow_right Nat.two_pos space.narrow

/-- The region around an address in user space: it is free or taken as a whole, and a place in it
has all its bytes there. -/
structure Around (space : AddressSpace) (address : Nat) (region : BasicInformation) : Prop where
  asked : space.virtualQuery address = some region
  below : region.baseAddress ≤ address
  beyond : address < region.baseAddress + region.regionSize
  word : (region.baseAddress + region.regionSize) % 2 ^ 64 = region.baseAddress + region.regionSize
  user : region.baseAddress + region.regionSize ≤ space.limit
  alike : ∀ byte, region.baseAddress ≤ byte →
    byte < region.baseAddress + region.regionSize → space.free byte = region.free
  room : ∀ size place, Place space size place → address ≤ place →
    place < region.baseAddress + region.regionSize →
      region.free = true ∧ place + size ≤ region.baseAddress + region.regionSize

theorem exists_around (space : AddressSpace) {address : Nat} (inside : address < space.limit) :
    ∃ region, Around space address region := by
  obtain ⟨region, asked, below, beyond, short, alike, maximal⟩ := space.query_some address inside
  have user := space.user
  refine ⟨region, asked, below, beyond, Nat.mod_eq_of_lt (by omega), short, alike, ?_⟩
  intro size place room above within
  have free : region.free = true := by
    rw [← alike place (by omega) within]
    exact room.room.2 place (Nat.le_refl _) (by have := room.room.1; omega)
  refine ⟨free, ?_⟩
  by_contra cut
  have next := room.room.2 (region.baseAddress + region.regionSize) (by omega) (by omega)
  rw [maximal free] at next
  contradiction

/-- A search up to an address at most `reach` further on than where it begins. -/
structure Span (space : AddressSpace) (from_ to_ : Nat) : Prop where
  short : to_ ≤ from_ + reach
  fits : from_ + space.granularity ≤ 2 ^ 64

/-- Everything that a search has come past was refused. -/
def Tried (space : AddressSpace) (size from_ to_ address : Nat) : Prop :=
  ∀ place, Place space size place → from_ ≤ place → place < address → place < to_ →
    space.virtualAlloc place size = 0

/-- The slots that are tried in a region: the rest of it is refused, or the first place of the
whole search is in it. -/
theorem region_found (word : size < 2 ^ 64) {from_ to_ address rounds : Nat}
    (span : Span space from_ to_) (above : from_ ≤ address)
    (tried : Tried space size from_ to_ address) {region : BasicInformation}
    (around : Around space address region) (enough : to_ - from_ < rounds) :
    ∃ memory,
      (if region.free = true then
        trySlots space.toKernel size (region.baseAddress + region.regionSize) to_ rounds
          (alignUp 64 space.granularity (max region.baseAddress from_))
      else some 0) = some memory ∧
      if memory = 0 then
        Tried space size from_ to_ (region.baseAddress + region.regionSize)
      else
        ∃ place, FirstFit space size from_ to_ place ∧
          memory = space.virtualAlloc place size := by
  have narrow := granularity_le space
  have user := space.user
  have bits := space.narrow
  have below := around.below
  have beyond := around.beyond
  have within := around.user
  have short := span.short
  have fits : max region.baseAddress from_ + 2 ^ space.bits ≤ 2 ^ 64 := by
    rw [← space.unit]
    omega
  have start : space.granularity ∣ alignUp 64 space.granularity (max region.baseAddress from_) := by
    rw [space.unit]
    exact dvd_alignUp (by omega)
  have startAbove : max region.baseAddress from_ ≤
      alignUp 64 space.granularity (max region.baseAddress from_) := by
    rw [space.unit]
    exact le_alignUp (by omega) fits
  have startBelow {place : Nat} (aligned : space.granularity ∣ place) (after : address ≤ place) :
      alignUp 64 space.granularity (max region.baseAddress from_) ≤ place := by
    rw [space.unit] at aligned ⊢
    exact alignUp_le (by omega) fits aligned (by omega)
  generalize alignUp 64 space.granularity (max region.baseAddress from_) = first at *
  by_cases free : region.free = true
  · have reachValue : reach = 0x7FF00000 := rfl
    rw [if_pos free]
    obtain ⟨memory, ran, facts⟩ := @trySlots_spec space size
      (region.baseAddress + region.regionSize) to_ (by omega) (by omega) rounds first start
      (by omega)
    refine ⟨memory, ran, ?_⟩
    split at facts
    · rename_i none_
      rw [if_pos none_]
      intro place room from_ before upTo
      by_cases earlier : place < address
      · exact tried place room from_ earlier upTo
      · obtain ⟨_, ends⟩ := around.room size place room (Nat.le_of_not_lt earlier) before
        exact facts place room.aligned
          (startBelow room.aligned (Nat.le_of_not_lt earlier)) upTo ends
    · rename_i given
      rw [if_neg given]
      obtain ⟨slot, aligned, after, upTo, ends, equal, refused⟩ := facts
      have room : Place space size slot := by
        rw [equal] at given
        by_cases zero : slot = 0
        · rw [zero] at given ends
          refine ⟨aligned, (space.pick_free size given).2.1, ?_⟩
          intro byte _ inBlock
          rw [Nat.zero_add, Nat.mod_eq_of_lt word] at ends
          rw [around.alike byte (by omega) (by omega)]
          exact free
        · exact place_of_alloc aligned zero given
      refine ⟨slot, ⟨room, by omega, upTo, ?_⟩, equal⟩
      intro other otherRoom otherFrom
      by_contra before
      have none_ : space.virtualAlloc other size = 0 := by
        by_cases earlier : other < address
        · exact tried other otherRoom otherFrom earlier (by omega)
        · exact refused other otherRoom.aligned
            (startBelow otherRoom.aligned (Nat.le_of_not_lt earlier)) (Nat.lt_of_not_le before)
      have zero := eq_zero_of_alloc otherRoom none_ room
      omega
  · rw [if_neg free]
    refine ⟨0, rfl, ?_⟩
    rw [if_pos rfl]
    intro place room from_ before upTo
    by_cases earlier : place < address
    · exact tried place room from_ earlier upTo
    · exact absurd (around.room size place room (Nat.le_of_not_lt earlier) before).1 free

theorem search_found (word : size < 2 ^ 64) {from_ to_ : Nat} (span : Span space from_ to_)
    {rounds address : Nat} (above : from_ ≤ address) (tried : Tried space size from_ to_ address)
    (enough : (to_ - from_) + (to_ - address) + 1 < rounds) :
    ∃ result, search space.toKernel size from_ to_ rounds address = some result ∧
      Found space size from_ to_ result := by
  induction rounds generalizing address with
  | zero => omega
  | succ rounds ih =>
      rw [search]
      by_cases goes : address < to_
      · rw [if_pos goes]
        by_cases inside : address < space.limit
        · obtain ⟨region, around⟩ := exists_around space inside
          have beyond := around.beyond
          obtain ⟨memory, ran, facts⟩ :=
            @region_found space size word from_ to_ address rounds span above tried region around
              (by omega)
          simp only [around.asked, around.word, ran]
          by_cases none_ : memory = 0
          · rw [if_pos none_] at facts
            simp only [none_, ne_eq, not_true_eq_false, ↓reduceIte,
              if_neg (Nat.not_le_of_lt beyond)]
            exact ih (by omega) facts (by omega)
          · rw [if_neg none_] at facts
            simp only [ne_eq, none_, not_false_eq_true, ↓reduceIte]
            refine ⟨memory, rfl, ?_⟩
            rw [Found, if_neg none_]
            exact facts
        · simp only [space.query_none address (Nat.le_of_not_lt inside)]
          refine ⟨0, rfl, ?_⟩
          rw [Found, if_pos rfl]
          intro place room from_ upTo
          have ends := room.room.fits
          exact tried place room from_ (by have := room.room.1; omega) upTo
      · rw [if_neg goes]
        refine ⟨0, rfl, ?_⟩
        rw [Found, if_pos rfl]
        intro place room from_ upTo
        exact tried place room from_ (by omega) upTo

/-- A search from its beginning on. -/
theorem search_span (word : size < 2 ^ 64) {from_ to_ : Nat} (span : Span space from_ to_)
    {rounds : Nat} (enough : 2 ^ 66 ≤ rounds) :
    ∃ result, search space.toKernel size from_ to_ rounds (alignUp 64 space.granularity from_) =
        some result ∧ Found space size from_ to_ result := by
  have bits := space.narrow
  have short := span.short
  have reachValue : reach = 0x7FF00000 := rfl
  have fits : from_ + 2 ^ space.bits ≤ 2 ^ 64 := by
    rw [← space.unit]
    exact span.fits
  have above : from_ ≤ alignUp 64 space.granularity from_ := by
    rw [space.unit]
    exact le_alignUp (by omega) fits
  apply search_found word span above
  · intro place room from_ before _
    have aligned := room.aligned
    rw [space.unit] at aligned before
    have least := alignUp_le (by omega) fits aligned from_
    omega
  · omega

section Top

variable {from_ to_ : Nat} (top : 2 ^ 64 < from_ + space.granularity) (high : from_ < 2 ^ 64)
  (word : size < 2 ^ 64)
include top high

/-- From the topmost unit on every region is tried from address 0. -/
theorem first_eq_zero {region : BasicInformation} {address : Nat}
    (around : Around space address region) :
    alignUp 64 space.granularity (max region.baseAddress from_) = 0 := by
  have bits := space.narrow
  have user := space.user
  have below := around.below
  have beyond := around.beyond
  have within := around.user
  have narrow := granularity_le space
  rw [space.unit] at top ⊢
  have unit := granularity_le space
  rw [space.unit] at unit
  rw [Nat.max_eq_right (by omega)]
  exact alignUp_eq_zero (by omega) high top

include word

theorem search_top_none (none_ : ∀ place, Place space size place → place = 0)
    {rounds address : Nat} (enough : (to_ - address) + 2 ^ 63 + 1 < rounds) :
    search space.toKernel size from_ to_ rounds address = some 0 := by
  have narrow := granularity_le space
  have user := space.user
  have refused (slot : Nat) (aligned : space.granularity ∣ slot) :
      space.virtualAlloc slot size = 0 := by
    by_contra given
    by_cases zero : slot = 0
    · rw [zero] at given
      obtain ⟨multiple, room⟩ := space.pick_free size given
      exact given (none_ _ ⟨multiple, room⟩)
    · exact zero (none_ slot (place_of_alloc aligned zero given))
  induction rounds generalizing address with
  | zero => omega
  | succ rounds ih =>
      rw [search]
      split
      · rename_i goes
        by_cases inside : address < space.limit
        · obtain ⟨region, around⟩ := exists_around space inside
          have beyond := around.beyond
          have within := around.user
          have ran : (if region.free = true then
              trySlots space.toKernel size (region.baseAddress + region.regionSize) to_ rounds
                (alignUp 64 space.granularity (max region.baseAddress from_))
              else some 0) = some 0 := by
            split
            · rw [first_eq_zero top high around]
              exact trySlots_refused refused (by omega) (Nat.dvd_zero _) (by omega) (by omega)
            · rfl
          simp only [around.asked, around.word, ran, ne_eq, not_true_eq_false, ↓reduceIte,
            if_neg (Nat.not_le_of_lt beyond)]
          exact ih (by omega)
        · simp only [space.query_none address (Nat.le_of_not_lt inside)]
      · rfl

/-- Where there is a place, a search from the topmost unit takes what the system picks. -/
theorem search_top_some {place : Nat} (room : Place space size place) (positive : place ≠ 0)
    (below : space.limit ≤ to_) {rounds address : Nat} (before : address ≤ place)
    (enough : (to_ - address) + 1 < rounds) :
    search space.toKernel size from_ to_ rounds address = some (space.virtualAlloc 0 size) := by
  have picked := space.pick_some place size positive room.aligned room.room
  have ends := room.room.fits
  have some_ := room.room.1
  induction rounds generalizing address with
  | zero => omega
  | succ rounds ih =>
      obtain ⟨region, around⟩ := @exists_around space address (by omega)
      have beyond := around.beyond
      have within := around.user
      rw [search, if_pos (by omega)]
      simp only [around.asked, around.word, first_eq_zero top high around]
      by_cases takes : region.free = true ∧ size ≤ region.baseAddress + region.regionSize
      · obtain ⟨rounds, rfl⟩ : ∃ less, rounds = less + 1 := ⟨rounds - 1, by omega⟩
        have goes : (0 + size) % 2 ^ 64 ≤ region.baseAddress + region.regionSize ∧ 0 < to_ := by
          rw [Nat.zero_add, Nat.mod_eq_of_lt word]
          exact ⟨takes.2, by omega⟩
        simp only [if_pos takes.1, trySlots, if_pos goes, picked, ne_eq, not_false_eq_true,
          ↓reduceIte]
      · have later : region.baseAddress + region.regionSize ≤ place := by
          by_contra inRegion
          obtain ⟨free, fits⟩ := around.room size place room before (Nat.lt_of_not_le inRegion)
          exact takes ⟨free, by omega⟩
        have ran : (if region.free = true then
            trySlots space.toKernel size (region.baseAddress + region.regionSize) to_ rounds 0
            else some 0) = some 0 := by
          split
          · rename_i free
            obtain ⟨rounds, rfl⟩ : ∃ less, rounds = less + 1 := ⟨rounds - 1, by omega⟩
            have stops : ¬((0 + size) % 2 ^ 64 ≤ region.baseAddress + region.regionSize ∧
                0 < to_) := by
              rw [Nat.zero_add, Nat.mod_eq_of_lt word]
              intro goes
              exact takes ⟨free, goes.1⟩
            rw [trySlots, if_neg stops]
          · rfl
        simp only [ran, ne_eq, not_true_eq_false, ↓reduceIte, if_neg (Nat.not_le_of_lt beyond)]
        exact ih later (by omega)

end Top

end PointerLab.Win32Platform
