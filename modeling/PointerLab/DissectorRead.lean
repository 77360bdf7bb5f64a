import Mathlib.Order.MinMax
import PointerLab.DissectorLayout
import PointerLab.SymbolTableNames

set_option autoImplicit false

/- `Dissector::read`: one window of each address, and every field sliced out of it. -/
namespace PointerLab.Dissector

open Domain ProjectStore Runs

/-- A target whose memory ends with the addresses. -/
structure Target extends TargetView where
  inSpace : ∀ address, addressSpace ≤ address → memory address = none

structure Cell where
  read : Bool := false
  bytes : List UInt8 := []
  text : Text := []
  annotation : Text := []
  deriving DecidableEq

structure Row where
  field : StructureField
  /-- One for each address. -/
  cells : List Cell
  identical : Bool
  deriving DecidableEq

structure Snapshot where
  addresses : List Nat
  rows : List Row := []
  unreadable : List Nat := []
  deriving DecidableEq

/-- How a call of `read` ends. -/
inductive Ending
  | returned (result : Result Snapshot)
  /-- A `std::vector` cannot hold that many bytes. -/
  | thrown
  /-- A slice goes past its window. -/
  | outside
  deriving DecidableEq

/-- What the texts of a cell come from. -/
structure Shown where
  formatValue : ValueType → List UInt8 → Text
  narrow : WideText → Text
  symbols : List SymbolTable.Symbol

def maxAddresses : Nat := 8

def lowest (fields : List StructureField) : Int :=
  fields.foldl (fun lowest field => min lowest field.offset) 0

def highest (fields : List StructureField) : Int :=
  fields.foldl (fun highest field => max highest field.endOffset) 0

def span (fields : List StructureField) : Nat := toUnsigned (highest fields - lowest fields)

/-- The window of an address, when all of it could be read. -/
def window (fields : List StructureField) (target : TargetView) (address : Nat) :
    Option (List UInt8) :=
  match target.readBytes ((address + toUnsigned (lowest fields)) % addressSpace) (span fields) with
  | .error _ => none
  | .ok bytes => if bytes.length = span fields then some bytes else none

/-- Each address is read at its own moment. -/
def windows (fields : List StructureField) (targets : Nat → Target) (addresses : List Nat) :
    List (Option (List UInt8)) :=
  addresses.mapIdx fun index address => window fields (targets index).toTargetView address

/-- A vector for the window cannot be made. -/
def TooLong (fields : List StructureField) (targets : Nat → Target) (addresses : List Nat) :
    Prop :=
  0x8000000000000000 ≤ span fields ∧ ∃ index < addresses.length, (targets index).attached = true

instance (fields : List StructureField) (targets : Nat → Target) (addresses : List Nat) :
    Decidable (TooLong fields targets addresses) :=
  inferInstanceAs (Decidable (_ ∧ _))

/-- The bytes between two iterators, if both are in the window. -/
def slice (window : List UInt8) (first last : Int) : Option (List UInt8) :=
  if 0 ≤ first ∧ first ≤ last ∧ last ≤ window.length then
    some ((window.drop first.toNat).take (last - first).toNat)
  else none

section Cells

variable (shown : Shown) (session : TargetView)

/-- Where the value of an unsigned slot of the size of a pointer points to. -/
def annotation (field : StructureField) (bytes : List UInt8) : Text :=
  let value := littleEndian bytes
  if bytes.length = pointerSize session.bitness ∧
      (field.type = .uInt64 ∨ field.type = .uInt32) ∧ value ≠ 0 ∧
      mapped (readableRanges session) value then
    let described := SymbolTable.describeAmong shown.narrow session.modules shown.symbols value
    "-> ".toList ++ if described.isEmpty then toHex value else described
  else []

/-- A field of one address, unless its slice goes past the window. -/
def cellOf (fields : List StructureField) (field : StructureField) :
    Option (List UInt8) → Option Cell
  | none => some {}
  | some window =>
      let start := toUnsigned (field.offset - lowest fields)
      let bytes := slice window (toSigned start) (toSigned ((start + field.size) % addressSpace))
      bytes.map fun bytes =>
        { read := true, bytes, text := shown.formatValue field.type bytes
          annotation := annotation shown session field bytes }

/-- No cell that was read differs from the first. -/
def identical (cells : List Cell) : Bool :=
  match cells.filter Cell.read with
  | [] => true
  | first :: rest => rest.all fun cell => cell.bytes == first.bytes

def rowOf (fields : List StructureField) (windows : List (Option (List UInt8)))
    (field : StructureField) : Option Row :=
  (windows.mapM (cellOf shown session fields field)).map fun cells =>
    { field, cells, identical := identical cells }

def read (targets : Nat → Target) (id : Nat) (addresses : List Nat) (d : Dissector) : Ending :=
  match d.find id with
  | none => .returned gone
  | some structure_ =>
      if addresses.isEmpty then
        .returned (fail "Give at least one address to lay the structure over.")
      else if maxAddresses < addresses.length then
        .returned (fail ("At most " ++ String.ofList (decimal maxAddresses) ++
          " addresses can be compared side by side."))
      else if !session.attached then .returned (fail "Attach to a process first.")
      else if structure_.fields.isEmpty then .returned (.ok { addresses })
      else
        let fields := structure_.fields
        if TooLong fields targets addresses then .thrown
        else
          let windows := windows fields targets addresses
          match fields.mapM (rowOf shown session fields windows) with
          | none => .outside
          | some rows =>
              .returned (.ok
                { addresses, rows
                  unreadable := windows.zipIdx.filterMap fun (window, index) =>
                    if window.isNone then some index else none })

end Cells

section Windows

/-- A minimum along a list is taken at the start or at an element. -/
theorem foldl_min_spec {Order Element : Type} [LinearOrder Order] (key : Element → Order)
    (elements : List Element) (start : Order) :
    let least := elements.foldl (fun least element => min least (key element)) start
    (least ≤ start ∧ ∀ element ∈ elements, least ≤ key element) ∧
      (least = start ∨ ∃ element ∈ elements, least = key element) := by
  induction elements generalizing start with
  | nil => exact ⟨⟨le_refl _, fun _ => nofun⟩, Or.inl rfl⟩
  | cons first rest ih =>
      obtain ⟨⟨below, belowRest⟩, taken⟩ := ih (min start (key first))
      refine ⟨⟨below.trans (min_le_left _ _), ?_⟩, ?_⟩
      · exact List.forall_mem_cons.mpr ⟨below.trans (min_le_right _ _), belowRest⟩
      · rcases taken with atStart | ⟨element, inside, same⟩
        · rcases min_choice start (key first) with isStart | isFirst
          · exact Or.inl (atStart.trans isStart)
          · exact Or.inr ⟨first, List.mem_cons_self, atStart.trans isFirst⟩
        · exact Or.inr ⟨element, List.mem_cons_of_mem _ inside, same⟩

variable {fields : List StructureField}

theorem Layout.lowest (layout : Layout fields) :
    -0x8000000000000000 ≤ lowest fields ∧ lowest fields ≤ 0 ∧
      ∀ field ∈ fields, lowest fields ≤ field.offset := by
  obtain ⟨⟨below, belowAll⟩, taken⟩ := foldl_min_spec StructureField.offset fields (0 : Int)
  refine ⟨?_, below, belowAll⟩
  rcases taken with atStart | ⟨field, inside, same⟩
  · exact le_of_le_of_eq (by decide) atStart.symm
  · exact le_of_le_of_eq (layout.fits field inside).lower same.symm

theorem Layout.highest (layout : Layout fields) :
    0 ≤ highest fields ∧ highest fields < 0x8000000000000000 ∧
      ∀ field ∈ fields, field.offset + (field.size : Int) ≤ highest fields := by
  -- A maximum is a minimum of the order turned round.
  obtain ⟨⟨above, aboveAll⟩, taken⟩ :=
    @foldl_min_spec Intᵒᵈ StructureField _ StructureField.endOffset fields (0 : Int)
  refine ⟨above, ?_, ?_⟩
  · rcases taken with atStart | ⟨field, inside, same⟩
    · exact lt_of_eq_of_lt atStart (by decide)
    · have ends := (layout.fits field inside).endOffset
      exact lt_of_eq_of_lt (same.trans ends) (layout.fits field inside).upper
  · intro field inside
    rw [← (layout.fits field inside).endOffset]
    exact aboveAll field inside

theorem Layout.span (layout : Layout fields) :
    (span fields : Int) = Dissector.highest fields - Dissector.lowest fields := by
  obtain ⟨low, notAbove, _⟩ := layout.lowest
  obtain ⟨notBelow, high, _⟩ := layout.highest
  unfold Dissector.span toUnsigned addressSpace
  omega

/-- Every field is inside the window. -/
theorem Layout.start (layout : Layout fields) {field : StructureField} (inside : field ∈ fields) :
    (toUnsigned (field.offset - Dissector.lowest fields) : Int) =
        field.offset - Dissector.lowest fields ∧
      toUnsigned (field.offset - Dissector.lowest fields) + field.size ≤ Dissector.span fields := by
  obtain ⟨low, notAbove, below⟩ := layout.lowest
  obtain ⟨notBelow, high, above⟩ := layout.highest
  have isSpan := layout.span
  have starts := below field inside
  have ends := above field inside
  have exact_ : (toUnsigned (field.offset - Dissector.lowest fields) : Int) =
      field.offset - Dissector.lowest fields := by
    unfold toUnsigned addressSpace
    omega
  exact ⟨exact_, by omega⟩

/-- What a slice of a window has to be. -/
def sliceOf (fields : List StructureField) (field : StructureField) (window : List UInt8) :
    List UInt8 :=
  (window.drop (toUnsigned (field.offset - lowest fields))).take field.size

/-- No slice goes past a window that a vector can hold. -/
theorem Layout.slice (layout : Layout fields) {field : StructureField} (inside : field ∈ fields)
    {window : List UInt8} (whole : window.length = Dissector.span fields)
    (held : Dissector.span fields < 0x8000000000000000) :
    Dissector.slice window (toSigned (toUnsigned (field.offset - Dissector.lowest fields)))
        (toSigned ((toUnsigned (field.offset - Dissector.lowest fields) + field.size) %
          addressSpace)) =
      some (sliceOf fields field window) := by
  obtain ⟨_, within⟩ := layout.start inside
  unfold sliceOf
  generalize toUnsigned (field.offset - Dissector.lowest fields) = start at within ⊢
  have first : toSigned start = start := if_pos (by omega)
  have last : toSigned ((start + field.size) % addressSpace) = (start + field.size : Nat) := by
    rw [Nat.mod_eq_of_lt (by unfold addressSpace; omega)]
    exact if_pos (by omega)
  rw [first, last, Dissector.slice, if_pos ⟨by omega, by omega, by omega⟩]
  congr 2
  omega

theorem readable_getElem? {memory : Nat → Option UInt8} {address size index : Nat}
    (inside : index < (TargetView.readable memory address size).length) :
    (TargetView.readable memory address size)[index]? = memory (address + index) := by
  induction size generalizing address index with
  | zero => exact absurd inside (Nat.not_lt_zero _)
  | succ size ih =>
      unfold TargetView.readable at inside ⊢
      cases here : memory address with
      | none => simp [here] at inside
      | some byte =>
          simp only [here, List.length_cons] at inside ⊢
          cases index with
          | zero => simp [here]
          | succ index =>
              rw [List.getElem?_cons_succ, ih (Nat.lt_of_succ_lt_succ inside), Nat.add_right_comm,
                Nat.add_assoc]

theorem window_some {target : TargetView} {address : Nat} {bytes : List UInt8}
    (read : window fields target address = some bytes) :
    target.attached = true ∧ bytes.length = span fields ∧
      bytes = TargetView.readable target.memory
        ((address + toUnsigned (lowest fields)) % addressSpace) (span fields) := by
  unfold window TargetView.readBytes at read
  cases attached : target.attached with
  | false => simp [attached, fail] at read
  | true =>
      simp only [attached, Bool.not_true, Bool.false_eq_true, ↓reduceIte] at read
      split at read
      · cases read
      · rename_i bytes_ answers
        split at read
        · rename_i whole
          cases read
          split at answers
          · cases answers
          · cases answers
            exact ⟨rfl, whole, rfl⟩
        · cases read

/-- The bytes of a field in the window of an address are those of the target there. -/
theorem Layout.sliceOf_memory (layout : Layout fields) {field : StructureField}
    (inside : field ∈ fields) {target : Target} {address : Nat} {bytes : List UInt8}
    (read : window fields target.toTargetView address = some bytes) :
    (sliceOf fields field bytes).length = field.size ∧
      ∀ index < field.size,
        (sliceOf fields field bytes)[index]? =
          target.memory (toUnsigned (address + field.offset) + index) := by
  obtain ⟨_, whole, isRead⟩ := window_some read
  obtain ⟨exact_, within⟩ := layout.start inside
  have length : (sliceOf fields field bytes).length = field.size := by
    rw [sliceOf, List.length_take, List.length_drop]
    omega
  refine ⟨length, ?_⟩
  intro index before
  rw [sliceOf, List.getElem?_take_of_lt before, List.getElem?_drop]
  generalize startIs : toUnsigned (field.offset - Dissector.lowest fields) = start at exact_ within
  have atIndex : start + index < bytes.length := by omega
  rw [isRead] at atIndex ⊢
  rw [readable_getElem? atIndex]
  have present := ((@TargetView.lt_readable_length _ _ _ _).mp atIndex).2 (start + index) le_rfl
  have inSpace : ¬ addressSpace ≤
      (address + toUnsigned (Dissector.lowest fields)) % addressSpace + (start + index) :=
    fun past => present (target.inSpace _ past)
  congr 1
  have wraps : toUnsigned (Dissector.lowest fields) =
      (Dissector.lowest fields % (addressSpace : Int)).toNat := rfl
  unfold toUnsigned addressSpace at *
  omega

end Windows

/-- A list that is mapped without a failure answers its elements one by one. -/
theorem mapM_forall₂ {Before After : Type} {translate : Before → Option After}
    {relates : Before → After → Prop} {elements : List Before}
    (each : ∀ element ∈ elements, ∃ result, translate element = some result ∧
      relates element result) :
    ∃ results, elements.mapM translate = some results ∧
      List.Forall₂ relates elements results := by
  induction elements with
  | nil => exact ⟨[], rfl, .nil⟩
  | cons first rest ih =>
      obtain ⟨⟨result, translated, related⟩, later⟩ := List.forall_mem_cons.mp each
      obtain ⟨results, restTranslated, restRelated⟩ := ih later
      exact ⟨result :: results, by simp [List.mapM_cons, translated, restTranslated],
        .cons related restRelated⟩

/-- A row is the same everywhere when all that was read of it is. -/
theorem identical_iff (cells : List Cell) :
    identical cells = true ↔ ∀ left ∈ cells, ∀ right ∈ cells,
      left.read = true → right.read = true → left.bytes = right.bytes := by
  have among : (∀ left ∈ cells, ∀ right ∈ cells,
      left.read = true → right.read = true → left.bytes = right.bytes) ↔
      ∀ left ∈ cells.filter Cell.read, ∀ right ∈ cells.filter Cell.read,
        left.bytes = right.bytes := by
    simp only [List.mem_filter, and_imp]
    exact ⟨fun all left inLeft readLeft right inRight readRight =>
        all left inLeft right inRight readLeft readRight,
      fun all left inLeft right inRight readLeft readRight =>
        all left inLeft readLeft right inRight readRight⟩
  rw [among, identical]
  cases cells.filter Cell.read with
  | nil => exact iff_of_true rfl fun _ => nofun
  | cons first rest =>
      simp only [List.all_eq_true, beq_iff_eq]
      constructor
      · intro same left inLeft right inRight
        have toFirst : ∀ cell ∈ first :: rest, cell.bytes = first.bytes :=
          List.forall_mem_cons.mpr ⟨rfl, same⟩
        exact (toFirst left inLeft).trans (toFirst right inRight).symm
      · intro same cell inRest
        exact same cell (List.mem_cons_of_mem _ inRest) first List.mem_cons_self

/-- A cell that was read holds the bytes of the field in the window, any other holds none. -/
def Holds (fields : List StructureField) (field : StructureField) :
    Option (List UInt8) → Cell → Prop
  | none, cell => cell.read = false
  | some window, cell => cell.read = true ∧ cell.bytes = sliceOf fields field window

/-- What a snapshot of the fields says about the targets it was taken of. -/
structure Faithful (targets : Nat → Target) (fields : List StructureField)
    (snapshot : Snapshot) : Prop where
  rows : snapshot.rows.map Row.field = fields
  cells : ∀ row ∈ snapshot.rows, row.cells.length = snapshot.addresses.length
  bytes : ∀ row ∈ snapshot.rows, ∀ (index address : Nat) (cell : Cell),
    snapshot.addresses[index]? = some address → row.cells[index]? = some cell →
    cell.read = true → cell.bytes.length = row.field.size ∧
      ∀ place < row.field.size, cell.bytes[place]? =
        (targets index).memory (toUnsigned (address + row.field.offset) + place)
  identical : ∀ row ∈ snapshot.rows, row.identical = true ↔
    ∀ left ∈ row.cells, ∀ right ∈ row.cells,
      left.read = true → right.read = true → left.bytes = right.bytes

def RowHolds (fields : List StructureField) (windows : List (Option (List UInt8)))
    (field : StructureField) (row : Row) : Prop :=
  row.field = field ∧ List.Forall₂ (Holds fields field) windows row.cells ∧
    row.identical = identical row.cells

theorem forall₂_mem_right {Before After : Type} {relates : Before → After → Prop}
    {elements : List Before} {results : List After}
    (related : List.Forall₂ relates elements results) :
    ∀ result ∈ results, ∃ element ∈ elements, relates element result := by
  induction related with
  | nil => exact fun _ => nofun
  | cons first _ ih =>
      refine List.forall_mem_cons.mpr ⟨⟨_, List.mem_cons_self, first⟩, ?_⟩
      intro result inside
      obtain ⟨element, isElement, relates_⟩ := ih result inside
      exact ⟨element, List.mem_cons_of_mem _ isElement, relates_⟩

section Rows

variable {fields : List StructureField} {targets : Nat → Target} {addresses : List Nat}

theorem getElem?_windows (index : Nat) :
    (windows fields targets addresses)[index]? =
      addresses[index]?.map (window fields (targets index).toTargetView) :=
  List.getElem?_mapIdx

/-- A window that was read is as long as a vector can be. -/
theorem window_held (held : ¬ TooLong fields targets addresses) {bytes : List UInt8}
    (isWindow : some bytes ∈ windows fields targets addresses) :
    bytes.length = span fields ∧ span fields < 0x8000000000000000 := by
  obtain ⟨index, atIndex⟩ := List.mem_iff_getElem?.mp isWindow
  obtain ⟨address, isAddress, read⟩ :=
    Option.map_eq_some_iff.mp ((getElem?_windows index).symm.trans atIndex)
  obtain ⟨attached, whole, _⟩ := window_some read
  refine ⟨whole, Nat.lt_of_not_le fun long => held ⟨long, index, ?_, attached⟩⟩
  exact (List.getElem?_eq_some_iff.mp isAddress).1

theorem Layout.row (layout : Layout fields) (held : ¬ TooLong fields targets addresses)
    (shown : Shown) (session : TargetView) {field : StructureField} (inside : field ∈ fields) :
    ∃ row, rowOf shown session fields (windows fields targets addresses) field = some row ∧
      RowHolds fields (windows fields targets addresses) field row := by
  have each : ∀ window ∈ windows fields targets addresses, ∃ cell,
      cellOf shown session fields field window = some cell ∧ Holds fields field window cell := by
    intro window isWindow
    cases window with
    | none => exact ⟨_, rfl, rfl⟩
    | some bytes =>
        obtain ⟨whole, short⟩ := window_held held isWindow
        simp only [cellOf, layout.slice inside whole short, Option.map_some]
        exact ⟨_, rfl, rfl, rfl⟩
  obtain ⟨cells, mapped, related⟩ := mapM_forall₂ each
  refine ⟨{ field, cells, identical := identical cells }, ?_, rfl, related, rfl⟩
  rw [rowOf, mapped]
  rfl

/-- Rows over the windows say what the targets hold. -/
theorem Layout.faithful (layout : Layout fields) {rows : List Row} (unreadable : List Nat)
    (related : List.Forall₂ (RowHolds fields (windows fields targets addresses)) fields rows) :
    Faithful targets fields { addresses, rows, unreadable } := by
  have each : ∀ row ∈ rows, row.field ∈ fields ∧
      List.Forall₂ (Holds fields row.field) (windows fields targets addresses) row.cells ∧
      row.identical = identical row.cells := by
    intro row isRow
    obtain ⟨field, inside, same, cells, identical_⟩ := forall₂_mem_right related row isRow
    exact ⟨same ▸ inside, same ▸ cells, identical_⟩
  constructor
  · have same : List.Forall₂ (fun field row => field = Row.field row) fields rows :=
      related.imp fun _ _ holds => holds.1.symm
    exact (List.forall₂_eq_eq_eq ▸ List.forall₂_map_right_iff.mpr same :
      fields = rows.map Row.field).symm
  · intro row isRow
    have length := (each row isRow).2.1.length_eq
    rw [windows, List.length_mapIdx] at length
    exact length.symm
  · intro row isRow index address cell isAddress isCell read
    obtain ⟨inside, cells, _⟩ := each row isRow
    have windowIs : (windows fields targets addresses)[index]? =
        some (window fields (targets index).toTargetView address) := by
      rw [getElem?_windows, isAddress]
      rfl
    obtain ⟨beforeWindows, atWindows⟩ := List.getElem?_eq_some_iff.mp windowIs
    obtain ⟨beforeCells, atCells⟩ := List.getElem?_eq_some_iff.mp isCell
    have holds := cells.get beforeWindows beforeCells
    simp only [List.get_eq_getElem, atWindows, atCells] at holds
    rcases readIs : window fields (targets index).toTargetView address with _ | bytes
    · rw [readIs] at holds
      exact absurd (holds.symm.trans read) (by decide)
    · rw [readIs] at holds
      rw [holds.2]
      exact layout.sliceOf_memory inside readIs
  · intro row isRow
    rw [(each row isRow).2.2]
    exact identical_iff row.cells

/-- Of laid out fields, no slice is outside and what is answered is in the targets' memory. -/
theorem Layout.read {d : Dissector} {id : Nat} {structure_ : Structure}
    (layout : Layout structure_.fields) (found : d.find id = some structure_) (shown : Shown)
    (session : TargetView) (targets : Nat → Target) (addresses : List Nat) :
    d.read shown session targets id addresses ≠ .outside ∧
      ∀ snapshot, d.read shown session targets id addresses = .returned (.ok snapshot) →
        Faithful targets structure_.fields snapshot := by
  unfold Dissector.read
  rw [found]
  simp only
  split
  · exact ⟨nofun, nofun⟩
  split
  · exact ⟨nofun, nofun⟩
  split
  · exact ⟨nofun, nofun⟩
  split
  · rename_i empty
    refine ⟨nofun, ?_⟩
    rintro _ ⟨rfl⟩
    rw [List.isEmpty_iff.mp empty]
    exact ⟨rfl, fun _ => nofun, fun _ => nofun, fun _ => nofun⟩
  split
  · exact ⟨nofun, nofun⟩
  rename_i held
  obtain ⟨rows, mapped, related⟩ := mapM_forall₂ fun field inside =>
    layout.row held shown session inside
  rw [mapped]
  refine ⟨nofun, ?_⟩
  rintro _ ⟨rfl⟩
  exact layout.faithful _ related

end Rows

/-- The layout is kept, and whatever is read of it is what the targets hold. -/
def Sound (d : Dissector) : Prop :=
  (∀ structure_ ∈ d.structures, LaidOut structure_.fields) ∧
    ∀ (shown : Shown) (session : TargetView) (targets : Nat → Target) (id : Nat)
      (addresses : List Nat),
      d.read shown session targets id addresses ≠ .outside ∧
        ∀ snapshot, d.read shown session targets id addresses = .returned (.ok snapshot) →
          ∃ structure_, d.find id = some structure_ ∧
            Faithful targets structure_.fields snapshot

/-- As long as no field is given that ends past the range of its offsets, every structure is
laid out and every read of it is faithful. -/
theorem sound_of_fits (api : Conversion) (changes : List Change)
    (fits : ∀ change ∈ changes, change.Fits api) :
    Sound (run (change api) {} changes) := by
  have kept := kept_run fits
  refine ⟨fun structure_ inside => (kept structure_ inside).laidOut, ?_⟩
  intro shown session targets id addresses
  rcases found : (run (change api) {} changes).find id with _ | structure_
  · unfold Dissector.read
    rw [found]
    exact ⟨nofun, nofun⟩
  · obtain ⟨inside, faithful⟩ := (kept.find found).read found shown session targets addresses
    exact ⟨inside, fun snapshot answers => ⟨structure_, rfl, faithful snapshot answers⟩⟩

/-- A layout that is set, added to and cut down again. -/
def playerChanges : List Change :=
  [.add "Player".toList, .setFields 1 [{ offset := 8, type := .float }, { type := .int32 }],
    .setField 1 { offset := -4, type := .bytes, length := 4 }, .removeField 1 8]

theorem sound_of_fits_player : Sound (run (change blankConversion) {} playerChanges) := by
  refine sound_of_fits blankConversion playerChanges ?_
  intro change inside
  simp only [playerChanges, List.mem_cons, List.not_mem_nil, or_false] at inside
  rcases inside with rfl | rfl | rfl | rfl
  · trivial
  · intro field isField
    simp only [List.mem_cons, List.not_mem_nil, or_false] at isField
    rcases isField with rfl | rfl <;> exact ⟨by decide, by decide⟩
  · exact ⟨by decide, by decide⟩
  · trivial

/-- A field whose length is negative as a `std::ptrdiff_t`, and a field inside it. -/
def wrappingChanges : List Change :=
  [.add "Player".toList, .setFields 1
    [{ type := .bytes, length := 0xFFFFFFFFFFFFFFFF, name := "all".toList },
      { offset := 4, name := "inside".toList }]]

def zeroTarget : Target where
  memory := fun address =>
    if 0x10000 ≤ address ∧ address < 0x11000 then some 0 else none
  inSpace := by
    intro address past
    unfold addressSpace at past
    exact if_neg (by omega)

theorem wrappingChanges_unsound :
    ¬ (∀ structure_ ∈ (run (change blankConversion) {} wrappingChanges).structures,
        LaidOut structure_.fields) ∧
      (run (change blankConversion) {} wrappingChanges).read
          { formatValue := fun _ _ => [], narrow := fun _ => [], symbols := [] }
          zeroTarget.toTargetView (fun _ => zeroTarget) 1 [0x10000] = .outside := by
  constructor
  · intro laidOut
    have fields : (run (change blankConversion) {} wrappingChanges).structures.map
        Structure.fields =
        [[{ type := .bytes, length := 0xFFFFFFFFFFFFFFFF, name := "all".toList },
          { offset := 4, name := "inside".toList }]] := by decide +kernel
    obtain ⟨structure_, inside, same⟩ := List.mem_map.mp (fields ▸ List.mem_singleton.mpr rfl)
    have apart := (laidOut structure_ inside).apart
    rw [same] at apart
    have disjoint := (List.pairwise_cons.mp apart).1 _ (List.mem_singleton.mpr rfl)
    exact disjoint 4 ⟨⟨by decide, by decide⟩, ⟨by decide, by decide⟩⟩
  · decide +kernel

end PointerLab.Dissector
