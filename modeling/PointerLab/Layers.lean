import Mathlib.Data.List.Pairwise
import Mathlib.Logic.Function.Basic
import PointerLab.Overlay

set_option autoImplicit false

/- Reversible layers over a memory: each keeps what it covers, each can be shown or
taken off, in any order, as long as no two of them meet. -/
namespace Layers

open Overlay

variable {Byte Index : Type*}

/-- Cells that may stand at an address, and the cells they stand over. -/
structure Layer (Byte : Type*) where
  address : Nat
  under : List Byte
  cover : List Byte
  up : Bool

namespace Layer

def cells (layer : Layer Byte) : List Byte := if layer.up then layer.cover else layer.under

/-- Whether a range of addresses stays clear of the layer. -/
def Clear (layer : Layer Byte) (address length : Nat) : Prop :=
  Apart address length layer.address layer.under.length

end Layer

/-- The layers lie apart, keep what the base has under them, and memory is the base
with the layers that are up. -/
structure Laid (base : Nat → Byte) (layers : Index → Option (Layer Byte)) (memory : Nat → Byte) :
    Prop where
  sameLength : ∀ index layer, layers index = some layer → layer.cover.length = layer.under.length
  genuine : ∀ index layer, layers index = some layer →
    layer.under = slice base layer.address layer.under.length
  apart : ∀ left right first second, left ≠ right → layers left = some first →
    layers right = some second → first.Clear second.address second.under.length
  shown : ∀ index layer, layers index = some layer →
    slice memory layer.address layer.under.length = layer.cells
  elsewhere : ∀ place, (∀ index layer, layers index = some layer →
    place < layer.address ∨ layer.address + layer.under.length ≤ place) → memory place = base place

theorem Laid.bare (base : Nat → Byte) : Laid base (fun _ : Index => none) base :=
  ⟨nofun, nofun, nofun, nofun, fun _ _ => rfl⟩

variable {base memory : Nat → Byte} {layers : Index → Option (Layer Byte)}

theorem cells_length (laid : Laid base layers memory) {index : Index} {layer : Layer Byte}
    (present : layers index = some layer) : layer.cells.length = layer.under.length := by
  unfold Layer.cells
  split
  · exact laid.sameLength index layer present
  · rfl

/-- What memory holds inside a layer. -/
theorem Laid.memory_inside (laid : Laid base layers memory) {index : Index} {layer : Layer Byte}
    (present : layers index = some layer) {place : Nat} (lower : layer.address ≤ place)
    (upper : place - layer.address < layer.cells.length) :
    memory place = layer.cells[place - layer.address] := by
  have shown := laid.shown index layer present
  rw [← cells_length laid present, slice_eq_iff] at shown
  rw [← shown _ upper]
  congr 1
  omega

theorem Laid.base_inside (laid : Laid base layers memory) {index : Index} {layer : Layer Byte}
    (present : layers index = some layer) {place : Nat} (lower : layer.address ≤ place)
    (upper : place - layer.address < layer.under.length) :
    base place = layer.under[place - layer.address] := by
  have genuine := (laid.genuine index layer present).symm
  rw [slice_eq_iff] at genuine
  rw [← genuine _ upper]
  congr 1
  omega

/-- Inside a layer that is off, memory is the base. -/
theorem Laid.memory_off (laid : Laid base layers memory) {index : Index} {layer : Layer Byte}
    (present : layers index = some layer) (off : layer.up = false) {place : Nat}
    (lower : layer.address ≤ place) (upper : place - layer.address < layer.under.length) :
    memory place = base place := by
  have length := cells_length laid present
  rw [laid.memory_inside present lower (by omega), laid.base_inside present lower upper]
  simp only [Layer.cells, off, Bool.false_eq_true, ↓reduceIte]

/-- A range clear of every layer shows the base. -/
theorem Laid.slice_clear (laid : Laid base layers memory) (address length : Nat)
    (clear : ∀ index layer, layers index = some layer → layer.Clear address length) :
    slice memory address length = slice base address length := by
  apply slice_congr
  intro offset inside
  apply laid.elsewhere
  intro index layer present
  have apart := clear index layer present
  unfold Layer.Clear Apart at apart
  omega

/-- With every layer off, memory is the base again. -/
theorem Laid.memory_eq_base (laid : Laid base layers memory)
    (off : ∀ index layer, layers index = some layer → layer.up = false) : memory = base := by
  funext place
  by_cases covered : ∃ index layer, layers index = some layer ∧
      layer.address ≤ place ∧ place < layer.address + layer.under.length
  · obtain ⟨index, layer, present, lower, upper⟩ := covered
    exact laid.memory_off present (off index layer present) lower (by omega)
  · apply laid.elsewhere
    intro index layer present
    have outside : ¬(layer.address ≤ place ∧ place < layer.address + layer.under.length) :=
      fun inside => covered ⟨index, layer, present, inside⟩
    omega

/-- The layers of a list that are up, laid over the base in the order of the list. -/
def covered (base : Nat → Byte) (list : List (Layer Byte)) : Nat → Byte :=
  list.foldl (fun memory layer =>
    if layer.up then overlay memory layer.address layer.cover else memory) base

theorem covered_outside (list : List (Layer Byte)) (base : Nat → Byte) (place : Nat)
    (outside : ∀ layer ∈ list, layer.up = true →
      place < layer.address ∨ layer.address + layer.cover.length ≤ place) :
    covered base list place = base place := by
  induction list generalizing base with
  | nil => rfl
  | cons layer rest ih =>
      show covered (if layer.up then overlay base layer.address layer.cover else base) rest place =
        base place
      rw [ih _ fun other inRest => outside other (List.mem_cons_of_mem _ inRest)]
      split
      · rename_i up
        exact overlay_outside _ _ _ _ (outside layer List.mem_cons_self up)
      · rfl

/-- Where the layers lie apart, each one that is up shows through. -/
theorem covered_inside (list : List (Layer Byte)) (base : Nat → Byte) (place : Nat)
    (apart : list.Pairwise fun first second =>
      Apart first.address first.cover.length second.address second.cover.length)
    (layer : Layer Byte) (member : layer ∈ list) (up : layer.up = true)
    (lower : layer.address ≤ place) (upper : place - layer.address < layer.cover.length) :
    covered base list place = layer.cover[place - layer.address] := by
  induction list generalizing base with
  | nil => contradiction
  | cons first rest ih =>
      show covered (if first.up then overlay base first.address first.cover else base) rest place = _
      rcases List.mem_cons.mp member with rfl | inRest
      · rw [covered_outside, if_pos up, overlay_inside _ _ _ _ lower upper]
        intro other inRest _
        have clear := List.rel_of_pairwise_cons apart inRest
        unfold Apart at clear
        omega
      · exact ih _ (List.pairwise_cons.mp apart).2 inRest

/-- Memory is the base covered by the layers, in any order they may be listed. -/
theorem Laid.memory_eq_covered (laid : Laid base layers memory) (list : List (Layer Byte))
    (listed : ∀ layer, layer ∈ list ↔ ∃ index, layers index = some layer)
    (apart : list.Pairwise fun first second =>
      Apart first.address first.cover.length second.address second.cover.length) :
    memory = covered base list := by
  funext place
  by_cases inside : ∃ layer ∈ list,
      layer.address ≤ place ∧ place - layer.address < layer.under.length
  · obtain ⟨layer, member, lower, upper⟩ := inside
    obtain ⟨index, present⟩ := (listed layer).mp member
    have sameLength := laid.sameLength index layer present
    cases up : layer.up with
    | true =>
        rw [covered_inside list base place apart layer member up lower (by omega),
          laid.memory_inside present lower (by rw [cells_length laid present]; exact upper)]
        simp only [Layer.cells, up, ↓reduceIte]
    | false =>
        rw [laid.memory_off present up lower upper, covered_outside]
        intro other inList otherUp
        obtain ⟨otherIndex, otherPresent⟩ := (listed other).mp inList
        have different : otherIndex ≠ index := by
          rintro rfl
          rw [present] at otherPresent
          cases otherPresent
          exact Bool.false_ne_true (up.symm.trans otherUp)
        have clear := laid.apart otherIndex index other layer different otherPresent present
        have length := laid.sameLength otherIndex other otherPresent
        unfold Layer.Clear Apart at clear
        omega
  · have outside : ∀ layer ∈ list,
        place < layer.address ∨ layer.address + layer.under.length ≤ place := by
      intro layer member
      have notInside : ¬(layer.address ≤ place ∧ place - layer.address < layer.under.length) :=
        fun within => inside ⟨layer, member, within⟩
      omega
    rw [covered_outside]
    · apply laid.elsewhere
      intro index layer present
      exact outside layer ((listed layer).mpr ⟨index, present⟩)
    · intro layer member _
      obtain ⟨index, present⟩ := (listed layer).mp member
      rw [laid.sameLength index layer present]
      exact outside layer member

variable [DecidableEq Index]

theorem update_eq_some {index other : Index} {new layer : Layer Byte}
    (present : Function.update layers index (some new) other = some layer) :
    (other = index ∧ layer = new) ∨ (other ≠ index ∧ layers other = some layer) := by
  by_cases here : other = index
  · subst here
    rw [Function.update_self] at present
    exact Or.inl ⟨rfl, (Option.some.inj present).symm⟩
  · rw [Function.update_of_ne here] at present
    exact Or.inr ⟨here, present⟩

/-- A layer that was taken away is not there any more, and the others are. -/
theorem update_none_eq_some {index other : Index} {layer : Layer Byte}
    (present : Function.update layers index none other = some layer) :
    other ≠ index ∧ layers other = some layer := by
  by_cases here : other = index
  · simp [here] at present
  · exact ⟨here, by rwa [Function.update_of_ne here] at present⟩

/-- Writing the cells of a layer that stays clear of the others and takes the place of
the one its index had. -/
theorem Laid.set (laid : Laid base layers memory) (index : Index) (new : Layer Byte)
    (sameLength : new.cover.length = new.under.length)
    (genuine : new.under = slice base new.address new.under.length)
    (clear : ∀ other layer, other ≠ index → layers other = some layer →
      layer.Clear new.address new.under.length)
    (inPlace : ∀ old, layers index = some old →
      old.address = new.address ∧ old.under.length = new.under.length) :
    Laid base (Function.update layers index (some new))
      (overlay memory new.address new.cells) := by
  have length : new.cells.length = new.under.length := by
    unfold Layer.cells
    split
    · exact sameLength
    · rfl
  refine ⟨?_, ?_, ?_, ?_, ?_⟩
  · intro other layer present
    rcases update_eq_some present with ⟨_, rfl⟩ | ⟨_, old⟩
    · exact sameLength
    · exact laid.sameLength other layer old
  · intro other layer present
    rcases update_eq_some present with ⟨_, rfl⟩ | ⟨_, old⟩
    · exact genuine
    · exact laid.genuine other layer old
  · intro left right first second different atLeft atRight
    rcases update_eq_some atLeft with ⟨rfl, rfl⟩ | ⟨leftOther, oldLeft⟩
    · rcases update_eq_some atRight with ⟨rfl, rfl⟩ | ⟨rightOther, oldRight⟩
      · exact absurd rfl different
      · exact (clear right second rightOther oldRight).symm
    · rcases update_eq_some atRight with ⟨rfl, rfl⟩ | ⟨_, oldRight⟩
      · exact clear left first leftOther oldLeft
      · exact laid.apart left right first second different oldLeft oldRight
  · intro other layer present
    rcases update_eq_some present with ⟨_, rfl⟩ | ⟨different, old⟩
    · rw [← length, slice_overlay]
    · rw [slice_overlay_apart]
      · exact laid.shown other layer old
      · rw [length]
        exact clear other layer different old
  · intro place outside
    have here := outside index new (Function.update_self ..)
    rw [overlay_outside _ _ _ _ (by simpa only [length] using here)]
    apply laid.elsewhere
    intro other layer old
    by_cases same : other = index
    · subst same
      have range := inPlace layer old
      omega
    · exact outside other layer (by rw [Function.update_of_ne same]; exact old)

/-- A new layer goes over a range clear of the others. -/
theorem Laid.put (laid : Laid base layers memory) (index : Index) (address : Nat)
    (cover : List Byte) (free : layers index = none)
    (clear : ∀ other layer, layers other = some layer → layer.Clear address cover.length) :
    Laid base
      (Function.update layers index (some ⟨address, slice base address cover.length, cover, true⟩))
      (overlay memory address cover) := by
  apply laid.set index ⟨address, slice base address cover.length, cover, true⟩
  · simp only [slice_length]
  · simp only [slice_length]
  · intro other layer _ present
    simpa only [slice_length] using clear other layer present
  · intro old present
    exact absurd (present.symm.trans free) (Option.some_ne_none old)

/-- Any layer may be shown or taken off by writing what it keeps. -/
theorem Laid.show (laid : Laid base layers memory) {index : Index} {layer : Layer Byte}
    (present : layers index = some layer) (up : Bool) :
    Laid base (Function.update layers index (some { layer with up := up }))
      (overlay memory layer.address (if up then layer.cover else layer.under)) := by
  apply laid.set index { layer with up := up }
  · exact laid.sameLength index layer present
  · exact laid.genuine index layer present
  · intro other shown different old
    exact laid.apart other index shown layer different old present
  · intro old atIndex
    rw [present] at atIndex
    cases atIndex
    exact ⟨rfl, rfl⟩

/-- A layer that is off may be forgotten. -/
theorem Laid.drop (laid : Laid base layers memory) (index : Index)
    (off : ∀ layer, layers index = some layer → layer.up = false) :
    Laid base (Function.update layers index none) memory := by
  have kept : ∀ other layer, Function.update layers index none other = some layer →
      layers other = some layer := fun _ _ present => (update_none_eq_some present).2
  refine ⟨?_, ?_, ?_, ?_, ?_⟩
  · exact fun other layer present => laid.sameLength other layer (kept other layer present)
  · exact fun other layer present => laid.genuine other layer (kept other layer present)
  · exact fun left right first second different atLeft atRight => laid.apart left right first second
      different (kept left first atLeft) (kept right second atRight)
  · exact fun other layer present => laid.shown other layer (kept other layer present)
  · intro place outside
    cases present : layers index with
    | none =>
        apply laid.elsewhere
        intro other layer old
        apply outside other layer
        rw [Function.update_of_ne]
        · exact old
        · rintro rfl
          exact Option.some_ne_none _ (old.symm.trans present)
    | some layer =>
        by_cases inside : layer.address ≤ place ∧ place < layer.address + layer.under.length
        · exact laid.memory_off present (off layer present) inside.1 (by omega)
        · apply laid.elsewhere
          intro other old atOther
          by_cases same : other = index
          · subst same
            rw [present] at atOther
            have : old = layer := (Option.some.inj atOther).symm
            subst this
            omega
          · exact outside other old (by rw [Function.update_of_ne same]; exact atOther)

end Layers
