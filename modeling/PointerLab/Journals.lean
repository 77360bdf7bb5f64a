import Mathlib.Logic.Function.Basic

set_option autoImplicit false

/- Old values of a map that were noted before they were changed, and put back newest first. -/
namespace Journals

variable {Key Value : Type*} [DecidableEq Key]

/-- The map with the noted values in it again. -/
def undo (noted : List (Key × Value)) (map : Key → Value) : Key → Value :=
  noted.foldr (fun entry map => Function.update map entry.1 entry.2) map

theorem undo_concat (noted : List (Key × Value)) (key : Key) (value : Value) (map : Key → Value) :
    undo (noted ++ [(key, value)]) map = undo noted (Function.update map key value) := by
  rw [undo, List.foldr_append]
  rfl

/-- A change that is noted first is undone, whatever was changed before it. -/
theorem undo_update (noted : List (Key × Value)) (map : Key → Value) (key : Key) (value : Value) :
    undo (noted ++ [(key, map key)]) (Function.update map key value) = undo noted map := by
  rw [undo_concat, Function.update_idem, Function.update_eq_self]

end Journals
