import Mathlib.Data.List.Basic

set_option autoImplicit false

/- Reading a text piece by piece up to a separator, as `std::getline` does: what follows
the last separator is a piece unless it is empty. -/
namespace Pieces

variable {Symbol : Type*} [DecidableEq Symbol]

/-- The pieces left when `current` has been read since the last separator. -/
def piecesFrom (separator : Symbol) : List Symbol → List Symbol → List (List Symbol)
  | current, [] => if current.isEmpty then [] else [current]
  | current, symbol :: rest =>
      if symbol = separator then current :: piecesFrom separator [] rest
      else piecesFrom separator (current ++ [symbol]) rest

def pieces (separator : Symbol) (text : List Symbol) : List (List Symbol) :=
  piecesFrom separator [] text

/-- A piece without separators is read whole. -/
theorem piecesFrom_append {separator : Symbol} {current piece rest : List Symbol}
    (plain : separator ∉ piece) :
    piecesFrom separator current (piece ++ rest) = piecesFrom separator (current ++ piece) rest := by
  induction piece generalizing current with
  | nil => rw [List.nil_append, List.append_nil]
  | cons symbol piece ih =>
      obtain ⟨other, later⟩ := not_or.mp (mt List.mem_cons.mpr plain)
      rw [List.cons_append, piecesFrom, if_neg (Ne.symm other), ih later, List.append_assoc,
        List.singleton_append]

theorem pieces_separated {separator : Symbol} {piece rest : List Symbol}
    (plain : separator ∉ piece) :
    pieces separator (piece ++ separator :: rest) = piece :: pieces separator rest := by
  rw [pieces, piecesFrom_append plain, piecesFrom, if_pos rfl, List.nil_append, pieces]

/-- Lines that each end with the separator come back one by one. -/
theorem pieces_lines {separator : Symbol} {lines : List (List Symbol)}
    (plain : ∀ line ∈ lines, separator ∉ line) :
    pieces separator (lines.flatMap (· ++ [separator])) = lines := by
  induction lines with
  | nil => rfl
  | cons line rest ih =>
      rw [List.flatMap_cons, List.append_assoc, List.singleton_append,
        pieces_separated (plain line List.mem_cons_self),
        ih fun line inRest => plain line (List.mem_cons_of_mem _ inRest)]

/-- Nonempty pieces with separators between them come back one by one. -/
theorem pieces_intercalate {separator : Symbol} {parts : List (List Symbol)}
    (plain : ∀ part ∈ parts, separator ∉ part ∧ part ≠ []) :
    pieces separator (List.intercalate [separator] parts) = parts := by
  induction parts with
  | nil => rfl
  | cons part rest ih =>
      obtain ⟨clean, nonempty⟩ := plain part List.mem_cons_self
      have later := ih fun part inRest => plain part (List.mem_cons_of_mem _ inRest)
      cases rest with
      | nil =>
          have whole := @piecesFrom_append _ _ separator [] part [] clean
          rw [List.append_nil, List.nil_append] at whole
          rw [List.intercalate_singleton, pieces, whole, piecesFrom,
            if_neg (by simpa only [List.isEmpty_iff] using nonempty)]
      | cons next rest =>
          rw [List.intercalate_cons_cons, List.append_assoc, List.singleton_append,
            pieces_separated clean, later]

end Pieces
