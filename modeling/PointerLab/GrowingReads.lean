import Mathlib.Data.List.Infix
import Mathlib.Order.Defs.LinearOrder

set_option autoImplicit false

/- Reading a stream that arrives in chunks, with a parser that is run again on all that has
arrived until it decides; and finding a pattern in what has arrived so far. -/
namespace GrowingReads

variable {Symbol Verdict : Type*}

/-- Asks the parser before every chunk and after the last one. -/
def readLoop (parse : List Symbol → Option Verdict) :
    List Symbol → List (List Symbol) → Option Verdict
  | buffer, [] => parse buffer
  | buffer, chunk :: rest =>
      match parse buffer with
      | some verdict => some verdict
      | none => readLoop parse (buffer ++ chunk) rest

/-- A way in which a stream may arrive, no chunk longer than the receiver's buffer. -/
structure Cut (limit : Nat) (stream : List Symbol) (chunks : List (List Symbol)) : Prop where
  whole : chunks.flatten = stream
  nonempty : ∀ chunk ∈ chunks, chunk ≠ []
  bounded : ∀ chunk ∈ chunks, chunk.length ≤ limit

/-- What the parser decides on a part of the stream it decides on the whole. -/
def Stable (parse : List Symbol → Option Verdict) (stream : List Symbol) : Prop :=
  ∀ part, part <+: stream → ∀ verdict, parse part = some verdict → parse stream = some verdict

/-- A stable parser comes to its verdict on the whole stream, however the stream is cut. -/
theorem readLoop_of_stable {parse : List Symbol → Option Verdict} {stream : List Symbol}
    (stable : Stable parse stream) {buffer : List Symbol} {chunks : List (List Symbol)}
    (arrives : buffer ++ chunks.flatten = stream) :
    readLoop parse buffer chunks = parse stream := by
  induction chunks generalizing buffer with
  | nil =>
      rw [List.flatten_nil, List.append_nil] at arrives
      rw [readLoop, arrives]
  | cons chunk rest ih =>
      unfold readLoop
      split
      · rename_i verdict decided
        exact (stable buffer ⟨_, arrives⟩ verdict decided).symm
      · apply ih
        rw [List.append_assoc]
        exact arrives

/-- Where the parser decides nothing on the way, reading goes on with what follows. -/
theorem readLoop_append {parse : List Symbol → Option Verdict} {buffer : List Symbol}
    {first : List (List Symbol)} (rest : List (List Symbol))
    (undecided : ∀ part, part <+: buffer ++ first.flatten → parse part = none) :
    readLoop parse buffer (first ++ rest) =
      readLoop parse (buffer ++ first.flatten) rest := by
  induction first generalizing buffer with
  | nil => rw [List.flatten_nil, List.append_nil, List.nil_append]
  | cons chunk first ih =>
      rw [List.flatten_cons, ← List.append_assoc] at undecided ⊢
      rw [List.cons_append, readLoop, undecided buffer ⟨_, (List.append_assoc ..).symm⟩]
      exact ih undecided

/-- One symbol at a time. -/
theorem cut_singles (limit : Nat) (positive : 1 ≤ limit) (stream : List Symbol) :
    Cut limit stream (stream.map fun symbol => [symbol]) where
  whole := by
    induction stream with
    | nil => rfl
    | cons symbol rest ih => rw [List.map_cons, List.flatten_cons, ih, List.singleton_append]
  nonempty := by
    intro chunk member
    obtain ⟨symbol, _, rfl⟩ := List.mem_map.mp member
    exact List.cons_ne_nil _ _
  bounded := by
    intro chunk member
    obtain ⟨symbol, _, rfl⟩ := List.mem_map.mp member
    exact positive

theorem Cut.append {limit : Nat} {early late : List Symbol} {first rest : List (List Symbol)}
    (before : Cut limit early first) (after : Cut limit late rest) :
    Cut limit (early ++ late) (first ++ rest) where
  whole := by rw [List.flatten_append, before.whole, after.whole]
  nonempty := by
    intro chunk member
    exact (List.mem_append.mp member).elim (before.nonempty chunk) (after.nonempty chunk)
  bounded := by
    intro chunk member
    exact (List.mem_append.mp member).elim (before.bounded chunk) (after.bounded chunk)

theorem cut_single {limit : Nat} {chunk : List Symbol} (nonempty : chunk ≠ [])
    (bounded : chunk.length ≤ limit) : Cut limit chunk [chunk] where
  whole := by rw [List.flatten_cons, List.flatten_nil, List.append_nil]
  nonempty := by
    intro other member
    rw [List.mem_singleton.mp member]
    exact nonempty
  bounded := by
    intro other member
    rw [List.mem_singleton.mp member]
    exact bounded

section

variable [DecidableEq Symbol]

/-- `std::string::find`: where the pattern first begins. -/
def search (pattern : List Symbol) : List Symbol → Option Nat
  | [] => if pattern = [] then some 0 else none
  | symbol :: rest =>
      if pattern <+: symbol :: rest then some 0 else (search pattern rest).map (· + 1)

theorem search_within {pattern text : List Symbol} {place : Nat}
    (found : search pattern text = some place) : place + pattern.length ≤ text.length := by
  induction text generalizing place with
  | nil =>
      simp only [search, Option.ite_none_right_eq_some, Option.some.injEq] at found
      simp [found.1, ← found.2]
  | cons symbol rest ih =>
      unfold search at found
      split at found
      · rename_i here
        cases found
        simpa using here.length_le
      · obtain ⟨before, later, rfl⟩ := Option.map_eq_some_iff.mp found
        have within := ih later
        rw [List.length_cons]
        omega

/-- Symbols the pattern does not begin with are passed over. -/
theorem search_replicate {symbol other : Symbol} {pattern rest : List Symbol}
    (differs : symbol ≠ other) (count : Nat) :
    search (symbol :: pattern) (List.replicate count other ++ rest) =
      (search (symbol :: pattern) rest).map (· + count) := by
  induction count with
  | zero =>
      rw [List.replicate_zero, List.nil_append]
      simp
  | succ count ih =>
      rw [List.replicate_succ, List.cons_append, search, if_neg, ih, Option.map_map]
      · rfl
      · intro here
        exact differs (List.cons_prefix_cons.mp here).1

/-- What has not even the first symbol of the pattern is passed over. -/
theorem search_of_not_mem {symbol : Symbol} {pattern text : List Symbol} (rest : List Symbol)
    (absent : symbol ∉ text) :
    search (symbol :: pattern) (text ++ rest) =
      (search (symbol :: pattern) rest).map (· + text.length) := by
  induction text with
  | nil =>
      rw [List.nil_append]
      simp
  | cons first text ih =>
      obtain ⟨other, later⟩ := not_or.mp (mt List.mem_cons.mpr absent)
      rw [List.cons_append, search, if_neg, ih later, Option.map_map]
      · rfl
      · intro here
        exact other (List.cons_prefix_cons.mp here).1

theorem search_append {pattern text : List Symbol} {place : Nat}
    (found : search pattern text = some place) (more : List Symbol) :
    search pattern (text ++ more) = some place := by
  induction text generalizing place with
  | nil =>
      simp only [search, Option.ite_none_right_eq_some, Option.some.injEq] at found
      obtain ⟨rfl, rfl⟩ := found
      cases more <;> simp [search]
  | cons symbol rest ih =>
      unfold search at found
      rw [List.cons_append, search]
      split at found
      · rename_i here
        cases found
        exact if_pos (here.trans (List.prefix_append (symbol :: rest) more))
      · rename_i elsewhere
        obtain ⟨before, later, rfl⟩ := Option.map_eq_some_iff.mp found
        have within := search_within later
        rw [if_neg, ih later, Option.map_some]
        intro here
        refine elsewhere (List.prefix_of_prefix_length_le here
          (List.prefix_append (symbol :: rest) more) ?_)
        rw [List.length_cons]
        omega

/-- A pattern that has arrived whole has been found. -/
theorem search_of_append {pattern text more : List Symbol} {place : Nat}
    (found : search pattern (text ++ more) = some place)
    (within : place + pattern.length ≤ text.length) : search pattern text = some place := by
  induction text generalizing place with
  | nil =>
      rw [List.length_nil] at within
      have empty : pattern = [] := List.eq_nil_of_length_eq_zero (by omega)
      have first : place = 0 := by omega
      rw [search, if_pos empty, first]
  | cons symbol rest ih =>
      rw [List.cons_append, search] at found
      rw [List.length_cons] at within
      split at found
      · rename_i here
        cases found
        rw [search, if_pos]
        refine List.prefix_of_prefix_length_le here (List.prefix_append (symbol :: rest) more) ?_
        rw [List.length_cons]
        omega
      · rename_i elsewhere
        obtain ⟨before, later, rfl⟩ := Option.map_eq_some_iff.mp found
        rw [search, if_neg, ih later (by omega), Option.map_some]
        intro here
        exact elsewhere (here.trans (List.prefix_append _ _))

/-- What has not been found in a part has not arrived whole in it. -/
theorem search_none_of_lt {pattern text part : List Symbol} {place : Nat}
    (found : search pattern text = some place) (shorter : part <+: text)
    (cutOff : part.length < place + pattern.length) : search pattern part = none := by
  obtain ⟨more, rfl⟩ := shorter
  cases early : search pattern part with
  | none => rfl
  | some other =>
      have same := (search_append early more).symm.trans found
      have within := search_within early
      simp only [Option.some.injEq] at same
      omega

end

end GrowingReads
