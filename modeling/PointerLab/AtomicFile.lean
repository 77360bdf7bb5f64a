import Mathlib.Logic.Function.Basic
import PointerLab.Domain
import PointerLab.Routines

set_option autoImplicit false

/- `infra/AtomicFile.cpp`: a file is written beside the one it replaces, and moved over it. -/
namespace PointerLab.AtomicFile

open Domain

/-- What is on the disk, by path. -/
abbrev Disk := String → Option Text

/-- How a stream is opened. -/
inductive OpenMode where
  | text
  | binary
  deriving DecidableEq, Repr

/-- What reaches the disk: in text mode the runtime writes a line feed as two characters. -/
def OpenMode.encode : OpenMode → Text → Text
  | .text, contents => contents.flatMap fun c => if c == '\n' then ['\r', '\n'] else [c]
  | .binary, contents => contents

/-- In text mode the runtime reads the two characters as one, and stops at a Ctrl-Z. -/
def readAsText : Text → Text
  | [] => []
  | '\x1A' :: _ => []
  | '\r' :: '\n' :: rest => '\n' :: readAsText rest
  | c :: rest => c :: readAsText rest

def OpenMode.decode : OpenMode → Text → Text
  | .text, bytes => readAsText bytes
  | .binary, bytes => bytes

/-- What the system answers on the way. -/
structure Weather where
  /-- Whether the temporary file opens. -/
  opens : Bool := true
  /-- How much is on the disk, each time the stream hands on some of its buffer. -/
  reaches : List Nat := []
  /-- Whether the stream is good once it is flushed. -/
  flushes : Bool := true
  /-- The error of `MoveFileEx`. -/
  refuses : Option Nat := none
  /-- Whether the temporary file can be removed. -/
  removes : Bool := true

def temporary (path : String) : String := path ++ ".tmp"

/-- What `fill` writes comes to the disk a part at a time. -/
def fill (path : String) (bytes : Text) : List Nat → Routine Disk Unit
  | [] => .done ()
  | length :: later =>
      .act (fun disk => Function.update disk path (some (bytes.take length)))
        fun _ => fill path bytes later

def remove (weather : Weather) (path : String) : Routine Disk Unit :=
  .act (fun disk => if weather.removes then Function.update disk path none else disk)
    fun _ => .done ()

/-- The rename replaces the file in one step. -/
def move (source target : String) (disk : Disk) : Disk :=
  Function.update (Function.update disk target (disk source)) source none

def writeFileAtomically (weather : Weather) (path : String) (mode : OpenMode) (contents : Text) :
    Routine Disk (Result Unit) :=
  if !weather.opens then
    .done (fail ("Could not create " ++ temporary path ++ " for writing."))
  else
    .act (fun disk => Function.update disk (temporary path) (some [])) fun _ =>
      (fill (temporary path) (mode.encode contents) weather.reaches).bind fun _ =>
        if !weather.flushes then
          (remove weather (temporary path)).bind fun _ =>
            .done (fail ("Could not write " ++ temporary path ++
              " (the disk may be full or read-only)."))
        else
          .act (fun disk =>
              Function.update disk (temporary path) (some (mode.encode contents))) fun _ =>
            match weather.refuses with
            | none => .act (move (temporary path) path) fun _ => .done (.ok ())
            | some error =>
                (remove weather (temporary path)).bind fun _ =>
                  .done (fail ("Could not replace " ++ path ++ " (Windows error " ++
                    toString error ++ ").") error)

/-- Only one file may be another than before. -/
def Elsewhere (path : String) (disk met : Disk) : Prop := ∀ other ≠ path, met other = disk other

theorem Elsewhere.refl (path : String) (disk : Disk) : Elsewhere path disk disk := fun _ _ => rfl

theorem Elsewhere.update {path : String} {disk met : Disk} (elsewhere : Elsewhere path disk met)
    (bytes : Option Text) : Elsewhere path disk (Function.update met path bytes) := by
  intro other different
  rw [Function.update_of_ne different]
  exact elsewhere other different

theorem path_ne_temporary (path : String) : path ≠ temporary path := by
  intro same
  have length := congrArg String.length same
  rw [temporary, String.length_append] at length
  have four : (".tmp" : String).length = 4 := rfl
  omega

theorem elsewhere_fill {path : String} {bytes : Text} {lengths : List Nat} {disk state met : Disk}
    (elsewhere : Elsewhere path disk state)
    (inside : met ∈ (fill path bytes lengths).passes state) : Elsewhere path disk met := by
  induction lengths generalizing state with
  | nil => exact List.mem_singleton.mp inside ▸ elsewhere
  | cons length later ih =>
      rcases List.mem_cons.mp inside with rfl | rest
      · exact elsewhere
      · exact ih (elsewhere.update _) rest

theorem elsewhere_remove {weather : Weather} {path : String} {disk state met : Disk}
    (elsewhere : Elsewhere path disk state)
    (inside : met ∈ (remove weather path).passes state) : Elsewhere path disk met := by
  rcases List.mem_cons.mp inside with rfl | rest
  · exact elsewhere
  · rw [List.mem_singleton.mp rest]
    split
    · exact elsewhere.update _
    · exact elsewhere

/-- The file is as it was, or it is the new one and nothing is left beside it. -/
inductive Stage (path : String) (bytes : Text) (disk met : Disk) : Prop
  | before (elsewhere : Elsewhere (temporary path) disk met)
  | after (replaced : met path = some bytes) (gone : met (temporary path) = none)
      (others : ∀ other, other ≠ path → other ≠ temporary path → met other = disk other)

theorem stage_move {path : String} {bytes : Text} {disk met : Disk}
    (elsewhere : Elsewhere (temporary path) disk met)
    (whole : met (temporary path) = some bytes) :
    Stage path bytes disk (move (temporary path) path met) := by
  apply Stage.after
  · rw [move, Function.update_of_ne (path_ne_temporary path), Function.update_self, whole]
  · rw [move, Function.update_self]
  · intro other notPath notTemporary
    rw [move, Function.update_of_ne notTemporary, Function.update_of_ne notPath]
    exact elsewhere other notTemporary

/-- At any moment of a write the file is whole: the old one, or the new one. -/
theorem writeFileAtomically_stage {weather : Weather} {path : String} {mode : OpenMode}
    {contents : Text} {disk met : Disk}
    (inside : met ∈ (writeFileAtomically weather path mode contents).passes disk) :
    Stage path (mode.encode contents) disk met := by
  have start := Elsewhere.refl (temporary path) disk
  unfold writeFileAtomically at inside
  split at inside
  · exact .before (List.mem_singleton.mp inside ▸ start)
  · rcases List.mem_cons.mp inside with rfl | opened
    · exact .before start
    rcases Routine.mem_passes_bind opened with filling | filled
    · exact .before (elsewhere_fill (start.update _) filling)
    have written := elsewhere_fill (start.update (some []))
      ((fill (temporary path) (mode.encode contents) weather.reaches).finish_mem_passes _)
    split at filled
    · rcases Routine.mem_passes_bind filled with removing | ended
      · exact .before (elsewhere_remove written removing)
      · rw [List.mem_singleton.mp ended]
        exact .before (elsewhere_remove written (Routine.finish_mem_passes _ _))
    · rcases List.mem_cons.mp filled with rfl | flushed
      · exact .before written
      have ready := written.update (some (mode.encode contents))
      split at flushed
      · rcases List.mem_cons.mp flushed with rfl | moved
        · exact .before ready
        · rw [List.mem_singleton.mp moved]
          exact stage_move ready (Function.update_self ..)
      · rcases Routine.mem_passes_bind flushed with removing | ended
        · exact .before (elsewhere_remove ready removing)
        · rw [List.mem_singleton.mp ended]
          exact .before (elsewhere_remove ready (Routine.finish_mem_passes _ _))

/-- Nothing goes wrong on the way. -/
def Weather.fair (weather : Weather) : Bool :=
  weather.opens && weather.flushes && weather.refuses.isNone

/-- The answer tells whether the file was replaced. -/
theorem writeFileAtomically_finish (weather : Weather) (path : String) (mode : OpenMode)
    (contents : Text) (disk : Disk) :
    let ended := (writeFileAtomically weather path mode contents).finish disk
    ended.2.isOk = weather.fair ∧
      ended.1 path = if weather.fair then some (mode.encode contents) else disk path := by
  have start := Elsewhere.refl (temporary path) disk
  have apart := path_ne_temporary path
  have written := elsewhere_fill (start.update (some []))
    ((fill (temporary path) (mode.encode contents) weather.reaches).finish_mem_passes _)
  unfold writeFileAtomically Weather.fair
  cases weather.opens with
  | false => exact ⟨rfl, rfl⟩
  | true =>
      cases weather.flushes with
      | false =>
          simp only [Bool.not_true, Bool.not_false, Bool.false_eq_true, reduceIte, Routine.finish,
            Routine.finish_bind]
          exact ⟨rfl, elsewhere_remove written (Routine.finish_mem_passes _ _) path apart⟩
      | true =>
          have ready := written.update (some (mode.encode contents))
          cases weather.refuses with
          | none =>
              simp only [Bool.not_true, Bool.false_eq_true, reduceIte, Routine.finish,
                Routine.finish_bind]
              refine ⟨rfl, ?_⟩
              change move (temporary path) path _ path = some (mode.encode contents)
              rw [move, Function.update_of_ne apart, Function.update_self, Function.update_self]
          | some error =>
              simp only [Bool.not_true, Bool.false_eq_true, reduceIte, Routine.finish,
                Routine.finish_bind]
              exact ⟨rfl, elsewhere_remove ready (Routine.finish_mem_passes _ _) path apart⟩

theorem OpenMode.encode_cons (c : Char) (rest : Text) :
    OpenMode.text.encode (c :: rest) =
      (if c == '\n' then ['\r', '\n'] else [c]) ++ OpenMode.text.encode rest :=
  List.flatMap_cons

/-- A line feed on the disk has a carriage return before it. -/
theorem OpenMode.encode_ne_feed (contents rest : Text) :
    OpenMode.text.encode contents ≠ '\n' :: rest := by
  cases contents with
  | nil => exact (List.cons_ne_nil _ _).symm
  | cons c later =>
      rw [encode_cons]
      by_cases feed : c = '\n'
      · rw [if_pos (by simpa using feed)]
        exact fun same => absurd (List.cons.inj same).1 (by decide)
      · rw [if_neg (by simpa using feed)]
        exact fun same => feed (List.cons.inj same).1

/-- A text without a Ctrl-Z is read as it was written. -/
theorem readAsText_encode {contents : Text} (plain : '\x1A' ∉ contents) :
    readAsText (OpenMode.text.encode contents) = contents := by
  induction contents with
  | nil => rfl
  | cons c rest ih =>
      obtain ⟨other, later⟩ := not_or.mp (mt List.mem_cons.mpr plain)
      rw [OpenMode.encode_cons]
      by_cases feed : c = '\n'
      · rw [feed, if_pos (by decide)]
        exact congrArg ('\n' :: ·) (ih later)
      · rw [if_neg (by simpa using feed), List.singleton_append, readAsText, ih later]
        · exact fun same => other same.symm
        · exact fun behind _ starts => OpenMode.encode_ne_feed rest behind starts

end PointerLab.AtomicFile
