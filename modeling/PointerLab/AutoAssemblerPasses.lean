import PointerLab.AutoAssemblerWithdrawals

set_option autoImplicit false

/- How the two passes of `compile` see the lines of a section: the first with the defines above
a line, the second with all of them. -/
namespace PointerLab.AutoAssembler

open Domain OrderedMap

inductive LineKind where
  | directive (directive : Directive)
  | label (name : Text)
  | origin (expression : Text)
  | data (bytes : List UInt8)
  | instruction (text : Text)
  deriving DecidableEq

/-- What an expanded line is, by the tests both passes make, in their order. -/
def kindOf (expanded : Text) : LineKind :=
  match parseDirective expanded with
  | some directive => .directive directive
  | none =>
      match parseLabelDefinition expanded with
      | some name => .label name
      | none =>
          match parseOriginExpression expanded with
          | some expression => .origin expression
          | none =>
              match parseData expanded with
              | some bytes => .data bytes
              | none => .instruction expanded

/-- The first pass carries the line out. -/
def executes (defines : DefineMap) (text : Text) : Bool :=
  (parseDirective (substituteText text defines)).isSome

/-- The second pass does not step over the line. -/
def laysOut (defines : DefineMap) (text : Text) : Bool :=
  (parseDirective (substituteText text defines)).isNone

/-- The identifiers of a text; `identifier` is what has been read of the current one. -/
def namesFrom : Text → Text → List Text
  | identifier, [] => if identifier.isEmpty then [] else [identifier]
  | identifier, c :: rest =>
      if identifierChar c then namesFrom (identifier ++ [c]) rest
      else (if identifier.isEmpty then [] else [identifier]) ++ namesFrom [] rest

def namesIn (text : Text) : List Text := namesFrom [] text

/-- What takes the place of a name. -/
def standsFor (defines : DefineMap) (name : Text) : Text := (find caseLess name defines).getD name

/-- The part of a line that tells its kind: what stands in front of the parenthesis where the first
pass carries out a directive that is spelled with both of its parentheses, else all of it. -/
def telling (above : DefineMap) (text : Text) : Text :=
  if executes above text && text.contains '(' && text.getLast? == some ')' then
    text.takeWhile (· != '(')
  else text

/-- The passes treat a line alike: it becomes the same text of the same kind, and just one of them
handles it. -/
structure TreatedAlike (text : Text) (above final : DefineMap) : Prop where
  expanded : substituteText text final = substituteText text above
  kind : kindOf (substituteText text final) = kindOf (substituteText text above)
  once : executes above text = !laysOut final text

/-- They do as far as they look at the line: the second looks no further into a directive than
it takes to step over it. -/
structure HandledOnce (text : Text) (above final : DefineMap) : Prop where
  once : executes above text = !laysOut final text
  expanded : laysOut final text = true → substituteText text final = substituteText text above

/-- Every line, with what the first pass has made known when it comes to it. -/
def EveryLine (holds : Text → DefineMap → DefineMap → Prop) (env : Env) (execute : Bool)
    (lines : List Line) (start known : Known) : Prop :=
  ∀ before line after, lines = before ++ line :: after →
    ∀ above, (readLines env execute before start).2 = .ok above →
      holds line.text above.defines known.defines

/-- The define a directive makes. -/
def definition (directive : Directive) : List (Text × Text) :=
  if directive.name = "define".toList then
    match directive.args with
    | [name, text] => [(name, text)]
    | _ => []
  else []

/-- The defines that lines make, in order. -/
def definesOf : DefineMap → List Line → List (Text × Text)
  | _, [] => []
  | defines, line :: rest =>
      match parseDirective (substituteText line.text defines) with
      | none => definesOf defines rest
      | some directive =>
          definition directive ++ definesOf (definesAfter directive defines) rest

/-- The defines below a line. -/
def definesBelow (line : Line) (above : DefineMap) : DefineMap :=
  match parseDirective (substituteText line.text above) with
  | none => above
  | some directive => definesAfter directive above

/-- The last of some defines of a name, if there is one, gives it the text that it stands for
anyway. -/
def KeepsName (later : List (Text × Text)) (above : DefineMap) (name : Text) : Prop :=
  ∀ text ∈ find caseLess name later.reverse, text = standsFor above name

/-- The defines from a line on keep every name of the line. -/
def Steady (text : Text) (later : List (Text × Text)) (above : DefineMap) : Prop :=
  ∀ name ∈ namesIn text, KeepsName later above name

/-- They keep the names of the part that tells its kind. -/
def SteadyKind (text : Text) (later : List (Text × Text)) (above : DefineMap) : Prop :=
  Steady (telling above text) later above

/-- They keep the names of a line that is not a directive above them. -/
def SteadyLaid (text : Text) (later : List (Text × Text)) (above : DefineMap) : Prop :=
  laysOut above text = true → Steady text later above

/-- They change one of its names at most. -/
def OneChanges (text : Text) (later : List (Text × Text)) (above : DefineMap) : Prop :=
  ∃ name, ∀ other ∈ namesIn text, other = name ∨ KeepsName later above other

/-- Every line, with the defines above it and those from it on. -/
def EveryDefine (holds : Text → List (Text × Text) → DefineMap → Prop) (lines : List Line) : Prop :=
  ∀ before line after, lines = before ++ line :: after →
    let above := assignAll caseLess (definesOf [] before) []
    holds line.text (definesOf above (line :: after)) above

theorem definesAfter_eq (directive : Directive) (defines : DefineMap) :
    definesAfter directive defines = assignAll caseLess (definition directive) defines := by
  unfold definesAfter definition
  by_cases define : directive.name = "define".toList
  · rw [if_pos define, if_pos define]
    rcases directive.args with _ | ⟨name, _ | ⟨text, _ | ⟨third, more⟩⟩⟩ <;> rfl
  · rw [if_neg define, if_neg define]
    rfl

theorem definesOf_cons (above : DefineMap) (line : Line) (rest : List Line) :
    assignAll caseLess (definesOf above (line :: rest)) above =
      assignAll caseLess (definesOf (definesBelow line above) rest) (definesBelow line above) := by
  unfold definesBelow
  rw [definesOf]
  cases parseDirective (substituteText line.text above) with
  | none => rfl
  | some directive =>
      dsimp only
      rw [definesAfter_eq, assignAll_append]

theorem definesOf_append (defines : DefineMap) (first second : List Line) :
    definesOf defines (first ++ second) =
      definesOf defines first ++
        definesOf (assignAll caseLess (definesOf defines first) defines) second := by
  induction first generalizing defines with
  | nil => rfl
  | cons line rest ih =>
      rw [List.cons_append, definesOf, definesOf]
      cases parseDirective (substituteText line.text defines) with
      | none => exact ih defines
      | some directive =>
          dsimp only
          rw [ih, List.append_assoc, assignAll_append, definesAfter_eq]

section Readings

variable {env : Env} {execute : Bool} {s known : Known}

theorem readLine_defines {line : Line} (ok : readLine env execute line s = .ok known) :
    known.defines = definesBelow line s.defines := by
  unfold readLine at ok
  unfold definesBelow
  cases parsed : parseDirective (substituteText line.text s.defines) with
  | none =>
      simp only [parsed] at ok
      split at ok <;> cases ok <;> rfl
  | some directive =>
      simp only [parsed] at ok
      split at ok
      · cases ok
      · rename_i ran
        cases ok
        exact (runDirective_withdraws ran).1

/-- The defines that the first pass ends with. -/
theorem readLines_defines {lines : List Line}
    (ok : (readLines env execute lines s).2 = .ok known) :
    known.defines = assignAll caseLess (definesOf s.defines lines) s.defines := by
  induction lines generalizing s with
  | nil =>
      cases ok
      rfl
  | cons line rest ih =>
      obtain ⟨after, step, ended⟩ := readLines_cons_ok ok
      rw [ih ended, readLine_defines step, definesOf_cons]

/-- A pass that comes to its end has come through every line. -/
theorem readLines_before {before after : List Line}
    (ok : (readLines env execute (before ++ after) s).2 = .ok known) :
    ∃ above, (readLines env execute before s).2 = .ok above := by
  induction before generalizing s with
  | nil => exact ⟨s, rfl⟩
  | cons line rest ih =>
      obtain ⟨next, step, ended⟩ := readLines_cons_ok ok
      simp only [readLines, step]
      exact ih ended

end Readings

section Fill

/-- A text in pieces: the characters between its identifiers, and these. -/
def piecesFrom : Text → Text → List (Char ⊕ Text)
  | identifier, [] => if identifier.isEmpty then [] else [.inr identifier]
  | identifier, c :: rest =>
      if identifierChar c then piecesFrom (identifier ++ [c]) rest
      else (if identifier.isEmpty then [] else [.inr identifier]) ++ .inl c :: piecesFrom [] rest

/-- The pieces with texts put in the place of the identifiers. -/
def fill (put : Text → Text) (pieces : List (Char ⊕ Text)) : Text :=
  pieces.flatMap (Sum.elim (fun c => [c]) put)

theorem replaceFrom_eq_fill (defines : DefineMap) (identifier text : Text) :
    replaceFrom (find caseLess · defines) identifier text =
      fill (standsFor defines) (piecesFrom identifier text) := by
  have flushed (identifier : Text) :
      (if identifier.isEmpty then [] else (find caseLess identifier defines).getD identifier) =
        fill (standsFor defines) (if identifier.isEmpty then [] else [.inr identifier]) := by
    split
    · rfl
    · exact (List.append_nil _).symm
  induction text generalizing identifier with
  | nil => exact flushed identifier
  | cons c rest ih =>
      rw [replaceFrom, piecesFrom]
      split
      · exact ih _
      · rw [flushed, ih]
        unfold fill
        rw [List.flatMap_append, List.flatMap_cons]
        rfl

theorem mem_namesFrom {name identifier text : Text} :
    name ∈ namesFrom identifier text ↔ Sum.inr name ∈ piecesFrom identifier text := by
  have flushed (identifier : Text) :
      name ∈ (if identifier.isEmpty then [] else [identifier] : List Text) ↔
        Sum.inr name ∈ (if identifier.isEmpty then [] else [.inr identifier] :
          List (Char ⊕ Text)) := by
    split <;> simp
  induction text generalizing identifier with
  | nil => exact flushed identifier
  | cons c rest ih =>
      rw [namesFrom, piecesFrom]
      split
      · exact ih
      · have later : Sum.inr name ∈ Sum.inl c :: piecesFrom [] rest ↔ name ∈ namesFrom [] rest := by
          simp only [List.mem_cons, reduceCtorEq, false_or]
          exact ih.symm
        rw [List.mem_append, List.mem_append, flushed]
        exact or_congr Iff.rfl later.symm

variable {pieces : List (Char ⊕ Text)} {first second : Text → Text} {name : Text}

theorem fill_congr (same : ∀ name, Sum.inr name ∈ pieces → first name = second name) :
    fill first pieces = fill second pieces := by
  refine List.flatMap_congr fun piece inside => ?_
  cases piece with
  | inl c => rfl
  | inr name => exact same name inside

theorem fill_length_le
    (short : ∀ name, Sum.inr name ∈ pieces → (first name).length ≤ (second name).length) :
    (fill first pieces).length ≤ (fill second pieces).length := by
  induction pieces with
  | nil => exact Nat.le_refl _
  | cons piece rest ih =>
      have later := ih fun name inside => short name (List.mem_cons_of_mem _ inside)
      have here : (Sum.elim (fun c => [c]) first piece).length ≤
          (Sum.elim (fun c => [c]) second piece).length := by
        cases piece with
        | inl c => exact Nat.le_refl _
        | inr name => exact short name List.mem_cons_self
      simp only [fill, List.flatMap_cons, List.length_append]
      exact Nat.add_le_add here later

theorem fill_length_lt
    (short : ∀ name, Sum.inr name ∈ pieces → (first name).length ≤ (second name).length)
    (inside : Sum.inr name ∈ pieces) (shorter : (first name).length < (second name).length) :
    (fill first pieces).length < (fill second pieces).length := by
  obtain ⟨before, after, rfl⟩ := List.append_of_mem inside
  have front := @fill_length_le before first second fun name inside =>
    short name (List.mem_append_left _ inside)
  have back := @fill_length_le after first second fun name inside =>
    short name (List.mem_append_right _ (List.mem_cons_of_mem _ inside))
  simp only [fill, List.flatMap_append, List.flatMap_cons, List.length_append, Sum.elim_inr] at *
  omega

/-- Texts of the same lengths in the same places are told apart. -/
theorem fill_injective
    (lengths : ∀ name, Sum.inr name ∈ pieces → (first name).length = (second name).length)
    (equal : fill first pieces = fill second pieces) (inside : Sum.inr name ∈ pieces) :
    first name = second name := by
  obtain ⟨before, after, rfl⟩ := List.append_of_mem inside
  have front : (fill first before).length = (fill second before).length := by
    have one := @fill_length_le before first second fun name inside =>
      Nat.le_of_eq (lengths name (List.mem_append_left _ inside))
    have two := @fill_length_le before second first fun name inside =>
      Nat.le_of_eq (lengths name (List.mem_append_left _ inside)).symm
    omega
  unfold fill at equal front
  rw [List.flatMap_append, List.flatMap_append, List.flatMap_cons, List.flatMap_cons] at equal
  have rest := (List.append_inj equal front).2
  exact (List.append_inj rest (lengths name inside)).1

/-- Where one name at most changes, it shows. -/
theorem fill_shows (others : ∀ other, Sum.inr other ∈ pieces → other = name ∨
      first other = second other) (equal : fill first pieces = fill second pieces)
    {other : Text} (inside : Sum.inr other ∈ pieces) : first other = second other := by
  rcases others other inside with rfl | same
  · refine fill_injective (fun name listed => ?_) equal inside
    rcases others name listed with rfl | same
    · have longest := congrArg List.length equal
      rcases Nat.lt_trichotomy (first name).length (second name).length with less | even | more
      · refine absurd longest (Nat.ne_of_lt (fill_length_lt (fun name known => ?_) listed less))
        rcases others name known with rfl | same
        · exact Nat.le_of_lt less
        · exact Nat.le_of_eq (congrArg List.length same)
      · exact even
      · refine absurd longest.symm (Nat.ne_of_lt (fill_length_lt (fun name known => ?_) listed more))
        rcases others name known with rfl | same
        · exact Nat.le_of_lt more
        · exact Nat.le_of_eq (congrArg List.length same).symm
    · exact congrArg List.length same
  · exact same

end Fill

theorem substituteText_eq_fill (text : Text) (defines : DefineMap) :
    substituteText text defines = fill (standsFor defines) (piecesFrom [] text) := by
  rw [substituteText_eq]
  exact replaceFrom_eq_fill defines [] text

theorem substituteText_congr {first second : DefineMap} {text : Text}
    (same : ∀ name ∈ namesIn text, standsFor first name = standsFor second name) :
    substituteText text first = substituteText text second := by
  rw [substituteText_eq_fill, substituteText_eq_fill]
  exact fill_congr fun name inside => same name (mem_namesFrom.mpr inside)

/-- Replacing comes through a character that no identifier has. -/
theorem replaceFrom_append (lookup : Text → Option Text) {c : Char}
    (apart : identifierChar c = false) (identifier word rest : Text) :
    replaceFrom lookup identifier (word ++ c :: rest) =
      replaceFrom lookup identifier word ++ c :: replaceFrom lookup [] rest := by
  induction word generalizing identifier with
  | nil =>
      have stops : ¬identifierChar c = true := by simp [apart]
      rw [List.nil_append, replaceFrom, replaceFrom, if_neg stops]
  | cons first word ih =>
      rw [List.cons_append, replaceFrom, replaceFrom]
      split
      · exact ih (identifier ++ [first])
      · rw [ih, List.append_assoc, List.cons_append]

theorem substituteText_call (word inner : Text) (defines : DefineMap) :
    substituteText (word ++ '(' :: (inner ++ [')'])) defines =
      substituteText word defines ++ '(' :: (substituteText inner defines ++ [')']) := by
  have opens : identifierChar '(' = false := by decide
  have closes : identifierChar ')' = false := by decide
  rw [substituteText_eq, substituteText_eq, substituteText_eq]
  unfold replaceNames
  rw [replaceFrom_append _ opens, replaceFrom_append _ closes]
  rfl

/-- Whether a text in parentheses is a directive is told by what stands in front of it. -/
theorem parseDirective_call (word inner : Text) :
    (parseDirective (word ++ '(' :: (inner ++ [')']))).isSome =
      let name := trim ((word ++ ['(']).takeWhile (· != '('))
      !(name.isEmpty || name.any fun c => !identifierChar c) := by
  have front : (word ++ '(' :: (inner ++ [')'])).takeWhile (· != '(') =
      (word ++ ['(']).takeWhile (· != '(') := by
    rw [List.takeWhile_append, List.takeWhile_append]
    rfl
  have back : ∃ rest, (word ++ '(' :: (inner ++ [')'])).dropWhile (· != '(') = '(' :: rest ∧
      rest.getLast? = some ')' := by
    clear front
    induction word with
    | nil => exact ⟨inner ++ [')'], rfl, List.getLast?_concat⟩
    | cons c word ih =>
        by_cases opens : c = '('
        · subst opens
          refine ⟨word ++ '(' :: (inner ++ [')']), rfl, ?_⟩
          rw [← List.cons_append, ← List.append_assoc]
          exact List.getLast?_concat
        · rw [List.cons_append, List.dropWhile_cons_of_pos (by simpa using opens)]
          exact ih
  obtain ⟨rest, opened, closed⟩ := back
  unfold parseDirective
  rw [front, opened]
  dsimp only
  rw [if_neg (by simp [closed])]
  split
  · rename_i unnamed
    rw [unnamed]
    rfl
  · rename_i named
    rw [Bool.not_eq_true] at named
    rw [named]
    rfl

theorem exists_call {text : Text} (opens : '(' ∈ text) (closes : text.getLast? = some ')') :
    ∃ word inner, text = word ++ '(' :: (inner ++ [')']) ∧ text.takeWhile (· != '(') = word := by
  obtain ⟨word, rest, rfl, fresh⟩ := List.eq_append_cons_of_mem opens
  have front : (word ++ '(' :: rest).takeWhile (· != '(') = word := by
    have plain : ∀ c ∈ word, (c != '(') = true := fun c member =>
      bne_iff_ne.mpr fun same => fresh (same ▸ member)
    rw [List.takeWhile_append_of_pos plain, List.takeWhile_cons_of_neg (by simp), List.append_nil]
  cases rest using List.reverseRecOn with
  | nil =>
      rw [List.getLast?_concat] at closes
      contradiction
  | append_singleton inner last =>
      rw [← List.cons_append, ← List.append_assoc, List.getLast?_concat] at closes
      cases closes
      exact ⟨word, inner, rfl, front⟩

/-- Keeping the part that tells its kind, a line is handled by the pass that handled it. -/
theorem handledOnce_of_names {text : Text} {above final : DefineMap}
    (same : ∀ name ∈ namesIn (telling above text), standsFor final name = standsFor above name) :
    HandledOnce text above final := by
  have whole (told : telling above text = text) : HandledOnce text above final := by
    have equal : substituteText text final = substituteText text above :=
      substituteText_congr (told ▸ same)
    refine ⟨?_, fun _ => equal⟩
    rw [executes, laysOut, equal, Option.not_isNone]
  by_cases called : (executes above text && text.contains '(' && text.getLast? == some ')') = true
  · have told : telling above text = text.takeWhile (· != '(') := if_pos called
    rw [Bool.and_eq_true, Bool.and_eq_true] at called
    obtain ⟨⟨runs, opens⟩, closes⟩ := called
    obtain ⟨word, inner, rfl, front⟩ := exists_call (List.contains_iff_mem.mp opens)
      (beq_iff_eq.mp closes)
    have equal : substituteText word final = substituteText word above := by
      rw [told, front] at same
      exact substituteText_congr same
    have stays : executes final (word ++ '(' :: (inner ++ [')'])) = true := by
      rw [executes, substituteText_call, parseDirective_call] at runs ⊢
      rw [equal]
      exact runs
    have skipped : laysOut final (word ++ '(' :: (inner ++ [')'])) = false := by
      rw [laysOut, ← Option.not_isSome, ← executes, stays]
      rfl
    refine ⟨?_, fun laid => ?_⟩
    · rw [runs, skipped]
      rfl
    · rw [skipped] at laid
      contradiction
  · exact whole (if_neg called)

theorem alike_of_names {text : Text} {above final : DefineMap}
    (same : ∀ name ∈ namesIn text, standsFor final name = standsFor above name) :
    TreatedAlike text above final := by
  have equal := substituteText_congr same
  refine ⟨equal, congrArg kindOf equal, ?_⟩
  rw [executes, laysOut, equal, Option.not_isNone]

/-- The first pass by the kind of the line. -/
theorem readLine_kindOf (env : Env) (execute : Bool) (line : Line) (s : Known) :
    readLine env execute line s =
      match kindOf (substituteText line.text s.defines) with
      | .directive directive =>
          (runDirective env execute line.number directive s).mapError (failAt line)
      | .label name => .ok { s with declaredLabels := s.declaredLabels ++ [name] }
      | .origin _ | .data _ | .instruction _ => .ok s := by
  unfold readLine kindOf
  dsimp only
  generalize substituteText line.text s.defines = expanded
  cases parseDirective expanded with
  | some directive =>
      dsimp only
      cases runDirective env execute line.number directive s <;> rfl
  | none =>
      dsimp only
      cases parseLabelDefinition expanded with
      | some name => rfl
      | none =>
          cases parseOriginExpression expanded with
          | some expression => rfl
          | none => cases parseData expanded <;> rfl

/-- The second pass steps over a line that the first one has carried out, and lays out any other
as the first one saw it. -/
theorem HandledOnce.layoutLine {line : Line} {above : DefineMap} {s : Section}
    (once : HandledOnce line.text above s.defines) (substitutions : DefineMap) (pass : Pass) :
    layoutLine s substitutions line pass =
      if executes above line.text then .ok pass
      else AutoAssembler.layoutLine { s with defines := above } substitutions line pass := by
  have handled := once.once
  cases laid : laysOut s.defines line.text with
  | false =>
      rw [laid, Bool.not_false] at handled
      rw [if_pos handled]
      unfold laysOut at laid
      unfold AutoAssembler.layoutLine
      rw [Option.isNone_eq_false_iff] at laid
      exact if_pos laid
  | true =>
      rw [laid, Bool.not_true] at handled
      rw [if_neg (Bool.eq_false_iff.mp handled)]
      unfold AutoAssembler.layoutLine
      rw [once.expanded laid]
      rfl

/-- A name that some defines keep stands for the same with them. -/
theorem standsFor_assignAll (later : List (Text × Text)) (above : DefineMap) (name : Text) :
    standsFor (assignAll caseLess later above) name = standsFor above name ↔
      KeepsName later above name := by
  unfold KeepsName standsFor
  rw [find_assignAll]
  cases find caseLess name later.reverse with
  | none => simp
  | some text => simp

section Steady

variable {text : Text} {later : List (Text × Text)} {above : DefineMap}

theorem Steady.names (steady : Steady text later above) :
    ∀ name ∈ namesIn text, standsFor (assignAll caseLess later above) name = standsFor above name :=
  fun name inside => (standsFor_assignAll later above name).mpr (steady name inside)

/-- Where one name at most changes, a line that becomes the same text keeps its names. -/
theorem steady_of_expanded (one : OneChanges text later above)
    (expanded : substituteText text (assignAll caseLess later above) = substituteText text above) :
    Steady text later above := by
  obtain ⟨name, others⟩ := one
  rw [substituteText_eq_fill, substituteText_eq_fill] at expanded
  intro other inside
  refine (standsFor_assignAll later above other).mp ?_
  refine @fill_shows _ _ _ name (fun other inside => ?_) expanded _ (mem_namesFrom.mp inside)
  exact (others other (mem_namesFrom.mpr inside)).imp_right (standsFor_assignAll later above other).mpr

theorem steadyLaid_of_once (one : OneChanges text later above)
    (once : HandledOnce text above (assignAll caseLess later above)) :
    SteadyLaid text later above := by
  intro laid
  have skipped : executes above text = false := by
    unfold laysOut at laid
    unfold executes
    rw [← Option.not_isNone, laid]
    rfl
  have handled := once.once
  rw [skipped, eq_comm, Bool.not_eq_false'] at handled
  exact steady_of_expanded one (once.expanded handled)

end Steady

/-- Every line with what is known above it and at the end is every line with the defines above it
and from it on. -/
theorem everyLine_iff {holds : Text → DefineMap → DefineMap → Prop} {env : Env} {execute : Bool}
    {lines : List Line} {start known : Known} (bare : start.defines = [])
    (ok : (readLines env execute lines start).2 = .ok known) :
    EveryLine holds env execute lines start known ↔
      EveryDefine (fun text later above => holds text above (assignAll caseLess later above))
        lines := by
  have local_iff (before after : List Line) (line : Line) (above : Known)
      (split : lines = before ++ line :: after)
      (reached : (readLines env execute before start).2 = .ok above) :
      let made := assignAll caseLess (definesOf [] before) []
      holds line.text above.defines known.defines ↔
        holds line.text made (assignAll caseLess (definesOf made (line :: after)) made) := by
    have top : above.defines = assignAll caseLess (definesOf [] before) [] := by
      rw [readLines_defines reached, bare]
    have whole : known.defines =
        assignAll caseLess (definesOf above.defines (line :: after)) above.defines := by
      rw [readLines_defines ok, bare, split, definesOf_append, top, assignAll_append]
    dsimp only
    rw [← top, whole]
  constructor
  · intro every before line after split
    obtain ⟨above, reached⟩ := readLines_before (split ▸ ok)
    exact (local_iff before after line above split reached).mp
      (every before line after split above reached)
  · intro every before line after split above reached
    exact (local_iff before after line above split reached).mpr (every before line after split)

theorem EveryDefine.imp {lines : List Line}
    {holds other : Text → List (Text × Text) → DefineMap → Prop} (every : EveryDefine holds lines)
    (implies : ∀ text later above, holds text later above → other text later above) :
    EveryDefine other lines :=
  fun before line after split => implies _ _ _ (every before line after split)

theorem EveryDefine.and {lines : List Line}
    {holds other : Text → List (Text × Text) → DefineMap → Prop} (every : EveryDefine holds lines)
    (also : EveryDefine other lines) :
    EveryDefine (fun text later above => holds text later above ∧ other text later above) lines :=
  fun before line after split => ⟨every before line after split, also before line after split⟩

/-- The passes treat every line of an accepted script alike where no define from a line on changes
what a name of the line stands for above it; and as far as they look at a line, where none does so
to the part that tells its kind. Where the defines from a line on change one of its names at most
they must not change that one, if the passes are to treat the line alike, or if it is laid out. -/
theorem passesAgree_of_steady {env : Env} {execute enableSection : Bool} {source : Text}
    {stored : SymbolMap} {world after : World} {compiled : Compiled}
    (compiles : compile env execute source enableSection stored world = (after, .ok compiled)) :
    let lines := sectionLines source enableSection
    let start : Known := { world, symbols := assignAll caseLess stored [] }
    ∃ known, readLines env execute lines start = (after, .ok known) ∧
      (EveryDefine Steady lines → EveryLine TreatedAlike env execute lines start known) ∧
      (EveryDefine SteadyKind lines → EveryLine HandledOnce env execute lines start known) ∧
      (EveryDefine OneChanges lines →
        (EveryLine TreatedAlike env execute lines start known → EveryDefine Steady lines) ∧
          (EveryLine HandledOnce env execute lines start known → EveryDefine SteadyLaid lines)) := by
  intro lines start
  obtain ⟨known, reads⟩ : ∃ known, readLines env execute lines start = (after, .ok known) := by
    cases compile_ok compiles with
    | inl nothing =>
        obtain ⟨empty, rfl, _⟩ := nothing
        have none : lines = [] := empty
        rw [none]
        exact ⟨start, rfl⟩
    | inr both =>
        obtain ⟨known, reads, _⟩ := both
        exact ⟨known, reads⟩
  have ok : (readLines env execute lines start).2 = .ok known := congrArg Prod.snd reads
  refine ⟨known, reads, fun steady => ?_, fun steady => ?_, fun one => ⟨fun alike => ?_,
    fun once => ?_⟩⟩
  · exact (everyLine_iff rfl ok).mpr (steady.imp fun _ _ _ steady => alike_of_names steady.names)
  · exact (everyLine_iff rfl ok).mpr
      (steady.imp fun _ _ _ steady => handledOnce_of_names (Steady.names steady))
  · exact (one.and ((everyLine_iff rfl ok).mp alike)).imp fun _ _ _ both =>
      steady_of_expanded both.1 both.2.expanded
  · exact (one.and ((everyLine_iff rfl ok).mp once)).imp fun _ _ _ both =>
      steadyLaid_of_once both.1 both.2

/-- A layout in which each define counts from its own line on. -/
def layoutInOrder (s : Section) (substitutions : DefineMap) :
    DefineMap → List Line → Pass → Except String Pass
  | _, [], pass => .ok pass
  | above, line :: rest, pass =>
      let laid :=
        if executes above line.text then .ok pass
        else layoutLine { s with defines := above } substitutions line pass
      match laid with
      | .error message => .error message
      | .ok pass => layoutInOrder s substitutions (definesBelow line above) rest pass

/-- Where every line is handled once, the layout with all defines is the layout in order. -/
theorem layoutLines_inOrder {s : Section} {lines : List Line} {above : DefineMap}
    (once : ∀ before line after, lines = before ++ line :: after →
      HandledOnce line.text (assignAll caseLess (definesOf above before) above) s.defines)
    (substitutions : DefineMap) (pass : Pass) :
    layoutLines s substitutions lines pass =
      layoutInOrder s substitutions above lines pass := by
  induction lines generalizing above pass with
  | nil => rfl
  | cons line rest ih =>
      have here : HandledOnce line.text above s.defines := once [] line rest rfl
      have later : ∀ before other after, rest = before ++ other :: after →
          HandledOnce other.text (assignAll caseLess (definesOf (definesBelow line above) before)
            (definesBelow line above)) s.defines := by
        intro before other after split
        rw [← definesOf_cons]
        exact once (line :: before) other after (congrArg (line :: ·) split)
      rw [layoutLines, layoutInOrder, here.layoutLine substitutions pass]
      generalize (if executes above line.text then Except.ok pass
        else layoutLine { s with defines := above } substitutions line pass) = laid
      cases laid with
      | error message => rfl
      | ok pass => exact ih later pass

/-- A define above its use. -/
def definedScript : Text := "define(x, nop)\n1000:\nx".toList

theorem definedScript_handledOnce :
    benchBlocks definedScript = [⟨0x1000, [0x90], false⟩] ∧
      ∃ known, (readLines bench true (sectionLines definedScript true)
          { world := bareWorld, symbols := [] }).2 = .ok known ∧
        EveryLine HandledOnce bench true (sectionLines definedScript true)
          { world := bareWorld, symbols := [] } known := by
  have blocks : benchBlocks definedScript = [⟨0x1000, [0x90], false⟩] := by decide
  have lines : sectionLines definedScript true =
      [⟨1, "define(x, nop)".toList⟩, ⟨2, "1000:".toList⟩, ⟨3, "x".toList⟩] := by decide
  have steady : EveryDefine SteadyKind (sectionLines definedScript true) := by
    rw [lines]
    intro before line after split
    rcases before with _ | ⟨_, _ | ⟨_, _ | ⟨_, before⟩⟩⟩
    · cases split
      unfold SteadyKind Steady KeepsName
      decide
    · cases split
      unfold SteadyKind Steady KeepsName
      decide
    · cases split
      unfold SteadyKind Steady KeepsName
      decide
    · simp at split
  refine ⟨blocks, ?_⟩
  cases compiles : compile bench true definedScript true [] bareWorld with
  | mk after outcome =>
      cases outcome with
      | error message =>
          rw [benchBlocks, compiles] at blocks
          contradiction
      | ok compiled =>
          obtain ⟨known, reads, _, once, _⟩ := passesAgree_of_steady compiles
          exact ⟨known, congrArg Prod.snd reads, once steady⟩

/-- An instruction that a define below it makes look like a directive. -/
def droppedScript : Text := "1000:\nnop\ndefine(nop, skip())".toList

/-- The script compiles to nothing: neither pass handles the instruction. -/
theorem droppedScript_drops :
    (compile bench true droppedScript true [] bareWorld).2.toOption.map (·.result) = some {} ∧
      ¬∃ known, (readLines bench true (sectionLines droppedScript true)
          { world := bareWorld, symbols := [] }).2 = .ok known ∧
        EveryLine (fun text above final => executes above text = !laysOut final text) bench true
          (sectionLines droppedScript true) { world := bareWorld, symbols := [] } known := by
  have lines : sectionLines droppedScript true =
      [⟨1, "1000:".toList⟩] ++ ⟨2, "nop".toList⟩ :: [⟨3, "define(nop, skip())".toList⟩] := by decide
  refine ⟨by decide, ?_⟩
  intro ⟨known, ok, once⟩
  obtain ⟨above, reached⟩ := readLines_before (lines ▸ ok)
  have top : above.defines = [] := by
    rw [readLines_defines reached]
    decide
  have whole : known.defines = [("nop".toList, "skip()".toList)] := by
    rw [readLines_defines ok]
    decide
  have handled := once _ _ _ lines above reached
  rw [top, whole] at handled
  revert handled
  decide

end PointerLab.AutoAssembler
