import PointerLab.ProjectStoreText
import PointerLab.SymbolTableNames

set_option autoImplicit false

/- The name `describe` gives an address, typed back in: which address `resolve` reads out of
it. -/
namespace PointerLab.SymbolTable

open Domain Digits AutoAssembler Runs

/-- The addresses that the calls hand in and get back are of `uintptr_t`. -/
def Resolver.Fits (resolver : Resolver) : Prop :=
  ∀ view moduleName exportName address,
    resolver.exports view moduleName exportName = .ok address → address < addressSpace

def ModulesFit (view : TargetView) : Prop := ∀ module ∈ view.modules, module.base < addressSpace

def Edit.Fits : Edit → Prop
  | .defineExpression view _ _ => ModulesFit view
  | .define _ address => address < addressSpace
  | _ => True

/-- The ways in which a term names an address of the target, in the order they are tried. -/
inductive StandsFor (resolver : Resolver) (view : TargetView) (table : List Symbol)
    (term : Text) : Nat → Prop
  | symbol (symbol : Symbol) (first : find term table = some symbol) :
      StandsFor resolver view table term symbol.address
  | module (unnamed : find term table = none)
      (loaded : moduleBase view (resolver.widen term) ≠ 0) :
      StandsFor resolver view table term (moduleBase view (resolver.widen term))
  | exported (moduleName exportName : Text) (address : Nat) (unnamed : find term table = none)
      (whole : moduleBase view (resolver.widen term) = 0)
      (parts : splitExport term = some (moduleName, exportName))
      (loaded : moduleBase view (resolver.widen moduleName) ≠ 0)
      (found : resolver.exports view (resolver.widen moduleName) exportName = .ok address) :
      StandsFor resolver view table term address
  | number (address : Nat) (unnamed : find term table = none)
      (whole : moduleBase view (resolver.widen term) = 0)
      (parts : ∀ moduleName exportName, splitExport term = some (moduleName, exportName) →
        moduleBase view (resolver.widen moduleName) = 0)
      (parses : parseAddress term = some address) :
      StandsFor resolver view table term address

/-- What the terms of an expression add to its base, if all of them are numbers. -/
def total : List Term → Option Int
  | [] => some 0
  | term :: rest =>
      match parseAddress term.text, total rest with
      | some offset, some sum => some ((if term.subtract then -(offset : Int) else offset) + sum)
      | _, _ => none

/-- The name has no sign in it, and what is left without blanks stands for the base. -/
def Plain (resolver : Resolver) (view : TargetView) (table : List Symbol) (name : Text)
    (base : Nat) : Prop :=
  name.any isSign = false ∧ trim name ≠ [] ∧ StandsFor resolver view table (trim name) base

/-- The name is cut up at the signs in it, and the parts happen to add up to the base. -/
def Coincides (resolver : Resolver) (view : TargetView) (table : List Symbol) (name : Text)
    (base : Nat) : Prop :=
  name.any isSign = true ∧ ∃ head terms start sum, split name = some (head, terms) ∧
    StandsFor resolver view table head start ∧ total terms = some sum ∧
    (start + sum) % addressSpace = base

/-- What passes for digits is below the end of the address space. -/
theorem parseAddress_lt {text : Text} {address : Nat} (parsed : parseAddress text = some address) :
    address < addressSpace := by
  have below {digits : Text}
      (passed : (if digits.isEmpty || digits.any (fun c => !isHexDigit c) || 16 < digits.length then
        none else some (number 16 digits)) = some address) : address < addressSpace := by
    split at passed
    · contradiction
    · rename_i valid
      cases passed
      simp only [Bool.or_eq_true, decide_eq_true_eq, not_or, Nat.not_lt, List.any_eq_true,
        Bool.not_eq_true', not_exists, not_and, Bool.not_eq_false] at valid
      calc number 16 digits < 16 ^ digits.length := number_lt valid.1.2
        _ ≤ 16 ^ 16 := Nat.pow_le_pow_right (by decide) valid.2
        _ = addressSpace := by decide
  unfold parseAddress at parsed
  dsimp only at parsed
  split at parsed
  · exact below parsed
  · exact below parsed
  · exact below parsed

theorem toUpper_digit {value : Nat} {c : Char} (inside : c ∈ (Nat.toDigits 16 value).map Char.toUpper) :
    ∃ digit < 16, c = upperDigit digit := by
  obtain ⟨lowerCase, written, rfl⟩ := List.mem_map.mp inside
  obtain ⟨digit, small, rfl⟩ := mem_toDigits (by decide) written
  exact ⟨digit, small, rfl⟩

theorem number_toUpper (value : Nat) :
    number 16 ((Nat.toDigits 16 value).map Char.toUpper) = value := by
  have same : number 16 ((Nat.toDigits 16 value).map Char.toUpper) =
      number 16 (Nat.toDigits 16 value) := by
    unfold number
    rw [List.foldl_map]
    apply List.foldl_ext
    intro number c written
    obtain ⟨digit, small, rfl⟩ := mem_toDigits (by decide) written
    rw [(digitChar_facts digit small).1]
    exact congrArg _ (ProjectStore.upperDigit_facts digit small).1
  rw [same, number_toDigits (by decide) (by decide)]

theorem upperDigit_plain : ∀ digit < 16,
    isSign (upperDigit digit) = false ∧ isSpace (upperDigit digit) = false ∧
      (upperDigit digit == ' ' || upperDigit digit == '\t') = false := by
  decide

theorem parseAddress_toHex {value : Nat} (fits : value < addressSpace) :
    parseAddress (toHex value) = some value := by
  have unspaced : (toHex value).filter (fun c => !isSpace c) = toHex value := by
    refine List.filter_eq_self.mpr fun c inside => ?_
    simp only [toHex, List.mem_cons] at inside
    rcases inside with rfl | rfl | inside
    · decide
    · decide
    · obtain ⟨digit, small, rfl⟩ := toUpper_digit inside
      simp [(upperDigit_plain digit small).2.1]
  have digits : ∀ c ∈ (Nat.toDigits 16 value).map Char.toUpper, isHexDigit c = true := by
    intro c inside
    obtain ⟨digit, small, rfl⟩ := toUpper_digit inside
    exact (ProjectStore.upperDigit_facts digit small).2
  have short : ((Nat.toDigits 16 value).map Char.toUpper).length ≤ 16 := by
    rw [List.length_map]
    apply (Nat.length_toDigits_le_iff (by decide) (by decide)).mpr
    exact fits
  have nonempty : ((Nat.toDigits 16 value).map Char.toUpper).isEmpty = false := by
    rw [List.isEmpty_map]
    exact List.isEmpty_eq_false_iff.mpr Nat.toDigits_ne_nil
  have valid : ((Nat.toDigits 16 value).map Char.toUpper).any (fun c => !isHexDigit c) = false := by
    rw [List.any_eq_false]
    intro c inside
    simp [digits c inside]
  unfold parseAddress
  dsimp only
  rw [unspaced]
  simp only [toHex]
  rw [nonempty, valid, decide_eq_false (Nat.not_lt.mpr short), number_toUpper]
  rfl

theorem toHex_facts (value : Nat) :
    ∀ c ∈ toHex value, isSign c = false ∧ (c == ' ' || c == '\t') = false := by
  intro c inside
  simp only [toHex, List.mem_cons] at inside
  rcases inside with rfl | rfl | inside
  · decide
  · decide
  · obtain ⟨digit, small, rfl⟩ := toUpper_digit inside
    exact ⟨(upperDigit_plain digit small).1, (upperDigit_plain digit small).2.2⟩

theorem trim_toHex (value : Nat) : trim (toHex value) = toHex value := by
  apply trimmed_of_flush
  constructor
  · intro c first
    exact (toHex_facts value c (List.mem_of_mem_head? first)).2
  · intro c last
    exact (toHex_facts value c (List.mem_of_getLast? last)).2

/-- The offsets are summed up as signed numbers, and the sum wraps. -/
theorem addTerms_ok_iff {start : Nat} (fits : start < addressSpace) (terms : List Term)
    {address : Nat} :
    addTerms start terms = .ok address ↔
      ∃ sum, total terms = some sum ∧ (start + sum) % addressSpace = address := by
  induction terms generalizing start with
  | nil =>
      simp only [addTerms, total, Except.ok.injEq, Option.some.injEq, exists_eq_left',
        addressSpace] at fits ⊢
      omega
  | cons term rest ih =>
      rw [addTerms, total]
      cases parsed : parseAddress term.text with
      | none => simp [fail]
      | some offset =>
          have small := parseAddress_lt parsed
          dsimp only
          rw [ih (Nat.mod_lt _ (by decide))]
          cases total rest with
          | none => simp
          | some sum =>
              simp only [Option.some.injEq, exists_eq_left']
              unfold addressSpace at fits small ⊢
              cases term.subtract <;> simp only [Bool.false_eq_true, if_true, if_false] <;> omega

theorem total_append (terms : List Term) {offset : Nat} (fits : offset < addressSpace) :
    total (terms ++ [⟨false, toHex offset⟩]) = (total terms).map (· + (offset : Int)) := by
  induction terms with
  | nil => simp [total, parseAddress_toHex fits]
  | cons term rest ih =>
      rw [List.cons_append, total, total, ih]
      cases parseAddress term.text with
      | none => rfl
      | some first =>
          cases total rest with
          | none => rfl
          | some sum => simp only [Option.map_some, Int.add_assoc]

theorem termsFrom_unsigned (subtract : Bool) (current : Text) {text : Text}
    (unsigned : ∀ c ∈ text, isSign c = false) :
    termsFrom subtract current text =
      if (trim (current ++ text)).isEmpty then none
      else some [⟨subtract, trim (current ++ text)⟩] := by
  induction text generalizing current with
  | nil => rw [termsFrom, List.append_nil]
  | cons c rest ih =>
      rw [termsFrom, if_neg (by simp [unsigned c List.mem_cons_self]),
        ih _ fun c inRest => unsigned c (List.mem_cons_of_mem _ inRest), List.append_assoc,
        List.singleton_append]

theorem termsFrom_toHex (offset : Nat) :
    termsFrom false [] (toHex offset) = some [⟨false, toHex offset⟩] := by
  rw [termsFrom_unsigned false [] fun c inside => (toHex_facts offset c inside).1, List.nil_append,
    trim_toHex]
  rfl

theorem termsFrom_append (subtract : Bool) (current rest : Text) (offset : Nat) :
    termsFrom subtract current (rest ++ '+' :: toHex offset) =
      (termsFrom subtract current rest).map (· ++ [⟨false, toHex offset⟩]) := by
  induction rest generalizing subtract current with
  | nil =>
      rw [List.nil_append, termsFrom, termsFrom, if_pos (by decide),
        show ('+' == '-') = false from rfl, termsFrom_toHex]
      split <;> rfl
  | cons c rest ih =>
      rw [List.cons_append, termsFrom, termsFrom]
      split
      · split
        · rfl
        · rw [ih, Option.map_map, Option.map_map]
          rfl
      · exact ih subtract (current ++ [c])

/-- A text without a sign in it is a head and nothing else. -/
theorem split_unsigned {text : Text} (unsigned : text.any isSign = false) :
    split text = if (trim text).isEmpty then none else some (trim text, []) := by
  have clear : ∀ c ∈ text, (fun c => !isSign c) c = true := by simpa using unsigned
  have whole : text.takeWhile (fun c => !isSign c) = text := List.takeWhile_eq_self_iff.mpr clear
  have none_ : text.dropWhile (fun c => !isSign c) = [] := List.dropWhile_eq_nil_iff.mpr clear
  simp only [split, whole, none_]

/-- An offset written behind a name is one more term, however the name itself is cut up. -/
theorem split_append (name : Text) (offset : Nat) :
    split (name ++ '+' :: toHex offset) =
      (split name).map fun parts => (parts.1, parts.2 ++ [⟨false, toHex offset⟩]) := by
  have plus : isSign '+' = true := rfl
  by_cases unsigned : name.any isSign = false
  · have clear : ∀ c ∈ name, (fun c => !isSign c) c = true := by simpa using unsigned
    rw [split_unsigned unsigned]
    simp only [split, List.takeWhile_append_of_pos clear, List.dropWhile_append_of_pos clear,
      List.takeWhile_cons, List.dropWhile_cons, plus, Bool.not_true, Bool.false_eq_true, if_false,
      List.append_nil]
    split
    · rfl
    · rw [show ('+' == '-') = false from rfl, termsFrom_toHex]
      rfl
  · have some_ : name.dropWhile (fun c => !isSign c) ≠ [] := by
      intro none_
      apply unsigned
      simpa using List.dropWhile_eq_nil_iff.mp none_
    have front : (name ++ '+' :: toHex offset).takeWhile (fun c => !isSign c) =
        name.takeWhile fun c => !isSign c := by
      rw [List.takeWhile_append, if_neg]
      intro whole
      apply some_
      have parts := congrArg List.length
        (List.takeWhile_append_dropWhile (p := fun c => !isSign c) (l := name))
      rw [List.length_append, whole] at parts
      exact List.eq_nil_of_length_eq_zero (by omega)
    have back : (name ++ '+' :: toHex offset).dropWhile (fun c => !isSign c) =
        (name.dropWhile fun c => !isSign c) ++ '+' :: toHex offset := by
      rw [List.dropWhile_append, if_neg (by simpa using some_)]
    simp only [split, front, back]
    split
    · rfl
    · cases signs : name.dropWhile fun c => !isSign c with
      | nil => exact absurd signs some_
      | cons sign rest =>
          simp only [List.cons_append, termsFrom_append, Option.map_map]
          rfl

theorem bareAddress_ok_iff {term : Text} {otherwise : String} {address : Nat} :
    bareAddress term otherwise = .ok address ↔ parseAddress term = some address := by
  unfold bareAddress
  cases parseAddress term <;> simp [fail]

section Attached

variable {resolver : Resolver} {view : TargetView} {table : List Symbol} {term : Text}
  {address : Nat} (attached : view.attached = true)
include attached

/-- What a term resolves to is what it stands for. -/
theorem standsFor_of_resolveTerm (resolved : resolveTerm resolver view table term = .ok address) :
    StandsFor resolver view table term address := by
  unfold resolveTerm at resolved
  split at resolved
  · rename_i symbol first
    cases resolved
    exact .symbol symbol first
  · rename_i unnamed
    simp only [attached, Bool.not_true, Bool.false_eq_true, if_false, bne_iff_ne] at resolved
    split at resolved
    · rename_i loaded
      cases resolved
      exact .module unnamed loaded
    · rename_i whole
      have whole : moduleBase view (resolver.widen term) = 0 := by omega
      split at resolved
      · rename_i parts
        refine .number address unnamed whole ?_ (bareAddress_ok_iff.mp resolved)
        intro moduleName exportName same
        rw [parts] at same
        contradiction
      · rename_i moduleName exportName parts
        split at resolved
        · rename_i loaded
          split at resolved
          · rename_i found
            cases resolved
            exact .exported moduleName exportName address unnamed whole parts loaded found
          · contradiction
        · rename_i missing
          refine .number address unnamed whole ?_ (bareAddress_ok_iff.mp resolved)
          intro otherModule otherExport same
          obtain ⟨rfl, rfl⟩ := Prod.mk.inj (Option.some.inj (parts.symm.trans same))
          omega

theorem StandsFor.resolveTerm (stands : StandsFor resolver view table term address) :
    SymbolTable.resolveTerm resolver view table term = .ok address := by
  unfold SymbolTable.resolveTerm
  cases stands with
  | symbol symbol first =>
      unfold find at first
      rw [first]
  | module unnamed loaded =>
      unfold find at unnamed
      simp [unnamed, attached, loaded]
  | exported moduleName exportName _ unnamed whole parts loaded found =>
      unfold find at unnamed
      simp [unnamed, attached, whole, parts, loaded, found]
  | number _ unnamed whole parts parses =>
      unfold find at unnamed
      simp only [unnamed, attached, whole, Bool.not_true, Bool.false_eq_true, if_false,
        bne_self_eq_false]
      cases cut : splitExport term with
      | none => exact bareAddress_ok_iff.mpr parses
      | some both =>
          dsimp only
          rw [if_neg (by simp [parts both.1 both.2 cut])]
          exact bareAddress_ok_iff.mpr parses

theorem resolve_ok_iff {text : Text} :
    resolve resolver view table text = .ok address ↔
      ∃ head terms start, split text = some (head, terms) ∧
        StandsFor resolver view table head start ∧ addTerms start terms = .ok address := by
  unfold resolve
  cases cut : split text with
  | none => simp [fail]
  | some parts =>
      obtain ⟨head, terms⟩ := parts
      dsimp only
      cases resolved : SymbolTable.resolveTerm resolver view table head with
      | error failure =>
          refine iff_of_false (fun same => nomatch same) ?_
          rintro ⟨_, _, start, same, stands, _⟩
          obtain ⟨rfl, rfl⟩ := Prod.mk.inj (Option.some.inj same)
          rw [stands.resolveTerm attached] at resolved
          contradiction
      | ok base =>
          have stands := standsFor_of_resolveTerm attached resolved
          constructor
          · exact fun added => ⟨head, terms, base, rfl, stands, added⟩
          · rintro ⟨_, _, start, same, others, added⟩
            obtain ⟨rfl, rfl⟩ := Prod.mk.inj (Option.some.inj same)
            rw [others.resolveTerm attached] at resolved
            cases resolved
            exact added

end Attached

section Fits

variable {resolver : Resolver} (exportsFit : resolver.Fits) {view : TargetView}
include exportsFit

theorem resolveTerm_lt (modulesFit : ModulesFit view) {table : List Symbol}
    (tableFits : ∀ symbol ∈ table, symbol.address < addressSpace) {term : Text} {address : Nat}
    (resolved : resolveTerm resolver view table term = .ok address) : address < addressSpace := by
  have number {otherwise : String} (read : bareAddress term otherwise = .ok address) :
      address < addressSpace :=
    parseAddress_lt (bareAddress_ok_iff.mp read)
  have based (name : WideText) : moduleBase view name < addressSpace := by
    unfold moduleBase
    split
    · decide
    · rename_i found
      exact modulesFit _ (List.mem_of_find?_eq_some found)
  unfold resolveTerm at resolved
  split at resolved
  · rename_i symbol found
    cases resolved
    exact tableFits symbol (List.mem_of_find?_eq_some found)
  · dsimp only at resolved
    split at resolved
    · exact number resolved
    · split at resolved
      · cases resolved
        exact based _
      · split at resolved
        · exact number resolved
        · split at resolved
          · split at resolved
            · rename_i found
              cases resolved
              exact exportsFit _ _ _ _ found
            · contradiction
          · exact number resolved

theorem resolve_lt (modulesFit : ModulesFit view) {table : List Symbol}
    (tableFits : ∀ symbol ∈ table, symbol.address < addressSpace) {text : Text} {address : Nat}
    (resolved : resolve resolver view table text = .ok address) : address < addressSpace := by
  unfold resolve at resolved
  split at resolved
  · contradiction
  · rename_i head terms _
    split at resolved
    · contradiction
    · rename_i start found
      have fits := resolveTerm_lt exportsFit modulesFit tableFits found
      obtain ⟨sum, _, wrapped⟩ := (addTerms_ok_iff fits terms).mp resolved
      unfold addressSpace at wrapped ⊢
      omega

omit exportsFit in
theorem mem_setExpression {name : Text} {address : Nat} {expression : Text} {table : List Symbol}
    {symbol : Symbol} (inside : symbol ∈ setExpression name address expression table) :
    symbol.address = address ∨ symbol ∈ table := by
  induction table with
  | nil => exact .inl (List.mem_singleton.mp inside ▸ rfl)
  | cons first rest ih =>
      rw [setExpression] at inside
      split at inside
      · cases List.mem_cons.mp inside with
        | inl same => exact .inl (same ▸ rfl)
        | inr inRest => exact .inr (List.mem_cons_of_mem _ inRest)
      · cases List.mem_cons.mp inside with
        | inl same => exact .inr (same ▸ List.mem_cons_self)
        | inr inRest => exact (ih inRest).imp_right (List.mem_cons_of_mem _)

theorem edit_fits {table : List Symbol}
    (tableFits : ∀ symbol ∈ table, symbol.address < addressSpace) {call : Edit} (fits : call.Fits) :
    ∀ symbol ∈ edit resolver table call, symbol.address < addressSpace := by
  intro symbol inside
  cases call with
  | defineExpression view name expression =>
      rw [edit] at inside
      cases defineExpression_cases resolver view name expression table with
      | inl refused =>
          obtain ⟨failure, same⟩ := refused
          rw [same] at inside
          exact tableFits symbol inside
      | inr accepted =>
          obtain ⟨address, resolved, _, set⟩ := accepted
          rw [set] at inside
          cases mem_setExpression inside with
          | inl same => exact same ▸ resolve_lt exportsFit fits tableFits resolved
          | inr inTable => exact tableFits symbol inTable
  | define name address =>
      rw [edit] at inside
      cases define_cases name address table with
      | inl refused =>
          obtain ⟨failure, same⟩ := refused
          rw [same] at inside
          exact tableFits symbol inside
      | inr accepted =>
          rw [accepted.2] at inside
          cases mem_setExpression inside with
          | inl same => exact same ▸ fits
          | inr inTable => exact tableFits symbol inTable
  | undefine name => exact tableFits symbol (List.mem_of_mem_filter inside)
  | clear => exact absurd inside List.not_mem_nil

theorem built_fits {edits : List Edit} (fits : ∀ call ∈ edits, call.Fits) :
    ∀ symbol ∈ built resolver edits, symbol.address < addressSpace := by
  have later : ∀ table : List Symbol, (∀ symbol ∈ table, symbol.address < addressSpace) →
      ∀ symbol ∈ run (edit resolver) table edits, symbol.address < addressSpace := by
    induction edits with
    | nil => exact fun _ tableFits => tableFits
    | cons call rest ih =>
        intro table tableFits
        apply ih fun call inRest => fits call (List.mem_cons_of_mem _ inRest)
        exact edit_fits exportsFit tableFits (fits call List.mem_cons_self)
  exact later [] fun _ inside => nomatch inside

end Fits

theorem Named.resolves {name : Text} (named : Named name) : split name = some (name, []) := by
  rw [split_unsigned named.unsigned, named.flush, List.isEmpty_eq_false_iff.mpr named.nonempty]
  rfl

/-- A symbol resolves by its own name, attached or not. -/
theorem Sound.resolve {table : List Symbol} (sound : Sound table) {symbol : Symbol}
    (inside : symbol ∈ table) (resolver : Resolver) (view : TargetView) :
    SymbolTable.resolve resolver view table symbol.name = .ok symbol.address := by
  have first := sound.find inside rfl
  unfold SymbolTable.find at first
  rw [SymbolTable.resolve, (sound.named symbol inside).resolves]
  dsimp only
  rw [resolveTerm, first]
  rfl

/-- A module and an offset are read back as the address when the module's name adds up to its
base. -/
theorem resolve_moduleOffset {resolver : Resolver} {view : TargetView} {table : List Symbol}
    (attached : view.attached = true)
    (fits : ∀ term start, StandsFor resolver view table term start → start < addressSpace)
    (narrow : WideText → Text) {module : ModuleInfo} {address : Nat} (above : module.base ≤ address)
    (mapped : address < addressSpace) :
    resolve resolver view table (moduleOffset narrow module address) = .ok address ↔
      ∃ head terms start sum, split (narrow module.name) = some (head, terms) ∧
        StandsFor resolver view table head start ∧ total terms = some sum ∧
        (start + sum) % addressSpace = module.base := by
  rw [resolve_ok_iff attached, moduleOffset]
  by_cases atBase : address - module.base = 0
  · have same : module.base = address := by omega
    simp only [atBase, if_true, List.append_nil]
    rw [same]
    constructor
    · rintro ⟨head, terms, start, cut, stands, added⟩
      obtain ⟨sum, summed, wrapped⟩ := (addTerms_ok_iff (fits head start stands) terms).mp added
      exact ⟨head, terms, start, sum, cut, stands, summed, wrapped⟩
    · rintro ⟨head, terms, start, sum, cut, stands, summed, wrapped⟩
      have added := (addTerms_ok_iff (fits head start stands) terms).mpr ⟨sum, summed, wrapped⟩
      exact ⟨head, terms, start, cut, stands, added⟩
  · have small : address - module.base < addressSpace := by omega
    simp only [atBase, if_false, split_append, Option.map_eq_some_iff, Prod.exists]
    constructor
    · rintro ⟨_, _, start, ⟨head, terms, cut, both⟩, stands, added⟩
      obtain ⟨rfl, rfl⟩ := Prod.mk.inj both
      obtain ⟨sum, summed, wrapped⟩ := (addTerms_ok_iff (fits head start stands) _).mp added
      rw [total_append terms small, Option.map_eq_some_iff] at summed
      obtain ⟨front, summed, rfl⟩ := summed
      refine ⟨head, terms, start, front, cut, stands, summed, ?_⟩
      unfold addressSpace at wrapped mapped ⊢
      omega
    · rintro ⟨head, terms, start, sum, cut, stands, summed, wrapped⟩
      refine ⟨head, _, start, ⟨head, terms, cut, rfl⟩, stands, ?_⟩
      apply (addTerms_ok_iff (fits head start stands) _).mpr
      rw [total_append terms small, summed]
      refine ⟨sum + ↑(address - module.base), rfl, ?_⟩
      unfold addressSpace at wrapped mapped ⊢
      omega

/-- A name adds up to a base as it stands, or in the pieces it is cut into. -/
theorem adds_up_iff {resolver : Resolver} {view : TargetView} {table : List Symbol} (name : Text)
    (fits : ∀ start, StandsFor resolver view table (trim name) start → start < addressSpace)
    (base : Nat) :
    (∃ head terms start sum, split name = some (head, terms) ∧
        StandsFor resolver view table head start ∧ total terms = some sum ∧
        (start + sum) % addressSpace = base) ↔
      Plain resolver view table name base ∨ Coincides resolver view table name base := by
  cases signed : name.any isSign with
  | true => simp [Plain, Coincides, signed]
  | false =>
      simp only [Plain, Coincides, signed, split_unsigned signed, true_and, Bool.false_eq_true,
        false_and, or_false]
      constructor
      · rintro ⟨head, terms, start, sum, same, stands, summed, wrapped⟩
        split at same
        · contradiction
        · rename_i some_
          cases same
          cases summed
          have small := fits start stands
          have here : start = base := by
            unfold addressSpace at wrapped small
            omega
          exact ⟨by simpa using some_, here ▸ stands⟩
      · rintro ⟨some_, stands⟩
        have small := fits base stands
        refine ⟨trim name, [], base, 0, ?_, stands, rfl, ?_⟩
        · rw [if_neg (by simpa using some_)]
        · unfold addressSpace at small ⊢
          omega

/-- The name of an address, typed back in, resolves to the address exactly when a symbol has
the address, or the name of its module stands for the base of the module: as it is, or by a
coincidence of the pieces it is cut into at its signs. -/
theorem resolve_describe_iff {resolver : Resolver} (exportsFit : resolver.Fits)
    (narrow : WideText → Text) {edits : List Edit} (editsFit : ∀ call ∈ edits, call.Fits)
    {view : TargetView} (modulesFit : ModulesFit view) {address : Nat}
    (mapped : address < addressSpace)
    (described : describe narrow view (built resolver edits) address ≠ []) :
    resolve resolver view (built resolver edits)
        (describe narrow view (built resolver edits) address) = .ok address ↔
      (∃ symbol ∈ built resolver edits, symbol.address = address) ∨
        ∃ module, moduleAt view address = some module ∧
          (Plain resolver view (built resolver edits) (narrow module.name) module.base ∨
            Coincides resolver view (built resolver edits) (narrow module.name) module.base) := by
  have sound := built_sound resolver edits
  have tableFits := built_fits exportsFit editsFit
  generalize built resolver edits = table at *
  cases named : table.find? fun symbol => symbol.address == address with
  | some symbol =>
      have inside := List.mem_of_find?_eq_some named
      have here : symbol.address = address := by simpa using List.find?_some named
      have text : describe narrow view table address = symbol.name := by simp only [describe, named]
      rw [text, sound.resolve inside resolver view, here]
      exact iff_of_true rfl (.inl ⟨symbol, inside, here⟩)
  | none =>
      have unnamed : ¬∃ symbol ∈ table, symbol.address = address := by
        rintro ⟨symbol, inside, here⟩
        exact List.find?_eq_none.mp named symbol inside (by simpa using here)
      cases located : moduleAt view address with
      | none => simp [describe, named, located] at described
      | some module =>
          have text : describe narrow view table address = moduleOffset narrow module address := by
            simp only [describe, named, located]
          have attached : view.attached = true ∧ inModule address module = true := by
            unfold moduleAt at located
            split at located
            · contradiction
            · rename_i usable
              simp only [Bool.or_eq_true, not_or, Bool.not_eq_true', Bool.not_eq_false] at usable
              exact ⟨usable.1, List.find?_some located⟩
          have above : module.base ≤ address := by
            have inside := attached.2
            simp only [inModule, Bool.and_eq_true, decide_eq_true_eq] at inside
            exact inside.1
          have fits : ∀ term start, StandsFor resolver view table term start →
              start < addressSpace := fun term start stands =>
            resolveTerm_lt exportsFit modulesFit tableFits
              (stands.resolveTerm attached.1)
          rw [text, resolve_moduleOffset attached.1 fits narrow above mapped,
            adds_up_iff _ (fits _)]
          simp only [unnamed, false_or, Option.some.injEq, exists_eq_left']

/-- The conversions of the system on ASCII, and no exports. -/
def asciiResolver : Resolver := ⟨wide ∘ String.ofList, fun _ _ _ => fail "no exports"⟩

def asciiNarrow (text : WideText) : Text := text.map fun unit => Char.ofNat unit.toNat

theorem asciiResolver_fits : asciiResolver.Fits := fun _ _ _ _ found => nomatch found

def oneModule (name : String) : TargetView where
  modules := [{ base := 0x140000000, size := 0x1000, name := wide name }]
  memory := fun _ => none

theorem oneModule_fits (name : String) : ModulesFit (oneModule name) := by
  intro module inside
  rw [List.mem_singleton.mp inside]
  show 0x140000000 < addressSpace
  decide

/-- A symbol elsewhere, and an address inside a module with an ordinary name. -/
theorem resolve_describe_ordinary :
    describe asciiNarrow (oneModule "game.exe")
        (built asciiResolver [.define "hook".toList 0x5000]) 0x140000010 =
      "game.exe+0x10".toList ∧
    resolve asciiResolver (oneModule "game.exe")
        (built asciiResolver [.define "hook".toList 0x5000])
        (describe asciiNarrow (oneModule "game.exe")
          (built asciiResolver [.define "hook".toList 0x5000]) 0x140000010) =
      .ok 0x140000010 := by
  have text : describe asciiNarrow (oneModule "game.exe")
      (built asciiResolver [.define "hook".toList 0x5000]) 0x140000010 =
        "game.exe+0x10".toList := by
    decide +kernel
  have editsFit : ∀ call ∈ [Edit.define "hook".toList 0x5000], call.Fits := by
    intro call inside
    rw [List.mem_singleton.mp inside]
    show 0x5000 < addressSpace
    decide
  refine ⟨text, ?_⟩
  apply (resolve_describe_iff asciiResolver_fits asciiNarrow editsFit (oneModule_fits "game.exe")
    (by decide) (by rw [text]; decide)).mpr
  refine .inr ⟨_, rfl, .inl ⟨by decide, by decide, ?_⟩⟩
  exact .module (by decide +kernel) (by decide +kernel)

/-- The module's name is taken apart at its own dash: the text the address is described by
does not resolve. -/
theorem describe_dashed :
    ((oneModule "my-game.exe").modules.map (·.name)).Nodup ∧
      (oneModule "my-game.exe").modules.Pairwise (fun first second =>
        first.base + first.size ≤ second.base ∨ second.base + second.size ≤ first.base) ∧
      describe asciiNarrow (oneModule "my-game.exe") (built asciiResolver []) 0x140000010 =
        "my-game.exe+0x10".toList ∧
      resolve asciiResolver (oneModule "my-game.exe") (built asciiResolver [])
          (describe asciiNarrow (oneModule "my-game.exe") (built asciiResolver []) 0x140000010) =
        fail ("\"my\" is not a hexadecimal address, a loaded module, an export of one, or a " ++
          "symbol you have defined.") := by
  decide +kernel

end PointerLab.SymbolTable
