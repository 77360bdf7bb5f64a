import PointerLab.SymbolTableDescribe

set_option autoImplicit false

/- `engine_symbols/SymbolTable.cpp`: the text that a symbol was defined under, given back to
`resolve`, `find` and `undefine`. -/
namespace PointerLab.SymbolTable

open Domain AutoAssembler Runs

/-- What `undefine` answers: whether there was anything to remove. -/
def undefines (name : Text) (table : List Symbol) : Bool :=
  table.any fun symbol => sameName symbol.name name

/-- The name text and the address of a call of `define` that is accepted. -/
def accepted (resolver : Resolver) (table : List Symbol) : Edit → Option (Text × Nat)
  | .defineExpression view name expression =>
      (defineExpression resolver view name expression table).2.toOption.map fun address =>
        (name, address)
  | .define name address =>
      (define name address table).2.toOption.map fun _ => (name, address)
  | .undefine _ => none
  | .clear => none

/-- The symbol of a table that a name text defines there. -/
structure Defined (name : Text) (address : Nat) (table : List Symbol) (symbol : Symbol) : Prop where
  inside : symbol ∈ table
  called : lower symbol.name = lower (trim name)
  placed : symbol.address = address

/-- A text is a key of the table: with any target it resolves to an address, it finds the symbol
that it defines, and removes that symbol and no other. -/
structure Answers (resolver : Resolver) (name : Text) (address : Nat) (table : List Symbol) :
    Prop where
  resolves : ∀ view, resolve resolver view table name = .ok address
  finds : ∃ symbol, Defined name address table symbol ∧ find name table = some symbol ∧
    undefines name table = true ∧ undefine name table = table.erase symbol

theorem trim_sublist (text : Text) : (trim text).Sublist text := by
  have front : (text.dropWhile fun c => c == ' ' || c == '\t').Sublist text :=
    List.dropWhile_sublist _
  apply List.Sublist.trans _ front
  apply List.reverse_sublist.mp
  unfold trim trimmed
  rw [List.reverse_reverse]
  exact List.dropWhile_sublist _

/-- Two spellings of a name have as many characters. -/
theorem trim_eq_of_lower {name : Text} (same : lower name = lower (trim name)) :
    trim name = name := by
  apply (trim_sublist name).eq_of_length
  have lengths := congrArg List.length same
  rw [lower, lower, List.length_map, List.length_map] at lengths
  exact lengths.symm

theorem any_dropWhile {test blank : Char → Bool} (apart : ∀ c, blank c = true → test c = false)
    (text : Text) : (text.dropWhile blank).any test = text.any test := by
  induction text with
  | nil => rfl
  | cons c rest ih =>
      by_cases skipped : blank c = true
      · rw [List.dropWhile_cons_of_pos skipped, ih, List.any_cons, apart c skipped, Bool.false_or]
      · rw [List.dropWhile_cons_of_neg skipped]

/-- No sign is lost with the blanks. -/
theorem any_isSign_trim (text : Text) : (trim text).any isSign = text.any isSign := by
  have apart (c : Char) (blank : (c == ' ' || c == '\t') = true) : isSign c = false := by
    rw [Bool.or_eq_true, beq_iff_eq, beq_iff_eq] at blank
    cases blank with
    | inl space => rw [space]; rfl
    | inr tab => rw [tab]; rfl
  unfold trim trimmed
  rw [List.any_reverse, any_dropWhile apart, List.any_reverse, any_dropWhile apart]

/-- `define` leaves a symbol of the name at the address. -/
theorem exists_setExpression (name : Text) (address : Nat) (expression : Text)
    (table : List Symbol) :
    ∃ symbol ∈ setExpression name address expression table,
      lower symbol.name = lower name ∧ symbol.address = address := by
  induction table with
  | nil => exact ⟨⟨name, address, expression⟩, List.mem_singleton_self _, rfl, rfl⟩
  | cons first rest ih =>
      rw [setExpression]
      by_cases same : sameName first.name name = true
      · rw [if_pos same]
        exact ⟨_, List.mem_cons_self, sameName_iff.mp same, rfl⟩
      · rw [if_neg same]
        obtain ⟨symbol, inside, called⟩ := ih
        exact ⟨symbol, List.mem_cons_of_mem _ inside, called⟩

/-- A call is accepted with a name that can be one, and sets it. -/
theorem accepted_sets {resolver : Resolver} {table : List Symbol} {call : Edit} {name : Text}
    {address : Nat} (accepts : accepted resolver table call = some (name, address)) :
    Named (trim name) ∧ ∃ expression,
      edit resolver table call = setExpression (trim name) address expression table := by
  cases call with
  | defineExpression view text expression =>
      rw [accepted] at accepts
      rw [edit]
      cases defineExpression_cases resolver view text expression table with
      | inl refused =>
          obtain ⟨failure, answer⟩ := refused
          rw [answer] at accepts
          contradiction
      | inr set =>
          obtain ⟨place, _, named, answer⟩ := set
          rw [answer] at accepts ⊢
          cases accepts
          exact ⟨named, expression, rfl⟩
  | define text place =>
      rw [accepted] at accepts
      rw [edit]
      cases define_cases text place table with
      | inl refused =>
          obtain ⟨failure, answer⟩ := refused
          rw [answer] at accepts
          contradiction
      | inr set =>
          rw [set.2] at accepts ⊢
          cases accepts
          exact ⟨set.1, [], rfl⟩
  | undefine text => contradiction
  | clear => contradiction

/-- With blanks at its ends or without, a defined text resolves to its address. -/
theorem resolve_defined (resolver : Resolver) (view : TargetView) {name : Text} {address : Nat}
    {table : List Symbol} (named : Named (trim name)) (sound : Sound table) {symbol : Symbol}
    (defined : Defined name address table symbol) :
    resolve resolver view table name = .ok address := by
  have unsigned : name.any isSign = false := by rw [← any_isSign_trim, named.unsigned]
  have some_ : ¬(trim name).isEmpty = true := by
    rw [List.isEmpty_iff]
    exact named.nonempty
  have first : table.find? (fun symbol => sameName symbol.name (trim name)) = some symbol :=
    sound.find defined.inside defined.called
  have term : resolveTerm resolver view table (trim name) = .ok address := by
    rw [resolveTerm, first, ← defined.placed]
  rw [resolve, split_unsigned unsigned, if_neg some_]
  dsimp only
  rw [term]
  rfl

/-- A text in the spelling of a symbol, case aside, removes it and no other. -/
theorem undefine_eq_erase {table : List Symbol} (sound : Sound table) {symbol : Symbol}
    (inside : symbol ∈ table) {name : Text} (same : lower symbol.name = lower name) :
    undefine name table = table.erase symbol := by
  have distinct : table.Nodup := List.Nodup.of_map _ sound.distinct
  rw [undefine, distinct.erase_eq_filter]
  apply List.filter_congr
  intro other there
  by_cases equal : other = symbol
  · rw [equal, sameName_iff.mpr same, bne_self_eq_false]
    rfl
  · have apart : ¬sameName other.name name = true := by
      intro named
      apply equal
      have one := sound.find there (sameName_iff.mp named)
      have two := sound.find inside same
      exact Option.some.inj (one.symm.trans two)
    rw [Bool.eq_false_iff.mpr apart, bne_iff_ne.mpr equal]
    rfl

/-- In every table that calls build no two symbols have one name, whatever the case. A name text
that `define` accepts there is a key of the table it leaves if and only if it has no blanks at its
ends: with blanks it still resolves, but is neither found nor removed. -/
theorem accepted_answers_iff (resolver : Resolver) (edits : List Edit) :
    ((built resolver edits).map fun symbol => lower symbol.name).Nodup ∧
      ∀ call name address, accepted resolver (built resolver edits) call = some (name, address) →
        (Answers resolver name address (edit resolver (built resolver edits) call) ↔
          trim name = name) := by
  have before := built_sound resolver edits
  refine ⟨before.distinct, fun call name address accepts => ?_⟩
  obtain ⟨named, expression, sets⟩ := accepted_sets accepts
  have sound := edit_sound resolver before call
  obtain ⟨symbol, inside, called, placed⟩ :=
    exists_setExpression (trim name) address expression (built resolver edits)
  rw [← sets] at inside
  have defined : Defined name address _ symbol := ⟨inside, called, placed⟩
  constructor
  · intro answers
    obtain ⟨other, itself, found, _⟩ := answers.finds
    apply trim_eq_of_lower
    rw [← find_name found, itself.called]
  · intro flush
    have same : lower symbol.name = lower name := by rw [called, flush]
    refine ⟨fun view => resolve_defined resolver view named sound defined,
      symbol, defined, sound.find inside same, ?_, undefine_eq_erase sound inside same⟩
    exact List.any_eq_true.mpr ⟨symbol, inside, sameName_iff.mpr same⟩

/-- A symbol that is defined again in another spelling. -/
theorem accepted_answers_respelled :
    Answers asciiResolver "HEALTH".toList 0x2000
      (edit asciiResolver (built asciiResolver [.define "health".toList 0x1000])
        (.define "HEALTH".toList 0x2000)) := by
  apply ((accepted_answers_iff asciiResolver [.define "health".toList 0x1000]).2 _ _ _ _).mpr
  · decide
  · decide

def paddedEdit : Edit := .define " health".toList 0x1000

/-- The text of the definition resolves, but `find` has no symbol of that name and `undefine`
leaves the table as it is. -/
theorem padded_unanswered :
    accepted asciiResolver (built asciiResolver []) paddedEdit =
        some (" health".toList, 0x1000) ∧
      resolve asciiResolver (oneModule "game.exe") (built asciiResolver [paddedEdit])
        " health".toList = .ok 0x1000 ∧
      find " health".toList (built asciiResolver [paddedEdit]) = none ∧
      undefines " health".toList (built asciiResolver [paddedEdit]) = false ∧
      undefine " health".toList (built asciiResolver [paddedEdit]) =
        [⟨"health".toList, 0x1000, []⟩] := by
  decide

end PointerLab.SymbolTable
