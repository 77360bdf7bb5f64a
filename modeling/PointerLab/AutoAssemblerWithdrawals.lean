import PointerLab.AutoAssemblerIdle
import PointerLab.AutoAssemblerRoundTrip

set_option autoImplicit false

/- The symbols that go when scripts are switched off. Where a disable succeeds, their names
are in the text of the script and in its stored state; the target has no say in them. -/
namespace PointerLab.AutoAssembler

open Domain OrderedMap Std SymbolTable

/-- What a directive leaves of the texts to substitute. -/
def definesAfter (directive : Directive) (defines : DefineMap) : DefineMap :=
  if directive.name = "define".toList then
    match directive.args with
    | [name, text] => assign caseLess name text defines
    | _ => defines
  else defines

/-- The name a directive takes back. -/
def withdrawnBy (directive : Directive) : List Text :=
  if directive.name = "unregistersymbol".toList then directive.args.take 1 else []

/-- The names that the `unregistersymbol` lines of a section take back. -/
def withdrawnFrom : DefineMap → List Line → List Text
  | _, [] => []
  | defines, line :: rest =>
      match parseDirective (substituteText line.text defines) with
      | none => withdrawnFrom defines rest
      | some directive =>
          withdrawnBy directive ++ withdrawnFrom (definesAfter directive defines) rest

/-- The names that switching a script off takes back: those its [DISABLE] section gives, and
those it registered when it was switched on. -/
def withdrawn (source : Text) (state : RunState) : List Text :=
  withdrawnFrom [] (sectionLines source false) ++ state.registeredSymbols

/-- The names that go when every script that is on is switched off. -/
def Scripts.withdrawn (s : Scripts) : List Text :=
  (s.scripts.filter (·.enabled)).flatMap fun script =>
    AutoAssembler.withdrawn script.source (s.stored script.id)

variable {env : Env} {execute : Bool} {number : Nat} {args : List Text} {s after : Known}

/-- Neither the texts to substitute nor the names to take back have changed. -/
def Unwithdrawn (s after : Known) : Prop :=
  after.defines = s.defines ∧ after.result.unregisterSymbols = s.result.unregisterSymbols

theorem oneName_ok {usage : String} {use : Text → Known → Known}
    (ok : oneName usage use args s = .ok after) : ∃ name, args = [name] ∧ after = use name s := by
  unfold oneName at ok
  split at ok
  · split at ok
    · cases ok
    · cases ok
      exact ⟨_, rfl, rfl⟩
  · cases ok

theorem defineName_ok (ok : defineName args s = .ok after) :
    ∃ name text, args = [name, text] ∧
      after = { s with defines := assign caseLess name text s.defines } := by
  unfold defineName at ok
  split at ok
  · split at ok
    · cases ok
    · cases ok
      exact ⟨_, _, rfl, rfl⟩
  · cases ok

theorem scanModule_unwithdrawn (ok : scanModule env number args s = .ok after) :
    Unwithdrawn s after := by
  unfold scanModule at ok
  split at ok
  · cases ok
  · cases ok
    exact ⟨rfl, rfl⟩

theorem assertBytes_unwithdrawn (ok : assertBytes env number args s = .ok after) :
    Unwithdrawn s after := by
  unfold assertBytes at ok
  split at ok
  · split at ok
    · cases ok
    · split at ok
      · cases ok
      · dsimp only at ok
        split at ok
        · cases ok
        · split at ok
          · cases ok
          · split at ok
            · cases ok
            · cases ok
              exact ⟨rfl, rfl⟩
  · cases ok

theorem placeBlock_unwithdrawn {name : Text} {size hint address : Nat}
    (ok : placeBlock env execute number name size hint s = .ok (address, after)) :
    Unwithdrawn s after := by
  unfold placeBlock at ok
  split at ok
  · split at ok
    · cases ok
    · cases ok
      exact ⟨rfl, rfl⟩
  · cases ok
    exact ⟨rfl, rfl⟩

theorem alloc_unwithdrawn (ok : alloc env execute number args s = .ok after) :
    Unwithdrawn s after := by
  unfold alloc at ok
  split at ok
  · split at ok
    · cases ok
    · dsimp only at ok
      split at ok
      · cases ok
      · split at ok
        · cases ok
        · split at ok
          · cases ok
          · rename_i placed
            have kept := placeBlock_unwithdrawn placed
            cases ok
            exact kept
  · cases ok

/-- What one directive does to the texts to substitute and the names to take back. -/
theorem runDirective_withdraws {directive : Directive}
    (ok : runDirective env execute number directive s = .ok after) :
    after.defines = definesAfter directive s.defines ∧
      after.result.unregisterSymbols = s.result.unregisterSymbols ++ withdrawnBy directive := by
  have other (keeps : Unwithdrawn s after) (noDefine : directive.name ≠ "define".toList)
      (stays : directive.name ≠ "unregistersymbol".toList) :
      after.defines = definesAfter directive s.defines ∧
        after.result.unregisterSymbols = s.result.unregisterSymbols ++ withdrawnBy directive := by
    rw [definesAfter, withdrawnBy, if_neg noDefine, if_neg stays, List.append_nil]
    exact keeps
  unfold runDirective at ok
  split at ok
  · rename_i isDefine
    obtain ⟨name, text, given, rfl⟩ := defineName_ok ok
    rw [definesAfter, withdrawnBy, if_pos isDefine, if_neg (by rw [isDefine]; decide), given,
      List.append_nil]
    exact ⟨rfl, rfl⟩
  split at ok
  · rename_i noDefine isLabel
    obtain ⟨name, _, rfl⟩ := oneName_ok ok
    exact other ⟨rfl, rfl⟩ noDefine (by rw [isLabel]; decide)
  split at ok
  · rename_i noDefine _ isAlloc
    exact other (alloc_unwithdrawn ok) noDefine (by rw [isAlloc]; decide)
  split at ok
  · rename_i noDefine _ _ isScan
    exact other (scanModule_unwithdrawn ok) noDefine (by rw [isScan]; decide)
  split at ok
  · rename_i noDefine _ _ _ isAssert
    exact other (assertBytes_unwithdrawn ok) noDefine (by rw [isAssert]; decide)
  split at ok
  · rename_i noDefine _ _ _ _ isRegister
    obtain ⟨name, _, rfl⟩ := oneName_ok ok
    exact other ⟨rfl, rfl⟩ noDefine (by rw [isRegister]; decide)
  split at ok
  · rename_i noDefine _ _ _ _ _ isUnregister
    obtain ⟨name, given, rfl⟩ := oneName_ok ok
    rw [definesAfter, withdrawnBy, if_neg noDefine, if_pos isUnregister, given]
    exact ⟨rfl, rfl⟩
  split at ok
  · rename_i noDefine _ _ _ _ _ stays _
    obtain ⟨name, _, rfl⟩ := oneName_ok ok
    exact other ⟨rfl, rfl⟩ noDefine stays
  · cases ok

/-- The first pass collects the names the section takes back. -/
theorem readLines_withdraws {lines : List Line} {known : Known}
    (ok : (readLines env execute lines s).2 = .ok known) :
    known.result.unregisterSymbols =
      s.result.unregisterSymbols ++ withdrawnFrom s.defines lines := by
  induction lines generalizing s with
  | nil =>
      cases ok
      exact (List.append_nil _).symm
  | cons line rest ih =>
      obtain ⟨after, step, ended⟩ := readLines_cons_ok ok
      rw [ih ended, withdrawnFrom]
      simp only [readLine] at step
      cases parsed : parseDirective (substituteText line.text s.defines) with
      | none =>
          simp only [parsed] at step
          split at step <;> cases step <;> rfl
      | some directive =>
          simp only [parsed] at step
          split at step
          · cases step
          · rename_i ran
            cases step
            obtain ⟨defines, names⟩ := runDirective_withdraws ran
            rw [defines, names, List.append_assoc]

theorem compile_withdraws {source : Text} {enableSection : Bool} {stored : SymbolMap}
    {world ended : World} {compiled : Compiled}
    (compiles : compile env execute source enableSection stored world = (ended, .ok compiled)) :
    compiled.result.unregisterSymbols = withdrawnFrom [] (sectionLines source enableSection) := by
  cases compile_ok compiles with
  | inl empty =>
      obtain ⟨noLines, _, rfl⟩ := empty
      rw [noLines]
      rfl
  | inr both =>
      obtain ⟨known, reads, laid⟩ := both
      obtain ⟨_, _, _, _, result⟩ := layOut_ok laid
      rw [result]
      exact readLines_withdraws (congrArg Prod.snd reads)

/-- A disable takes the script's names out of the table, and no others; where its section is
refused, only those that the script registered. -/
theorem runDisable_takes (env : Env) (script : Script) (state : RunState) (world : World) :
    (runDisable env script state world).1.symbols =
        undefineAll (withdrawn script.source state) world.symbols ∨
      (runDisable env script state world).1.symbols =
          undefineAll state.registeredSymbols world.symbols ∧
        (runDisable env script state world).2.2 ≠ .ok () := by
  cases takenOff : removeAll env state.patchIds.reverse world.target with
  | mk target problems =>
      obtain ⟨regions, takes, _⟩ :=
        compile_takes env script.source false state.symbols { world with target }
      cases compiles : compile env true script.source false state.symbols { world with target } with
      | mk ended outcome =>
          rw [compiles] at takes
          have same : ended.symbols = world.symbols := takes.symbols
          cases outcome with
          | error message =>
              right
              constructor
              · simp only [runDisable, takenOff, compiles, same]
              · simp only [runDisable, takenOff, compiles, Ne, disableReply_ok,
                  List.append_eq_nil_iff, List.cons_ne_nil, and_false, not_false_eq_true]
          | ok compiled =>
              left
              have names := compile_withdraws compiles
              simp only [runDisable, takenOff, compiles, carryOut, deallocate_world, freeAll_eq]
              rw [names, same, withdrawn]
              simp only [undefineAll, List.foldl_append]

/-- A disable that succeeds takes all the script's names back. -/
theorem runDisable_symbols {script : Script} {state : RunState} {world : World}
    (ok : (runDisable env script state world).2.2 = .ok ()) :
    (runDisable env script state world).1.symbols =
      undefineAll (withdrawn script.source state) world.symbols :=
  (runDisable_takes env script state world).resolve_right fun refused => refused.2 ok

/-- Whether a symbol keeps its name past two lists of names. -/
theorem unnamed_append (first second : List Text) (symbol : Symbol) :
    unnamed (first ++ second) symbol = (unnamed first symbol && unnamed second symbol) :=
  List.all_append

/-- A disable, however it ends, leaves the symbols of other names. -/
theorem runDisable_keeps {script : Script} {state : RunState} {world : World} {symbol : Symbol}
    (inside : symbol ∈ world.symbols) (other : unnamed (withdrawn script.source state) symbol = true) :
    symbol ∈ (runDisable env script state world).1.symbols := by
  cases runDisable_takes env script state world with
  | inl taken =>
      rw [taken, undefineAll_eq]
      exact List.mem_filter.mpr ⟨inside, other⟩
  | inr refused =>
      rw [withdrawn, unnamed_append, Bool.and_eq_true] at other
      rw [refused.1, undefineAll_eq]
      exact List.mem_filter.mpr ⟨inside, other.2⟩

/-- A disable defines nothing. -/
theorem runDisable_fewer (env : Env) (script : Script) (state : RunState) (world : World) :
    (runDisable env script state world).1.symbols.Sublist world.symbols := by
  cases runDisable_takes env script state world with
  | inl taken =>
      rw [taken, undefineAll_eq]
      exact List.filter_sublist
  | inr refused =>
      rw [refused.1, undefineAll_eq]
      exact List.filter_sublist

theorem setEnabled_fewer (env : Env) (id : Nat) (world : World) (s : Scripts) :
    (setEnabled env id false world s).1.symbols.Sublist world.symbols := by
  unfold setEnabled
  split
  · exact List.Sublist.refl _
  · split
    · exact List.Sublist.refl _
    · exact runDisable_fewer env _ _ world

theorem disableEach_fewer (envs : Nat → Env) (ids : List Nat) (world : World) (s : Scripts) :
    (disableEach envs ids world s).1.symbols.Sublist world.symbols := by
  induction ids generalizing world s with
  | nil => exact List.Sublist.refl _
  | cons id rest ih =>
      rw [(disableEach_cons envs id rest world s).1]
      exact (ih _ _).trans (setEnabled_fewer (envs id) id world s)

/-- A run of one script leaves the others as they were. -/
theorem find_store_other {s : Scripts} {id other : Nat} (different : other ≠ id) (enabled : Bool)
    (state : RunState) (outcome : Except String Unit) :
    (store id enabled state outcome s).find other = s.find other ∧
      (store id enabled state outcome s).stored other = s.stored other := by
  constructor
  · show (changeScript id _ s.scripts).find? _ = s.scripts.find? _
    generalize s.scripts = scripts
    induction scripts with
    | nil => rfl
    | cons script rest ih =>
        rw [changeScript]
        split
        · rename_i here
          have elsewhere : (script.id == other) = false := by
            rw [here, beq_eq_false_iff_ne]
            exact different.symm
          rw [List.find?_cons, List.find?_cons, elsewhere]
        · rw [List.find?_cons, List.find?_cons, ih]
  · show (s.states.insert id state)[other]?.getD {} = s.states[other]?.getD {}
    rw [Tables.getElem?_insert, if_neg different]

/-- The names of the script with an id. -/
def Scripts.withdrawnBy (s : Scripts) (id : Nat) : List Text :=
  match s.find id with
  | none => []
  | some script => AutoAssembler.withdrawn script.source (s.stored id)

/-- Every script with one of the ids is on. -/
def Scripts.AllOn (s : Scripts) (ids : List Nat) : Prop :=
  ∀ id ∈ ids, ∃ script, s.find id = some script ∧ script.enabled = true

/-- Switching one script off leaves the others on, and their names as they were. -/
theorem store_others {s : Scripts} {id : Nat} {rest : List Nat} (notLater : id ∉ rest)
    (on : s.AllOn rest) (state : RunState) (outcome : Except String Unit) :
    (store id false state outcome s).AllOn rest ∧
      rest.flatMap (store id false state outcome s).withdrawnBy = rest.flatMap s.withdrawnBy := by
  have kept (other : Nat) (later : other ∈ rest) :
      (store id false state outcome s).find other = s.find other ∧
        (store id false state outcome s).stored other = s.stored other := by
    have different : other ≠ id := fun same => notLater (same ▸ later)
    exact find_store_other different _ _ _
  constructor
  · intro other later
    rw [(kept other later).1]
    exact on other later
  · rw [List.flatMap_def, List.flatMap_def]
    refine congrArg List.flatten (List.map_congr_left fun other later => ?_)
    rw [Scripts.withdrawnBy, Scripts.withdrawnBy, (kept other later).1, (kept other later).2]

/-- A script that is on, switched off. -/
theorem setEnabled_off {s : Scripts} {id : Nat} {script : Script} (found : s.find id = some script)
    (enabled : script.enabled = true) (env : Env) (world : World) :
    setEnabled env id false world s =
      ((runDisable env script (s.stored id) world).1,
        store id false (runDisable env script (s.stored id) world).2.1
          (runDisable env script (s.stored id) world).2.2 s,
        (runDisable env script (s.stored id) world).2.2) :=
  setEnabled_runs found (by rw [enabled]; decide)

/-- The first of some scripts that are on, switched off, with what the others keep. -/
theorem setEnabled_first {s : Scripts} {id : Nat} {rest : List Nat} (distinct : (id :: rest).Nodup)
    (on : s.AllOn (id :: rest)) (env : Env) (world : World) :
    ∃ script, s.withdrawnBy id = withdrawn script.source (s.stored id) ∧
      let done := runDisable env script (s.stored id) world
      setEnabled env id false world s = (done.1, store id false done.2.1 done.2.2 s, done.2.2) ∧
        (store id false done.2.1 done.2.2 s).AllOn rest ∧
        rest.flatMap (store id false done.2.1 done.2.2 s).withdrawnBy =
          rest.flatMap s.withdrawnBy := by
  obtain ⟨notLater, _⟩ := List.nodup_cons.mp distinct
  obtain ⟨script, found, enabled⟩ := on id List.mem_cons_self
  refine ⟨script, ?_, setEnabled_off found enabled env world,
    store_others notLater (fun other later => on other (List.mem_cons_of_mem _ later)) _ _⟩
  rw [Scripts.withdrawnBy, found]

/-- Scripts switched off one after the other, all of them with success. -/
theorem disableEach_symbols (envs : Nat → Env) {ids : List Nat} (distinct : ids.Nodup)
    {world : World} {s : Scripts} (on : s.AllOn ids)
    (ok : (disableEach envs ids world s).2.2 = 0) :
    (disableEach envs ids world s).1.symbols =
      undefineAll (ids.flatMap s.withdrawnBy) world.symbols := by
  induction ids generalizing world s with
  | nil => rfl
  | cons id rest ih =>
      have distinctRest := (List.nodup_cons.mp distinct).2
      obtain ⟨script, here, runs, onRest, names⟩ := setEnabled_first distinct on (envs id) world
      cases outcome : (runDisable (envs id) script (s.stored id) world).2.2 with
      | error message =>
          rw [outcome] at runs
          simp only [disableEach, runs] at ok
          omega
      | ok reply =>
          have taken := @runDisable_symbols (envs id) script (s.stored id) world outcome
          rw [outcome] at runs onRest names
          simp only [disableEach, runs] at ok ⊢
          rw [ih distinctRest onRest ok, taken, names, List.flatMap_cons, here, undefineAll,
            undefineAll, undefineAll, List.foldl_append]

/-- Scripts switched off one after the other, however each of them ends. -/
theorem disableEach_keeps (envs : Nat → Env) {ids : List Nat} (distinct : ids.Nodup)
    {world : World} {s : Scripts} (on : s.AllOn ids) {symbol : Symbol}
    (inside : symbol ∈ world.symbols)
    (other : unnamed (ids.flatMap s.withdrawnBy) symbol = true) :
    symbol ∈ (disableEach envs ids world s).1.symbols := by
  induction ids generalizing world s with
  | nil => exact inside
  | cons id rest ih =>
      have distinctRest := (List.nodup_cons.mp distinct).2
      obtain ⟨script, here, runs, onRest, names⟩ := setEnabled_first distinct on (envs id) world
      rw [List.flatMap_cons, here, unnamed_append, Bool.and_eq_true, ← names] at other
      have stays := @runDisable_keeps (envs id) script (s.stored id) world symbol inside other.1
      rw [(disableEach_cons envs id rest world s).1, runs]
      exact ih distinctRest onRest stays other.2

theorem find_of_mem {s : Scripts} (ids : (s.scripts.map (·.id)).Nodup) {script : Script}
    (inside : script ∈ s.scripts) : s.find script.id = some script := by
  unfold Scripts.find
  generalize s.scripts = scripts at ids inside
  induction scripts with
  | nil => contradiction
  | cons first rest ih =>
      rw [List.map_cons, List.nodup_cons] at ids
      cases List.mem_cons.mp inside with
      | inl same =>
          rw [same]
          exact List.find?_cons_of_pos (beq_iff_eq.mpr rfl)
      | inr inRest =>
          rw [List.find?_cons_of_neg, ih ids.2 inRest]
          intro same
          rw [beq_iff_eq] at same
          exact ids.1 (List.mem_map.mpr ⟨script, inRest, same.symm⟩)

/-- The ids that `disableAll` goes through. -/
def Scripts.onIds (s : Scripts) : List Nat := (s.scripts.filter (·.enabled)).map (·.id)

section DisableAll

variable {s : Scripts} (ids : (s.scripts.map (·.id)).Nodup)
include ids

theorem onIds_distinct : s.onIds.Nodup := ids.sublist (List.filter_sublist.map _)

theorem onIds_on : s.AllOn s.onIds := by
  intro id inside
  obtain ⟨script, kept, rfl⟩ := List.mem_map.mp inside
  obtain ⟨inScripts, enabled⟩ := List.mem_filter.mp kept
  exact ⟨script, find_of_mem ids inScripts, enabled⟩

theorem onIds_withdrawn : s.onIds.flatMap s.withdrawnBy = s.withdrawn := by
  rw [Scripts.onIds, List.flatMap_map, Scripts.withdrawn, List.flatMap_def, List.flatMap_def]
  refine congrArg List.flatten (List.map_congr_left fun script kept => ?_)
  rw [Scripts.withdrawnBy, find_of_mem ids (List.mem_of_mem_filter kept)]

/-- When everything is switched off with success, the names of what was on are gone. -/
theorem disableAll_symbols (envs : Nat → Env) {world : World}
    (ok : (disableAll envs world s).2.2 = .ok ()) :
    (disableAll envs world s).1.symbols = undefineAll s.withdrawn world.symbols := by
  have none_ : (disableEach envs s.onIds world s).2.2 = 0 := by
    simp only [disableAll] at ok
    split at ok
    · cases ok
    · rename_i zero
      exact Decidable.not_not.mp zero
  rw [← onIds_withdrawn ids]
  exact disableEach_symbols envs (onIds_distinct ids) (onIds_on ids) none_

/-- Nothing else goes, whether everything could be switched off or not. -/
theorem disableAll_keeps (envs : Nat → Env) {world : World} {symbol : Symbol}
    (inside : symbol ∈ world.symbols) (other : unnamed s.withdrawn symbol = true) :
    symbol ∈ (disableAll envs world s).1.symbols := by
  rw [← onIds_withdrawn ids] at other
  exact disableEach_keeps envs (onIds_distinct ids) (onIds_on ids) inside other

end DisableAll

/-- Every list of scripts that calls build keeps its ids apart. -/
theorem kept_run (calls : List Call) : Kept (fun _ => True) (Runs.run step {} calls) :=
  kept_reached (Runs.follows_true step {} calls).reached trivial (fun _ _ _ _ => trivial)
    fun _ _ _ _ _ _ _ _ _ _ _ => trivial

end PointerLab.AutoAssembler
