import PointerLab.AutoAssemblerScripts

set_option autoImplicit false

/- What the stored state of a script that is off can hold, over every sequence of calls. -/
namespace PointerLab.AutoAssembler

open Runs Std

theorem find_eq_some {s : Scripts} {id : Nat} {script : Script} (found : s.find id = some script) :
    script ∈ s.scripts ∧ script.id = id :=
  ⟨List.mem_of_find?_eq_some found, by simpa using List.find?_some found⟩

theorem changeScript_ids {scripts : List Script} {id : Nat} {change : Script → Script}
    (keeps : ∀ script, (change script).id = script.id) :
    (changeScript id change scripts).map (·.id) = scripts.map (·.id) := by
  induction scripts with
  | nil => rfl
  | cons script rest ih =>
      rw [changeScript]
      split
      · rw [List.map_cons, List.map_cons, keeps]
      · rw [List.map_cons, List.map_cons, ih]

theorem find_changeScript {scripts : List Script} {id : Nat} {change : Script → Script}
    (keeps : ∀ script, (change script).id = script.id) :
    (changeScript id change scripts).find? (fun script => script.id == id) =
      (scripts.find? fun script => script.id == id).map change := by
  induction scripts with
  | nil => rfl
  | cons script rest ih =>
      rw [changeScript]
      split
      · rename_i here
        rw [List.find?_cons_of_pos (by rw [keeps, here, beq_self_eq_true]),
          List.find?_cons_of_pos (by rw [here, beq_self_eq_true]), Option.map_some]
      · rename_i elsewhere
        rw [List.find?_cons_of_neg (by simpa using elsewhere),
          List.find?_cons_of_neg (by simpa using elsewhere), ih]

/-- A script of a changed list is the changed one, or as it was under another id. -/
theorem mem_changeScript {scripts : List Script} (ids : (scripts.map (·.id)).Nodup) {id : Nat}
    {change : Script → Script} {script : Script} (member : script ∈ changeScript id change scripts) :
    (∃ old ∈ scripts, old.id = id ∧ script = change old) ∨ (script ∈ scripts ∧ script.id ≠ id) := by
  induction scripts with
  | nil => contradiction
  | cons first rest ih =>
      rw [List.map_cons, List.nodup_cons] at ids
      rw [changeScript] at member
      split at member
      · rename_i here
        rcases List.mem_cons.mp member with rfl | inRest
        · exact Or.inl ⟨first, List.mem_cons_self, here, rfl⟩
        · refine Or.inr ⟨List.mem_cons_of_mem _ inRest, ?_⟩
          intro same
          exact ids.1 (List.mem_map.mpr ⟨script, inRest, same.trans here.symm⟩)
      · rename_i elsewhere
        rcases List.mem_cons.mp member with rfl | inRest
        · exact Or.inr ⟨List.mem_cons_self, elsewhere⟩
        · rcases ih ids.2 inRest with ⟨old, inOld, isId, same⟩ | ⟨inOld, other⟩
          · exact Or.inl ⟨old, List.mem_cons_of_mem _ inOld, isId, same⟩
          · exact Or.inr ⟨List.mem_cons_of_mem _ inOld, other⟩

/-- Ids are given out once, and the stored state of a script that is off meets `rests`. -/
structure Kept (rests : RunState → Prop) (s : Scripts) : Prop where
  ids : (s.scripts.map (·.id)).Nodup
  numbered : ∀ script ∈ s.scripts, script.id < s.nextId
  unknown : ∀ id, s.nextId ≤ id → s.states[id]? = none
  idle : ∀ script ∈ s.scripts, script.enabled = false → rests (s.stored script.id)

variable {rests : RunState → Prop} {s : Scripts}

theorem kept_start : Kept rests {} :=
  ⟨List.nodup_nil, nofun, fun _ _ => TreeMap.getElem?_emptyc, nofun⟩

theorem Kept.add (kept : Kept rests s) (empty : rests {}) (name source : Text) :
    Kept rests (add name source s) := by
  constructor
  · show ((s.scripts ++ _).map Script.id).Nodup
    rw [List.map_append, List.nodup_append]
    refine ⟨kept.ids, List.pairwise_singleton _ _, ?_⟩
    intro id old other new same
    obtain ⟨script, member, rfl⟩ := List.mem_map.mp old
    have below := kept.numbered script member
    rw [List.map_singleton, List.mem_singleton] at new
    have isNext : other = s.nextId := new
    omega
  · intro script member
    show script.id < s.nextId + 1
    rcases List.mem_append.mp member with old | new
    · exact Nat.lt_succ_of_lt (kept.numbered script old)
    · rw [List.mem_singleton] at new
      rw [new]
      exact Nat.lt_succ_self _
  · exact fun id above => kept.unknown id (Nat.le_of_succ_le above)
  · intro script member off
    rcases List.mem_append.mp member with old | new
    · exact kept.idle script old off
    · rw [List.mem_singleton] at new
      rw [new]
      show rests (s.states[s.nextId]?.getD {})
      rw [kept.unknown s.nextId (Nat.le_refl _)]
      exact empty

/-- A change of a script that leaves its id and, where it is off, its state to rest. -/
theorem Kept.change (kept : Kept rests s) {id : Nat} {change : Script → Script}
    {states : TreeMap Nat RunState} (keeps : ∀ script, (change script).id = script.id)
    (known : ∃ script ∈ s.scripts, script.id = id)
    (others : ∀ other, other ≠ id → states[other]? = s.states[other]?)
    (rest : ∀ script ∈ s.scripts, script.id = id → (change script).enabled = false →
      rests (states[id]?.getD {})) :
    Kept rests { s with scripts := changeScript id change s.scripts, states := states } := by
  constructor
  · show ((changeScript id change s.scripts).map (·.id)).Nodup
    rw [changeScript_ids keeps]
    exact kept.ids
  · intro script member
    rcases mem_changeScript kept.ids member with ⟨old, inOld, _, rfl⟩ | ⟨inOld, _⟩
    · rw [keeps]
      exact kept.numbered old inOld
    · exact kept.numbered script inOld
  · intro other above
    obtain ⟨script, member, rfl⟩ := known
    have below := kept.numbered script member
    have above_ : s.nextId ≤ other := above
    show states[other]? = none
    rw [others other (by omega)]
    exact kept.unknown other above_
  · intro script member off
    rcases mem_changeScript kept.ids member with ⟨old, inOld, isId, rfl⟩ | ⟨inOld, other⟩
    · show rests (states[(change old).id]?.getD {})
      rw [keeps, isId]
      exact rest old inOld isId off
    · show rests (states[script.id]?.getD {})
      rw [others script.id other]
      exact kept.idle script inOld off

theorem Kept.update (kept : Kept rests s) (id : Nat) (name source : Text) :
    Kept rests (update id name source s).1 := by
  unfold AutoAssembler.update
  split
  · exact kept
  · rename_i script found
    obtain ⟨member, isId⟩ := find_eq_some found
    split
    · exact kept
    · rename_i off
      refine kept.change (fun _ => rfl) ⟨script, member, isId⟩ (fun _ _ => rfl) ?_
      intro old inOld isOld oldOff
      exact isOld ▸ kept.idle old inOld oldOff

theorem Kept.setEnabled (kept : Kept rests s)
    (disabled : ∀ env script state world, rests (runDisable env script state world).2.1)
    {env : Env} {id : Nat} {enabled : Bool} {world : World}
    (failed : ∀ script message, s.find id = some script → script.enabled = false →
      enabled = true → rests (s.stored id) →
        (runEnable env script (s.stored id) world).2.2 = .error message →
        rests (runEnable env script (s.stored id) world).2.1) :
    Kept rests (setEnabled env id enabled world s).2.1 := by
  unfold AutoAssembler.setEnabled
  split
  · exact kept
  · rename_i script found
    obtain ⟨member, isId⟩ := find_eq_some found
    split
    · exact kept
    · rename_i differs
      refine kept.change (fun _ => rfl) ⟨script, member, isId⟩ ?_ ?_
      · intro other different
        rw [Tables.getElem?_insert, if_neg different]
      · intro old inOld isOld off
        rw [Tables.getElem?_insert, if_pos rfl, Option.getD_some]
        cases enabled with
        | false => exact disabled env script (s.stored id) world
        | true =>
            rw [Bool.not_eq_true] at differs
            cases outcome : (runEnable env script (s.stored id) world).2.2 with
            | ok reply =>
                change (true && (runEnable env script (s.stored id) world).2.2.isOk) = false at off
                rw [outcome] at off
                exact absurd off (Bool.true_eq_false ▸ not_false)
            | error message =>
                exact failed script message found differs rfl
                  (isId ▸ kept.idle script member differs) outcome

theorem Kept.erase (kept : Kept rests s) (id : Nat) : Kept rests (eraseScript id s).1 := by
  unfold eraseScript
  split
  · exact kept
  · have fewer : (s.scripts.filter fun script => script.id != id).Sublist s.scripts :=
      List.filter_sublist
    constructor
    · exact kept.ids.sublist (fewer.map (·.id))
    · exact fun script member => kept.numbered script (fewer.subset member)
    · intro other above
      show (s.states.erase id)[other]? = none
      rw [Tables.getElem?_erase]
      split
      · rfl
      · exact kept.unknown other above
    · intro script member off
      obtain ⟨inOld, other⟩ := List.mem_filter.mp member
      rw [bne_iff_ne] at other
      show rests ((s.states.erase id)[script.id]?.getD {})
      rw [Tables.getElem?_erase, if_neg other]
      exact kept.idle script inOld off

theorem kept_disable (kept : Kept rests s)
    (disabled : ∀ env script state world, rests (runDisable env script state world).2.1)
    (env : Env) (id : Nat) (world : World) :
    Kept rests (AutoAssembler.setEnabled env id false world s).2.1 :=
  kept.setEnabled disabled fun _ _ _ _ impossible => absurd impossible Bool.false_ne_true

theorem Kept.remove (kept : Kept rests s)
    (disabled : ∀ env script state world, rests (runDisable env script state world).2.1)
    (env : Env) (id : Nat) (world : World) : Kept rests (remove env id world s).2.1 := by
  have off := kept_disable kept disabled env id world
  unfold AutoAssembler.remove
  split
  · exact kept.erase id
  · split
    · split
      · rename_i result
        rwa [result] at off
      · rename_i result
        rw [result] at off
        exact off.erase id
    · exact kept.erase id

theorem kept_disableEach (disabled : ∀ env script state world,
    rests (runDisable env script state world).2.1) (env : Nat → Env) (ids : List Nat)
    (world : World) (kept : Kept rests s) : Kept rests (disableEach env ids world s).2.1 := by
  induction ids generalizing world s with
  | nil => exact kept
  | cons id rest ih =>
      have off := kept_disable kept disabled (env id) id world
      rw [(disableEach_cons env id rest world s).2]
      exact ih _ off

/-- Over every sequence of allowed calls the state of a script that is off rests, when it
rests at first, after a disable, and after an enable that fails. -/
theorem kept_reached {allowed : Scripts → Call → Prop} (reached : Reached step allowed {} s)
    (empty : rests {})
    (disabled : ∀ env script state world, rests (runDisable env script state world).2.1)
    (failed : ∀ s env id world script message, allowed s (.setEnabled env id true world) →
      s.find id = some script → script.enabled = false → rests (s.stored id) →
        (runEnable env script (s.stored id) world).2.2 = .error message →
          rests (runEnable env script (s.stored id) world).2.1) : Kept rests s := by
  refine reached.invariant kept_start ?_
  intro before call kept meets
  cases call with
  | add name source => exact kept.add empty name source
  | update id name source => exact kept.update id name source
  | setEnabled env id enabled world =>
      refine kept.setEnabled disabled ?_
      rintro script message found off rfl rested
      exact failed before env id world script message meets found off rested
  | remove env id world => exact kept.remove disabled env id world
  | disableAll env world => exact kept_disableEach disabled env _ world kept
  | forgetAll => exact ⟨List.nodup_nil, nofun, fun _ _ => TreeMap.getElem?_emptyc, nofun⟩

end PointerLab.AutoAssembler
