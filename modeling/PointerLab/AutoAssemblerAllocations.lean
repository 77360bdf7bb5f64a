import PointerLab.AutoAssemblerRun

set_option autoImplicit false

/- What the directives of a section do to the target: blocks are allocated, and nothing else
changes. -/
namespace PointerLab.AutoAssembler

open Domain OrderedMap

def Region.Holds (region : Region) (place : Nat) : Prop :=
  region.base ≤ place ∧ place < region.base + region.size

instance (region : Region) (place : Nat) : Decidable (region.Holds place) :=
  inferInstanceAs (Decidable (_ ∧ _))

/-- From one world to another some regions were allocated, none of them where a block was,
and nothing else has happened. -/
structure Takes (before after : World) (regions : List Region) : Prop where
  registry : after.target.registry = before.target.registry
  symbols : after.symbols = before.symbols
  blocks : after.blocks = before.blocks ++ regions
  memory : ∀ place, (∀ region ∈ regions, ¬region.Holds place) →
    after.target.memory place = before.target.memory place
  fresh : ∀ region ∈ regions, ∀ block ∈ before.blocks, block.base ≠ region.base
  distinct : (regions.map (·.base)).Nodup

theorem Takes.refl (world : World) : Takes world world [] :=
  ⟨rfl, rfl, (List.append_nil _).symm, fun _ _ => rfl, nofun, List.nodup_nil⟩

/-- One more region at the front. -/
theorem Takes.cons {world after : World} {address size : Nat} {regions : List Region}
    (fresh : ∀ block ∈ world.blocks, block.base ≠ address)
    (takes : Takes (world.allocated address size) after regions) :
    Takes world after (⟨address, pages size⟩ :: regions) := by
  constructor
  · exact takes.registry
  · exact takes.symbols
  · rw [takes.blocks]
    exact List.append_assoc _ _ _
  · intro place outside
    rw [takes.memory place fun region member => outside region (List.mem_cons_of_mem _ member)]
    exact if_neg (outside _ List.mem_cons_self)
  · intro region member block inBlocks
    rcases List.mem_cons.mp member with rfl | later
    · exact fresh block inBlocks
    · exact takes.fresh region later block (List.mem_append_left _ inBlocks)
  · rw [List.map_cons, List.nodup_cons]
    refine ⟨?_, takes.distinct⟩
    intro again
    obtain ⟨region, member, same⟩ := List.mem_map.mp again
    exact takes.fresh region member ⟨address, pages size⟩
      (List.mem_append_right _ List.mem_cons_self) same.symm

/-- The pages an allocation holds. -/
def Allocation.region (allocation : Allocation) : Region :=
  ⟨allocation.address, pages allocation.size⟩

/-- What one line of the first pass does to the target, and the symbols it asks to publish. -/
inductive LineEffect (args : List Text) (s after : Known) : Prop
  | quiet (world : after.world = s.world)
      (allocations : after.result.allocations = s.result.allocations)
      (registered : ∀ entry ∈ after.result.registerSymbols,
        entry ∈ s.result.registerSymbols ∨ entry.1 ∈ args)
  | alloc (name : Text) (address size : Nat)
      (fresh : ∀ block ∈ s.world.blocks, block.base ≠ address)
      (world : after.world = s.world.allocated address size)
      (allocations : after.result.allocations = s.result.allocations ++ [⟨name, address, size⟩])
      (registered : after.result.registerSymbols = s.result.registerSymbols)

variable {env : Env} {number : Nat} {args : List Text} {s after : Known}

/-- What a line that allocates nothing does. -/
structure Quiet (args : List Text) (s after : Known) : Prop where
  world : after.world = s.world
  allocations : after.result.allocations = s.result.allocations
  registered : ∀ entry ∈ after.result.registerSymbols,
    entry ∈ s.result.registerSymbols ∨ entry.1 ∈ args

theorem Quiet.effect (quiet : Quiet args s after) : LineEffect args s after :=
  .quiet quiet.world quiet.allocations quiet.registered

/-- A change of what only the list itself is told. -/
theorem Quiet.none (world : after.world = s.world)
    (allocations : after.result.allocations = s.result.allocations)
    (registered : after.result.registerSymbols = s.result.registerSymbols) :
    Quiet args s after :=
  ⟨world, allocations, fun _ member => Or.inl (registered ▸ member)⟩

theorem oneName_quiet {usage : String} {use : Text → Known → Known}
    (quiet : ∀ name, Quiet [name] s (use name s)) (ok : oneName usage use args s = .ok after) :
    Quiet args s after := by
  unfold oneName at ok
  split at ok
  · split at ok
    · cases ok
    · cases ok
      exact quiet _
  · cases ok

theorem registersymbol_quiet (ok : registersymbol args s = .ok after) : Quiet args s after := by
  refine oneName_quiet (fun name => ⟨rfl, rfl, ?_⟩) ok
  intro entry member
  rcases List.mem_append.mp member with old | new
  · exact Or.inl old
  · rw [List.mem_singleton] at new
    exact Or.inr (by simp [new])

theorem defineName_quiet (ok : defineName args s = .ok after) : Quiet args s after := by
  unfold defineName at ok
  split at ok
  · split at ok
    · cases ok
    · cases ok
      exact .none rfl rfl rfl
  · cases ok

theorem scanModule_quiet (ok : scanModule env number args s = .ok after) :
    Quiet args s after := by
  unfold scanModule at ok
  split at ok
  · cases ok
  · cases ok
    exact .none rfl rfl rfl

theorem assertBytes_quiet (ok : assertBytes env number args s = .ok after) :
    Quiet args s after := by
  unfold assertBytes at ok
  split at ok
  · split at ok
    · cases ok
    · split at ok
      · cases ok
      · dsimp only at ok
        split at ok
        · cases ok
        · split at ok
          · cases ok
          · split at ok
            · cases ok
            · cases ok
              exact .none rfl rfl rfl
  · cases ok

theorem alloc_ok (ok : alloc env true number args s = .ok after) :
    ∃ name address size, (∀ block ∈ s.world.blocks, block.base ≠ address) ∧
      after.world = s.world.allocated address size ∧
      after.result.allocations = s.result.allocations ++ [⟨name, address, size⟩] ∧
      after.result.registerSymbols = s.result.registerSymbols := by
  unfold alloc at ok
  split at ok
  · rename_i name sizeText near
    split at ok
    · cases ok
    · dsimp only at ok
      split at ok
      · cases ok
      · split at ok
        · cases ok
        · split at ok
          · cases ok
          · rename_i placed
            simp only [placeBlock, ↓reduceIte] at placed
            split at placed
            · cases placed
            · rename_i answered
              cases placed
              cases ok
              exact ⟨name, _, _, env.allocator.fresh _ _ _ _ _ answered, rfl, rfl, rfl⟩
  · cases ok

theorem runDirective_alloc {directive : Directive} (name : directive.name = "alloc".toList) :
    runDirective env true number directive s = alloc env true number directive.args s := by
  rw [runDirective, name, if_neg (by decide), if_neg (by decide), if_pos rfl]

/-- No other directive allocates. -/
theorem runDirective_quiet {directive : Directive} (other : directive.name ≠ "alloc".toList)
    (ok : runDirective env true number directive s = .ok after) :
    Quiet directive.args s after := by
  unfold runDirective at ok
  split at ok
  · exact defineName_quiet ok
  · split at ok
    · exact oneName_quiet (fun _ => .none rfl rfl rfl) ok
    · split at ok
      · exact scanModule_quiet ok
      · split at ok
        · exact assertBytes_quiet ok
        · split at ok
          · exact registersymbol_quiet ok
          · split at ok
            · exact oneName_quiet (fun _ => .none rfl rfl rfl) ok
            · split at ok
              · exact oneName_quiet (fun _ => .none rfl rfl rfl) ok
              · cases ok

theorem runDirective_effect {directive : Directive}
    (ok : runDirective env true number directive s = .ok after) :
    LineEffect directive.args s after := by
  by_cases name : directive.name = "alloc".toList
  · rw [runDirective_alloc name] at ok
    obtain ⟨name, address, size, fresh, world, allocations, registered⟩ := alloc_ok ok
    exact .alloc name address size fresh world allocations registered
  · exact (runDirective_quiet name ok).effect

theorem readLine_effect {line : Line} (ok : readLine env true line s = .ok after) :
    ∃ args, (∀ arg ∈ args, Flush isBlank arg) ∧ LineEffect args s after := by
  simp only [readLine] at ok
  split at ok
  · split at ok
    · cases ok
      exact ⟨[], nofun, Quiet.effect (.none rfl rfl rfl)⟩
    · cases ok
      exact ⟨[], nofun, Quiet.effect (.none rfl rfl rfl)⟩
  · rename_i directive parsed
    split at ok
    · cases ok
    · rename_i ran
      cases ok
      exact ⟨directive.args, parseDirective_flush parsed, runDirective_effect ran⟩

/-- The first pass takes regions, whether it comes to its end or not, and has an allocation
for each. -/
theorem readLines_takes (lines : List Line) (s : Known) :
    ∃ regions, Takes s.world (readLines env true lines s).1 regions ∧
      ∀ known, (readLines env true lines s).2 = .ok known →
        known.world = (readLines env true lines s).1 ∧
          known.result.allocations.map Allocation.region =
            s.result.allocations.map Allocation.region ++ regions := by
  induction lines generalizing s with
  | nil =>
      refine ⟨[], .refl s.world, ?_⟩
      intro known ok
      cases ok
      exact ⟨rfl, (List.append_nil _).symm⟩
  | cons line rest ih =>
      cases step : readLine env true line s with
      | error message =>
          simp only [readLines, step]
          exact ⟨[], .refl s.world, nofun⟩
      | ok after =>
          obtain ⟨regions, takes, ended⟩ := ih after
          simp only [readLines, step]
          obtain ⟨args, _, effect⟩ := readLine_effect step
          cases effect with
          | quiet world allocations registered =>
              rw [world] at takes
              rw [allocations] at ended
              exact ⟨regions, takes, ended⟩
          | alloc name address size fresh world allocations registered =>
              rw [world] at takes
              refine ⟨⟨address, pages size⟩ :: regions, .cons fresh takes, ?_⟩
              intro known ok
              obtain ⟨same, added⟩ := ended known ok
              refine ⟨same, ?_⟩
              rw [added, allocations, List.map_append, List.append_assoc]
              rfl

/-- An `alloc` directive, where these texts are substituted. -/
def allocates (defines : DefineMap) (line : Line) : Bool :=
  (parseDirective (substituteText line.text defines)).any fun directive =>
    directive.name == "alloc".toList

/-- Every `alloc` directive that the first pass comes to is the line that it fails at. -/
def AllocatesNothing (env : Env) (lines : List Line) (s : Known) : Prop :=
  ∀ before line rest known, lines = before ++ line :: rest →
    (readLines env true before s).2 = .ok known → allocates known.defines line = true →
      ∃ message, readLine env true line known = .error message

theorem readLine_quiet {line : Line} (other : allocates s.defines line = false)
    (ok : readLine env true line s = .ok after) : after.world = s.world := by
  simp only [readLine] at ok
  split at ok
  · split at ok <;> cases ok <;> rfl
  · rename_i directive parsed
    rw [allocates, parsed, Option.any_some, beq_eq_false_iff_ne] at other
    split at ok
    · cases ok
    · rename_i ran
      cases ok
      exact (runDirective_quiet other ran).world

theorem readLine_allocates {line : Line} (allocating : allocates s.defines line = true)
    (ok : readLine env true line s = .ok after) :
    ∃ address size, after.world = s.world.allocated address size := by
  simp only [readLine] at ok
  split at ok
  · rename_i unparsed
    rw [allocates, unparsed] at allocating
    contradiction
  · rename_i directive parsed
    rw [allocates, parsed, Option.any_some, beq_iff_eq] at allocating
    rw [runDirective_alloc allocating] at ok
    split at ok
    · cases ok
    · rename_i ran
      cases ok
      obtain ⟨_, address, size, _, world, _⟩ := alloc_ok ran
      exact ⟨address, size, world⟩

theorem allocatesNothing_cons {line : Line} {rest : List Line}
    (step : readLine env true line s = .ok after) :
    AllocatesNothing env (line :: rest) s ↔
      allocates s.defines line = false ∧ AllocatesNothing env rest after := by
  constructor
  · intro nothing
    constructor
    · rw [← Bool.not_eq_true]
      intro allocating
      obtain ⟨message, fails⟩ := nothing [] line rest s rfl rfl allocating
      rw [step] at fails
      cases fails
    · intro before other later known parts reads
      refine nothing (line :: before) other later known (by rw [parts]; rfl) ?_
      rw [readLines, step]
      exact reads
  · rintro ⟨quiet, nothing⟩ before other later known parts reads allocating
    cases before with
    | nil =>
        obtain ⟨rfl, rfl⟩ := List.cons.inj parts
        cases reads
        rw [quiet] at allocating
        contradiction
    | cons first more =>
        obtain ⟨rfl, same⟩ := List.cons.inj parts
        rw [readLines, step] at reads
        exact nothing more other later known same reads allocating

/-- The first pass leaves no block behind exactly when it has come to no `alloc` directive before
the line that it fails at. -/
theorem readLines_blocks_iff (lines : List Line) (s : Known) :
    (readLines env true lines s).1.blocks = s.world.blocks ↔ AllocatesNothing env lines s := by
  induction lines generalizing s with
  | nil =>
      refine iff_of_true rfl ?_
      intro before line rest known parts
      exact absurd parts.symm (by simp)
  | cons line rest ih =>
      cases step : readLine env true line s with
      | error message =>
          rw [readLines, step]
          refine iff_of_true rfl ?_
          intro before other later known parts reads allocating
          cases before with
          | nil =>
              obtain ⟨rfl, rfl⟩ := List.cons.inj parts
              cases reads
              exact ⟨message, step⟩
          | cons first more =>
              obtain ⟨rfl, _⟩ := List.cons.inj parts
              rw [readLines, step] at reads
              cases reads
      | ok after =>
          rw [allocatesNothing_cons step, ← ih, readLines, step]
          cases allocating : allocates s.defines line with
          | false =>
              rw [readLine_quiet allocating step]
              exact (and_iff_right rfl).symm
          | true =>
              refine iff_of_false ?_ (fun both => absurd both.1 (by decide))
              obtain ⟨address, size, world⟩ := readLine_allocates allocating step
              obtain ⟨regions, takes, _⟩ := @readLines_takes env rest after
              intro same
              have length := congrArg List.length (takes.blocks.symm.trans same)
              rw [world, World.allocated, List.length_append, List.length_append,
                List.length_singleton] at length
              omega

/-- The names the first pass is asked to publish have no blanks at their ends. -/
theorem readLines_registered {lines : List Line} {s known : Known}
    (flush : ∀ entry ∈ s.result.registerSymbols, Flush isBlank entry.1)
    (ok : (readLines env true lines s).2 = .ok known) :
    ∀ entry ∈ known.result.registerSymbols, Flush isBlank entry.1 := by
  induction lines generalizing s with
  | nil =>
      cases ok
      exact flush
  | cons line rest ih =>
      obtain ⟨after, step, ended⟩ := readLines_cons_ok ok
      obtain ⟨args, flushArgs, effect⟩ := readLine_effect step
      refine ih ?_ ended
      intro entry member
      cases effect with
      | quiet world allocations registered =>
          rcases registered entry member with old | named
          · exact flush entry old
          · exact flushArgs entry.1 named
      | alloc name address size fresh world allocations registered =>
          exact flush entry (registered ▸ member)

/-- The values of published symbols are filled in under the same names. -/
theorem registeredValues_names {layout : SymbolMap} {entries values : List (Text × Nat)}
    (ok : registeredValues layout entries = .ok values) :
    values.map (·.1) = entries.map (·.1) := by
  induction entries generalizing values with
  | nil =>
      cases ok
      rfl
  | cons entry rest ih =>
      rw [registeredValues] at ok
      split at ok
      · cases ok
      · split at ok
        · cases ok
        · rename_i filled
          cases ok
          rw [List.map_cons, List.map_cons, ih filled]

theorem compile_registered {source : Text} {enableSection : Bool} {stored : SymbolMap}
    {world ended : World} {compiled : Compiled}
    (compiles : compile env true source enableSection stored world = (ended, .ok compiled)) :
    ∀ name ∈ compiled.result.registerSymbols.map (·.1), Flush isBlank name := by
  rcases compile_ok compiles with ⟨_, _, rfl⟩ | ⟨known, reads, laid⟩
  · exact nofun
  · obtain ⟨_, values, _, registered, result⟩ := layOut_ok laid
    have flush := readLines_registered (fun _ member => absurd member List.not_mem_nil)
      (congrArg Prod.snd reads)
    rw [result, registeredValues_names registered]
    intro name member
    obtain ⟨entry, inEntries, rfl⟩ := List.mem_map.mp member
    exact flush entry inEntries

/-- A compile that is meant to run takes regions, and nothing else. -/
theorem compile_takes (env : Env) (source : Text) (enableSection : Bool) (stored : SymbolMap)
    (world : World) :
    ∃ regions, Takes world (compile env true source enableSection stored world).1 regions ∧
      ∀ compiled, (compile env true source enableSection stored world).2 = .ok compiled →
        compiled.result.allocations.map Allocation.region = regions := by
  simp only [compile]
  split
  · refine ⟨[], .refl world, ?_⟩
    intro compiled ok
    cases ok
    rfl
  · split
    · refine ⟨[], .refl world, ?_⟩
      intro compiled ok
      cases ok
    · obtain ⟨regions, takes, ended⟩ := @readLines_takes env (sectionLines source enableSection)
        { world, symbols := assignAll caseLess stored [] }
      split
      · rename_i reads
        rw [reads] at takes
        refine ⟨regions, takes, ?_⟩
        intro compiled ok
        cases ok
      · rename_i known reads
        rw [reads] at takes ended
        refine ⟨regions, takes, ?_⟩
        intro compiled ok
        obtain ⟨_, _, _, _, result⟩ := layOut_ok ok
        rw [result, (ended known rfl).2]
        rfl

/-- A section that is refused leaves no block behind exactly when no `alloc` directive of it comes
before the line that fails. -/
theorem compile_refused_iff {source : Text} {enableSection : Bool} {stored : SymbolMap}
    {world ended : World} {message : String}
    (refused : compile env true source enableSection stored world = (ended, .error message)) :
    ended.blocks = world.blocks ↔
      (env.attached = true → AllocatesNothing env (sectionLines source enableSection)
        { world, symbols := assignAll caseLess stored [] }) := by
  have reads := @readLines_blocks_iff env (sectionLines source enableSection)
    { world, symbols := assignAll caseLess stored [] }
  simp only [compile] at refused
  split at refused
  · cases refused
  · split at refused
    · rename_i detached
      cases refused
      refine iff_of_true rfl fun attached => ?_
      rw [attached] at detached
      contradiction
    · rename_i attached
      have attached : env.attached = true := by simpa using attached
      split at refused
      · rename_i failed
        rw [failed] at reads
        cases refused
        simp only [attached, true_imp_iff]
        exact reads
      · rename_i known passed
        rw [passed] at reads
        obtain ⟨rfl, _⟩ := Prod.mk.inj refused
        simp only [attached, true_imp_iff]
        exact reads

/-- Which blocks freeing a list of addresses leaves. -/
theorem freeAll_eq (env : Env) (addresses : List Nat) (world : World) :
    freeAll env addresses world = { world with
      blocks := world.blocks.filter fun block =>
        !addresses.any fun address => address == block.base && (env.freed address).isNone } := by
  induction addresses generalizing world with
  | nil =>
      rw [freeAll, List.foldl_nil]
      simp
  | cons address rest ih =>
      rw [freeAll, List.foldl_cons, ← freeAll, ih]
      cases ends : env.freed address with
      | some failure => simp [World.free, ends]
      | none =>
          simp only [World.free, ends, List.filter_filter, List.any_cons, Option.isNone_none,
            Bool.and_true, Bool.not_or]
          congr 1
          apply List.filter_congr
          intro block _
          rw [Bool.and_comm, bne, Bool.beq_comm]

/-- The regions taken are given back exactly when each of them could be freed. -/
theorem freeAll_blocks_iff {old regions : List Region} {after : World}
    (blocks : after.blocks = old ++ regions)
    (fresh : ∀ region ∈ regions, ∀ block ∈ old, block.base ≠ region.base) (env : Env) :
    (freeAll env (regions.map (·.base)) after).blocks = old ↔
      ∀ region ∈ regions, env.freed region.base = none := by
  have stay : old.filter (fun block => !(regions.map (·.base)).any fun address =>
      address == block.base && (env.freed address).isNone) = old := by
    rw [List.filter_eq_self]
    intro block member
    rw [Bool.not_eq_true', List.any_eq_false]
    intro address taken
    obtain ⟨region, inRegions, rfl⟩ := List.mem_map.mp taken
    have different := fresh region inRegions block member
    simp [Ne.symm different]
  rw [freeAll_eq, blocks]
  dsimp only
  rw [List.filter_append, stay, List.append_right_eq_self, List.filter_eq_nil_iff]
  constructor
  · intro freed region member
    have gone := freed region member
    rw [Bool.not_eq_true', Bool.not_eq_false, List.any_eq_true] at gone
    obtain ⟨address, _, ends⟩ := gone
    rw [Bool.and_eq_true, beq_iff_eq, Option.isNone_iff_eq_none] at ends
    rw [← ends.1, ends.2]
  · intro freed region member
    rw [Bool.not_eq_true', Bool.not_eq_false, List.any_eq_true]
    exact ⟨region.base, List.mem_map_of_mem member, by simp [freed region member]⟩

end PointerLab.AutoAssembler
