import PointerLab.Runs
import PointerLab.TrainerExportProgram

set_option autoImplicit false

/- The trainer at work: the cheats its data part is compiled to, and the loop of the emitted
`main`, which looks at one key after the other while the player presses and releases them. -/
namespace PointerLab.TrainerExport

open Domain ProjectStore CppTokens Runs

section Loaded

/-- A `Cheat` of the running trainer, with what it points to. -/
structure Running where
  hotkey : Nat
  cheat : Cheat
  value : List UInt8
  enabled : Bool
  deriving DecidableEq

def valuesNamed (name : Text) : List Declaration → Option (List Nat)
  | [] => none
  | .values other constants :: rest =>
      if other = name then some constants else valuesNamed name rest
  | _ :: rest => valuesNamed name rest

def offsetsNamed (name : Text) : List Declaration → Option (List Nat)
  | [] => none
  | .offsets other constants :: rest =>
      if other = name then some constants else offsetsNamed name rest
  | _ :: rest => offsetsNamed name rest

def cheatsOf : List Declaration → Option (List Element)
  | [] => none
  | .cheats elements :: _ => some elements
  | _ :: rest => cheatsOf rest

/-- The array an element names, or `nullptr`. -/
def offsetsOf (program : List Declaration) : Option Text → Option (List Nat)
  | none => some []
  | some name => offsetsNamed name program

def load (api : Conversion) (bitness : Bitness) (program : List Declaration) (element : Element) :
    Option Running :=
  match valuesNamed element.value program, valuesNamed element.valueSize program,
      offsetsOf program element.offsets with
  | some values, some sized, some offsets =>
      some
        { hotkey := element.hotkey
          cheat :=
            { moduleName := element.moduleName.map (widen api)
              base := element.base % limit bitness
              offsets := offsets.map (asPtrdiff bitness)
              offsetCount := element.offsetCount }
          value := (values.take sized.length).map UInt8.ofNat
          enabled := element.enabled }
  | _, _, _ => none

/-- `g_cheats` when `main` begins. -/
def loaded (api : Conversion) (bitness : Bitness) (program : List Declaration) :
    Option (List Running) :=
  (cheatsOf program).bind fun elements => elements.mapM (load api bitness program)

/-- The cheat an entry is to become. -/
def runningFor (api : Conversion) (bitness : Bitness) (entry : AddressEntry) : Running where
  hotkey := virtualKey entry.hotkey
  cheat :=
    { moduleName := (rootedIn entry).map fun name => widen api ((narrow api name).map blank)
      base := baseOf entry % limit bitness
      offsets := (chainOffsets entry).map fun offset => asPtrdiff bitness (toUnsigned offset)
      offsetCount := (chainOffsets entry).length }
  value := entry.frozenValue
  enabled := false

end Loaded

section Loop

/-- What one pass of the loop meets: how a key is when the cheat at an index looks at it, and
the target when that cheat writes. -/
structure Moment where
  down : Nat → Nat → Bool
  view : Nat → TargetView

structure Written where
  index : Nat
  address : Nat
  value : List UInt8
  deriving DecidableEq

/-- The key of a cheat is looked at. -/
def look (down : Nat → Bool) (previousKey : Nat → Bool) (cheat : Running) :
    Running × (Nat → Bool) :=
  if cheat.hotkey ≠ 0 then
    let pressed := down cheat.hotkey && !previousKey cheat.hotkey
    ({ cheat with enabled := if pressed then !cheat.enabled else cheat.enabled },
      Function.update previousKey cheat.hotkey (down cheat.hotkey))
  else ({ cheat with enabled := true }, previousKey)

/-- `resolve` and `WriteProcessMemory`, which may fail. -/
def write (view : TargetView) (index : Nat) (cheat : Running) : List Written :=
  if cheat.enabled then
    let address := resolve view cheat.cheat
    if address = 0 then [] else [⟨index, address, cheat.value⟩]
  else []

/-- The inner loop, from the cheat at an index on. -/
def visit (moment : Moment) :
    Nat → (Nat → Bool) → List Running → List Running × (Nat → Bool) × List Written
  | _, previousKey, [] => ([], previousKey, [])
  | index, previousKey, cheat :: rest =>
      let (now, previousKey) := look (moment.down index) previousKey cheat
      let (later, previousKey, written) := visit moment (index + 1) previousKey rest
      (now :: later, previousKey, write (moment.view index) index now ++ written)

structure Loop where
  cheats : List Running
  previousKey : Nat → Bool := fun _ => false
  written : List Written := []

/-- One round of the outer loop. -/
def step (loop : Loop) (moment : Moment) : Loop :=
  let (cheats, previousKey, written) := visit moment 0 loop.previousKey loop.cheats
  { cheats, previousKey, written := loop.written ++ written }

/-- No key moves while the cheats look at it. -/
def Moment.Steady (moment : Moment) : Prop :=
  ∀ index, moment.down index = moment.down 0

/-- How often a key goes down from one round to the next. -/
def presses (key : Nat) : Bool → List Moment → Nat
  | _, [] => 0
  | before, moment :: rest =>
      (moment.down 0 key && !before).toNat + presses key (moment.down 0 key) rest

end Loop

/-! ## What is loaded -/

theorem decimal_injective {first second : Nat} (same : decimal first = decimal second) :
    first = second := by
  have read := congrArg decimalLiteral same
  rw [decimalLiteral_decimal, decimalLiteral_decimal] at read
  exact Option.some.inj read

theorem valueName_injective {first second : Nat} (same : valueName first = valueName second) :
    first = second := by
  unfold valueName at same
  exact decimal_injective (List.append_cancel_left (List.append_cancel_right same))

theorem offsetsName_injective {first second : Nat} (same : offsetsName first = offsetsName second) :
    first = second := by
  unfold offsetsName at same
  exact decimal_injective (List.append_cancel_left (List.append_cancel_right same))

theorem valuesNamed_declarations (index : Nat) {entries : List AddressEntry} {place : Nat}
    {entry : AddressEntry} (listed : entries[place]? = some entry) (rest : List Declaration) :
    valuesNamed (valueName (index + place)) (valueDeclarations index entries ++ rest) =
      some (entry.frozenValue.map UInt8.toNat) := by
  induction entries generalizing index place with
  | nil => exact nomatch listed
  | cons first later ih =>
      cases place with
      | zero =>
          cases listed
          exact if_pos rfl
      | succ place =>
          have other : valueName index ≠ valueName (index + (place + 1)) := by
            intro same
            have := valueName_injective same
            omega
          have found := ih (index + 1) listed
          rw [show index + 1 + place = index + (place + 1) by omega] at found
          rw [← found, valueDeclarations]
          split
          · exact if_neg other
          · exact if_neg other

theorem offsetsNamed_declarations (index : Nat) {entries : List AddressEntry} {place : Nat}
    {entry : AddressEntry} (listed : entries[place]? = some entry) (rest : List Declaration)
    (some_ : (chainOffsets entry).isEmpty = false) :
    offsetsNamed (offsetsName (index + place)) (valueDeclarations index entries ++ rest) =
      some ((chainOffsets entry).map toUnsigned) := by
  induction entries generalizing index place with
  | nil => exact nomatch listed
  | cons first later ih =>
      cases place with
      | zero =>
          cases listed
          rw [valueDeclarations, if_neg (by rw [some_]; exact Bool.false_ne_true)]
          exact if_pos rfl
      | succ place =>
          have other : offsetsName index ≠ offsetsName (index + (place + 1)) := by
            intro same
            have := offsetsName_injective same
            omega
          have found := ih (index + 1) listed
          rw [show index + 1 + place = index + (place + 1) by omega] at found
          rw [← found, valueDeclarations]
          split
          · rfl
          · exact if_neg other

theorem load_elementFor (api : Conversion) (bitness : Bitness) {entries : List AddressEntry}
    {index : Nat} {entry : AddressEntry} (listed : entries[index]? = some entry)
    (rest : List Declaration) :
    load api bitness (valueDeclarations 0 entries ++ rest) (elementFor api index entry) =
      some (runningFor api bitness entry) := by
  have values := valuesNamed_declarations 0 listed rest
  rw [Nat.zero_add] at values
  have offsets :
      offsetsOf (valueDeclarations 0 entries ++ rest) (elementFor api index entry).offsets =
        some ((chainOffsets entry).map toUnsigned) := by
    unfold elementFor
    simp only
    cases empty : (chainOffsets entry).isEmpty with
    | true =>
        rw [List.isEmpty_iff.mp empty]
        rfl
    | false =>
        have found := offsetsNamed_declarations 0 listed rest empty
        rw [Nat.zero_add] at found
        exact found
  unfold load
  rw [offsets, show (elementFor api index entry).value = valueName index from rfl,
    show (elementFor api index entry).valueSize = valueName index from rfl, values]
  have bytes : (entry.frozenValue.map UInt8.toNat).map UInt8.ofNat = entry.frozenValue := by
    rw [List.map_map]
    exact (List.map_congr_left fun byte _ => UInt8.ofNat_toNat).trans (List.map_id _)
  simp only [List.take_length, bytes, elementFor, Option.map_map, List.map_map]
  rfl

theorem mapM_load (api : Conversion) (bitness : Bitness) (rest : List Declaration)
    (done later : List AddressEntry) :
    (elementsFor api done.length later).mapM
        (load api bitness (valueDeclarations 0 (done ++ later) ++ rest)) =
      some (later.map (runningFor api bitness)) := by
  induction later generalizing done with
  | nil => rfl
  | cons entry later ih =>
      have next := ih (done ++ [entry])
      rw [List.length_append, List.append_assoc] at next
      have listed : (done ++ entry :: later)[done.length]? = some entry := by simp
      rw [elementsFor, List.mapM_cons, load_elementFor api bitness listed]
      have next : (elementsFor api (done.length + 1) later).mapM
          (load api bitness (valueDeclarations 0 (done ++ entry :: later) ++ rest)) =
            some (later.map (runningFor api bitness)) := next
      rw [next]
      rfl

theorem cheatsOf_declarations (index : Nat) (entries : List AddressEntry)
    (elements : List Element) :
    cheatsOf (valueDeclarations index entries ++ [.cheats elements]) = some elements := by
  induction entries generalizing index with
  | nil => rfl
  | cons first later ih =>
      rw [← ih (index + 1), valueDeclarations]
      split
      · rfl
      · rfl

/-- The trainer begins with the cheats of the address list, all off. -/
theorem loaded_dataPart {floats : FloatText} (oneLine : OneLine floats) (api : Conversion)
    (options : TrainerOptions) :
    (declarations (dataPart floats api options)).bind (loaded api options.bitness) =
      some ((cheats options).map (runningFor api options.bitness)) := by
  rw [declarations_dataPart oneLine, Option.bind_some, loaded, cheatsOf_declarations,
    Option.bind_some]
  exact mapM_load api options.bitness _ [] (cheats options)

/-! ## What the keys do -/

/-- Whether a cheat is on after a round, if no key moved in it: of the cheats that share a key, only
the first finds it just pressed. -/
def flag (down previousKey : Nat → Bool) (earlier : List Nat) (cheat : Running) : Bool :=
  if cheat.hotkey = 0 then true
  else if cheat.hotkey ∈ earlier then cheat.enabled
  else cheat.enabled ^^ (down cheat.hotkey && !previousKey cheat.hotkey)

/-- What is known of the keys after a cheat has looked at its own. -/
def seen (down previousKey : Nat → Bool) (own : Nat) (key : Nat) : Bool :=
  if key ≠ 0 ∧ key = own then down key else previousKey key

theorem look_eq (down previousKey : Nat → Bool) (cheat : Running) :
    look down previousKey cheat =
      ({ cheat with enabled := flag down previousKey [] cheat },
        seen down previousKey cheat.hotkey) := by
  unfold look flag seen
  by_cases always : cheat.hotkey = 0
  · rw [if_neg (not_not_intro always), if_pos always, always]
    have none_ (key : Nat) : ¬(key ≠ 0 ∧ key = 0) := fun both => both.1 both.2
    simp only [none_, if_false]
  · rw [if_pos always, if_neg always, if_neg List.not_mem_nil]
    refine Prod.ext ?_ (funext fun key => ?_)
    · cases pressed : down cheat.hotkey && !previousKey cheat.hotkey with
      | true => simp
      | false => simp
    · show Function.update previousKey cheat.hotkey (down cheat.hotkey) key =
        if key ≠ 0 ∧ key = cheat.hotkey then down key else previousKey key
      by_cases same : key = cheat.hotkey
      · rw [if_pos ⟨same ▸ always, same⟩, same, Function.update_self]
      · rw [if_neg fun both => same both.2, Function.update_of_ne same]

theorem flag_seen (down previousKey : Nat → Bool) (own : Nat) (earlier : List Nat)
    (cheat : Running) :
    flag down (seen down previousKey own) earlier cheat =
      flag down previousKey (own :: earlier) cheat := by
  unfold flag seen
  by_cases always : cheat.hotkey = 0
  · rw [if_pos always, if_pos always]
  · rw [if_neg always, if_neg always]
    by_cases before : cheat.hotkey ∈ earlier
    · rw [if_pos before, if_pos (List.mem_cons_of_mem _ before)]
    · rw [if_neg before]
      by_cases same : cheat.hotkey = own
      · rw [if_pos ⟨always, same⟩, if_pos (List.mem_cons.mpr (.inl same)), Bool.and_not_self,
          Bool.xor_false]
      · rw [if_neg fun both => same both.2,
          if_neg fun inside => (List.mem_cons.mp inside).elim same before]

theorem visit_cheats {moment : Moment} (steady : moment.Steady) (index : Nat)
    (previousKey : Nat → Bool) {cheats : List Running} {place : Nat} {cheat : Running}
    (listed : cheats[place]? = some cheat) :
    (visit moment index previousKey cheats).1[place]? =
      some { cheat with
        enabled := flag (moment.down 0) previousKey
          ((cheats.map Running.hotkey).take place) cheat } := by
  induction cheats generalizing index previousKey place with
  | nil => exact nomatch listed
  | cons first rest ih =>
      rw [visit, steady index, look_eq]
      cases place with
      | zero =>
          cases listed
          rfl
      | succ place =>
          have found := ih (index + 1) (seen (moment.down 0) previousKey first.hotkey) listed
          rw [flag_seen] at found
          exact found

theorem visit_previousKey {moment : Moment} (steady : moment.Steady) (index : Nat)
    (previousKey : Nat → Bool) (cheats : List Running) (key : Nat) :
    (visit moment index previousKey cheats).2.1 key =
      if key ≠ 0 ∧ key ∈ cheats.map Running.hotkey then moment.down 0 key else previousKey key := by
  induction cheats generalizing index previousKey with
  | nil => exact (if_neg fun both => List.not_mem_nil both.2).symm
  | cons first rest ih =>
      rw [visit, steady index, look_eq]
      refine (ih (index + 1) _).trans ?_
      rw [List.map_cons]
      unfold seen
      by_cases none_ : key = 0
      · rw [if_neg fun both => both.1 none_, if_neg fun both => both.1 none_,
          if_neg fun both => both.1 none_]
      · by_cases later : key ∈ rest.map Running.hotkey
        · rw [if_pos ⟨none_, later⟩, if_pos ⟨none_, List.mem_cons_of_mem _ later⟩]
        · rw [if_neg fun both => later both.2]
          by_cases same : key = first.hotkey
          · rw [if_pos ⟨none_, same⟩, if_pos ⟨none_, List.mem_cons.mpr (.inl same)⟩]
          · rw [if_neg fun both => same both.2,
              if_neg fun both => (List.mem_cons.mp both.2).elim same later]

theorem visit_length (moment : Moment) (index : Nat) (previousKey : Nat → Bool)
    (cheats : List Running) : (visit moment index previousKey cheats).1.length = cheats.length := by
  induction cheats generalizing index previousKey with
  | nil => rfl
  | cons first rest ih => exact congrArg (· + 1) (ih (index + 1) _)

theorem visit_hotkeys {moment : Moment} (steady : moment.Steady) (previousKey : Nat → Bool)
    (cheats : List Running) :
    (visit moment 0 previousKey cheats).1.map Running.hotkey = cheats.map Running.hotkey := by
  apply List.ext_getElem?
  intro place
  rw [List.getElem?_map, List.getElem?_map]
  cases listed : cheats[place]? with
  | some cheat => rw [visit_cheats steady 0 previousKey listed]; rfl
  | none =>
      have past := List.getElem?_eq_none_iff.mp listed
      rw [← visit_length moment 0 previousKey] at past
      rw [List.getElem?_eq_none_iff.mpr past]

theorem mem_write {view : TargetView} {index : Nat} {cheat : Running} {written : Written}
    (inside : written ∈ write view index cheat) :
    written.index = index ∧ cheat.enabled = true ∧ written.address = resolve view cheat.cheat ∧
      written.value = cheat.value := by
  unfold write at inside
  split at inside
  · rename_i on
    dsimp only at inside
    split at inside
    · exact absurd inside List.not_mem_nil
    · obtain rfl := List.mem_singleton.mp inside
      exact ⟨rfl, on, rfl, rfl⟩
  · exact absurd inside List.not_mem_nil

/-- Every write of a round is one of a cheat that is on. -/
theorem visit_written (moment : Moment) (index : Nat) (previousKey : Nat → Bool)
    (cheats : List Running) :
    ∀ written ∈ (visit moment index previousKey cheats).2.2, ∃ place cheat,
      written.index = index + place ∧
        (visit moment index previousKey cheats).1[place]? = some cheat ∧ cheat.enabled = true ∧
        written.address = resolve (moment.view written.index) cheat.cheat ∧
        written.value = cheat.value := by
  induction cheats generalizing index previousKey with
  | nil => exact fun _ inside => absurd inside List.not_mem_nil
  | cons first rest ih =>
      intro written inside
      rw [visit] at inside ⊢
      simp only [List.mem_append] at inside ⊢
      rcases inside with own | later
      · obtain ⟨at_, on, address, value⟩ := mem_write own
        exact ⟨0, _, at_, rfl, on, at_ ▸ address, value⟩
      · obtain ⟨place, cheat, at_, found, on, address, value⟩ := ih _ _ written later
        exact ⟨place + 1, cheat, by omega, found, on, address, value⟩


/-- The flag of a cheat after some rounds. -/
def flagAfter (moments : List Moment) (previousKey : Nat → Bool) (earlier : List Nat)
    (cheat : Running) : Bool :=
  if cheat.hotkey = 0 then cheat.enabled || !moments.isEmpty
  else if cheat.hotkey ∈ earlier then cheat.enabled
  else cheat.enabled ^^ presses cheat.hotkey (previousKey cheat.hotkey) moments % 2 == 1

theorem odd_add (flag : Bool) (count : Nat) :
    ((flag.toNat + count) % 2 == 1) = (flag ^^ count % 2 == 1) := by
  cases flag with
  | false => rw [Bool.toNat_false, Nat.zero_add, Bool.false_xor]
  | true =>
      rw [Bool.toNat_true, Bool.true_xor]
      rcases Nat.mod_two_eq_zero_or_one count with even | odd
      · have next : (1 + count) % 2 = 1 := by omega
        rw [even, next]
        rfl
      · have next : (1 + count) % 2 = 0 := by omega
        rw [odd, next]
        rfl

theorem flagAfter_nil (previousKey : Nat → Bool) (earlier : List Nat) (cheat : Running) :
    flagAfter [] previousKey earlier cheat = cheat.enabled := by
  unfold flagAfter
  split
  · exact Bool.or_false _
  · split
    · rfl
    · exact Bool.xor_false _

theorem flagAfter_cons {moment : Moment} (rest : List Moment)
    (previousKey later : Nat → Bool) (earlier : List Nat) (cheat : Running)
    (known : cheat.hotkey ≠ 0 → later cheat.hotkey = moment.down 0 cheat.hotkey) :
    flagAfter rest later earlier
        { cheat with enabled := flag (moment.down 0) previousKey earlier cheat } =
      flagAfter (moment :: rest) previousKey earlier cheat := by
  unfold flagAfter flag
  simp only
  by_cases always : cheat.hotkey = 0
  · rw [if_pos always, if_pos always, if_pos always, Bool.true_or, List.isEmpty_cons]
    exact (Bool.or_true _).symm
  · rw [if_neg always, if_neg always, if_neg always]
    by_cases before : cheat.hotkey ∈ earlier
    · rw [if_pos before, if_pos before, if_pos before]
    · rw [if_neg before, if_neg before, if_neg before, presses, odd_add, known always,
        Bool.xor_assoc]

theorem run_cheats {moments : List Moment} (steady : ∀ moment ∈ moments, moment.Steady)
    (loop : Loop) {place : Nat} {cheat : Running} (listed : loop.cheats[place]? = some cheat) :
    (run step loop moments).cheats[place]? =
      some { cheat with
        enabled := flagAfter moments loop.previousKey
          ((loop.cheats.map Running.hotkey).take place) cheat } := by
  induction moments generalizing loop cheat with
  | nil =>
      rw [flagAfter_nil]
      exact listed
  | cons moment rest ih =>
      rw [List.forall_mem_cons] at steady
      have hotkeys : (step loop moment).cheats.map Running.hotkey =
          loop.cheats.map Running.hotkey := visit_hotkeys steady.1 loop.previousKey loop.cheats
      have next := ih steady.2 (step loop moment)
        (visit_cheats steady.1 0 loop.previousKey listed)
      rw [hotkeys] at next
      refine next.trans ?_
      rw [flagAfter_cons]
      intro some_
      have own : cheat.hotkey ∈ loop.cheats.map Running.hotkey :=
        List.mem_map_of_mem (List.mem_of_getElem? listed)
      exact (visit_previousKey steady.1 0 loop.previousKey loop.cheats cheat.hotkey).trans
        (if_pos ⟨some_, own⟩)

theorem run_length (moments : List Moment) (loop : Loop) :
    (run step loop moments).cheats.length = loop.cheats.length := by
  induction moments generalizing loop with
  | nil => rfl
  | cons moment rest ih =>
      exact (ih (step loop moment)).trans (visit_length moment 0 loop.previousKey loop.cheats)

/-- Every write of a run is one that a cheat made while it was on. -/
theorem run_written {moments : List Moment} (steady : ∀ moment ∈ moments, moment.Steady)
    (start : List Running) :
    ∀ written ∈ (run step { cheats := start } moments).written,
      ∃ before moment after cheat, moments = before ++ moment :: after ∧
        start[written.index]? = some cheat ∧
        flagAfter (before ++ [moment]) (fun _ => false)
          ((start.map Running.hotkey).take written.index) cheat = true ∧
        written.address = resolve (moment.view written.index) cheat.cheat ∧
        written.value = cheat.value := by
  induction moments using List.reverseRecOn with
  | nil => exact fun _ inside => absurd inside List.not_mem_nil
  | append_singleton done moment ih =>
      intro written inside
      have same : run step { cheats := start } (done ++ [moment]) =
          step (run step { cheats := start } done) moment := List.foldl_concat ..
      rw [same] at inside
      rcases List.mem_append.mp inside with earlier | now
      · obtain ⟨before, other, after, cheat, split_, rest⟩ :=
          ih (fun one inside => steady one (List.mem_append_left _ inside)) written earlier
        refine ⟨before, other, after ++ [moment], cheat, ?_, rest⟩
        rw [split_, List.append_assoc, List.cons_append]
      · obtain ⟨place, cheat, at_, found, on, address, value⟩ := visit_written _ _ _ _ written now
        rw [Nat.zero_add] at at_
        subst at_
        have found : (run step { cheats := start } (done ++ [moment])).cheats[written.index]? =
            some cheat := by
          rw [same]
          exact found
        have inside : written.index < start.length := by
          rw [← run_length (done ++ [moment]) { cheats := start }]
          exact (List.getElem?_eq_some_iff.mp found).1
        have listed := List.getElem?_eq_getElem inside
        have shown := run_cheats steady { cheats := start } listed
        rw [found, Option.some.injEq] at shown
        subst shown
        exact ⟨done, moment, [], start[written.index], rfl, listed, on, address, value⟩

/-- The function keys of the exported entries, 0 for one without. -/
def keysOf (options : TrainerOptions) : List Nat :=
  (cheats options).map fun entry => virtualKey entry.hotkey

/-- Whether an entry's cheat is on after some rounds. -/
def onAfter (options : TrainerOptions) (moments : List Moment) (index : Nat)
    (entry : AddressEntry) : Bool :=
  let key := virtualKey entry.hotkey
  if key = 0 then !moments.isEmpty
  else if key ∈ (keysOf options).take index then false
  else presses key false moments % 2 == 1

theorem flagAfter_runningFor (api : Conversion) (options : TrainerOptions)
    (moments : List Moment) (index : Nat) (entry : AddressEntry) :
    flagAfter moments (fun _ => false)
        ((((cheats options).map (runningFor api options.bitness)).map Running.hotkey).take index)
        (runningFor api options.bitness entry) =
      onAfter options moments index entry := by
  have keys : ((cheats options).map (runningFor api options.bitness)).map Running.hotkey =
      keysOf options := by
    rw [List.map_map]
    rfl
  rw [keys]
  unfold flagAfter onAfter runningFor
  simp only [Bool.false_or, Bool.false_xor]

/-- In every run of an exported trainer in which no key moves while the cheats look at it: a cheat
without a function key is on from the first round, the first cheat of a key after an odd number of
presses, and any other cheat of that key never. Nothing is written but the frozen value of an entry
whose cheat is on, where its chain leads at that moment. -/
theorem enabled_of_presses {floats : FloatText} (oneLine : OneLine floats) (api : Conversion)
    (options : TrainerOptions) {moments : List Moment}
    (steady : ∀ moment ∈ moments, moment.Steady) :
    ∃ start, (declarations (dataPart floats api options)).bind (loaded api options.bitness) =
        some start ∧
      (∀ index entry, (cheats options)[index]? = some entry →
        ((run step { cheats := start } moments).cheats[index]?).map Running.enabled =
          some (onAfter options moments index entry)) ∧
      ∀ written ∈ (run step { cheats := start } moments).written,
        ∃ before moment after entry, moments = before ++ moment :: after ∧
          (cheats options)[written.index]? = some entry ∧
          onAfter options (before ++ [moment]) written.index entry = true ∧
          written.address = resolve (moment.view written.index)
            (runningFor api options.bitness entry).cheat ∧
          written.value = entry.frozenValue := by
  refine ⟨_, loaded_dataPart oneLine api options, ?_, ?_⟩
  · intro index entry listed
    have started : ((cheats options).map (runningFor api options.bitness))[index]? =
        some (runningFor api options.bitness entry) := by
      rw [List.getElem?_map, listed, Option.map_some]
    have shown := run_cheats steady
      { cheats := (cheats options).map (runningFor api options.bitness) } started
    rw [shown, Option.map_some, flagAfter_runningFor]
  · intro written inside
    obtain ⟨before, moment, after, cheat, split_, listed, on, address, value⟩ :=
      run_written steady _ written inside
    rw [List.getElem?_map, Option.map_eq_some_iff] at listed
    obtain ⟨entry, found, rfl⟩ := listed
    rw [flagAfter_runningFor] at on
    exact ⟨before, moment, after, entry, split_, found, on, address, value⟩

/-- `F1` is held, and every byte of the game is 1. -/
def heldOne : Moment where
  down _ key := key == 0x70
  view _ :=
    { modules := [{ base := 0x140000000, size := 0x400000, name := gameExe }]
      memory := fun _ => some 1 }

theorem enabled_of_presses_ammo :
    ∃ start, (declarations (dataPart noFloats asciiConversion { entries := [ammo] })).bind
        (loaded asciiConversion .x64) = some start ∧
      (run step { cheats := start } [heldOne]).written =
        [⟨0, 0x010101010101012D, ammo.frozenValue⟩] ∧
      (∀ index entry, (cheats { entries := [ammo] })[index]? = some entry →
        ((run step { cheats := start } [heldOne]).cheats[index]?).map Running.enabled =
          some (onAfter { entries := [ammo] } [heldOne] index entry)) ∧
      ∀ written ∈ (run step { cheats := start } [heldOne]).written,
        ∃ before moment after entry, [heldOne] = before ++ moment :: after ∧
          (cheats { entries := [ammo] })[written.index]? = some entry ∧
          onAfter { entries := [ammo] } (before ++ [moment]) written.index entry = true ∧
          written.address = resolve (moment.view written.index)
            (runningFor asciiConversion .x64 entry).cheat ∧
          written.value = entry.frozenValue := by
  have steady : ∀ moment ∈ [heldOne], moment.Steady :=
    List.forall_mem_singleton.mpr fun _ => rfl
  obtain ⟨start, read, enabled, writes⟩ :=
    @enabled_of_presses noFloats (fun _ _ => List.not_mem_nil) asciiConversion
      { entries := [ammo] } [heldOne] steady
  refine ⟨start, read, ?_, enabled, writes⟩
  rw [@loaded_dataPart noFloats fun _ _ => List.not_mem_nil] at read
  rw [← Option.some.inj read]
  decide +kernel

end PointerLab.TrainerExport
