import PointerLab.ProjectStoreRoundTrip
import PointerLab.TrainerExport

set_option autoImplicit false

/- The `resolve` of a trainer beside `resolveChain`: both follow a chain through the same
memory, but only one of them stops at a null pointer, and only one of them adds in the width
of the target. -/
namespace PointerLab.TrainerExport

open Domain ProjectStore TargetView PointerScanner

/-- No character of the name is lost in a string literal or ends it. -/
def Plain (name : WideText) : Prop :=
  ∀ unit ∈ name, unit ≠ 0 ∧ unit ≠ 0x09 ∧ unit ≠ 0x0A ∧ unit ≠ 0x0D

/-- A process of a pointer width: what is mapped into it is within its addresses. -/
structure Target where
  bitness : Bitness
  modules : List ModuleInfo
  memory : Nat → Option UInt8
  inWidth : ∀ address, limit bitness ≤ address → memory address = none
  placed : ∀ module ∈ modules, module.base < limit bitness
  named : ∀ module ∈ modules, Plain module.name

def Target.view (target : Target) : TargetView where
  bitness := target.bitness
  modules := target.modules
  memory := target.memory

/-- What the conversions do with a name that a literal can hold: UTF-8 has its line breaks
and tabs where the name has them, and is read back as the name. -/
structure Encodes (api : Conversion) (name : WideText) : Prop where
  plain : Plain name → ∀ c ∈ narrow api name, c ≠ '\n' ∧ c ≠ '\r' ∧ c ≠ '\t'
  reads : Plain name → widen api (narrow api name) = name

section Path

/-- A place a chain is read at, and the pointer found there. -/
structure Stop where
  sum : Int
  pointer : Nat
  deriving DecidableEq

/-- A sum in the arithmetic of a program of a bitness. -/
def wrap (bitness : Bitness) (sum : Int) : Nat := (sum % limit bitness).toNat

/-- Following a chain as the target itself would: every stop on the way and the last sum,
if all of it can be read. -/
def path (view : TargetView) : Int → List Int → Option (List Stop × Int)
  | sum, [] => some ([], sum)
  | sum, offset :: rest =>
      match readPointer view (wrap view.bitness sum) with
      | .error _ => none
      | .ok pointer =>
          (path view (pointer + offset) rest).map fun (stops, last) =>
            (⟨sum, pointer⟩ :: stops, last)

/-- As a 64-bit number the sum is an address of the target. -/
def InWidth (bitness : Bitness) (sum : Int) : Prop := sum % addressSpace < limit bitness

def Stop.Clean (bitness : Bitness) (stop : Stop) : Prop :=
  stop.pointer ≠ 0 ∧ InWidth bitness stop.sum

/-- The constant for an offset is the offset, in the arithmetic of the trainer. -/
theorem asPtrdiff_toUnsigned (bitness : Bitness) (offset : Int) :
    asPtrdiff bitness (toUnsigned offset) % limit bitness = offset % limit bitness := by
  unfold asPtrdiff toUnsigned
  simp only
  split <;> cases bitness <;> simp only [limit, addressSpace] at * <;> omega

theorem wrap_add_asPtrdiff (bitness : Bitness) (pointer : Nat) (offset : Int) :
    ((pointer + asPtrdiff bitness (toUnsigned offset)) % limit bitness).toNat =
      wrap bitness (pointer + offset) := by
  rw [wrap, Int.add_emod, asPtrdiff_toUnsigned, ← Int.add_emod]

/-- The loop of the trainer follows the path, and answers 0 where it ends too soon. -/
theorem follow_eq (view : TargetView) (sum : Int) (offsets : List Int) :
    follow view (wrap view.bitness sum)
        (offsets.map fun offset => asPtrdiff view.bitness (toUnsigned offset)) =
      match path view sum offsets with
      | none => 0
      | some (_, last) => wrap view.bitness last := by
  induction offsets generalizing sum with
  | nil => rfl
  | cons offset rest ih =>
      unfold path readPointer
      simp only [List.map_cons, follow]
      rcases view.readBytes (wrap view.bitness sum) (pointerSize view.bitness) with failure | bytes
      · rfl
      · simp only [bne_iff_ne, ne_eq]
        by_cases whole : bytes.length = pointerSize view.bitness
        · simp only [whole, not_true_eq_false, ↓reduceIte, wrap_add_asPtrdiff, ih]
          rcases path view (littleEndian bytes + offset) rest with _ | ⟨stops, last⟩ <;> rfl
        · simp only [whole, not_false_eq_true, ↓reduceIte]
          rfl

theorem wrap_of_inWidth {bitness : Bitness} {sum : Int} (within : InWidth bitness sum) :
    (sum % addressSpace).toNat = wrap bitness sum := by
  cases bitness
  · simp only [InWidth, wrap, limit, addressSpace] at within ⊢
    omega
  · rfl

variable (target : Target)

/-- Nothing is read past the addresses of the target. -/
theorem readPointer_past {address : Nat} (past : limit target.bitness ≤ address) :
    ∃ failure, readPointer target.view address = .error failure := by
  have nothing : readable target.view.memory address (pointerSize target.view.bitness) = [] := by
    cases pointerSize target.view.bitness with
    | zero => rfl
    | succ size =>
        unfold readable
        rw [show target.view.memory address = none from target.inWidth address past]
  have wide : (pointerSize target.view.bitness != 0) = true := by
    cases target.view.bitness <;> rfl
  have unread : target.view.readBytes address (pointerSize target.view.bitness) = fail "" 299 := by
    have attached : (!target.view.attached) = false := rfl
    simp only [readBytes, attached, nothing, List.isEmpty_nil, wide, Bool.and_self,
      Bool.false_eq_true, ↓reduceIte]
  unfold readPointer
  simp only [unread]
  exact ⟨_, rfl⟩

/-- The engine comes to the end of a clean path, and nowhere else. -/
theorem walk_cases (sum : Int) (offsets : List Int) :
    (∃ stops last, path target.view sum offsets = some (stops, last) ∧
      (∀ stop ∈ stops, stop.Clean target.bitness) ∧
      walk target.view (sum % addressSpace).toNat offsets = .ok (last % addressSpace).toNat) ∨
    (∃ failure, walk target.view (sum % addressSpace).toNat offsets = .error failure) ∧
      ∀ stops last, path target.view sum offsets = some (stops, last) →
        ¬ ∀ stop ∈ stops, stop.Clean target.bitness := by
  induction offsets generalizing sum with
  | nil => exact Or.inl ⟨[], sum, rfl, fun _ => nofun, rfl⟩
  | cons offset rest ih =>
      by_cases within : InWidth target.bitness sum
      · have address : (sum % addressSpace).toNat = wrap target.view.bitness sum :=
          wrap_of_inWidth within
        rw [address]
        unfold path walk
        rcases found : readPointer target.view (wrap target.view.bitness sum) with
          failure | pointer
        · exact Or.inr ⟨⟨_, rfl⟩, fun _ _ => nofun⟩
        · simp only
          by_cases null : pointer = 0
          · rw [if_pos null]
            refine Or.inr ⟨⟨_, rfl⟩, ?_⟩
            intro stops last is clean
            obtain ⟨⟨later, _⟩, _, same⟩ := Option.map_eq_some_iff.mp is
            cases same
            exact (clean _ List.mem_cons_self).1 null
          · rw [if_neg null]
            rcases ih (pointer + offset) with ⟨stops, last, is, clean, ends⟩ | ⟨fails, dirty⟩
            · rw [is]
              refine Or.inl ⟨_, _, rfl, ?_, ends⟩
              exact List.forall_mem_cons.mpr ⟨⟨null, within⟩, clean⟩
            · refine Or.inr ⟨fails, ?_⟩
              intro stops last is clean
              obtain ⟨⟨later, end_⟩, isLater, same⟩ := Option.map_eq_some_iff.mp is
              cases same
              exact dirty later end_ isLater (List.forall_mem_cons.mp clean).2
      · have past : limit target.bitness ≤ (sum % addressSpace).toNat := by
          unfold InWidth at within
          unfold addressSpace at within ⊢
          omega
        obtain ⟨failure, unread⟩ := readPointer_past target past
        refine Or.inr ⟨?_, ?_⟩
        · unfold walk
          rw [unread]
          exact ⟨_, rfl⟩
        · intro stops last is clean
          unfold path at is
          split at is
          · cases is
          · obtain ⟨⟨later, _⟩, _, same⟩ := Option.map_eq_some_iff.mp is
            cases same
            exact within (clean _ List.mem_cons_self).2

end Path

section Chain

/-- The first sum of a chain: 0 is no module. -/
def startOf (view : TargetView) (name : Option WideText) (moduleOffset : Nat) : Option Int :=
  match name with
  | none => some moduleOffset
  | some name =>
      if moduleBase view name = 0 then none else some ((moduleBase view name : Int) + moduleOffset)

/-- The address a failure is told by. -/
def orZero : Result Nat → Nat
  | .ok address => address
  | .error _ => 0

/-- The constants of a chain make `resolve` follow its path. -/
theorem resolve_eq (view : TargetView) (api : Conversion) (chain : PointerChain) :
    resolve view
        { moduleName := writtenName api chain
          base := chain.moduleOffset % limit view.bitness
          offsets := chain.offsets.map fun offset => asPtrdiff view.bitness (toUnsigned offset)
          offsetCount := chain.offsets.length } =
      match startOf view (writtenName api chain) chain.moduleOffset with
      | none => 0
      | some start =>
          match path view start chain.offsets with
          | none => 0
          | some (_, last) => wrap view.bitness last := by
  have all : (chain.offsets.map fun offset => asPtrdiff view.bitness (toUnsigned offset)).take
      chain.offsets.length =
        chain.offsets.map fun offset => asPtrdiff view.bitness (toUnsigned offset) :=
    List.take_of_length_le (List.length_map _).le
  unfold resolve startOf
  rw [all]
  cases writtenName api chain with
  | none =>
      have base : chain.moduleOffset % limit view.bitness =
          wrap view.bitness chain.moduleOffset := by
        rw [wrap, ← Int.natCast_emod, Int.toNat_natCast]
      simp only
      rw [base]
      exact follow_eq view chain.moduleOffset chain.offsets
  | some name =>
      simp only
      split
      · rfl
      · have base : (chain.moduleOffset % limit view.bitness + moduleBase view name) %
            limit view.bitness =
              wrap view.bitness ((moduleBase view name : Int) + chain.moduleOffset) := by
          rw [Nat.mod_add_mod, Nat.add_comm, wrap, ← Int.natCast_add, ← Int.natCast_emod,
            Int.toNat_natCast]
        rw [base]
        exact follow_eq view _ chain.offsets

theorem moduleBase_none {view : TargetView} {name : WideText}
    (missing : view.modules.find? (fun module => sameName module.name name) = none) :
    moduleBase view name = 0 := by
  rw [moduleBase, missing]

/-- A module of a process is found where it is. -/
theorem moduleBase_some (target : Target) {name : WideText} {module : ModuleInfo}
    (found : target.view.modules.find? (fun module => sameName module.name name) = some module) :
    moduleBase target.view name = module.base := by
  rw [moduleBase, found]
  exact Nat.mod_eq_of_lt (target.placed module (List.mem_of_find?_eq_some found))

theorem eq_of_toLowerWide {unit low : UInt16} (small : low.toNat < 0x41)
    (same : toLowerWide unit = low) : unit = low := by
  unfold toLowerWide at same
  split at same
  · rename_i upper
    simp only [Bool.and_eq_true, decide_eq_true_eq, UInt16.le_iff_toNat_le] at upper
    have sum := congrArg UInt16.toNat same
    rw [UInt16.toNat_add] at sum
    have constants : (0x41 : UInt16).toNat = 0x41 ∧ (0x5A : UInt16).toNat = 0x5A ∧
        (0x20 : UInt16).toNat = 0x20 := by decide
    omega
  · exact same

/-- A name that a literal cannot hold is no module's. -/
theorem find?_not_plain (target : Target) {name : WideText} (mangled : ¬ Plain name) :
    target.view.modules.find? (fun module => sameName module.name name) = none := by
  rw [List.find?_eq_none]
  intro module inside same
  refine mangled fun unit isUnit => ?_
  have lower : module.name.map toLowerWide = name.map toLowerWide := by
    simpa [sameName] using same
  have inLower : toLowerWide unit ∈ module.name.map toLowerWide :=
    lower ▸ List.mem_map_of_mem isUnit
  obtain ⟨other, isOther, sameUnit⟩ := List.mem_map.mp inLower
  obtain ⟨noNul, noTab, noFeed, noReturn⟩ := target.named module inside other isOther
  refine ⟨?_, ?_, ?_, ?_⟩
  · rintro rfl
    exact noNul (eq_of_toLowerWide (by decide) sameUnit)
  · rintro rfl
    exact noTab (eq_of_toLowerWide (by decide) sameUnit)
  · rintro rfl
    exact noFeed (eq_of_toLowerWide (by decide) sameUnit)
  · rintro rfl
    exact noReturn (eq_of_toLowerWide (by decide) sameUnit)

variable {api : Conversion} {target : Target} {chain : PointerChain}

/-- A plain name is compiled into itself. -/
theorem writtenName_plain (encodes : Encodes api chain.moduleName)
    (plain : Plain chain.moduleName) :
    writtenName api chain = if chain.moduleRooted then some chain.moduleName else none := by
  have kept : (narrow api chain.moduleName).map blank = narrow api chain.moduleName := by
    conv_rhs => rw [← List.map_id (narrow api chain.moduleName)]
    refine List.map_congr_left fun c inside => ?_
    obtain ⟨noFeed, noReturn, noTab⟩ := encodes.plain plain c inside
    simp [blank, noFeed, noReturn, noTab]
  rw [writtenName, kept, encodes.reads plain]

/-- The engine goes the same way from a chain it takes. -/
theorem resolveChain_plain (encodes : Encodes api chain.moduleName)
    (plain : Plain chain.moduleName) (valid : chain.valid = true) :
    orZero (resolveChain target.view (narrow api) chain) =
      match startOf target.view (writtenName api chain) chain.moduleOffset with
      | none => 0
      | some start => orZero (walk target.view (start % addressSpace).toNat chain.offsets) := by
  have attached : (!target.view.attached) = false := rfl
  rw [writtenName_plain encodes plain]
  unfold resolveChain
  simp only [attached, valid, Bool.not_true, Bool.false_eq_true, ↓reduceIte]
  cases rooted : chain.moduleRooted with
  | false =>
      simp only [Bool.false_eq_true, ↓reduceIte, Bool.false_and, startOf, Nat.zero_add]
      rw [← Int.natCast_emod, Int.toNat_natCast]
  | true =>
      simp only [↓reduceIte, Bool.true_and, beq_iff_eq, startOf]
      rcases found : target.view.modules.find? fun module =>
        sameName module.name chain.moduleName with _ | module
      · simp only [found, moduleBase_none found, ↓reduceIte]
        rfl
      · simp only [found, moduleBase_some target found]
        by_cases zero : module.base = 0
        · simp only [zero, ↓reduceIte]
          rfl
        · simp only [zero, ↓reduceIte]
          rw [← Int.natCast_add, ← Int.natCast_emod, Int.toNat_natCast]

/-- The engine takes no other chain. -/
theorem resolveChain_refused (refused : ¬ (Plain chain.moduleName ∧ chain.valid = true)) :
    orZero (resolveChain target.view (narrow api) chain) = 0 := by
  have attached : (!target.view.attached) = false := rfl
  unfold resolveChain
  simp only [attached, Bool.false_eq_true, ↓reduceIte]
  by_cases valid : chain.valid = true
  · have mangled : ¬ Plain chain.moduleName := fun plain => refused ⟨plain, valid⟩
    have rooted : chain.moduleRooted = true := by
      cases empty : chain.moduleName with
      | nil =>
          rw [empty] at mangled
          exact absurd (fun _ => nofun) mangled
      | cons => simp [PointerChain.moduleRooted, empty]
    simp only [valid, rooted, find?_not_plain target mangled, Bool.not_true, Bool.false_eq_true,
      ↓reduceIte, Bool.true_and, beq_self_eq_true]
    rfl
  · simp only [valid, Bool.not_false, ↓reduceIte]
    rfl

/-- The trainer writes where the engine says, and nowhere when the engine says nothing. -/
def Agrees (api : Conversion) (target : Target) (chain : PointerChain) : Prop :=
  ∃ cheat, compile api target.bitness (initializer api chain) = some cheat ∧
    (∀ address, resolveChain target.view (narrow api) chain = .ok address →
      resolve target.view cheat = address) ∧
    ∀ failure, resolveChain target.view (narrow api) chain = .error failure →
      resolve target.view cheat = 0

/-- The chain is one the engine takes, and no stop on its way is a null pointer or is out of
reach for the target. -/
structure Clean (target : Target) (chain : PointerChain) (stops : List Stop) : Prop where
  plain : Plain chain.moduleName
  valid : chain.valid = true
  stops : ∀ stop ∈ stops, stop.Clean target.bitness

/-- If the chain can be followed to its end at all, the way is clean and ends within the
target's addresses, or it is not clean and ends at 0. -/
def Harmless (api : Conversion) (target : Target) (chain : PointerChain) : Prop :=
  ∀ start stops last,
    startOf target.view (writtenName api chain) chain.moduleOffset = some start →
    path target.view start chain.offsets = some (stops, last) →
      Clean target chain stops ∧ InWidth target.bitness last ∨
        ¬ Clean target chain stops ∧ wrap target.bitness last = 0

theorem agrees_iff_orZero :
    Agrees api target chain ↔
      (match startOf target.view (writtenName api chain) chain.moduleOffset with
        | none => 0
        | some start =>
            match path target.view start chain.offsets with
            | none => 0
            | some (_, last) => wrap target.bitness last) =
        orZero (resolveChain target.view (narrow api) chain) := by
  have compiles := compile_initializer api target.bitness chain
  have resolves := resolve_eq target.view api chain
  constructor
  · rintro ⟨cheat, compiled, answers, refuses⟩
    obtain rfl := Option.some.inj (compiled.symm.trans compiles)
    refine resolves.symm.trans ?_
    rcases engine : resolveChain target.view (narrow api) chain with failure | address
    · exact refuses failure engine
    · exact answers address engine
  · intro same
    refine ⟨_, compiles, ?_, ?_⟩
    · intro address engine
      rw [engine] at same
      exact resolves.trans same
    · intro failure engine
      rw [engine] at same
      exact resolves.trans same

theorem wrap_eq_iff (bitness : Bitness) (sum : Int) :
    wrap bitness sum = (sum % addressSpace).toNat ↔ InWidth bitness sum := by
  refine ⟨fun same => ?_, fun within => (wrap_of_inWidth within).symm⟩
  cases bitness
  · simp only [InWidth, wrap, limit, addressSpace] at same ⊢
    omega
  · simp only [InWidth, limit]
    unfold addressSpace
    omega

/-- What the engine answers on a way that can be followed to its end. -/
theorem orZero_resolveChain (encodes : Encodes api chain.moduleName) {start last : Int}
    {stops : List Stop}
    (starts : startOf target.view (writtenName api chain) chain.moduleOffset = some start)
    (followed : path target.view start chain.offsets = some (stops, last)) :
    (Clean target chain stops → orZero (resolveChain target.view (narrow api) chain) =
        (last % addressSpace).toNat) ∧
      (¬ Clean target chain stops → orZero (resolveChain target.view (narrow api) chain) = 0) := by
  by_cases taken : Plain chain.moduleName ∧ chain.valid = true
  · have engine := @resolveChain_plain api target chain encodes taken.1 taken.2
    rw [starts] at engine
    rw [engine]
    rcases walk_cases target start chain.offsets with
      ⟨stops_, last_, same, clean, ends⟩ | ⟨⟨failure, fails⟩, dirty⟩
    · obtain ⟨rfl, rfl⟩ := Prod.mk.inj (Option.some.inj (followed.symm.trans same))
      simp only [ends]
      exact ⟨fun _ => rfl, fun unclean => absurd ⟨taken.1, taken.2, clean⟩ unclean⟩
    · simp only [fails]
      exact ⟨fun clean => absurd clean.stops (dirty stops last followed), fun _ => rfl⟩
  · have engine := @resolveChain_refused api target chain taken
    exact ⟨fun clean => absurd ⟨clean.plain, clean.valid⟩ taken, fun _ => engine⟩

/-- Where there is no way to follow, the engine has nothing either. -/
theorem orZero_resolveChain_none (encodes : Encodes api chain.moduleName)
    (nowhere : ∀ start, startOf target.view (writtenName api chain) chain.moduleOffset =
      some start → path target.view start chain.offsets = none) :
    orZero (resolveChain target.view (narrow api) chain) = 0 := by
  by_cases taken : Plain chain.moduleName ∧ chain.valid = true
  · have engine := @resolveChain_plain api target chain encodes taken.1 taken.2
    rw [engine]
    rcases starts : startOf target.view (writtenName api chain) chain.moduleOffset with _ | start
    · rfl
    · simp only
      rcases walk_cases target start chain.offsets with
        ⟨stops, last, followed, _, _⟩ | ⟨⟨failure, fails⟩, _⟩
      · exact absurd ((nowhere start starts).symm.trans followed) (by simp)
      · rw [fails]
        rfl
  · exact @resolveChain_refused api target chain taken

/-- The two walks agree exactly on the chains that are harmless. -/
theorem agrees_iff (api : Conversion) (target : Target) (chain : PointerChain)
    (encodes : Encodes api chain.moduleName) :
    Agrees api target chain ↔ Harmless api target chain := by
  rw [agrees_iff_orZero, Harmless]
  rcases starts : startOf target.view (writtenName api chain) chain.moduleOffset with _ | start
  · have none_ : orZero (resolveChain target.view (narrow api) chain) = 0 :=
      orZero_resolveChain_none encodes (by rw [starts]; exact fun _ => nofun)
    exact iff_of_true none_.symm fun _ _ _ => nofun
  · simp only [Option.some.injEq]
    rcases followed : path target.view start chain.offsets with _ | ⟨stops, last⟩
    · have none_ : orZero (resolveChain target.view (narrow api) chain) = 0 := by
        refine orZero_resolveChain_none encodes ?_
        intro other same
        obtain rfl := Option.some.inj (starts.symm.trans same)
        exact followed
      refine iff_of_true none_.symm ?_
      rintro _ stops last rfl same
      exact absurd (followed.symm.trans same) (by simp)
    · obtain ⟨ofClean, ofUnclean⟩ := orZero_resolveChain encodes starts followed
      have only : (∀ other stops_ last_, start = other →
          path target.view other chain.offsets = some (stops_, last_) →
          Clean target chain stops_ ∧ InWidth target.bitness last_ ∨
            ¬ Clean target chain stops_ ∧ wrap target.bitness last_ = 0) ↔
          (Clean target chain stops ∧ InWidth target.bitness last ∨
            ¬ Clean target chain stops ∧ wrap target.bitness last = 0) := by
        constructor
        · exact fun all => all start stops last rfl followed
        · rintro here _ stops_ last_ rfl same
          obtain ⟨rfl, rfl⟩ := Prod.mk.inj (Option.some.inj (followed.symm.trans same))
          exact here
      rw [only]
      by_cases clean : Clean target chain stops
      · rw [ofClean clean]
        simp only [clean, true_and, not_true_eq_false, false_and, or_false]
        exact wrap_eq_iff _ _
      · rw [ofUnclean clean]
        simp only [clean, false_and, not_false_eq_true, true_and, false_or]

end Chain

def gameExe : WideText := "game.exe".toList.map fun c => UInt16.ofNat c.toNat

theorem encodes_gameExe : Encodes asciiConversion gameExe where
  plain := by
    have all : ((narrow asciiConversion gameExe).all fun c =>
        c != '\n' && c != '\r' && c != '\t') = true := by decide +kernel
    intro _ c inside
    simpa [and_assoc] using List.all_eq_true.mp all c inside
  reads := fun _ => by decide +kernel

theorem plain_gameExe : Plain gameExe := by
  have all : (gameExe.all fun unit =>
      unit != 0 && unit != 0x09 && unit != 0x0A && unit != 0x0D) = true := by decide +kernel
  intro unit inside
  simpa [and_assoc] using List.all_eq_true.mp all unit inside

/-- Bytes at an address and nothing else. -/
def bytesAt (start : Nat) (bytes : List UInt8) (address : Nat) : Option UInt8 :=
  if start ≤ address then bytes[address - start]? else none

theorem bytesAt_past {start : Nat} {bytes : List UInt8} {address : Nat}
    (past : start + bytes.length ≤ address) : bytesAt start bytes address = none := by
  unfold bytesAt
  split
  · exact List.getElem?_eq_none (by omega)
  · rfl

/-- A 32-bit process with a pointer to a pointer. -/
def twoHops : Target where
  bitness := .x86
  modules := [{ base := 0x400000, size := 0x2000, name := gameExe }]
  memory address := (bytesAt 0x401000 [0x08, 0x00, 0x50, 0x00] address).or
    (bytesAt 0x500000 [0x00, 0x00, 0x60, 0x00] address)
  inWidth address past := by
    unfold limit at past
    rw [bytesAt_past (le_trans (by decide) past), bytesAt_past (le_trans (by decide) past)]
    rfl
  placed := by decide
  named module inside := by
    rw [List.mem_singleton.mp inside]
    exact plain_gameExe

theorem agrees_iff_twoHops :
    Agrees asciiConversion twoHops
      { moduleName := gameExe, moduleOffset := 0x1000, offsets := [-8, 0x20] } := by
  refine (agrees_iff asciiConversion twoHops
    { moduleName := gameExe, moduleOffset := 0x1000, offsets := [-8, 0x20] }
    encodes_gameExe).mpr ?_
  intro start stops last starts followed
  have begins : startOf twoHops.view (writtenName asciiConversion
      { moduleName := gameExe, moduleOffset := 0x1000, offsets := [-8, 0x20] }) 0x1000 =
        some 0x401000 := by decide +kernel
  obtain rfl := Option.some.inj (begins.symm.trans starts)
  have way : path twoHops.view 0x401000 [-8, 0x20] =
      some ([⟨0x401000, 0x500008⟩, ⟨0x500000, 0x600000⟩], 0x600020) := by decide +kernel
  obtain ⟨rfl, rfl⟩ := Prod.mk.inj (Option.some.inj (way.symm.trans followed))
  refine Or.inl ⟨⟨plain_gameExe, by decide +kernel, ?_⟩, ?_⟩
  · unfold Stop.Clean InWidth
    decide +kernel
  · unfold InWidth
    decide +kernel

/-- A 64-bit process with a null pointer. -/
def nullPointer : Target where
  bitness := .x64
  modules := [{ base := 0x140000000, size := 0x2000, name := gameExe }]
  memory := bytesAt 0x140001000 [0, 0, 0, 0, 0, 0, 0, 0]
  inWidth address past := by
    unfold limit addressSpace at past
    exact bytesAt_past (le_trans (by decide) past)
  placed := by decide
  named module inside := by
    rw [List.mem_singleton.mp inside]
    exact plain_gameExe

theorem nullPointer_is_followed :
    resolveChain nullPointer.view (narrow asciiConversion)
        { moduleName := gameExe, moduleOffset := 0x1000, offsets := [0x20] } =
      fail "The chain broke: a null pointer at 0x140001000." ∧
    (compile asciiConversion .x64 (initializer asciiConversion
        { moduleName := gameExe, moduleOffset := 0x1000, offsets := [0x20] })).map
      (resolve nullPointer.view) = some 0x20 ∧
    ¬ Agrees asciiConversion nullPointer
        { moduleName := gameExe, moduleOffset := 0x1000, offsets := [0x20] } := by
  have engine : resolveChain nullPointer.view (narrow asciiConversion)
        { moduleName := gameExe, moduleOffset := 0x1000, offsets := [0x20] } =
      fail "The chain broke: a null pointer at 0x140001000." := by decide +kernel
  have trainer : (compile asciiConversion .x64 (initializer asciiConversion
        { moduleName := gameExe, moduleOffset := 0x1000, offsets := [0x20] })).map
      (resolve nullPointer.view) = some 0x20 := by decide +kernel
  refine ⟨engine, trainer, ?_⟩
  rintro ⟨cheat, compiled, _, refuses⟩
  have zero := refuses _ engine
  rw [show nullPointer.bitness = .x64 from rfl] at compiled
  rw [compiled, Option.map_some, zero] at trainer
  exact absurd trainer (by decide)

end PointerLab.TrainerExport
