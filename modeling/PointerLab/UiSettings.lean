import PointerLab.MemoryScanner
import PointerLab.Runs
import PointerLab.SettingsFile

set_option autoImplicit false

/- The preferences of `ui/UiProject.cpp` over the launches of the program: they are read when it
starts and written when it ends, if it comes to that. -/
namespace PointerLab.UiSettings

open AtomicFile Domain Runs SettingsFile
open MemoryScanner (ScanOptions)

/-- What the machine makes of floating-point numbers of both sizes. -/
structure Singles (Double Single : Type) extends Floating Double where
  /-- `0.0001f` -/
  tolerance : Single
  widen : Single → Double
  narrow : Double → Single
  /-- `std::clamp(value, 0.0f, 1000.0f)` -/
  clamp : Single → Single

/-- The panels that can be open. -/
structure Panels where
  showMemoryViewer : Bool := true
  showDisassembly : Bool := true
  showBreakpoints : Bool := true
  showModules : Bool := true
  showMemoryRegions : Bool := true
  showLogs : Bool := true
  showPointerScanner : Bool := true
  showLuaScanner : Bool := true
  showInjection : Bool := true
  showLuaConsole : Bool := true
  deriving DecidableEq

/-- What `UiApp` keeps of the settings. -/
structure Preferences (Single : Type) where
  scanMaxResults : Int32 := 1000000
  scanFloatEpsilon : Single
  scanWritableOnly : Bool := false
  scanExecutableOnly : Bool := false
  scanTypeIndex : Int32 := 4
  pointerDepth : Int32 := 3
  pointerTypeIndex : Int32 := 4
  panels : Panels := {}
  deriving DecidableEq

/-- `std::clamp` -/
def clamp {Number : Type} [LT Number] [DecidableLT Number] (value low high : Number) : Number :=
  if value < low then low else if high < value then high else value

def typeCount : Int32 := Int32.ofNat valueTypes.length - 1

variable {Double Single : Type}

/-- `UiApp::loadSettings` -/
def loadPreferences (singles : Singles Double Single) (settings : Settings Double) :
    Preferences Single where
  scanMaxResults := Int32.ofNat (clamp settings.scanMaxResults 1000 20000000).toNat
  scanFloatEpsilon := singles.clamp (singles.narrow settings.scanFloatEpsilon)
  scanWritableOnly := settings.scanWritableOnly
  scanExecutableOnly := settings.scanExecutableOnly
  scanTypeIndex := clamp settings.scanTypeIndex 0 typeCount
  pointerDepth := clamp settings.pointerDepth 1 8
  pointerTypeIndex := clamp settings.pointerTypeIndex 0 typeCount
  panels :=
    { showMemoryViewer := settings.showMemoryViewer
      showDisassembly := settings.showDisassembly
      showBreakpoints := settings.showBreakpoints
      showModules := settings.showModules
      showMemoryRegions := settings.showMemoryRegions
      showLogs := settings.showLogs
      showPointerScanner := settings.showPointerScanner
      showLuaScanner := settings.showLuaScanner
      showInjection := settings.showInjection
      showLuaConsole := settings.showLuaConsole }

/-- What `UiApp::loadSettings` hands the scan job. -/
def scanOptions (singles : Singles Double Single) (preferences : Preferences Single) :
    ScanOptions Double where
  maxResults := preferences.scanMaxResults.toNatClampNeg
  writableOnly := preferences.scanWritableOnly
  executableOnly := preferences.scanExecutableOnly
  floatEpsilon := singles.widen preferences.scanFloatEpsilon

/-- What `UiApp::saveSettings` writes. -/
def savedSettings (singles : Singles Double Single) (preferences : Preferences Single) :
    Settings Double where
  scanMaxResults := UInt64.ofInt preferences.scanMaxResults.toInt
  scanFloatEpsilon := singles.widen preferences.scanFloatEpsilon
  scanWritableOnly := preferences.scanWritableOnly
  scanExecutableOnly := preferences.scanExecutableOnly
  scanTypeIndex := preferences.scanTypeIndex
  pointerDepth := preferences.pointerDepth
  pointerTypeIndex := preferences.pointerTypeIndex
  showMemoryViewer := preferences.panels.showMemoryViewer
  showDisassembly := preferences.panels.showDisassembly
  showBreakpoints := preferences.panels.showBreakpoints
  showModules := preferences.panels.showModules
  showMemoryRegions := preferences.panels.showMemoryRegions
  showLogs := preferences.panels.showLogs
  showPointerScanner := preferences.panels.showPointerScanner
  showLuaScanner := preferences.panels.showLuaScanner
  showInjection := preferences.panels.showInjection
  showLuaConsole := preferences.panels.showLuaConsole

/-- What the widgets allow. -/
structure InRange (singles : Singles Double Single) (preferences : Preferences Single) : Prop where
  results : 1000 ≤ preferences.scanMaxResults ∧ preferences.scanMaxResults ≤ 20000000
  epsilon : singles.clamp preferences.scanFloatEpsilon = preferences.scanFloatEpsilon
  type : 0 ≤ preferences.scanTypeIndex ∧ preferences.scanTypeIndex ≤ typeCount
  depth : 1 ≤ preferences.pointerDepth ∧ preferences.pointerDepth ≤ 8
  pointer : 0 ≤ preferences.pointerTypeIndex ∧ preferences.pointerTypeIndex ≤ typeCount

/-- What the machine promises of its numbers. -/
structure Singles.Lawful (singles : Singles Double Single) : Prop where
  narrow_widen : ∀ value, singles.narrow (singles.widen value) = value
  clamp_clamp : ∀ value, singles.clamp (singles.clamp value) = singles.clamp value

theorem clamp_eq {Number : Type} [LT Number] [LE Number] [DecidableLT Number]
    (lt : ∀ left right : Number, left < right ↔ ¬ right ≤ left) {value low high : Number}
    (within : low ≤ value ∧ value ≤ high) : clamp value low high = value := by
  rw [clamp, if_neg (by simp [lt, within]), if_neg (by simp [lt, within])]

theorem clamp_within {low high : Int32} (proper : low ≤ high) (value : Int32) :
    low ≤ clamp value low high ∧ clamp value low high ≤ high := by
  unfold clamp
  simp only [Int32.le_iff_toInt_le, Int32.lt_iff_toInt_lt] at *
  split
  · omega
  · split <;> omega

/-- The limit as a number. -/
theorem toNat_limit (value : UInt64) :
    (clamp value 1000 20000000).toNat = max 1000 (min value.toNat 20000000) := by
  have low : (1000 : UInt64).toNat = 1000 := rfl
  have high : (20000000 : UInt64).toNat = 20000000 := rfl
  unfold clamp
  simp only [UInt64.lt_iff_toNat_lt]
  split
  · omega
  · split <;> omega

theorem toInt_limit (value : UInt64) :
    (Int32.ofNat (clamp value 1000 20000000).toNat).toInt =
      max 1000 (min value.toNat 20000000) := by
  rw [toNat_limit, Int32.toInt_ofNat_of_lt (by omega)]

theorem limit_within (value : UInt64) :
    1000 ≤ Int32.ofNat (clamp value 1000 20000000).toNat ∧
      Int32.ofNat (clamp value 1000 20000000).toNat ≤ 20000000 := by
  have number := toInt_limit value
  have low : (1000 : Int32).toInt = 1000 := rfl
  have high : (20000000 : Int32).toInt = 20000000 := rfl
  simp only [Int32.le_iff_toInt_le]
  omega

theorem limit_kept {value : Int32} (within : 1000 ≤ value ∧ value ≤ 20000000) :
    Int32.ofNat (clamp (UInt64.ofInt value.toInt) 1000 20000000).toNat = value := by
  have low : (1000 : Int32).toInt = 1000 := rfl
  have high : (20000000 : Int32).toInt = 20000000 := rfl
  simp only [Int32.le_iff_toInt_le] at within
  apply Int32.toInt_inj.mp
  have size : UInt64.size = 2 ^ 64 := rfl
  have whole : (UInt64.ofInt value.toInt).toNat = value.toInt.toNat := by
    rw [UInt64.ofInt, UInt64.toNat_ofNat_of_lt' (by omega)]
    omega
  rw [toInt_limit, whole]
  omega

section Launches

variable {singles : Singles Double Single}

/-- Whatever the settings are, the widgets would allow what becomes of them. -/
theorem inRange_loadPreferences (lawful : singles.Lawful) (settings : Settings Double) :
    InRange singles (loadPreferences singles settings) where
  results := limit_within settings.scanMaxResults
  epsilon := lawful.clamp_clamp _
  type := clamp_within (by decide) settings.scanTypeIndex
  depth := clamp_within (by decide) settings.pointerDepth
  pointer := clamp_within (by decide) settings.pointerTypeIndex

/-- What the widgets allow is not changed on the way. -/
theorem loadPreferences_savedSettings (lawful : singles.Lawful) {preferences : Preferences Single}
    (inRange : InRange singles preferences) :
    loadPreferences singles (savedSettings singles preferences) = preferences := by
  have lt (left right : Int32) : left < right ↔ ¬ right ≤ left := Int32.not_le.symm
  have epsilon : singles.clamp (singles.narrow (singles.widen preferences.scanFloatEpsilon)) =
      preferences.scanFloatEpsilon := by
    rw [lawful.narrow_widen, inRange.epsilon]
  unfold loadPreferences savedSettings
  simp only [limit_kept inRange.results, epsilon, clamp_eq lt inRange.type,
    clamp_eq lt inRange.depth, clamp_eq lt inRange.pointer]

variable (singles) (path : String)

/-- What a launch has, with this on the disk. -/
def launch (disk : Disk) : Preferences Single :=
  loadPreferences singles (loadSettings singles.toFloating (disk path)).settings

/-- One run of the program: the preferences it ends with, which the widgets allow, how writing
them goes, and after how many steps of that the process dies, if it does. -/
structure Session where
  preferences : Preferences Single
  inRange : InRange singles preferences
  prints : singles.Prints (singles.widen preferences.scanFloatEpsilon)
  weather : Weather
  died : Option Nat

variable {singles}

/-- `UiApp::saveSettings` -/
def Session.save (session : Session singles) : Routine Disk Bool :=
  saveSettings singles.toFloating session.weather path (savedSettings singles session.preferences)

/-- What a session leaves on the disk. -/
def Session.leaves (disk : Disk) (session : Session singles) : Disk :=
  match session.died with
  | none => ((session.save path).finish disk).1
  | some steps => ((session.save path).passes disk).getD steps ((session.save path).finish disk).1

/-- What `saveSettings` tells, if the process lives on. -/
def Session.told (disk : Disk) (session : Session singles) : Option Bool :=
  match session.died with
  | none => some ((session.save path).finish disk).2
  | some _ => none

/-- What a session leaves is a state on the way of its save. -/
theorem leaves_mem_passes (disk : Disk) (session : Session singles) :
    session.leaves path disk ∈ (session.save path).passes disk := by
  have ended := (session.save path).finish_mem_passes disk
  unfold Session.leaves
  cases session.died with
  | none => exact ended
  | some steps =>
      simp only [List.getD_eq_getElem?_getD]
      cases found : ((session.save path).passes disk)[steps]? with
      | none => exact ended
      | some met => exact List.mem_of_getElem? found

theorem passes_saveSettings {floating : Floating Double} {weather : Weather}
    {settings : Settings Double} {disk met : Disk}
    (inside : met ∈ (saveSettings floating weather path settings).passes disk) :
    met path = disk path ∨
      met path = some (OpenMode.text.encode (settingsText floating settings)) := by
  have stage : Stage path (OpenMode.text.encode (settingsText floating settings)) disk met := by
    rcases Routine.mem_passes_bind inside with writing | written
    · exact writeFileAtomically_stage writing
    · rw [List.mem_singleton.mp written]
      exact writeFileAtomically_stage (Routine.finish_mem_passes _ _)
  cases stage with
  | before elsewhere => exact .inl (elsewhere path (path_ne_temporary path))
  | after replaced => exact .inr replaced

/-- The answer depends on nothing that is on the disk. -/
theorem told_eq (disk : Disk) (session : Session singles) :
    session.told path disk = if session.died.isNone then some session.weather.fair else none := by
  have answer : ((session.save path).finish disk).2 = session.weather.fair := by
    rw [Session.save, saveSettings, Routine.finish_bind]
    exact (writeFileAtomically_finish _ _ _ _ disk).1
  unfold Session.told
  cases session.died with
  | none => simp only [answer, Option.isNone_none, if_true]
  | some steps => rfl

/-- A session is remembered, or it is as if it had not been. Who was told that the settings were
saved is remembered, and who was told that they were not is not. -/
theorem launch_leaves (lawful : singles.Lawful) (disk : Disk) (session : Session singles) :
    (launch singles path (session.leaves path disk) = launch singles path disk ∧
        session.told path disk ≠ some true) ∨
      (launch singles path (session.leaves path disk) = session.preferences ∧
        session.told path disk ≠ some false) := by
  have old {met : Disk} (same : met path = disk path) :
      launch singles path met = launch singles path disk := by rw [launch, same, launch]
  have new {met : Disk} (replaced : met path = some (OpenMode.text.encode
      (settingsText singles.toFloating (savedSettings singles session.preferences)))) :
      launch singles path met = session.preferences := by
    rw [launch, replaced, loadSettings_text session.prints]
    exact loadPreferences_savedSettings lawful session.inRange
  cases died : session.died with
  | none =>
      have told : session.told path disk = some session.weather.fair := by
        rw [told_eq, died]
        rfl
      have ended : session.leaves path disk path =
          if session.weather.fair then some (OpenMode.text.encode (settingsText singles.toFloating
            (savedSettings singles session.preferences))) else disk path := by
        rw [Session.leaves, died]
        simp only [Session.save, saveSettings, Routine.finish_bind]
        exact (writeFileAtomically_finish _ _ _ _ disk).2
      cases fair : session.weather.fair with
      | false =>
          rw [fair, if_neg Bool.false_ne_true] at ended
          exact .inl ⟨old ended, by rw [told, fair]; decide⟩
      | true =>
          rw [fair, if_pos rfl] at ended
          exact .inr ⟨new ended, by rw [told, fair]; decide⟩
  | some steps =>
      have told : session.told path disk = none := by
        rw [told_eq, died]
        rfl
      rcases passes_saveSettings path (leaves_mem_passes path disk session) with before | after
      · exact .inl ⟨old before, by rw [told]; exact nofun⟩
      · exact .inr ⟨new after, by rw [told]; exact nofun⟩

theorem launch_run (lawful : singles.Lawful) (disk : Disk)
    (sessions : List (Session singles)) :
    (launch singles path (run (Session.leaves path) disk sessions) = launch singles path disk ∧
        ∀ session ∈ sessions, ∀ found, session.told path found ≠ some true) ∨
      ∃ before session after, sessions = before ++ session :: after ∧
        launch singles path (run (Session.leaves path) disk sessions) = session.preferences ∧
        (∀ found, session.told path found ≠ some false) ∧
        ∀ later ∈ after, ∀ found, later.told path found ≠ some true := by
  induction sessions using List.reverseRecOn with
  | nil => exact .inl ⟨rfl, fun _ inside => absurd inside List.not_mem_nil⟩
  | append_singleton sessions last ih =>
      have anywhere {answer : Option Bool} {met : Disk} (told : last.told path met ≠ answer)
          (found : Disk) : last.told path found ≠ answer := by
        rwa [told_eq, ← told_eq path met]
      have step : run (Session.leaves path) disk (sessions ++ [last]) =
          last.leaves path (run (Session.leaves path) disk sessions) := by
        rw [run, List.foldl_append]
        rfl
      rw [step]
      rcases launch_leaves path lawful (run (Session.leaves path) disk sessions) last with
        ⟨same, told⟩ | ⟨new, told⟩
      · rw [same]
        rcases ih with ⟨first, nobody⟩ | ⟨before, session, after, split, launched, kept, nobody⟩
        · exact .inl ⟨first, List.forall_mem_append.mpr
            ⟨nobody, List.forall_mem_singleton.mpr (anywhere told)⟩⟩
        · refine .inr ⟨before, session, after ++ [last], ?_, launched, kept, ?_⟩
          · rw [split, List.append_assoc, List.cons_append]
          · exact List.forall_mem_append.mpr
              ⟨nobody, List.forall_mem_singleton.mpr (anywhere told)⟩
      · exact .inr ⟨sessions, last, [], rfl, new, anywhere told,
          fun _ inside => absurd inside List.not_mem_nil⟩

/-- A launch finds the preferences of one earlier session, whole, in the range that the widgets
allow, and no session after that one was told that its own were saved. -/
theorem launch_remembers (lawful : singles.Lawful) (disk : Disk)
    (sessions : List (Session singles)) :
    InRange singles (launch singles path (run (Session.leaves path) disk sessions)) ∧
    ((launch singles path (run (Session.leaves path) disk sessions) = launch singles path disk ∧
        ∀ session ∈ sessions, ∀ found, session.told path found ≠ some true) ∨
      ∃ before session after, sessions = before ++ session :: after ∧
        launch singles path (run (Session.leaves path) disk sessions) = session.preferences ∧
        (∀ found, session.told path found ≠ some false) ∧
        ∀ later ∈ after, ∀ found, later.told path found ≠ some true) :=
  ⟨inRange_loadPreferences lawful _, launch_run path lawful disk sessions⟩

/-- Two doubles, `0.0001` and the single number nearest to it, and that single number. -/
def twoTolerances : Singles Bool Unit where
  epsilon := false
  format value := if value then "9.9999997473787516e-05".toList else "0.0001".toList
  strtod text :=
    if text == "9.9999997473787516e-05".toList then some (true, [])
    else if text == "0.0001".toList then some (false, [])
    else none
  tolerance := ()
  widen _ := true
  narrow _ := ()
  clamp := id

/-- A session that closes a panel and is saved. -/
def closesLogs : Session twoTolerances where
  preferences := { scanFloatEpsilon := (), panels := { showLogs := false } }
  inRange := ⟨by decide, rfl, by decide, by decide, by decide⟩
  prints := ⟨by decide, by decide⟩
  weather := { reaches := [20] }
  died := none

/-- A session that dies while its settings are written. -/
def diesWriting : Session twoTolerances where
  preferences := { scanFloatEpsilon := (), pointerDepth := 8 }
  inRange := ⟨by decide, rfl, by decide, by decide, by decide⟩
  prints := ⟨by decide, by decide⟩
  weather := { reaches := [20, 40] }
  died := some 2

theorem launch_remembers_closed :
    let found := launch twoTolerances "settings.ini"
      (run (Session.leaves "settings.ini") (fun _ => none) [closesLogs, diesWriting])
    InRange twoTolerances found ∧
      (found = closesLogs.preferences ∨ found = diesWriting.preferences) := by
  obtain ⟨inRange, ⟨_, untold⟩ | ⟨before, session, after, cut, found, _⟩⟩ :=
    @launch_remembers _ _ twoTolerances "settings.ini" ⟨fun _ => rfl, fun _ => rfl⟩
      (fun _ => none) [closesLogs, diesWriting]
  · exact absurd (told_eq _ _ closesLogs) (untold _ List.mem_cons_self fun _ => none)
  · have listed : session ∈ [closesLogs, diesWriting] := cut ▸ List.mem_append_cons_self
    refine ⟨inRange, ?_⟩
    rcases List.mem_cons.mp listed with rfl | last
    · exact .inl found
    · exact .inr (List.mem_singleton.mp last ▸ found)

end Launches

end PointerLab.UiSettings
