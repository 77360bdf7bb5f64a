import PointerLab.AddressListService
import PointerLab.DissectorFields
import PointerLab.GrowingReads
import PointerLab.Revisions

set_option autoImplicit false

/- The copies that `ui/UiApp.cpp` and the log panel keep from frame to frame, and the counters of
`AddressList`, `Dissector` and `Logger` that say when to take them again. -/
namespace PointerLab.UiCaches

open Domain ProjectStore Revisions
open AddressListService (Editing)

/-- `static_cast<std::uint64_t>(-1)` -/
def never : Nat := addressSpace - 1

section AddressList

theorem changed_counts (list : AddressList) (id : Nat) (change : AddressEntry → AddressEntry) :
    (list.changed id change).2 = list ∨
      (list.changed id change).2.revision = bump list.revision := by
  rw [AddressList.changed]
  cases AddressList.changeFirst id change list.entries with
  | none => exact .inl rfl
  | some entries => exact .inr rfl

/-- A list that loses no row is the list. -/
theorem remove_counts (list : AddressList) (id : Nat) :
    (list.remove id).2 = list ∨ (list.remove id).2.revision = bump list.revision := by
  unfold AddressList.remove
  dsimp only
  split
  · rename_i length
    have kept : list.entries.filter (·.id != id) = list.entries :=
      List.filter_sublist.eq_of_length length
    exact .inl (by rw [kept])
  · exact .inr rfl

/-- The list moves its counter once for each row that is set, added or taken out. -/
def watchedEntries : Watched AddressListService.step (List AddressEntry) addressSpace where
  revision s := s.list.revision
  value s := s.list.snapshot
  counts s event := by
    have unless_ {list : AddressList}
        (counts : list = s.list ∨ list.revision = bump s.list.revision) :
        (list.snapshot = s.list.snapshot ∧ list.revision = s.list.revision) ∨
          list.revision = (s.list.revision + 1) % addressSpace := by
      rcases counts with rfl | moved
      · exact .inl ⟨rfl, rfl⟩
      · exact .inr moved
    cases event with
    | add entry => exact .inr rfl
    | remove id => exact unless_ (remove_counts s.list id)
    | replace entries => exact .inr rfl
    | call task => exact .inl ⟨rfl, rfl⟩
    | advance index answer =>
        rw [AddressListService.step]
        split
        · split
          · unfold Editing.visit
            split
            · exact .inl ⟨rfl, rfl⟩
            · exact unless_ (changed_counts s.list _ _)
          · exact .inl ⟨rfl, rfl⟩
        · exact .inl ⟨rfl, rfl⟩

/-- `cachedAddressEntries` before the first frame. -/
def noEntries : Cache Unit (List AddressEntry) := ⟨never, (), []⟩

/-- A frame shows the rows as they were at a moment of the frame, whatever other threads do to the
list before it and during it. -/
theorem entries_in_frame (history : List (Moment AddressListService.Event Unit))
    (during : List AddressListService.Event)
    (short : (history.map Moment.count).sum < addressSpace - 2) :
    let now := Runs.run (watchedEntries.next fun _ entries => entries) ({}, noEntries) history
    ∃ before, before <+: during ∧
      (watchedEntries.next (fun _ entries => entries) now (.frame () during)).2.shown =
        (Runs.run AddressListService.step now.1 before).list.snapshot := by
  have first : watchedEntries.Behind (fun _ entries => entries) 2 (({} : Editing), noEntries) :=
    ⟨by decide, by decide, 2, Nat.le_refl _, by decide, fun zero => absurd zero (by decide)⟩
  exact Watched.shown_in_frame first history () during (by omega)

theorem entries_in_frame_first :
    let now := Runs.run (watchedEntries.next fun _ entries => entries) ({}, noEntries)
      [.other (.add {})]
    ∃ before, before <+: [AddressListService.Event.remove 1] ∧
      (watchedEntries.next (fun _ entries => entries) now (.frame () [.remove 1])).2.shown =
        (Runs.run AddressListService.step now.1 before).list.snapshot :=
  entries_in_frame [.other (.add {})] [.remove 1] (by decide)

end AddressList

section Log

inductive LogLevel where
  | trace
  | info
  | warning
  | error
  deriving DecidableEq, Repr

def LogLevel.rank : LogLevel → Nat
  | .trace => 0
  | .info => 1
  | .warning => 2
  | .error => 3

structure LogRecord where
  time : Int
  level : LogLevel
  message : Text
  threadId : Nat
  deriving DecidableEq, Repr

structure Logger where
  records : List LogRecord := []
  revision : Nat := 0
  minimumLevel : LogLevel := .info
  deriving DecidableEq, Repr

def maxRecords : Nat := 5000
def trimTo : Nat := 4000

namespace Logger

def log (record : LogRecord) (logger : Logger) : Logger :=
  if record.level.rank < logger.minimumLevel.rank then logger
  else
    let records := logger.records ++ [record]
    { logger with
      records := if maxRecords < records.length then records.drop (records.length - trimTo)
        else records
      revision := bump logger.revision }

def clear (logger : Logger) : Logger :=
  { logger with records := [], revision := bump logger.revision }

def setMinimumLevel (level : LogLevel) (logger : Logger) : Logger :=
  { logger with minimumLevel := level }

end Logger

inductive LogCall where
  | log (record : LogRecord)
  | clear
  | setMinimumLevel (level : LogLevel)

def logStep (logger : Logger) : LogCall → Logger
  | .log record => logger.log record
  | .clear => logger.clear
  | .setMinimumLevel level => logger.setMinimumLevel level

def watchedRecords : Watched logStep (List LogRecord) addressSpace where
  revision logger := logger.revision
  value logger := logger.records
  counts logger call := by
    cases call with
    | log record =>
        rw [logStep, Logger.log]
        split
        · exact .inl ⟨rfl, rfl⟩
        · exact .inr rfl
    | clear => exact .inr rfl
    | setMinimumLevel level => exact .inl ⟨rfl, rfl⟩

/-- The places of the records that have the filter in them, which is in lower case. -/
def visible (filter : Text) (records : List LogRecord) : List Nat :=
  (List.range records.length).filter fun place =>
    filter.isEmpty ||
      (records[place]?.any fun record => (GrowingReads.search filter (lower record.message)).isSome)

/-- The records of the panel and which of them it shows. -/
def logRows (filter : Text) (records : List LogRecord) : List LogRecord × List Nat :=
  (records, visible filter records)

/-- The log panel before its first frame. -/
def noRows : Cache Text (List LogRecord × List Nat) := ⟨never, [], [], []⟩

/-- A frame of the log panel, which looks for what was typed in either case. -/
def renderLogPanel (state : Logger × Cache Text (List LogRecord × List Nat)) :
    Moment LogCall Text → Logger × Cache Text (List LogRecord × List Nat)
  | .other call => watchedRecords.next logRows state (.other call)
  | .frame typed during => watchedRecords.next logRows state (.frame (lower typed) during)

theorem renderLogPanel_eq (state : Logger × Cache Text (List LogRecord × List Nat))
    (moment : Moment LogCall Text) :
    renderLogPanel state moment = watchedRecords.next logRows state (moment.under lower) := by
  cases moment <;> rfl

theorem run_renderLogPanel (state : Logger × Cache Text (List LogRecord × List Nat))
    (history : List (Moment LogCall Text)) :
    Runs.run renderLogPanel state history =
      Runs.run (watchedRecords.next logRows) state (history.map (Moment.under lower)) := by
  induction history generalizing state with
  | nil => rfl
  | cons moment rest ih =>
      show Runs.run renderLogPanel (renderLogPanel state moment) rest = _
      rw [ih, renderLogPanel_eq]
      rfl

/-- The log panel shows what the typed filter leaves of the log as it was at a moment of the
frame. -/
theorem log_in_frame (history : List (Moment LogCall Text)) (typed : Text)
    (during : List LogCall) (short : (history.map Moment.count).sum < addressSpace - 1) :
    let now := Runs.run renderLogPanel ({}, noRows) history
    ∃ before, before <+: during ∧
      (renderLogPanel now (.frame typed during)).2.shown =
        logRows (lower typed) (Runs.run logStep now.1 before).records := by
  have first : watchedRecords.Behind logRows 1 (({} : Logger), noRows) :=
    ⟨by decide, by decide, 1, Nat.le_refl _, by decide, fun zero => absurd zero (by decide)⟩
  have room : 1 + ((history.map (Moment.under lower)).map Moment.count).sum < addressSpace := by
    rw [List.map_map, Moment.count_comp_under]
    omega
  rw [run_renderLogPanel]
  exact Watched.shown_in_frame first _ (lower typed) during room

theorem log_in_frame_first :
    let now := Runs.run renderLogPanel ({}, noRows) [.frame [] []]
    ∃ before, before <+: [LogCall.clear] ∧
      (renderLogPanel now (.frame ['A'] [.clear])).2.shown =
        logRows (lower ['A']) (Runs.run logStep now.1 before).records :=
  log_in_frame [.frame [] []] ['A'] [.clear] (by decide)

end Log

end PointerLab.UiCaches
