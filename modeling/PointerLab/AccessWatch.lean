import PointerLab.Domain
import PointerLab.Runs
import Mathlib.Data.List.Nodup
import Mathlib.Algebra.BigOperators.Group.List.Basic
import Mathlib.Algebra.GroupWithZero.Nat

set_option autoImplicit false

/- `engine_debug/AccessWatch.cpp`: which instructions touch the watched address, counted
by where they trap, while hits arrive on several threads. -/
namespace PointerLab

open Domain Runs

structure AccessSite where
  address : Nat := 0
  text : Text := []
  bytes : List UInt8 := []
  hitCount : Nat := 0
  lastContext : RegisterContext := {}
  trapAddress : Nat := 0
  instructionResolved : Bool := false
  deriving DecidableEq, Repr

structure AccessWatch where
  active : Bool := false
  watched : Nat := 0
  length : Nat := 1
  kind : BreakpointKind := .hardwareWrite
  sites : List (Nat × AccessSite) := []
  totalHits : Nat := 0
  truncated : Bool := false
  deriving DecidableEq, Repr

/-- An instruction of the target, as the disassembler shows it. -/
structure Decoded where
  address : Nat
  text : Text
  bytes : List UInt8
  deriving DecidableEq, Repr

/-- What a critical section of `record` made of the hit. -/
inductive Outcome where
  | ignored
  | counted
  | dropped
  | unseen
  deriving DecidableEq, Repr

namespace AccessWatch

def maxSites : Nat := 256

/-- `begin`. -/
def start (address length : Nat) (kind : BreakpointKind) (_ : AccessWatch) : AccessWatch :=
  { active := true, watched := address, length, kind }

def stop (watch : AccessWatch) : AccessWatch := { watch with active := false }

def clear (watch : AccessWatch) : AccessWatch :=
  { watch with sites := [], totalHits := 0, truncated := false }

def traps (watch : AccessWatch) : List Nat := watch.sites.map (·.1)

/-- One more hit at a site. -/
def hitSite (context : RegisterContext) (site : AccessSite) : AccessSite :=
  { site with hitCount := bump site.hitCount, lastContext := context }

/-- One more hit at the site of the trap. -/
def hitAgain (trap : Nat) (context : RegisterContext) (sites : List (Nat × AccessSite)) :
    List (Nat × AccessSite) :=
  sites.map fun entry => if entry.1 = trap then (entry.1, hitSite context entry.2) else entry

/-- The first critical section of `record`. -/
def arrive (context : RegisterContext) (watch : AccessWatch) : AccessWatch × Outcome :=
  let trap := context.registers.rip
  if !watch.active then (watch, .ignored)
  else if trap ∈ watch.traps then
    ({ watch with
        sites := hitAgain trap context watch.sites
        totalHits := bump watch.totalHits }, .counted)
  else if maxSites ≤ watch.sites.length then
    ({ watch with truncated := true, totalHits := bump watch.totalHits }, .dropped)
  else (watch, .unseen)

/-- The site of a new trap, from what the target showed outside the lock. -/
def resolve (dataWatch : Bool) (found : Option Decoded) (context : RegisterContext) :
    AccessSite :=
  let trap := context.registers.rip
  match found with
  | some decoded =>
      { address := decoded.address, text := decoded.text, bytes := decoded.bytes
        hitCount := 1, lastContext := context, trapAddress := trap, instructionResolved := true }
  | none =>
      { address := trap
        text := if dataWatch then "(could not identify the accessing instruction)".toList
          else "(could not decode this instruction)".toList
        hitCount := 1, lastContext := context, trapAddress := trap }

/-- The second critical section of `record`. -/
def settle (context : RegisterContext) (site : AccessSite) (watch : AccessWatch) :
    AccessWatch × Outcome :=
  let trap := context.registers.rip
  if !watch.active then (watch, .ignored)
  else if trap ∈ watch.traps then
    ({ watch with
        sites := hitAgain trap context watch.sites
        totalHits := bump watch.totalHits }, .counted)
  else
    ({ watch with
        sites := watch.sites ++ [(trap, site)]
        totalHits := bump watch.totalHits }, .counted)

/-- The sum of the sites' counts, as a 64-bit number. -/
def siteHits (watch : AccessWatch) : Nat :=
  (watch.sites.map (·.2.hitCount)).sum % addressSpace

/-- How far a call of `record` is. -/
inductive Stage where
  | reported
  | unseen
  | looked (dataWatch : Bool)
  deriving DecidableEq, Repr

/-- A hit on its way through the callback, and the period it was reported in. -/
structure Flight where
  context : RegisterContext
  period : Nat
  stage : Stage := .reported
  deriving DecidableEq, Repr

def Flight.trap (flight : Flight) : Nat := flight.context.registers.rip

/-- A hit that has been counted. -/
structure Counted where
  trap : Nat
  period : Nat
  dropped : Bool
  deriving DecidableEq, Repr

/-- The watch and the calls under way. `period` and `counted` are beside the program: how
often the counts have been reset, and which hits have been counted since. -/
structure Watching where
  watch : AccessWatch := {}
  flights : List Flight := []
  period : Nat := 0
  counted : List Counted := []
  deriving DecidableEq, Repr

inductive Event where
  | start (address length : Nat) (kind : BreakpointKind)
  | stop
  | clear
  | report (address : Nat) (context : RegisterContext)
  | arrive (index : Nat)
  | look (index : Nat)
  | settle (index : Nat) (found : Option Decoded)

/-- The counts are reset. -/
def Watching.reset (s : Watching) (watch : AccessWatch) : Watching :=
  { s with watch, period := s.period + 1, counted := [] }

/-- A state in which one more hit has been counted. -/
def Watching.count (s : Watching) (flight : Flight) (dropped : Bool) (watch : AccessWatch)
    (flights : List Flight) : Watching :=
  { s with
    watch, flights
    counted := s.counted ++ [{ trap := flight.trap, period := flight.period, dropped }] }

/-- A critical section of the flight at the index. -/
def Watching.land (s : Watching) (index : Nat) (flight : Flight) :
    AccessWatch × Outcome → Watching
  | (watch, .ignored) => { s with watch, flights := s.flights.eraseIdx index }
  | (watch, .counted) => s.count flight false watch (s.flights.eraseIdx index)
  | (watch, .dropped) => s.count flight true watch (s.flights.eraseIdx index)
  | (watch, .unseen) =>
      { s with watch, flights := s.flights.set index { flight with stage := .unseen } }

def step (s : Watching) : Event → Watching
  | .start address length kind => s.reset (s.watch.start address length kind)
  | .stop => { s with watch := s.watch.stop }
  | .clear => s.reset s.watch.clear
  | .report address context =>
      -- The callback lets through what was captured at the address under watch.
      if context.captured && address == s.watch.watched then
        { s with flights := s.flights ++ [{ context, period := s.period }] }
      else s
  | .arrive index =>
      match s.flights[index]? with
      | some flight =>
          if flight.stage = .reported then s.land index flight (s.watch.arrive flight.context)
          else s
      | none => s
  | .look index =>
      match s.flights[index]? with
      | some flight =>
          if flight.stage = .unseen then
            let dataWatch := s.watch.kind != .hardwareExecute
            { s with flights := s.flights.set index { flight with stage := .looked dataWatch } }
          else s
      | none => s
  | .settle index found =>
      match s.flights[index]? with
      | some flight =>
          match flight.stage with
          | .looked dataWatch =>
              s.land index flight
                (s.watch.settle flight.context (resolve dataWatch found flight.context))
          | _ => s
      | none => s

/-- The hits counted at a site. -/
def hitsAt (counted : List Counted) (trap : Nat) : Nat :=
  counted.countP fun hit => hit.trap == trap && !hit.dropped

/-- The hits dropped because of the site cap. -/
def droppedHits (counted : List Counted) : Nat := counted.countP (·.dropped)

/-- The counts account for the hits of the present period, and for these only. -/
structure Consistent (s : Watching) : Prop where
  current : ∀ hit ∈ s.counted, hit.period = s.period
  total : s.watch.totalHits = s.counted.length % addressSpace
  sites : ∀ entry ∈ s.watch.sites, entry.2.trapAddress = entry.1 ∧
    entry.2.hitCount = hitsAt s.counted entry.1 % addressSpace
  placed : ∀ hit ∈ s.counted, hit.dropped = false → hit.trap ∈ s.watch.traps
  sum : s.watch.totalHits = (s.watch.siteHits + droppedHits s.counted) % addressSpace
  distinct : s.watch.traps.Nodup
  capped : s.watch.sites.length ≤ maxSites

/-- A section that counts a hit runs in the period the hit was reported in, and one that
adds a site finds room for it. -/
def Timely (s : Watching) : Event → Prop
  | .arrive index => ∀ flight, s.flights[index]? = some flight → flight.stage = .reported →
      s.watch.active = true → flight.trap ∈ s.watch.traps ∨ maxSites ≤ s.watch.sites.length →
        flight.period = s.period
  | .settle index _ => ∀ flight dataWatch, s.flights[index]? = some flight →
      flight.stage = .looked dataWatch → s.watch.active = true →
        flight.period = s.period ∧
          (flight.trap ∈ s.watch.traps ∨ s.watch.sites.length < maxSites)
  | _ => True

theorem hitAgain_traps (trap : Nat) (context : RegisterContext) (sites : List (Nat × AccessSite)) :
    (hitAgain trap context sites).map (·.1) = sites.map (·.1) := by
  rw [hitAgain, List.map_map]
  apply List.map_congr_left
  intro entry _
  show (if entry.1 = trap then _ else _ : Nat × AccessSite).1 = entry.1
  split <;> rfl

theorem hitAgain_elsewhere {trap : Nat} {context : RegisterContext}
    {sites : List (Nat × AccessSite)} (absent : trap ∉ sites.map (·.1)) :
    hitAgain trap context sites = sites := by
  apply (List.map_congr_left ?_).trans (List.map_id _)
  intro entry inSites
  have other : entry.1 ≠ trap := fun same => absent (same ▸ List.mem_map_of_mem inSites)
  simp [other]

/-- Counting one further commutes with the 64-bit remainder. -/
theorem bump_mod (count : Nat) : bump (count % addressSpace) = (count + 1) % addressSpace :=
  Nat.mod_add_mod count addressSpace 1

/-- The counts of the sites grow by the one hit. -/
theorem hitAgain_sum {trap : Nat} {context : RegisterContext} {sites : List (Nat × AccessSite)}
    (distinct : (sites.map (·.1)).Nodup) (present : trap ∈ sites.map (·.1)) :
    ((hitAgain trap context sites).map (·.2.hitCount)).sum % addressSpace =
      ((sites.map (·.2.hitCount)).sum + 1) % addressSpace := by
  induction sites with
  | nil => exact absurd present List.not_mem_nil
  | cons entry rest ih =>
      rw [List.map_cons, List.nodup_cons] at distinct
      by_cases here : entry.1 = trap
      · have rest_ := @hitAgain_elsewhere trap context rest (here ▸ distinct.1)
        rw [hitAgain] at rest_ ⊢
        rw [List.map_cons, rest_]
        simp only [here, if_true, List.map_cons, List.sum_cons, hitSite, bump]
        rw [Nat.mod_add_mod, Nat.add_right_comm]
      · have later : trap ∈ rest.map (·.1) := by
          simpa [Ne.symm here] using present
        have grown := ih distinct.2 later
        rw [hitAgain] at grown ⊢
        simp only [List.map_cons, here, if_false, List.sum_cons]
        rw [Nat.add_mod, grown, ← Nat.add_mod, Nat.add_assoc]

theorem mem_hitAgain {trap : Nat} {context : RegisterContext} {sites : List (Nat × AccessSite)}
    {entry : Nat × AccessSite} (present : entry ∈ hitAgain trap context sites) :
    ∃ site, (entry.1, site) ∈ sites ∧
      entry.2 = if entry.1 = trap then hitSite context site else site := by
  obtain ⟨old, inSites, same⟩ := List.mem_map.mp present
  by_cases here : old.1 = trap
  · rw [if_pos here] at same
    exact ⟨old.2, same ▸ inSites, same ▸ (if_pos here).symm⟩
  · rw [if_neg here] at same
    exact ⟨old.2, same ▸ inSites, same ▸ (if_neg here).symm⟩

theorem hitsAt_concat (counted : List Counted) (hit : Counted) (trap : Nat) :
    hitsAt (counted ++ [hit]) trap =
      hitsAt counted trap + if hit.trap = trap ∧ hit.dropped = false then 1 else 0 := by
  simp [hitsAt, List.countP_append, List.countP_singleton]

theorem droppedHits_concat (counted : List Counted) (hit : Counted) :
    droppedHits (counted ++ [hit]) = droppedHits counted + if hit.dropped then 1 else 0 := by
  simp [droppedHits, List.countP_append, List.countP_singleton]

/-- What any counted hit adds to, with the sites as they are afterwards. -/
theorem count_current {s : Watching} (consistent : Consistent s) {flight : Flight}
    (timely : flight.period = s.period) (dropped : Bool) (watch : AccessWatch)
    (flights : List Flight) :
    ∀ hit ∈ (s.count flight dropped watch flights).counted, hit.period = s.period := by
  intro hit inCounted
  cases List.mem_append.mp inCounted with
  | inl earlier => exact consistent.current hit earlier
  | inr last =>
      rw [List.mem_singleton.mp last]
      exact timely

theorem count_total {s : Watching} (consistent : Consistent s) (flight : Flight) (dropped : Bool)
    (watch : AccessWatch) (flights : List Flight) :
    bump s.watch.totalHits =
      (s.count flight dropped watch flights).counted.length % addressSpace := by
  rw [consistent.total, bump_mod, Watching.count, List.length_append, List.length_singleton]

/-- The sites stay, and a hit that is not dropped has one. -/
theorem count_placed {s : Watching} (consistent : Consistent s) {flight : Flight} {dropped : Bool}
    {watch : AccessWatch} (stay : ∀ trap ∈ s.watch.traps, trap ∈ watch.traps)
    (sited : dropped = false → flight.trap ∈ watch.traps) (flights : List Flight) :
    ∀ hit ∈ (s.count flight dropped watch flights).counted, hit.dropped = false →
      hit.trap ∈ watch.traps := by
  intro hit inCounted kept
  cases List.mem_append.mp inCounted with
  | inl earlier => exact stay hit.trap (consistent.placed hit earlier kept)
  | inr last =>
      rw [List.mem_singleton.mp last] at kept ⊢
      exact sited kept

/-- A hit goes to the sites or to those dropped. -/
theorem count_sum {s : Watching} (consistent : Consistent s) (flight : Flight) {dropped : Bool}
    {watch : AccessWatch}
    (sites : watch.siteHits = (s.watch.siteHits + if dropped then 0 else 1) % addressSpace)
    (flights : List Flight) :
    bump s.watch.totalHits =
      (watch.siteHits + droppedHits (s.count flight dropped watch flights).counted) %
        addressSpace := by
  rw [consistent.sum, bump_mod, Watching.count, droppedHits_concat, sites, Nat.mod_add_mod]
  cases dropped with
  | false => simp only [Bool.false_eq_true, if_false, Nat.add_zero, Nat.add_right_comm]
  | true => simp only [if_true, Nat.add_zero, Nat.add_assoc]

/-- A hit at a site that is there. -/
theorem consistent_again {s : Watching} (consistent : Consistent s) {flight : Flight}
    (present : flight.trap ∈ s.watch.traps) (context : RegisterContext) (flights : List Flight) :
    Consistent
        (s.count flight false
          { s.watch with
            sites := hitAgain flight.trap context s.watch.sites
            totalHits := bump s.watch.totalHits } flights) ↔
      flight.period = s.period := by
  constructor
  · intro after
    exact after.current _ (List.mem_append_right _ List.mem_cons_self)
  · intro timely
    have traps := hitAgain_traps flight.trap context s.watch.sites
    constructor
    · exact count_current consistent timely _ _ _
    · exact count_total consistent flight false _ flights
    · intro entry inSites
      obtain ⟨site, before, same⟩ := mem_hitAgain inSites
      obtain ⟨trapped, count⟩ := consistent.sites _ before
      rw [Watching.count, hitsAt_concat, same]
      by_cases here : entry.1 = flight.trap
      · rw [if_pos here, if_pos ⟨here.symm, rfl⟩, ← bump_mod, ← count]
        exact ⟨trapped, rfl⟩
      · rw [if_neg here, if_neg fun both => here both.1.symm, Nat.add_zero]
        exact ⟨trapped, count⟩
    · apply count_placed consistent
      · intro trap inSites
        show trap ∈ (hitAgain _ _ _).map _
        rwa [traps]
      · intro _
        show flight.trap ∈ (hitAgain _ _ _).map _
        rwa [traps]
    · apply count_sum consistent flight
      rw [siteHits, siteHits, Nat.mod_add_mod]
      exact hitAgain_sum consistent.distinct present
    · show ((hitAgain _ _ _).map _).Nodup
      rw [traps]
      exact consistent.distinct
    · show (hitAgain _ _ _).length ≤ maxSites
      rw [hitAgain, List.length_map]
      exact consistent.capped

/-- A hit that the cap turned away. -/
theorem consistent_dropped {s : Watching} (consistent : Consistent s) {flight : Flight}
    (flights : List Flight) :
    Consistent
        (s.count flight true
          { s.watch with truncated := true, totalHits := bump s.watch.totalHits } flights) ↔
      flight.period = s.period := by
  constructor
  · intro after
    exact after.current _ (List.mem_append_right _ List.mem_cons_self)
  · intro timely
    constructor
    · exact count_current consistent timely _ _ _
    · exact count_total consistent flight true _ flights
    · intro entry inSites
      rw [Watching.count, hitsAt_concat, if_neg fun both => nomatch both.2, Nat.add_zero]
      exact consistent.sites entry inSites
    · apply count_placed consistent
      · exact fun _ inSites => inSites
      · exact fun kept => nomatch kept
    · apply count_sum consistent flight
      exact (Nat.mod_mod _ _).symm
    · exact consistent.distinct
    · exact consistent.capped

/-- A first hit at a new site. -/
theorem consistent_new {s : Watching} (consistent : Consistent s) {flight : Flight}
    (absent : flight.trap ∉ s.watch.traps) {site : AccessSite} (one : site.hitCount = 1)
    (trapped : site.trapAddress = flight.trap) (flights : List Flight) :
    Consistent
        (s.count flight false
          { s.watch with
            sites := s.watch.sites ++ [(flight.trap, site)]
            totalHits := bump s.watch.totalHits } flights) ↔
      flight.period = s.period ∧ s.watch.sites.length < maxSites := by
  have grown : (s.watch.sites ++ [(flight.trap, site)]).length = s.watch.sites.length + 1 := by
    rw [List.length_append, List.length_singleton]
  constructor
  · intro after
    refine ⟨after.current _ (List.mem_append_right _ List.mem_cons_self), ?_⟩
    have capped := after.capped
    change (s.watch.sites ++ [(flight.trap, site)]).length ≤ maxSites at capped
    rw [grown] at capped
    exact capped
  · rintro ⟨timely, room⟩
    have before : hitsAt s.counted flight.trap = 0 := by
      rw [hitsAt, List.countP_eq_zero]
      intro hit inCounted here
      rw [Bool.and_eq_true, beq_iff_eq, Bool.not_eq_true'] at here
      exact absent (here.1 ▸ consistent.placed hit inCounted here.2)
    constructor
    · exact count_current consistent timely _ _ _
    · exact count_total consistent flight false _ flights
    · intro entry inSites
      rw [Watching.count, hitsAt_concat]
      cases List.mem_append.mp inSites with
      | inl old =>
          have other : flight.trap ≠ entry.1 := fun same =>
            absent (same ▸ List.mem_map_of_mem old)
          rw [if_neg fun both => other both.1, Nat.add_zero]
          exact consistent.sites entry old
      | inr last =>
          rw [List.mem_singleton.mp last, before, if_pos ⟨rfl, rfl⟩]
          exact ⟨trapped, one⟩
    · apply count_placed consistent
      · intro trap inSites
        rw [traps, List.map_append]
        exact List.mem_append_left _ inSites
      · intro _
        rw [traps, List.map_append]
        exact List.mem_append_right _ List.mem_cons_self
    · apply count_sum consistent flight
      rw [siteHits, siteHits, Nat.mod_add_mod]
      show ((s.watch.sites ++ [(flight.trap, site)]).map _).sum % addressSpace = _
      rw [List.map_append, List.sum_append, List.map_singleton, List.sum_singleton, one]
      rfl
    · show ((s.watch.sites ++ [(flight.trap, site)]).map _).Nodup
      rw [List.map_append, List.nodup_append_comm]
      exact List.nodup_cons.mpr ⟨absent, consistent.distinct⟩
    · show (s.watch.sites ++ [(flight.trap, site)]).length ≤ maxSites
      rw [grown]
      exact room

/-- Only the counts matter, not the calls under way or whether the watch is active. -/
theorem Consistent.congr {s after : Watching} (consistent : Consistent s)
    (sites : after.watch.sites = s.watch.sites) (total : after.watch.totalHits = s.watch.totalHits)
    (period : after.period = s.period) (counted : after.counted = s.counted) :
    Consistent after := by
  constructor
  · rw [counted, period]
    exact consistent.current
  · rw [total, counted]
    exact consistent.total
  · rw [sites, counted]
    exact consistent.sites
  · rw [counted, traps, sites]
    exact consistent.placed
  · rw [total, siteHits, sites, counted]
    exact consistent.sum
  · rw [traps, sites]
    exact consistent.distinct
  · rw [sites]
    exact consistent.capped

theorem consistent_empty {s : Watching} (sites : s.watch.sites = []) (total : s.watch.totalHits = 0)
    (counted : s.counted = []) : Consistent s := by
  constructor <;> simp [sites, total, counted, traps, siteHits, droppedHits]

/-- A first critical section keeps the counts right exactly when it is timely. -/
theorem arrive_consistent {s : Watching} (consistent : Consistent s) (index : Nat)
    (flight : Flight) :
    Consistent (s.land index flight (s.watch.arrive flight.context)) ↔
      (s.watch.active = true →
        flight.trap ∈ s.watch.traps ∨ maxSites ≤ s.watch.sites.length →
          flight.period = s.period) := by
  rw [arrive]
  split_ifs with inactive present full
  · rw [Bool.not_eq_true'] at inactive
    simp only [inactive, Bool.false_eq_true, false_implies, iff_true]
    exact consistent.congr rfl rfl rfl rfl
  · rw [Bool.not_eq_true, Bool.not_eq_false'] at inactive
    have counts : flight.trap ∈ s.watch.traps ∨ maxSites ≤ s.watch.sites.length := .inl present
    rw [forall_prop_of_true inactive, forall_prop_of_true counts]
    exact consistent_again consistent present flight.context _
  · rw [Bool.not_eq_true, Bool.not_eq_false'] at inactive
    have counts : flight.trap ∈ s.watch.traps ∨ maxSites ≤ s.watch.sites.length := .inr full
    rw [forall_prop_of_true inactive, forall_prop_of_true counts]
    exact consistent_dropped consistent _
  · have waits : ¬ (flight.trap ∈ s.watch.traps ∨ maxSites ≤ s.watch.sites.length) :=
      not_or.mpr ⟨present, full⟩
    simp only [waits, false_implies, implies_true, iff_true]
    exact consistent.congr rfl rfl rfl rfl

/-- A second one too. -/
theorem settle_consistent {s : Watching} (consistent : Consistent s) (index : Nat)
    (flight : Flight) (dataWatch : Bool) (found : Option Decoded) :
    Consistent (s.land index flight
        (s.watch.settle flight.context (resolve dataWatch found flight.context))) ↔
      (s.watch.active = true →
        flight.period = s.period ∧
          (flight.trap ∈ s.watch.traps ∨ s.watch.sites.length < maxSites)) := by
  have one : (resolve dataWatch found flight.context).hitCount = 1 := by
    cases found <;> rfl
  have trapped : (resolve dataWatch found flight.context).trapAddress = flight.trap := by
    cases found <;> rfl
  rw [settle]
  split_ifs with inactive present
  · rw [Bool.not_eq_true'] at inactive
    simp only [inactive, Bool.false_eq_true, false_implies, iff_true]
    exact consistent.congr rfl rfl rfl rfl
  · rw [Bool.not_eq_true, Bool.not_eq_false'] at inactive
    have room : flight.trap ∈ s.watch.traps ∨ s.watch.sites.length < maxSites := .inl present
    rw [forall_prop_of_true inactive, and_iff_left room]
    exact consistent_again consistent present flight.context _
  · rw [Bool.not_eq_true, Bool.not_eq_false'] at inactive
    have absent : flight.trap ∉ s.watch.traps := present
    rw [forall_prop_of_true inactive, or_iff_right absent]
    exact consistent_new consistent absent one trapped _

theorem step_consistent {s : Watching} (consistent : Consistent s) (event : Event) :
    Consistent (step s event) ↔ Timely s event := by
  cases event with
  | start address length kind => exact iff_true_intro (consistent_empty rfl rfl rfl)
  | stop => exact iff_true_intro (consistent.congr rfl rfl rfl rfl)
  | clear => exact iff_true_intro (consistent_empty rfl rfl rfl)
  | report address context =>
      apply iff_true_intro
      rw [step]
      split_ifs
      · exact consistent.congr rfl rfl rfl rfl
      · exact consistent
  | arrive index =>
      rw [step, Timely]
      cases found : s.flights[index]? with
      | none => simpa using consistent
      | some flight =>
          by_cases reported : flight.stage = .reported
          · simp only [reported, if_true, Option.some.injEq, forall_eq', true_implies]
            exact arrive_consistent consistent index flight
          · simpa [reported] using consistent
  | look index =>
      apply iff_true_intro
      rw [step]
      cases s.flights[index]? with
      | none => exact consistent
      | some flight =>
          by_cases unseen : flight.stage = .unseen
          · simp only [unseen, if_true]
            exact consistent.congr rfl rfl rfl rfl
          · simpa [unseen] using consistent
  | settle index found =>
      rw [step, Timely]
      cases there : s.flights[index]? with
      | none => simpa using consistent
      | some flight =>
          cases stage : flight.stage with
          | looked dataWatch =>
              simp only [stage]
              apply (settle_consistent consistent index flight dataWatch found).trans
              constructor
              · intro timely other _ same _
                exact Option.some.inj same ▸ timely
              · exact fun timely => timely flight dataWatch rfl stage
          | reported | unseen =>
              simp only [stage]
              apply iff_of_true consistent
              intro other _ same looked
              rw [← Option.some.inj same, stage] at looked
              exact nomatch looked

/-- Along a run the counts account for the present hits exactly when every section that
counts one is timely. -/
theorem run_consistent (events : List Event) :
    (∀ done, done <+: events → Consistent (run step {} done)) ↔ Follows step Timely {} events :=
  forall_prefix_iff Consistent (fun _ event consistent => step_consistent consistent event)
    (consistent_empty rfl rfl rfl) events

/-- A hit that is still being resolved when the counts are cleared. -/
def clearedMeanwhile : List Event :=
  [.start 0x1000 4 .hardwareWrite,
    .report 0x1000 { registers := { rip := 0x401005 }, captured := true },
    .arrive 0, .look 0, .clear, .settle 0 none]

theorem clearedMeanwhile_stale :
    ¬ ∀ events : List Event, Consistent (run step {} events) := by
  intro every
  have stale := (every clearedMeanwhile).current { trap := 0x401005, period := 1, dropped := false }
    (by decide)
  exact absurd stale (by decide)

end AccessWatch

end PointerLab
