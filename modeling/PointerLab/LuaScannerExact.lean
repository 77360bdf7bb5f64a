import PointerLab.LuaScanner
import PointerLab.ScanFirst

set_option autoImplicit false

/- Which slots a Lua scan visits. A chunk is read with the width of a value beyond its end,
and every slot of the read is visited, also the one that starts the next chunk. -/
namespace PointerLab.LuaScanner

open Domain Sweep TargetView
open MemoryScanner (FullyReadable Disjoint onesView onesRegion onesView_readable)

/-- The slot at an offset of a region. -/
def slot (view : TargetView) (options : LuaScanOptions) (region : MemoryRegion) (offset : Nat) :
    Context :=
  { address := region.base + offset, regionBase := region.base, regionSize := region.size,
    type := options.type,
    bytes := readable view.memory (region.base + offset) (valueSize options) }

/-- The slots of a scan: every multiple of the stride at which a whole value lies inside an
eligible region. -/
def Wanted (view : TargetView) (options : LuaScanOptions) (context : Context) : Prop :=
  ∃ region ∈ view.regions, eligibleRegion region options = true ∧ ∃ k,
    k * strideOf options + valueSize options ≤ region.size ∧
      context = slot view options region (k * strideOf options)

/-- The predicate that always answers. -/
def answers (test : Context → Bool) (context : Context) : Except String Bool := .ok (test context)

/-- What is asked of a scan: no address twice and, unless it is cancelled or capped, every
slot is visited once and the matches are the slots that pass. -/
def Finds (view : TargetView) (options : LuaScanOptions) (test : Context → Bool)
    (cancel : Cancel) : Prop :=
  let scan := (run view options (.predicate (answers test)) cancel).1
  (scan.results.map (·.address)).Nodup ∧
    (cancel = .never → scan.dropped = false →
      scan.visited.Nodup ∧
      (∀ address, address ∈ scan.visited ↔
        ∃ context, Wanted view options context ∧ context.address = address) ∧
      ∀ hit, hit ∈ scan.results ↔
        ∃ context, Wanted view options context ∧ test context = true ∧ hit = hitOf context)

variable {view : TargetView} {options : LuaScanOptions} {test : Context → Bool} {cancel : Cancel}

/-- The matches among some slots. -/
def hits (test : Context → Bool) (looked : List Context) : List ScanResult :=
  (looked.filter test).map hitOf

theorem hits_append (looked more : List Context) :
    hits test (looked ++ more) = hits test looked ++ hits test more := by
  rw [hits, List.filter_append, List.map_append]
  rfl

/-- What a scan holds when the slots `looked` have come up. -/
structure Held (maxResults : Nat) (test : Context → Bool) (cancel : Cancel)
    (looked : List Context) (scan : LuaScan) : Prop where
  fine : scan.error = none
  sub : (scan.results ++ scan.batch).Sublist (hits test looked)
  few : (hits test looked).length ≤ maxResults → scan.dropped = false
  whole : cancel = .never → scan.dropped = false →
    scan.cancelled = false ∧ scan.visited = looked.map (·.address) ∧
      scan.results ++ scan.batch = hits test looked

section Held

variable {maxResults : Nat} {looked : List Context} {scan : LuaScan}

theorem Held.start : Held maxResults test cancel [] {} := by
  refine ⟨rfl, List.Sublist.refl _, fun _ => rfl, fun _ _ => ⟨rfl, rfl, rfl⟩⟩

/-- A scan that has stopped holds what it would hold after more slots. -/
theorem Held.stop (held : Held maxResults test cancel looked scan) (more : List Context)
    (stopped : scan.cancelled = true ∨ cancel ≠ .never) :
    Held maxResults test cancel (looked ++ more) scan := by
  refine ⟨held.fine, ?_, fun few => held.few ?_, fun quiet kept => ?_⟩
  · rw [hits_append]
    exact held.sub.trans (List.sublist_append_left _ _)
  · rw [hits_append, List.length_append] at few
    omega
  · rcases stopped with stopped | loud
    · rw [(held.whole quiet kept).1] at stopped
      contradiction
    · exact absurd quiet loud

theorem Held.flush (held : Held maxResults test cancel looked scan) :
    Held maxResults test cancel looked (flush maxResults scan) := by
  unfold LuaScanner.flush
  by_cases full : maxResults < (scan.results ++ scan.batch).length
  · simp only [full, ↓reduceIte]
    refine ⟨held.fine, ?_, fun few => ?_, fun _ kept => nomatch kept⟩
    · rw [List.append_nil]
      exact (List.take_sublist _ _).trans held.sub
    · have := held.sub.length_le
      omega
  · simp only [full, ↓reduceIte]
    refine ⟨held.fine, ?_, held.few, fun quiet kept => ?_⟩
    · rw [List.append_nil]
      exact held.sub
    · obtain ⟨going, visited, all⟩ := held.whole quiet kept
      exact ⟨going, visited, (List.append_nil _).trans all⟩

/-- The predicate has been asked about one more slot, and its answer is not known. -/
theorem Held.asked (held : Held maxResults test cancel looked scan) (context : Context)
    (loud : cancel ≠ .never) :
    Held maxResults test cancel (looked ++ [context])
      { scan with visited := scan.visited ++ [context.address] } := by
  refine ⟨held.fine, ?_, fun few => held.few ?_, fun quiet => absurd quiet loud⟩
  · rw [hits_append]
    exact held.sub.trans (List.sublist_append_left _ _)
  · rw [hits_append, List.length_append] at few
    omega

theorem hits_singleton {context : Context} :
    hits test [context] = if test context = true then [hitOf context] else [] := by
  cases passes : test context with
  | true => simp [hits, passes]
  | false => simp [hits, passes]

theorem Held.reject (held : Held maxResults test cancel looked scan) {context : Context}
    (fails : test context = false) :
    Held maxResults test cancel (looked ++ [context])
      { scan with visited := scan.visited ++ [context.address] } := by
  have same : hits test (looked ++ [context]) = hits test looked := by
    rw [hits_append, hits_singleton, if_neg (by simp [fails]), List.append_nil]
  refine ⟨held.fine, same ▸ held.sub, fun few => held.few (same ▸ few), fun quiet kept => ?_⟩
  obtain ⟨going, visited, all⟩ := held.whole quiet kept
  refine ⟨going, ?_, same ▸ all⟩
  simp only [visited, List.map_append, List.map_cons, List.map_nil]

theorem Held.keep (held : Held maxResults test cancel looked scan) {context : Context}
    (passes : test context = true) :
    Held maxResults test cancel (looked ++ [context])
      (keep maxResults (hitOf context)
        { scan with visited := scan.visited ++ [context.address] }) := by
  have more : hits test (looked ++ [context]) = hits test looked ++ [hitOf context] := by
    rw [hits_append, hits_singleton, if_pos passes]
  have grown : Held maxResults test cancel (looked ++ [context])
      { scan with visited := scan.visited ++ [context.address],
                  batch := scan.batch ++ [hitOf context] } := by
    refine ⟨held.fine, ?_, fun few => held.few ?_, fun quiet kept => ?_⟩
    · rw [more, ← List.append_assoc]
      exact held.sub.append_right _
    · rw [more, List.length_append] at few
      omega
    · obtain ⟨going, visited, all⟩ := held.whole quiet kept
      refine ⟨going, ?_, ?_⟩
      · simp only [visited, List.map_append, List.map_cons, List.map_nil]
      · rw [more, ← all, List.append_assoc]
  unfold LuaScanner.keep
  dsimp only
  split
  · exact grown.flush
  · exact grown

end Held

theorem never_slot {number offset i : Nat} (cut : cancel.slot number offset i = true) :
    cancel ≠ .never := by
  rintro rfl
  exact Bool.false_ne_true cut

theorem never_hook {number offset i : Nat} (cut : cancel.hook number offset i = true) :
    cancel ≠ .never := by
  rintro rfl
  exact Bool.false_ne_true cut

theorem never_chunk {number offset : Nat} (cut : cancel.chunk number offset = true) :
    cancel ≠ .never := by
  rintro rfl
  exact Bool.false_ne_true cut

theorem never_region {number : Nat} (cut : cancel.region number = true) : cancel ≠ .never := by
  rintro rfl
  exact Bool.false_ne_true cut

theorem Held.scanSlots {looked : List Context} {scan : LuaScan} {number offset : Nat}
    {region : MemoryRegion} {buffer : List UInt8} (places : List Nat)
    (held : Held options.maxResults test cancel looked scan) :
    Held options.maxResults test cancel
      (looked ++ places.map (contextAt options region offset buffer))
      (scanSlots options (answers test) cancel number region offset buffer places scan) := by
  induction places generalizing looked scan with
  | nil => simpa only [LuaScanner.scanSlots, List.map_nil, List.append_nil] using held
  | cons i rest ih =>
      have regroup : looked ++ (i :: rest).map (contextAt options region offset buffer) =
          (looked ++ [contextAt options region offset buffer i]) ++
            rest.map (contextAt options region offset buffer) := by
        rw [List.map_cons, List.append_assoc, List.singleton_append]
      unfold LuaScanner.scanSlots
      dsimp only [answers]
      split
      · rename_i cut
        refine held.stop _ ?_
        rcases Bool.or_eq_true _ _ ▸ cut with capped | cut
        · exact Or.inl capped
        · exact Or.inr (never_slot cut)
      · split
        · rename_i cut
          rw [regroup]
          exact (held.asked _ (never_hook cut)).stop _ (Or.inr (never_hook cut))
        · rw [regroup]
          cases passes : test (contextAt options region offset buffer i) with
          | true => exact ih (held.keep passes)
          | false => exact ih (held.reject passes)

/-- The slots that a chunk shows. -/
def chunkSlots (view : TargetView) (options : LuaScanOptions) (region : MemoryRegion)
    (offset : Nat) : List Context :=
  let readSize := min (chunkSize + valueSize options) (region.size - offset)
  (steps (readSize + 1 - valueSize options) (strideOf options)).map fun i =>
    slot view options region (offset + i)

def regionSlots (view : TargetView) (options : LuaScanOptions) (region : MemoryRegion) :
    List Context :=
  (steps region.size chunkSize).flatMap (chunkSlots view options region)

/-- The slots that a scan shows, in order. -/
def shownSlots (view : TargetView) (options : LuaScanOptions) : List Context :=
  (view.regions.filter fun region => eligibleRegion region options).flatMap
    (regionSlots view options)

theorem strideOf_pos (fixed : 0 < valueSize options) : 0 < strideOf options := by
  unfold strideOf
  split <;> omega

theorem mem_chunkSlots (fixed : 0 < valueSize options) {region : MemoryRegion} {offset : Nat}
    {context : Context} :
    context ∈ chunkSlots view options region offset ↔
      ∃ i, strideOf options ∣ i ∧ i ≤ chunkSize ∧ offset + i + valueSize options ≤ region.size ∧
        context = slot view options region (offset + i) := by
  simp only [chunkSlots, List.mem_map, mem_steps (strideOf_pos fixed)]
  constructor
  · rintro ⟨i, ⟨within, aligned⟩, rfl⟩
    exact ⟨i, aligned, by omega, by omega, rfl⟩
  · rintro ⟨i, aligned, near, fits, rfl⟩
    exact ⟨i, ⟨by omega, aligned⟩, rfl⟩

theorem Held.scanChunk {maxResults : Nat} {looked : List Context} {scan : LuaScan}
    {number offset : Nat} {region : MemoryRegion} (fixed : 0 < valueSize options)
    (whole : FullyReadable view region) (inside : offset < region.size)
    (limit : options.maxResults = maxResults)
    (held : Held maxResults test cancel looked scan) :
    Held maxResults test cancel (looked ++ chunkSlots view options region offset)
      (scanChunk view options (answers test) cancel number region offset scan) := by
  subst limit
  unfold LuaScanner.scanChunk chunkSlots
  dsimp only
  generalize asked : min (chunkSize + valueSize options) (region.size - offset) = readSize
  have length : (readable view.memory (region.base + offset) readSize).length = readSize := by
    refine readable_length fun index within => ?_
    rw [Nat.add_assoc]
    exact whole.2 _ (by omega)
  rcases readBytes_cases (region.base + offset) readSize whole.1 with answered | ⟨_, empty⟩
  · simp only [answered, length]
    by_cases short : readSize < valueSize options
    · have none_ : readSize + 1 - valueSize options = 0 := by omega
      rw [if_pos short, none_, steps_zero (strideOf_pos fixed), List.map_nil, List.append_nil]
      exact held
    · have same : (steps (readSize + 1 - valueSize options) (strideOf options)).map
          (fun i => slot view options region (offset + i)) =
          (steps (readSize + 1 - valueSize options) (strideOf options)).map
            (contextAt options region offset
              (readable view.memory (region.base + offset) readSize)) := by
        refine List.map_congr_left fun i inSteps => ?_
        have within := ((mem_steps (strideOf_pos fixed)).mp inSteps).1
        rw [slot, contextAt, readable_drop (by omega), readable_take, Nat.min_eq_left (by omega),
          Nat.add_assoc]
      rw [if_neg short, same]
      exact held.scanSlots _
  · rw [empty, List.length_nil] at length
    omega

theorem Held.scanChunks {looked : List Context} {scan : LuaScan} {number : Nat}
    {region : MemoryRegion} (fixed : 0 < valueSize options) (whole : FullyReadable view region)
    (offsets : List Nat) (inside : ∀ offset ∈ offsets, offset < region.size)
    (held : Held options.maxResults test cancel looked scan) :
    Held options.maxResults test cancel
      (looked ++ offsets.flatMap (chunkSlots view options region))
      (scanChunks view options (answers test) cancel number region offsets scan) := by
  induction offsets generalizing looked scan with
  | nil => simpa only [LuaScanner.scanChunks, List.flatMap_nil, List.append_nil] using held
  | cons offset rest ih =>
      unfold LuaScanner.scanChunks
      split
      · rename_i cut
        refine held.stop _ ?_
        simp only [LuaScan.stopped, held.fine, Option.isSome_none, Bool.or_false,
          Bool.or_eq_true] at cut
        exact cut.imp id never_chunk
      · rw [List.flatMap_cons, ← List.append_assoc]
        exact ih (fun offset inRest => inside offset (List.mem_cons_of_mem _ inRest))
          (held.scanChunk fixed whole (inside offset List.mem_cons_self) rfl)

theorem Held.scanRegions {looked : List Context} {scan : LuaScan} {number : Nat}
    (fixed : 0 < valueSize options) (regions : List MemoryRegion)
    (whole : ∀ region ∈ regions, eligibleRegion region options = true → FullyReadable view region)
    (held : Held options.maxResults test cancel looked scan) :
    Held options.maxResults test cancel
      (looked ++ (regions.filter fun region => eligibleRegion region options).flatMap
        (regionSlots view options))
      (scanRegions view options (answers test) cancel number regions scan) := by
  induction regions generalizing looked scan number with
  | nil => simpa only [LuaScanner.scanRegions, List.filter_nil, List.flatMap_nil, List.append_nil]
      using held
  | cons region rest ih =>
      have later : ∀ region ∈ rest, eligibleRegion region options = true →
          FullyReadable view region :=
        fun region inRest => whole region (List.mem_cons_of_mem _ inRest)
      unfold LuaScanner.scanRegions
      split
      · rename_i cut
        refine held.stop _ ?_
        simp only [LuaScan.stopped, held.fine, Option.isSome_none, Bool.or_false,
          Bool.or_eq_true] at cut
        exact cut.imp id never_region
      · cases eligible : eligibleRegion region options with
        | false =>
            rw [if_pos (by simp), List.filter_cons_of_neg (by simp [eligible])]
            exact ih later held
        | true =>
            rw [if_neg (by simp),
              List.filter_cons_of_pos (p := fun region => eligibleRegion region options) eligible,
              List.flatMap_cons, ← List.append_assoc]
            refine ih later (held.scanChunks fixed (whole region List.mem_cons_self eligible) _ ?_)
            exact fun offset inSteps => ((mem_steps (by decide)).mp inSteps).1

/-- What a whole scan leaves, with the last batch among the results. -/
theorem run_held (fixed : 0 < valueSize options)
    (whole : ∀ region ∈ view.regions, eligibleRegion region options = true →
      FullyReadable view region) (test : Context → Bool) (cancel : Cancel) :
    Held options.maxResults test cancel (shownSlots view options)
        (run view options (.predicate (answers test)) cancel).1 ∧
      (run view options (.predicate (answers test)) cancel).1.batch = [] := by
  have held := @Held.scanRegions view options test cancel _ _ 0 fixed view.regions whole
    (@Held.start test cancel options.maxResults)
  rw [List.nil_append, ← shownSlots] at held
  unfold run
  rw [if_neg (by omega)]
  dsimp only
  rw [if_neg (by simp [held.fine])]
  generalize LuaScanner.scanRegions view options (answers test) cancel 0 view.regions {} = scan
    at held
  dsimp only
  unfold finish
  split
  · rename_i empty
    exact ⟨held, List.isEmpty_iff.mp empty⟩
  · dsimp only
    split
    · rename_i full
      refine ⟨⟨held.fine, ?_, fun few => ?_, fun _ kept => nomatch kept⟩, rfl⟩
      · rw [List.append_nil]
        exact (List.take_sublist _ _).trans held.sub
      · have := held.sub.length_le
        omega
    · refine ⟨⟨held.fine, ?_, held.few, fun quiet kept => ?_⟩, rfl⟩
      · rw [List.append_nil]
        exact held.sub
      · obtain ⟨going, visited, all⟩ := held.whole quiet kept
        exact ⟨going, visited, (List.append_nil _).trans all⟩

theorem mem_regionSlots (fixed : 0 < valueSize options) {region : MemoryRegion}
    {context : Context} :
    context ∈ regionSlots view options region ↔
      ∃ offset < region.size, chunkSize ∣ offset ∧ ∃ i, strideOf options ∣ i ∧ i ≤ chunkSize ∧
        offset + i + valueSize options ≤ region.size ∧
          context = slot view options region (offset + i) := by
  simp only [regionSlots, List.mem_flatMap, mem_chunkSlots fixed, and_assoc,
    mem_steps (by decide : 0 < chunkSize)]

theorem mem_shownSlots {context : Context} :
    context ∈ shownSlots view options ↔ ∃ region ∈ view.regions,
      eligibleRegion region options = true ∧ context ∈ regionSlots view options region := by
  simp only [shownSlots, List.mem_flatMap, List.mem_filter, and_assoc]

/-- Only the first chunk of a region that ends within a value of it shows slots. -/
theorem first_chunk {region : MemoryRegion} {offset i : Nat} (aligned : chunkSize ∣ offset)
    (fits : offset + i + valueSize options ≤ region.size)
    (short : region.size < chunkSize + valueSize options) : offset = 0 := by
  obtain ⟨count, rfl⟩ := aligned
  cases count with
  | zero => rfl
  | succ count =>
      rw [Nat.mul_succ] at fits
      omega

theorem mem_regionSlots_short (fixed : 0 < valueSize options) {region : MemoryRegion}
    {context : Context} (short : region.size < chunkSize + valueSize options) :
    context ∈ regionSlots view options region ↔ ∃ k,
      k * strideOf options + valueSize options ≤ region.size ∧
        context = slot view options region (k * strideOf options) := by
  rw [mem_regionSlots fixed]
  constructor
  · rintro ⟨offset, _, chunked, i, ⟨k, rfl⟩, _, fits, rfl⟩
    obtain rfl := first_chunk chunked fits short
    rw [Nat.zero_add, Nat.mul_comm] at fits ⊢
    exact ⟨k, fits, rfl⟩
  · rintro ⟨k, fits, rfl⟩
    refine ⟨0, by omega, Nat.dvd_zero _, k * strideOf options, Nat.dvd_mul_left _ _, by omega,
      by omega, ?_⟩
    rw [Nat.zero_add]

theorem chunkSlots_nodup (fixed : 0 < valueSize options) (region : MemoryRegion) (offset : Nat) :
    ((chunkSlots view options region offset).map (·.address)).Nodup := by
  rw [chunkSlots, List.map_map]
  refine List.pairwise_map.mpr ((steps_increasing (strideOf_pos fixed)).imp fun less => ?_)
  simp only [Function.comp_apply, slot]
  omega

theorem regionSlots_nodup (fixed : 0 < valueSize options) {region : MemoryRegion}
    (short : region.size < chunkSize + valueSize options) :
    ((regionSlots view options region).map (·.address)).Nodup := by
  rw [regionSlots, List.map_flatMap, List.Nodup, List.pairwise_flatMap]
  refine ⟨fun offset _ => chunkSlots_nodup fixed region offset, ?_⟩
  refine (steps_increasing (by decide)).imp_of_mem fun {first second} _ inSecond less x _ y inY => ?_
  simp only [List.mem_map, mem_chunkSlots fixed] at inY
  obtain ⟨_, ⟨i, _, _, fits, rfl⟩, rfl⟩ := inY
  have zero := first_chunk ((mem_steps (by decide)).mp inSecond).2 fits short
  omega

theorem regionSlots_inside (fixed : 0 < valueSize options) {region : MemoryRegion} {address : Nat}
    (shown : address ∈ (regionSlots view options region).map (·.address)) :
    region.base ≤ address ∧ address < region.base + region.size := by
  simp only [List.mem_map, mem_regionSlots fixed] at shown
  obtain ⟨_, ⟨offset, _, _, i, _, _, fits, rfl⟩, rfl⟩ := shown
  simp only [slot]
  omega

theorem shownSlots_nodup (fixed : 0 < valueSize options) (disjoint : Disjoint view.regions)
    (short : ∀ region ∈ view.regions, eligibleRegion region options = true →
      region.size < chunkSize + valueSize options) :
    ((shownSlots view options).map (·.address)).Nodup := by
  rw [shownSlots, List.map_flatMap, List.Nodup, List.pairwise_flatMap]
  constructor
  · intro region inside
    obtain ⟨listed, eligible⟩ := List.mem_filter.mp inside
    exact regionSlots_nodup fixed (short region listed eligible)
  · refine (disjoint.filter _).imp fun {left right} apart => ?_
    intro x inLeft y inRight
    have first := regionSlots_inside fixed inLeft
    have second := regionSlots_inside fixed inRight
    omega

/-- What a scan of short regions shows is what is wanted of it. -/
theorem mem_shownSlots_short (fixed : 0 < valueSize options)
    (short : ∀ region ∈ view.regions, eligibleRegion region options = true →
      region.size < chunkSize + valueSize options) {context : Context} :
    context ∈ shownSlots view options ↔ Wanted view options context := by
  rw [mem_shownSlots, Wanted]
  constructor
  · rintro ⟨region, listed, eligible, shown⟩
    exact ⟨region, listed, eligible,
      (mem_regionSlots_short fixed (short region listed eligible)).mp shown⟩
  · rintro ⟨region, listed, eligible, place⟩
    exact ⟨region, listed, eligible,
      (mem_regionSlots_short fixed (short region listed eligible)).mpr place⟩

theorem mem_hits {looked : List Context} {hit : ScanResult} :
    hit ∈ hits test looked ↔ ∃ context ∈ looked, test context = true ∧ hit = hitOf context := by
  simp only [hits, List.mem_map, List.mem_filter, and_assoc]
  exact exists_congr fun context => and_congr_right fun _ => and_congr_right fun _ => eq_comm

theorem finds_of_short (fixed : 0 < valueSize options) (disjoint : Disjoint view.regions)
    (whole : ∀ region ∈ view.regions, eligibleRegion region options = true →
      FullyReadable view region)
    (short : ∀ region ∈ view.regions, eligibleRegion region options = true →
      region.size < chunkSize + valueSize options) (test : Context → Bool) (cancel : Cancel) :
    Finds view options test cancel := by
  obtain ⟨held, emptied⟩ := run_held fixed whole test cancel
  unfold Finds
  generalize (run view options (.predicate (answers test)) cancel).1 = scan at held emptied
  have once := shownSlots_nodup fixed disjoint short
  have sub := held.sub
  rw [emptied, List.append_nil] at sub
  constructor
  · refine (sub.map (·.address)).nodup ?_
    rw [hits, List.map_map]
    exact once.sublist (List.filter_sublist.map _)
  · intro quiet kept
    obtain ⟨_, visited, all⟩ := held.whole quiet kept
    rw [emptied, List.append_nil] at all
    refine ⟨visited ▸ once, fun address => ?_, fun hit => ?_⟩
    · rw [visited, List.mem_map]
      simp only [mem_shownSlots_short fixed short]
    · rw [all, mem_hits]
      simp only [mem_shownSlots_short fixed short]

/-- The slot that starts the second chunk, as that chunk shows it. -/
theorem boundary_shown (fixed : 0 < valueSize options) {region : MemoryRegion}
    (long : chunkSize + valueSize options ≤ region.size) :
    slot view options region chunkSize ∈ chunkSlots view options region chunkSize :=
  (mem_chunkSlots fixed).mpr ⟨0, Nat.dvd_zero _, Nat.zero_le _, long, rfl⟩

/-- The first chunk shows it too when the stride meets it. -/
theorem regionSlots_twice (fixed : 0 < valueSize options) {region : MemoryRegion}
    (long : chunkSize + valueSize options ≤ region.size)
    (aligned : strideOf options ∣ chunkSize) :
    ¬ ((regionSlots view options region).map (·.address)).Nodup := by
  intro once
  rw [regionSlots, List.map_flatMap, List.Nodup, List.pairwise_flatMap] at once
  have positive : 0 < chunkSize := by decide
  have first : 0 ∈ steps region.size chunkSize :=
    (mem_steps positive).mpr ⟨by omega, Nat.dvd_zero _⟩
  have second : chunkSize ∈ steps region.size chunkSize :=
    (mem_steps positive).mpr ⟨by omega, Nat.dvd_refl _⟩
  have symm : Std.Symm fun a b : Nat => ∀ x ∈ (chunkSlots view options region a).map (·.address),
      ∀ y ∈ (chunkSlots view options region b).map (·.address), x ≠ y :=
    ⟨fun _ _ apart x inX y inY => (apart y inY x inX).symm⟩
  have apart := once.2.forall first second (by decide)
  have early : slot view options region chunkSize ∈ chunkSlots view options region 0 :=
    (mem_chunkSlots fixed).mpr ⟨chunkSize, aligned, Nat.le_refl _, by omega, by rw [Nat.zero_add]⟩
  exact apart _ (List.mem_map_of_mem early) _ (List.mem_map_of_mem (boundary_shown fixed long)) rfl

/-- No other slot has the address of the second chunk of a region. -/
theorem wanted_boundary (fixed : 0 < valueSize options) (disjoint : Disjoint view.regions)
    {region : MemoryRegion} (listed : region ∈ view.regions)
    (long : chunkSize + valueSize options ≤ region.size) {context : Context}
    (wanted : Wanted view options context) (same : context.address = region.base + chunkSize) :
    strideOf options ∣ chunkSize := by
  obtain ⟨other, inOther, _, k, fits, rfl⟩ := wanted
  simp only [slot] at same
  by_cases here : other = region
  · subst here
    exact ⟨k, by rw [Nat.mul_comm]; omega⟩
  · have symm : Std.Symm fun left right : MemoryRegion =>
        left.base + left.size ≤ right.base ∨ right.base + right.size ≤ left.base :=
      ⟨fun _ _ apart => apart.symm⟩
    have apart := disjoint.forall inOther listed here
    omega

/-- A scan of fully readable regions that do not overlap finds what it should, for every limit
and wherever it is cancelled, just when no region it looks at reaches a value beyond its
first chunk. -/
theorem finds_iff_short (fixed : 0 < valueTypeSize options.type)
    (disjoint : Disjoint view.regions)
    (whole : ∀ region ∈ view.regions, eligibleRegion region options = true →
      FullyReadable view region) (test : Context → Bool) :
    (∀ maxResults cancel, Finds view { options with maxResults } test cancel) ↔
      ∀ region ∈ view.regions, eligibleRegion region options = true →
        region.size < chunkSize + valueTypeSize options.type := by
  constructor
  · intro finds region listed eligible
    refine Nat.lt_of_not_le fun long => ?_
    let roomy := { options with maxResults := (hits test (shownSlots view options)).length }
    obtain ⟨held, _⟩ := @run_held view roomy fixed whole test .never
    have kept := held.few (Nat.le_refl _)
    obtain ⟨_, visited, _⟩ := held.whole rfl kept
    obtain ⟨once, exact_, _⟩ := (finds roomy.maxResults .never).2 rfl kept
    have shown : slot view options region chunkSize ∈ regionSlots view options region :=
      List.mem_flatMap.mpr ⟨chunkSize, (mem_steps (by decide)).mpr ⟨by omega, Nat.dvd_refl _⟩,
        boundary_shown fixed long⟩
    have met : region.base + chunkSize ∈
        (run view roomy (.predicate (answers test)) .never).1.visited := by
      rw [visited]
      exact List.mem_map_of_mem (mem_shownSlots.mpr ⟨region, listed, eligible, shown⟩)
    obtain ⟨context, wanted, same⟩ := (exact_ _).mp met
    have aligned := @wanted_boundary view options fixed disjoint _ listed long _ wanted same
    rw [visited] at once
    refine @regionSlots_twice view options fixed _ long aligned (once.sublist ?_)
    refine List.Sublist.map _ ?_
    exact List.sublist_flatten_of_mem
      (List.mem_map_of_mem (List.mem_filter.mpr ⟨listed, eligible⟩))
  · intro short maxResults cancel
    exact @finds_of_short view { options with maxResults } fixed disjoint whole short test
      cancel

/-- A seven between two fives. -/
def threeValues : TargetView where
  regions := [{ base := 0x10000, size := 3, readable := true }]
  memory := fun address => [5, 7, 5][address - 0x10000]?

theorem threeValues_finds :
    Finds threeValues { type := .uInt8 } (fun context => context.bytes == [5]) .never ∧
      (run threeValues { type := .uInt8 } (.predicate (answers fun context => context.bytes == [5]))
        .never).1.results.map (·.address) = [0x10000, 0x10002] :=
  ⟨(@finds_iff_short threeValues { type := .uInt8 } (by decide) (List.pairwise_singleton _ _)
    (fun region inside _ => by
      obtain rfl := List.mem_singleton.mp inside
      exact ⟨rfl, by decide⟩) (fun context => context.bytes == [5])).mpr (by decide) 50000 .never,
    by decide⟩

/-- Every address of a region a little longer than a chunk passes: the address where the second
chunk starts is among the results twice. -/
theorem boundary_found_twice :
    (∀ region ∈ onesView.regions, FullyReadable onesView region) ∧ Disjoint onesView.regions ∧
      (run onesView { maxResults := 0x100000 } (.predicate (answers fun _ => true))
        .never).1.dropped = false ∧
      ¬ ((run onesView { maxResults := 0x100000 } (.predicate (answers fun _ => true))
        .never).1.results.map (·.address)).Nodup := by
  refine ⟨onesView_readable, List.pairwise_singleton _ _, ?_⟩
  obtain ⟨held, emptied⟩ := @run_held onesView { maxResults := 0x100000 }
    (by decide) (fun region inside _ => onesView_readable region inside) (fun _ => true) .never
  have shown : shownSlots onesView { maxResults := 0x100000 } =
      regionSlots onesView { maxResults := 0x100000 } onesRegion :=
    List.flatMap_singleton _ _
  have all : hits (fun _ => true) (shownSlots onesView { maxResults := 0x100000 }) =
      (regionSlots onesView { maxResults := 0x100000 } onesRegion).map hitOf := by
    rw [hits, shown, List.filter_eq_self.mpr fun _ _ => rfl]
  have kept := held.few (by
    rw [all, List.length_map, regionSlots, List.length_flatMap]
    simp only [chunkSlots, steps, List.length_map, List.length_range']
    decide)
  have whole := (held.whole rfl kept).2.2
  rw [emptied, List.append_nil, all] at whole
  refine ⟨kept, fun once => ?_⟩
  rw [whole, List.map_map] at once
  exact @regionSlots_twice onesView { maxResults := 0x100000 } (by decide) onesRegion
    (by decide) (by decide) once

end PointerLab.LuaScanner
