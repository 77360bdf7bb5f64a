import Mathlib.Data.List.Basic
import Mathlib.Data.List.Flatten
import Mathlib.Data.List.Range
import Mathlib.Data.List.TakeWhile
import Mathlib.Order.Monotone.Basic

set_option autoImplicit false

/- Loops that step through a range: the values their counter takes, ranges cut into
chunks, and loops that end once they have collected enough. -/
namespace Sweep

variable {Item Hit : Type*}

/-- What a cancel flag reads before each round of a loop and after it. Nothing clears it
while the loop runs. -/
structure CancelFlag where
  round : Nat → Bool
  done : Bool
  stays : ∀ index, round index = true → done = true

def CancelFlag.never : CancelFlag :=
  { round := fun _ => false, done := false, stays := fun _ cancelled => cancelled }

theorem CancelFlag.going {flag : CancelFlag} (open_ : flag.done = false) (index : Nat) :
    flag.round index = false := by
  cases stopped : flag.round index with
  | false => rfl
  | true => exact absurd (flag.stays index stopped) (open_ ▸ Bool.false_ne_true)

/-- The values of `i` in `for (i = 0; i < limit; i += stride)`. -/
def steps (limit stride : Nat) : List Nat :=
  List.range' 0 ((limit + stride - 1) / stride) stride

theorem mem_steps {limit stride index : Nat} (positive : 0 < stride) :
    index ∈ steps limit stride ↔ index < limit ∧ stride ∣ index := by
  have rounds (count : Nat) : count < (limit + stride - 1) / stride ↔ stride * count < limit := by
    rw [← Nat.succ_le_iff, Nat.le_div_iff_mul_le positive, Nat.succ_mul, Nat.mul_comm count]
    omega
  simp only [steps, List.mem_range', Nat.zero_add]
  constructor
  · rintro ⟨count, within, rfl⟩
    exact ⟨(rounds count).mp within, Nat.dvd_mul_right stride count⟩
  · rintro ⟨within, count, rfl⟩
    exact ⟨count, (rounds count).mpr within, rfl⟩

/-- A loop up to nothing takes no round. -/
theorem steps_zero {stride : Nat} (positive : 0 < stride) : steps 0 stride = [] := by
  apply List.eq_nil_iff_forall_not_mem.mpr
  intro index inside
  exact Nat.not_lt_zero _ ((mem_steps positive).mp inside).1

theorem takeWhile_true (items : List Item) : items.takeWhile (fun _ => true) = items :=
  List.takeWhile_eq_self_iff.mpr fun _ _ => rfl

theorem steps_increasing {limit stride : Nat} (positive : 0 < stride) :
    (steps limit stride).Pairwise (· < ·) :=
  List.pairwise_lt_range' stride positive

/-- Where a test only ever turns false, taking while it holds is filtering by it. -/
theorem takeWhile_eq_filter {test : Item → Bool} {items : List Item}
    (down : items.Pairwise fun first second => test second = true → test first = true) :
    items.takeWhile test = items.filter test := by
  induction items with
  | nil => rfl
  | cons item rest ih =>
      obtain ⟨before, later⟩ := List.pairwise_cons.mp down
      by_cases holds : test item = true
      · rw [List.takeWhile_cons_of_pos holds, List.filter_cons_of_pos holds, ih later]
      · have none_ : rest.filter test = [] :=
          List.filter_eq_nil_iff.mpr fun next inRest passes => holds (before next inRest passes)
        rw [List.takeWhile_cons_of_neg holds, List.filter_cons_of_neg holds, none_]

theorem dropWhile_eq_filter {test : Item → Bool} {items : List Item}
    (down : items.Pairwise fun first second => test second = true → test first = true) :
    items.dropWhile test = items.filter fun item => !test item := by
  induction items with
  | nil => rfl
  | cons item rest ih =>
      obtain ⟨before, later⟩ := List.pairwise_cons.mp down
      by_cases holds : test item = true
      · rw [List.dropWhile_cons_of_pos holds, List.filter_cons_of_neg (by simp [holds]), ih later]
      · have every : rest.filter (fun item => !test item) = rest :=
          List.filter_eq_self.mpr fun next inRest => by
            by_contra passes
            exact holds (before next inRest (by simpa using passes))
        rw [List.dropWhile_cons_of_neg holds, List.filter_cons_of_pos (by simp [holds]), every]

/-- A loop that records the items a test lets through. -/
theorem filterMap_if (test : Item → Bool) (hit : Item → Hit) (items : List Item) :
    (items.filterMap fun item => if test item = true then some (hit item) else none) =
      (items.filter test).map hit := by
  induction items with
  | nil => rfl
  | cons item rest ih =>
      cases passes : test item with
      | true => rw [List.filter_cons_of_pos passes, List.map_cons, ← ih,
          List.filterMap_cons_some (by rw [passes]; rfl)]
      | false => rw [List.filter_cons_of_neg (by simp [passes]), ← ih,
          List.filterMap_cons_none (by rw [passes]; rfl)]

/-- Two increasing lists with the same members are equal. -/
theorem eq_of_increasing {left right : List Nat} (leftUp : left.Pairwise (· < ·))
    (rightUp : right.Pairwise (· < ·)) (same : ∀ index, index ∈ left ↔ index ∈ right) :
    left = right := by
  have perm : left.Perm right :=
    (List.perm_ext_iff_of_nodup (leftUp.imp Nat.ne_of_lt) (rightUp.imp Nat.ne_of_lt)).mpr same
  exact List.Perm.eq_of_pairwise
    (fun _ _ _ _ less more => absurd less (Nat.lt_asymm more)) leftUp rightUp perm

/-- What is wanted of a range, gathered chunk by chunk. -/
theorem gather {total chunk : Nat} {wanted : Nat → Bool} (positive : 0 < chunk) :
    (steps total chunk).flatMap
        (fun offset => (List.range' offset (min chunk (total - offset))).filter wanted) =
      (List.range total).filter wanted := by
  apply eq_of_increasing
  · rw [List.pairwise_flatMap]
    constructor
    · intro offset _
      exact (List.pairwise_lt_range').filter _
    · refine (steps_increasing positive).imp_of_mem ?_
      intro first second inFirst inSecond less x xFirst y ySecond
      obtain ⟨_, a, rfl⟩ := (mem_steps positive).mp inFirst
      obtain ⟨_, b, rfl⟩ := (mem_steps positive).mp inSecond
      have next : chunk * a + chunk ≤ chunk * b := by
        rw [← Nat.mul_succ]
        exact Nat.mul_le_mul_left chunk (Nat.lt_of_mul_lt_mul_left less)
      simp only [List.mem_filter, List.mem_range'_1] at xFirst ySecond
      omega
  · exact List.pairwise_lt_range.filter _
  · intro index
    simp only [List.mem_flatMap, List.mem_filter, List.mem_range'_1, List.mem_range,
      mem_steps positive]
    constructor
    · rintro ⟨offset, ⟨below, _⟩, ⟨_, inside⟩, yes⟩
      exact ⟨by omega, yes⟩
    · rintro ⟨below, yes⟩
      have start := Nat.div_mul_le_self index chunk
      have finish := Nat.lt_div_mul_add (a := index) positive
      refine ⟨index / chunk * chunk, ⟨by omega, Nat.dvd_mul_left _ _⟩, ⟨start, by omega⟩, yes⟩

/-- `for (item : items)` that also ends once `cap` hits are there. -/
def untilFull (cap : Nat) (collect : List Hit → Item → List Hit) :
    List Item → List Hit → List Hit
  | [], hits => hits
  | item :: rest, hits =>
      if hits.length < cap then untilFull cap collect rest (collect hits item) else hits

/-- Cutting a list to `cap` early changes nothing once it is cut to `cap` anyway. -/
theorem take_take_append (cap : Nat) (hits more : List Hit) :
    (hits.take cap ++ more).take cap = (hits ++ more).take cap := by
  rw [List.take_append, List.take_append, List.take_take, Nat.min_self, List.length_take]
  congr 2
  omega

theorem untilFull_eq {cap : Nat} {collect : List Hit → Item → List Hit}
    (found : Item → List Hit) (items : List Item)
    (each : ∀ item ∈ items, ∀ hits : List Hit, hits.length ≤ cap →
      collect hits item = (hits ++ found item).take cap)
    (hits : List Hit) (within : hits.length ≤ cap) :
    untilFull cap collect items hits = (hits ++ items.flatMap found).take cap := by
  induction items generalizing hits with
  | nil => simp only [untilFull, List.flatMap_nil, List.append_nil, List.take_of_length_le within]
  | cons item rest ih =>
      have later : ∀ item ∈ rest, ∀ hits : List Hit, hits.length ≤ cap →
          collect hits item = (hits ++ found item).take cap :=
        fun item inRest => each item (List.mem_cons_of_mem _ inRest)
      simp only [untilFull, List.flatMap_cons]
      split
      · rw [each item List.mem_cons_self hits within, ih later _ (List.length_take_le _ _),
          ← List.append_assoc]
        exact take_take_append cap _ _
      · have full : hits.length = cap := by omega
        rw [List.take_append_of_le_length (by omega), List.take_of_length_le within]

/-- A loop that keeps the items a test lets through. -/
theorem untilFull_filter {cap : Nat} {test : Item → Bool} {hit : Item → Hit} (items : List Item)
    (hits : List Hit) (within : hits.length ≤ cap) :
    untilFull cap (fun hits item => if test item then hits ++ [hit item] else hits) items hits =
      (hits ++ (items.filter test).map hit).take cap := by
  induction items generalizing hits with
  | nil => simp only [untilFull, List.filter_nil, List.map_nil, List.append_nil,
      List.take_of_length_le within]
  | cons item rest ih =>
      simp only [untilFull]
      by_cases room : hits.length < cap
      · rw [if_pos room]
        by_cases passes : test item = true
        · have longer : (hits ++ [hit item]).length ≤ cap := by
            rw [List.length_append, List.length_singleton]
            exact room
          rw [if_pos passes, ih _ longer, List.filter_cons_of_pos passes, List.map_cons,
            List.append_assoc, List.singleton_append]
        · rw [if_neg passes, ih _ within, List.filter_cons_of_neg passes]
      · rw [if_neg room, List.take_append_of_le_length (by omega), List.take_of_length_le within]

/-- A list and a part of it agree up to `cap` just when the part leaves nothing out
of the first `cap`. -/
theorem take_filter_eq_take {cap : Nat} {kept : Item → Bool} {items : List Item} :
    (items.filter kept).take cap = items.take cap ↔ ∀ item ∈ items.take cap, kept item := by
  induction items generalizing cap with
  | nil => simp
  | cons item rest ih =>
      cases cap with
      | zero => simp
      | succ cap =>
          by_cases keep : kept item
          · simp [keep, ih]
          · have shorter : (rest.filter kept).take (cap + 1) ≠ item :: rest.take cap := by
              intro same
              have inside : item ∈ rest.filter kept :=
                List.mem_of_mem_take (same ▸ List.mem_cons_self)
              exact keep (List.mem_filter.mp inside).2
            simp [keep, shorter]

/-- The values of an offset that starts at zero and advances by what stands at it. -/
def offset (advance : Nat → Nat) : Nat → Nat
  | 0 => 0
  | round + 1 => offset advance round + advance (offset advance round)

theorem offset_strictMono {advance : Nat → Nat} (moves : ∀ place, 0 < advance place) :
    StrictMono (offset advance) :=
  strictMono_nat_of_lt_succ fun round => Nat.lt_add_of_pos_right (moves (offset advance round))

/-- Nothing that such an offset comes to lies between two of its values in a row. -/
theorem offset_not_between {advance : Nat → Nat} (moves : ∀ place, 0 < advance place)
    (round other : Nat) :
    ¬(offset advance other < offset advance round ∧
      offset advance round < offset advance (other + 1)) := by
  have ordered := offset_strictMono moves
  intro ⟨past, ahead⟩
  have later : other < round := ordered.lt_iff_lt.mp past
  have earlier : round < other + 1 := ordered.lt_iff_lt.mp ahead
  omega

end Sweep
