import TransactionMonitoring.Binary64
import TransactionMonitoring.SubsetSums
import Mathlib.Analysis.Real.Sqrt
import Mathlib.Data.List.Sort

/-! The reading of a cycle's closing leg.

The similarity of a cycle's hop amounts rises up to one amount of the closing hop and falls beyond
it, so among all subsets of the closing outputs only the sums next to that amount on either side can
fit best.  Both are found by meeting in the middle, where the amount less a sum is a float; the rest
is exact.  The similarity itself is real, as a deviation is a square root; which of two amounts fits
better is decided by rationals.
-/
namespace TransactionMonitoring.ClosingLeg
open SubsetSums

/-! ## The similarity -/

/-- `statistics.mean`. -/
def mean (hops : List ℕ) : ℚ := (hops.sum : ℚ) / hops.length

/-- `statistics.variance`. -/
def variance (hops : List ℕ) : ℚ :=
  (hops.map fun h : ℕ => ((h : ℚ) - mean hops) ^ 2).sum / ((hops.length : ℚ) - 1)

/-- `statistics.stdev`. -/
noncomputable def stdev (hops : List ℕ) : ℝ := √(variance hops : ℝ)

/-- `_amount_similarity`. -/
noncomputable def amountSimilarity (hopAmounts : List ℕ) : ℝ :=
  if 2 ≤ hopAmounts.length then
    if 0 < mean hopAmounts then max 0 (min 1 (1 - stdev hopAmounts / mean hopAmounts)) else 0
  else if 0 < hopAmounts.headD 0 then 1
  else 0

/-- The square of what the similarity lacks to one. -/
def squaredLack (hopAmounts : List ℕ) : ℚ :=
  if 2 ≤ hopAmounts.length then
    if 0 < mean hopAmounts then min 1 (variance hopAmounts / mean hopAmounts ^ 2) else 1
  else if 0 < hopAmounts.headD 0 then 0
  else 1

theorem variance_nonneg (hops : List ℕ) (several : 2 ≤ hops.length) : 0 ≤ variance hops := by
  apply div_nonneg
  · apply List.sum_nonneg
    intro term member
    obtain ⟨h, -, rfl⟩ := List.mem_map.mp member
    exact sq_nonneg _
  · have more : (2 : ℚ) ≤ hops.length := by exact_mod_cast several
    linarith

theorem clip_eq {c : ℝ} (nonneg : 0 ≤ c) : max 0 (min 1 (1 - c)) = 1 - min 1 c := by
  rw [min_eq_right (by linarith)]
  rcases le_total c 1 with small | large
  · rw [max_eq_right (by linarith), min_eq_right small]
  · rw [max_eq_left (by linarith), min_eq_left large, sub_self]

theorem similarity_eq (hops : List ℕ) : amountSimilarity hops = 1 - √(squaredLack hops : ℝ) := by
  rw [amountSimilarity, squaredLack]
  split
  · split
    · rename_i positive
      have meanPos : (0 : ℝ) < mean hops := by exact_mod_cast positive
      have variation : stdev hops / mean hops = √((variance hops / mean hops ^ 2 : ℚ) : ℝ) := by
        push_cast
        rw [stdev, Real.sqrt_div' _ (sq_nonneg _), Real.sqrt_sq meanPos.le]
      have root : √((min 1 (variance hops / mean hops ^ 2) : ℚ) : ℝ) =
          min 1 √((variance hops / mean hops ^ 2 : ℚ) : ℝ) := by
        rw [Rat.cast_min, Rat.cast_one, Real.sqrt_monotone.map_min, Real.sqrt_one]
      rw [variation, root, clip_eq (Real.sqrt_nonneg _)]
    · simp
  · split <;> simp

theorem squaredLack_nonneg (hops : List ℕ) : 0 ≤ squaredLack hops := by
  rw [squaredLack]
  split
  · rename_i several
    split
    · exact le_min zero_le_one (div_nonneg (variance_nonneg hops several) (sq_nonneg _))
    · exact zero_le_one
  · split
    · exact le_refl 0
    · exact zero_le_one

theorem similarity_le_iff (first second : List ℕ) :
    amountSimilarity first ≤ amountSimilarity second ↔ squaredLack second ≤ squaredLack first := by
  have nonneg : (0 : ℝ) ≤ squaredLack first := by exact_mod_cast squaredLack_nonneg first
  rw [similarity_eq, similarity_eq, sub_le_sub_iff_left, Real.sqrt_le_sqrt_iff nonneg, Rat.cast_le]

theorem similarity_lt_iff (first second : List ℕ) :
    amountSimilarity first < amountSimilarity second ↔ squaredLack second < squaredLack first := by
  rw [← not_le, ← not_le, similarity_le_iff]

instance (first second : List ℕ) : Decidable (amountSimilarity first < amountSimilarity second) :=
  decidable_of_iff _ (similarity_lt_iff first second).symm

/-! ## The reading -/

/-- `_subset_sums`. -/
def subsetSums (amounts : List ℕ) : List ℕ :=
  amounts.foldl (fun sums amount => sums ∪ sums.map (· + amount)) [0]

/-- What one sum of the left half adds to the nearest sums found so far; `right` is sorted. -/
def nearer (rounding : Rounding ℚ (2 ^ 53)) (right : List ℕ) (target : ℚ) (found : Option ℕ × Option ℕ) (a : ℕ) :
    Option ℕ × Option ℕ :=
  -- right[i - 1] <= target - a < right[i]
  let i := bisectRight (fun s : ℕ => (s : ℚ)) (rounding.subNat target a) right
  let j := bisectLeft (fun s : ℕ => (s : ℚ)) (rounding.subNat target a) right
  let lower := right.getD (i - 1) 0
  let upper := right.getD j 0
  (if i ≠ 0 ∧ (a ≠ 0 ∨ lower ≠ 0) ∧ found.1.all (· < a + lower) then some (a + lower) else found.1,
    if j < right.length ∧ (a ≠ 0 ∨ upper ≠ 0) ∧ found.2.all (a + upper < ·) then some (a + upper) else found.2)

/-- `_nearest_subset_sums`. -/
def nearestSubsetSums (rounding : Rounding ℚ (2 ^ 53)) (amounts : List ℕ) (target : ℚ) : Option ℕ × Option ℕ :=
  let half := amounts.length / 2
  let left := subsetSums (amounts.take half)
  let right := (subsetSums (amounts.drop half)).insertionSort (· ≤ ·)
  left.foldl (nearer rounding right target) (none, none)

/-- `max` over the candidates by the similarity with the prior hops: of equals the first. -/
def fittest (priorHopAmounts : List ℕ) : ℕ → List ℕ → ℕ
  | best, [] => best
  | best, c :: rest =>
    fittest priorHopAmounts
      (if amountSimilarity (priorHopAmounts ++ [best]) < amountSimilarity (priorHopAmounts ++ [c]) then c else best)
      rest

/-- The closing amount the similarity is highest at. -/
def peak (priorHopAmounts : List ℕ) : ℚ :=
  ((priorHopAmounts.map fun h => h * h).sum : ℕ) / (priorHopAmounts.sum : ℚ)

/-- `_closing_reading`, its arithmetic exact. -/
def closingReading (closingSubsetMaxOutputs : ℕ) (amounts : List ℕ) (matchedAmount total : ℕ)
    (priorHopAmounts : List ℕ) : ℕ :=
  let others :=
    if 0 < priorHopAmounts.sum ∧ amounts ≠ [] then
      if amounts.length ≤ closingSubsetMaxOutputs then
        let (below, above) := nearestSubsetSums (Rounding.exact ℚ (2 ^ 53)) amounts (peak priorHopAmounts)
        below.toList ++ above.toList
      else
        [min (max (roundHalfEven (peak priorHopAmounts)).toNat (amounts.min?.getD 0)) total]
    else []
  -- Total first, so max() keeps it on a tie.
  fittest priorHopAmounts total (matchedAmount :: others)

/-- The total of the closing leg: never less than the matched row. -/
def legTotal (amounts : List ℕ) (matchedAmount : ℕ) : ℕ := max amounts.sum matchedAmount

structure CycleConfig where
  minCycleLength : ℕ
  maxCycleLength : ℕ
  closingSubsetMaxOutputs : ℕ

/-- `_closing_leg_amounts`: the total, the amount for the similarity and whether the read failed;
`rows` is what the closing transaction paid origin addresses, if the read succeeds. -/
def closingLegAmounts (config : CycleConfig) (rows : Option (List (String × ℕ))) (cycleLength matchedAmount : ℕ)
    (priorHopAmounts : List ℕ) : ℕ × ℕ × Bool :=
  if ¬ (config.minCycleLength ≤ cycleLength ∧ cycleLength ≤ config.maxCycleLength) then
    (matchedAmount, matchedAmount, false)
  else
    match rows with
    | none => (matchedAmount, matchedAmount, true)
    | some rows =>
      let amounts := rows.map Prod.snd
      let total := legTotal amounts matchedAmount
      (total, closingReading config.closingSubsetMaxOutputs amounts matchedAmount total priorHopAmounts, false)

/-! ## The nearest sums -/

theorem mem_sums_from (amounts sums : List ℕ) (s : ℕ) :
    s ∈ amounts.foldl (fun sums amount => sums ∪ sums.map (· + amount)) sums ↔
      ∃ base ∈ sums, ∃ t, IsSum amounts t ∧ base + t = s := by
  induction amounts generalizing sums with
  | nil => simp [isSum_nil]
  | cons amount rest ih =>
    rw [List.foldl_cons, ih]
    simp only [List.mem_union_iff, List.mem_map, isSum_cons]
    constructor
    · rintro ⟨base, old | ⟨older, old, rfl⟩, t, isSum, rfl⟩
      · exact ⟨base, old, t, .inl isSum, rfl⟩
      · exact ⟨older, old, amount + t, .inr ⟨t, isSum, rfl⟩, (Nat.add_assoc ..).symm⟩
    · rintro ⟨base, old, t, isSum | ⟨u, isSum, rfl⟩, rfl⟩
      · exact ⟨base, .inl old, t, isSum, rfl⟩
      · exact ⟨base + amount, .inr ⟨base, old, rfl⟩, u, isSum, Nat.add_assoc ..⟩

theorem mem_subsetSums (amounts : List ℕ) (s : ℕ) : s ∈ subsetSums amounts ↔ IsSum amounts s := by
  rw [subsetSums, mem_sums_from]
  simp

/-- The greatest candidate at or below the target, if there is one. -/
def Below (candidate : ℕ → Prop) (target : ℚ) (found : Option ℕ) : Prop :=
  (∀ b ∈ found, candidate b ∧ (b : ℚ) ≤ target) ∧ ∀ c, candidate c → (c : ℚ) ≤ target → ∃ b ∈ found, c ≤ b

/-- The least candidate at or above the target, if there is one. -/
def Above (candidate : ℕ → Prop) (target : ℚ) (found : Option ℕ) : Prop :=
  (∀ b ∈ found, candidate b ∧ target ≤ (b : ℚ)) ∧ ∀ c, candidate c → target ≤ (c : ℚ) → ∃ b ∈ found, b ≤ c

/-- The candidates, and beside them the sums of `a` with the right half's. -/
def With (candidate : ℕ → Prop) (right : List ℕ) (a c : ℕ) : Prop :=
  candidate c ∨ ∃ r ∈ right, (a ≠ 0 ∨ r ≠ 0) ∧ a + r = c

/-- The target less a sum, as it is stored, lies among the whole numbers where the exact difference does. -/
structure Places (rounding : Rounding ℚ (2 ^ 53)) (target : ℚ) : Prop where
  below : ∀ a r : ℕ, ((a + r : ℕ) : ℚ) ≤ target ↔ (r : ℚ) ≤ rounding.subNat target a
  above : ∀ a r : ℕ, target ≤ ((a + r : ℕ) : ℚ) ↔ rounding.subNat target a ≤ (r : ℚ)

/-- Exact differences do. -/
theorem places_exact (target : ℚ) : Places (Rounding.exact ℚ (2 ^ 53)) target := by
  have difference (a : ℕ) : (Rounding.exact ℚ (2 ^ 53)).subNat target a = target - a := rfl
  constructor
  · intro a r
    rw [difference, Nat.cast_add, le_sub_iff_add_le']
  · intro a r
    rw [difference, Nat.cast_add, sub_le_iff_le_add']

/-- Floats do below `2 ^ 53`. -/
theorem places_float {target : ℚ} (float : Binary64.IsFloat target) (positive : 0 < target) (small : target < 2 ^ 53) :
    Places Binary64.rounding target := by
  constructor
  · intro a r
    rcases le_or_gt (a : ℚ) target with le | less
    · rw [Binary64.subNat_eq float positive small le, Nat.cast_add, le_sub_iff_add_le']
    · have negative := Binary64.subNat_neg small less
      have sum : (a : ℚ) ≤ ((a + r : ℕ) : ℚ) := by exact_mod_cast Nat.le_add_right a r
      exact iff_of_false (not_le.mpr (less.trans_le sum)) (not_le.mpr (negative.trans_le (Nat.cast_nonneg r)))
  · intro a r
    rcases le_or_gt (a : ℚ) target with le | less
    · rw [Binary64.subNat_eq float positive small le, Nat.cast_add, sub_le_iff_le_add']
    · have negative := Binary64.subNat_neg small less
      have sum : (a : ℚ) ≤ ((a + r : ℕ) : ℚ) := by exact_mod_cast Nat.le_add_right a r
      exact iff_of_true (less.le.trans sum) (negative.le.trans (Nat.cast_nonneg r))

section Nearer
variable {rounding : Rounding ℚ (2 ^ 53)} {candidate : ℕ → Prop} {right : List ℕ} {target : ℚ}
  {found : Option ℕ × Option ℕ}

theorem ordered_casts (sorted : right.Pairwise (· ≤ ·)) : right.Pairwise fun a b : ℕ => (a : ℚ) ≤ (b : ℚ) :=
  sorted.imp fun less => by exact_mod_cast less

/-- Where the new sums at or below the target reach up to `top`, which is itself one of them or
no higher than what is found, the nearer of both is found. -/
theorem nearer_below (sorted : right.Pairwise (· ≤ ·)) (places : Places rounding target) (a : ℕ)
    (below : Below candidate target found.1) :
    Below (With candidate right a) target (nearer rounding right target found a).1 := by
  have kept (noBetter : ∀ r ∈ right, (a ≠ 0 ∨ r ≠ 0) → ((a + r : ℕ) : ℚ) ≤ target → ∃ b ∈ found.1, a + r ≤ b) :
      Below (With candidate right a) target found.1 := by
    refine ⟨fun b member => ⟨.inl (below.1 b member).1, (below.1 b member).2⟩, ?_⟩
    rintro c (old | ⟨r, member, nonzero, rfl⟩) least
    · exact below.2 c old least
    · exact noBetter r member nonzero least
  have shifted := places.below a
  simp only [nearer]
  cases place : bisectRight (fun s : ℕ => (s : ℚ)) (rounding.subNat target a) right with
  | zero =>
    rw [if_neg fun both => both.1 rfl]
    exact kept fun r member _ least => absurd ((shifted r).mp least) (bisectRight_zero place r member)
  | succ i =>
    obtain ⟨lower, atPlace, inRight, fits, highest⟩ := before_bisectRight (ordered_casts sorted) place
    have read : right.getD (i + 1 - 1) 0 = lower := by
      rw [Nat.add_sub_cancel, List.getD_eq_getElem?_getD, atPlace, Option.getD_some]
    have top (r : ℕ) (member : r ∈ right) (least : ((a + r : ℕ) : ℚ) ≤ target) : r ≤ lower := by
      exact_mod_cast highest r member ((shifted r).mp least)
    rw [read]
    split
    · rename_i better
      refine ⟨fun b member => ?_, ?_⟩
      · cases member
        exact ⟨.inr ⟨lower, inRight, better.2.1, rfl⟩, (shifted lower).mpr fits⟩
      · rintro c (old | ⟨r, member, nonzero, rfl⟩) least
        · obtain ⟨b, member, less⟩ := below.2 c old least
          have higher : b < a + lower := by simpa using (Option.all_eq_true _ _).mp better.2.2 b member
          exact ⟨a + lower, rfl, by omega⟩
        · exact ⟨a + lower, rfl, Nat.add_le_add_left (top r member least) a⟩
    · rename_i noBetter
      refine kept fun r member nonzero least => ?_
      have under := top r member least
      have counted : i + 1 ≠ 0 ∧ (a ≠ 0 ∨ lower ≠ 0) := ⟨Nat.succ_ne_zero i, by omega⟩
      have blocked : ¬ found.1.all (· < a + lower) = true := fun all => noBetter ⟨counted.1, counted.2, all⟩
      rw [Option.all_eq_true] at blocked
      push Not at blocked
      obtain ⟨b, inFound, notLess⟩ := blocked
      have high : a + lower ≤ b := by simpa using notLess
      exact ⟨b, inFound, by omega⟩

theorem nearer_above (sorted : right.Pairwise (· ≤ ·)) (places : Places rounding target) (positive : 0 < target) (a : ℕ)
    (above : Above candidate target found.2) :
    Above (With candidate right a) target (nearer rounding right target found a).2 := by
  have kept (noBetter : ∀ r ∈ right, target ≤ ((a + r : ℕ) : ℚ) → ∃ b ∈ found.2, b ≤ a + r) :
      Above (With candidate right a) target found.2 := by
    refine ⟨fun b member => ⟨.inl (above.1 b member).1, (above.1 b member).2⟩, ?_⟩
    rintro c (old | ⟨r, member, -, rfl⟩) most
    · exact above.2 c old most
    · exact noBetter r member most
  have shifted := places.above a
  simp only [nearer]
  by_cases inside : bisectLeft (fun s : ℕ => (s : ℚ)) (rounding.subNat target a) right < right.length
  · obtain ⟨upper, atPlace, inRight, fits, lowest⟩ := at_bisectLeft (ordered_casts sorted) rfl inside
    have read : right.getD (bisectLeft (fun s : ℕ => (s : ℚ)) (rounding.subNat target a) right) 0 = upper := by
      rw [List.getD_eq_getElem?_getD, atPlace, Option.getD_some]
    have bottom (r : ℕ) (member : r ∈ right) (most : target ≤ ((a + r : ℕ) : ℚ)) : upper ≤ r := by
      exact_mod_cast lowest r member ((shifted r).mp most)
    have nonzero : a ≠ 0 ∨ upper ≠ 0 := by
      by_contra zero
      push Not at zero
      have reached := (shifted upper).mpr fits
      rw [zero.1, zero.2, Nat.add_zero, Nat.cast_zero] at reached
      exact absurd positive (not_lt.mpr reached)
    rw [read]
    split
    · rename_i better
      refine ⟨fun b member => ?_, ?_⟩
      · cases member
        exact ⟨.inr ⟨upper, inRight, nonzero, rfl⟩, (shifted upper).mpr fits⟩
      · rintro c (old | ⟨r, member, -, rfl⟩) most
        · obtain ⟨b, member, less⟩ := above.2 c old most
          have lower : a + upper < b := by simpa using (Option.all_eq_true _ _).mp better.2.2 b member
          exact ⟨a + upper, rfl, by omega⟩
        · exact ⟨a + upper, rfl, Nat.add_le_add_left (bottom r member most) a⟩
    · rename_i noBetter
      refine kept fun r member most => ?_
      have bound := bottom r member most
      have blocked : ¬ found.2.all (a + upper < ·) = true := fun all => noBetter ⟨inside, nonzero, all⟩
      rw [Option.all_eq_true] at blocked
      push Not at blocked
      obtain ⟨b, inFound, notLess⟩ := blocked
      have low : b ≤ a + upper := by simpa using notLess
      exact ⟨b, inFound, by omega⟩
  · rw [if_neg fun both => inside both.1]
    exact kept fun r member most =>
      absurd ((shifted r).mp most) (bisectLeft_length (Nat.not_lt.mp inside) r member)

end Nearer

/-- The search finds the nearest sums on both sides. -/
theorem nearer_all {rounding : Rounding ℚ (2 ^ 53)} (right : List ℕ) (sorted : right.Pairwise (· ≤ ·)) {target : ℚ}
    (places : Places rounding target) (positive : 0 < target)
    (left : List ℕ) (candidate : ℕ → Prop) (found : Option ℕ × Option ℕ)
    (below : Below candidate target found.1) (above : Above candidate target found.2) :
    Below (fun c => candidate c ∨ ∃ a ∈ left, ∃ r ∈ right, (a ≠ 0 ∨ r ≠ 0) ∧ a + r = c) target
        (left.foldl (nearer rounding right target) found).1 ∧
      Above (fun c => candidate c ∨ ∃ a ∈ left, ∃ r ∈ right, (a ≠ 0 ∨ r ≠ 0) ∧ a + r = c) target
        (left.foldl (nearer rounding right target) found).2 := by
  induction left generalizing candidate found with
  | nil => simpa using ⟨below, above⟩
  | cons a left ih =>
    have step := ih (With candidate right a) (nearer rounding right target found a) (nearer_below sorted places a below)
      (nearer_above sorted places positive a above)
    simpa only [List.foldl_cons, With, List.mem_cons, exists_eq_or_imp, or_assoc] using step

/-- The sum of a non-empty subset. -/
def SubsetSum (amounts : List ℕ) (c : ℕ) : Prop :=
  ∃ chosen : List ℕ, chosen.Sublist amounts ∧ chosen ≠ [] ∧ chosen.sum = c

/-- `_nearest_subset_sums` finds the nearest sums of non-empty subsets. -/
theorem nearest_found {rounding : Rounding ℚ (2 ^ 53)} (amounts : List ℕ) (positive : ∀ a ∈ amounts, 0 < a)
    {target : ℚ} (places : Places rounding target) (reachable : 0 < target) :
    Below (SubsetSum amounts) target (nearestSubsetSums rounding amounts target).1 ∧
      Above (SubsetSum amounts) target (nearestSubsetSums rounding amounts target).2 := by
  have searched := nearer_all
    ((subsetSums (amounts.drop (amounts.length / 2))).insertionSort (· ≤ ·))
    (List.pairwise_insertionSort (· ≤ ·) _) places reachable (subsetSums (amounts.take (amounts.length / 2)))
    (fun _ => False) (none, none) ⟨by simp, by simp⟩ ⟨by simp, by simp⟩
  have same (c : ℕ) : (False ∨ ∃ a ∈ subsetSums (amounts.take (amounts.length / 2)),
      ∃ r ∈ (subsetSums (amounts.drop (amounts.length / 2))).insertionSort (· ≤ ·), (a ≠ 0 ∨ r ≠ 0) ∧ a + r = c) ↔
      SubsetSum amounts c := by
    simp only [false_or, List.mem_insertionSort, mem_subsetSums]
    constructor
    · rintro ⟨a, isLeft, r, isRight, nonzero, rfl⟩
      obtain ⟨chosen, sublist, total⟩ := isSum_append.mpr ⟨a, r, isLeft, isRight, rfl⟩
      rw [List.take_append_drop] at sublist
      refine ⟨chosen, sublist, ?_, total⟩
      rintro rfl
      rw [List.sum_nil] at total
      omega
    · rintro ⟨chosen, sublist, nonempty, rfl⟩
      have more := sum_pos positive sublist nonempty
      have whole : IsSum (amounts.take (amounts.length / 2) ++ amounts.drop (amounts.length / 2)) chosen.sum :=
        ⟨chosen, by rwa [List.take_append_drop], rfl⟩
      obtain ⟨a, r, isLeft, isRight, total⟩ := isSum_append.mp whole
      exact ⟨a, isLeft, r, isRight, by omega, total⟩
  rw [funext fun c => propext (same c)] at searched
  exact searched

/-! ### Against the enumeration -/

/-- The sums of all non-empty subsets, one by one. -/
def enumeratedSums (amounts : List ℕ) : List ℕ := (amounts.sublists.filter (· ≠ [])).map List.sum

/-- What going through every non-empty subset finds next to the target. -/
def enumeratedNearest (amounts : List ℕ) (target : ℚ) : Option ℕ × Option ℕ :=
  (((enumeratedSums amounts).filter fun s : ℕ => (s : ℚ) ≤ target).max?,
    ((enumeratedSums amounts).filter fun s : ℕ => target ≤ (s : ℚ)).min?)

theorem mem_enumeratedSums (amounts : List ℕ) (s : ℕ) : s ∈ enumeratedSums amounts ↔ SubsetSum amounts s := by
  simp only [enumeratedSums, List.mem_map, List.mem_filter, List.mem_sublists, decide_eq_true_eq, SubsetSum,
    and_assoc]

/-- There is at most one greatest candidate at or below the target. -/
theorem below_eq {candidates : List ℕ} {target : ℚ} {found : Option ℕ}
    (below : Below (· ∈ candidates) target found) :
    found = (candidates.filter fun s : ℕ => (s : ℚ) ≤ target).max? := by
  symm
  cases found with
  | none =>
    rw [List.max?_eq_none_iff, List.filter_eq_nil_iff]
    intro s member least
    obtain ⟨b, absurdity, -⟩ := below.2 s member (of_decide_eq_true least)
    cases absurdity
  | some b =>
    obtain ⟨member, least⟩ := below.1 b rfl
    rw [List.max?_eq_some_iff]
    refine ⟨List.mem_filter.mpr ⟨member, decide_eq_true least⟩, fun s inside => ?_⟩
    obtain ⟨candidate, fits⟩ := List.mem_filter.mp inside
    obtain ⟨c, same, less⟩ := below.2 s candidate (of_decide_eq_true fits)
    cases same
    exact less

/-- There is at most one least candidate at or above the target. -/
theorem above_eq {candidates : List ℕ} {target : ℚ} {found : Option ℕ}
    (above : Above (· ∈ candidates) target found) :
    found = (candidates.filter fun s : ℕ => target ≤ (s : ℚ)).min? := by
  symm
  cases found with
  | none =>
    rw [List.min?_eq_none_iff, List.filter_eq_nil_iff]
    intro s member most
    obtain ⟨b, absurdity, -⟩ := above.2 s member (of_decide_eq_true most)
    cases absurdity
  | some b =>
    obtain ⟨member, most⟩ := above.1 b rfl
    rw [List.min?_eq_some_iff]
    refine ⟨List.mem_filter.mpr ⟨member, decide_eq_true most⟩, fun s inside => ?_⟩
    obtain ⟨candidate, fits⟩ := List.mem_filter.mp inside
    obtain ⟨c, same, less⟩ := above.2 s candidate (of_decide_eq_true fits)
    cases same
    exact less

/-- Meeting in the middle finds what the enumeration of all non-empty subsets finds, the target being a float
below `2 ^ 53`. -/
theorem nearest_eq_enumerated (amounts : List ℕ) (positive : ∀ a ∈ amounts, 0 < a) (target : ℚ)
    (float : Binary64.IsFloat target) (reachable : 0 < target) (small : target < 2 ^ 53) :
    nearestSubsetSums Binary64.rounding amounts target = enumeratedNearest amounts target := by
  obtain ⟨below, above⟩ := nearest_found amounts positive (places_float float reachable small) reachable
  rw [← funext fun s => propext (mem_enumeratedSums amounts s)] at below above
  exact Prod.ext (below_eq below) (above_eq above)

/-- An exact hit is the nearest on both sides. -/
theorem nearest_eq_enumerated_hit :
    nearestSubsetSums Binary64.rounding [3, 5, 7] 8 = enumeratedNearest [3, 5, 7] 8 ∧
      enumeratedNearest [3, 5, 7] 8 = (some 8, some 8) := by
  have float : Binary64.IsFloat 8 := Binary64.rounding.whole 8 (by decide)
  exact ⟨nearest_eq_enumerated [3, 5, 7] (by decide) 8 float (by decide) (by decide), by decide +kernel⟩

/-- Above `2 ^ 53` the difference is rounded: what is left of the target by a sum one short of it is stored as two. -/
theorem exact_hit_missed :
    ¬∀ (amounts : List ℕ) (target : ℚ), (∀ a ∈ amounts, 0 < a) → Binary64.IsFloat target → 0 < target →
      nearestSubsetSums Binary64.rounding amounts target = enumeratedNearest amounts target := by
  intro agree
  have float : Binary64.IsFloat 9007199254740994 := by decide +kernel
  have hit := agree [9007199254740993, 1] 9007199254740994 (by decide) float (by decide)
  revert hit
  decide +kernel

/-! ## The similarity rises up to the peak and falls beyond it -/

theorem squares_around (hops : List ℕ) (m : ℚ) :
    (hops.map fun h : ℕ => ((h : ℚ) - m) ^ 2).sum =
      ((hops.map fun h => h * h).sum : ℕ) - 2 * m * (hops.sum : ℕ) + hops.length * m ^ 2 := by
  induction hops with
  | nil => simp
  | cons h rest ih =>
    simp only [List.map_cons, List.sum_cons, ih, List.length_cons, Nat.cast_add, Nat.cast_mul, Nat.cast_one]
    ring

theorem sum_le_squares (hops : List ℕ) : hops.sum ≤ (hops.map fun h => h * h).sum := by
  induction hops with
  | nil => exact le_refl _
  | cons h rest ih =>
    rw [List.map_cons, List.sum_cons, List.sum_cons]
    exact Nat.add_le_add (Nat.le_mul_self h) ih

/-- The part of the squared variation that the closing amount moves. -/
def unevenness (total squares x : ℚ) : ℚ := (squares + x ^ 2) / (total + x) ^ 2

theorem unevenness_falls {total squares x y : ℚ} (positive : 0 < total) (nonneg : 0 ≤ x) (less : x ≤ y)
    (upToPeak : total * y ≤ squares) : unevenness total squares y ≤ unevenness total squares x := by
  have atX : 0 ≤ squares - total * x := by nlinarith
  have atY : 0 ≤ squares - total * y := by linarith
  have difference : (squares + x ^ 2) * (total + y) ^ 2 - (squares + y ^ 2) * (total + x) ^ 2 =
      (y - x) * ((total + y) * (squares - total * x) + (total + x) * (squares - total * y)) := by ring
  have product : 0 ≤ (y - x) * ((total + y) * (squares - total * x) + (total + x) * (squares - total * y)) :=
    mul_nonneg (by linarith) (add_nonneg (mul_nonneg (by linarith) atX) (mul_nonneg (by linarith) atY))
  have belowX : 0 < (total + x) ^ 2 := pow_pos (by linarith) 2
  have belowY : 0 < (total + y) ^ 2 := pow_pos (by linarith) 2
  rw [unevenness, unevenness, div_le_div_iff₀ belowY belowX]
  linarith

theorem unevenness_rises {total squares x y : ℚ} (positive : 0 < total) (nonneg : 0 ≤ x) (less : x ≤ y)
    (fromPeak : squares ≤ total * x) : unevenness total squares x ≤ unevenness total squares y := by
  have atX : 0 ≤ total * x - squares := by linarith
  have atY : 0 ≤ total * y - squares := by nlinarith
  have difference : (squares + y ^ 2) * (total + x) ^ 2 - (squares + x ^ 2) * (total + y) ^ 2 =
      (y - x) * ((total + y) * (total * x - squares) + (total + x) * (total * y - squares)) := by ring
  have product : 0 ≤ (y - x) * ((total + y) * (total * x - squares) + (total + x) * (total * y - squares)) :=
    mul_nonneg (by linarith) (add_nonneg (mul_nonneg (by linarith) atX) (mul_nonneg (by linarith) atY))
  have belowX : 0 < (total + x) ^ 2 := pow_pos (by linarith) 2
  have belowY : 0 < (total + y) ^ 2 := pow_pos (by linarith) 2
  rw [unevenness, unevenness, div_le_div_iff₀ belowX belowY]
  linarith

section Prior
variable (prior : List ℕ)

def sumSquares : ℚ := ((prior.map fun h => h * h).sum : ℕ)

/-- The squared lack in terms of the closing amount. -/
theorem squaredLack_append (nonempty : prior ≠ []) (c : ℕ) (positive : 0 < prior.sum + c) :
    squaredLack (prior ++ [c]) =
      min 1 ((prior.length + 1) ^ 2 / prior.length * unevenness prior.sum (sumSquares prior) c -
        (prior.length + 1) / prior.length) := by
  have longer : 0 < prior.length := List.length_pos_of_ne_nil nonempty
  have lengthPos : (0 : ℚ) < prior.length := by exact_mod_cast longer
  have sumPos : (0 : ℚ) < prior.sum + c := by exact_mod_cast positive
  have meanEq : mean (prior ++ [c]) = (prior.sum + c) / (prior.length + 1) := by
    simp [mean]
  have meanPos : 0 < mean (prior ++ [c]) := by
    rw [meanEq]
    positivity
  have several : 2 ≤ (prior ++ [c]).length := by
    rw [List.length_append, List.length_singleton]
    omega
  rw [squaredLack, if_pos several, if_pos meanPos, variance, squares_around, meanEq, unevenness, sumSquares]
  congr 1
  simp only [List.map_append, List.map_cons, List.map_nil, List.sum_append, List.sum_singleton, List.length_append,
    List.length_singleton, Nat.cast_add, Nat.cast_mul, Nat.cast_one]
  have sumNe : (prior.sum : ℚ) + c ≠ 0 := ne_of_gt sumPos
  have lengthNe : (prior.length : ℚ) ≠ 0 := ne_of_gt lengthPos
  have moreNe : (prior.length : ℚ) + 1 ≠ 0 := by positivity
  have less : (prior.length : ℚ) + 1 - 1 = prior.length := add_sub_cancel_right _ _
  rw [less]
  field_simp
  ring

/-- A smaller unevenness is a higher similarity. -/
theorem similarity_of_unevenness (nonempty : prior ≠ []) (weighty : 0 < prior.sum) {c d : ℕ}
    (smoother : unevenness prior.sum (sumSquares prior) d ≤ unevenness prior.sum (sumSquares prior) c) :
    amountSimilarity (prior ++ [c]) ≤ amountSimilarity (prior ++ [d]) := by
  rw [similarity_le_iff, squaredLack_append prior nonempty c (by omega), squaredLack_append prior nonempty d (by omega)]
  apply min_le_min_left
  apply sub_le_sub_right
  exact mul_le_mul_of_nonneg_left smoother (by positivity)

theorem peak_pos (weighty : 0 < prior.sum) : 0 < peak prior := by
  have squares : 0 < (prior.map fun h => h * h).sum := Nat.lt_of_lt_of_le weighty (sum_le_squares prior)
  apply div_pos
  · exact_mod_cast squares
  · exact_mod_cast weighty

theorem nonempty_of_weighty (weighty : 0 < prior.sum) : prior ≠ [] := by
  rintro rfl
  exact absurd weighty (lt_irrefl 0)

/-- Up to the peak more fits better. -/
theorem similarity_rises (weighty : 0 < prior.sum) {c d : ℕ} (less : c ≤ d) (upToPeak : (d : ℚ) ≤ peak prior) :
    amountSimilarity (prior ++ [c]) ≤ amountSimilarity (prior ++ [d]) := by
  have weight : (0 : ℚ) < prior.sum := by exact_mod_cast weighty
  apply similarity_of_unevenness prior (nonempty_of_weighty prior weighty) weighty
  apply unevenness_falls weight (Nat.cast_nonneg c) (by exact_mod_cast less)
  rw [peak, le_div_iff₀ weight] at upToPeak
  rw [mul_comm]
  exact upToPeak

/-- From the peak on less fits better. -/
theorem similarity_falls (weighty : 0 < prior.sum) {c d : ℕ} (less : c ≤ d) (fromPeak : peak prior ≤ (c : ℚ)) :
    amountSimilarity (prior ++ [d]) ≤ amountSimilarity (prior ++ [c]) := by
  have weight : (0 : ℚ) < prior.sum := by exact_mod_cast weighty
  apply similarity_of_unevenness prior (nonempty_of_weighty prior weighty) weighty
  apply unevenness_rises weight (Nat.cast_nonneg c) (by exact_mod_cast less)
  rw [peak, div_le_iff₀ weight] at fromPeak
  rw [mul_comm]
  exact fromPeak

/-- Without weight in the prior hops every positive amount has the same, least similarity beside
some hops, and the full one on its own. -/
theorem weightless_lack (weightless : prior.sum = 0) {c : ℕ} (positive : 0 < c) :
    squaredLack (prior ++ [c]) = if prior = [] then 0 else 1 := by
  split
  · rename_i empty
    rw [empty, squaredLack]
    simp [positive]
  · rename_i nonempty
    have longer : (0 : ℚ) < prior.length := by exact_mod_cast List.length_pos_of_ne_nil nonempty
    have amount : (0 : ℚ) < c := by exact_mod_cast positive
    have zeros : sumSquares prior = 0 := by
      have none (h : ℕ) (member : h ∈ prior) : h = 0 := List.sum_eq_zero_iff.mp weightless h member
      rw [sumSquares, Nat.cast_eq_zero, List.sum_eq_zero_iff]
      intro square member
      obtain ⟨h, inside, rfl⟩ := List.mem_map.mp member
      rw [none h inside, Nat.mul_zero]
    rw [squaredLack_append prior nonempty c (by omega), weightless, zeros, unevenness]
    apply min_eq_left
    have whole : ((0 : ℚ) + (c : ℚ) ^ 2) / (((0 : ℕ) : ℚ) + c) ^ 2 = 1 := by
      rw [zero_add, Nat.cast_zero, zero_add, div_self (ne_of_gt (pow_pos amount 2))]
    rw [whole, mul_one, ← sub_div, le_div_iff₀ longer]
    nlinarith

/-! ## The selected reading -/

theorem fittest_spec (others : List ℕ) (best : ℕ) :
    (∀ c ∈ best :: others,
      amountSimilarity (prior ++ [c]) ≤ amountSimilarity (prior ++ [fittest prior best others])) ∧
    (fittest prior best others = best ∨
      amountSimilarity (prior ++ [best]) < amountSimilarity (prior ++ [fittest prior best others])) := by
  induction others generalizing best with
  | nil => simp [fittest]
  | cons c others ih =>
    rw [fittest]
    split
    · rename_i better
      obtain ⟨highest, -⟩ := ih c
      have further := lt_of_lt_of_le better (highest c List.mem_cons_self)
      refine ⟨fun d member => ?_, .inr further⟩
      rcases List.mem_cons.mp member with rfl | member
      · exact further.le
      · exact highest d member
    · rename_i noBetter
      obtain ⟨highest, tie⟩ := ih best
      refine ⟨fun d member => ?_, tie⟩
      simp only [List.mem_cons] at member
      rcases member with rfl | rfl | member
      · exact highest d List.mem_cons_self
      · exact (not_lt.mp noBetter).trans (highest best List.mem_cons_self)
      · exact highest d (List.mem_cons_of_mem _ member)

end Prior

theorem closingReading_searched {cap : ℕ} {amounts prior : List ℕ} (matched total : ℕ) (few : amounts.length ≤ cap)
    (weighty : 0 < prior.sum) (present : amounts ≠ []) :
    closingReading cap amounts matched total prior =
      fittest prior total (matched :: ((nearestSubsetSums (Rounding.exact ℚ (2 ^ 53)) amounts (peak prior)).1.toList ++
        (nearestSubsetSums (Rounding.exact ℚ (2 ^ 53)) amounts (peak prior)).2.toList)) := by
  rw [closingReading, if_pos ⟨weighty, present⟩, if_pos few]

/-- With weight in the prior hops the nearest sums around the peak beat every other one. -/
theorem subset_beaten {cap : ℕ} {amounts prior : List ℕ} (matched total : ℕ) (positive : ∀ a ∈ amounts, 0 < a)
    (few : amounts.length ≤ cap) (weighty : 0 < prior.sum) {c : ℕ} (subset : SubsetSum amounts c) :
    amountSimilarity (prior ++ [c]) ≤
      amountSimilarity (prior ++ [closingReading cap amounts matched total prior]) := by
  have present : amounts ≠ [] := by
    rintro rfl
    obtain ⟨chosen, sublist, nonempty, -⟩ := subset
    exact nonempty (List.sublist_nil.mp sublist)
  obtain ⟨below, above⟩ := nearest_found amounts positive (places_exact (peak prior)) (peak_pos prior weighty)
  rw [closingReading_searched matched total few weighty present]
  have highest := (fittest_spec prior
    (matched :: ((nearestSubsetSums (Rounding.exact ℚ (2 ^ 53)) amounts (peak prior)).1.toList ++
      (nearestSubsetSums (Rounding.exact ℚ (2 ^ 53)) amounts (peak prior)).2.toList)) total).1
  rcases le_total (c : ℚ) (peak prior) with low | high
  · obtain ⟨b, found, closer⟩ := below.2 c subset low
    exact (similarity_rises prior weighty closer (below.1 b found).2).trans
      (highest b (.tail _ (.tail _ (List.mem_append_left _ (Option.mem_toList.mpr found)))))
  · obtain ⟨b, found, closer⟩ := above.2 c subset high
    exact (similarity_falls prior weighty closer (above.1 b found).2).trans
      (highest b (.tail _ (.tail _ (List.mem_append_right _ (Option.mem_toList.mpr found)))))

/-- No subset of the closing outputs fits the other hops better than the selected reading, nor
does the matched row or the total; and the total is kept where it fits as well. -/
theorem reading_optimal (cap : ℕ) (amounts prior : List ℕ) (matched : ℕ) (positive : ∀ a ∈ amounts, 0 < a)
    (few : amounts.length ≤ cap) :
    (∀ c, SubsetSum amounts c → amountSimilarity (prior ++ [c]) ≤
      amountSimilarity (prior ++ [closingReading cap amounts matched (legTotal amounts matched) prior])) ∧
    amountSimilarity (prior ++ [matched]) ≤
      amountSimilarity (prior ++ [closingReading cap amounts matched (legTotal amounts matched) prior]) ∧
    amountSimilarity (prior ++ [legTotal amounts matched]) ≤
      amountSimilarity (prior ++ [closingReading cap amounts matched (legTotal amounts matched) prior]) ∧
    (amountSimilarity (prior ++ [legTotal amounts matched]) =
        amountSimilarity (prior ++ [closingReading cap amounts matched (legTotal amounts matched) prior]) →
      closingReading cap amounts matched (legTotal amounts matched) prior = legTotal amounts matched) := by
  obtain ⟨others, selected⟩ : ∃ others, closingReading cap amounts matched (legTotal amounts matched) prior =
      fittest prior (legTotal amounts matched) (matched :: others) := ⟨_, rfl⟩
  obtain ⟨highest, tie⟩ := fittest_spec prior (matched :: others) (legTotal amounts matched)
  rw [← selected] at highest tie
  refine ⟨fun c subset => ?_, highest matched (by simp), highest _ List.mem_cons_self, fun same => ?_⟩
  · rcases Nat.eq_zero_or_pos prior.sum with weightless | weighty
    · obtain ⟨chosen, sublist, nonempty, rfl⟩ := subset
      have amount := sum_pos positive sublist nonempty
      have total : 0 < legTotal amounts matched := by
        have bound := sublist.sum_le_sum fun _ _ => Nat.zero_le _
        rw [legTotal]
        omega
      refine le_trans ?_ (highest _ List.mem_cons_self)
      rw [similarity_le_iff, weightless_lack prior weightless amount, weightless_lack prior weightless total]
    · exact subset_beaten matched _ positive few weighty subset
  · rcases tie with kept | better
    · exact kept
    · exact absurd same (ne_of_lt better)

/-- A repayment of five beside change of three: the repayment is read. -/
theorem repayment_read_beside_change :
    closingReading 20 [3, 5] 3 (legTotal [3, 5] 3) [5] = 5 ∧
    ∀ c, SubsetSum [3, 5] c → amountSimilarity ([5] ++ [c]) ≤
      amountSimilarity ([5] ++ [closingReading 20 [3, 5] 3 (legTotal [3, 5] 3) [5]]) :=
  ⟨by decide +kernel, (reading_optimal 20 [3, 5] [5] 3 (by simp) (by simp)).1⟩

end TransactionMonitoring.ClosingLeg
