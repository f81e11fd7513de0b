import Mathlib.Algebra.Order.Field.Rat
import Mathlib.Algebra.Order.Ring.Star
import Mathlib.Data.Rat.Star
import TransactionMonitoring.Rounding

/-! The banding of multiple satisfaction.

The score of a script group is a weighted sum of its axes, put on the scale of the risk bands
and then adjusted: two floors lift it into the High band, the sweep guard caps it at the top of
Moderate, and a benign shape suppresses it or, where much was extracted, keeps it in Moderate.
The arithmetic is rounded; what the arithmetic of floats promises is a parameter.
-/
namespace TransactionMonitoring.MultipleSat

/-! ## Configuration -/

def bandHighThreshold : ℚ := 60
def bandModerateThreshold : ℚ := 31
def bandModerateMax : ℚ := bandHighThreshold - 1

structure Weights where
  extraction : ℚ
  exunitsInv : ℚ
  inputs : ℚ
  recurrence : ℚ

/-- The numbers of the `multiple_sat` section. -/
structure Settings where
  weights : Weights
  reasonThreshold : ℚ
  lazyValidatorThreshold : ℚ
  lazyValidatorFloor : ℚ
  lazyValidatorExtractionMin : ℚ
  escapeEnabled : Bool
  escapeFloorMin : ℚ
  satFloorExtractionMin : ℚ
  satFloorInputsMin : ℚ
  satFloorValue : ℚ

/-- `_check_band_invariants` refuses a section with a floor below the High band, and no other. -/
structure Config extends Settings where
  lazyHigh : bandHighThreshold ≤ lazyValidatorFloor
  satHigh : bandHighThreshold ≤ satFloorValue

/-! ## The score of one script group -/

/-- What the banding reads of `_ScriptAxes`. -/
structure ScriptAxes where
  lovelaceOut : ℤ
  sExtractionLov : ℚ
  sExtractionAssets : ℚ
  sExtraction : ℚ
  sExtractionFloor : ℚ
  sExunitsInv : ℚ
  sInputs : ℚ
  sRecurrence : ℚ

structure ScorerResult where
  score : ℚ
  reasons : List String := []
deriving DecidableEq, Repr

/-- `ScorerResult.no_finding`. -/
def noFinding : ScorerResult := { score := -1 }

section
variable (rounding : Rounding ℚ (2 ^ 53))

/-- `finalise_score`. -/
def finaliseScore (raw : ℚ) : ℚ :=
  rounding.stored (roundHalfEven (rounding.mul (max 0 (min 1 raw)) 100 * 100) / 100)

variable (config : Config)

/-- `_reweight_without_extraction`; nothing where it divides by zero. -/
def reweightWithoutExtraction : Option Weights :=
  let weights := config.weights
  let surviving := rounding.add weights.inputs weights.recurrence
  let bonus (share : ℚ) := rounding.mul weights.extraction (rounding.div share surviving)
  if surviving = 0 then none
  else some {
    extraction := 0
    exunitsInv := weights.exunitsInv
    inputs := rounding.add weights.inputs (bonus weights.inputs)
    recurrence := rounding.add weights.recurrence (bonus weights.recurrence) }

/-- The weighted sum, added up from the left. -/
def rawScore (weights : Weights) (axes : ScriptAxes) : ℚ :=
  rounding.add
    (rounding.add
      (rounding.add (rounding.mul weights.extraction axes.sExtraction)
        (rounding.mul weights.exunitsInv axes.sExunitsInv))
      (rounding.mul weights.inputs axes.sInputs))
    (rounding.mul weights.recurrence axes.sRecurrence)

/-- `_floor_applies`. -/
def floorApplies (axes : ScriptAxes) (allowlisted uniformSweep : Bool) : Bool :=
  !allowlisted && !uniformSweep && decide (config.lazyValidatorThreshold < axes.sExunitsInv) &&
    decide (config.lazyValidatorExtractionMin < axes.sExtractionFloor)

/-- `_saturation_floor_applies`. -/
def saturationFloorApplies (axes : ScriptAxes) (allowlisted uniformSweep : Bool) : Bool :=
  !allowlisted && !uniformSweep && decide (config.satFloorExtractionMin ≤ axes.sExtractionFloor) &&
    decide (config.satFloorInputsMin ≤ axes.sInputs)

/-- `_suppression_outcome`: whether the finding is suppressed, and whether it escapes. -/
def suppressionOutcome (axes : ScriptAxes) (allowlisted uniformSweep floored : Bool) : Bool × Bool :=
  let suppressionShape := uniformSweep || decide (0 < axes.lovelaceOut)
  if floored || !suppressionShape then (false, false)
  else
    let escape := config.escapeEnabled && !allowlisted && decide (config.escapeFloorMin ≤ axes.sExtractionFloor)
    (!escape, escape)

/-- `_collect_reasons`. -/
def collectReasons (axes : ScriptAxes) (floored allowlisted uniformSweep escaped satFloored : Bool) : List String :=
  let reason (holds : Bool) (text : String) := if holds then [text] else []
  reason (config.reasonThreshold < axes.sExtractionLov) "large_net_value_extraction" ++
  reason (config.reasonThreshold < axes.sExtractionAssets) "native_asset_extraction" ++
  reason (config.reasonThreshold < axes.sExunitsInv) "low_exunits_per_input" ++
  reason floored "lazy_validator_band_floor" ++
  reason satFloored "saturation_band_floor" ++
  reason (config.reasonThreshold < axes.sInputs) "high_n_inputs_same_script" ++
  reason allowlisted "allowlisted_batch_script" ++
  reason uniformSweep "uniform_script_sweep_guard" ++
  reason escaped "extraction_escape_moderate_cap"

/-- The weights of a group and its axes under them: an allowlisted script counts no extraction. -/
def weighed (axes : ScriptAxes) (allowlisted : Bool) : Option (Weights × ScriptAxes) :=
  if allowlisted then
    (reweightWithoutExtraction rounding config).map fun weights =>
      (weights, { axes with sExtraction := 0, sExtractionLov := 0, sExtractionAssets := 0 })
  else some (config.weights, axes)

/-- The adjustments of `_score_script` to the weighted score. -/
def adjusted (final : ℚ) (floored satFloored uniformSweep : Bool) : ℚ :=
  let final := if floored then max final config.lazyValidatorFloor else final
  let final := if satFloored then max final config.satFloorValue else final
  if uniformSweep then min final bandModerateMax else final

/-- The stages of `_score_script` after the weighted score. -/
def bandScript (axes : ScriptAxes) (allowlisted uniformSweep : Bool) (final : ℚ) : ScorerResult :=
  let floored := floorApplies config axes allowlisted uniformSweep
  let satFloored := saturationFloorApplies config axes allowlisted uniformSweep
  let final := adjusted config final floored satFloored uniformSweep
  let (suppressed, escaped) := suppressionOutcome config axes allowlisted uniformSweep (floored || satFloored)
  if suppressed then noFinding
  else {
    score := if escaped then min (max final bandModerateThreshold) bandModerateMax else final
    reasons := collectReasons config axes floored allowlisted uniformSweep escaped satFloored }

/-- `_score_script`, its axes and flags given; nothing where it raises. -/
def scoreScript (axes : ScriptAxes) (allowlisted uniformSweep : Bool) : Option ScorerResult :=
  (weighed rounding config axes allowlisted).map fun (weights, axes) =>
    bandScript config axes allowlisted uniformSweep (finaliseScore rounding (rawScore rounding weights axes))

/-! ## The score of a transaction -/

/-- A script group: its inputs counted, its axes, and its flags. -/
structure Group where
  nInputs : ℕ
  axes : ScriptAxes
  allowlisted : Bool
  uniformSweep : Bool

/-- One round of the loop in `score`. -/
def keepBest (best : ScorerResult) (group : Group) : Option ScorerResult :=
  if group.nInputs < 2 then some best
  else
    (scoreScript rounding config group.axes group.allowlisted group.uniformSweep).map fun result =>
      if best.score ≤ result.score then result else best

/-- `score`. -/
def score (groups : List Group) : Option ScorerResult := groups.foldlM (keepBest rounding config) { score := -1 }

/-! ## The weighted score -/

theorem finaliseScore_mono : Monotone (finaliseScore rounding) := by
  intro low high le
  have clipped : max 0 (min 1 low) ≤ max 0 (min 1 high) := max_le_max le_rfl (min_le_min le_rfl le)
  have scaled : rounding.mul (max 0 (min 1 low)) 100 ≤ rounding.mul (max 0 (min 1 high)) 100 :=
    rounding.mono (mul_le_mul_of_nonneg_right clipped (by norm_num))
  have rounded := roundHalfEven_mono (mul_le_mul_of_nonneg_right scaled (show (0 : ℚ) ≤ 100 by norm_num))
  apply rounding.mono
  gcongr

theorem finaliseScore_nonneg (raw : ℚ) : 0 ≤ finaliseScore rounding raw := by
  have scaled : 0 ≤ rounding.mul (max 0 (min 1 raw)) 100 :=
    Rounding.product_nonneg (le_max_left _ _) (by norm_num)
  have rounded := roundHalfEven_mono (show ((0 : ℤ) : ℚ) ≤ rounding.mul (max 0 (min 1 raw)) 100 * 100 by
    push_cast
    positivity)
  rw [roundHalfEven_intCast] at rounded
  apply Rounding.stored_nonneg
  positivity

theorem finaliseScore_le (raw : ℚ) : finaliseScore rounding raw ≤ 100 := by
  have clipped : max 0 (min 1 raw) ≤ 1 := max_le zero_le_one (min_le_left _ _)
  have scaled : rounding.mul (max 0 (min 1 raw)) 100 ≤ (100 : ℕ) :=
    Rounding.stored_le_nat 100 (by norm_num) (by push_cast; linarith)
  have rounded := roundHalfEven_mono (show rounding.mul (max 0 (min 1 raw)) 100 * 100 ≤ ((10000 : ℤ) : ℚ) by
    push_cast at scaled ⊢
    linarith)
  rw [roundHalfEven_intCast] at rounded
  have whole : (roundHalfEven (rounding.mul (max 0 (min 1 raw)) 100 * 100) : ℚ) ≤ 10000 := by exact_mod_cast rounded
  have stored : finaliseScore rounding raw ≤ (100 : ℕ) :=
    Rounding.stored_le_nat 100 (by norm_num) (by push_cast; linarith)
  exact_mod_cast stored

/-! ## What the adjustments make of it -/

variable {rounding} {config : Config} {axes raised : ScriptAxes} {allowlisted uniformSweep : Bool}

/-- An escaped finding, banded exactly Moderate. -/
def moderate (final : ℚ) : ℚ := min (max final bandModerateThreshold) bandModerateMax

/-- Whether a benign shape is let through. -/
def escapes (config : Config) (axes : ScriptAxes) (allowlisted : Bool) : Bool :=
  config.escapeEnabled && !allowlisted && decide (config.escapeFloorMin ≤ axes.sExtractionFloor)

/-- Whether a group looks benign. -/
def benign (axes : ScriptAxes) (uniformSweep : Bool) : Bool := uniformSweep || decide (0 < axes.lovelaceOut)

/-- The adjusted score with its cases apart: a floor, else a benign shape, else the weighted score. -/
def banded (config : Config) (axes : ScriptAxes) (allowlisted uniformSweep : Bool) (final : ℚ) : ℚ :=
  let lazy := floorApplies config axes allowlisted uniformSweep
  let saturated := saturationFloorApplies config axes allowlisted uniformSweep
  if lazy || saturated then adjusted config final lazy saturated false
  else if benign axes uniformSweep then if escapes config axes allowlisted then moderate final else -1
  else final

theorem moderateThreshold_le_max : bandModerateThreshold ≤ bandModerateMax := by
  norm_num [bandModerateThreshold, bandModerateMax, bandHighThreshold]

theorem moderate_min (final : ℚ) : moderate (min final bandModerateMax) = moderate final := by
  rw [moderate, moderate, max_min_distrib_right, min_assoc, max_eq_left moderateThreshold_le_max, min_self]

/-- No floor applies to a sweep or to an allowlisted script. -/
theorem floorApplies_of_exempt (exempt : allowlisted = true ∨ uniformSweep = true) :
    floorApplies config axes allowlisted uniformSweep = false ∧
      saturationFloorApplies config axes allowlisted uniformSweep = false := by
  rcases exempt with rfl | rfl
  · exact ⟨rfl, rfl⟩
  · simp [floorApplies, saturationFloorApplies]

/-- Some floor applies. -/
def Floored (config : Config) (axes : ScriptAxes) (allowlisted uniformSweep : Bool) : Prop :=
  floorApplies config axes allowlisted uniformSweep = true ∨
    saturationFloorApplies config axes allowlisted uniformSweep = true

theorem Floored.unswept (floored : Floored config axes allowlisted uniformSweep) : uniformSweep = false := by
  by_contra swept
  obtain ⟨lazy, saturated⟩ := floorApplies_of_exempt (.inr (Bool.not_eq_false _ ▸ swept))
  rcases floored with applies | applies
  · exact Bool.false_ne_true (lazy.symm.trans applies)
  · exact Bool.false_ne_true (saturated.symm.trans applies)

theorem suppressionOutcome_floored :
    suppressionOutcome config axes allowlisted uniformSweep true = (false, false) := rfl

theorem suppressionOutcome_benign (shape : benign axes uniformSweep = true) :
    suppressionOutcome config axes allowlisted uniformSweep false =
      (!escapes config axes allowlisted, escapes config axes allowlisted) := by
  unfold benign at shape
  simp [suppressionOutcome, escapes, shape]

theorem suppressionOutcome_plain (shape : benign axes uniformSweep = false) :
    suppressionOutcome config axes allowlisted uniformSweep false = (false, false) := by
  unfold benign at shape
  simp [suppressionOutcome, shape]

/-- The stages give what the cases say: what applies at once never conflicts. -/
theorem bandScript_score (final : ℚ) :
    (bandScript config axes allowlisted uniformSweep final).score =
      banded config axes allowlisted uniformSweep final := by
  unfold bandScript banded
  cases floored : floorApplies config axes allowlisted uniformSweep ||
    saturationFloorApplies config axes allowlisted uniformSweep with
  | true =>
    obtain rfl := Floored.unswept ((Bool.or_eq_true _ _).mp floored)
    simp only [floored, suppressionOutcome_floored, Bool.false_eq_true, if_true, if_false]
  | false =>
    obtain ⟨lazy, saturated⟩ := Bool.or_eq_false_iff.mp floored
    have capped : adjusted config final false false uniformSweep =
        if uniformSweep then min final bandModerateMax else final := rfl
    cases shape : benign axes uniformSweep with
    | true =>
      cases escaped : escapes config axes allowlisted with
      | true =>
        have clamped : moderate (if uniformSweep then min final bandModerateMax else final) = moderate final := by
          split
          · exact moderate_min final
          · rfl
        simp only [lazy, saturated, Bool.or_self, suppressionOutcome_benign shape, escaped, capped]
        exact clamped
      | false =>
        simp only [lazy, saturated, Bool.or_self, suppressionOutcome_benign shape, escaped]
        rfl
    | false =>
      have unswept : uniformSweep = false := (Bool.or_eq_false_iff.mp shape).1
      subst unswept
      simp only [lazy, saturated, Bool.or_self, suppressionOutcome_plain shape]
      rfl

theorem scoreScript_score : (scoreScript rounding config axes allowlisted uniformSweep).map ScorerResult.score =
    (weighed rounding config axes allowlisted).map fun weighed =>
      banded config axes allowlisted uniformSweep (finaliseScore rounding (rawScore rounding weighed.1 weighed.2)) := by
  unfold scoreScript weighed
  cases allowlisted with
  | false => simp [bandScript_score]
  | true =>
    cases reweightWithoutExtraction rounding config with
    | none => rfl
    | some weights =>
      simp only [if_true, Option.map_some, bandScript_score]
      rfl

/-! ## The bands a score is promised -/

/-- What the floors, the sweep guard and the escape each promise of a score. -/
structure Promised (config : Config) (axes : ScriptAxes) (allowlisted uniformSweep : Bool) (score : ℚ) : Prop where
  scale : score = -1 ∨ 0 ≤ score ∧ score ≤ 100
  floored : Floored config axes allowlisted uniformSweep → bandHighThreshold ≤ score ∧ score ≠ -1
  swept : uniformSweep = true → score = -1 ∨ score ≤ bandModerateMax
  escaped : (suppressionOutcome config axes allowlisted uniformSweep
      (floorApplies config axes allowlisted uniformSweep ||
        saturationFloorApplies config axes allowlisted uniformSweep)).2 = true →
    bandModerateThreshold ≤ score ∧ score ≤ bandModerateMax

theorem le_adjusted (final : ℚ) (lazy saturated : Bool) : final ≤ adjusted config final lazy saturated false := by
  cases lazy <;> cases saturated <;> simp [adjusted]

theorem lazyFloor_le_adjusted (final : ℚ) (saturated : Bool) :
    config.lazyValidatorFloor ≤ adjusted config final true saturated false := by
  cases saturated <;> simp [adjusted]

theorem satFloor_le_adjusted (final : ℚ) (lazy : Bool) :
    config.satFloorValue ≤ adjusted config final lazy true false := by
  cases lazy <;> simp [adjusted]

theorem adjusted_le {final bound : ℚ} {lazy saturated : Bool} (under : final ≤ bound)
    (lazyUnder : lazy = true → config.lazyValidatorFloor ≤ bound)
    (satUnder : saturated = true → config.satFloorValue ≤ bound) :
    adjusted config final lazy saturated false ≤ bound := by
  have first : (if lazy = true then max final config.lazyValidatorFloor else final) ≤ bound := by
    split
    · exact max_le under (lazyUnder ‹_›)
    · exact under
  cases saturated with
  | true => exact max_le first (satUnder rfl)
  | false => exact first

theorem high_le_adjusted {final : ℚ} {lazy saturated : Bool} (applies : lazy = true ∨ saturated = true) :
    bandHighThreshold ≤ adjusted config final lazy saturated false := by
  rcases applies with rfl | rfl
  · exact config.lazyHigh.trans (lazyFloor_le_adjusted final saturated)
  · exact config.satHigh.trans (satFloor_le_adjusted final lazy)

theorem moderate_mem (final : ℚ) : bandModerateThreshold ≤ moderate final ∧ moderate final ≤ bandModerateMax := by
  exact ⟨le_min (le_max_right _ _) moderateThreshold_le_max, min_le_right _ _⟩

theorem banded_floored (floored : Floored config axes allowlisted uniformSweep) (final : ℚ) :
    banded config axes allowlisted uniformSweep final =
      adjusted config final (floorApplies config axes allowlisted uniformSweep)
        (saturationFloorApplies config axes allowlisted uniformSweep) false :=
  if_pos ((Bool.or_eq_true _ _).mpr floored)

theorem banded_unfloored (unfloored : ¬ Floored config axes allowlisted uniformSweep) (final : ℚ) :
    banded config axes allowlisted uniformSweep final =
      if benign axes uniformSweep then if escapes config axes allowlisted then moderate final else -1 else final :=
  if_neg fun applies => unfloored ((Bool.or_eq_true _ _).mp applies)

theorem promised_of_floored {final : ℚ} (floored : Floored config axes allowlisted uniformSweep) (nonneg : 0 ≤ final)
    (le : final ≤ 100)
    (lazyUnder : floorApplies config axes allowlisted uniformSweep = true → config.lazyValidatorFloor ≤ 100)
    (satUnder : saturationFloorApplies config axes allowlisted uniformSweep = true → config.satFloorValue ≤ 100) :
    Promised config axes allowlisted uniformSweep (banded config axes allowlisted uniformSweep final) := by
  rw [banded_floored floored]
  have high : bandHighThreshold ≤ adjusted config final _ _ false := high_le_adjusted floored
  have any := (Bool.or_eq_true _ _).mpr floored
  constructor
  · exact .inr ⟨nonneg.trans (le_adjusted _ _ _), adjusted_le le lazyUnder satUnder⟩
  · intro _
    refine ⟨high, fun none => ?_⟩
    rw [none] at high
    norm_num [bandHighThreshold] at high
  · intro swept
    exact absurd (floored.unswept.symm.trans swept) Bool.false_ne_true
  · intro escaped
    rw [any, suppressionOutcome_floored] at escaped
    cases escaped

theorem promised_of_unfloored {final : ℚ} (unfloored : ¬ Floored config axes allowlisted uniformSweep)
    (nonneg : 0 ≤ final) (le : final ≤ 100) :
    Promised config axes allowlisted uniformSweep (banded config axes allowlisted uniformSweep final) := by
  rw [banded_unfloored unfloored]
  have any : (floorApplies config axes allowlisted uniformSweep ||
      saturationFloorApplies config axes allowlisted uniformSweep) = false :=
    Bool.eq_false_iff.mpr fun applies => unfloored ((Bool.or_eq_true _ _).mp applies)
  cases shape : benign axes uniformSweep with
  | false =>
    have unswept : uniformSweep = false := (Bool.or_eq_false_iff.mp shape).1
    rw [if_neg Bool.false_ne_true]
    refine ⟨.inr ⟨nonneg, le⟩, fun floored => absurd floored unfloored, fun swept => ?_, fun escaped => ?_⟩
    · exact absurd (unswept.symm.trans swept) Bool.false_ne_true
    · rw [any, suppressionOutcome_plain shape] at escaped
      cases escaped
  | true =>
    rw [if_pos rfl]
    cases escaped : escapes config axes allowlisted with
    | false =>
      rw [if_neg Bool.false_ne_true]
      refine ⟨.inl rfl, fun floored => absurd floored unfloored, fun _ => .inl rfl, fun kept => ?_⟩
      rw [any, suppressionOutcome_benign shape, escaped] at kept
      cases kept
    | true =>
      rw [if_pos rfl]
      obtain ⟨low, high⟩ := moderate_mem final
      refine ⟨.inr ?_, fun floored => absurd floored unfloored, fun _ => .inr high, fun _ => ⟨low, high⟩⟩
      norm_num [bandModerateThreshold, bandModerateMax, bandHighThreshold] at low high
      constructor <;> linarith

theorem promised_banded_iff {final : ℚ} (nonneg : 0 ≤ final) (le : final ≤ 100) :
    Promised config axes allowlisted uniformSweep (banded config axes allowlisted uniformSweep final) ↔
      (floorApplies config axes allowlisted uniformSweep = true → config.lazyValidatorFloor ≤ 100) ∧
      (saturationFloorApplies config axes allowlisted uniformSweep = true → config.satFloorValue ≤ 100) := by
  constructor
  · intro promised
    have capped (floored : Floored config axes allowlisted uniformSweep) :
        banded config axes allowlisted uniformSweep final ≤ 100 := by
      rcases promised.scale with none | ⟨-, le⟩
      · exact absurd none (promised.floored floored).2
      · exact le
    constructor
    · intro lazy
      have bounded := capped (.inl lazy)
      rw [banded_floored (.inl lazy), lazy] at bounded
      exact (lazyFloor_le_adjusted _ _).trans bounded
    · intro saturated
      have bounded := capped (.inr saturated)
      rw [banded_floored (.inr saturated), saturated] at bounded
      exact (satFloor_le_adjusted _ _).trans bounded
  · rintro ⟨lazyUnder, satUnder⟩
    by_cases floored : Floored config axes allowlisted uniformSweep
    · exact promised_of_floored floored nonneg le lazyUnder satUnder
    · exact promised_of_unfloored floored nonneg le

/-- A group has weights unless an allowlisted script leaves nothing to redistribute to. -/
theorem weighed_iff : (∃ read, weighed rounding config axes allowlisted = some read) ↔
    (allowlisted = true → rounding.add config.weights.inputs config.weights.recurrence ≠ 0) := by
  cases allowlisted with
  | false => exact iff_of_true ⟨_, rfl⟩ (fun listed => nomatch listed)
  | true =>
    unfold weighed reweightWithoutExtraction
    by_cases none : rounding.add config.weights.inputs config.weights.recurrence = 0 <;> simp [none]

theorem scored_iff {score : ℚ} :
    (∃ result, scoreScript rounding config axes allowlisted uniformSweep = some result ∧ result.score = score) ↔
      ∃ read, weighed rounding config axes allowlisted = some read ∧
        banded config axes allowlisted uniformSweep
          (finaliseScore rounding (rawScore rounding read.1 read.2)) = score := by
  rw [← Option.map_eq_some_iff, scoreScript_score, Option.map_eq_some_iff]

/-- A group is scored, and within every band it is promised, exactly if no floor that applies lies
above the scale and an allowlisted script has inputs or recurrence to weigh. -/
theorem banding_iff (rounding : Rounding ℚ (2 ^ 53)) (config : Config) (axes : ScriptAxes)
    (allowlisted uniformSweep : Bool) :
    (∃ result, scoreScript rounding config axes allowlisted uniformSweep = some result ∧
      Promised config axes allowlisted uniformSweep result.score) ↔
    (floorApplies config axes allowlisted uniformSweep = true → config.lazyValidatorFloor ≤ 100) ∧
    (saturationFloorApplies config axes allowlisted uniformSweep = true → config.satFloorValue ≤ 100) ∧
    (allowlisted = true → rounding.add config.weights.inputs config.weights.recurrence ≠ 0) := by
  constructor
  · rintro ⟨result, scored, promised⟩
    obtain ⟨read, weighs, same⟩ := scored_iff.mp ⟨result, scored, rfl⟩
    rw [← same] at promised
    obtain ⟨lazy, saturated⟩ :=
      (promised_banded_iff (finaliseScore_nonneg rounding _) (finaliseScore_le rounding _)).mp promised
    exact ⟨lazy, saturated, weighed_iff.mp ⟨read, weighs⟩⟩
  · rintro ⟨lazy, saturated, listed⟩
    obtain ⟨read, weighs⟩ := weighed_iff.mpr listed
    obtain ⟨result, scored, same⟩ := scored_iff.mpr ⟨read, weighs, rfl⟩
    refine ⟨result, scored, ?_⟩
    rw [same]
    exact (promised_banded_iff (finaliseScore_nonneg rounding _) (finaliseScore_le rounding _)).mpr ⟨lazy, saturated⟩

/-- The shipped section, up to its weights and the lazy-validator floor. -/
def shipped (weights : Weights) (lazyValidatorFloor : ℚ) (lazyHigh : bandHighThreshold ≤ lazyValidatorFloor) :
    Config where
  weights := weights
  reasonThreshold := 1 / 2
  lazyValidatorThreshold := 4 / 5
  lazyValidatorFloor := lazyValidatorFloor
  lazyValidatorExtractionMin := 0
  escapeEnabled := true
  escapeFloorMin := 1 / 10
  satFloorExtractionMin := 99 / 100
  satFloorInputsMin := 99 / 100
  satFloorValue := 60
  lazyHigh := lazyHigh
  satHigh := le_rfl

def shippedWeights : Weights := ⟨42 / 100, 28 / 100, 16 / 100, 14 / 100⟩

/-- Little extraction by a validator that did next to nothing. -/
def lazyAxes : ScriptAxes where
  lovelaceOut := 0
  sExtractionLov := 1 / 2
  sExtractionAssets := 0
  sExtraction := 1 / 2
  sExtractionFloor := 1 / 2
  sExunitsInv := 9 / 10
  sInputs := 1 / 2
  sRecurrence := 0

/-- A floor of 150 passes the check of the section and is the score. -/
theorem floor_above_scale : ¬ ∃ result,
    scoreScript (.exact ℚ _) (shipped shippedWeights 150 (by norm_num [bandHighThreshold])) lazyAxes false false =
      some result ∧
    Promised (shipped shippedWeights 150 (by norm_num [bandHighThreshold])) lazyAxes false false result.score := by
  rintro ⟨result, scored, promised⟩
  obtain ⟨read, -, same⟩ := scored_iff.mp ⟨result, scored, rfl⟩
  rw [← same] at promised
  have capped := ((promised_banded_iff (finaliseScore_nonneg _ _) (finaliseScore_le _ _)).mp promised).1
  have lazy : floorApplies (shipped shippedWeights 150 (by norm_num [bandHighThreshold])) lazyAxes false false =
      true := by decide +kernel
  norm_num [shipped] at capped
  exact Bool.false_ne_true (capped.symm.trans lazy)

/-! ## Raising an axis -/

/-- Some axes lie higher and none lower, the flag among them being the same. -/
structure Raised (axes raised : ScriptAxes) : Prop where
  lovelaceOut : raised.lovelaceOut = axes.lovelaceOut
  sExtractionLov : axes.sExtractionLov ≤ raised.sExtractionLov
  sExtractionAssets : axes.sExtractionAssets ≤ raised.sExtractionAssets
  sExtraction : axes.sExtraction ≤ raised.sExtraction
  sExtractionFloor : axes.sExtractionFloor ≤ raised.sExtractionFloor
  sExunitsInv : axes.sExunitsInv ≤ raised.sExunitsInv
  sInputs : axes.sInputs ≤ raised.sInputs
  sRecurrence : axes.sRecurrence ≤ raised.sRecurrence

/-- No axis counts against a group. -/
structure Weights.Nonneg (weights : Weights) : Prop where
  extraction : 0 ≤ weights.extraction
  exunitsInv : 0 ≤ weights.exunitsInv
  inputs : 0 ≤ weights.inputs
  recurrence : 0 ≤ weights.recurrence

theorem rawScore_mono {weights : Weights} (nonneg : weights.Nonneg) (higher : Raised axes raised) :
    rawScore rounding weights axes ≤ rawScore rounding weights raised := by
  unfold rawScore
  apply Rounding.sum_mono
  · apply Rounding.sum_mono
    · apply Rounding.sum_mono
      · exact Rounding.product_mono nonneg.extraction higher.sExtraction
      · exact Rounding.product_mono nonneg.exunitsInv higher.sExunitsInv
    · exact Rounding.product_mono nonneg.inputs higher.sInputs
  · exact Rounding.product_mono nonneg.recurrence higher.sRecurrence

theorem reweight_nonneg {weights : Weights} (nonneg : config.weights.Nonneg)
    (reweighted : reweightWithoutExtraction rounding config = some weights) : weights.Nonneg := by
  simp only [reweightWithoutExtraction] at reweighted
  split at reweighted
  · cases reweighted
  · obtain rfl := Option.some.inj reweighted
    have surviving : 0 ≤ rounding.add config.weights.inputs config.weights.recurrence :=
      Rounding.sum_nonneg nonneg.inputs nonneg.recurrence
    have bonus {share : ℚ} (positive : 0 ≤ share) : 0 ≤ rounding.mul config.weights.extraction
        (rounding.div share (rounding.add config.weights.inputs config.weights.recurrence)) :=
      Rounding.product_nonneg nonneg.extraction (Rounding.quotient_nonneg positive surviving)
    constructor
    · exact le_rfl
    · exact nonneg.exunitsInv
    · exact Rounding.sum_nonneg nonneg.inputs (bonus nonneg.inputs)
    · exact Rounding.sum_nonneg nonneg.recurrence (bonus nonneg.recurrence)

/-- The weights do not depend on the axes, and neutralising keeps the order. -/
theorem weighed_mono {read : Weights × ScriptAxes} (nonneg : config.weights.Nonneg) (higher : Raised axes raised)
    (weighs : weighed rounding config axes allowlisted = some read) :
    ∃ read', weighed rounding config raised allowlisted = some read' ∧
      rawScore rounding read.1 read.2 ≤ rawScore rounding read'.1 read'.2 := by
  cases allowlisted with
  | false =>
    obtain rfl := Option.some.inj weighs
    exact ⟨_, rfl, rawScore_mono nonneg higher⟩
  | true =>
    obtain ⟨weights, reweighted, rfl⟩ := Option.map_eq_some_iff.mp weighs
    refine ⟨_, Option.map_eq_some_iff.mpr ⟨weights, reweighted, rfl⟩, ?_⟩
    apply rawScore_mono (reweight_nonneg nonneg reweighted)
    exact { higher with sExtractionLov := le_rfl, sExtractionAssets := le_rfl, sExtraction := le_rfl }

theorem floorApplies_mono (higher : Raised axes raised)
    (applies : floorApplies config axes allowlisted uniformSweep = true) :
    floorApplies config raised allowlisted uniformSweep = true := by
  simp only [floorApplies, Bool.and_eq_true, decide_eq_true_eq] at applies ⊢
  obtain ⟨⟨exempt, lazy⟩, extracted⟩ := applies
  exact ⟨⟨exempt, lazy.trans_le higher.sExunitsInv⟩, extracted.trans_le higher.sExtractionFloor⟩

theorem saturationFloorApplies_mono (higher : Raised axes raised)
    (applies : saturationFloorApplies config axes allowlisted uniformSweep = true) :
    saturationFloorApplies config raised allowlisted uniformSweep = true := by
  simp only [saturationFloorApplies, Bool.and_eq_true, decide_eq_true_eq] at applies ⊢
  obtain ⟨⟨exempt, extracted⟩, inputs⟩ := applies
  exact ⟨⟨exempt, extracted.trans higher.sExtractionFloor⟩, inputs.trans higher.sInputs⟩

theorem Floored.mono (higher : Raised axes raised) (floored : Floored config axes allowlisted uniformSweep) :
    Floored config raised allowlisted uniformSweep :=
  floored.imp (floorApplies_mono higher) (saturationFloorApplies_mono higher)

theorem escapes_mono (higher : Raised axes raised) (escaped : escapes config axes allowlisted = true) :
    escapes config raised allowlisted = true := by
  simp only [escapes, Bool.and_eq_true, decide_eq_true_eq] at escaped ⊢
  exact ⟨escaped.1, escaped.2.trans higher.sExtractionFloor⟩

theorem banded_unfloored_le {final bound : ℚ} (unfloored : ¬ Floored config axes allowlisted uniformSweep)
    (under : final ≤ bound) (high : bandHighThreshold ≤ bound) :
    banded config axes allowlisted uniformSweep final ≤ bound := by
  have below : (-1 : ℚ) ≤ bandHighThreshold ∧ bandModerateMax ≤ bandHighThreshold := by
    norm_num [bandModerateMax, bandHighThreshold]
  rw [banded_unfloored unfloored]
  split
  · split
    · exact (moderate_mem final).2.trans (below.2.trans high)
    · exact below.1.trans high
  · exact under

/-- A higher axis can only bring a floor or an escape about, and each lies above what it replaces. -/
theorem banded_mono {low high : ℚ} (higher : Raised axes raised) (le : low ≤ high) :
    banded config axes allowlisted uniformSweep low ≤ banded config raised allowlisted uniformSweep high := by
  by_cases lifted : Floored config raised allowlisted uniformSweep
  · have above : low ≤ adjusted config high (floorApplies config raised allowlisted uniformSweep)
        (saturationFloorApplies config raised allowlisted uniformSweep) false := le.trans (le_adjusted _ _ _)
    rw [banded_floored lifted]
    by_cases floored : Floored config axes allowlisted uniformSweep
    · rw [banded_floored floored]
      apply adjusted_le above
      · intro lazy
        rw [floorApplies_mono higher lazy]
        exact lazyFloor_le_adjusted _ _
      · intro saturated
        rw [saturationFloorApplies_mono higher saturated]
        exact satFloor_le_adjusted _ _
    · exact banded_unfloored_le floored above (high_le_adjusted lifted)
  · have unfloored := fun floored => lifted (Floored.mono higher floored)
    have shape : benign raised uniformSweep = benign axes uniformSweep := by
      rw [benign, benign, higher.lovelaceOut]
    rw [banded_unfloored lifted, banded_unfloored unfloored, shape]
    split
    · cases escaped : escapes config axes allowlisted with
      | true =>
        rw [escapes_mono higher escaped]
        exact min_le_min (max_le_max le le_rfl) le_rfl
      | false =>
        have low := moderate_mem high
        norm_num [bandModerateThreshold] at low
        split
        · contradiction
        · split
          · linarith
          · exact le_rfl
    · exact le

/-- With no weight below zero, raising axes never lowers the score of a group. -/
theorem scoreScript_mono (rounding : Rounding ℚ (2 ^ 53)) (config : Config) (nonneg : config.weights.Nonneg)
    (axes raised : ScriptAxes) (higher : Raised axes raised) (allowlisted uniformSweep : Bool) (result : ScorerResult)
    (scored : scoreScript rounding config axes allowlisted uniformSweep = some result) :
    ∃ result', scoreScript rounding config raised allowlisted uniformSweep = some result' ∧
      result.score ≤ result'.score := by
  obtain ⟨read, weighs, same⟩ := scored_iff.mp ⟨result, scored, rfl⟩
  obtain ⟨read', weighs', le⟩ := weighed_mono nonneg higher weighs
  obtain ⟨result', scored', same'⟩ := scored_iff.mpr ⟨read', weighs', rfl⟩
  refine ⟨result', scored', ?_⟩
  rw [← same, same']
  exact banded_mono higher (finaliseScore_mono rounding le)

theorem raise_inputs {axes : ScriptAxes} {sInputs : ℚ} (le : axes.sInputs ≤ sInputs) :
    Raised axes { axes with sInputs := sInputs } :=
  ⟨rfl, le_rfl, le_rfl, le_rfl, le_rfl, le_rfl, le, le_rfl⟩

theorem shippedWeights_nonneg : shippedWeights.Nonneg := by
  constructor <;> norm_num [shippedWeights]

theorem scoreScript_mono_shipped : ∃ result',
    scoreScript (.exact ℚ _) (shipped shippedWeights 60 le_rfl) { lazyAxes with sInputs := 4 / 5 } false false =
      some result' ∧ 60 ≤ result'.score :=
  scoreScript_mono (.exact ℚ _) (shipped shippedWeights 60 le_rfl) shippedWeights_nonneg lazyAxes _
    (raise_inputs (by norm_num [lazyAxes])) false false
    ⟨60, ["low_exunits_per_input", "lazy_validator_band_floor"]⟩ (by decide +kernel)

/-- A weight below zero passes the check of the section; inputs then count against a group. -/
def deterred : Config := shipped ⟨1, 0, -1 / 2, 0⟩ 60 le_rfl

def busyAxes : ScriptAxes := { lazyAxes with sExunitsInv := 0 }

theorem negative_weight_lowers : Raised busyAxes { busyAxes with sInputs := 4 / 5 } ∧ ¬ ∃ low high,
    scoreScript (.exact ℚ _) deterred busyAxes false false = some low ∧
    scoreScript (.exact ℚ _) deterred { busyAxes with sInputs := 4 / 5 } false false = some high ∧
    low.score ≤ high.score := by
  refine ⟨raise_inputs (by norm_num [busyAxes, lazyAxes]), ?_⟩
  rintro ⟨low, high, first, second, le⟩
  have fewer : scoreScript (.exact ℚ _) deterred busyAxes false false = some ⟨25, []⟩ := by decide +kernel
  have more : scoreScript (.exact ℚ _) deterred { busyAxes with sInputs := 4 / 5 } false false =
      some ⟨10, ["high_n_inputs_same_script"]⟩ := by decide +kernel
  obtain rfl := Option.some.inj (fewer.symm.trans first)
  obtain rfl := Option.some.inj (more.symm.trans second)
  norm_num at le

/-! ## The transaction -/

/-- The result of a group that the loop in `score` considers. -/
def Scores (rounding : Rounding ℚ (2 ^ 53)) (config : Config) (group : Group) (result : ScorerResult) : Prop :=
  2 ≤ group.nInputs ∧ scoreScript rounding config group.axes group.allowlisted group.uniformSweep = some result

theorem keepBest_step {best kept : ScorerResult} {group : Group}
    (step : keepBest rounding config best group = some kept) :
    best.score ≤ kept.score ∧ (kept = best ∨ Scores rounding config group kept) ∧
      ∀ result, Scores rounding config group result → result.score ≤ kept.score := by
  unfold keepBest at step
  split at step
  · rename_i few
    obtain rfl := Option.some.inj step
    exact ⟨le_rfl, .inl rfl, fun result scores => absurd scores.1 (Nat.not_le_of_gt few)⟩
  · rename_i several
    obtain ⟨scored, computed, chosen⟩ := Option.map_eq_some_iff.mp step
    have only (result : ScorerResult) (scores : Scores rounding config group result) : result = scored :=
      Option.some.inj (scores.2.symm.trans computed)
    split at chosen
    · rename_i better
      obtain rfl := chosen
      refine ⟨better, .inr ⟨Nat.le_of_not_lt several, computed⟩, fun result scores => ?_⟩
      rw [only result scores]
    · rename_i worse
      obtain rfl := chosen
      refine ⟨le_rfl, .inl rfl, fun result scores => ?_⟩
      rw [only result scores]
      exact (lt_of_not_ge worse).le

/-- The loop ends with the best result of the groups, or with what it began with. -/
theorem keepBest_run {groups : List Group} {best final : ScorerResult}
    (ran : groups.foldlM (keepBest rounding config) best = some final) :
    best.score ≤ final.score ∧ (final = best ∨ ∃ group ∈ groups, Scores rounding config group final) ∧
      ∀ group ∈ groups, ∀ result, Scores rounding config group result → result.score ≤ final.score := by
  induction groups generalizing best with
  | nil =>
    obtain rfl := Option.some.inj ran
    exact ⟨le_rfl, .inl rfl, fun group member => absurd member List.not_mem_nil⟩
  | cons group rest ih =>
    rw [List.foldlM_cons] at ran
    obtain ⟨kept, step, later⟩ := Option.bind_eq_some_iff.mp ran
    obtain ⟨rises, origin, covers⟩ := keepBest_step step
    obtain ⟨risesLater, originLater, coversLater⟩ := ih later
    refine ⟨rises.trans risesLater, ?_, ?_⟩
    · rcases originLater with rfl | ⟨other, member, scores⟩
      · exact origin.imp_right fun scores => ⟨group, List.mem_cons_self, scores⟩
      · exact .inr ⟨other, List.mem_cons_of_mem _ member, scores⟩
    · intro other member result scores
      rcases List.mem_cons.mp member with rfl | member
      · exact (covers result scores).trans risesLater
      · exact coversLater other member result scores

/-- Of a transaction whose groups keep their promises the score is on the scale, and a floor that
applies to one of the groups holds for the transaction. -/
theorem score_banded {groups : List Group} {final : ScorerResult}
    (promised : ∀ group ∈ groups, ∀ result, Scores rounding config group result →
      Promised config group.axes group.allowlisted group.uniformSweep result.score)
    (scored : score rounding config groups = some final) :
    (final.score = -1 ∨ 0 ≤ final.score ∧ final.score ≤ 100) ∧
      ∀ group ∈ groups, Floored config group.axes group.allowlisted group.uniformSweep →
        ∀ result, Scores rounding config group result → bandHighThreshold ≤ final.score := by
  obtain ⟨-, origin, covers⟩ := keepBest_run scored
  constructor
  · rcases origin with rfl | ⟨group, member, scores⟩
    · exact .inl rfl
    · exact (promised group member final scores).scale
  · intro group member floored result scores
    exact ((promised group member result scores).floored floored).1.trans (covers group member result scores)

end
end TransactionMonitoring.MultipleSat
