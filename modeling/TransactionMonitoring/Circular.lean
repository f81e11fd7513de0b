import TransactionMonitoring.Anchors

/-! The score of a transfer cycle.

Five axes are weighed.  A cycle whose corroborating axes are all weak is suppressed, or kept in
Moderate where it preserves its amount and recurs; one that loses too much is capped there too,
and a slow one-off cycle is capped at the top of Informational.  A stronger signal only ever
lifts one of these.
-/
namespace TransactionMonitoring.Circular

open Anchors (finalise)
open Baselines (Percentiles epsilon normalise)
open MultipleSat (ScorerResult noFinding)

/-- A cycle record; an entry it may lack has a default at each place it is read. -/
structure Cycle where
  cycleLength : ℤ
  netLossRatio : Option ℚ
  amountSimilarity : Option ℚ
  recurrenceCount : Option ℤ
  recipientEntropy : Option ℚ
  roundAmountFlag : Bool
  temporalConcentration : Option ℚ
  meanInterHopDeltaSlots : Option ℚ

structure Weights where
  amount : ℚ
  recurrence : ℚ
  entropy : ℚ
  auxiliary : ℚ
  speed : ℚ

structure FixedAnchors where
  amountSim : Percentiles
  entropy : Percentiles
  hopDeltaInv : Percentiles
  temporal : Percentiles

/-- The `circular` section. -/
structure Settings where
  weights : Weights
  fixed : FixedAnchors
  reasonThreshold : ℚ
  moderateCap : ℚ
  structuralCorroborationFloor : ℚ
  slowOneOffMinHopSlots : ℤ
  feeToleranceMultiplier : ℚ
  feeToleranceStrict : ℚ
  perHopFee : ℚ
  minLength : ℤ
  maxLength : ℤ
  defaultInterHopDeltaSlots : ℤ

/-- A section whose weights are none of them negative; that the cap is in the Moderate band is
checked at load. -/
structure Config extends Settings where
  amountCounts : 0 ≤ weights.amount
  recurrenceCounts : 0 ≤ weights.recurrence
  entropyCounts : 0 ≤ weights.entropy
  auxiliaryCounts : 0 ≤ weights.auxiliary
  speedCounts : 0 ≤ weights.speed
  moderate : MultipleSat.bandModerateThreshold ≤ moderateCap ∧ moderateCap < MultipleSat.bandHighThreshold

/-- The section of `detection.yaml`. -/
def shipped : Config where
  weights := ⟨30 / 100, 30 / 100, 20 / 100, 10 / 100, 10 / 100⟩
  fixed := ⟨⟨70 / 100, 97 / 100⟩, ⟨80 / 100, 30 / 100⟩, ⟨5 / 100, 5 / 10⟩, ⟨30 / 100, 85 / 100⟩⟩
  reasonThreshold := 5 / 10
  moderateCap := 59
  structuralCorroborationFloor := 1 / 10
  slowOneOffMinHopSlots := 1800
  feeToleranceMultiplier := 4
  feeToleranceStrict := 2
  perHopFee := 2 / 100
  minLength := 3
  maxLength := 6
  defaultInterHopDeltaSlots := 100
  amountCounts := by norm_num
  recurrenceCounts := by norm_num
  entropyCounts := by norm_num
  auxiliaryCounts := by norm_num
  speedCounts := by norm_num
  moderate := by norm_num [MultipleSat.bandModerateThreshold, MultipleSat.bandHighThreshold]

/-- `BAND_INFORMATIONAL_MAX`. -/
def bandInformationalMax : ℚ := MultipleSat.bandModerateThreshold - 1

/-! ## The scorer -/

section
variable (settings : Settings) (cycle : Cycle)

/-- `_estimate_fee_ratio`. -/
def estimateFeeRatio (cycleLength : ℤ) : ℚ := cycleLength * settings.perHopFee

/-- `CircularScorer.gate`. -/
def gate : Bool :=
  decide (settings.minLength ≤ cycle.cycleLength ∧ cycle.cycleLength ≤ settings.maxLength) &&
    !decide (estimateFeeRatio settings cycle.cycleLength * settings.feeToleranceMultiplier < cycle.netLossRatio.getD 1)

def sAmount : ℚ := normalise (cycle.amountSimilarity.getD 0) settings.fixed.amountSim

/-- With what the baseline of the origin resolves to. -/
def sRecurrence (baseline : Percentiles) : ℚ := normalise (cycle.recurrenceCount.getD 0) baseline

/-- The anchors are inverted, as the entropy is. -/
def sEntropy : ℚ :=
  normalise (1 - cycle.recipientEntropy.getD 1) ⟨1 - settings.fixed.entropy.p50, 1 - settings.fixed.entropy.p99⟩

def sRound : ℚ := if cycle.roundAmountFlag then 1 else 0

def sTiming : ℚ := normalise (cycle.temporalConcentration.getD 0) settings.fixed.temporal

def sAuxiliary : ℚ := (sRound cycle + sTiming settings cycle) / 2

def hopDelta : ℚ := max (cycle.meanInterHopDeltaSlots.getD settings.defaultInterHopDeltaSlots) epsilon

def sSpeed : ℚ := normalise (1 / hopDelta settings cycle) settings.fixed.hopDeltaInv

def weighed (baseline : Percentiles) : ℚ :=
  settings.weights.amount * sAmount settings cycle + settings.weights.recurrence * sRecurrence cycle baseline +
    settings.weights.entropy * sEntropy settings cycle + settings.weights.auxiliary * sAuxiliary settings cycle +
    settings.weights.speed * sSpeed settings cycle

/-- `structural_only`. -/
def structuralOnly : Prop :=
  sEntropy settings cycle + sAuxiliary settings cycle + sSpeed settings cycle < settings.structuralCorroborationFloor

/-- `recurring_layering`. -/
def recurringLayering (baseline : Percentiles) : Prop :=
  settings.minLength ≤ cycle.cycleLength ∧ settings.reasonThreshold < sAmount settings cycle ∧
    settings.reasonThreshold < sRecurrence cycle baseline

/-- The net loss exceeds the strict fee tolerance. -/
def lossy : Prop :=
  estimateFeeRatio settings cycle.cycleLength * settings.feeToleranceStrict < cycle.netLossRatio.getD 0

/-- Slow and never recycled. -/
def slowOneOff (baseline : Percentiles) : Prop :=
  (settings.slowOneOffMinHopSlots : ℚ) ≤ hopDelta settings cycle ∧
    sEntropy settings cycle + sSpeed settings cycle + sRecurrence cycle baseline <
      settings.structuralCorroborationFloor

instance : Decidable (structuralOnly settings cycle) := inferInstanceAs (Decidable (_ < _))

instance (baseline : Percentiles) : Decidable (recurringLayering settings cycle baseline) :=
  inferInstanceAs (Decidable (_ ∧ _ ∧ _))

instance : Decidable (lossy settings cycle) := inferInstanceAs (Decidable (_ < _))

instance (baseline : Percentiles) : Decidable (slowOneOff settings cycle baseline) :=
  inferInstanceAs (Decidable (_ ∧ _))

/-- The score of a cycle that is not suppressed, through the three caps in their order. -/
def bandedScore (baseline : Percentiles) : ℚ :=
  let final := finalise (weighed settings cycle baseline)
  let final := if structuralOnly settings cycle then min final settings.moderateCap else final
  let final := if settings.moderateCap < final ∧ lossy settings cycle then settings.moderateCap else final
  if slowOneOff settings cycle baseline then min final bandInformationalMax else final

/-- `CircularScorer.score`. -/
def score (baseline : Percentiles) : ScorerResult :=
  if structuralOnly settings cycle ∧ ¬ recurringLayering settings cycle baseline then noFinding
  else
    let reason (axis : ℚ) (text : String) : List String := if settings.reasonThreshold < axis then [text] else []
    { score := bandedScore settings cycle baseline
      reasons := reason (sAmount settings cycle) "high_amount_preservation" ++
        reason (sRecurrence cycle baseline) "repeated_cycle_pattern" ++
        reason (sEntropy settings cycle) "low_recipient_diversity" ++
        reason (sSpeed settings cycle) "rapid_inter_hop_timing" }

/-- The class score as the engine keeps it. -/
def classScore (baseline : Percentiles) : ℚ := if gate settings cycle then (score settings cycle baseline).score else -1

end

/-! ## Suspicion -/

/-- The second cycle is no less suspicious than the first, of the same length and net loss. -/
structure NoLessSuspicious (settings : Settings) (cycle raised : Cycle) : Prop where
  length : raised.cycleLength = cycle.cycleLength
  netLoss : raised.netLossRatio = cycle.netLossRatio
  amount : cycle.amountSimilarity.getD 0 ≤ raised.amountSimilarity.getD 0
  recurrence : cycle.recurrenceCount.getD 0 ≤ raised.recurrenceCount.getD 0
  temporal : cycle.temporalConcentration.getD 0 ≤ raised.temporalConcentration.getD 0
  entropy : raised.recipientEntropy.getD 1 ≤ cycle.recipientEntropy.getD 1
  hopDelta : raised.meanInterHopDeltaSlots.getD settings.defaultInterHopDeltaSlots ≤
    cycle.meanInterHopDeltaSlots.getD settings.defaultInterHopDeltaSlots
  round : cycle.roundAmountFlag = true → raised.roundAmountFlag = true

section
variable {settings : Settings} {config : Config} {cycle raised : Cycle} {baseline : Percentiles} {low high cap : ℚ}

/-- A cap that only the lower of two scores may be under keeps their order. -/
theorem capped_le_capped {lowCapped highCapped : Prop} [Decidable lowCapped] [Decidable highCapped] (le : low ≤ high)
    (lifts : highCapped → lowCapped) :
    (if lowCapped then min low cap else low) ≤ if highCapped then min high cap else high := by
  by_cases still : highCapped
  · rw [if_pos still, if_pos (lifts still)]
    exact min_le_min le le_rfl
  · rw [if_neg still]
    split
    · exact (min_le_left _ _).trans le
    · exact le

theorem capped_eq_min {capped : Prop} [Decidable capped] :
    (if cap < high ∧ capped then cap else high) = if capped then min high cap else high := by
  by_cases applies : capped
  · rw [if_pos applies]
    split
    · rename_i above
      exact (min_eq_right above.1.le).symm
    · rename_i below
      exact (min_eq_left (not_lt.mp fun above => below ⟨above, applies⟩)).symm
  · rw [if_neg applies, if_neg fun both => applies both.2]

section
variable (suspicious : NoLessSuspicious settings cycle raised)
include suspicious

theorem sAmount_le : sAmount settings cycle ≤ sAmount settings raised := Anchors.normalise_mono suspicious.amount

theorem sRecurrence_le : sRecurrence cycle baseline ≤ sRecurrence raised baseline :=
  Anchors.normalise_mono (Int.cast_le.mpr suspicious.recurrence)

theorem sEntropy_le : sEntropy settings cycle ≤ sEntropy settings raised :=
  Anchors.normalise_mono (sub_le_sub_left suspicious.entropy 1)

theorem sAuxiliary_le : sAuxiliary settings cycle ≤ sAuxiliary settings raised := by
  have timing : sTiming settings cycle ≤ sTiming settings raised := Anchors.normalise_mono suspicious.temporal
  have round : sRound cycle ≤ sRound raised := by
    unfold sRound
    by_cases flagged : cycle.roundAmountFlag = true
    · rw [if_pos flagged, if_pos (suspicious.round flagged)]
    · rw [if_neg flagged]
      split
      · exact zero_le_one
      · exact le_rfl
  unfold sAuxiliary
  linarith

theorem hopDelta_le : hopDelta settings raised ≤ hopDelta settings cycle :=
  max_le_max suspicious.hopDelta le_rfl

theorem sSpeed_le : sSpeed settings cycle ≤ sSpeed settings raised := by
  have positive : 0 < hopDelta settings raised :=
    lt_max_of_lt_right (by norm_num [epsilon])
  exact Anchors.normalise_mono (one_div_le_one_div_of_le positive (hopDelta_le suspicious))

theorem structuralOnly_of_raised (structural : structuralOnly settings raised) : structuralOnly settings cycle := by
  have entropy := sEntropy_le suspicious
  have auxiliary := sAuxiliary_le suspicious
  have speed := sSpeed_le suspicious
  unfold structuralOnly at structural ⊢
  linarith

theorem recurringLayering_raised (recurring : recurringLayering settings cycle baseline) :
    recurringLayering settings raised baseline := by
  obtain ⟨long, amount, recurrence⟩ := recurring
  exact ⟨suspicious.length ▸ long, amount.trans_le (sAmount_le suspicious),
    recurrence.trans_le (sRecurrence_le suspicious)⟩

theorem lossy_raised_iff : lossy settings raised ↔ lossy settings cycle := by
  rw [lossy, lossy, suspicious.length, suspicious.netLoss]

theorem slowOneOff_of_raised (slow : slowOneOff settings raised baseline) : slowOneOff settings cycle baseline := by
  have entropy := sEntropy_le suspicious
  have speed := sSpeed_le suspicious
  have recurrence : sRecurrence cycle baseline ≤ sRecurrence raised baseline := sRecurrence_le suspicious
  obtain ⟨slowly, uncorroborated⟩ := slow
  exact ⟨slowly.trans (hopDelta_le suspicious), by linarith⟩

theorem gate_raised : gate settings raised = gate settings cycle := by
  rw [gate, gate, suspicious.length, suspicious.netLoss]

end

theorem weighed_le (suspicious : NoLessSuspicious config.toSettings cycle raised) :
    weighed config.toSettings cycle baseline ≤ weighed config.toSettings raised baseline := by
  have amount := mul_le_mul_of_nonneg_left (sAmount_le suspicious) config.amountCounts
  have recurring : sRecurrence cycle baseline ≤ sRecurrence raised baseline := sRecurrence_le suspicious
  have recurrence := mul_le_mul_of_nonneg_left recurring config.recurrenceCounts
  have entropy := mul_le_mul_of_nonneg_left (sEntropy_le suspicious) config.entropyCounts
  have auxiliary := mul_le_mul_of_nonneg_left (sAuxiliary_le suspicious) config.auxiliaryCounts
  have speed := mul_le_mul_of_nonneg_left (sSpeed_le suspicious) config.speedCounts
  unfold weighed
  linarith

theorem bandedScore_le (suspicious : NoLessSuspicious config.toSettings cycle raised) :
    bandedScore config.toSettings cycle baseline ≤ bandedScore config.toSettings raised baseline := by
  unfold bandedScore
  dsimp only
  rw [capped_eq_min, capped_eq_min]
  refine capped_le_capped (capped_le_capped (capped_le_capped ?_ ?_) ?_) ?_
  · exact Anchors.finalise_mono (weighed_le suspicious)
  · exact structuralOnly_of_raised suspicious
  · exact (lossy_raised_iff suspicious).mp
  · exact slowOneOff_of_raised suspicious

theorem bandedScore_nonneg : 0 ≤ bandedScore config.toSettings cycle baseline := by
  have cap : 0 ≤ config.moderateCap := (by norm_num [MultipleSat.bandModerateThreshold] :
    (0 : ℚ) ≤ MultipleSat.bandModerateThreshold).trans config.moderate.1
  have informational : 0 ≤ bandInformationalMax := by
    norm_num [bandInformationalMax, MultipleSat.bandModerateThreshold]
  have kept : ∀ {capped : Prop} [Decidable capped] {final bound : ℚ}, 0 ≤ final → 0 ≤ bound →
      0 ≤ if capped then min final bound else final := by
    intro capped _ final bound nonneg bounded
    split
    · exact le_min nonneg bounded
    · exact nonneg
  unfold bandedScore
  dsimp only
  rw [capped_eq_min]
  exact kept (kept (kept Anchors.finalise_nonneg cap) cap) informational

theorem score_ge : -1 ≤ (score config.toSettings cycle baseline).score := by
  unfold score
  split
  · exact le_rfl
  · have nonneg : 0 ≤ bandedScore config.toSettings cycle baseline := bandedScore_nonneg
    dsimp only
    linarith

theorem score_le (suspicious : NoLessSuspicious config.toSettings cycle raised) :
    (score config.toSettings cycle baseline).score ≤ (score config.toSettings raised baseline).score := by
  by_cases suppressed : structuralOnly config.toSettings cycle ∧ ¬ recurringLayering config.toSettings cycle baseline
  · rw [score, if_pos suppressed]
    exact score_ge
  · -- What is not suppressed stays so: the structure shows more, or the ring recurs as well.
    have still : ¬ (structuralOnly config.toSettings raised ∧
        ¬ recurringLayering config.toSettings raised baseline) := by
      rintro ⟨structural, single⟩
      exact suppressed ⟨structuralOnly_of_raised suspicious structural,
        fun recurring => single (recurringLayering_raised suspicious recurring)⟩
    rw [score, if_neg suppressed, score, if_neg still]
    exact bandedScore_le suspicious

/-- **A cycle that is no less suspicious never scores lower**, with the gate and without it. -/
theorem suspicion_never_lowers (suspicious : NoLessSuspicious config.toSettings cycle raised) :
    (score config.toSettings cycle baseline).score ≤ (score config.toSettings raised baseline).score ∧
      classScore config.toSettings cycle baseline ≤ classScore config.toSettings raised baseline := by
  refine ⟨score_le suspicious, ?_⟩
  unfold classScore
  rw [gate_raised suspicious]
  split
  · exact score_le suspicious
  · exact le_rfl

end

/-- A ring of three hops through fresh addresses that keeps its amount, seen once. -/
private def freshRing : Cycle where
  cycleLength := 3
  netLossRatio := some (1 / 100)
  amountSimilarity := some 1
  recurrenceCount := some 0
  recipientEntropy := none
  roundAmountFlag := false
  temporalConcentration := none
  meanInterHopDeltaSlots := some 2000

/-- A ring that recurs lets the suppressed one through. -/
theorem recurring_ring_not_lower :
    (score shipped.toSettings freshRing ⟨0, 5⟩).score ≤
        (score shipped.toSettings { freshRing with recurrenceCount := some 5 } ⟨0, 5⟩).score ∧
      classScore shipped.toSettings freshRing ⟨0, 5⟩ ≤
        classScore shipped.toSettings { freshRing with recurrenceCount := some 5 } ⟨0, 5⟩ :=
  suspicion_never_lowers
    { length := rfl
      netLoss := rfl
      amount := le_rfl
      recurrence := by decide
      temporal := le_rfl
      entropy := le_rfl
      hopDelta := le_rfl
      round := id }

example : (score shipped.toSettings freshRing ⟨0, 5⟩).score = -1 ∧
    (score shipped.toSettings { freshRing with recurrenceCount := some 5 } ⟨0, 5⟩).score = 59 := by
  decide +kernel

end TransactionMonitoring.Circular
