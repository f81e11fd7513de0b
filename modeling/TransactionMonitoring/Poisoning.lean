import Mathlib.Order.Bounds.Defs
import TransactionMonitoring.Anchors

/-! How far a poisoned history blunts an axis.

Whoever trains the baselines of a script chooses the percentiles that are learned.  The caps bound
what a reader makes of them, and the bound is met: one history is worst for every observation.  An
axis on which low values are suspicious has no such bound.
-/
namespace TransactionMonitoring.Poisoning
open Anchors Baselines Replacing

/-- What the configured numbers satisfy. -/
structure Sane (table : Table) (anchor : Percentiles) : Prop where
  spread : 0 < table.settings.minSpreadRatio
  /-- The caps leave the anchors as they are. -/
  cap : 1 ≤ table.caps.p99CapMultiplier
  fraction : 0 ≤ table.caps.p50CapSpreadFraction
  rises : anchor.p50 < anchor.p99
  positive : 0 < anchor.p99
  usable : anchor.p50 * (1 + table.settings.minSpreadRatio) ≤ table.caps.p99CapMultiplier * anchor.p99

instance (table : Table) (anchor : Percentiles) : Decidable (Sane table anchor) :=
  decidable_of_iff (0 < table.settings.minSpreadRatio ∧ 1 ≤ table.caps.p99CapMultiplier ∧
    0 ≤ table.caps.p50CapSpreadFraction ∧ anchor.p50 < anchor.p99 ∧ 0 < anchor.p99 ∧
    anchor.p50 * (1 + table.settings.minSpreadRatio) ≤ table.caps.p99CapMultiplier * anchor.p99)
    ⟨fun ⟨spread, cap, fraction, rises, positive, usable⟩ => ⟨spread, cap, fraction, rises, positive, usable⟩,
      fun sane => ⟨sane.spread, sane.cap, sane.fraction, sane.rises, sane.positive, sane.usable⟩⟩

/-- The pair with both percentiles as high as the caps let them be. -/
def worst (table : Table) (anchor : Percentiles) : Percentiles :=
  let cap := table.caps.p99CapMultiplier * anchor.p99
  { p50 := min (anchor.p50 + table.caps.p50CapSpreadFraction * (anchor.p99 - anchor.p50))
      (cap / (1 + table.settings.minSpreadRatio))
    p99 := cap }

/-- A tier answers with a usable pair. -/
theorem usable_of_resolved {settings : Settings} {rows : List BaselineRow} {key : Key} {request : Request}
    {learned : Percentiles} {tier : ScopeType}
    (resolved : resolveBaseline settings rows key request = (learned, .scope tier)) :
    baselineIsUsable settings learned = true := by
  have served : ∀ {found : Option BaselineRow} {row : BaselineRow}, found.filter (serves settings request) = some row →
      baselineIsUsable settings row.percentiles = true := by
    intro found row answers
    have serves := (Option.filter_eq_some_iff.mp answers).2
    rw [Baselines.serves, Bool.and_eq_true] at serves
    exact serves.2
  rw [resolveBaseline] at resolved
  split at resolved
  · next row answers =>
    cases resolved
    exact served answers
  · rw [fallback] at resolved
    split at resolved
    · split at resolved
      · next row answers =>
        cases resolved
        exact served answers
      · cases resolved
    · cases resolved

/-- A history of one scope. -/
def trained (settings : Settings) (key : Key) (learned : Percentiles) : List BaselineRow :=
  [⟨key, learned, settings.baselineMinSamples, 0⟩]

/-- The history of a scope answers for it. -/
theorem resolved_of_trained {table : Table} {anchor learned : Percentiles} {key : Key}
    (usable : baselineIsUsable table.settings learned = true) :
    (resolvedOrBootstrap { table with rows := trained table.settings key learned } key anchor).1 =
      capped table anchor learned := by
  have stored : getBaseline (trained table.settings key learned) key =
      some ⟨key, learned, table.settings.baselineMinSamples, 0⟩ := by
    simp [getBaseline, final, trained, newer]
  have answers : (getBaseline (trained table.settings key learned) key).filter (serves table.settings ⟨0, none⟩) =
      some ⟨key, learned, table.settings.baselineMinSamples, 0⟩ := by
    rw [stored]
    refine Option.filter_eq_some_iff.mpr ⟨rfl, ?_⟩
    simp [serves, usable]
  have resolved : resolveBaseline table.settings (trained table.settings key learned) key ⟨0, none⟩ =
      (learned, .scope key.scopeType) := by
    rw [resolveBaseline, answers]
  rw [resolvedOrBootstrap]
  dsimp only
  rw [resolved]
  rfl

section
variable {table : Table} {anchor learned : Percentiles} {key : Key} {value : ℚ} (sane : Sane table anchor)
include sane

theorem capped_eq : capped table anchor learned =
    ⟨min learned.p50 (worst table anchor).p50, min learned.p99 (worst table anchor).p99⟩ := by
  rw [capped, if_pos ⟨zero_lt_one.trans_le sane.cap, sane.positive⟩]
  rfl

theorem cap_pos : 0 < (worst table anchor).p99 :=
  mul_pos (zero_lt_one.trans_le sane.cap) sane.positive

/-- The bound on the median leaves a usable spread below the cap. -/
theorem worst_spread : (worst table anchor).p50 * (1 + table.settings.minSpreadRatio) ≤ (worst table anchor).p99 := by
  have slack : 0 < 1 + table.settings.minSpreadRatio := by linarith [sane.spread]
  calc (worst table anchor).p50 * (1 + table.settings.minSpreadRatio)
      ≤ (worst table anchor).p99 / (1 + table.settings.minSpreadRatio) * (1 + table.settings.minSpreadRatio) :=
        mul_le_mul_of_nonneg_right (min_le_right _ _) slack.le
    _ = (worst table anchor).p99 := div_mul_cancel₀ _ slack.ne'

/-- A pair that keeps the spread of a usable baseline rises. -/
theorem rises_of_spread {pair : Percentiles} (spread : pair.p50 * (1 + table.settings.minSpreadRatio) ≤ pair.p99)
    (positive : 0 < pair.p99) : pair.p50 < pair.p99 := by
  rcases le_or_gt pair.p50 0 with low | high
  · exact low.trans_lt positive
  · have wider := mul_lt_mul_of_pos_left (lt_add_of_pos_right 1 sane.spread) high
    rw [mul_one] at wider
    exact wider.trans_le spread

/-- A learned pair that is usable still is when it is capped, and lies below the worst. -/
theorem worst_keeps_capped (usable : baselineIsUsable table.settings learned = true) :
    Keeps (worst table anchor) (capped table anchor learned) := by
  rw [capped_eq sane]
  refine .inr ⟨?_, min_le_right _ _, min_le_right _ _⟩
  have slack : 0 ≤ 1 + table.settings.minSpreadRatio := by linarith [sane.spread]
  rw [baselineIsUsable] at usable
  split at usable
  · next low =>
    have positive := of_decide_eq_true usable
    exact ((min_le_left _ _).trans low).trans_lt (lt_min positive (cap_pos sane))
  · next high =>
    have ratio := of_decide_eq_true usable
    rw [le_div_iff₀ (not_le.mp high)] at ratio
    have learnedSpread : learned.p50 * (1 + table.settings.minSpreadRatio) ≤ learned.p99 := by linarith
    have learnedPositive : 0 < learned.p99 :=
      (not_le.mp high).trans (rises_of_spread sane learnedSpread
        ((mul_pos (not_le.mp high) (by linarith [sane.spread])).trans_le learnedSpread))
    refine @rises_of_spread table anchor sane ⟨_, _⟩ (le_min ?_ ?_) (lt_min learnedPositive (cap_pos sane))
    · exact (mul_le_mul_of_nonneg_right (min_le_left _ _) slack).trans learnedSpread
    · exact (mul_le_mul_of_nonneg_right (min_le_right _ _) slack).trans (worst_spread sane)

theorem worst_keeps_anchor : Keeps (worst table anchor) anchor := by
  refine .inr ⟨sane.rises, le_min ?_ ?_, ?_⟩
  · exact le_add_of_nonneg_right (mul_nonneg sane.fraction (sub_nonneg.mpr sane.rises.le))
  · rw [le_div_iff₀ (by linarith [sane.spread])]
    exact sane.usable
  · exact le_mul_of_one_le_left sane.positive.le sane.cap

/-- Whatever was learned, a resolution lies below the worst pair. -/
theorem worst_keeps_resolved (key : Key) : Keeps (worst table anchor) (resolvedOrBootstrap table key anchor).1 := by
  rw [resolvedOrBootstrap]
  split
  · exact worst_keeps_anchor sane
  · next resolved => exact worst_keeps_capped sane (usable_of_resolved resolved)

/-- The history that blunts an axis most. -/
def poison (table : Table) (anchor : Percentiles) (key : Key) : List BaselineRow :=
  trained table.settings key (worst table anchor)

theorem resolved_of_poison (key : Key) :
    (resolvedOrBootstrap { table with rows := poison table anchor key } key anchor).1 = worst table anchor := by
  have usable : baselineIsUsable table.settings (worst table anchor) = true := by
    rw [baselineIsUsable]
    split
    · exact decide_eq_true (cap_pos sane)
    · next high =>
      refine decide_eq_true ?_
      rw [le_div_iff₀ (not_le.mp high)]
      linarith [worst_spread sane]
  rw [poison, resolved_of_trained usable, capped_eq sane, min_self, min_self]

/-- The sensitivity that a poisoned history leaves: over all contents of the table, an observation normalises lowest
where both percentiles lie at their caps, and there is such a content. -/
theorem blunted_isLeast (key : Key) (value : ℚ) :
    IsLeast {normalised | ∃ rows, normalised =
        normalise value (resolvedOrBootstrap { table with rows } key anchor).1}
      (normalise value (worst table anchor)) := by
  constructor
  · exact ⟨poison table anchor key, by rw [resolved_of_poison sane]⟩
  · rintro _ ⟨rows, rfl⟩
    have saneToo : Sane { table with rows } anchor := ⟨sane.spread, sane.cap, sane.fraction, sane.rises, sane.positive,
      sane.usable⟩
    exact normalise_le_iff.mpr (worst_keeps_resolved saneToo key) value

end

/-- The `n_assets` axis of the double-satisfaction scorer, as it is configured. -/
def assets : Table := ⟨⟨true, 1 / 2, 1 / 2, 1 / 10, 200⟩, ⟨5, 1 / 4⟩, []⟩

/-- A drain of two tokens keeps an extraction of three twentieths, whatever the script learned. -/
theorem blunted_isLeast_of_two_tokens : IsLeast {normalised | ∃ rows, normalised =
    normalise 2 (resolvedOrBootstrap { assets with rows } ⟨"mainnet", .perScript, "script", "n_assets"⟩ ⟨0, 2⟩).1}
    (normalise 2 ⟨1 / 2, 10⟩) := by
  have pair : worst assets ⟨0, 2⟩ = ⟨1 / 2, 10⟩ := by decide +kernel
  rw [← pair]
  exact blunted_isLeast (by decide +kernel) _ 2

/-- An axis on which low values are suspicious is blunted without bound: a history with a small enough 99th percentile
lets any observation above it pass. -/
theorem inverted_blunted (table : Table) (anchor : Percentiles) (key : Key) {value : ℚ} (above : epsilon < value)
    (cap : 0 < table.caps.p99CapMultiplier) (positive : 0 < anchor.p99) :
    ∃ rows, normaliseInverted value (resolvedOrBootstrap { table with rows } key anchor).1 = 0 := by
  have usable : baselineIsUsable table.settings ⟨0, value - epsilon⟩ = true := by
    rw [baselineIsUsable, if_pos le_rfl]
    exact decide_eq_true (sub_pos.mpr above)
  refine ⟨trained table.settings key ⟨0, value - epsilon⟩, ?_⟩
  rw [resolved_of_trained usable, capped, if_pos ⟨cap, positive⟩]
  dsimp only
  set p50 := min (0 : ℚ) _ with median
  set p99 := min (value - epsilon) (table.caps.p99CapMultiplier * anchor.p99) with tail
  have low : p50 ≤ 0 := min_le_left _ _
  have high : 0 < p99 := lt_min (sub_pos.mpr above) (mul_pos cap positive)
  have below : p99 + epsilon ≤ value := by
    linarith [min_le_left (value - epsilon) (table.caps.p99CapMultiplier * anchor.p99)]
  have slope : 0 < p99 - p50 + epsilon := by
    have : 0 < epsilon := by norm_num [epsilon]
    linarith
  rw [normaliseInverted]
  dsimp only
  split
  · rfl
  · next spread =>
    have saturated : 1 ≤ (value - p50) / (p99 - p50 + epsilon) := by
      rw [le_div_iff₀ slope]
      linarith
    rw [normalise]
    dsimp only
    rw [if_neg spread, min_eq_left saturated, max_eq_right zero_le_one, sub_self]

end TransactionMonitoring.Poisoning
