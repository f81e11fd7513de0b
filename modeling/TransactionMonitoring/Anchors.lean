import TransactionMonitoring.Baselines
import TransactionMonitoring.MultipleSat

/-! What the scorers make of baselines and of weighted sums.

An axis is normalised with the percentiles its baseline resolves to.  Where no baseline serves,
they are the configured anchors; a learned pair is bounded by the anchors, so that a poisoned
history can blunt an axis only so far.  Arithmetic is exact.
-/
namespace TransactionMonitoring.Anchors
open Baselines

/-- The bounds on a learned pair, from the `baselines` block. -/
structure Caps where
  p99CapMultiplier : ℚ
  p50CapSpreadFraction : ℚ
deriving DecidableEq

/-- What a resolution reads. -/
structure Table where
  settings : Settings
  caps : Caps
  rows : List BaselineRow

/-- A learned pair beside the anchors of the scorer. -/
def capped (table : Table) (anchor learned : Percentiles) : Percentiles :=
  if 0 < table.caps.p99CapMultiplier ∧ 0 < anchor.p99 then
    let cap := table.caps.p99CapMultiplier * anchor.p99
    { p50 := min learned.p50 (min (anchor.p50 + table.caps.p50CapSpreadFraction * (anchor.p99 - anchor.p50))
        (cap / (1 + table.settings.minSpreadRatio)))
      p99 := min learned.p99 cap }
  else learned

/-- `resolved_or_bootstrap`; what it reports as `bootstrap` is `.missing` here. -/
def resolvedOrBootstrap (table : Table) (key : Key) (bootstrap : Percentiles) : Percentiles × Source :=
  match resolveBaseline table.settings table.rows key ⟨0, none⟩ with
  | (_, .missing) => (bootstrap, .missing)
  | (learned, .scope tier) => (capped table bootstrap learned, .scope tier)

def normaliseInverted (value : ℚ) (percentiles : Percentiles) : ℚ :=
  if percentiles.p99 - percentiles.p50 ≤ 0 then 0 else 1 - normalise value percentiles

/-- `finalise_score`, in exact arithmetic. -/
def finalise (raw : ℚ) : ℚ := MultipleSat.finaliseScore (Rounding.exact ℚ (2 ^ 53)) raw

section
variable {percentiles : Percentiles} {value low high : ℚ}

theorem normalise_nonneg : 0 ≤ normalise value percentiles := by
  rw [normalise]
  split
  · exact le_rfl
  · exact le_max_left _ _

theorem normalise_le_one : normalise value percentiles ≤ 1 := by
  rw [normalise]
  split
  · exact zero_le_one
  · exact max_le zero_le_one (min_le_left _ _)

theorem normalise_mono (le : low ≤ high) : normalise low percentiles ≤ normalise high percentiles := by
  unfold normalise
  dsimp only
  split
  · exact le_rfl
  · rename_i spread
    have slope : 0 < percentiles.p99 - percentiles.p50 + epsilon :=
      add_pos (not_le.mp spread) (by norm_num [epsilon])
    gcongr

theorem finalise_mono (le : low ≤ high) : finalise low ≤ finalise high :=
  MultipleSat.finaliseScore_mono (Rounding.exact ℚ (2 ^ 53)) le

theorem finalise_nonneg : 0 ≤ finalise value := MultipleSat.finaliseScore_nonneg (Rounding.exact ℚ (2 ^ 53)) value

end
end TransactionMonitoring.Anchors
