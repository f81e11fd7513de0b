import TransactionMonitoring.SiblingOutputs

/-! Datums that an output names by their hash only.

The gate of the large datum scorer leaves out the hashes whose datums the witnesses of the same
transaction supply, as these are sized.  The count that `score` stores beside a result without a
finding is taken without the witnesses, and has every hash.
-/
namespace TransactionMonitoring.HashOnlyDatums

open SiblingOutputs SiblingOutputs.LargeDatum UtxoFeatures

deriving instance DecidableEq for ScorerResult

/-- An output whose datum is a hash. -/
def carriesHash (output : Output) : Bool :=
  match output.datum with
  | .null => decide (output.datumHash ≠ "")
  | _ => false

/-- A script output whose datum is a hash. -/
def hashAtScript (tools : Tools) (output : Output) : Bool := atScript tools output && carriesHash output

/-- The hash of the output is a key of the witness datums. -/
def supplied (datums : Json) (output : Output) : Bool := (datums.get output.datumHash).isSome

section
variable {tools : Tools} {settings : Settings} {features : Features} {datums : Json} {output : Output}

theorem flag_one_iff : (extractDatumInfo datums output).1 = 1 ↔ carriesHash output = true := by
  unfold extractDatumInfo carriesHash
  cases output.datum with
  | null =>
    simp only [decide_eq_true_eq]
    by_cases named : output.datumHash ≠ ""
    · rw [if_pos named]
      cases datums.get output.datumHash with
      | none => simp [named]
      | some preimage => cases preimage <;> simp [named]
    · rw [if_neg named]
      simp [named]
  | _ => simp

/-- A hash that the witnesses do not supply has no size. -/
theorem size_of_not_supplied (hash : carriesHash output = true) (missing : supplied datums output = false) :
    (extractDatumInfo datums output).2 = 0 := by
  unfold carriesHash at hash
  unfold extractDatumInfo
  cases shape : output.datum with
  | null =>
    rw [shape] at hash
    have named : output.datumHash ≠ "" := of_decide_eq_true hash
    have absent : datums.get output.datumHash = none := by simpa [supplied] using missing
    simp [named, absent]
  | _ => simp [shape] at hash

/-- What the gate counts: the hashes that are not sized. -/
theorem length_hashOnly (datums : Json) (outputs : List Output) :
    (datumHashOnlyAddresses tools datums outputs).length =
      outputs.countP fun output => hashAtScript tools output && decide ((extractDatumInfo datums output).2 = 0) := by
  rw [datumHashOnlyAddresses, List.length_map, ← List.countP_eq_length_filter]
  refine List.countP_congr fun output _ => ?_
  simp only [hashAtScript, Bool.and_eq_true, decide_eq_true_eq, Prod.ext_iff, flag_one_iff, and_assoc]

/-- Without the witnesses every hash counts. -/
theorem length_hashOnly_null (outputs : List Output) :
    (datumHashOnlyAddresses tools .null outputs).length = outputs.countP (hashAtScript tools) := by
  rw [length_hashOnly]
  refine List.countP_congr fun output _ => ?_
  simp only [Bool.and_eq_true, decide_eq_true_eq, and_iff_left_iff_imp]
  intro hash
  exact size_of_not_supplied (Bool.and_eq_true _ _ ▸ hash).2 rfl

/-- Counting all of one kind is counting those of another as well exactly where each of the kind is of both. -/
theorem countP_eq_countP_and_iff {α : Type} {kind other : α → Bool} {items : List α} :
    items.countP kind = items.countP (fun item => kind item && other item) ↔
      ∀ item ∈ items, kind item = true → other item = true := by
  induction items with
  | nil => simp
  | cons item rest ih =>
    have fewer : rest.countP (fun item => kind item && other item) ≤ rest.countP kind :=
      List.countP_mono_left fun _ _ both => (Bool.and_eq_true _ _ ▸ both).1
    rw [List.forall_mem_cons, ← ih, List.countP_cons, List.countP_cons]
    cases kind item with
    | false => simp
    | true => cases other item <;> simp; omega

/-- A result without a finding reports the count without the witnesses. -/
theorem count_eq {table : Anchors.Table} {bytes count : ℚ} (flagging : settings.flagDatumHashOnly = true)
    (result : score tools table settings features =
      noFinding [("max_script_datum_bytes", bytes), ("datum_hash_only_count", count)]) :
    count = (features.outputs.countP (hashAtScript tools) : ℕ) := by
  unfold score at result
  dsimp only at result
  rw [if_pos flagging] at result
  split at result
  · rename_i told
    -- A finding has the axes among its sub-scores.
    unfold reduceToBest at result told
    cases found : FirstBest.firstBest ScorerResult.score 0 (results tools table settings
        (((perScriptDatumBytes tools features).map Prod.snd).foldl max 0) features) with
    | none =>
      rw [found] at told
      exact absurd rfl told
    | some best =>
      rw [found] at result
      obtain ⟨_, _, _, _, rfl⟩ := mem_results (FirstBest.mem_of_firstBest found)
      have axes := congrArg (fun scored : ScorerResult => scored.subScores.length) result
      simp [scoreUtxo, noFinding] at axes
  · have reported := congrArg (fun scored : ScorerResult => scored.subScores) result
    simp only [noFinding, List.cons.injEq, Prod.mk.injEq, true_and, and_true] at reported
    rw [← reported.2, length_hashOnly_null]

end

/-- The stored count is that of the hashes the gate counts where nothing of what the hashes stand for is sized. -/
theorem count_eq_gate_iff (tools : Tools) (table : Anchors.Table) (settings : Settings) (features : Features)
    (bytes count : ℚ) (flagging : settings.flagDatumHashOnly = true)
    (result : score tools table settings features =
      noFinding [("max_script_datum_bytes", bytes), ("datum_hash_only_count", count)]) :
    count = (datumHashOnlyAddresses tools features.datums features.outputs).length ↔
      ∀ output ∈ features.outputs, hashAtScript tools output = true →
        (extractDatumInfo features.datums output).2 = 0 := by
  rw [count_eq flagging result, length_hashOnly, Nat.cast_inj, countP_eq_countP_and_iff]
  simp only [decide_eq_true_eq]

/-- **The stored count is that of the script outputs with a hash the witnesses do not supply, the ones the
gate counts, exactly where the witnesses supply none of the hashes at scripts.** -/
theorem count_exact_iff (tools : Tools) (table : Anchors.Table) (settings : Settings) (features : Features)
    (bytes count : ℚ) (flagging : settings.flagDatumHashOnly = true)
    (result : score tools table settings features =
      noFinding [("max_script_datum_bytes", bytes), ("datum_hash_only_count", count)]) :
    (count = (features.outputs.countP fun output =>
        hashAtScript tools output && !supplied features.datums output : ℕ) ∧
      count = (datumHashOnlyAddresses tools features.datums features.outputs).length) ↔
      ∀ output ∈ features.outputs, hashAtScript tools output = true → supplied features.datums output = false := by
  rw [count_eq_gate_iff tools table settings features bytes count flagging result, count_eq flagging result,
    Nat.cast_inj, countP_eq_countP_and_iff]
  simp only [Bool.not_eq_true']
  refine ⟨And.left, fun missing => ⟨missing, fun output member hash => ?_⟩⟩
  exact size_of_not_supplied (Bool.and_eq_true _ _ ▸ hash).2 (missing output member hash)

/-! ## A transaction with both kinds of hashes -/

private def shippedDatum : Settings where
  weights := ⟨1 / 2, 35 / 100, 5 / 100, 1 / 10⟩
  datumBytes := ⟨500, 14000⟩
  valueCborBytes := ⟨100, 1500⟩
  datumRatio := ⟨70 / 100, 97 / 100⟩
  reasonThreshold := 1 / 2
  minDatumBytes := 6000
  bloatEntropyMax := 4
  leafConcentrationMax := 1 / 2
  sizeBackstop := 12288
  aggregateEngagementMin := 12000
  flagDatumHashOnly := true
  largeStateAllowlist := fun _ => []

private def asciiTools : Tools where
  str := Bech32.asciiLower
  dumped := fun _ => 5
  loads := fun _ => none
  log2 := id

private def noBaselines : Anchors.Table := ⟨⟨true, 1 / 2, 1 / 2, 1 / 10, 100⟩, ⟨5, 1 / 4⟩, []⟩

/-- Two script outputs with a hash each; the witnesses hold the datum of the first. -/
private def halfSupplied : Features where
  network := "mainnet"
  outputs := [⟨"addr1wpool", some ⟨2000000, []⟩, .null, "d1", .null⟩,
    ⟨"addr1worder", some ⟨2000000, []⟩, .null, "d2", .null⟩]
  slot := some 1
  minted := []
  datums := .dict [("d1", .text "d87980")]

/-- The gate opens for one hash, and two are reported. -/
theorem supplied_hash_counted :
    gate asciiTools shippedDatum halfSupplied = true ∧ shippedDatum.flagDatumHashOnly = true ∧
      score asciiTools noBaselines shippedDatum halfSupplied =
        noFinding [("max_script_datum_bytes", 3), ("datum_hash_only_count", 2)] ∧
      (datumHashOnlyAddresses asciiTools halfSupplied.datums halfSupplied.outputs).length = 1 ∧
      (halfSupplied.outputs.countP fun output =>
        hashAtScript asciiTools output && !supplied halfSupplied.datums output) = 1 := by
  decide +kernel

/-- Where no datum is supplied, the count is exact. -/
theorem count_exact_iff_unsupplied :
    ((2 : ℚ) = ({ halfSupplied with datums := .null }.outputs.countP fun output =>
        hashAtScript asciiTools output && !supplied .null output : ℕ) ∧
      (2 : ℚ) = (datumHashOnlyAddresses asciiTools .null halfSupplied.outputs).length) ↔
      ∀ output ∈ halfSupplied.outputs, hashAtScript asciiTools output = true → supplied .null output = false :=
  count_exact_iff asciiTools noBaselines shippedDatum { halfSupplied with datums := .null } 0 2 rfl (by decide +kernel)

end TransactionMonitoring.HashOnlyDatums
