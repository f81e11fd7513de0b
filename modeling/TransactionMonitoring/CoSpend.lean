import Mathlib.Data.List.GetD
import Mathlib.Data.List.Sort
import Mathlib.Data.String.Basic
import TransactionMonitoring.Bech32
import TransactionMonitoring.Jaccard

/-! The distances between transactions that are clustered by the wallets they touch.

Addresses are taken to the wallet that controls them.  A window of too many transactions is cut to
its newest; the matrix is what DBSCAN and the outlier factor are given as precomputed distances.
Its entries are exact numbers.
-/
namespace TransactionMonitoring.CoSpend
open Bech32

/-- A row of the address frame. -/
structure TxAddress where
  txHash : String
  address : String
  blockTime : ℕ
deriving DecidableEq, Repr

/-- The frame; not every query selects the column `block_time`. -/
structure Frame where
  timed : Bool
  rows : List TxAddress
deriving DecidableEq, Repr

def stakeCredentialHex (address : List Char) : Option (List Char) :=
  match Sidecar.decodeAddressBytes address with
  | none => none
  | some [] => none
  | some (header :: raw) =>
      let addrType := header / 2 ^ 4
      if addrType ≤ 0x03 ∧ 57 ≤ raw.length + 1 then some (bytesHex ((raw.drop 28).take 28))
      else if (addrType = 0x0E ∨ addrType = 0x0F) ∧ 29 ≤ raw.length + 1 then some (bytesHex (raw.take 28))
      else none

/-- The wallet that controls an address. -/
def entityKey (address : String) : String :=
  match stakeCredentialHex address.toList with
  | some (digit :: digits) => "stake:" ++ String.ofList (digit :: digits)
  | some [] | none => address

/-- `sorted(df["tx_hash"].unique())`. -/
def unique (rows : List TxAddress) : List String := (rows.map TxAddress.txHash).dedup.insertionSort (· ≤ ·)

def latest (rows : List TxAddress) (txHash : String) : ℕ :=
  ((rows.filter (·.txHash = txHash)).map TxAddress.blockTime).foldr max 0

/-- Newest first, and of one time by the hash. -/
def Newer (rows : List TxAddress) (one other : String) : Prop :=
  latest rows other < latest rows one ∨ latest rows one = latest rows other ∧ one ≤ other

instance (rows : List TxAddress) (one other : String) : Decidable (Newer rows one other) :=
  inferInstanceAs (Decidable (_ ∨ _))

def recencyOrder (rows : List TxAddress) : List String := (unique rows).insertionSort (Newer rows)

/-- The columns at which the incidence matrix has a one in the row of a transaction. -/
def entities (rows : List TxAddress) (txHash : String) : List String :=
  ((rows.filter (·.txHash = txHash)).map fun row => entityKey row.address).dedup

/-- An entry of the distance matrix. -/
def entry (rows : List TxAddress) (one other : String) : ℚ :=
  if one = other then 0
  else
    let inter := (entities rows one).countP (· ∈ entities rows other)
    let union : ℚ := (entities rows one).length + (entities rows other).length - inter
    let sim := if 0 < union then inter / union else 0
    max 0 (min (1 - sim) 1)

structure Distances where
  txHashes : List String
  entries : List (List ℚ)
  dropped : ℕ
deriving DecidableEq, Repr

def Distances.at (distances : Distances) (i j : ℕ) : ℚ := (distances.entries.getD i []).getD j 0

/-- The transactions the matrix is built of. -/
def sample (frame : Frame) (maxTxs : Option ℕ) : List TxAddress :=
  match maxTxs with
  | none => frame.rows
  | some maxTxs =>
      if maxTxs < (unique frame.rows).length then
        let ordered := if frame.timed then recencyOrder frame.rows else unique frame.rows
        frame.rows.filter (·.txHash ∈ ordered.take maxTxs)
      else frame.rows

def buildJaccardDistance (frame : Frame) (maxTxs : Option ℕ) : Distances :=
  let rows := sample frame maxTxs
  { txHashes := unique rows
    entries := (unique rows).map fun one => (unique rows).map fun other => entry rows one other
    dropped := match maxTxs with
      | none => 0
      | some maxTxs => (unique frame.rows).length - maxTxs }

/-! What the matrix is. -/

section
variable {rows : List TxAddress} {one other : String}

theorem mem_unique : one ∈ unique rows ↔ ∃ row ∈ rows, row.txHash = one := by
  rw [unique, List.mem_insertionSort, List.mem_dedup, List.mem_map]

theorem nodup_unique (rows : List TxAddress) : (unique rows).Nodup :=
  (List.perm_insertionSort _ _).nodup_iff.mpr (List.nodup_dedup _)

theorem nodup_entities (rows : List TxAddress) (txHash : String) : (entities rows txHash).Nodup := List.nodup_dedup _

theorem entities_nonempty (there : one ∈ unique rows) : (entities rows one).toFinset.Nonempty := by
  obtain ⟨row, member, rfl⟩ := mem_unique.mp there
  refine ⟨entityKey row.address, List.mem_toFinset.mpr (List.mem_dedup.mpr (List.mem_map.mpr ⟨row, ?_, rfl⟩))⟩
  exact List.mem_filter.mpr ⟨member, decide_eq_true rfl⟩

/-- An entry is the distance of the wallets of two transactions. -/
theorem entry_eq (there : one ∈ unique rows) :
    entry rows one other = Jaccard.distance (entities rows one).toFinset (entities rows other).toFinset := by
  have some_ := entities_nonempty there
  rw [entry]
  split
  · next same =>
    rw [← same, Jaccard.distance_self some_]
  · have size : ∀ txHash, (entities rows txHash).length = (entities rows txHash).toFinset.card := fun txHash =>
      (List.toFinset_card_of_nodup (nodup_entities rows txHash)).symm
    have shared : (entities rows one).countP (· ∈ entities rows other) =
        ((entities rows one).toFinset ∩ (entities rows other).toFinset).card := by
      have common : (entities rows one).toFinset ∩ (entities rows other).toFinset =
          ((entities rows one).filter (· ∈ entities rows other)).toFinset := by
        ext entity
        simp only [Finset.mem_inter, List.mem_toFinset, List.mem_filter, decide_eq_true_eq]
      rw [common, List.toFinset_card_of_nodup ((nodup_entities rows one).filter _), List.countP_eq_length_filter]
    have together : ((entities rows one).length : ℚ) + (entities rows other).length -
        (entities rows one).countP (· ∈ entities rows other) =
        ((entities rows one).toFinset ∪ (entities rows other).toFinset).card := by
      have parts := Finset.card_union_add_card_inter (entities rows one).toFinset (entities rows other).toFinset
      rw [size, size, shared, sub_eq_iff_eq_add]
      exact_mod_cast parts.symm
    have held : (0 : ℚ) < ((entities rows one).toFinset ∪ (entities rows other).toFinset).card := by
      exact_mod_cast Finset.card_pos.mpr (some_.mono Finset.subset_union_left)
    dsimp only
    rw [together, if_pos held, shared]
    rw [show 1 - (_ : ℚ) / _ = Jaccard.distance (entities rows one).toFinset (entities rows other).toFinset from rfl,
      min_eq_left (Jaccard.distance_le_one _ _), max_eq_right (Jaccard.distance_nonneg _ _)]

end

section
variable {frame : Frame} {maxTxs : Option ℕ}

/-- The entry of two places is that of the transactions there. -/
theorem at_buildJaccardDistance {i j : ℕ} (here : i < (buildJaccardDistance frame maxTxs).txHashes.length)
    (there : j < (buildJaccardDistance frame maxTxs).txHashes.length) :
    (buildJaccardDistance frame maxTxs).at i j = entry (sample frame maxTxs)
      (buildJaccardDistance frame maxTxs).txHashes[i] (buildJaccardDistance frame maxTxs).txHashes[j] := by
  have row : (buildJaccardDistance frame maxTxs).entries.getD i [] = (unique (sample frame maxTxs)).map
      (entry (sample frame maxTxs) (buildJaccardDistance frame maxTxs).txHashes[i]) := by
    dsimp only [buildJaccardDistance]
    rw [List.getD_eq_getElem _ _ (by rwa [List.length_map]), List.getElem_map]
    rfl
  rw [Distances.at, row, List.getD_eq_getElem _ _ (by rwa [List.length_map]), List.getElem_map]
  rfl

/-- All rows of a transaction are sampled, or none. -/
theorem mem_sample {row : TxAddress} (member : row ∈ frame.rows) :
    row ∈ sample frame maxTxs ↔ row.txHash ∈ unique (sample frame maxTxs) := by
  constructor
  · intro sampled
    exact mem_unique.mpr ⟨row, sampled, rfl⟩
  · intro kept
    obtain ⟨other, sampled, same⟩ := mem_unique.mp kept
    revert sampled
    unfold sample
    split
    · exact fun _ => member
    · split
      · intro sampled
        have chosen := (List.mem_filter.mp sampled).2
        rw [same] at chosen
        exact List.mem_filter.mpr ⟨member, chosen⟩
      · exact fun _ => member

theorem sample_subset : sample frame maxTxs ⊆ frame.rows := by
  unfold sample
  split
  · exact List.Subset.refl _
  · split
    · exact List.filter_sublist.subset
    · exact List.Subset.refl _

/-- Sampling leaves a transaction all of its wallets. -/
theorem mem_entities_sample {txHash entity : String} (kept : txHash ∈ unique (sample frame maxTxs)) :
    entity ∈ entities (sample frame maxTxs) txHash ↔ entity ∈ entities frame.rows txHash := by
  simp only [entities, List.mem_dedup, List.mem_map, List.mem_filter, decide_eq_true_eq]
  constructor
  · rintro ⟨row, ⟨member, same⟩, is⟩
    exact ⟨row, ⟨sample_subset member, same⟩, is⟩
  · rintro ⟨row, ⟨member, same⟩, is⟩
    refine ⟨row, ⟨(mem_sample member).mpr ?_, same⟩, is⟩
    rwa [same]

/-- The matrix is fit for density clustering: whatever the frame holds and however it is cut, its entries are distances
between the transactions, and two transactions are at no distance just where the same wallets take part in them. -/
theorem matrix_isPseudometric (frame : Frame) (maxTxs : Option ℕ) :
    let result := buildJaccardDistance frame maxTxs
    Jaccard.IsPseudometric result.txHashes.length result.at ∧
    ∀ (i j : ℕ) (here : i < result.txHashes.length) (there : j < result.txHashes.length), result.at i j = 0 ↔
      ∀ entity, entity ∈ entities frame.rows result.txHashes[i] ↔ entity ∈ entities frame.rows result.txHashes[j] := by
  intro result
  have listed : ∀ {i : ℕ} (here : i < result.txHashes.length), result.txHashes[i] ∈ unique (sample frame maxTxs) :=
    fun here => List.getElem_mem here
  have is : ∀ {i j : ℕ} (here : i < result.txHashes.length) (there : j < result.txHashes.length), result.at i j =
      Jaccard.distance (entities (sample frame maxTxs) result.txHashes[i]).toFinset
        (entities (sample frame maxTxs) result.txHashes[j]).toFinset := fun here there =>
    (at_buildJaccardDistance here there).trans (entry_eq (listed here))
  constructor
  · refine Jaccard.isPseudometric_distance (fun i =>
      (entities (sample frame maxTxs) (result.txHashes.getD i "")).toFinset) (fun i here => ?_) fun i here j there => ?_
    · rw [List.getD_eq_getElem _ _ here]
      exact entities_nonempty (listed here)
    · rw [is here there, List.getD_eq_getElem _ _ here, List.getD_eq_getElem _ _ there]
  · intro i j here there
    rw [is here there, Jaccard.distance_eq_zero_iff (entities_nonempty (listed here)), Finset.ext_iff]
    refine forall_congr' fun entity => ?_
    rw [List.mem_toFinset, List.mem_toFinset, mem_entities_sample (listed here), mem_entities_sample (listed there)]

/-- Of too many transactions those at the front of the order are sampled. -/
theorem unique_sample_perm {many : ℕ} (tooMany : many < (unique frame.rows).length) :
    (unique (sample frame (some many))).Perm
      ((if frame.timed then recencyOrder frame.rows else unique frame.rows).take many) := by
  set ordered := if frame.timed then recencyOrder frame.rows else unique frame.rows with order
  have perm : ordered.Perm (unique frame.rows) := by
    rw [order]
    split
    · exact List.perm_insertionSort _ _
    · exact .refl _
  have nodup : ordered.Nodup := perm.nodup_iff.mpr (nodup_unique _)
  rw [List.perm_ext_iff_of_nodup (nodup_unique _) (nodup.sublist (List.take_sublist _ _))]
  intro txHash
  have rows : sample frame (some many) = frame.rows.filter (·.txHash ∈ ordered.take many) := by
    rw [sample, if_pos tooMany]
  rw [mem_unique, rows]
  constructor
  · rintro ⟨row, sampled, rfl⟩
    exact of_decide_eq_true (List.mem_filter.mp sampled).2
  · intro front
    obtain ⟨row, member, rfl⟩ := mem_unique.mp (perm.mem_iff.mp (List.mem_of_mem_take front))
    exact ⟨row, List.mem_filter.mpr ⟨member, decide_eq_true front⟩, rfl⟩

/-- The order is by time, and of one time by the hash. -/
theorem recencyOrder_sorted (rows : List TxAddress) : (recencyOrder rows).Pairwise (Newer rows) := by
  have total : Std.Total (Newer rows) := by
    refine ⟨fun one other => ?_⟩
    obtain before | same | after := lt_trichotomy (latest rows one) (latest rows other)
    · exact .inr (.inl before)
    · obtain first | second := le_total one other
      · exact .inl (.inr ⟨same, first⟩)
      · exact .inr (.inr ⟨same.symm, second⟩)
    · exact .inl (.inl after)
  have transitive : IsTrans String (Newer rows) := by
    refine ⟨?_⟩
    rintro one other third (later | ⟨same, first⟩) (laterToo | ⟨sameToo, second⟩)
    · exact .inl (laterToo.trans later)
    · exact .inl (sameToo ▸ later)
    · exact .inl (same ▸ laterToo)
    · exact .inr ⟨same.trans sameToo, first.trans second⟩
  exact List.pairwise_insertionSort _ _

theorem sample_sublist (frame : Frame) (maxTxs : Option ℕ) : (sample frame maxTxs).Sublist frame.rows := by
  unfold sample
  split
  · exact .refl _
  · split
    · exact List.filter_sublist
    · exact .refl _

/-- What is left out of a window is its oldest part, and it is counted: the matrix holds as many transactions of the
frame as it may, each once, and where the frame tells times, any that is dropped is older than any that is kept, or as
old and behind it by its hash. -/
theorem newest_are_kept (frame : Frame) (many : ℕ) :
    let result := buildJaccardDistance frame (some many)
    result.txHashes.Nodup ∧ (∀ kept ∈ result.txHashes, ∃ row ∈ frame.rows, row.txHash = kept) ∧
    result.txHashes.length = min many (unique frame.rows).length ∧
    result.txHashes.length + result.dropped = (unique frame.rows).length ∧
    (frame.timed = true → ∀ kept ∈ result.txHashes, ∀ gone ∈ unique frame.rows, gone ∉ result.txHashes →
      latest frame.rows gone < latest frame.rows kept ∨
        latest frame.rows gone = latest frame.rows kept ∧ kept < gone) := by
  intro result
  have hashes : result.txHashes = unique (sample frame (some many)) := rfl
  have dropped : result.dropped = (unique frame.rows).length - many := rfl
  rw [dropped, hashes]
  refine ⟨nodup_unique _, fun kept member => ?_, ?_⟩
  · obtain ⟨row, sampled, same⟩ := mem_unique.mp member
    exact ⟨row, (sample_sublist frame _).subset sampled, same⟩
  by_cases tooMany : many < (unique frame.rows).length
  · have perm := unique_sample_perm tooMany
    have ordered : (if frame.timed then recencyOrder frame.rows else unique frame.rows).length =
        (unique frame.rows).length := by
      split
      · exact (List.perm_insertionSort _ _).length_eq
      · rfl
    have size : (unique (sample frame (some many))).length = many := by
      rw [perm.length_eq, List.length_take, ordered]
      omega
    refine ⟨by omega, by omega, fun timed kept member gone there absent => ?_⟩
    rw [if_pos timed] at perm
    have front := perm.mem_iff.mp member
    have behind : gone ∈ (recencyOrder frame.rows).drop many := by
      have among : gone ∈ recencyOrder frame.rows := (List.perm_insertionSort _ _).mem_iff.mpr there
      rw [← List.take_append_drop many (recencyOrder frame.rows)] at among
      exact (List.mem_append.mp among).resolve_left fun front => absent (perm.mem_iff.mpr front)
    have sorted := recencyOrder_sorted frame.rows
    rw [← List.take_append_drop many (recencyOrder frame.rows)] at sorted
    obtain later | ⟨same, first⟩ := (List.pairwise_append.mp sorted).2.2 kept front gone behind
    · exact .inl later
    · refine .inr ⟨same.symm, first.lt_of_ne ?_⟩
      rintro rfl
      exact absent member
  · have all : sample frame (some many) = frame.rows := by
      rw [sample, if_neg tooMany]
    rw [all]
    exact ⟨by omega, by omega, fun _ kept member gone there absent => absurd there absent⟩

end

end TransactionMonitoring.CoSpend
