import TransactionMonitoring.Mempool
import TransactionMonitoring.SetMaps

/-! The pending index with its buckets.

Besides the entry of every tracked transaction the index keeps, for each input reference, the
set of the transactions that spend it, and drops the reference with the last of them.  The
mempool monitor's own model needs only who is found under a reference.
-/
namespace TransactionMonitoring.PendingIndex
open Enrichment Mempool Runs SetMaps

/-- `PendingTxIndex`. -/
structure PendingTxIndex where
  entries : AList fun _ : String => PendingEntry
  refIndex : SetMap OutputRef String

namespace PendingTxIndex

def empty : PendingTxIndex := ⟨∅, .empty⟩

/-- The entry is overwritten; references of an earlier entry stay where they are. -/
def track (index : PendingTxIndex) (txId : String) (entry : PendingEntry) : PendingTxIndex where
  entries := index.entries.insert txId entry
  refIndex := index.refIndex.addAll entry.inputRefs txId

def untrack (index : PendingTxIndex) (txId : String) : PendingTxIndex :=
  match index.entries.lookup txId with
  | none => index
  | some entry => {
      entries := index.entries.erase txId
      refIndex := index.refIndex.discardAll entry.inputRefs txId }

def get (index : PendingTxIndex) (txId : String) : Option PendingEntry := index.entries.lookup txId

/-- The ids found under the references, each with those it is found under. -/
def sharing (index : PendingTxIndex) (refs : List OutputRef) : SetMap String OutputRef :=
  refs.foldl (fun out ref => out.addAll (index.refIndex.members ref) ref) .empty

/-- What the monitor's model sees of the index. -/
def view (index : PendingTxIndex) : Mempool.PendingTxIndex := ⟨index.entries, index.refIndex.members⟩

/-- The tracked transaction has the reference among its inputs. -/
def Spends (index : PendingTxIndex) (txId : String) (ref : OutputRef) : Prop :=
  ∃ entry, index.get txId = some entry ∧ ref ∈ entry.inputRefs

end PendingTxIndex

section
variable {index : PendingTxIndex} {txId other : String} {entry : PendingEntry} {ref : OutputRef}
  {refs : List OutputRef}

/-! ## The monitor's view -/

theorem view_track : (index.track txId entry).view = index.view.track txId entry := by
  simp only [PendingTxIndex.view, PendingTxIndex.track, Mempool.PendingTxIndex.track, Mempool.PendingTxIndex.mk.injEq,
    true_and]
  funext ref
  exact index.refIndex.members_addAll entry.inputRefs ref txId

theorem view_untrack : (index.untrack txId).view = index.view.untrack txId := by
  simp only [PendingTxIndex.untrack, Mempool.PendingTxIndex.untrack, PendingTxIndex.view]
  cases index.entries.lookup txId with
  | none => rfl
  | some entry =>
    simp only [Mempool.PendingTxIndex.mk.injEq, true_and]
    funext ref
    exact index.refIndex.members_discardAll entry.inputRefs ref txId

theorem mem_sharing :
    ref ∈ (index.sharing refs).members txId ↔ ref ∈ refs ∧ txId ∈ index.refIndex.members ref := by
  have gathered : ∀ out : SetMap String OutputRef,
      ref ∈ (refs.foldl (fun out ref => out.addAll (index.refIndex.members ref) ref) out).members txId ↔
        ref ∈ out.members txId ∨ (ref ∈ refs ∧ txId ∈ index.refIndex.members ref) := by
    induction refs with
    | nil => simp
    | cons first rest ih =>
      intro out
      rw [List.foldl_cons, ih, SetMap.mem_addAll, List.mem_cons]
      by_cases here : ref = first
      · subst here
        tauto
      · simp [here]
  rw [PendingTxIndex.sharing, gathered]
  simp

theorem view_sharing {shared : List OutputRef} :
    (txId, shared) ∈ index.view.sharing refs ↔
      txId ∈ (index.sharing refs).sets ∧ shared = refs.filter (· ∈ (index.sharing refs).members txId) := by
  simp only [Mempool.PendingTxIndex.sharing, PendingTxIndex.view, List.mem_map, List.mem_dedup,
    List.mem_flatMap, Prod.mk.injEq, SetMap.mem_sets_iff, mem_sharing]
  have same : (refs.filter fun ref => txId ∈ index.refIndex.members ref) =
      refs.filter (fun ref => ref ∈ refs ∧ txId ∈ index.refIndex.members ref) := by
    refine List.filter_congr fun ref member => ?_
    simp [member]
  rw [← same]
  constructor
  · rintro ⟨found, ⟨ref, member, under⟩, rfl, rfl⟩
    exact ⟨⟨ref, member, under⟩, rfl⟩
  · rintro ⟨⟨ref, member, under⟩, rfl⟩
    exact ⟨txId, ⟨ref, member, under⟩, rfl, rfl⟩

/-! ## The inverse -/

theorem spends_track : (index.track txId entry).Spends other ref ↔
    if other = txId then ref ∈ entry.inputRefs else index.Spends other ref := by
  unfold PendingTxIndex.Spends PendingTxIndex.get PendingTxIndex.track
  split
  · rename_i same
    subst same
    simp
  · rename_i apart
    rw [AList.lookup_insert_ne apart]

theorem spends_untrack : (index.untrack txId).Spends other ref ↔ other ≠ txId ∧ index.Spends other ref := by
  unfold PendingTxIndex.Spends PendingTxIndex.get PendingTxIndex.untrack
  by_cases same : other = txId
  · subst same
    cases found : index.entries.lookup other with
    | none => simp [found]
    | some entry => simp
  · cases found : index.entries.lookup txId with
    | none => simp [same]
    | some entry => simp [same, AList.lookup_erase_ne same]

/-- A reference is in the index with exactly the tracked transactions that spend it. -/
def Inverse (index : PendingTxIndex) : Prop :=
  ∀ ref txId, txId ∈ index.refIndex.members ref ↔ index.Spends txId ref

theorem inverse_empty : Inverse .empty := by
  intro ref txId
  refine iff_of_false (by simp [PendingTxIndex.empty]) ?_
  rintro ⟨entry, found, -⟩
  cases found

theorem inverse_untrack (inverse : Inverse index) : Inverse (index.untrack txId) := by
  intro ref other
  rw [spends_untrack, ← inverse ref other]
  have entryRefs : ∀ entry, index.entries.lookup txId = some entry →
      (txId ∈ index.refIndex.members ref ↔ ref ∈ entry.inputRefs) := by
    intro entry found
    rw [inverse ref txId, PendingTxIndex.Spends, PendingTxIndex.get, found]
    simp
  unfold PendingTxIndex.untrack
  cases found : index.entries.lookup txId with
  | none =>
    have untracked : txId ∉ index.refIndex.members ref := by
      rw [inverse ref txId]
      rintro ⟨entry, tracked, -⟩
      rw [PendingTxIndex.get, found] at tracked
      cases tracked
    constructor
    · intro under
      refine ⟨fun same => untracked ?_, under⟩
      rwa [same] at under
    · exact And.right
  | some entry =>
    rw [SetMap.mem_discardAll, ← entryRefs entry found]
    constructor
    · rintro ⟨under, kept⟩
      refine ⟨fun same => kept ?_, under⟩
      subst same
      exact ⟨under, rfl⟩
    · rintro ⟨apart, under⟩
      exact ⟨under, fun gone => apart gone.2⟩

/-- Tracking adds what the new entry spends and takes nothing away. -/
theorem inverse_track_iff (inverse : Inverse index) :
    Inverse (index.track txId entry) ↔
      ∀ old, index.get txId = some old → old.inputRefs ⊆ entry.inputRefs := by
  have under : ∀ ref other, other ∈ (index.track txId entry).refIndex.members ref ↔
      index.Spends other ref ∨ (ref ∈ entry.inputRefs ∧ other = txId) := by
    intro ref other
    rw [PendingTxIndex.track, SetMap.mem_addAll, inverse ref other]
  constructor
  · intro exact old found ref member
    have stays : txId ∈ (index.track txId entry).refIndex.members ref :=
      (under ref txId).mpr (Or.inl ⟨old, found, member⟩)
    rw [exact ref txId, spends_track, if_pos rfl] at stays
    exact stays
  · intro kept ref other
    rw [under, spends_track]
    split
    · rename_i same
      subst same
      constructor
      · rintro (⟨old, found, member⟩ | ⟨member, -⟩)
        · exact kept old found member
        · exact member
      · intro member
        exact Or.inr ⟨member, rfl⟩
    · rename_i apart
      simp [apart]

/-- The reference index is the inverse of the entries, without a set for a reference nobody
spends, and `sharing` finds the tracked transactions that spend a reference it is given. -/
structure Exact (index : PendingTxIndex) : Prop where
  inverse : Inverse index
  keys : ∀ ref, ref ∈ index.refIndex.sets ↔ ∃ txId, index.Spends txId ref
  shared : ∀ refs txId, txId ∈ (index.sharing refs).sets ↔ ∃ ref ∈ refs, index.Spends txId ref
  sharedRefs : ∀ refs txId ref,
    ref ∈ (index.sharing refs).members txId ↔ ref ∈ refs ∧ index.Spends txId ref

theorem exact_iff_inverse : Exact index ↔ Inverse index := by
  refine ⟨Exact.inverse, fun inverse => ⟨inverse, ?_, ?_, ?_⟩⟩
  · intro ref
    rw [SetMap.mem_sets_iff]
    exact exists_congr (inverse ref)
  · intro refs txId
    simp only [SetMap.mem_sets_iff, mem_sharing, inverse _ txId]
  · intro refs txId ref
    rw [mem_sharing, inverse ref txId]

end

/-! ## Runs of calls -/

inductive Call where
  | track (txId : String) (entry : PendingEntry)
  | untrack (txId : String)

def step (index : PendingTxIndex) : Call → Option PendingTxIndex
  | .track txId entry => some (index.track txId entry)
  | .untrack txId => some (index.untrack txId)

/-- A transaction that is tracked already is tracked again with all its references. -/
def KeepsRefs (index : PendingTxIndex) : Call → Prop
  | .track txId entry => ∀ old, index.get txId = some old → old.inputRefs ⊆ entry.inputRefs
  | .untrack _ => True

/-- The index is exact after every call exactly if no call takes a reference from a tracked
transaction. -/
theorem index_exact_iff (calls : List Call) :
    Exact .empty ∧
    (EveryStep step (fun index call => ∀ next, step index call = some next → Exact next) .empty calls ↔
      EveryStep step KeepsRefs .empty calls) := by
  have start : Exact .empty := exact_iff_inverse.mpr inverse_empty
  refine ⟨start, everyStep_iff step ?_ ?_ start⟩
  · intro index call
    cases call with
    | track txId entry => exact ⟨_, rfl⟩
    | untrack txId => exact ⟨_, rfl⟩
  · intro index call next held stepped
    rw [exact_iff_inverse] at held ⊢
    cases call with
    | track txId entry =>
      obtain rfl := Option.some.inj stepped
      exact inverse_track_iff held
    | untrack txId =>
      obtain rfl := Option.some.inj stepped
      exact iff_of_true (inverse_untrack held) trivial

private def spending (ref : OutputRef) : PendingEntry := ⟨[ref], 0, 1, "addr", 0⟩

/-- Tracked again with another input, a transaction is still found under the one it no longer
spends; when it is untracked, it is found there without an entry. -/
theorem retracked_ref_stays :
    let before := PendingTxIndex.empty.track "tx" (spending ⟨"a", 0⟩)
    let after := before.track "tx" (spending ⟨"b", 0⟩)
    ¬Exact after ∧ (after.get "tx").map PendingEntry.inputRefs = some [⟨"b", 0⟩] ∧
    (after.sharing [⟨"a", 0⟩]).members "tx" = [⟨"a", 0⟩] ∧
    ((after.untrack "tx").get "tx").isNone ∧
    ((after.untrack "tx").sharing [⟨"a", 0⟩]).members "tx" = [⟨"a", 0⟩] := by
  intro before after
  refine ⟨fun exact => ?_, by decide, by decide, by decide, by decide⟩
  obtain ⟨entry, found, member⟩ := (exact.inverse ⟨"a", 0⟩ "tx").mp (by decide)
  obtain rfl : spending ⟨"b", 0⟩ = entry := Option.some.inj found
  revert member
  decide

end TransactionMonitoring.PendingIndex
