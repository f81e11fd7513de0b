import Mathlib.Logic.Function.Basic
import TransactionMonitoring.Verdicts

/-! What a label reaches.

Two resolutions are compared: of label maps that differ in one transaction, and of a whole run
against one cluster's members alone, which is what the cluster page resolves.
-/
namespace TransactionMonitoring.Verdicts

/-- `dict.fromkeys`. -/
def fromKeys {β : Type} (keys : List String) (value : β) : List (String × β) :=
  dict (keys.map fun key => (key, value))

/-- A row of the cluster page. -/
structure ClusterTransaction where
  txHash : String
  verdict : Verdict
  label : Option Label
  votes : Nat
deriving DecidableEq, Repr

section
variable (clusterOf : List (String × Int)) (explicit : String → Option Label) (votes : String → Nat)
  (anomalyThreshold : Nat) (propagating : Option (String → Bool))

/-- The verdict of a transaction of the membership map. -/
def verdictOf (txHash : String) : Option Verdict :=
  get (computeVerdicts clusterOf explicit votes anomalyThreshold propagating).1 txHash

/-- `cluster_transactions_with_verdicts`, for the page's transactions. -/
def clusterTransactionsWithVerdicts (clusterId : Int) (rows : List String) : List ClusterTransaction :=
  let memberOf := fromKeys (members clusterOf clusterId) clusterId
  rows.map fun txHash =>
    ⟨txHash, (verdictOf memberOf explicit votes anomalyThreshold propagating txHash).getD .normal,
      explicit txHash, votes txHash⟩

/-- The label a transaction contributes to its cluster. -/
def propagatedLabel (txHash : String) : Option Label :=
  if propagates explicit propagating txHash then explicit txHash else none

end

section
variable {clusterOf other : List (String × Int)} {explicit changed : String → Option Label} {votes : String → Nat}
  {anomalyThreshold : Nat} {propagating : Option (String → Bool)} {txHash sibling : String} {clusterId : Int}

/-- The keys of a dict are distinct. -/
theorem dict_distinct {β : Type} (pairs : List (String × β)) : ((dict pairs).map Prod.fst).Nodup :=
  Replacing.keys_finalRows _ _ pairs

theorem mem_iff_get {β : Type} {pairs : List (String × β)} (distinct : (pairs.map Prod.fst).Nodup) {value : β} :
    (txHash, value) ∈ pairs ↔ get pairs txHash = some value := by
  rw [← Replacing.mem_finalRows_of_distinct Prod.fst (fun _ => 0) distinct, Replacing.mem_finalRows, get,
    Option.map_eq_some_iff]
  constructor
  · intro found
    exact ⟨(txHash, value), found, rfl⟩
  · rintro ⟨⟨key, found⟩, isFinal, rfl⟩
    obtain ⟨-, rfl⟩ := Replacing.final_mem _ _ isFinal
    exact isFinal

theorem mem_members_iff (distinct : (clusterOf.map Prod.fst).Nodup) :
    txHash ∈ members clusterOf clusterId ↔ get clusterOf txHash = some clusterId := by
  rw [← mem_iff_get distinct]
  simp [members]

/-- A verdict is resolved from the transaction's cluster. -/
theorem verdictOf_eq (clusterOf : List (String × Int)) (explicit : String → Option Label) (txHash : String) :
    verdictOf clusterOf explicit votes anomalyThreshold propagating txHash =
      (get clusterOf txHash).map (memberVerdict clusterOf explicit votes anomalyThreshold propagating txHash) := by
  unfold verdictOf computeVerdicts get
  rw [Replacing.final_map, Option.map_map, Option.map_map]
  cases found : Replacing.final Prod.fst (fun _ => 0) clusterOf txHash with
  | none => rfl
  | some entry =>
    obtain ⟨-, rfl⟩ := Replacing.final_mem _ _ found
    rfl

theorem dominantVerdict_congr {applied others : List Label} (same : ∀ label, label ∈ applied ↔ label ∈ others) :
    dominantVerdict applied = dominantVerdict others := by
  simp only [dominantVerdict, same]

/-- What a cluster hands on depends on its members and on the labels they contribute. -/
theorem inherited_congr
    (sameMembers : ∀ member, member ∈ members clusterOf clusterId ↔ member ∈ members other clusterId)
    (sameLabels : ∀ member ∈ members clusterOf clusterId,
      propagatedLabel explicit propagating member = propagatedLabel changed propagating member) :
    inherited clusterOf explicit propagating clusterId = inherited other changed propagating clusterId := by
  unfold inherited
  split
  · rfl
  · apply dominantVerdict_congr
    intro label
    simp only [List.mem_filterMap]
    constructor
    · rintro ⟨member, inCluster, contributed⟩
      exact ⟨member, (sameMembers member).mp inCluster, (sameLabels member inCluster).symm.trans contributed⟩
    · rintro ⟨member, inOther, contributed⟩
      have inCluster := (sameMembers member).mpr inOther
      exact ⟨member, inCluster, (sameLabels member inCluster).trans contributed⟩

/-- A member's verdict depends on its own label, on its votes and on what its cluster hands on. -/
theorem memberVerdict_congr (sameLabel : explicit txHash = changed txHash)
    (sameInherited : inherited clusterOf explicit propagating clusterId =
      inherited other changed propagating clusterId) :
    memberVerdict clusterOf explicit votes anomalyThreshold propagating txHash clusterId =
      memberVerdict other changed votes anomalyThreshold propagating txHash clusterId := by
  unfold memberVerdict
  rw [sameLabel, sameInherited]

theorem propagatedLabel_update_of_ne (label : Option Label) (different : sibling ≠ txHash) :
    propagatedLabel (Function.update explicit txHash label) propagating sibling =
      propagatedLabel explicit propagating sibling := by
  have own : Function.update explicit txHash label sibling = explicit sibling := Function.update_of_ne different _ _
  unfold propagatedLabel propagates
  rw [own]

/-- A label that does not propagate, before or after, leaves what every cluster hands on. -/
theorem inherited_update_of_not_propagating (label : Option Label)
    (before : propagates explicit propagating txHash = false)
    (after : propagates (Function.update explicit txHash label) propagating txHash = false) :
    inherited clusterOf (Function.update explicit txHash label) propagating clusterId =
      inherited clusterOf explicit propagating clusterId := by
  apply inherited_congr (fun _ => Iff.rfl)
  intro member _
  by_cases same : member = txHash
  · subst same
    simp [propagatedLabel, before, after]
  · exact propagatedLabel_update_of_ne label same

/-- A label outside the cluster leaves what the cluster hands on. -/
theorem inherited_update_of_not_member (label : Option Label) (outside : txHash ∉ members clusterOf clusterId) :
    inherited clusterOf (Function.update explicit txHash label) propagating clusterId =
      inherited clusterOf explicit propagating clusterId := by
  apply inherited_congr (fun _ => Iff.rfl)
  intro member inCluster
  apply propagatedLabel_update_of_ne
  rintro rfl
  exact outside inCluster

theorem inherited_noise : inherited clusterOf explicit propagating (-1) = none := if_pos rfl

/-- A label that does not propagate, before or after, changes no other verdict. -/
theorem verdictOf_update_of_not_propagating (label : Option Label)
    (before : propagates explicit propagating txHash = false)
    (after : propagates (Function.update explicit txHash label) propagating txHash = false)
    (different : sibling ≠ txHash) :
    verdictOf clusterOf (Function.update explicit txHash label) votes anomalyThreshold propagating sibling =
      verdictOf clusterOf explicit votes anomalyThreshold propagating sibling := by
  rw [verdictOf_eq, verdictOf_eq]
  congr 1
  funext clusterId
  exact memberVerdict_congr (Function.update_of_ne different _ _)
    (inherited_update_of_not_propagating label before after)

/-- Where a label changes another verdict, both transactions are of one cluster, and not of the
noise. -/
theorem shared_cluster_of_changed (distinct : (clusterOf.map Prod.fst).Nodup) (label : Option Label)
    (different : sibling ≠ txHash)
    (differs : verdictOf clusterOf (Function.update explicit txHash label) votes anomalyThreshold propagating sibling ≠
      verdictOf clusterOf explicit votes anomalyThreshold propagating sibling) :
    ∃ clusterId, get clusterOf txHash = some clusterId ∧ get clusterOf sibling = some clusterId ∧ clusterId ≠ -1 := by
  rw [verdictOf_eq, verdictOf_eq] at differs
  cases found : get clusterOf sibling with
  | none => simp [found] at differs
  | some clusterId =>
    have inherits : inherited clusterOf (Function.update explicit txHash label) propagating clusterId ≠
        inherited clusterOf explicit propagating clusterId := by
      intro same
      apply differs
      rw [found, Option.map_some, Option.map_some, memberVerdict_congr (Function.update_of_ne different _ _) same]
    refine ⟨clusterId, ?_, rfl, ?_⟩
    · apply (mem_members_iff distinct).mp
      by_contra outside
      exact inherits (inherited_update_of_not_member label outside)
    · rintro rfl
      exact inherits (inherited_noise.trans inherited_noise.symm)

theorem mem_fromKeys {β : Type} {keys : List String} {value found : β} :
    (txHash, found) ∈ fromKeys keys value ↔ txHash ∈ keys ∧ found = value := by
  unfold fromKeys dict
  rw [Replacing.mem_finalRows]
  constructor
  · intro isFinal
    obtain ⟨key, member, shape⟩ := List.mem_map.mp (Replacing.final_mem _ _ isFinal).1
    obtain ⟨rfl, rfl⟩ := Prod.mk.inj shape
    exact ⟨member, rfl⟩
  · rintro ⟨member, rfl⟩
    have listed : (txHash, found) ∈ keys.map fun key => (key, found) := List.mem_map_of_mem member
    obtain ⟨won, isFinal, -⟩ := Replacing.le_final Prod.fst (fun _ => 0) listed
    obtain ⟨wonListed, keyed⟩ := Replacing.final_mem _ _ isFinal
    obtain ⟨key, -, rfl⟩ := List.mem_map.mp wonListed
    obtain rfl : key = txHash := keyed
    exact isFinal

/-- The members of one cluster alone hand on what they hand on in the run. -/
theorem inherited_fromKeys (clusterOf : List (String × Int)) (explicit : String → Option Label) (clusterId : Int) :
    inherited (fromKeys (members clusterOf clusterId) clusterId) explicit propagating clusterId =
      inherited clusterOf explicit propagating clusterId := by
  apply inherited_congr
  · intro member
    have distinct : ((fromKeys (members clusterOf clusterId) clusterId).map Prod.fst).Nodup := dict_distinct _
    rw [mem_members_iff distinct, ← mem_iff_get distinct, mem_fromKeys]
    exact and_iff_left rfl
  · intro member _
    rfl

theorem verdictOf_fromKeys (inCluster : txHash ∈ members clusterOf clusterId) :
    verdictOf (fromKeys (members clusterOf clusterId) clusterId) explicit votes anomalyThreshold propagating txHash =
      some (memberVerdict clusterOf explicit votes anomalyThreshold propagating txHash clusterId) := by
  have distinct : ((fromKeys (members clusterOf clusterId) clusterId).map Prod.fst).Nodup := dict_distinct _
  have found := (mem_iff_get distinct).mp (mem_fromKeys.mpr ⟨inCluster, rfl⟩)
  rw [verdictOf_eq, found, Option.map_some, memberVerdict_congr rfl (inherited_fromKeys clusterOf explicit clusterId)]

end

/-- **Verdict resolution is local.**  For every membership map, label map, vote map and
propagating set: changing a label that does not propagate, before or after, changes no other
transaction's verdict; changing any label changes other verdicts only inside its transaction's own
cluster, and only if that is not the noise; a noise transaction has its own label or what its votes
say; and one cluster's members have alone the verdicts they have in the run, on the cluster page
too. -/
theorem verdict_resolution_local (pairs : List (String × Int)) (explicit : String → Option Label)
    (votes : String → Nat) (anomalyThreshold : Nat) (propagating : Option (String → Bool)) :
    let clusterOf := dict pairs
    let verdict := fun labels => verdictOf clusterOf labels votes anomalyThreshold propagating
    (∀ txHash label, propagates explicit propagating txHash = false →
        propagates (Function.update explicit txHash label) propagating txHash = false →
        ∀ sibling, sibling ≠ txHash →
          verdict (Function.update explicit txHash label) sibling = verdict explicit sibling) ∧
      (∀ txHash label sibling, sibling ≠ txHash →
        verdict (Function.update explicit txHash label) sibling ≠ verdict explicit sibling →
        ∃ clusterId, get clusterOf txHash = some clusterId ∧ get clusterOf sibling = some clusterId ∧
          clusterId ≠ -1) ∧
      (∀ txHash, get clusterOf txHash = some (-1) →
        verdict explicit txHash = some (match explicit txHash with
          | some label => label.verdict
          | none => if anomalyThreshold ≤ votes txHash then .anomaly else .normal)) ∧
      (∀ txHash clusterId, get clusterOf txHash = some clusterId →
        verdictOf (fromKeys (members clusterOf clusterId) clusterId) explicit votes anomalyThreshold propagating
            txHash = verdict explicit txHash ∧
          ∀ rows, ∀ row ∈ clusterTransactionsWithVerdicts clusterOf explicit votes anomalyThreshold propagating
              clusterId rows, row.txHash = txHash → some row.verdict = verdict explicit txHash) := by
  intro clusterOf verdict
  have distinct : (clusterOf.map Prod.fst).Nodup := dict_distinct pairs
  refine ⟨?_, ?_, ?_, ?_⟩
  · intro txHash label before after sibling different
    exact verdictOf_update_of_not_propagating label before after different
  · intro txHash label sibling different differs
    exact shared_cluster_of_changed distinct label different differs
  · intro txHash noise
    cases own : explicit txHash with
    | none => simp [verdict, verdictOf_eq, noise, memberVerdict, own, inherited_noise]
    | some label => simp [verdict, verdictOf_eq, noise, memberVerdict, own]
  · intro txHash clusterId found
    have inCluster := (mem_members_iff distinct).mpr found
    have alone : verdictOf (fromKeys (members clusterOf clusterId) clusterId) explicit votes anomalyThreshold
        propagating txHash =
          some (memberVerdict clusterOf explicit votes anomalyThreshold propagating txHash clusterId) :=
      verdictOf_fromKeys inCluster
    have whole : verdict explicit txHash =
        some (memberVerdict clusterOf explicit votes anomalyThreshold propagating txHash clusterId) := by
      simp only [verdict, verdictOf_eq, found, Option.map_some]
    refine ⟨alone.trans whole.symm, ?_⟩
    rintro rows row member rfl
    obtain ⟨hash, -, rfl⟩ := List.mem_map.mp member
    rw [whole, alone, Option.getD_some]

end TransactionMonitoring.Verdicts
