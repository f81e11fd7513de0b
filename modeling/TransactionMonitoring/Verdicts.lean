import Mathlib.Data.List.Dedup
import TransactionMonitoring.Replacing

/-! The clustering sidecar's verdict resolution.

`compute_verdicts` is the one precedence every read uses: a transaction's own label,
else the label applied to its cluster, else the detectors' votes.  A Python dict built
from rows keeps the last value of each key, which is a `FINAL` read of the pairs at one
version.
-/
namespace TransactionMonitoring.Verdicts

/-- The effective verdicts of a transaction. -/
inductive Verdict where
  | malicious
  | benign
  | anomaly
  | normal
deriving DecidableEq, Repr

/-- The verdicts a user may apply (`CLUSTER_VERDICTS`). -/
inductive Label where
  | malicious
  | benign
deriving DecidableEq, Repr

def Label.verdict : Label → Verdict
  | .malicious => .malicious
  | .benign => .benign

/-- `_PUBLISHED`: the verdicts that make up the contract-anomaly surface. -/
def Verdict.flagged : Verdict → Bool
  | .malicious | .anomaly => true
  | .benign | .normal => false

/-- A dict built from key and value pairs, in their order. -/
def dict {β : Type} (pairs : List (String × β)) : List (String × β) :=
  Replacing.finalRows Prod.fst (fun _ => 0) pairs

/-- `dict.get`. -/
def get {β : Type} (pairs : List (String × β)) (txHash : String) : Option β :=
  (Replacing.final Prod.fst (fun _ => 0) pairs txHash).map Prod.snd

/-- `_dominant_verdict`: malicious wins on conflict. -/
def dominantVerdict (applied : List Label) : Option Label :=
  if .malicious ∈ applied then some .malicious
  else if .benign ∈ applied then some .benign
  else none

/-- What `compute_verdicts` reports per cluster. -/
structure ClusterInfo where
  verdict : Option Label
  conflict : Bool
  labeledCount : Nat
  anomalyCount : Nat
deriving DecidableEq, Repr

section
variable (clusterOf : List (String × Int)) (explicit : String → Option Label) (votes : String → Nat)
  (anomalyThreshold : Nat) (propagating : Option (String → Bool))

/-- The labels that set a cluster's verdict; `None` lets every label propagate. -/
def propagates (txHash : String) : Bool :=
  match propagating with
  | none => (explicit txHash).isSome
  | some applied => applied txHash

def members (clusterId : Int) : List String :=
  (clusterOf.filter fun entry => entry.2 = clusterId).map Prod.fst

/-- The label a cluster hands to its members; the noise bucket hands on none. -/
def inherited (clusterId : Int) : Option Label :=
  if clusterId = -1 then none
  else dominantVerdict ((members clusterOf clusterId).filterMap fun txHash =>
    if propagates explicit propagating txHash then explicit txHash else none)

def clusterInfo (clusterId : Int) : ClusterInfo :=
  let labeled := (members clusterOf clusterId).filterMap explicit
  { verdict := inherited clusterOf explicit propagating clusterId
    conflict := decide (Label.malicious ∈ labeled) && decide (Label.benign ∈ labeled)
    labeledCount := labeled.length
    anomalyCount := (members clusterOf clusterId).countP fun txHash => anomalyThreshold ≤ votes txHash }

/-- The verdict of one member: own label, cluster label, votes. -/
def memberVerdict (txHash : String) (clusterId : Int) : Verdict :=
  match explicit txHash with
  | some label => label.verdict
  | none => match inherited clusterOf explicit propagating clusterId with
    | some label => label.verdict
    | none => if anomalyThreshold ≤ votes txHash then .anomaly else .normal

/-- `compute_verdicts`. -/
def computeVerdicts : List (String × Verdict) × List (Int × ClusterInfo) :=
  (clusterOf.map fun entry => (entry.1,
      memberVerdict clusterOf explicit votes anomalyThreshold propagating entry.1 entry.2),
    (clusterOf.map Prod.snd).dedup.map fun clusterId =>
      (clusterId, clusterInfo clusterOf explicit votes anomalyThreshold propagating clusterId))

variable {clusterOf explicit votes anomalyThreshold propagating}

/-- A label of its own decides a member's verdict. -/
theorem memberVerdict_of_label {txHash : String} {label : Label} (own : explicit txHash = some label)
    (clusterId : Int) :
    memberVerdict clusterOf explicit votes anomalyThreshold propagating txHash clusterId =
      label.verdict := by
  simp [memberVerdict, own]

/-- Every resolved verdict of a labeled transaction is its label. -/
theorem computeVerdicts_of_label {txHash : String} {label : Label} {verdict : Verdict}
    (own : explicit txHash = some label)
    (resolved : (txHash, verdict) ∈
      (computeVerdicts clusterOf explicit votes anomalyThreshold propagating).1) :
    verdict = label.verdict := by
  obtain ⟨⟨member, clusterId⟩, _, shape⟩ := List.mem_map.mp resolved
  obtain ⟨rfl, rfl⟩ := Prod.mk.inj shape
  exact memberVerdict_of_label own clusterId

end

end TransactionMonitoring.Verdicts
