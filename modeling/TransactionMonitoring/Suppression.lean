import TransactionMonitoring.Archive
import TransactionMonitoring.Runs

/-! The suppression of alerts, accounted for.

An archived alert is hidden, so every change of the archive is announced in the audit log first, and
refused where it cannot be.  The requests of any number of processes interleave, either database may
fail, with or without having done what it was asked to, and a process may die anywhere.

`AUDIT_LOG_RETENTION_DAYS` is zero, its default: no row of the log is pruned.  Of what a row holds the
address of the client is left out.
-/
namespace TransactionMonitoring.Suppression
open Archive Runs

/-- A request that changes the archive. -/
inductive Mutation where
  | archive (entry : ArchiveEntry)
  | bulk (entries : List ArchiveBulkEntry) (sourceLabel : String)
  | restore (network : Network) (txHash : String)
deriving DecidableEq, Repr

/-- What the three endpoints put into `details`, beside the phase and the actor. -/
inductive Details where
  | archive (archivedBy note : String)
  | bulk (entries : Nat) (sourceLabel : String)
  | restore
deriving DecidableEq, Repr

/-- What is announced. -/
structure Intent where
  action : String
  entityType : String
  entityId : String
  details : Details
  actor : String
deriving DecidableEq, Repr

def entityId (network : Network) (txHash : String) : String := network.text ++ ":" ++ txHash

def Mutation.intent (actor : String) : Mutation → Intent
  | .archive entry =>
      ⟨"archive", "transaction", entityId entry.network entry.txHash, .archive entry.archivedBy entry.note, actor⟩
  | .bulk entries sourceLabel =>
      ⟨"bulk_archive", "archive_batch", if sourceLabel = "" then "bulk" else sourceLabel,
        .bulk entries.length sourceLabel, actor⟩
  | .restore network txHash => ⟨"restore", "transaction", entityId network txHash, .restore, actor⟩

inductive Phase where
  | intent
  | failed
  | applied
deriving DecidableEq, Repr

/-- What `append_outcome` merges in. -/
structure Outcome where
  phase : Phase
  inserted : Option Nat := none
  skipped : Option Nat := none
  deleted : Option Nat := none
deriving DecidableEq, Repr

/-- A row of `audit_logs`. -/
structure AuditRow where
  id : Nat
  intent : Intent
  outcome : Outcome
deriving DecidableEq, Repr

/-- `actor_from_principal`, given the digest. -/
def actorFromPrincipal (sha256 : String → String) (principal : String) : String :=
  if principal = "" then "unknown"
  else if principal = "dev-mode" ∨ "session:".toList <+: principal.toList then principal
  else "api-key:" ++ String.ofList ((sha256 principal).toList.take 12)

/-- Where a request stands; behind the announcement it knows the row it wrote. -/
inductive Progress where
  | checking
  | recording
  /-- The archive is read before it is written, -/
  | reading (audit : Nat)
  /-- as it was then. -/
  | writing (audit : Nat) (seen : List ArchiveRow)
  | appending (audit : Nat) (outcome : Outcome)
  | done
deriving DecidableEq, Repr

structure Request where
  mutation : Mutation
  principal : String
  progress : Progress
deriving DecidableEq, Repr

/-- A change of the archive that was carried out, by whom, and under which row of the log. -/
structure Change where
  mutation : Mutation
  principal : String
  audit : Nat
deriving DecidableEq, Repr

structure State (ι : Type) where
  /-- `archived_alerts`. -/
  table : List ArchiveRow := []
  log : List AuditRow := []
  requests : ι → Option Request := fun _ => none
  /-- Bookkeeping: the changes that were carried out, and the rows that are gone. -/
  changes : List Change := []
  removed : List ArchiveRow := []

inductive Event (ι : Type) where
  | arrives (request : ι) (mutation : Mutation) (principal : String)
  | checks (request : ι)
  | checkFails (request : ι)
  | records (request : ι)
  /-- The announcement is lost, or only its answer. -/
  | recordFails (request : ι) (written : Bool)
  | reads (request : ι)
  | readFails (request : ι)
  | writes (request : ι) (now : Datetime)
  | writeFails (request : ι) (now : Datetime) (written : Bool)
  | appends (request : ι) (written : Bool)
  | dies (request : ι)

def localRow (now : Datetime) (entry : ArchiveEntry) : ArchiveRow := { entry with archivedAt := now, source := "local" }

/-- Whether `archive_exists` finds an entry. -/
def present (table : List ArchiveRow) (network : Network) (txHash : String) : Bool :=
  (shown table).any fun row => row.key = (network, txHash)

/-- The archive after the write that follows on a read, what is reported, and whether anything was written. -/
def apply (now : Datetime) (seen table : List ArchiveRow) : Mutation → List ArchiveRow × Outcome × Bool
  | .archive entry => (table ++ [localRow now entry], { phase := .applied }, true)
  | .bulk entries sourceLabel =>
      let pairs := entries.map fun entry => entry.key
      let existing := ((shown seen).map fun row => row.key).filter fun key => pairs.any (· = key)
      let loop := bulkLoop now sourceLabel existing [] entries
      (table ++ loop.1, { phase := .applied, inserted := some loop.1.length, skipped := some loop.2 }, true)
  | .restore network txHash =>
      let existing := (shown seen).countP fun row => row.key = (network, txHash)
      if existing = 0 then (table, { phase := .failed, deleted := some 0 }, false)
      else (table.filter fun row => row.key ≠ (network, txHash), { phase := .applied, deleted := some existing }, true)

section
variable {ι : Type} [DecidableEq ι] (sha256 : String → String)

def State.set (state : State ι) (name : ι) (request : Request) : State ι :=
  { state with requests := Function.update state.requests name (some request) }

def Request.intent (request : Request) : Intent := request.mutation.intent (actorFromPrincipal sha256 request.principal)

/-- `insert_audit_log`, which numbers the rows. -/
def announce (request : Request) (state : State ι) : State ι :=
  { state with log := state.log ++ [⟨state.log.length, request.intent sha256, { phase := .intent }⟩] }

/-- `update_audit_log_details`. -/
def merge (audit : Nat) (outcome : Outcome) (state : State ι) : State ι :=
  { state with log := state.log.map fun row => if row.id = audit then { row with outcome } else row }

/-- The write. -/
def change (now : Datetime) (seen : List ArchiveRow) (audit : Nat) (request : Request) (state : State ι) : State ι :=
  let (table, _, written) := apply now seen state.table request.mutation
  { state with
    table
    changes := if written then state.changes ++ [⟨request.mutation, request.principal, audit⟩] else state.changes
    removed := state.removed ++ state.table.filter (· ∉ table) }

def step (state : State ι) : Event ι → Option (State ι)
  | .arrives name mutation principal =>
      if state.requests name = none then
        some (state.set name ⟨mutation, principal, match mutation with
          -- A batch is announced unchecked.
          | .bulk _ _ => .recording
          | .archive _ | .restore _ _ => .checking⟩)
      else none
  | .checks name => do
      let request ← state.requests name
      match request.progress, request.mutation with
      | .checking, .archive entry =>
          let progress := if present state.table entry.network entry.txHash then .done else .recording
          some (state.set name { request with progress })
      | .checking, .restore network txHash =>
          let progress := if present state.table network txHash then .recording else .done
          some (state.set name { request with progress })
      | _, _ => none
  | .checkFails name => do
      let request ← state.requests name
      match request.progress with
      | .checking => some (state.set name { request with progress := .done })
      | _ => none
  | .records name => do
      let request ← state.requests name
      match request.progress with
      | .recording =>
          some ((announce sha256 request state).set name { request with progress := .reading state.log.length })
      | _ => none
  | .recordFails name written => do
      let request ← state.requests name
      match request.progress with
      -- `AuditUnavailableError`: the request is refused.
      | .recording => some ((if written then announce sha256 request state else state).set name
          { request with progress := .done })
      | _ => none
  | .reads name => do
      let request ← state.requests name
      match request.progress with
      | .reading audit => some (state.set name { request with progress := .writing audit state.table })
      | _ => none
  | .readFails name => do
      let request ← state.requests name
      match request.progress with
      | .reading audit => some (state.set name { request with progress := .appending audit { phase := .failed } })
      | _ => none
  | .writes name now => do
      let request ← state.requests name
      match request.progress with
      | .writing audit seen => some ((change now seen audit request state).set name
          { request with progress := .appending audit (apply now seen state.table request.mutation).2.1 })
      | _ => none
  | .writeFails name now written => do
      let request ← state.requests name
      match request.progress with
      | .writing audit seen => some ((if written then change now seen audit request state else state).set name
          { request with progress := .appending audit { phase := .failed } })
      | _ => none
  | .appends name written => do
      let request ← state.requests name
      match request.progress with
      | .appending audit outcome => some ((if written then merge audit outcome state else state).set name
          { request with progress := .done })
      | _ => none
  | .dies name => some { state with requests := Function.update state.requests name none }

end

/-! What the log accounts for. -/

/-- The row of the log that a request has written. -/
def Progress.audit : Progress → Option Nat
  | .reading audit | .writing audit _ | .appending audit _ => some audit
  | .checking | .recording | .done => none

/-- The request may still change the archive. -/
def Progress.Pending : Progress → Prop
  | .reading _ | .writing _ _ => True
  | .checking | .recording | .appending _ _ | .done => False

/-- What a change puts into the archive. -/
def Mutation.Inserts (row : ArchiveRow) : Mutation → Prop
  | .archive entry => row.toArchiveEntry = entry ∧ row.source = "local"
  | .bulk entries sourceLabel =>
      (∃ entry ∈ entries, row.toArchiveEntry = entry.toArchiveEntry) ∧ row.source = "import:" ++ sourceLabel
  | .restore _ _ => False

/-- Every change has a row of the log of its own, written before, that names it and whoever asked for it; the log
says of no other change that it was applied; and the archive is what the changes made of it. -/
structure Accounted (sha256 : String → String) (log : List AuditRow) (changes : List Change)
    (table removed : List ArchiveRow) : Prop where
  numbered : log.map AuditRow.id = List.range log.length
  own : (changes.map Change.audit).Nodup
  announced : ∀ change ∈ changes, ∃ row ∈ log,
    row.id = change.audit ∧ row.intent = change.mutation.intent (actorFromPrincipal sha256 change.principal)
  applied : ∀ row ∈ log, row.outcome.phase = .applied → ∃ change ∈ changes, change.audit = row.id
  hidden : ∀ row ∈ table, ∃ change ∈ changes, change.mutation.Inserts row
  restored : ∀ row ∈ removed, ∃ change ∈ changes, change.mutation = .restore row.network row.txHash

/-- What the requests keep beside it. -/
structure Sound {ι : Type} (sha256 : String → String) (state : State ι) : Prop where
  accounted : Accounted sha256 state.log state.changes state.table state.removed
  wrote : ∀ name request, state.requests name = some request → ∀ audit ∈ request.progress.audit,
    ∃ row ∈ state.log, row.id = audit ∧ row.intent = request.intent sha256
  apart : ∀ name request other next, state.requests name = some request → state.requests other = some next →
    name ≠ other → ∀ audit ∈ request.progress.audit, audit ∉ next.progress.audit
  pending : ∀ name request, state.requests name = some request → request.progress.Pending →
    ∀ audit ∈ request.progress.audit, ∀ change ∈ state.changes, change.audit ≠ audit
  reported : ∀ name request audit outcome, state.requests name = some request →
    request.progress = .appending audit outcome → outcome.phase = .applied →
    ∃ change ∈ state.changes, change.audit = audit

section
variable {sha256 : String → String} {now : Datetime} {seen table : List ArchiveRow} {mutation : Mutation}

/-- A write inserts what it announces, takes away what it restores, and reports only what it did. -/
theorem apply_spec (now : Datetime) (seen table : List ArchiveRow) (mutation : Mutation) :
    (∀ row ∈ (apply now seen table mutation).1, row ∈ table ∨
      mutation.Inserts row ∧ (apply now seen table mutation).2.2 = true) ∧
    (∀ row ∈ table, row ∉ (apply now seen table mutation).1 →
      mutation = .restore row.network row.txHash ∧ (apply now seen table mutation).2.2 = true) ∧
    ((apply now seen table mutation).2.1.phase = .applied → (apply now seen table mutation).2.2 = true) := by
  cases mutation with
  | archive entry =>
    refine ⟨fun row member => ?_, fun row member gone => ?_, fun _ => rfl⟩
    · obtain old | new := List.mem_append.mp member
      · exact .inl old
      · rw [List.mem_singleton.mp new]
        exact .inr ⟨⟨rfl, rfl⟩, rfl⟩
    · exact absurd (List.mem_append_left _ member) gone
  | bulk entries sourceLabel =>
    refine ⟨fun row member => ?_, fun row member gone => ?_, fun _ => rfl⟩
    · obtain old | new := List.mem_append.mp member
      · exact .inl old
      · obtain ⟨entry, among, rfl⟩ := mem_bulkLoop new
        exact .inr ⟨⟨⟨entry, among, rfl⟩, rfl⟩, rfl⟩
    · exact absurd (List.mem_append_left _ member) gone
  | restore network txHash =>
    rw [apply]
    split
    · exact ⟨fun row member => .inl member, fun row member gone => absurd member gone, fun failed => by cases failed⟩
    · refine ⟨fun row member => .inl (List.mem_filter.mp member).1, fun row member gone => ⟨?_, rfl⟩, fun _ => rfl⟩
      by_contra different
      refine gone (List.mem_filter.mpr ⟨member, decide_eq_true fun same => different ?_⟩)
      obtain ⟨rfl, rfl⟩ := Prod.mk.inj (same : (row.network, row.txHash) = (network, txHash))
      rfl

end

section
variable {ι : Type} [DecidableEq ι] {sha256 : String → String} {state : State ι} {name : ι} {request : Request}

theorem set_requests_self : (state.set name request).requests name = some request := Function.update_self ..

theorem set_requests_of_ne {other : ι} (different : other ≠ name) :
    (state.set name request).requests other = state.requests other := Function.update_of_ne different ..

omit [DecidableEq ι] in
theorem Sound.initial : Sound sha256 ({} : State ι) where
  accounted := ⟨rfl, .nil, List.forall_mem_nil _, List.forall_mem_nil _, List.forall_mem_nil _, List.forall_mem_nil _⟩
  wrote := by
    intro name request none
    cases none
  apart := by
    intro name request other next none
    cases none
  pending := by
    intro name request none
    cases none
  reported := by
    intro name request audit outcome none
    cases none

/-- A request in the place of another, or a new one. -/
theorem Sound.set (sound : Sound sha256 state)
    (wrote : ∀ audit ∈ request.progress.audit, ∃ row ∈ state.log, row.id = audit ∧ row.intent = request.intent sha256)
    (alone : ∀ other next, state.requests other = some next → other ≠ name → ∀ audit ∈ request.progress.audit,
      audit ∉ next.progress.audit)
    (pending : request.progress.Pending → ∀ audit ∈ request.progress.audit, ∀ change ∈ state.changes,
      change.audit ≠ audit)
    (reported : ∀ audit outcome, request.progress = .appending audit outcome → outcome.phase = .applied →
      ∃ change ∈ state.changes, change.audit = audit) : Sound sha256 (state.set name request) := by
  refine ⟨sound.accounted, fun one next there => ?_, fun one next other last there thereToo different => ?_,
    fun one next there => ?_, fun one next audit outcome there => ?_⟩
  · by_cases own : one = name
    · subst own
      cases set_requests_self.symm.trans there
      exact wrote
    · rw [set_requests_of_ne own] at there
      exact sound.wrote one next there
  · by_cases own : one = name
    · subst own
      cases set_requests_self.symm.trans there
      rw [set_requests_of_ne different.symm] at thereToo
      exact alone other last thereToo different.symm
    · rw [set_requests_of_ne own] at there
      by_cases ownToo : other = name
      · subst ownToo
        cases set_requests_self.symm.trans thereToo
        intro audit mine theirs
        exact alone one next there own audit theirs mine
      · rw [set_requests_of_ne ownToo] at thereToo
        exact sound.apart one next other last there thereToo different
  · by_cases own : one = name
    · subst own
      cases set_requests_self.symm.trans there
      exact pending
    · rw [set_requests_of_ne own] at there
      exact sound.pending one next there
  · by_cases own : one = name
    · subst own
      cases set_requests_self.symm.trans there
      exact reported audit outcome
    · rw [set_requests_of_ne own] at there
      exact sound.reported one next audit outcome there

/-- A request that goes on under the row it has, or under none. -/
theorem Sound.progress (sound : Sound sha256 state) (found : state.requests name = some request) (progress : Progress)
    (same : ∀ audit ∈ progress.audit, audit ∈ request.progress.audit)
    (pending : progress.Pending → request.progress.Pending)
    (reported : ∀ audit outcome, progress = .appending audit outcome → outcome.phase = .applied →
      ∃ change ∈ state.changes, change.audit = audit) : Sound sha256 (state.set name { request with progress }) := by
  refine sound.set (fun audit mine => sound.wrote name request found audit (same audit mine))
    (fun other next there different audit mine => ?_) (fun open_ audit mine => ?_) reported
  · exact sound.apart name request other next found there different.symm audit (same audit mine)
  · exact sound.pending name request found (pending open_) audit (same audit mine)

/-- The rows are numbered in order. -/
theorem Accounted.id_lt {log : List AuditRow} {changes : List Change} {table removed : List ArchiveRow}
    (accounted : Accounted sha256 log changes table removed) {row : AuditRow} (member : row ∈ log) :
    row.id < log.length := by
  have among : row.id ∈ log.map AuditRow.id := List.mem_map_of_mem member
  rw [accounted.numbered] at among
  exact List.mem_range.mp among

omit [DecidableEq ι] in
/-- One more row. -/
theorem Sound.announce (sound : Sound sha256 state) (request : Request) :
    Sound sha256 (announce sha256 request state) := by
  have grows : ∀ {row : AuditRow}, row ∈ state.log → row ∈ (Suppression.announce sha256 request state).log :=
    fun member => List.mem_append_left _ member
  refine ⟨⟨?_, sound.accounted.own, fun change member => ?_, fun row member applied => ?_, sound.accounted.hidden,
    sound.accounted.restored⟩, fun one next there audit mine => ?_, sound.apart, sound.pending, sound.reported⟩
  · rw [Suppression.announce]
    dsimp only
    rw [List.map_append, sound.accounted.numbered, List.length_append, List.length_singleton, List.range_succ]
    rfl
  · obtain ⟨row, old, facts⟩ := sound.accounted.announced change member
    exact ⟨row, grows old, facts⟩
  · obtain old | new := List.mem_append.mp member
    · exact sound.accounted.applied row old applied
    · rw [List.mem_singleton.mp new] at applied
      cases applied
  · obtain ⟨row, old, facts⟩ := sound.wrote one next there audit mine
    exact ⟨row, grows old, facts⟩

omit [DecidableEq ι] in
/-- An outcome that is reported is true. -/
theorem Sound.merge (sound : Sound sha256 state) {audit : Nat} {outcome : Outcome}
    (true_ : outcome.phase = .applied → ∃ change ∈ state.changes, change.audit = audit) :
    Sound sha256 (merge audit outcome state) := by
  have same : ∀ {row : AuditRow}, row ∈ state.log → ∃ after ∈ (Suppression.merge audit outcome state).log,
      after.id = row.id ∧ after.intent = row.intent := by
    intro row member
    refine ⟨_, List.mem_map_of_mem member, ?_⟩
    split
    · exact ⟨rfl, rfl⟩
    · exact ⟨rfl, rfl⟩
  refine ⟨⟨?_, sound.accounted.own, fun change member => ?_, fun row member applied => ?_, sound.accounted.hidden,
    sound.accounted.restored⟩, fun one next there number mine => ?_, sound.apart, sound.pending, sound.reported⟩
  · rw [Suppression.merge]
    dsimp only
    rw [List.length_map, ← sound.accounted.numbered, List.map_map]
    refine List.map_congr_left fun row _ => ?_
    rw [Function.comp_apply]
    split
    · rfl
    · rfl
  · obtain ⟨row, old, id, intent⟩ := sound.accounted.announced change member
    obtain ⟨after, there, sameId, sameIntent⟩ := same old
    exact ⟨after, there, sameId.trans id, sameIntent.trans intent⟩
  · obtain ⟨old, among, rfl⟩ := List.mem_map.mp member
    split at applied
    · next here =>
      rw [if_pos here]
      obtain ⟨change, there, id⟩ := true_ applied
      exact ⟨change, there, id.trans here.symm⟩
    · next elsewhere =>
      rw [if_neg elsewhere]
      exact sound.accounted.applied old among applied
  · obtain ⟨row, old, id, intent⟩ := sound.wrote one next there number mine
    obtain ⟨after, there, sameId, sameIntent⟩ := same old
    exact ⟨after, there, sameId.trans id, sameIntent.trans intent⟩

/-- A write under the row that announced it. -/
theorem Sound.change (sound : Sound sha256 state) (found : state.requests name = some request) {audit : Nat}
    {seen : List ArchiveRow} (writing : request.progress = .writing audit seen) (now : Datetime) {outcome : Outcome}
    (true_ : outcome.phase = .applied → (apply now seen state.table request.mutation).2.2 = true) :
    Sound sha256 ((change now seen audit request state).set name
      { request with progress := .appending audit outcome }) := by
  obtain ⟨inserts, takes, -⟩ := apply_spec now seen state.table request.mutation
  have mine : audit ∈ request.progress.audit := by
    rw [writing]
    exact rfl
  have grows : ∀ {change : Change}, change ∈ state.changes →
      change ∈ (Suppression.change now seen audit request state).changes := by
    intro change member
    rw [Suppression.change]
    dsimp only
    split
    · exact List.mem_append_left _ member
    · exact member
  have added : (apply now seen state.table request.mutation).2.2 = true →
      ⟨request.mutation, request.principal, audit⟩ ∈ (Suppression.change now seen audit request state).changes := by
    intro written
    rw [Suppression.change]
    dsimp only
    rw [if_pos written]
    exact List.mem_append_right _ List.mem_cons_self
  have cases_ : ∀ {change : Change}, change ∈ (Suppression.change now seen audit request state).changes →
      change ∈ state.changes ∨ change = ⟨request.mutation, request.principal, audit⟩ := by
    intro change member
    rw [Suppression.change] at member
    dsimp only at member
    split at member
    · obtain old | new := List.mem_append.mp member
      · exact .inl old
      · exact .inr (List.mem_singleton.mp new)
    · exact .inl member
  have isNew : ∀ change ∈ state.changes, change.audit ≠ audit :=
    sound.pending name request found (by rw [writing]; trivial) audit mine
  have accounted : Accounted sha256 state.log (Suppression.change now seen audit request state).changes
      (apply now seen state.table request.mutation).1 (Suppression.change now seen audit request state).removed := by
    refine ⟨sound.accounted.numbered, ?_, fun change member => ?_, fun row member applied => ?_, fun row member => ?_,
      fun row member => ?_⟩
    · rw [Suppression.change]
      dsimp only
      split
      · rw [List.map_append]
        refine List.nodup_append_comm.mp (List.nodup_cons.mpr ⟨fun among => ?_, sound.accounted.own⟩)
        obtain ⟨change, member, same⟩ := List.mem_map.mp among
        exact isNew change member same
      · exact sound.accounted.own
    · obtain old | rfl := cases_ member
      · exact sound.accounted.announced change old
      · exact sound.wrote name request found audit mine
    · obtain ⟨change, there, same⟩ := sound.accounted.applied row member applied
      exact ⟨change, grows there, same⟩
    · obtain old | ⟨new, written⟩ := inserts row member
      · obtain ⟨change, there, explains⟩ := sound.accounted.hidden row old
        exact ⟨change, grows there, explains⟩
      · exact ⟨_, added written, new⟩
    · obtain old | new := List.mem_append.mp member
      · obtain ⟨change, there, explains⟩ := sound.accounted.restored row old
        exact ⟨change, grows there, explains⟩
      · obtain ⟨inTable, gone⟩ := List.mem_filter.mp new
        obtain ⟨restores, written⟩ := takes row inTable (of_decide_eq_true gone)
        exact ⟨_, added written, restores⟩
  -- The request is past its write before the write counts.
  have past := sound.progress found (.appending audit { phase := .failed }) (fun other same => by
    cases same
    exact mine) (fun pending => pending.elim) (fun _ _ same failed => by
    cases same
    cases failed)
  have counted : Sound sha256 { Suppression.change now seen audit request state with
      requests := Function.update state.requests name
        (some { request with progress := .appending audit { phase := .failed } }) } := by
    refine ⟨accounted, past.wrote, past.apart, fun one next there pending other its change member => ?_,
      fun one next other outcome there shape applied => ?_⟩
    · obtain old | rfl := cases_ member
      · exact past.pending one next there pending other its change old
      · rintro rfl
        have different : one ≠ name := by
          rintro rfl
          cases (Function.update_self ..).symm.trans there
          exact pending
        exact past.apart one next name _ there set_requests_self different _ its rfl
    · obtain ⟨change, member, same⟩ := past.reported one next other outcome there shape applied
      exact ⟨change, grows member, same⟩
  have reported := counted.progress (Function.update_self ..) (.appending audit outcome) (fun other same => by
    cases same
    exact rfl) (fun pending => pending.elim) (fun _ _ same applied => by
    cases same
    exact ⟨_, added (true_ applied), rfl⟩)
  rw [State.set] at reported ⊢
  dsimp only at reported
  rw [Function.update_idem] at reported
  exact reported

/-- A request that is through, or not yet at its row. -/
theorem Sound.idle (sound : Sound sha256 state) (request : Request) (none : request.progress.audit = none) :
    Sound sha256 (state.set name request) := by
  refine sound.set (fun audit mine => ?_) (fun other next there different audit mine => ?_) (fun _ audit mine => ?_)
    (fun audit outcome same => ?_)
  · rw [none] at mine
    cases mine
  · rw [none] at mine
    cases mine
  · rw [none] at mine
    cases mine
  · rw [same] at none
    cases none

/-- A request that is refused, or starts over as nothing. -/
theorem Sound.drop (sound : Sound sha256 state) (name : ι) :
    Sound sha256 { state with requests := Function.update state.requests name none } := by
  have other : ∀ {one : ι} {next : Request}, Function.update state.requests name none one = some next →
      state.requests one = some next := by
    intro one next there
    by_cases own : one = name
    · subst own
      rw [Function.update_self] at there
      cases there
    · rw [Function.update_of_ne own] at there
      exact there
  exact ⟨sound.accounted, fun one next there => sound.wrote one next (other there),
    fun one next two last there thereToo => sound.apart one next two last (other there) (other thereToo),
    fun one next there => sound.pending one next (other there),
    fun one next audit outcome there => sound.reported one next audit outcome (other there)⟩

/-- The announcement, and the row it leaves the request with. -/
theorem Sound.record (sound : Sound sha256 state) (request : Request) :
    Sound sha256 ((Suppression.announce sha256 request state).set name
      { request with progress := .reading state.log.length }) := by
  refine (sound.announce request).set (fun audit mine => ?_) (fun other next there _ audit mine theirs => ?_)
    (fun _ audit mine change member same => ?_) (fun audit outcome same => ?_)
  · cases mine
    exact ⟨_, List.mem_append_right _ List.mem_cons_self, rfl, rfl⟩
  · cases mine
    obtain ⟨row, member, id, -⟩ := sound.wrote other next there _ theirs
    exact absurd id (sound.accounted.id_lt member).ne
  · cases mine
    obtain ⟨row, among, id, -⟩ := sound.accounted.announced change member
    exact absurd (id.trans same) (sound.accounted.id_lt among).ne
  · cases same

theorem Sound.kept (sound : Sound sha256 state) {event : Event ι} {next : State ι}
    (stepped : step sha256 state event = some next) : Sound sha256 next := by
  cases event with
  | arrives name mutation principal =>
    unfold step at stepped
    dsimp only at stepped
    split at stepped
    · cases stepped
      refine sound.idle _ ?_
      cases mutation with
      | archive => rfl
      | bulk => rfl
      | restore => rfl
    · cases stepped
  | checks name =>
    obtain ⟨request, found, moved⟩ := Option.bind_eq_some_iff.mp stepped
    split at moved
    · cases moved
      refine sound.idle _ ?_
      dsimp only
      split
      · rfl
      · rfl
    · cases moved
      refine sound.idle _ ?_
      dsimp only
      split
      · rfl
      · rfl
    · cases moved
  | checkFails name =>
    obtain ⟨request, found, moved⟩ := Option.bind_eq_some_iff.mp stepped
    split at moved
    · cases moved
      exact sound.idle _ rfl
    · cases moved
  | records name =>
    obtain ⟨request, found, moved⟩ := Option.bind_eq_some_iff.mp stepped
    split at moved
    · cases moved
      exact sound.record request
    · cases moved
  | recordFails name written =>
    obtain ⟨request, found, moved⟩ := Option.bind_eq_some_iff.mp stepped
    split at moved
    · cases moved
      cases written with
      | false => exact sound.idle _ rfl
      | true => exact (sound.announce request).idle _ rfl
    · cases moved
  | reads name =>
    obtain ⟨request, found, moved⟩ := Option.bind_eq_some_iff.mp stepped
    split at moved
    · next audit reading =>
      cases moved
      refine sound.progress found _ (fun other same => ?_) (fun _ => ?_) (fun _ _ same => by cases same)
      · rw [reading]
        exact same
      · rw [reading]
        trivial
    · cases moved
  | readFails name =>
    obtain ⟨request, found, moved⟩ := Option.bind_eq_some_iff.mp stepped
    split at moved
    · next audit reading =>
      cases moved
      refine sound.progress found _ (fun other same => ?_) (fun pending => pending.elim) (fun _ _ same applied => ?_)
      · rw [reading]
        exact same
      · cases same
        cases applied
    · cases moved
  | writes name now =>
    obtain ⟨request, found, moved⟩ := Option.bind_eq_some_iff.mp stepped
    split at moved
    · next audit seen writing =>
      cases moved
      exact sound.change found writing now (apply_spec now seen state.table request.mutation).2.2
    · cases moved
  | writeFails name now written =>
    obtain ⟨request, found, moved⟩ := Option.bind_eq_some_iff.mp stepped
    split at moved
    · next audit seen writing =>
      cases moved
      cases written with
      | true => exact sound.change found writing now (fun failed => by cases failed)
      | false =>
        refine sound.progress found _ (fun other same => ?_) (fun pending => pending.elim) (fun _ _ same applied => ?_)
        · rw [writing]
          exact same
        · cases same
          cases applied
    · cases moved
  | appends name written =>
    obtain ⟨request, found, moved⟩ := Option.bind_eq_some_iff.mp stepped
    split at moved
    · next audit outcome appending =>
      cases moved
      cases written with
      | true => exact (sound.merge (sound.reported name request audit outcome found appending)).idle _ rfl
      | false => exact sound.idle _ rfl
    · cases moved
  | dies name =>
    cases stepped
    exact sound.drop name

/-- No suppression goes unaudited: whatever interleaves, fails or dies, every change of the archive has a row of the
log of its own that was written before and names the action, the entity and the authenticated caller; whatever is
hidden was hidden by such a change, and whatever is gone was restored by one; and no row claims a change that was
not carried out. -/
theorem every_suppression_is_audited {events : List (Event ι)} (reached : run (step sha256) {} events = some state) :
    Accounted sha256 state.log state.changes state.table state.removed :=
  (invariant (step sha256) (fun sound stepped => Sound.kept sound stepped) Sound.initial reached).accounted

end

/-- A restore that was carried out, and whose answer was lost. -/
theorem every_suppression_is_audited_though_unanswered :
    let entry := (archived "n" (by decide)).toArchiveEntry
    let now := (archived "n" (by decide)).archivedAt
    ∃ state, run (step fun text => text) ({} : State ℕ) [.arrives 0 (.archive entry) "dev-mode", .checks 0, .records 0,
        .reads 0, .writes 0 now, .appends 0 true, .arrives 1 (.restore entry.network entry.txHash) "session:7",
        .checks 1, .records 1, .reads 1, .writeFails 1 now true, .appends 1 true] = some state ∧
      state.removed.length = 1 ∧
      Accounted (fun text => text) state.log state.changes state.table state.removed := by
  intro entry now
  have answered : ∃ state, run (step fun text => text) ({} : State ℕ) [.arrives 0 (.archive entry) "dev-mode",
      .checks 0, .records 0, .reads 0, .writes 0 now, .appends 0 true,
      .arrives 1 (.restore entry.network entry.txHash) "session:7", .checks 1, .records 1, .reads 1,
      .writeFails 1 now true, .appends 1 true] = some state ∧ state.removed.length = 1 := ⟨_, rfl, rfl⟩
  obtain ⟨state, reached, gone⟩ := answered
  exact ⟨state, reached, gone, every_suppression_is_audited reached⟩

end TransactionMonitoring.Suppression
