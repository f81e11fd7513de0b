import Mathlib.Data.Int.Order.Basic

/-! The history backfill of a target and its marker.

The marker is the target's row of `ingest_cursor`.  The Blockfrost flavor walks the provider
itself, the Kupo flavor triggers the host's own backfill and polls it, and keeps its trigger
count as text in the row's `cursor` column.  Whether anything is left to do is decided by a gate
over the marker before either of them runs.  What the host, the provider and the boundary query
answer is given with each run.
-/
namespace TransactionMonitoring.History

/-- A row of `ingest_cursor`. -/
structure Cursor where
  cursor : String
  source : String
  txsSeen : Int
  done : Bool
deriving DecidableEq, Repr

/-- The settings a backfill reads. -/
structure Settings where
  hostBacked : Bool
  historyEnabled : Bool
  historyMaxTxs : Int
  historyMaxTxsCeiling : Int
  historyMinHostTxs : Int
  clusteringMinTargetTxs : Int
  clusteringWindowTxs : Int
deriving DecidableEq, Repr

/-- The columns of a contract row a backfill reads. -/
structure Contract where
  requestedMaxTxs : Int
  targetTxs : Int
deriving DecidableEq, Repr

/-- `recall_floor`. -/
def recallFloor (settings : Settings) (ceiling : Int) : Int := min settings.clusteringMinTargetTxs ceiling

/-- `effective_window_txs`. -/
def effectiveWindowTxs (settings : Settings) (requested : Int) : Int :=
  let ceiling := settings.clusteringWindowTxs
  if ceiling ≤ 0 then 0
  else if requested ≤ 0 then ceiling
  else max (recallFloor settings ceiling) (min requested ceiling)

/-- `history_cap`. -/
def historyCap (contract : Option Contract) (settings : Settings) : Int :=
  let ceiling := settings.historyMaxTxsCeiling
  let requested := (contract.map Contract.requestedMaxTxs).getD 0
  let raw := if requested = 0 then settings.historyMaxTxs else requested
  max (recallFloor settings ceiling) (min raw ceiling)

inductive HistoryStatus where
  | completed
  | rateLimited
  | deferred
  | pending
  | skipped
deriving DecidableEq, Repr

structure HistoryResult where
  status : HistoryStatus
  txsIngested : Int
  note : String
deriving DecidableEq, Repr

structure HostBoundary where
  floorSlot : Int
  floorHeight : Int
  hostTxCount : Int
deriving DecidableEq, Repr

/-- What `host_history_boundary` comes to. -/
inductive BoundaryRead where
  | raised
  /-- No host tip yet, or one younger than the safety window. -/
  | notEstablished
  | established (boundary : HostBoundary)
deriving DecidableEq, Repr

/-- `_BOUNDARY_DEFERRED_NOTE`. -/
def boundaryDeferredNote : String :=
  "host tip not established (or younger than the rollback safety window); retrying on later ticks"

/-- `_BLOCKFROST_HISTORY_SOURCE_TAG`. -/
def blockfrostHistorySourceTag : String := "blockfrost_history"

def kupoSource : String := "kupo"

/-- The result of `run` for an exception anywhere in a flavor. -/
def failedRun : HistoryResult := ⟨.deferred, 0, "history source error; see server logs"⟩

def addressOnly : HistoryResult := ⟨.deferred, 0, "history backfill is address-only (no host policy index)"⟩

/-! ## The marker's text -/

/-- `_KUPO_MAX_TRIGGERS`. -/
def kupoMaxTriggers : Int := 3

/-- `_KUPO_ATTEMPTS_PREFIX`. -/
def kupoAttemptsPrefix : String := "attempts:"

/-- `_KUPO_GAVE_UP_SUFFIX`. -/
def kupoGaveUpSuffix : String := ";gave_up"

/-- `_KUPO_NO_JOB_SUFFIX`. -/
def kupoNoJobSuffix : String := ";no_job"

def parseDigits (text : List Char) : Option Int :=
  if text ≠ [] ∧ text.all Char.isDigit then some ((Nat.ofDigitChars 10 text 0 : Nat) : Int) else none

/-- `int` of a text: an optional sign and decimal digits. -/
def parseInt : List Char → Option Int
  | '-' :: digits => (parseDigits digits).map fun value => -value
  | '+' :: digits => parseDigits digits
  | digits => parseDigits digits

/-- `_kupo_attempts`: the first segment after the prefix. -/
def kupoAttempts (marker : Option Cursor) : Int :=
  let raw := ((marker.map Cursor.cursor).getD "").toList
  if kupoAttemptsPrefix.toList <+: raw then
    (parseInt ((raw.drop kupoAttemptsPrefix.length).takeWhile (· ≠ ';'))).getD 0
  else 0

/-- `_kupo_gave_up`. -/
def kupoGaveUp (marker : Option Cursor) : Bool :=
  kupoGaveUpSuffix.toList <:+ ((marker.map Cursor.cursor).getD "").toList

/-- `_kupo_has_no_job`. -/
def kupoHasNoJob (marker : Option Cursor) : Bool :=
  kupoNoJobSuffix.toList <:+ ((marker.map Cursor.cursor).getD "").toList

/-- The flag that rides behind the counter. -/
inductive Flag where
  | none
  | gaveUp
  | noJob
deriving DecidableEq, Repr

def Flag.suffix : Flag → String
  | .none => ""
  | .gaveUp => kupoGaveUpSuffix
  | .noJob => kupoNoJobSuffix

/-- `KupoHistory._mark`. -/
def mark (done : Bool) (txsSeen attempts : Int) (flag : Flag) : Cursor :=
  ⟨kupoAttemptsPrefix ++ toString attempts ++ flag.suffix, kupoSource, txsSeen, done⟩

/-- `BlockfrostHistory._mark_done`. -/
def markDone (cap : Int) : Cursor := ⟨"", blockfrostHistorySourceTag, cap, true⟩

theorem parseInt_digits {text : List Char} (digits : ∀ char ∈ text, char.isDigit) (nonempty : text ≠ []) :
    parseInt text = some ((Nat.ofDigitChars 10 text 0 : Nat) : Int) := by
  have plain : parseInt text = parseDigits text := by
    unfold parseInt
    split
    · exact absurd (digits '-' List.mem_cons_self) (by decide)
    · exact absurd (digits '+' List.mem_cons_self) (by decide)
    · rfl
  rw [plain, parseDigits, if_pos ⟨nonempty, List.all_eq_true.mpr digits⟩]

theorem parseInt_toString (count : Nat) : parseInt (toString (count : Int)).toList = some (count : Int) := by
  have shape : (toString (count : Int)).toList = Nat.toDigits 10 count := Nat.toList_repr
  have digits : ∀ char ∈ Nat.toDigits 10 count, char.isDigit := fun char member =>
    Nat.isDigit_of_mem_toDigits (by decide) (by decide) member
  have nonempty : Nat.toDigits 10 count ≠ [] := by
    have printed : count.repr.toList ≠ [] := by simp
    rwa [Nat.toList_repr] at printed
  rw [shape, parseInt_digits digits nonempty, Nat.ofDigitChars_toDigits (by decide) (by decide)]

theorem toList_toString_digits (count : Nat) : ∀ char ∈ (toString (count : Int)).toList, char.isDigit := by
  have shape : (toString (count : Int)).toList = Nat.toDigits 10 count := Nat.toList_repr
  rw [shape]
  exact fun char member => Nat.isDigit_of_mem_toDigits (by decide) (by decide) member

/-- The counter is read back as it was written, whatever flag rides behind it. -/
@[simp] theorem kupoAttempts_mark (done : Bool) (txsSeen : Int) (count : Nat) (flag : Flag) :
    kupoAttempts (some (mark done txsSeen count flag)) = count := by
  have digits : ∀ char ∈ (toString (count : Int)).toList, (decide (char ≠ ';')) = true := by
    intro char member
    have digit := toList_toString_digits count char member
    rw [decide_eq_true_eq]
    rintro rfl
    exact absurd digit (by decide)
  have flagless : flag.suffix.toList.takeWhile (· ≠ ';') = [] := by
    cases flag with
    | none => decide
    | gaveUp => decide
    | noJob => decide
  have length : kupoAttemptsPrefix.length = kupoAttemptsPrefix.toList.length := by decide
  simp only [kupoAttempts, mark, Option.map_some, Option.getD_some, String.toList_append, List.append_assoc,
    List.prefix_append, if_true, length, List.drop_left]
  rw [List.takeWhile_append_of_pos digits, flagless, List.append_nil, parseInt_toString, Option.getD_some]

private theorem last_of_suffix {text suffix : List Char} (nonempty : suffix ≠ []) (suffixed : suffix <:+ text) :
    text.getLast? = suffix.getLast? := by
  obtain ⟨before, rfl⟩ := suffixed
  rw [List.getLast?_append]
  cases ends : suffix.getLast? with
  | none => exact absurd (List.getLast?_eq_none_iff.mp ends) nonempty
  | some last => rfl

/-- A text ends in its own flag and in no other. -/
theorem suffix_mark_iff (done : Bool) (txsSeen : Int) (count : Nat) (flag other : Flag) (flagged : other ≠ .none) :
    other.suffix.toList <:+ (mark done txsSeen count flag).cursor.toList ↔ flag = other := by
  simp only [mark, String.toList_append]
  constructor
  · intro suffixed
    have nonempty : other.suffix.toList ≠ [] := by
      cases other with
      | none => exact absurd rfl flagged
      | gaveUp => decide
      | noJob => decide
    have last := last_of_suffix nonempty suffixed
    cases flag with
    | none =>
      -- The text ends in a digit.
      have printed : (toString (count : Int)).toList ≠ [] := by
        intro empty
        have parsed := parseInt_toString count
        rw [empty] at parsed
        cases parsed
      simp only [Flag.suffix, String.toList_empty, List.append_nil] at last
      rw [last_of_suffix printed (List.suffix_append _ _)] at last
      cases shape : (toString (count : Int)).toList.getLast? with
      | none => exact absurd (List.getLast?_eq_none_iff.mp shape) printed
      | some char =>
        have digit := toList_toString_digits count char (List.mem_of_getLast? shape)
        rw [shape] at last
        cases other with
        | none => exact absurd rfl flagged
        | gaveUp =>
          obtain rfl : char = 'p' := Option.some.inj last
          exact absurd digit (by decide)
        | noJob =>
          obtain rfl : char = 'b' := Option.some.inj last
          exact absurd digit (by decide)
    | gaveUp =>
      rw [last_of_suffix (by decide) (List.suffix_append _ _)] at last
      cases other with
      | none => exact absurd rfl flagged
      | gaveUp => rfl
      | noJob => exact absurd last (by decide)
    | noJob =>
      rw [last_of_suffix (by decide) (List.suffix_append _ _)] at last
      cases other with
      | none => exact absurd rfl flagged
      | gaveUp => exact absurd last (by decide)
      | noJob => rfl
  · rintro rfl
    exact List.suffix_append _ _

@[simp] theorem kupoGaveUp_mark (done : Bool) (txsSeen : Int) (count : Nat) (flag : Flag) :
    kupoGaveUp (some (mark done txsSeen count flag)) = decide (flag = .gaveUp) := by
  simpa [kupoGaveUp, Flag.suffix] using suffix_mark_iff done txsSeen count flag .gaveUp (by decide)

@[simp] theorem kupoGaveUp_gaveUp (done : Bool) (txsSeen attempts : Int) :
    kupoGaveUp (some (mark done txsSeen attempts .gaveUp)) = true := by
  simp only [kupoGaveUp, mark, Option.map_some, Option.getD_some, String.toList_append, decide_eq_true_eq]
  exact List.suffix_append _ _

@[simp] theorem kupoHasNoJob_mark (done : Bool) (txsSeen : Int) (count : Nat) (flag : Flag) :
    kupoHasNoJob (some (mark done txsSeen count flag)) = decide (flag = .noJob) := by
  simpa [kupoHasNoJob, Flag.suffix] using suffix_mark_iff done txsSeen count flag .noJob (by decide)

/-! ## The Blockfrost flavor -/

/-- What the walk of the provider comes to, with the cursor the ingester leaves. -/
inductive Walk where
  /-- `SourceNotFound`, raised before any page. -/
  | notFound
  | raised (left : Option Cursor)
  | ended (rateLimited : Bool) (txsIngested : Int) (left : Option Cursor)
deriving DecidableEq, Repr

/-- What one run of the Blockfrost flavor meets. -/
structure BlockfrostInputs where
  contract : Option Contract
  boundary : BoundaryRead
  walk : Walk
deriving DecidableEq, Repr

/-- The marker after a run, and what it reports. -/
abbrev Ran := Option Cursor × HistoryResult

/-- `BlockfrostHistory._run`. -/
def blockfrostRun (settings : Settings) (cap : Int) (marker : Option Cursor) (inputs : BlockfrostInputs) : Ran :=
  match marker.filter fun cursor => cursor.source = blockfrostHistorySourceTag ∧ cap ≤ cursor.txsSeen with
  | some cursor => (marker, ⟨.skipped, cursor.txsSeen, "history complete at this cap"⟩)
  | none =>
      match inputs.boundary with
      | .raised => (marker, failedRun)
      | .notEstablished => (marker, ⟨.deferred, 0, boundaryDeferredNote⟩)
      | .established boundary =>
          let window := effectiveWindowTxs settings ((inputs.contract.map Contract.targetTxs).getD 0)
          let minHost := settings.historyMinHostTxs
          if 0 < window ∧ window ≤ boundary.hostTxCount then
            (some (markDone cap), ⟨.skipped, 0, "window full; history would be evicted from every read"⟩)
          else if 0 < minHost ∧ minHost ≤ boundary.hostTxCount then
            (some (markDone cap), ⟨.skipped, 0, "host already has " ++ toString boundary.hostTxCount ++ " txs (>= " ++
              toString minHost ++ "); backfill not needed"⟩)
          else
            match inputs.walk with
            | .notFound => (some (markDone cap), ⟨.completed, 0, "no pre-deployment history upstream"⟩)
            | .raised left => (left, failedRun)
            | .ended true txsIngested left => (left, ⟨.rateLimited, txsIngested, "provider quota hit; will resume"⟩)
            | .ended false txsIngested left => (left, ⟨.completed, txsIngested, ""⟩)

/-! ## The Kupo flavor -/

/-- The view of a host job the status endpoint returns. -/
structure JobView where
  status : String
  createdBeforeSlot : Option Int
  /-- `complete` and `txs_ingested` of its result. -/
  complete : Bool
  txsIngested : Int
deriving DecidableEq, Repr

/-- What asking the host for the job's status comes to. -/
inductive StatusReply where
  | unreachable
  | status (code : Nat)
  /-- A 200 that is not JSON. -/
  | nonJson
  | job (view : JobView)
  /-- Reading the marker again for its counter raises, or another exception. -/
  | raised
deriving DecidableEq, Repr

/-- What a trigger comes to. -/
inductive PostReply where
  | unreachable
  | status (code : Nat)
deriving DecidableEq, Repr

/-- A 409: somebody else's run holds the address. -/
def PostReply.conflict : PostReply := .status 409

/-- The body of a trigger. -/
structure Trigger where
  maxTxs : Int
  createdBeforeSlot : Int
deriving DecidableEq, Repr

/-- What one run of the Kupo flavor meets. -/
structure KupoInputs where
  status : StatusReply
  boundary : BoundaryRead
  post : PostReply
deriving DecidableEq, Repr

/-- A run of the Kupo flavor: the marker it leaves, its report and the trigger it sent. -/
structure KupoRan where
  marker : Option Cursor
  result : HistoryResult
  posted : Option Trigger
deriving DecidableEq, Repr

/-- What `_check_host_job` decides. -/
inductive Checked where
  | retrigger
  | landed (txsIngested : Int)
  | waits (result : HistoryResult)
deriving DecidableEq, Repr

/-- `_check_host_job`, up to the marker it writes. -/
def checkHostJob : StatusReply → Checked
  | .unreachable => .waits ⟨.pending, 0, "host API unreachable; will re-check"⟩
  | .status code =>
      if code = 404 then .retrigger
      else .waits ⟨.pending, 0, "host status returned HTTP " ++ toString code⟩
  | .nonJson => .waits ⟨.pending, 0, "host status returned non-JSON; will re-check"⟩
  | .raised => .waits failedRun
  | .job view =>
      if view.status = "running" then .waits ⟨.pending, 0, "host backfill still running"⟩
      else if view.status = "done" then
        if view.createdBeforeSlot = none then .retrigger
        else if view.complete then .landed view.txsIngested
        else .retrigger
      else .retrigger

/-- `_trigger`: the marker a reply leaves, none where it leaves it alone. -/
def triggerReply (attempts : Int) : PostReply → Option Cursor × HistoryResult
  | .unreachable =>
      (some (mark false 0 (attempts + 1) .noJob), ⟨.deferred, 0, "host API unreachable; retrying on later ticks"⟩)
  | .status code =>
      if code = 202 then
        (some (mark false 0 (attempts + 1) .none),
          ⟨.pending, 0, "host backfill running; rows appear as the job lands them"⟩)
      else if code = 409 then
        (none, ⟨.pending, 0, "another backfill for this address is running; will retry"⟩)
      else if code = 503 then
        (some (mark false 0 (attempts + 1) .noJob), ⟨.deferred, 0, "host KUPO_URL not configured"⟩)
      else if code = 401 ∨ code = 403 then
        (some (mark false 0 (attempts + 1) .noJob),
          ⟨.deferred, 0, "host API auth failed (HTTP " ++ toString code ++ ")"⟩)
      else
        (some (mark false 0 (attempts + 1) .noJob), ⟨.deferred, 0, "host backfill returned HTTP " ++ toString code⟩)

/-- The end of `KupoHistory._run`: the attempts wall, the boundary, the trigger. -/
def kupoTrigger (cap : Int) (marker : Option Cursor) (attempts : Int) (inputs : KupoInputs) : KupoRan :=
  if kupoMaxTriggers ≤ attempts then
    ⟨some (mark true cap attempts .gaveUp),
      ⟨.skipped, 0, "giving up after " ++ toString attempts ++ " host backfill attempts"⟩, none⟩
  else
    match inputs.boundary with
    | .raised => ⟨marker, failedRun, none⟩
    | .notEstablished => ⟨marker, ⟨.deferred, 0, boundaryDeferredNote⟩, none⟩
    | .established boundary =>
        let (left, result) := triggerReply attempts inputs.post
        ⟨left.or marker, result, some ⟨cap, boundary.floorSlot⟩⟩

/-- `KupoHistory._run`. -/
def kupoRun (cap : Int) (marker : Option Cursor) (inputs : KupoInputs) : KupoRan :=
  match marker.filter fun cursor => cursor.source = kupoSource with
  | none => kupoTrigger cap marker 0 inputs
  | some cursor =>
      if cursor.done ∧ cap ≤ cursor.txsSeen then
        if kupoGaveUp marker then
          ⟨marker, ⟨.skipped, 0, "gave up after earlier host failures; raise the cap to retry"⟩, none⟩
        else ⟨marker, ⟨.skipped, cursor.txsSeen, "history already backfilled via host"⟩, none⟩
      else if cursor.done then
        -- The cap was raised: the counter belongs to the settled attempt.
        kupoTrigger cap marker 0 inputs
      else if kupoHasNoJob marker then kupoTrigger cap marker (kupoAttempts marker) inputs
      else
        match checkHostJob inputs.status with
        | .waits result => ⟨marker, result, none⟩
        | .landed txsIngested =>
            ⟨some (mark true cap (kupoAttempts marker) .none), ⟨.completed, txsIngested, "host backfill landed"⟩, none⟩
        | .retrigger => kupoTrigger cap marker (kupoAttempts marker) inputs

/-! ## The shared shell and the gate -/

/-- The cap `run` passes on to the flavor. -/
def clampedCap (settings : Settings) (maxTxs : Int) : Int := min maxTxs settings.historyMaxTxsCeiling

/-- `BlockfrostHistory.run`; the marker's read may raise. -/
def runBlockfrost (settings : Settings) (targetType : String) (maxTxs : Int) (markerRead : Bool)
    (marker : Option Cursor) (inputs : BlockfrostInputs) : Ran :=
  if targetType ≠ "address" then (marker, addressOnly)
  else if markerRead then blockfrostRun settings (clampedCap settings maxTxs) marker inputs
  else (marker, failedRun)

/-- `KupoHistory.run`. -/
def runKupo (settings : Settings) (targetType : String) (maxTxs : Int) (markerRead : Bool)
    (marker : Option Cursor) (inputs : KupoInputs) : KupoRan :=
  if targetType ≠ "address" then ⟨marker, addressOnly, none⟩
  else if markerRead then kupoRun (clampedCap settings maxTxs) marker inputs
  else ⟨marker, failedRun, none⟩

/-- `_HISTORY_SOURCES`. -/
def historySources : List String := [blockfrostHistorySourceTag, kupoSource]

/-- `_marker_complete`. -/
def markerComplete (marker : Option Cursor) (cap : Int) : Bool :=
  marker.any fun cursor => cursor.source ∈ historySources ∧ (cursor.done = true ∨ cap ≤ cursor.txsSeen)

/-- `history_incomplete`. -/
def historyIncomplete (marker : Option Cursor) (cap : Int) : Bool := !markerComplete marker cap

/-- The resume gate of `update_contract`: whether a classify tick runs the backfill. -/
def resumes (settings : Settings) (contract : Option Contract) (marker : Option Cursor) : Bool :=
  settings.hostBacked && settings.historyEnabled && historyIncomplete marker (historyCap contract settings)

/-- A marker that says a backfill is over at some cap. -/
inductive Settled where
  /-- `_mark_done` of the Blockfrost flavor. -/
  | blockfrostDone
  /-- The host's job landed, after so many triggers. -/
  | kupoLanded (attempts : Int)
  | kupoGaveUp (attempts : Int)
deriving DecidableEq, Repr

def Settled.marker (settled : Settled) (cap : Int) : Cursor :=
  match settled with
  | .blockfrostDone => markDone cap
  | .kupoLanded attempts => mark true cap attempts .none
  | .kupoGaveUp attempts => mark true cap attempts .gaveUp

/-- The marker's own flavor has nothing to do: it reports a skip and leaves the marker. -/
def Settled.Skips (settings : Settings) (settled : Settled) (cap maxTxs : Int) : Prop :=
  match settled with
  | .blockfrostDone => ∀ inputs,
      let ran := runBlockfrost settings "address" maxTxs true (some (settled.marker cap)) inputs
      ran.1 = some (settled.marker cap) ∧ ran.2.status = .skipped
  | .kupoLanded _ | .kupoGaveUp _ => ∀ inputs,
      let ran := runKupo settings "address" maxTxs true (some (settled.marker cap)) inputs
      ran.marker = some (settled.marker cap) ∧ ran.result.status = .skipped ∧ ran.posted = none

/-- The gate follows the cap: a raised one re-opens the question, any other finds it settled,
and then the flavor skips. -/
def GateFollowsCap (settings : Settings) (settled : Settled) (cap asked : Int) : Prop :=
  (cap < asked → historyIncomplete (some (settled.marker cap)) asked = true) ∧
    (asked ≤ cap → historyIncomplete (some (settled.marker cap)) asked = false ∧ settled.Skips settings cap asked)

/-- Every settled marker is done, which is all the gate asks. -/
theorem historyIncomplete_settled (settled : Settled) (cap asked : Int) :
    historyIncomplete (some (settled.marker cap)) asked = false := by
  cases settled with
  | blockfrostDone => simp [historyIncomplete, markerComplete, Settled.marker, markDone, historySources]
  | kupoLanded attempts => simp [historyIncomplete, markerComplete, Settled.marker, mark, historySources]
  | kupoGaveUp attempts => simp [historyIncomplete, markerComplete, Settled.marker, mark, historySources]

/-- A marker done at the cap, or above it, is left alone without asking the host. -/
theorem kupoRun_settled {cursor : Cursor} {cap : Int} (kupo : cursor.source = kupoSource) (done : cursor.done = true)
    (within : cap ≤ cursor.txsSeen) (inputs : KupoInputs) :
    (kupoRun cap (some cursor) inputs).marker = some cursor ∧
      (kupoRun cap (some cursor) inputs).result.status = .skipped ∧
      (kupoRun cap (some cursor) inputs).posted = none := by
  cases gaveUp : kupoGaveUp (some cursor) with
  | false => simp [kupoRun, Option.filter, kupo, done, within, gaveUp]
  | true => simp [kupoRun, Option.filter, kupo, done, within, gaveUp]

theorem skips_settled (settings : Settings) (settled : Settled) {cap maxTxs : Int} (within : maxTxs ≤ cap) :
    settled.Skips settings cap maxTxs := by
  have clamped : clampedCap settings maxTxs ≤ cap := le_trans (min_le_left _ _) within
  cases settled with
  | blockfrostDone =>
    intro inputs
    simp [runBlockfrost, blockfrostRun, Settled.marker, markDone, Option.filter, clamped]
  | kupoLanded attempts =>
    intro inputs
    simpa [runKupo, Settled.marker] using @kupoRun_settled (mark true cap attempts .none) _ rfl rfl clamped inputs
  | kupoGaveUp attempts =>
    intro inputs
    simpa [runKupo, Settled.marker] using @kupoRun_settled (mark true cap attempts .gaveUp) _ rfl rfl clamped inputs

/-- **The gate** is right about a settled marker exactly at the caps that do not exceed its own. -/
theorem gate_follows_cap_iff (settings : Settings) (settled : Settled) (cap asked : Int) :
    GateFollowsCap settings settled cap asked ↔ asked ≤ cap := by
  constructor
  · rintro ⟨reopens, _⟩
    by_contra raised
    have incomplete := reopens (not_le.mp raised)
    rw [historyIncomplete_settled] at incomplete
    cases incomplete
  · intro within
    refine ⟨fun raised => absurd within (not_le.mpr raised), fun _ => ?_⟩
    exact ⟨historyIncomplete_settled settled cap asked, skips_settled settings settled within⟩

/-- At a cap raised from 100 to 200 the gate is wrong about every kind of settled marker. -/
theorem gate_stays_closed_at_raised_cap :
    ¬ GateFollowsCap ⟨true, true, 500, 5000, 0, 200, 500⟩ .blockfrostDone 100 200 ∧
      ¬ GateFollowsCap ⟨true, true, 500, 5000, 0, 200, 500⟩ (.kupoLanded 1) 100 200 ∧
      ¬ GateFollowsCap ⟨true, true, 500, 5000, 0, 200, 500⟩ (.kupoGaveUp 3) 100 200 :=
  ⟨fun follows => absurd (follows.1 (by decide)) (by decide),
    fun follows => absurd (follows.1 (by decide)) (by decide),
    fun follows => absurd (follows.1 (by decide)) (by decide)⟩

/-- The cap the gate compares is the one the flavor's run works with. -/
theorem clampedCap_historyCap (settings : Settings) (contract : Option Contract) :
    clampedCap settings (historyCap contract settings) = historyCap contract settings :=
  min_eq_left (max_le (min_le_right _ _) (min_le_right _ _))

/-- No classify tick runs the backfill of a settled target again, whatever its contract asks for. -/
theorem resumes_settled (settings : Settings) (contract : Option Contract) (settled : Settled) (cap : Int) :
    resumes settings contract (some (settled.marker cap)) = false := by
  rw [resumes, historyIncomplete_settled, Bool.and_false]

/-! ## What a run of the Kupo flavor can do -/

/-- The counter a run goes on with: a settled marker's does not count any more. -/
def spentAttempts (marker : Option Cursor) : Int :=
  match marker.filter fun cursor => cursor.source = kupoSource with
  | some cursor => if cursor.done then 0 else kupoAttempts marker
  | none => 0

/-- The marker is settled at this cap. -/
def SettledAt (marker : Option Cursor) (cap : Int) : Prop :=
  ∃ cursor ∈ marker, cursor.source = kupoSource ∧ cursor.done = true ∧ cap ≤ cursor.txsSeen

instance (marker : Option Cursor) (cap : Int) : Decidable (SettledAt marker cap) :=
  match marker with
  | some cursor =>
      decidable_of_iff (cursor.source = kupoSource ∧ cursor.done = true ∧ cap ≤ cursor.txsSeen) (by simp [SettledAt])
  | none => isFalse (by simp [SettledAt])

/-- The marker says that a triggered job is outstanding. -/
def Awaits (marker : Option Cursor) : Prop :=
  ∃ cursor ∈ marker, cursor.source = kupoSource ∧ cursor.done = false ∧ kupoHasNoJob marker = false

instance (marker : Option Cursor) : Decidable (Awaits marker) :=
  match marker with
  | some cursor =>
      decidable_of_iff (cursor.source = kupoSource ∧ cursor.done = false ∧ kupoHasNoJob (some cursor) = false)
        (by simp [Awaits])
  | none => isFalse (by simp [Awaits])

/-- What a run does, by the marker and by what the host says about an outstanding job. -/
theorem kupoRun_cases (cap : Int) (marker : Option Cursor) (inputs : KupoInputs) :
    (SettledAt marker cap ∧ (kupoRun cap marker inputs).marker = marker ∧ (kupoRun cap marker inputs).posted = none) ∨
    (Awaits marker ∧ ∃ result, checkHostJob inputs.status = .waits result ∧
      kupoRun cap marker inputs = ⟨marker, result, none⟩) ∨
    (Awaits marker ∧ ∃ ingested, checkHostJob inputs.status = .landed ingested ∧
      kupoRun cap marker inputs = ⟨some (mark true cap (spentAttempts marker) .none),
        ⟨.completed, ingested, "host backfill landed"⟩, none⟩) ∨
    (¬ SettledAt marker cap ∧ (Awaits marker → checkHostJob inputs.status = .retrigger) ∧
      kupoRun cap marker inputs = kupoTrigger cap marker (spentAttempts marker) inputs) := by
  cases marker with
  | none => simp [kupoRun, SettledAt, Awaits, spentAttempts]
  | some cursor =>
    by_cases kupo : cursor.source = kupoSource
    · cases done : cursor.done with
      | true =>
        by_cases within : cap ≤ cursor.txsSeen
        · obtain ⟨same, _, unposted⟩ := kupoRun_settled kupo done within inputs
          exact Or.inl ⟨⟨cursor, rfl, kupo, done, within⟩, same, unposted⟩
        · simp [kupoRun, SettledAt, Awaits, spentAttempts, Option.filter, kupo, done, within]
      | false =>
        cases noJob : kupoHasNoJob (some cursor) with
        | true => simp [kupoRun, SettledAt, Awaits, spentAttempts, Option.filter, kupo, done, noJob]
        | false =>
          cases checked : checkHostJob inputs.status with
          | retrigger => simp [kupoRun, SettledAt, Awaits, spentAttempts, Option.filter, kupo, done, noJob, checked]
          | landed ingested =>
            simp [kupoRun, SettledAt, Awaits, spentAttempts, Option.filter, kupo, done, noJob, checked]
          | waits result =>
            simp [kupoRun, SettledAt, Awaits, spentAttempts, Option.filter, kupo, done, noJob, checked]
    · simp [kupoRun, SettledAt, Awaits, spentAttempts, Option.filter, kupo]

/-- Every reply but a conflict leaves an unsettled marker with one attempt more. -/
theorem triggerReply_cases (attempts : Int) (reply : PostReply) :
    (reply = .conflict ∧ (triggerReply attempts reply).1 = none) ∨
      (reply ≠ .conflict ∧ ∃ flag, flag ≠ .gaveUp ∧
        (triggerReply attempts reply).1 = some (mark false 0 (attempts + 1) flag)) := by
  cases reply with
  | unreachable => exact Or.inr ⟨by simp [PostReply.conflict], .noJob, by simp, rfl⟩
  | status code =>
    simp only [triggerReply]
    split
    · rename_i accepted
      exact Or.inr ⟨by simp [PostReply.conflict, accepted], .none, by simp, rfl⟩
    · split
      · rename_i conflict
        exact Or.inl ⟨by simp [PostReply.conflict, conflict], rfl⟩
      · rename_i other
        refine Or.inr ⟨by simpa [PostReply.conflict] using other, .noJob, by simp, ?_⟩
        split
        · rfl
        · split
          · rfl
          · rfl

/-- The wall, a missing boundary, a conflict, or a counted trigger. -/
theorem kupoTrigger_cases (cap : Int) (marker : Option Cursor) (attempts : Int) (inputs : KupoInputs) :
    (kupoMaxTriggers ≤ attempts ∧
      (kupoTrigger cap marker attempts inputs).marker = some (mark true cap attempts .gaveUp) ∧
      (kupoTrigger cap marker attempts inputs).posted = none) ∨
    (attempts < kupoMaxTriggers ∧ (kupoTrigger cap marker attempts inputs).marker = marker ∧
      ((kupoTrigger cap marker attempts inputs).posted = none ∨ inputs.post = .conflict)) ∨
    (attempts < kupoMaxTriggers ∧ inputs.post ≠ .conflict ∧
      (∃ boundary, inputs.boundary = .established boundary ∧
        (kupoTrigger cap marker attempts inputs).posted = some ⟨cap, boundary.floorSlot⟩) ∧
      ∃ flag, flag ≠ .gaveUp ∧
        (kupoTrigger cap marker attempts inputs).marker = some (mark false 0 (attempts + 1) flag)) := by
  by_cases wall : kupoMaxTriggers ≤ attempts
  · exact Or.inl ⟨wall, by simp [kupoTrigger, wall], by simp [kupoTrigger, wall]⟩
  · have below : attempts < kupoMaxTriggers := not_le.mp wall
    cases boundary : inputs.boundary with
    | raised => exact Or.inr (Or.inl ⟨below, by simp [kupoTrigger, wall, boundary],
        by simp [kupoTrigger, wall, boundary]⟩)
    | notEstablished =>
      exact Or.inr (Or.inl ⟨below, by simp [kupoTrigger, wall, boundary], by simp [kupoTrigger, wall, boundary]⟩)
    | established bound =>
      rcases triggerReply_cases attempts inputs.post with ⟨conflict, unmarked⟩ | ⟨other, flag, unsettled, marked⟩
      · exact Or.inr (Or.inl ⟨below, by simp [kupoTrigger, wall, boundary, unmarked], Or.inr conflict⟩)
      · refine Or.inr (Or.inr ⟨below, other, ⟨bound, rfl, by simp [kupoTrigger, wall, boundary]⟩, flag, unsettled, ?_⟩)
        simp [kupoTrigger, wall, boundary, marked]

end TransactionMonitoring.History
