import TransactionMonitoring.History
import TransactionMonitoring.Runs

/-! The trigger budget of the Kupo flavor.

Ticks run the flavor one after another, each at its own cap and with any answers of the host.
A trigger answered by anything but a conflict is charged to the budget.  A settled marker closes
the budget, and so does a cap above every cap so far; the one that follows starts at nothing.
-/
namespace TransactionMonitoring.KupoTriggers
open History

/-- One run of the flavor for an address. -/
structure Tick where
  maxTxs : Int
  markerRead : Bool
  inputs : KupoInputs
deriving DecidableEq, Repr

structure State where
  marker : Option Cursor
  /-- The largest cap so far. -/
  reach : Option Int
  /-- What has been charged to the budget. -/
  spent : Nat
deriving DecidableEq, Repr

def start (marker : Option Cursor) : State := ⟨marker, none, 0⟩

variable (settings : Settings)

def Tick.cap (tick : Tick) : Int := clampedCap settings tick.maxTxs

def Tick.ran (tick : Tick) (marker : Option Cursor) : KupoRan :=
  runKupo settings "address" tick.maxTxs tick.markerRead marker tick.inputs

/-- The cap is above every one so far. -/
def Raises (state : State) (tick : Tick) : Prop := ∀ reach ∈ state.reach, reach < tick.cap settings

instance (state : State) (tick : Tick) : Decidable (Raises settings state tick) :=
  inferInstanceAs (Decidable (∀ reach ∈ state.reach, reach < tick.cap settings))

/-- What has been charged to the budget the tick draws on. -/
def charged (state : State) (tick : Tick) : Nat := if Raises settings state tick then 0 else state.spent

/-- The tick sends a trigger that is answered by anything but a conflict. -/
def Counts (state : State) (tick : Tick) : Prop :=
  (tick.ran settings state.marker).posted ≠ none ∧ tick.inputs.post ≠ .conflict

instance (state : State) (tick : Tick) : Decidable (Counts settings state tick) :=
  inferInstanceAs (Decidable ((tick.ran settings state.marker).posted ≠ none ∧ tick.inputs.post ≠ .conflict))

/-- A settled marker of the flavor. -/
def settled (marker : Option Cursor) : Bool := marker.any fun cursor => cursor.source = kupoSource ∧ cursor.done = true

def step (state : State) (tick : Tick) : Option State :=
  let marker := (tick.ran settings state.marker).marker
  some
    { marker
      reach := some (max (state.reach.getD (tick.cap settings)) (tick.cap settings))
      spent := if settled marker then 0
        else charged settings state tick + if Counts settings state tick then 1 else 0 }

/-- A cap is raised only where no counted attempt is outstanding. -/
def RaisedAtRest (state : State) (tick : Tick) : Prop :=
  Raises settings state tick → spentAttempts state.marker = 0

instance (state : State) (tick : Tick) : Decidable (RaisedAtRest settings state tick) :=
  inferInstanceAs (Decidable (Raises settings state tick → spentAttempts state.marker = 0))

/-- A tick keeps to the budget. -/
structure WithinBudget (state : State) (tick : Tick) : Prop where
  /-- No trigger is sent once the budget is spent. -/
  posts : (tick.ran settings state.marker).posted ≠ none → (charged settings state tick : Int) < kupoMaxTriggers
  /-- The flavor gives up when the budget is spent and the host has nothing more to say. -/
  givesUp : ¬ SettledAt state.marker (tick.cap settings) →
    ((∃ attempts, (tick.ran settings state.marker).marker = some (mark true (tick.cap settings) attempts .gaveUp)) ↔
      tick.markerRead = true ∧ (charged settings state tick : Int) = kupoMaxTriggers ∧
        (Awaits state.marker → checkHostJob tick.inputs.status = .retrigger))
  /-- Nothing is sent at a cap the marker is settled for. -/
  rests : SettledAt state.marker (tick.cap settings) →
    (tick.ran settings state.marker).marker = state.marker ∧ (tick.ran settings state.marker).posted = none

/-- The text in the marker counts what has been charged. -/
structure Tracks (state : State) : Prop where
  counted : spentAttempts state.marker = state.spent
  bounded : (state.spent : Int) ≤ kupoMaxTriggers

section Steps

variable {settings} {state : State} {tick : Tick}

theorem charged_eq (tracks : Tracks state) (atRest : RaisedAtRest settings state tick) :
    spentAttempts state.marker = charged settings state tick := by
  unfold charged
  split
  · rename_i raises
    exact atRest raises
  · exact tracks.counted

theorem charged_le (tracks : Tracks state) : (charged settings state tick : Int) ≤ kupoMaxTriggers := by
  have bounded := tracks.bounded
  unfold charged
  split
  · decide
  · exact bounded

@[simp] theorem settled_mark (done : Bool) (txsSeen attempts : Int) (flag : Flag) :
    settled (some (mark done txsSeen attempts flag)) = done := by
  cases done with
  | false => rfl
  | true => rfl

@[simp] theorem spentAttempts_mark (done : Bool) (txsSeen : Int) (count : Nat) (flag : Flag) :
    spentAttempts (some (mark done txsSeen count flag)) = if done then 0 else (count : Int) := by
  have kupo : (mark done txsSeen count flag).source = kupoSource := rfl
  have same : (mark done txsSeen count flag).done = done := rfl
  simp [spentAttempts, Option.filter, kupo, same]

theorem spentAttempts_settled {marker : Option Cursor} (done : settled marker = true) : spentAttempts marker = 0 := by
  cases marker with
  | none => rfl
  | some cursor =>
    obtain ⟨kupo, done⟩ : cursor.source = kupoSource ∧ cursor.done = true := by simpa [settled] using done
    simp [spentAttempts, Option.filter, kupo, done]

/-- A run that leaves the marker and charges nothing. -/
theorem tracks_idle (tracks : Tracks state) (atRest : RaisedAtRest settings state tick)
    (same : (tick.ran settings state.marker).marker = state.marker) (uncounted : ¬ Counts settings state tick)
    {next : State} (stepped : step settings state tick = some next) : Tracks next := by
  obtain rfl := Option.some.inj stepped
  have counted := charged_eq tracks atRest
  have bounded : (charged settings state tick : Int) ≤ kupoMaxTriggers := charged_le tracks
  cases rests : settled state.marker with
  | true =>
    exact ⟨by simpa [same, rests] using spentAttempts_settled rests, by simp [same, rests, kupoMaxTriggers]⟩
  | false => exact ⟨by simpa [same, rests, uncounted] using counted, by simpa [same, rests, uncounted] using bounded⟩

/-- A run that settles the marker closes the budget. -/
theorem tracks_settled {next : State} (settles : settled (tick.ran settings state.marker).marker = true)
    (stepped : step settings state tick = some next) : Tracks next := by
  obtain rfl := Option.some.inj stepped
  exact ⟨by simpa [settles] using spentAttempts_settled settles, by simp [settles, kupoMaxTriggers]⟩

/-- A run that counts one more trigger in the marker, and sent one. -/
theorem tracks_counted {flag : Flag} (below : (charged settings state tick : Int) < kupoMaxTriggers)
    (marked : (tick.ran settings state.marker).marker = some (mark false 0 (charged settings state tick + 1) flag))
    (counts : Counts settings state tick) {next : State} (stepped : step settings state tick = some next) :
    Tracks next := by
  obtain rfl := Option.some.inj stepped
  have printed : ((charged settings state tick : Int) + 1) = ((charged settings state tick + 1 : Nat) : Int) := by
    push_cast
    rfl
  rw [printed] at marked
  have spent : (if settled (tick.ran settings state.marker).marker then 0
      else charged settings state tick + if Counts settings state tick then 1 else 0) =
        charged settings state tick + 1 := by
    rw [marked, settled_mark, if_pos counts]
    rfl
  constructor
  · simp only [spent]
    rw [marked, spentAttempts_mark]
    rfl
  · simp only [spent]
    rw [← printed]
    exact below

theorem ran_read (read : tick.markerRead = true) :
    tick.ran settings state.marker = kupoRun (tick.cap settings) state.marker tick.inputs := by
  simp [Tick.ran, runKupo, read, Tick.cap]

theorem ran_unread (unread : tick.markerRead = false) :
    tick.ran settings state.marker = ⟨state.marker, failedRun, none⟩ := by
  simp [Tick.ran, runKupo, unread]

theorem uncounted_of_unposted (unposted : (tick.ran settings state.marker).posted = none) :
    ¬ Counts settings state tick := fun counts => counts.1 unposted

theorem tracks_step {next : State} (atRest : RaisedAtRest settings state tick) (tracks : Tracks state)
    (stepped : step settings state tick = some next) : Tracks next := by
  have counted := charged_eq tracks atRest
  cases read : tick.markerRead with
  | false =>
    have ran : tick.ran settings state.marker = _ := ran_unread read
    exact tracks_idle tracks atRest (by rw [ran]) (uncounted_of_unposted (by rw [ran])) stepped
  | true =>
    have ran : tick.ran settings state.marker = _ := ran_read read
    rcases kupoRun_cases (tick.cap settings) state.marker tick.inputs with
      ⟨_, same, unposted⟩ | ⟨_, result, _, shape⟩ | ⟨_, ingested, _, shape⟩ | ⟨_, _, shape⟩
    · exact tracks_idle tracks atRest (by rw [ran, same]) (uncounted_of_unposted (by rw [ran, unposted])) stepped
    · exact tracks_idle tracks atRest (by rw [ran, shape]) (uncounted_of_unposted (by rw [ran, shape])) stepped
    · exact tracks_settled (by rw [ran, shape, settled_mark]) stepped
    · rcases kupoTrigger_cases (tick.cap settings) state.marker (spentAttempts state.marker) tick.inputs with
        ⟨_, marked, _⟩ | ⟨_, same, unposted | conflict⟩ | ⟨below, other, ⟨boundary, _, posted⟩, flag, _, marked⟩
      · exact tracks_settled (by rw [ran, shape, marked, settled_mark]) stepped
      · exact tracks_idle tracks atRest (by rw [ran, shape, same])
          (uncounted_of_unposted (by rw [ran, shape, unposted])) stepped
      · exact tracks_idle tracks atRest (by rw [ran, shape, same]) (fun counts => counts.2 conflict) stepped
      · rw [counted] at below marked
        refine tracks_counted below (by rw [ran, shape, counted, marked]) ⟨?_, other⟩ stepped
        rw [ran, shape, posted]
        simp

theorem not_settledAt_of_awaits {marker : Option Cursor} {cap : Int} (awaits : Awaits marker) :
    ¬ SettledAt marker cap := by
  rintro ⟨cursor, same, _, done, _⟩
  obtain ⟨_, other, _, unsettled, _⟩ := awaits
  obtain rfl := Option.some.inj (same.symm.trans other)
  rw [done] at unsettled
  cases unsettled

/-- Where the text counts what has been charged, the tick keeps to the budget. -/
theorem withinBudget_of_tracks (atRest : RaisedAtRest settings state tick) (tracks : Tracks state) :
    WithinBudget settings state tick := by
  have counted := charged_eq tracks atRest
  have bounded : (charged settings state tick : Int) ≤ kupoMaxTriggers := charged_le tracks
  cases read : tick.markerRead with
  | false =>
    have ran : tick.ran settings state.marker = _ := ran_unread read
    refine ⟨fun posts => absurd (by rw [ran]) posts, fun unsettled => ?_, fun _ => by rw [ran]; exact ⟨rfl, rfl⟩⟩
    rw [ran]
    simp only [read, Bool.false_eq_true, false_and, iff_false]
    rintro ⟨attempts, marked⟩
    exact unsettled ⟨_, marked, rfl, rfl, le_refl _⟩
  | true =>
    have ran : tick.ran settings state.marker = _ := ran_read read
    rcases kupoRun_cases (tick.cap settings) state.marker tick.inputs with
      ⟨settledAt, same, unposted⟩ | ⟨awaits, result, checked, shape⟩ | ⟨awaits, ingested, checked, shape⟩ |
        ⟨unsettled, retriggers, shape⟩
    · refine ⟨fun posts => absurd (by rw [ran, unposted]) posts, fun unsettled => absurd settledAt unsettled,
        fun _ => ?_⟩
      rw [ran]
      exact ⟨same, unposted⟩
    · -- The host has something more to say: the marker stays unsettled, or lands.
      refine ⟨fun posts => absurd (by rw [ran, shape]) posts, fun unsettled => ?_, fun _ =>
        by rw [ran, shape]; exact ⟨rfl, rfl⟩⟩
      rw [ran, shape]
      constructor
      · rintro ⟨attempts, marked⟩
        exact absurd ⟨_, marked, rfl, rfl, le_refl _⟩ unsettled
      · rintro ⟨_, _, retriggers⟩
        rw [retriggers awaits] at checked
        cases checked
    · have unsettled : ¬ SettledAt state.marker (tick.cap settings) := not_settledAt_of_awaits awaits
      refine ⟨fun posts => absurd (by rw [ran, shape]) posts, fun _ => ?_, fun settledAt => absurd settledAt unsettled⟩
      rw [ran, shape]
      constructor
      · rintro ⟨attempts, marked⟩
        have flagged := congrArg kupoGaveUp marked
        rw [kupoGaveUp_gaveUp, counted, kupoGaveUp_mark] at flagged
        exact absurd flagged (by decide)
      · rintro ⟨_, _, retriggers⟩
        rw [retriggers awaits] at checked
        cases checked
    · rw [counted] at shape
      rcases kupoTrigger_cases (tick.cap settings) state.marker (charged settings state tick) tick.inputs with
        ⟨wall, marked, unposted⟩ | ⟨below, same, _⟩ | ⟨below, _, _, flag, other, marked⟩
      · refine ⟨fun posts => absurd (by rw [ran, shape, unposted]) posts, fun _ => ?_,
          fun settledAt => absurd settledAt unsettled⟩
        rw [ran, shape, marked]
        exact iff_of_true ⟨_, rfl⟩ ⟨read, by omega, retriggers⟩
      · refine ⟨fun _ => below, fun _ => ?_, fun settledAt => absurd settledAt unsettled⟩
        rw [ran, shape, same]
        refine iff_of_false ?_ (fun spent => by omega)
        rintro ⟨attempts, marked⟩
        exact unsettled ⟨_, marked, rfl, rfl, le_refl _⟩
      · refine ⟨fun _ => below, fun _ => ?_, fun settledAt => absurd settledAt unsettled⟩
        rw [ran, shape, marked]
        refine iff_of_false ?_ (fun spent => by omega)
        rintro ⟨attempts, same⟩
        exact absurd (congrArg Cursor.done (Option.some.inj same)) (by simp [mark])

end Steps

/-- **The trigger budget** is kept along every run that raises the cap only where no counted
attempt is outstanding: between two settled markers, and at each raised cap anew, at most
`kupoMaxTriggers` counted triggers, then the flavor gives up and rests. -/
theorem within_budget_of_raised_at_rest {settings : Settings} {marker : Option Cursor} {ticks : List Tick}
    (fresh : spentAttempts marker = 0)
    (met : Runs.EveryStep (step settings) (RaisedAtRest settings) (start marker) ticks) :
    Runs.EveryStep (step settings) (WithinBudget settings) (start marker) ticks := by
  have tracks : Tracks (start marker) := ⟨by simpa [start] using fresh, by simp [start, kupoMaxTriggers]⟩
  refine Runs.everyStep_of_kept (step settings) ?_ ?_ tracks met
  · exact fun atRest tracks stepped => tracks_step atRest tracks stepped
  · exact fun atRest tracks => withinBudget_of_tracks atRest tracks

private def sampleSettings : Settings := ⟨true, true, 500, 5000, 0, 200, 500⟩

/-- A tick whose trigger comes to `post`. -/
private def triggers (maxTxs : Int) (post : PostReply) : Tick :=
  ⟨maxTxs, true, .status 404, .established ⟨900, 90, 5⟩, post⟩

private def gaveUpThenRaised : List Tick :=
  [triggers 100 .unreachable, triggers 100 (.status 503), triggers 100 .conflict, triggers 100 (.status 202),
    triggers 100 .unreachable, triggers 200 .unreachable]

/-- The third counted trigger is the last at cap 100; cap 200 starts with a fresh budget. -/
theorem within_budget_after_giving_up :
    Runs.EveryStep (step sampleSettings) (WithinBudget sampleSettings) (start none) gaveUpThenRaised ∧
      Runs.run (step sampleSettings) (start none) gaveUpThenRaised =
        some ⟨some (mark false 0 1 .noJob), some 200, 1⟩ := by
  have met : Runs.EveryStep (step sampleSettings) (RaisedAtRest sampleSettings) (start none) gaveUpThenRaised := by
    decide +kernel
  exact ⟨within_budget_of_raised_at_rest (by decide) met, by decide +kernel⟩

/-- Raised to 200 after three failed triggers at 100 and before the flavor gave up, the cap gets
no trigger at all. -/
theorem raised_cap_without_a_trigger :
    ∃ state, Runs.run (step sampleSettings) (start none) (List.replicate 3 (triggers 100 .unreachable)) = some state ∧
      ¬ WithinBudget sampleSettings state (triggers 200 (.status 202)) ∧
      charged sampleSettings state (triggers 200 (.status 202)) = 0 ∧
      (triggers 200 (.status 202)).ran sampleSettings state.marker =
        ⟨some (mark true 200 3 .gaveUp), ⟨.skipped, 0, "giving up after 3 host backfill attempts"⟩, none⟩ := by
  refine ⟨⟨some (mark false 0 3 .noJob), some 100, 3⟩, by decide +kernel, fun budget => ?_, by decide +kernel,
    by decide +kernel⟩
  have spent := (budget.givesUp (by decide +kernel)).mp ⟨3, by decide +kernel⟩
  exact absurd spent.2.1 (by decide +kernel)

end TransactionMonitoring.KupoTriggers
