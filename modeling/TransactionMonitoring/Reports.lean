import Mathlib.Algebra.Order.Field.Basic
import Mathlib.Algebra.Order.Field.Rat
import Mathlib.Tactic.Linarith
import TransactionMonitoring.Coverage
import TransactionMonitoring.Faults
import TransactionMonitoring.Runs

/-! The periodic report.

A tick asks whether a report is due, builds it over a window that ends now, sends it to every
channel, and moves the stored boundary to now.  Times are exact seconds; ticks come at any
distance from each other, and the clock does not run backwards.
-/
namespace TransactionMonitoring.Reports
open Coverage Faults

inductive Frequency where
  | daily
  | weekly
  | monthly
  /-- Any other text. -/
  | other
deriving DecidableEq, Repr

/-- `timedelta(days=…)` in seconds. -/
def days (count : Int) : ℚ := 86400 * count

/-- `report_interval`. -/
def reportInterval : Frequency → ℚ
  | .daily => days 1
  | .weekly => days 7
  | .monthly => days 30
  | .other => days 7

/-- `effective_window_days`. -/
def effectiveWindowDays (frequency : Frequency) (windowDays : Int) : Int :=
  if frequency = .daily then 1 else max 1 windowDays

/-- What the send to one channel comes to. -/
inductive Delivery where
  | ok
  | skipped
  | failed
deriving DecidableEq, Repr

/-- `dispatch`: at least one channel delivered. -/
def dispatch (deliveries : List Delivery) : Bool := deliveries.any (· = .ok)

/-- The row of `notification_report_state`. -/
structure ReportState where
  lastSentAt : ℚ
  lastWindowStart : ℚ
  lastWindowEnd : ℚ
deriving DecidableEq

/-- What one tick meets. -/
structure Tick where
  /-- Seconds since the tick before. -/
  elapsed : ℚ
  forward : 0 ≤ elapsed
  enabled : Bool
  frequency : Frequency
  windowDays : Int
  /-- The row was read. -/
  stateRead : Bool
  /-- The report and its attachment were built. -/
  built : Bool
  /-- One send for each channel of `report_dispatches`. -/
  deliveries : List Delivery
  mark : Outcome
deriving DecidableEq

structure Report where
  window : Window ℚ
  delivered : Bool
deriving DecidableEq

structure State where
  now : ℚ
  row : Option ReportState
  /-- The reports sent so far, oldest first. -/
  reports : List Report
deriving DecidableEq

def start (now : ℚ) (row : Option ReportState) : State := ⟨now, row, []⟩

/-- The window of a report sent now. -/
def reportWindow (now : ℚ) (tick : Tick) : Window ℚ where
  start := now - days (effectiveWindowDays tick.frequency tick.windowDays)
  stop := now
  ordered := by
    have positive : (1 : Int) ≤ effectiveWindowDays tick.frequency tick.windowDays := by
      unfold effectiveWindowDays
      split
      · exact le_refl 1
      · exact le_max_left 1 _
    have cast : (1 : ℚ) ≤ (effectiveWindowDays tick.frequency tick.windowDays : ℚ) := by exact_mod_cast positive
    unfold days
    linarith

/-- Whether the tick sends a report: it is enabled, due, has a channel, and nothing raised before. -/
def sends (row : Option ReportState) (now : ℚ) (tick : Tick) : Bool :=
  tick.enabled && tick.stateRead &&
    row.all (fun state => !decide (now < state.lastSentAt + reportInterval tick.frequency)) &&
    !tick.deliveries.isEmpty && tick.built

/-- `_tick`. -/
def tick (state : State) (input : Tick) : State :=
  let now := state.now + input.elapsed
  if sends state.row now input then
    let window := reportWindow now input
    { now
      -- The boundary moves whatever `dispatch` returns.
      row := if input.mark.applies then some ⟨now, window.start, window.stop⟩ else state.row
      reports := state.reports ++ [⟨window, dispatch input.deliveries⟩] }
  else { state with now }

def step (state : State) (input : Tick) : Option State := some (tick state input)

/-- The windows of the reports that reached a channel. -/
def State.delivered (state : State) : List (Window ℚ) :=
  (state.reports.filter Report.delivered).map Report.window

/-- What was delivered covers everything from the first report's window to the last delivered one. -/
def NoGap (state : State) : Prop :=
  ∀ first ∈ state.reports.head?, ∀ last ∈ state.delivered.getLast?,
    Covered state.delivered first.window.start last.stop

/-- Since when time is to be covered by the next delivery: the end of the last delivered window,
or the start of the first report's. -/
def State.since (state : State) : Option ℚ :=
  match state.delivered.getLast? with
  | some last => some last.stop
  | none => state.reports.head?.map fun first => first.window.start

/-- A report that reaches a channel is sent before more time has passed than its window holds. -/
def InTime (state : State) (input : Tick) : Prop :=
  let now := state.now + input.elapsed
  sends state.row now input = true → dispatch input.deliveries = true →
    ∀ since ∈ state.since, now - since ≤ days (effectiveWindowDays input.frequency input.windowDays)

/-! ## Steps -/

/-- Windows follow the clock. -/
structure Ordered (state : State) : Prop where
  past : ∀ report ∈ state.reports, report.window.stop ≤ state.now
  sorted : state.reports.Pairwise fun earlier later => earlier.window.stop ≤ later.window.stop

theorem ordered_start (now : ℚ) (row : Option ReportState) : Ordered (start now row) where
  past := by simp [start]
  sorted := List.Pairwise.nil

theorem ordered_step {state next : State} {input : Tick} (ordered : Ordered state)
    (stepped : step state input = some next) : Ordered next := by
  obtain rfl := Option.some.inj stepped
  have later : ∀ report ∈ state.reports, report.window.stop ≤ state.now + input.elapsed := by
    intro report member
    linarith [ordered.past report member, input.forward]
  simp only [tick]
  split
  · refine ⟨Runs.forall_mem_concat later (le_refl _), ?_⟩
    refine List.pairwise_append.mpr ⟨ordered.sorted, List.pairwise_singleton _ _, ?_⟩
    intro report member added single
    obtain rfl := List.mem_singleton.mp single
    exact later report member
  · exact ⟨later, ordered.sorted⟩

section Deliveries

variable {state : State} {first : Report} {last : Window ℚ}

theorem delivered_nil_of_reports (none : state.reports = []) : state.delivered = [] := by
  simp [State.delivered, none]

theorem delivered_last_bounds (ordered : Ordered state) (ends : state.delivered.getLast? = some last) :
    ∀ window ∈ state.delivered, window.stop ≤ last.stop := by
  have sorted : state.delivered.Pairwise fun earlier later => earlier.stop ≤ later.stop := by
    refine List.Pairwise.map Report.window (fun _ _ below => below) ?_
    exact ordered.sorted.sublist List.filter_sublist
  obtain ⟨before, shape⟩ := List.getLast?_eq_some_iff.mp ends
  rw [shape] at sorted ⊢
  refine Runs.forall_mem_concat (fun window member => ?_) (le_refl last.stop)
  exact (List.pairwise_append.mp sorted).2.2 window member last (List.mem_singleton_self last)

theorem first_start_le (ordered : Ordered state) (heads : state.reports.head? = some first)
    {report : Report} (member : report ∈ state.reports) : first.window.start ≤ report.window.stop := by
  obtain ⟨rest, shape⟩ := List.head?_eq_some_iff.mp heads
  have sorted := ordered.sorted
  rw [shape] at sorted member
  rcases List.mem_cons.mp member with rfl | later
  · exact report.window.ordered
  · exact le_trans first.window.ordered ((List.pairwise_cons.mp sorted).1 report later)

theorem mem_delivered {window : Window ℚ} (member : window ∈ state.delivered) :
    ∃ report ∈ state.reports, report.window = window := by
  obtain ⟨report, kept, same⟩ := List.mem_map.mp member
  exact ⟨report, List.mem_of_mem_filter kept, same⟩

end Deliveries

theorem delivered_concat (state : State) (now : ℚ) (row : Option ReportState) (report : Report) :
    State.delivered ⟨now, row, state.reports ++ [report]⟩ =
      state.delivered ++ if report.delivered then [report.window] else [] := by
  cases sent : report.delivered <;> simp [State.delivered, List.filter_append, sent]

/-- A report that reaches nobody leaves no gap; it may open the time to be covered. -/
theorem noGap_concat_undelivered {state : State} (noGap : NoGap state) (now : ℚ) (row : Option ReportState)
    (window : Window ℚ) : NoGap ⟨now, row, state.reports ++ [⟨window, false⟩]⟩ := by
  intro first heads last ends
  rw [delivered_concat] at ends ⊢
  simp only [Bool.false_eq_true, if_false, List.append_nil] at ends ⊢
  cases reports : state.reports with
  | nil =>
    rw [delivered_nil_of_reports reports] at ends
    cases ends
  | cons oldest rest =>
    rw [reports] at heads
    exact noGap first (by simpa [reports] using heads) last ends

/-- A delivered report leaves no gap exactly if it starts where the covered time ends, or before. -/
theorem noGap_concat_delivered_iff {state : State} (ordered : Ordered state) (noGap : NoGap state) {now : ℚ}
    (row : Option ReportState) {window : Window ℚ} (later : state.now ≤ window.stop) :
    NoGap ⟨now, row, state.reports ++ [⟨window, true⟩]⟩ ↔ ∀ since ∈ state.since, window.start ≤ since := by
  simp only [NoGap, delivered_concat, if_true, List.getLast?_concat, Option.mem_some_iff, forall_eq']
  cases reports : state.reports with
  | nil =>
    have none : state.delivered = [] := delivered_nil_of_reports reports
    simp [State.since, none, reports, covered_singleton_iff window.ordered]
  | cons oldest rest =>
    have heads : state.reports.head? = some oldest := by simp [reports]
    have member : oldest ∈ state.reports := by simp [reports]
    simp only [List.cons_append, List.head?_cons, Option.mem_some_iff, forall_eq']
    cases ends : state.delivered.getLast? with
    | none =>
      have none : state.delivered = [] := List.getLast?_eq_none_iff.mp ends
      have below : oldest.window.start ≤ window.stop :=
        le_trans (le_trans oldest.window.ordered (ordered.past oldest member)) later
      simp [State.since, none, reports, covered_singleton_iff below]
    | some last =>
      obtain ⟨report, found, rfl⟩ := mem_delivered (List.mem_of_getLast? ends)
      have below := first_start_le ordered heads found
      simp [State.since, ends,
        covered_concat_iff (noGap oldest heads _ ends) below (delivered_last_bounds ordered ends)]

theorem noGap_step_iff {state : State} {input : Tick} (ordered : Ordered state) (noGap : NoGap state) :
    (∀ next, step state input = some next → NoGap next) ↔ InTime state input := by
  simp only [step, Option.some.injEq, forall_eq']
  unfold InTime
  by_cases sent : sends state.row (state.now + input.elapsed) input = true
  · simp only [tick, sent, if_true, true_implies]
    cases reached : dispatch input.deliveries with
    | false =>
      simp only [Bool.false_eq_true, false_implies, iff_true]
      exact noGap_concat_undelivered noGap _ _ _
    | true =>
      have later : state.now ≤ (reportWindow (state.now + input.elapsed) input).stop := by
        simpa [reportWindow] using input.forward
      rw [noGap_concat_delivered_iff ordered noGap _ later]
      simp only [true_implies, reportWindow]
      refine forall_congr' fun since => imp_congr_right fun _ => ?_
      constructor
      · intro starts
        linarith
      · intro short
        linarith
  · simp only [tick, sent, Bool.false_eq_true, if_false, false_implies, iff_true]
    exact noGap

/-- **Periodic reports leave no gap** along a run exactly if every report that reaches a channel
is sent before more time has passed, since the last one that did, than its window holds. -/
theorem no_gap_iff_in_time (now : ℚ) (row : Option ReportState) (ticks : List Tick) :
    Runs.EveryStep step (fun state input => ∀ next, step state input = some next → NoGap next) (start now row) ticks ↔
      Runs.EveryStep step InTime (start now row) ticks := by
  have ordered := Runs.everyStep_of_invariant step ordered_step (ordered_start now row) ticks
  have initially : NoGap (start now row) := by
    intro first heads
    cases heads
  exact Runs.everyStep_iff_of step (fun noGap ordered => noGap_step_iff ordered noGap) initially ordered

private def daily (elapsed : ℚ) (forward : 0 ≤ elapsed) (delivery : Delivery) : Tick :=
  ⟨elapsed, forward, true, .daily, 7, true, true, [delivery], .answered⟩

private def dayTick (delivery : Delivery) : Tick := daily 86400 (by decide +kernel) delivery

private def firstTick : Tick := daily 0 (le_refl 0) .ok

/-- The second of three daily reports reaches nobody: its day is in no delivered window. -/
theorem gap_after_a_day_undelivered :
    ∃ state, Runs.run step (start 0 none) [firstTick, dayTick .failed, dayTick .ok] = some state ∧ ¬ NoGap state := by
  refine ⟨_, rfl, fun noGap => ?_⟩
  have covered := noGap ⟨reportWindow 0 firstTick, true⟩ (by decide +kernel)
    (reportWindow 172800 (dayTick .ok)) (by decide +kernel) 43200 (by decide +kernel) (by decide +kernel)
  exact absurd covered (by decide +kernel)

end TransactionMonitoring.Reports
