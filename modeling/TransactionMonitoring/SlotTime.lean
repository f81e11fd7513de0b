import Mathlib.Data.List.Chain
import Mathlib.Data.List.TakeWhile
import Mathlib.Data.Rat.Cast.Order
import Mathlib.Tactic.Linarith
import TransactionMonitoring.SortedWindows

/-! Chain time from era summaries.

The converter picks an era by slot and counts on from its start in its slot length.  Times and
durations are exact seconds, the network's start included.
-/
namespace TransactionMonitoring.SlotTime

/-- A duration as Ogmios encodes it. -/
inductive Duration where
  | seconds (number : ℚ)
  | milliseconds (number : ℚ)
  | bare (number : ℚ)
deriving DecidableEq, Repr

/-- `_seconds_of`. -/
def secondsOf : Duration → ℚ
  | .seconds number => number
  | .milliseconds number => number / 1000
  | .bare number => number

structure Bound where
  slot : Nat
  time : Duration
deriving DecidableEq, Repr

/-- An era summary of `queryLedgerState/eraSummaries`; the end's time is never read. -/
structure Summary where
  start : Bound
  endBound : Option Bound
  slotLength : Duration
deriving DecidableEq, Repr

/-- The tuple the converter keeps of a summary. -/
structure Era where
  startSlot : Nat
  offsetSeconds : ℚ
  slotLength : ℚ
  endSlot : Option Nat
deriving DecidableEq, Repr

def Summary.era (summary : Summary) : Era :=
  ⟨summary.start.slot, secondsOf summary.start.time, secondsOf summary.slotLength,
    summary.endBound.map Bound.slot⟩

structure SlotTimeConverter where
  systemStart : ℚ
  eras : List Era
  sorted : eras.Pairwise (·.startSlot ≤ ·.startSlot)

/-- `SlotTimeConverter.__init__`. -/
def SlotTimeConverter.init (systemStart : ℚ) (eras : List Era) : SlotTimeConverter :=
  ⟨systemStart, eras.insertionSort (·.startSlot ≤ ·.startSlot), SortedWindows.pairwise_insertionSort Era.startSlot eras⟩

/-- `from_ogmios`, of results that have the shape. -/
def SlotTimeConverter.fromOgmios (systemStart : ℚ) (summaries : List Summary) : Option SlotTimeConverter :=
  if summaries = [] then none
  else if ∃ summary ∈ summaries, secondsOf summary.slotLength ≤ 0 then none
  else some (.init systemStart (summaries.map Summary.era))

/-- The loop over the sorted eras: the last that has started, up to the first that has not. -/
def lastStarted (slot : ℤ) (era : Option Era) : List Era → Option Era
  | [] => era
  | candidate :: rest =>
      if candidate.startSlot ≤ slot then lastStarted slot (some candidate) rest else era

/-- `end_slot is not None and slot >= end_slot`. -/
def Era.ended (era : Era) (slot : ℤ) : Bool :=
  match era.endSlot with
  | none => false
  | some bound => bound ≤ slot

/-- `offset_seconds + (slot - start_slot) * slot_length`. -/
def Era.secondsAt (era : Era) (slot : ℤ) : ℚ :=
  era.offsetSeconds + (slot - era.startSlot) * era.slotLength

def SlotTimeConverter.slotToUtc (converter : SlotTimeConverter) : Option ℤ → Option ℚ
  | none => none
  | some slot =>
      if slot < 0 then none
      else match lastStarted slot none converter.eras with
        | none => none
        | some era =>
            -- No era after an equal one is passed over, so being equal to the last is being the last.
            if converter.eras.getLast? = some era ∧ era.ended slot then none
            else some (converter.systemStart + era.secondsAt slot)

/-- A converter of Ogmios results has positive slot lengths only. -/
theorem fromOgmios_eq_some_iff {systemStart : ℚ} {summaries : List Summary} {converter : SlotTimeConverter} :
    SlotTimeConverter.fromOgmios systemStart summaries = some converter ↔
      summaries ≠ [] ∧ (∀ summary ∈ summaries, 0 < secondsOf summary.slotLength) ∧
        converter = .init systemStart (summaries.map Summary.era) := by
  unfold SlotTimeConverter.fromOgmios
  by_cases empty : summaries = []
  · simp [empty]
  · by_cases stopped : ∃ summary ∈ summaries, secondsOf summary.slotLength ≤ 0
    · obtain ⟨summary, member, le⟩ := stopped
      have some' : ∃ summary ∈ summaries, secondsOf summary.slotLength ≤ 0 := ⟨summary, member, le⟩
      rw [if_neg empty, if_pos some']
      constructor
      · intro impossible
        cases impossible
      · rintro ⟨-, positive, -⟩
        exact absurd (positive summary member) (not_lt.mpr le)
    · have positive : ∀ summary ∈ summaries, 0 < secondsOf summary.slotLength := by
        intro summary member
        exact not_le.mp fun le => stopped ⟨summary, member, le⟩
      rw [if_neg empty, if_neg stopped, Option.some.injEq]
      exact ⟨fun same => ⟨empty, positive, same.symm⟩, fun ⟨_, _, same⟩ => same.symm⟩

/-- The loop stops at the first era that has not started, and has passed the others. -/
theorem lastStarted_eq (slot : ℤ) (era : Option Era) (eras : List Era) :
    lastStarted slot era eras = ((eras.takeWhile (·.startSlot ≤ slot)).getLast?).or era := by
  induction eras generalizing era with
  | nil => rfl
  | cons candidate rest ih =>
    by_cases started : (candidate.startSlot : ℤ) ≤ slot
    · rw [lastStarted, if_pos started, ih, List.takeWhile_cons_of_pos (by simpa using started)]
      cases rest.takeWhile (·.startSlot ≤ slot) with
      | nil => rfl
      | cons head tail =>
        rw [List.getLast?_cons_cons, List.getLast?_cons]
        rfl
    · rw [lastStarted, if_neg started, List.takeWhile_cons_of_neg (by simpa using started)]
      rfl

/-- The eras the loop does not reach have not started. -/
theorem not_started_of_dropWhile {slot : ℤ} {eras : List Era} (sorted : eras.Pairwise (·.startSlot ≤ ·.startSlot))
    {later : Era} (member : later ∈ eras.dropWhile (·.startSlot ≤ slot)) : slot < later.startSlot := by
  have suffix : (eras.dropWhile (·.startSlot ≤ slot)).Pairwise (·.startSlot ≤ ·.startSlot) :=
    sorted.sublist (List.dropWhile_sublist _)
  cases shape : eras.dropWhile (·.startSlot ≤ slot) with
  | nil => simp [shape] at member
  | cons first rest =>
    have notStarted : slot < first.startSlot := by
      have head := List.head?_dropWhile_not (fun era : Era => decide ((era.startSlot : ℤ) ≤ slot)) eras
      rw [shape] at head
      simpa using head
    rw [shape] at member suffix
    rcases List.mem_cons.mp member with rfl | further
    · exact notStarted
    · have le := (List.pairwise_cons.mp suffix).1 later further
      omega

/-- The era picked of sorted eras: it has started, and no era after it has. -/
theorem lastStarted_eq_some_iff {slot : ℤ} {eras : List Era} (sorted : eras.Pairwise (·.startSlot ≤ ·.startSlot))
    {era : Era} :
    lastStarted slot none eras = some era ↔
      ∃ before after, eras = before ++ era :: after ∧ era.startSlot ≤ slot ∧
        ∀ later ∈ after, slot < later.startSlot := by
  rw [lastStarted_eq, Option.or_none]
  constructor
  · intro picked
    obtain ⟨before, split⟩ := List.getLast?_eq_some_iff.mp picked
    refine ⟨before, eras.dropWhile (·.startSlot ≤ slot), ?_, ?_, ?_⟩
    · calc eras = eras.takeWhile (·.startSlot ≤ slot) ++ eras.dropWhile (·.startSlot ≤ slot) :=
            List.takeWhile_append_dropWhile.symm
        _ = before ++ era :: eras.dropWhile (·.startSlot ≤ slot) := by rw [split, List.append_assoc]; rfl
    · have member : era ∈ eras.takeWhile (·.startSlot ≤ slot) := by simp [split]
      simpa using List.mem_takeWhile_imp member
    · intro later member
      exact not_started_of_dropWhile sorted member
  · rintro ⟨before, after, rfl, started, notYet⟩
    have passed : ∀ earlier ∈ before, (earlier.startSlot : ℤ) ≤ slot := by
      intro earlier member
      have le := (List.pairwise_append.mp sorted).2.2 earlier member era List.mem_cons_self
      omega
    have stops : after.takeWhile (·.startSlot ≤ slot) = [] := by
      cases after with
      | nil => rfl
      | cons first rest =>
        have later := notYet first List.mem_cons_self
        exact List.takeWhile_cons_of_neg (by simpa using later)
    rw [List.takeWhile_append_of_pos (by simpa using passed), List.takeWhile_cons_of_pos (by simpa using started),
      stops]
    simp

/-- The slots of an era. -/
def Era.Covers (era : Era) (slot : ℤ) : Prop :=
  era.startSlot ≤ slot ∧ ∀ bound, era.endSlot = some bound → slot < bound

/-- The later era starts where the earlier ends, in slots and in time. -/
def Era.Adjacent (earlier later : Era) : Prop :=
  0 < earlier.slotLength ∧ 0 < later.slotLength ∧ earlier.startSlot ≤ later.startSlot ∧
    earlier.endSlot = some later.startSlot ∧ earlier.secondsAt later.startSlot = later.offsetSeconds

/-- The earlier era is over, in slots and in time, when the later starts. -/
def Era.Precedes (earlier later : Era) : Prop :=
  0 < earlier.slotLength ∧ 0 < later.slotLength ∧
    (∃ bound, earlier.endSlot = some bound ∧ earlier.startSlot ≤ bound ∧ bound ≤ later.startSlot ∧
      earlier.secondsAt bound ≤ later.offsetSeconds) ∧
    (earlier.startSlot = later.startSlot → earlier.offsetSeconds = later.offsetSeconds)

section Eras
variable {era earlier later : Era} {slot next : ℤ}

@[simp] theorem secondsAt_startSlot (era : Era) : era.secondsAt era.startSlot = era.offsetSeconds := by
  simp [Era.secondsAt]

theorem secondsAt_lt (positive : 0 < era.slotLength) (before : slot < next) :
    era.secondsAt slot < era.secondsAt next := by
  have cast : (slot : ℚ) < next := by exact_mod_cast before
  have counted : (slot - era.startSlot : ℚ) * era.slotLength < (next - era.startSlot) * era.slotLength := by
    apply mul_lt_mul_of_pos_right _ positive
    linarith
  unfold Era.secondsAt
  linarith

theorem secondsAt_le (positive : 0 < era.slotLength) (before : slot ≤ next) :
    era.secondsAt slot ≤ era.secondsAt next := by
  rcases before.eq_or_lt with rfl | less
  · exact le_rfl
  · exact (secondsAt_lt positive less).le

theorem offsetSeconds_le (positive : 0 < era.slotLength) (started : era.startSlot ≤ slot) :
    era.offsetSeconds ≤ era.secondsAt slot := by
  rw [← secondsAt_startSlot]
  exact secondsAt_le positive started

theorem precedes_of_adjacent (adjacent : earlier.Adjacent later) : earlier.Precedes later := by
  obtain ⟨positive, laterPositive, ordered, ends, meets⟩ := adjacent
  refine ⟨positive, laterPositive, ⟨later.startSlot, ends, ordered, le_rfl, meets.le⟩, ?_⟩
  intro same
  rw [← meets, ← same, secondsAt_startSlot]

theorem Era.Precedes.trans {middle : Era} (first : earlier.Precedes middle) (second : middle.Precedes later) :
    earlier.Precedes later := by
  obtain ⟨positive, middlePositive, ⟨bound, ends, starts, before, meets⟩, same⟩ := first
  obtain ⟨-, laterPositive, ⟨middleBound, -, middleStarts, middleBefore, middleMeets⟩, middleSame⟩ := second
  refine ⟨positive, laterPositive, ⟨bound, ends, starts, by omega, ?_⟩, ?_⟩
  · calc earlier.secondsAt bound ≤ middle.offsetSeconds := meets
      _ ≤ middle.secondsAt middleBound := offsetSeconds_le middlePositive (by exact_mod_cast middleStarts)
      _ ≤ later.offsetSeconds := middleMeets
  · intro equal
    rw [same (by omega), middleSame (by omega)]

theorem startSlot_le (precedes : earlier.Precedes later) : earlier.startSlot ≤ later.startSlot := by
  obtain ⟨-, -, ⟨bound, -, starts, before, -⟩, -⟩ := precedes
  omega

/-- A slot of an era comes before every era that the era precedes. -/
theorem lt_of_covers (precedes : earlier.Precedes later) (covers : earlier.Covers slot) : slot < later.startSlot := by
  obtain ⟨-, -, ⟨bound, ends, -, before, -⟩, -⟩ := precedes
  have inside := covers.2 bound ends
  omega

/-- The time of a slot of an era comes before the start of every era that the era precedes. -/
theorem secondsAt_lt_offsetSeconds (precedes : earlier.Precedes later) (covers : earlier.Covers slot) :
    earlier.secondsAt slot < later.offsetSeconds := by
  obtain ⟨positive, -, ⟨bound, ends, -, -, meets⟩, -⟩ := precedes
  have inside : slot < bound := covers.2 bound ends
  exact (secondsAt_lt positive inside).trans_le meets

theorem pairwise_precedes {eras : List Era} (contiguous : eras.IsChain Era.Adjacent) :
    eras.Pairwise Era.Precedes := by
  have transitive : Trans Era.Precedes Era.Precedes Era.Precedes := ⟨Era.Precedes.trans⟩
  apply List.isChain_iff_pairwise.mp
  exact contiguous.imp fun _ _ => precedes_of_adjacent

theorem eq_or_precedes {eras : List Era} (ordered : eras.Pairwise Era.Precedes) (member : era ∈ eras)
    (otherMember : later ∈ eras) : era = later ∨ era.Precedes later ∨ later.Precedes era := by
  have symmetric : Std.Symm fun first second : Era =>
      first = second ∨ first.Precedes second ∨ second.Precedes first := by
    refine ⟨?_⟩
    rintro first second (rfl | before | after)
    · exact .inl rfl
    · exact .inr (.inr before)
    · exact .inr (.inl after)
  apply List.Pairwise.forall_of_forall (R := fun first second : Era =>
    first = second ∨ first.Precedes second ∨ second.Precedes first) _ _ member otherMember
  · intro element _
    exact .inl rfl
  · exact ordered.imp fun before => .inr (.inl before)

/-- Later slots have later times, in one era or across eras. -/
theorem secondsAt_strictMono {eras : List Era} (ordered : eras.Pairwise Era.Precedes)
    (positive : ∀ era ∈ eras, 0 < era.slotLength) (member : earlier ∈ eras) (laterMember : later ∈ eras)
    (covers : earlier.Covers slot) (laterCovers : later.Covers next) (before : slot < next) :
    earlier.secondsAt slot < later.secondsAt next := by
  rcases eq_or_precedes ordered member laterMember with rfl | precedes | follows
  · exact secondsAt_lt (positive earlier member) before
  · calc earlier.secondsAt slot < later.offsetSeconds := secondsAt_lt_offsetSeconds precedes covers
      _ ≤ later.secondsAt next := offsetSeconds_le (positive later laterMember) laterCovers.1
  · have after := lt_of_covers follows laterCovers
    have started := covers.1
    omega

theorem exists_covers {first : Era} {rest : List Era} (contiguous : (first :: rest).IsChain Era.Adjacent)
    (started : first.startSlot ≤ slot)
    (notOver : ∀ last bound, (first :: rest).getLast? = some last → last.endSlot = some bound → slot < bound) :
    ∃ era ∈ first :: rest, era.Covers slot := by
  induction rest generalizing first with
  | nil => exact ⟨first, List.mem_cons_self, started, fun bound ends => notOver first bound rfl ends⟩
  | cons second rest ih =>
    obtain ⟨adjacent, later⟩ := List.isChain_cons_cons.mp contiguous
    by_cases secondStarted : (second.startSlot : ℤ) ≤ slot
    · rw [List.getLast?_cons_cons] at notOver
      obtain ⟨era, member, covers⟩ := ih later secondStarted notOver
      exact ⟨era, List.mem_cons_of_mem first member, covers⟩
    · refine ⟨first, List.mem_cons_self, started, ?_⟩
      intro bound ends
      obtain ⟨-, -, -, meets, -⟩ := adjacent
      obtain rfl := Option.some.inj (meets.symm.trans ends)
      exact not_le.mp secondStarted

/-- Contiguous eras cover what lies between the first start and the last end. -/
theorem exists_covers_iff {eras : List Era} (contiguous : eras.IsChain Era.Adjacent)
    (bounded : ∀ era ∈ eras, ∀ bound, era.endSlot = some bound → era.startSlot ≤ bound) :
    (∃ era ∈ eras, era.Covers slot) ↔
      (∃ first, eras.head? = some first ∧ first.startSlot ≤ slot) ∧
        ∀ last bound, eras.getLast? = some last → last.endSlot = some bound → slot < bound := by
  have ordered := pairwise_precedes contiguous
  constructor
  · rintro ⟨era, member, covers⟩
    refine ⟨?_, ?_⟩
    · cases eras with
      | nil => cases member
      | cons first rest =>
        refine ⟨first, rfl, ?_⟩
        have started := covers.1
        rcases List.mem_cons.mp member with rfl | later
        · exact started
        · have le := startSlot_le ((List.pairwise_cons.mp ordered).1 era later)
          omega
    · intro last bound isLast ends
      obtain ⟨earlier, rfl⟩ := List.getLast?_eq_some_iff.mp isLast
      rcases List.mem_append.mp member with before | here
      · have inside := lt_of_covers ((List.pairwise_append.mp ordered).2.2 era before last (by simp)) covers
        have le := bounded last (by simp) bound ends
        omega
      · obtain rfl := List.mem_singleton.mp here
        exact covers.2 bound ends
  · rintro ⟨⟨first, isFirst, started⟩, notOver⟩
    cases eras with
    | nil => cases isFirst
    | cons head rest =>
      obtain rfl := Option.some.inj isFirst
      exact exists_covers contiguous started notOver

theorem ended_eq_false_iff : era.ended slot = false ↔ ∀ bound, era.endSlot = some bound → slot < bound := by
  unfold Era.ended
  cases era.endSlot with
  | none => simp
  | some bound => simp

/-- The era picked covers the slot unless the slot is beyond the horizon. -/
theorem covers_of_picked {eras before after : List Era} (contiguous : eras.IsChain Era.Adjacent)
    (split : eras = before ++ era :: after) (started : era.startSlot ≤ slot)
    (notYet : ∀ later ∈ after, slot < later.startSlot)
    (within : ¬(eras.getLast? = some era ∧ era.ended slot = true)) : era.Covers slot := by
  refine ⟨started, ?_⟩
  cases after with
  | nil =>
    have isLast : eras.getLast? = some era := by rw [split, List.getLast?_concat]
    exact ended_eq_false_iff.mp (Bool.eq_false_iff.mpr fun beyond => within ⟨isLast, beyond⟩)
  | cons later rest =>
    rw [split] at contiguous
    obtain ⟨-, -, -, meets, -⟩ := (List.isChain_append_cons_cons.mp contiguous).2.1
    intro bound ends
    obtain rfl := Option.some.inj (meets.symm.trans ends)
    exact notYet later List.mem_cons_self

/-- An era that covers the slot is the one picked. -/
theorem picked_of_covers {eras : List Era} (ordered : eras.Pairwise Era.Precedes) (member : era ∈ eras)
    (covers : era.Covers slot) : lastStarted slot none eras = some era := by
  obtain ⟨before, after, rfl⟩ := List.append_of_mem member
  apply (lastStarted_eq_some_iff (ordered.imp startSlot_le)).mpr
  refine ⟨before, after, rfl, covers.1, ?_⟩
  intro later laterMember
  have follows := (List.pairwise_append.mp ordered).2.1
  exact lt_of_covers ((List.pairwise_cons.mp follows).1 later laterMember) covers

/-- At the start of an era the era that covers it has the same time: only empty eras come between. -/
theorem secondsAt_of_covers_start {eras : List Era} (ordered : eras.Pairwise Era.Precedes) (member : era ∈ eras)
    (laterMember : later ∈ eras) (covers : era.Covers later.startSlot) :
    era.secondsAt later.startSlot = later.offsetSeconds := by
  rcases eq_or_precedes ordered member laterMember with rfl | precedes | follows
  · exact secondsAt_startSlot era
  · exact absurd (lt_of_covers precedes covers) (lt_irrefl _)
  · have started := covers.1
    have le := startSlot_le follows
    have same : later.startSlot = era.startSlot := by omega
    rw [same, secondsAt_startSlot]
    exact (follows.2.2.2 same).symm

end Eras

section Converter
variable {converter : SlotTimeConverter} {slot : ℤ}

/-- Over contiguous eras the time of a slot is that of the era which covers it. -/
theorem slotToUtc_eq_some_iff (contiguous : converter.eras.IsChain Era.Adjacent) {time : ℚ} :
    converter.slotToUtc (some slot) = some time ↔
      ∃ era ∈ converter.eras, era.Covers slot ∧ time = converter.systemStart + era.secondsAt slot := by
  constructor
  · intro answered
    unfold SlotTimeConverter.slotToUtc at answered
    by_cases negative : slot < 0
    · simp [negative] at answered
    · simp only [negative, if_false] at answered
      cases picked : lastStarted slot none converter.eras with
      | none => simp [picked] at answered
      | some era =>
        obtain ⟨before, after, split, started, notYet⟩ := (lastStarted_eq_some_iff converter.sorted).mp picked
        simp only [picked] at answered
        split at answered
        · cases answered
        · next within =>
          refine ⟨era, by simp [split], covers_of_picked contiguous split started notYet within, ?_⟩
          exact (Option.some.inj answered).symm
  · rintro ⟨era, member, covers, rfl⟩
    have picked := picked_of_covers (pairwise_precedes contiguous) member covers
    have natural : ¬slot < 0 := by
      have started := covers.1
      omega
    have within : ¬(converter.eras.getLast? = some era ∧ era.ended slot = true) := by
      rintro ⟨-, ended⟩
      rw [ended_eq_false_iff.mpr covers.2] at ended
      cases ended
    unfold SlotTimeConverter.slotToUtc
    simp only [natural, if_false, picked]
    rw [if_neg within]

theorem slotToUtc_eq_none_iff (contiguous : converter.eras.IsChain Era.Adjacent) :
    converter.slotToUtc (some slot) = none ↔ ¬∃ era ∈ converter.eras, era.Covers slot := by
  constructor
  · rintro unanswered ⟨era, member, covers⟩
    have answered := (slotToUtc_eq_some_iff contiguous).mpr ⟨era, member, covers, rfl⟩
    rw [unanswered] at answered
    cases answered
  · intro uncovered
    apply Option.eq_none_iff_forall_not_mem.mpr
    intro time answered
    obtain ⟨era, member, covers, -⟩ := (slotToUtc_eq_some_iff contiguous).mp answered
    exact uncovered ⟨era, member, covers⟩

/-- Later slots have later times. -/
theorem slotToUtc_strictMono (contiguous : converter.eras.IsChain Era.Adjacent)
    (positive : ∀ era ∈ converter.eras, 0 < era.slotLength) {next : ℤ} {time nextTime : ℚ} (before : slot < next)
    (answered : converter.slotToUtc (some slot) = some time)
    (nextAnswered : converter.slotToUtc (some next) = some nextTime) : time < nextTime := by
  obtain ⟨era, member, covers, rfl⟩ := (slotToUtc_eq_some_iff contiguous).mp answered
  obtain ⟨later, laterMember, laterCovers, rfl⟩ := (slotToUtc_eq_some_iff contiguous).mp nextAnswered
  have ordered := pairwise_precedes contiguous
  exact add_lt_add_right (secondsAt_strictMono ordered positive member laterMember covers laterCovers before) _

/-- The first slot of an era has the time at which the era starts, if it has one. -/
theorem slotToUtc_startSlot (contiguous : converter.eras.IsChain Era.Adjacent) {later : Era}
    (member : later ∈ converter.eras) {time : ℚ} (answered : converter.slotToUtc (some later.startSlot) = some time) :
    time = converter.systemStart + later.offsetSeconds := by
  obtain ⟨era, eraMember, covers, rfl⟩ := (slotToUtc_eq_some_iff contiguous).mp answered
  rw [secondsAt_of_covers_start (pairwise_precedes contiguous) eraMember member covers]

end Converter

/-- What a summary says of its own end: it is not before the start, and it comes as many slot
lengths after the start as there are slots. -/
def Summary.Timed (summary : Summary) : Prop :=
  ∀ bound, summary.endBound = some bound →
    summary.start.slot ≤ bound.slot ∧
      secondsOf bound.time =
        secondsOf summary.start.time + (bound.slot - summary.start.slot) * secondsOf summary.slotLength

/-- Each summary ends where the next starts. -/
def Contiguous (chain : List Summary) : Prop :=
  (∀ summary ∈ chain, summary.Timed) ∧
    chain.IsChain fun earlier later =>
      ∃ bound, earlier.endBound = some bound ∧ bound.slot = later.start.slot ∧
        secondsOf bound.time = secondsOf later.start.time

theorem adjacent_of_contiguous {chain : List Summary} (contiguous : Contiguous chain)
    (positive : ∀ summary ∈ chain, 0 < secondsOf summary.slotLength) :
    (chain.map Summary.era).IsChain Era.Adjacent := by
  obtain ⟨timed, meets⟩ := contiguous
  apply (List.isChain_map Summary.era).mpr
  apply meets.imp_of_mem_imp
  rintro earlier later member laterMember ⟨bound, ends, slots, times⟩
  obtain ⟨ordered, counted⟩ := timed earlier member bound ends
  refine ⟨positive earlier member, positive later laterMember, ?_, ?_, ?_⟩
  · exact ordered.trans_eq slots
  · simp [Summary.era, ends, slots]
  · rw [slots] at counted
    simp only [Era.secondsAt, Summary.era]
    push_cast
    linarith

theorem startSlot_le_of_timed {summary : Summary} (timed : summary.Timed) {bound : Nat}
    (ends : summary.era.endSlot = some bound) : summary.era.startSlot ≤ bound := by
  obtain ⟨endBound, found, rfl⟩ := Option.map_eq_some_iff.mp ends
  exact (timed endBound found).1

/-- The summaries in any order sort to the contiguous ones, if those of one start slot come in
their order. -/
theorem init_eras {summaries chain : List Summary} (systemStart : ℚ)
    (sorted : (chain.map Summary.era).Pairwise (·.startSlot ≤ ·.startSlot))
    (rearranged : ∀ slot, summaries.filter (·.start.slot = slot) = chain.filter (·.start.slot = slot)) :
    (SlotTimeConverter.init systemStart (summaries.map Summary.era)).eras = chain.map Summary.era := by
  apply SortedWindows.insertionSort_eq_of_filter_eq Era.startSlot sorted
  intro slot
  rw [List.filter_map, List.filter_map]
  exact congrArg (List.map Summary.era) (rearranged slot)

/-- For contiguous era summaries of positive slot lengths, which the converter may be given in
another order: later slots have later times; adjacent eras agree on their common boundary, where
the converter gives that time or none; and the slots without a time are those before the first
era and those at or beyond the end of a bounded last era. -/
theorem slot_time_consistent (systemStart : ℚ) (summaries chain : List Summary) (contiguous : Contiguous chain)
    (positive : ∀ summary ∈ chain, 0 < secondsOf summary.slotLength)
    (rearranged : ∀ slot, summaries.filter (·.start.slot = slot) = chain.filter (·.start.slot = slot)) :
    let converter := SlotTimeConverter.init systemStart (summaries.map Summary.era)
    (∀ slot next time nextTime, slot < next → converter.slotToUtc (some slot) = some time →
        converter.slotToUtc (some next) = some nextTime → time < nextTime) ∧
      (∀ before earlier later after, chain = before ++ earlier :: later :: after →
        let boundary := later.start.slot
        earlier.era.secondsAt boundary = later.era.secondsAt boundary ∧
          ∀ time, converter.slotToUtc (some boundary) = some time →
            time = systemStart + later.era.secondsAt boundary) ∧
      ∀ slot, converter.slotToUtc (some slot) = none ↔
        (∀ first, chain.head? = some first → slot < first.start.slot) ∨
          ∃ last bound, chain.getLast? = some last ∧ last.endBound = some bound ∧ bound.slot ≤ slot := by
  intro converter
  have adjacent := adjacent_of_contiguous contiguous positive
  have ordered := pairwise_precedes adjacent
  have eras : converter.eras = chain.map Summary.era :=
    init_eras systemStart (ordered.imp startSlot_le) rearranged
  have erasAdjacent : converter.eras.IsChain Era.Adjacent := eras ▸ adjacent
  refine ⟨?_, ?_, ?_⟩
  · intro slot next time nextTime before answered nextAnswered
    have lengths : ∀ era ∈ converter.eras, 0 < era.slotLength := by
      intro era member
      rw [eras] at member
      obtain ⟨summary, summaryMember, rfl⟩ := List.mem_map.mp member
      exact positive summary summaryMember
    exact slotToUtc_strictMono erasAdjacent lengths before answered nextAnswered
  · rintro before earlier later after rfl boundary
    have start : later.era.secondsAt boundary = later.era.offsetSeconds := secondsAt_startSlot later.era
    refine ⟨?_, ?_⟩
    · rw [List.map_append] at adjacent
      obtain ⟨-, -, -, -, meets⟩ := (List.isChain_append_cons_cons.mp adjacent).2.1
      exact meets.trans start.symm
    · intro time answered
      have member : later.era ∈ converter.eras := by
        rw [eras]
        exact List.mem_map_of_mem (by simp)
      rw [start]
      exact slotToUtc_startSlot erasAdjacent member answered
  · intro slot
    have bounded : ∀ era ∈ chain.map Summary.era, ∀ bound, era.endSlot = some bound → era.startSlot ≤ bound := by
      intro era member bound ends
      obtain ⟨summary, summaryMember, rfl⟩ := List.mem_map.mp member
      exact startSlot_le_of_timed (contiguous.1 summary summaryMember) ends
    rw [slotToUtc_eq_none_iff erasAdjacent, eras, exists_covers_iff adjacent bounded, not_and_or]
    apply or_congr
    · simp [Summary.era, List.head?_map]
    · simp [Summary.era, List.getLast?_map]

/-- An era of twenty-second slots, an empty one, and a bounded one of one-second slots. -/
def byron : Summary := ⟨⟨0, .seconds 0⟩, some ⟨100, .seconds 2000⟩, .milliseconds 20000⟩
def empty : Summary := ⟨⟨100, .seconds 2000⟩, some ⟨100, .seconds 2000⟩, .milliseconds 1000⟩
def shelley : Summary := ⟨⟨100, .seconds 2000⟩, some ⟨150, .seconds 2050⟩, .milliseconds 1000⟩

/-- The eras out of order: the boundary slot has its time, and the horizon none. -/
theorem slot_time_consistent_three :
    let converter := SlotTimeConverter.init 0 ([empty, shelley, byron].map Summary.era)
    converter.slotToUtc (some 99) = some 1980 ∧ converter.slotToUtc (some 100) = some 2000 ∧
      ((1980 : ℚ) < 2000) ∧ byron.era.secondsAt 100 = empty.era.secondsAt 100 ∧
      converter.slotToUtc (some 150) = none := by
  intro converter
  have contiguous : Contiguous [byron, empty, shelley] := by
    refine ⟨?_, ?_⟩
    · norm_num [Summary.Timed, byron, empty, shelley, secondsOf]
    · simp [byron, empty, shelley]
  have positive : ∀ summary ∈ [byron, empty, shelley], 0 < secondsOf summary.slotLength := by
    norm_num [byron, empty, shelley, secondsOf]
  have rearranged (slot : Nat) :
      [empty, shelley, byron].filter (·.start.slot = slot) = [byron, empty, shelley].filter (·.start.slot = slot) := by
    by_cases first : 0 = slot
    · simp [byron, empty, shelley, ← first]
    · simp [byron, List.filter_cons, first]
  obtain ⟨later, boundary, none_iff⟩ := slot_time_consistent 0 _ _ contiguous positive rearranged
  have last : converter.slotToUtc (some 99) = some 1980 := by decide +kernel
  have first : converter.slotToUtc (some 100) = some 2000 := by decide +kernel
  refine ⟨last, first, ?_, ?_, ?_⟩
  · exact later 99 100 1980 2000 (by decide) last first
  · exact (boundary [] byron empty [shelley] rfl).1
  · apply (none_iff 150).mpr
    exact .inr ⟨shelley, ⟨150, .seconds 2050⟩, rfl, rfl, le_rfl⟩

end TransactionMonitoring.SlotTime
