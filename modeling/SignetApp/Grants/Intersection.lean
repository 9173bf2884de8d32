import SignetApp.Grants.Schedule

/-!
# Does an intersection keep the hours of both sides?

Two lists of windows that are both there are intersected minute by minute (`covers_intersect`). A
missing entry, which blocks its day, passes the other side through instead, and the second schedule
is read on the first one's clock: `neverWidens_iff` says exactly when neither shows.
-/

namespace SignetApp.Grants

open SignetApp.Js

/-! ## Windows -/

/-- Some window of the list holds the minute. -/
def Covers (windows : List ScheduleWindow) (m : ℕ) : Prop := ∃ w ∈ windows, w.contains m = true

variable {m : ℕ}

theorem contains_iff {w : ScheduleWindow} :
    w.contains m = true ↔ w.start.val ≤ m ∧ m < w.stop.val := by
  simp [ScheduleWindow.contains]

variable {ws : List ScheduleWindow}

theorem covers_cons {w : ScheduleWindow} :
    Covers (w :: ws) m ↔ w.contains m = true ∨ Covers ws m := by
  simp [Covers]

theorem covers_meet {a b : ScheduleWindow} :
    (∃ w ∈ a.meet b, w.contains m = true) ↔ a.contains m = true ∧ b.contains m = true := by
  have hstart : (max a.start b.start).val = max a.start.val b.start.val := by
    rcases le_total a.start b.start with h | h
    · rw [max_eq_right h, max_eq_right (show a.start.val ≤ b.start.val from h)]
    · rw [max_eq_left h, max_eq_left (show b.start.val ≤ a.start.val from h)]
  have hstop : (min a.stop b.stop).val = min a.stop.val b.stop.val := by
    rcases le_total a.stop b.stop with h | h
    · rw [min_eq_left h, min_eq_left (show a.stop.val ≤ b.stop.val from h)]
    · rw [min_eq_right h, min_eq_right (show b.stop.val ≤ a.stop.val from h)]
  unfold ScheduleWindow.meet
  simp only [contains_iff]
  split
  · simp only [Option.mem_def, Option.some.injEq, exists_eq_left', hstart, hstop]
    omega
  · next hempty =>
    have hempty' : ¬ (max a.start b.start).val < (min a.stop b.stop).val := hempty
    rw [hstart, hstop] at hempty'
    simp only [Option.mem_def, reduceCtorEq, false_and, exists_false, false_iff]
    omega

theorem covers_mergeTouching {last : ScheduleWindow}
    (hsorted : (last :: ws).Pairwise fun x y => x.start ≤ y.start) :
    Covers (mergeTouching last ws) m ↔ Covers (last :: ws) m := by
  induction ws generalizing last with
  | nil => exact Iff.rfl
  | cons w ws ih =>
    rw [List.pairwise_cons] at hsorted
    obtain ⟨hlast, hws⟩ := hsorted
    have hle : last.start.val ≤ w.start.val := hlast w List.mem_cons_self
    rw [mergeTouching]
    split
    · next htouch =>
      have hgrown : ({ last with stop := max last.stop w.stop } :: ws).Pairwise
          fun x y => x.start ≤ y.start := by
        rw [List.pairwise_cons]
        exact ⟨fun v hv => hlast v (List.mem_cons_of_mem _ hv), (List.pairwise_cons.mp hws).2⟩
      have hstop : (max last.stop w.stop).val = max last.stop.val w.stop.val := by
        rcases le_total last.stop w.stop with h | h
        · rw [max_eq_right h, max_eq_right (show last.stop.val ≤ w.stop.val from h)]
        · rw [max_eq_left h, max_eq_left (show w.stop.val ≤ last.stop.val from h)]
      have htouch' : w.start.val ≤ last.stop.val := htouch
      rw [ih hgrown, covers_cons, covers_cons, covers_cons, ← or_assoc]
      simp only [contains_iff, hstop]
      refine or_congr_left ?_
      omega
    · rw [covers_cons, ih hws, covers_cons (w := last)]

theorem any_contains_iff :
    ws.any (·.contains m) = true ↔ Covers ws m := List.any_eq_true

/-- **Two lists that are there are intersected.** -/
theorem covers_intersect {a b : List ScheduleWindow} :
    Covers (intersectWindowLists (some a) (some b)) m ↔ Covers a m ∧ Covers b m := by
  have hout : Covers (a.flatMap fun aw => b.filterMap aw.meet) m ↔ Covers a m ∧ Covers b m := by
    constructor
    · rintro ⟨w, hw, hm⟩
      obtain ⟨aw, ha, hw⟩ := List.mem_flatMap.mp hw
      obtain ⟨bw, hb, hmeet⟩ := List.mem_filterMap.mp hw
      obtain ⟨hma, hmb⟩ := covers_meet.mp ⟨w, hmeet, hm⟩
      exact ⟨⟨aw, ha, hma⟩, ⟨bw, hb, hmb⟩⟩
    · rintro ⟨⟨aw, ha, hma⟩, ⟨bw, hb, hmb⟩⟩
      obtain ⟨w, hmeet, hm⟩ := covers_meet.mpr ⟨hma, hmb⟩
      exact ⟨w, List.mem_flatMap.mpr ⟨aw, ha, List.mem_filterMap.mpr ⟨bw, hb, hmeet⟩⟩, hm⟩
  rw [← hout, intersectWindowLists]
  set out := a.flatMap fun aw => b.filterMap aw.meet
  have hperm := List.mergeSort_perm out fun x y => decide (x.start ≤ y.start)
  have hsorted : (out.mergeSort fun x y => decide (x.start ≤ y.start)).Pairwise
      fun x y => x.start ≤ y.start := by
    have h := @List.pairwise_mergeSort _ (fun x y : ScheduleWindow => decide (x.start ≤ y.start))
      (fun x y z hxy hyz => by simpa using (of_decide_eq_true hxy).trans (of_decide_eq_true hyz))
      (fun x y => by simpa using le_total x.start y.start) out
    exact h.imp of_decide_eq_true
  have hsame : Covers (out.mergeSort fun x y => decide (x.start ≤ y.start)) m ↔ Covers out m :=
    exists_congr fun w => and_congr_left fun _ => hperm.mem_iff
  rw [← hsame]
  split
  · next hnil => rw [hnil]
  · next first rest hcons =>
    rw [hcons] at hsorted ⊢
    exact covers_mergeTouching hsorted

theorem intersect_none_left (b : Option (List ScheduleWindow)) :
    intersectWindowLists none b = b.getD [] := by
  cases b <;> rfl

theorem intersect_none_right (a : List ScheduleWindow) :
    intersectWindowLists (some a) none = a := rfl

/-! ## One day -/

/-- The weekday a clock shows is that of the date it shows. -/
def LocalTime.Consistent (time : LocalTime) : Prop :=
  ∀ day, parseIsoDateInTz time.isoDate = some day → time.weekday = day

variable {date : IsoDate}

theorem parseIsoDateInTz_of_isRealDate (h : isRealDate date) :
    ∃ day, parseIsoDateInTz date = some day := by
  obtain ⟨yy, mm, dd, hread, -⟩ := h
  exact ⟨weekdayOfDays (daysFromCivil yy mm dd), by rw [parseIsoDateInTz, hread]; rfl⟩

theorem get_intersectOverrides {a b : GrantSchedule} {day : Weekday}
    (hmem : date ∈ a.overrides.keys ++ b.overrides.keys) (hday : parseIsoDateInTz date = some day) :
    (intersectOverrides a b).get date =
      some (intersectWindowLists (a.entry date day) (b.entry date day)) := by
  rw [intersectOverrides, OrderedMap.get_foldl_set fun date =>
    let weekday := (parseIsoDateInTz date).getD .mon
    intersectWindowLists (a.entry date weekday) (b.entry date weekday)]
  rw [if_pos hmem, hday]
  rfl

theorem get_intersectOverrides_of_not_mem {a b : GrantSchedule}
    (hmem : date ∉ a.overrides.keys ++ b.overrides.keys) :
    (intersectOverrides a b).get date = none := by
  rw [intersectOverrides, OrderedMap.get_foldl_set fun date =>
    let weekday := (parseIsoDateInTz date).getD .mon
    intersectWindowLists (a.entry date weekday) (b.entry date weekday)]
  rw [if_neg hmem, OrderedMap.get_empty]

theorem opensAt_iff {schedule : GrantSchedule} {time : LocalTime} :
    schedule.opensAt time = true ↔
      Covers ((schedule.entry time.isoDate time.weekday).getD []) time.minutesOfDay :=
  any_contains_iff

theorem opensAt_of_entry_eq_none {schedule : GrantSchedule} {time : LocalTime}
    (h : schedule.entry time.isoDate time.weekday = none) : schedule.opensAt time = false := by
  rw [GrantSchedule.opensAt, resolveDayWindows, h]
  rfl

section
variable [Intl] {a b : GrantSchedule} {time : LocalTime}

theorem resolveDayWindows_intersectBoth (ha : a.Valid) (hb : b.Valid) (hclock : time.Consistent)
    (hpa : a.paused = false) (hpb : b.paused = false) :
    resolveDayWindows (intersectBoth a b) time.isoDate time.weekday =
      intersectWindowLists (a.entry time.isoDate time.weekday)
        (b.entry time.isoDate time.weekday) := by
  rw [resolveDayWindows, GrantSchedule.entry, intersectBoth, hpa, hpb]
  simp only [Bool.or_self, Bool.false_eq_true, if_false]
  by_cases hmem : time.isoDate ∈ a.overrides.keys ++ b.overrides.keys
  · -- The date has an override: its weekday is computed from the date, and is the clock's.
    have hreal : isRealDate time.isoDate := by
      rcases List.mem_append.mp hmem with h | h
      · exact ha.dates _ h
      · exact hb.dates _ h
    obtain ⟨day, hday⟩ := parseIsoDateInTz_of_isRealDate hreal
    rw [get_intersectOverrides hmem hday, hclock day hday]
    rfl
  · -- No override on either side: both entries are the weekly ones.
    have hboth : time.isoDate ∉ a.overrides.keys ∧ time.isoDate ∉ b.overrides.keys := by
      simpa [not_or] using hmem
    rw [get_intersectOverrides_of_not_mem hmem]
    rw [GrantSchedule.entry, GrantSchedule.entry, OrderedMap.get_eq_none_iff.mpr hboth.1,
      OrderedMap.get_eq_none_iff.mpr hboth.2]
    simp only [Option.none_or]
    split
    · next hnil => rw [hnil]; rfl
    · rfl

theorem opensAt_intersectBoth (ha : a.Valid) (hb : b.Valid) (hclock : time.Consistent)
    (hpa : a.paused = false) (hpb : b.paused = false) :
    (intersectBoth a b).opensAt time = true ↔
      (a.entry time.isoDate time.weekday = none ∧ b.opensAt time = true) ∨
      (a.opensAt time = true ∧
        (b.entry time.isoDate time.weekday = none ∨ b.opensAt time = true)) := by
  have hopen : (intersectBoth a b).opensAt time = true ↔
      Covers (intersectWindowLists (a.entry time.isoDate time.weekday)
        (b.entry time.isoDate time.weekday)) time.minutesOfDay := by
    rw [GrantSchedule.opensAt, resolveDayWindows_intersectBoth ha hb hclock hpa hpb]
    exact any_contains_iff
  have hno : ¬ Covers [] time.minutesOfDay := fun ⟨w, hw, _⟩ => absurd hw List.not_mem_nil
  rw [hopen, opensAt_iff, opensAt_iff]
  cases hea : a.entry time.isoDate time.weekday with
  | none => simp [intersect_none_left, hno]
  | some aw =>
    cases heb : b.entry time.isoDate time.weekday with
    | none => simp [intersect_none_right]
    | some bw => simp [covers_intersect]

theorem isWithinSchedule_eq_allowed_iff {schedule : GrantSchedule} {t : ℤ} {horizonDays : ℕ} :
    isWithinSchedule schedule t horizonDays = .allowed ↔
      schedule.paused = false ∧ schedule.opensAt (extractInTz t schedule.tz) = true := by
  rw [isWithinSchedule]
  cases schedule.paused with
  | true => simp
  | false => cases schedule.opensAt (extractInTz t schedule.tz) <;> simp

/-! ## Never wider -/

/-- On the clock of `a`: the day on which `a` has no entry is not opened by `b`, and whenever `a` is
open and `b` is open or has no entry, `b` is open on its own clock. -/
def KeepsHours (a b : GrantSchedule) (t : ℤ) : Prop :=
  let time := extractInTz t a.tz
  (a.entry time.isoDate time.weekday = none → b.opensAt time = false) ∧
  (a.opensAt time = true → b.entry time.isoDate time.weekday = none ∨ b.opensAt time = true →
    b.opensAt (extractInTz t b.tz) = true)

/-- **A narrower schedule never widens another**, exactly when one of the two is paused or both keep
their hours. -/
theorem neverWidens_iff {t : ℤ} (ha : a.Valid) (hb : b.Valid)
    (hclock : (extractInTz t a.tz).Consistent) (horizonDays : ℕ) :
    ∃ both, intersectSchedules (some a) (some b) = some both ∧
      (((a.tz = b.tz → (isWithinSchedule both t horizonDays = .allowed ↔
            isWithinSchedule a t horizonDays = .allowed ∧
            isWithinSchedule b t horizonDays = .allowed)) ∧
        (a.tz ≠ b.tz → isWithinSchedule both t horizonDays = .allowed →
            isWithinSchedule a t horizonDays = .allowed ∧
            isWithinSchedule b t horizonDays = .allowed)) ↔
      a.paused = true ∨ b.paused = true ∨ KeepsHours a b t) := by
  refine ⟨intersectBoth a b, rfl, ?_⟩
  simp only [isWithinSchedule_eq_allowed_iff]
  by_cases hpaused : a.paused = true ∨ b.paused = true
  · have hboth : (intersectBoth a b).paused = true := by
      rw [intersectBoth, if_pos (by simpa using hpaused)]
    rcases hpaused with h | h <;> simp [hboth, h]
  · obtain ⟨hpa, hpb⟩ : a.paused = false ∧ b.paused = false := by
      simpa [not_or] using hpaused
    have hplain : (intersectBoth a b).paused = false ∧ (intersectBoth a b).tz = a.tz := by
      rw [intersectBoth, hpa, hpb]
      exact ⟨rfl, rfl⟩
    have hopen := opensAt_intersectBoth ha hb hclock hpa hpb
    rw [hplain.1, hplain.2, hpa, hpb]
    simp only [true_and, Bool.false_eq_true, false_or]
    rw [KeepsHours]
    have hnone : ∀ {schedule : GrantSchedule}, schedule.entry (extractInTz t a.tz).isoDate
        (extractInTz t a.tz).weekday = none → schedule.opensAt (extractInTz t a.tz) = false :=
      opensAt_of_entry_eq_none
    constructor
    · rintro ⟨hsame, hother⟩
      have hwiden : (intersectBoth a b).opensAt (extractInTz t a.tz) = true →
          a.opensAt (extractInTz t a.tz) = true ∧ b.opensAt (extractInTz t b.tz) = true := by
        by_cases htz : a.tz = b.tz
        · exact (hsame htz).mp
        · exact hother htz
      refine ⟨fun hentry => ?_, fun hopens hor => (hwiden (hopen.mpr (.inr ⟨hopens, hor⟩))).2⟩
      by_contra hb'
      have h := (hwiden (hopen.mpr (.inl ⟨hentry, by simpa using hb'⟩))).1
      rw [hnone hentry] at h
      cases h
    · rintro ⟨hfirst, hsecond⟩
      have hwiden : (intersectBoth a b).opensAt (extractInTz t a.tz) = true →
          a.opensAt (extractInTz t a.tz) = true ∧ b.opensAt (extractInTz t b.tz) = true := by
        intro h
        rcases hopen.mp h with ⟨hentry, hb'⟩ | ⟨ha', hor⟩
        · rw [hfirst hentry] at hb'
          cases hb'
        · exact ⟨ha', hsecond ha' hor⟩
      refine ⟨fun htz => ⟨hwiden, ?_⟩, fun _ => hwiden⟩
      rintro ⟨ha', hb'⟩
      rw [← htz] at hb'
      exact hopen.mpr (.inr ⟨ha', .inr hb'⟩)

end

/-! ## A Tuesday opened by a schedule that has no Tuesday -/

/-- Tuesday 2 June 2026, 10:00. -/
def tuesdayParts : LocalParts :=
  { year := 2026, month := 6, day := 2, hour := 10, minute := 0, weekday := .tue }

/-- The platform at that instant of Universal Time. -/
@[reducible] def tuesdayMorning : Intl where
  knowsZone _ := true
  formatToParts _ _ := tuesdayParts

/-- A schedule open from 9:00 to 17:00 on one day of the week. -/
def officeHours (day : Weekday) : GrantSchedule where
  tz := lit "UTC"
  weekly d := if d = day then some [{ start := ⟨540, by omega⟩, stop := ⟨1020, by omega⟩ }] else none
  issuedAt := 1714000000

theorem valid_officeHours (day : Weekday) : @GrantSchedule.Valid tuesdayMorning (officeHours day) :=
  letI := tuesdayMorning
  { zone := rfl
    issuedAt_pos := by norm_num [officeHours]
    weekly_lt := by
      intro d windows hwindows w hw
      simp only [officeHours, Option.mem_def] at hwindows
      split at hwindows
      · rw [← Option.some.inj hwindows, List.mem_singleton] at hw
        rw [hw]
        exact show 540 < 1020 by omega
      · cases hwindows
    overrides_lt := fun e he => absurd he List.not_mem_nil
    dates := fun date hdate => absurd hdate List.not_mem_nil }

theorem consistent_tuesdayMorning (t : ℤ) (tz : JsString) :
    (@extractInTz tuesdayMorning t tz).Consistent := by
  intro day hday
  have htuesday : parseIsoDateInTz tuesdayParts.toLocalTime.isoDate = some .tue := by decide
  exact Option.some.inj (htuesday.symm.trans hday)

/-- The hours of a Monday schedule are widened by one that is open on Tuesday. -/
theorem tuesday_passes_through :
    letI := tuesdayMorning
    let now := dateUtc 2026 6 2 600
    (officeHours .mon).Valid ∧ (officeHours .tue).Valid ∧
    ∃ both, intersectSchedules (some (officeHours .mon)) (some (officeHours .tue)) = some both ∧
      isWithinSchedule both now 30 = .allowed ∧
      isWithinSchedule (officeHours .mon) now 30 ≠ .allowed := by
  refine ⟨valid_officeHours .mon, valid_officeHours .tue,
    intersectBoth (officeHours .mon) (officeHours .tue), rfl, ?_, ?_⟩
  · decide +kernel
  · decide +kernel

theorem neverWidens_iff_tuesday :
    letI := tuesdayMorning
    let now := dateUtc 2026 6 2 600
    ∃ both, intersectSchedules (some (officeHours .mon)) (some (officeHours .tue)) = some both ∧
      ((((officeHours .mon).tz = (officeHours .tue).tz →
          (isWithinSchedule both now 30 = .allowed ↔
            isWithinSchedule (officeHours .mon) now 30 = .allowed ∧
            isWithinSchedule (officeHours .tue) now 30 = .allowed)) ∧
        ((officeHours .mon).tz ≠ (officeHours .tue).tz →
          isWithinSchedule both now 30 = .allowed →
            isWithinSchedule (officeHours .mon) now 30 = .allowed ∧
            isWithinSchedule (officeHours .tue) now 30 = .allowed)) ↔
      (officeHours .mon).paused = true ∨ (officeHours .tue).paused = true ∨
        KeepsHours (officeHours .mon) (officeHours .tue) now) :=
  letI := tuesdayMorning
  neverWidens_iff (valid_officeHours .mon) (valid_officeHours .tue)
    (consistent_tuesdayMorning _ _) 30

end SignetApp.Grants
