import SignetApp.Grants.Schedule
import SignetApp.Sync.Decimal

/-!
# The next allowed time

What `isWithinSchedule` promises while a schedule is closed, in a zone with a fixed offset. A time
on the clock becomes an instant by way of the minute of the day alone, so the promise fails where
the offset moves that minute past midnight.
-/

namespace SignetApp.Grants

open SignetApp.Js SignetApp.Sync

/-! ## The calendar -/

/-- A month counted from March. -/
def marchMonth (month : ℤ) : ℤ := if month > 2 then month - 3 else month + 9

/-- The year a month belongs to, counted from March. -/
def marchYear (year month : ℤ) : ℤ := if month ≤ 2 then year - 1 else year

theorem daysFromCivil_eq (year month day : ℤ) :
    daysFromCivil year month day = 365 * marchYear year month + marchYear year month / 4
      - marchYear year month / 100 + marchYear year month / 400
      + (153 * marchMonth month + 2) / 5 + day - 719469 := by
  have hfdiv : (marchYear year month).fdiv 400 = marchYear year month / 400 :=
    Int.fdiv_eq_ediv_of_nonneg _ (by omega)
  show (marchYear year month).fdiv 400 * 146097 + ((marchYear year month
    - (marchYear year month).fdiv 400 * 400) * 365 + (marchYear year month
    - (marchYear year month).fdiv 400 * 400) / 4 - (marchYear year month
    - (marchYear year month).fdiv 400 * 400) / 100
    + ((153 * marchMonth month + 2) / 5 + day - 1)) - 719468 = _
  rw [hfdiv]
  omega

theorem daysFromCivil_gap {year later : ℤ} (month day : ℤ) (hlater : year ≤ later) :
    daysFromCivil year month day + 364 * (later - year) ≤ daysFromCivil later month day + 3 := by
  have hmarch : marchYear later month - marchYear year month = later - year := by
    unfold marchYear
    split <;> omega
  rw [daysFromCivil_eq, daysFromCivil_eq]
  omega

/-- The year of a cycle of 400 years and the day of the year, both from the first of March. -/
def yearDay (doe : ℤ) : ℤ × ℤ :=
  let century := min (doe / 36524) 3
  let doc := doe - 36524 * century
  let quad := min (doc / 1461) 24
  let doq := doc - 1461 * quad
  let single := min (doq / 365) 3
  (100 * century + 4 * quad + single, doq - 365 * single)

theorem yearDay_spec {doe : ℤ} (hdoe : 0 ≤ doe ∧ doe < 146097) :
    0 ≤ (yearDay doe).1 ∧ (yearDay doe).1 ≤ 399 ∧ 0 ≤ (yearDay doe).2 ∧ (yearDay doe).2 ≤ 365 ∧
      365 * (yearDay doe).1 + (yearDay doe).1 / 4 - (yearDay doe).1 / 100 + (yearDay doe).2
        = doe := by
  unfold yearDay
  dsimp only
  have hcentury : 0 ≤ min (doe / 36524) 3 ∧ min (doe / 36524) 3 ≤ 3 ∧
      0 ≤ doe - 36524 * min (doe / 36524) 3 ∧ doe - 36524 * min (doe / 36524) 3 ≤ 36524 := by omega
  generalize min (doe / 36524) 3 = century at *
  generalize hdoc : doe - 36524 * century = doc at *
  have hquad : 0 ≤ min (doc / 1461) 24 ∧ min (doc / 1461) 24 ≤ 24 ∧
      0 ≤ doc - 1461 * min (doc / 1461) 24 ∧ doc - 1461 * min (doc / 1461) 24 ≤ 1460 := by omega
  generalize min (doc / 1461) 24 = quad at *
  generalize hdoq : doc - 1461 * quad = doq at *
  have hsingle : 0 ≤ min (doq / 365) 3 ∧ min (doq / 365) 3 ≤ 3 ∧
      0 ≤ doq - 365 * min (doq / 365) 3 ∧ doq - 365 * min (doq / 365) 3 ≤ 365 := by omega
  generalize min (doq / 365) 3 = single at *
  have hquads : (100 * century + 4 * quad + single) / 4 = 25 * century + quad := by omega
  have hcenturies : (100 * century + 4 * quad + single) / 100 = century := by omega
  omega

/-- The month and the day of a day counted from the first of March. -/
def monthDay (doy : ℤ) : ℤ × ℤ :=
  let shifted := (5 * doy + 2) / 153
  (if shifted < 10 then shifted + 3 else shifted - 9, doy - (153 * shifted + 2) / 5 + 1)

theorem monthDay_spec {doy : ℤ} (hdoy : 0 ≤ doy ∧ doy ≤ 365) :
    1 ≤ (monthDay doy).1 ∧ 1 ≤ (monthDay doy).2 ∧
      (153 * marchMonth (monthDay doy).1 + 2) / 5 + (monthDay doy).2 - 1 = doy := by
  have hshifted : 0 ≤ (5 * doy + 2) / 153 ∧ (5 * doy + 2) / 153 ≤ 11 ∧
      (153 * ((5 * doy + 2) / 153) + 2) / 5 ≤ doy := by omega
  have hmonth : 1 ≤ (monthDay doy).1 ∧ marchMonth (monthDay doy).1 = (5 * doy + 2) / 153 := by
    show 1 ≤ (if (5 * doy + 2) / 153 < 10 then (5 * doy + 2) / 153 + 3
      else (5 * doy + 2) / 153 - 9) ∧ marchMonth (if (5 * doy + 2) / 153 < 10 then
        (5 * doy + 2) / 153 + 3 else (5 * doy + 2) / 153 - 9) = _
    unfold marchMonth
    split <;> split <;> omega
  have hday : (monthDay doy).2 = doy - (153 * ((5 * doy + 2) / 153) + 2) / 5 + 1 := rfl
  rw [hmonth.2, hday]
  omega

/-- The date of a day counted from the epoch: its year, where year 0 is the one before year 1, its
month and its day. -/
def civilOfDays (days : ℤ) : ℤ × ℕ × ℕ :=
  let year := yearDay ((days + 719468) % 146097)
  let date := monthDay year.2
  (400 * ((days + 719468) / 146097) + year.1 + (if date.1 ≤ 2 then 1 else 0),
    date.1.toNat, date.2.toNat)

theorem daysFromCivil_civilOfDays (days : ℤ) :
    daysFromCivil (civilOfDays days).1 (civilOfDays days).2.1 (civilOfDays days).2.2 = days := by
  obtain ⟨hy, hy', hd, hd', hdoe⟩ := @yearDay_spec ((days + 719468) % 146097) (by omega)
  obtain ⟨hm, hday, hdoy⟩ := monthDay_spec ⟨hd, hd'⟩
  have hmonth : ((civilOfDays days).2.1 : ℤ) = (monthDay (yearDay ((days + 719468) % 146097)).2).1 :=
    Int.toNat_of_nonneg (by omega)
  have hdate : ((civilOfDays days).2.2 : ℤ) = (monthDay (yearDay ((days + 719468) % 146097)).2).2 :=
    Int.toNat_of_nonneg (by omega)
  have hyear : marchYear (civilOfDays days).1 (civilOfDays days).2.1
      = 400 * ((days + 719468) / 146097) + (yearDay ((days + 719468) % 146097)).1 := by
    rw [hmonth]
    show marchYear (400 * ((days + 719468) / 146097) + (yearDay ((days + 719468) % 146097)).1
      + (if (monthDay (yearDay ((days + 719468) % 146097)).2).1 ≤ 2 then 1 else 0)) _ = _
    unfold marchYear
    split <;> omega
  rw [daysFromCivil_eq, hyear, hmonth, hdate]
  generalize yearDay ((days + 719468) % 146097) = year at *
  have hquads : (400 * ((days + 719468) / 146097) + year.1) / 4
      = 100 * ((days + 719468) / 146097) + year.1 / 4 := by omega
  have hcenturies : (400 * ((days + 719468) / 146097) + year.1) / 100
      = 4 * ((days + 719468) / 146097) + year.1 / 100 := by omega
  have hcycles : (400 * ((days + 719468) / 146097) + year.1) / 400
      = (days + 719468) / 146097 := by omega
  omega

/-! ## The text of a date -/

/-- What a calendar without eras shows of a year: the one before year 1 is a year 1 again. -/
def shownYear (year : ℤ) : ℕ := (if 1 ≤ year then year else 1 - year).toNat

/-- The date of a day as `extractInTz` writes it. -/
def dateText (days : ℤ) : IsoDate :=
  lit (Nat.repr (shownYear (civilOfDays days).1)) ++ lit "-" ++ pad (civilOfDays days).2.1
    ++ lit "-" ++ pad (civilOfDays days).2.2

theorem lit_repr (n : ℕ) : lit (Nat.repr n) = digitsText n := by
  have hdigit : ∀ c ∈ Nat.toDigits 10 n, encodeChar c = [unit c] := by
    intro c hc
    have hc := Nat.isDigit_of_mem_toDigits (by decide) (by decide) hc
    have hsmall : c.toNat < 0x10000 := by
      have h : 48 ≤ c.toNat ∧ c.toNat ≤ 57 := by
        simpa [Char.isDigit, UInt32.le_iff_toNat_le] using hc
      omega
    rw [encodeChar, if_pos hsmall]
    rfl
  have hlist : (Nat.repr n).toList = Nat.toDigits 10 n := by simp [Nat.repr]
  unfold lit digitsText
  rw [hlist, List.flatMap_congr hdigit, List.map_eq_flatMap]

theorem numberOfDigits_digitsText (n : ℕ) : numberOfDigits (digitsText n) = n := by
  have hread := readDigits_digitsText n
  unfold readDigits at hread
  split at hread
  · exact_mod_cast Option.some.inj hread
  · cases hread

theorem not_mem_digitsText (n : ℕ) : 45 ∉ digitsText n := by
  intro h
  exact absurd (List.all_eq_true.1 (digitsValue_digitsText n).1 45 h) (by decide)

theorem pad_eq (n : ℕ) : pad n = (if n < 10 then lit "0" else []) ++ digitsText n := by
  unfold pad
  rw [lit_repr]
  split <;> rfl

theorem numberOfDigits_pad (n : ℕ) : numberOfDigits (pad n) = n := by
  rw [pad_eq]
  split
  · exact numberOfDigits_digitsText n
  · exact numberOfDigits_digitsText n

theorem not_mem_pad (n : ℕ) : 45 ∉ pad n := by
  rw [pad_eq, List.mem_append]
  rintro (h | h)
  · split at h
    · exact absurd h (by decide)
    · cases h
  · exact not_mem_digitsText n h

theorem splitDate_dateText (days : ℤ) : splitDate (dateText days)
    = [shownYear (civilOfDays days).1, (civilOfDays days).2.1, (civilOfDays days).2.2] := by
  have hjoin : dateText days = [45].intercalate [digitsText (shownYear (civilOfDays days).1),
      pad (civilOfDays days).2.1, pad (civilOfDays days).2.2] := by
    unfold dateText
    rw [lit_repr, show lit "-" = [45] by decide]
    simp [List.intercalate]
  have hfree : ∀ part ∈ [digitsText (shownYear (civilOfDays days).1), pad (civilOfDays days).2.1,
      pad (civilOfDays days).2.2], (45 : CodeUnit) ∉ part := by
    simp [not_mem_digitsText, not_mem_pad]
  unfold splitDate
  rw [hjoin, List.splitOn_intercalate _ hfree (by simp)]
  simp [numberOfDigits_digitsText, numberOfDigits_pad]

/-! ## A fixed offset -/

/-- The minutes on the clock of a zone `offset` minutes east of Universal Time, from the epoch. -/
def localMinutes (offset t : ℤ) : ℤ := t / 60000 + offset

def localDay (offset t : ℤ) : ℤ := localMinutes offset t / 1440

/-- The minute of the day. -/
def localMinute (offset t : ℤ) : ℕ := (localMinutes offset t % 1440).toNat

/-- The instant at which the clock shows the start of a minute. -/
def instantOf (offset day : ℤ) (minute : ℕ) : ℤ := (day * 1440 + minute - offset) * 60000

theorem localMinute_lt (offset t : ℤ) : localMinute offset t < 1440 := by
  unfold localMinute
  omega

theorem localMinutes_eq (offset t : ℤ) :
    localMinutes offset t = localDay offset t * 1440 + localMinute offset t := by
  unfold localDay localMinute
  omega

theorem local_of_localMinutes {offset t day : ℤ} {minute : ℕ} (hminute : minute < 1440)
    (h : localMinutes offset t = day * 1440 + minute) :
    localDay offset t = day ∧ localMinute offset t = minute := by
  unfold localDay localMinute
  omega

theorem localMinutes_instantOf (offset day : ℤ) (minute : ℕ) :
    localMinutes offset (instantOf offset day minute) = day * 1440 + minute := by
  unfold localMinutes instantOf
  omega

theorem local_instantOf {offset day : ℤ} {minute : ℕ} (hminute : minute < 1440) :
    localDay offset (instantOf offset day minute) = day ∧
      localMinute offset (instantOf offset day minute) = minute :=
  local_of_localMinutes hminute (localMinutes_instantOf offset day minute)

theorem instantOf_local {offset t : ℤ} (ht : t % 60000 = 0) :
    instantOf offset (localDay offset t) (localMinute offset t) = t := by
  have h := localMinutes_eq offset t
  unfold localMinutes at h
  unfold instantOf
  omega

theorem lt_instantOf_iff {offset now day : ℤ} {minute : ℕ} (hminute : minute < 1440) :
    now < instantOf offset day minute ↔ localDay offset now < day ∨
      localDay offset now = day ∧ localMinute offset now < minute := by
  have h := localMinutes_eq offset now
  have hlt := localMinute_lt offset now
  have hbound : now < instantOf offset day minute ↔ localMinutes offset now < day * 1440 + minute := by
    unfold localMinutes instantOf
    omega
  rw [hbound, h]
  omega

/-- The year `Date.UTC` takes a number for. -/
def fullYear (year : ℤ) : ℤ := if 0 ≤ year ∧ year ≤ 99 then 1900 + year else year

/-- The day `Date.UTC` takes the text of a date for. -/
def utcDay (days : ℤ) : ℤ :=
  daysFromCivil (fullYear (shownYear (civilOfDays days).1)) (civilOfDays days).2.1
    (civilOfDays days).2.2

variable {days : ℤ}

theorem utcDay_congr {days' : ℤ} (h : dateText days = dateText days') :
    utcDay days = utcDay days' := by
  have hsplit := (splitDate_dateText days).symm.trans ((congrArg splitDate h).trans
    (splitDate_dateText days'))
  simp only [List.cons.injEq, and_true] at hsplit
  obtain ⟨hyear, hmonth, hday⟩ := hsplit
  unfold utcDay
  rw [hyear, hmonth, hday]

theorem utcDay_eq (h : 100 ≤ (civilOfDays days).1) : utcDay days = days := by
  have hyear : (shownYear (civilOfDays days).1 : ℤ) = (civilOfDays days).1 := by
    unfold shownYear
    rw [if_pos (by omega), Int.toNat_of_nonneg (by omega)]
  unfold utcDay fullYear
  rw [hyear, if_neg (by omega), daysFromCivil_civilOfDays]

theorem utcDay_far (h : (civilOfDays days).1 < 100) : days + 1 < utcDay days := by
  have hshown : (shownYear (civilOfDays days).1 : ℤ)
      = if 1 ≤ (civilOfDays days).1 then (civilOfDays days).1 else 1 - (civilOfDays days).1 := by
    unfold shownYear
    apply Int.toNat_of_nonneg
    split <;> omega
  have hfar : (civilOfDays days).1 + 100 ≤ fullYear (shownYear (civilOfDays days).1) := by
    unfold fullYear
    rw [hshown]
    split <;> split <;> omega
  have hle : (civilOfDays days).1 ≤ fullYear (shownYear (civilOfDays days).1) := by omega
  have hgap := daysFromCivil_gap (civilOfDays days).2.1 (civilOfDays days).2.2 hle
  rw [daysFromCivil_civilOfDays] at hgap
  unfold utcDay
  omega

section
variable [Intl]

/-- What the platform shows of a zone with a fixed offset. -/
structure FixedOffset (tz : JsString) (offset : ℤ) : Prop where
  year t : (Intl.formatToParts tz t).year = shownYear (civilOfDays (localDay offset t)).1
  month t : (Intl.formatToParts tz t).month = (civilOfDays (localDay offset t)).2.1
  day t : (Intl.formatToParts tz t).day = (civilOfDays (localDay offset t)).2.2
  weekday t : (Intl.formatToParts tz t).weekday = weekdayOfDays (localDay offset t)
  /-- Midnight is hour 0 or hour 24. -/
  hour t : (Intl.formatToParts tz t).hour % 24 = localMinute offset t / 60 ∧
    (Intl.formatToParts tz t).hour ≤ 24
  minute t : (Intl.formatToParts tz t).minute = localMinute offset t % 60

theorem FixedOffset.extractInTz_eq {tz : JsString} {offset : ℤ} (hzone : FixedOffset tz offset)
    (t : ℤ) : extractInTz t tz = { weekday := weekdayOfDays (localDay offset t)
                                   isoDate := dateText (localDay offset t)
                                   minutesOfDay := localMinute offset t } := by
  have hclock : (if (Intl.formatToParts tz t).hour = 24 then 0 else (Intl.formatToParts tz t).hour)
      * 60 + (Intl.formatToParts tz t).minute = localMinute offset t := by
    obtain ⟨hhour, hle⟩ := hzone.hour t
    rw [hzone.minute t]
    split <;> omega
  unfold extractInTz LocalParts.toLocalTime dateText
  rw [hclock, hzone.weekday, hzone.year, hzone.month, hzone.day]

/-- The days between the one a minute is sought on and the one it is found on: the offset is read
off the minute of the day alone. -/
def dayShift (offset : ℤ) (minute : ℕ) : ℤ := (minute + offset) / 1440

variable {minute : ℕ}

theorem FixedOffset.absoluteDateFromTzClock_eq {tz : JsString} {offset : ℤ}
    (hzone : FixedOffset tz offset) (probe : ℤ) (hminute : minute < 1440) :
    absoluteDateFromTzClock probe tz minute =
      if dateText (utcDay (localDay offset probe) + dayShift offset minute)
          = dateText (localDay offset probe) then
        some (instantOf offset (utcDay (localDay offset probe) + dayShift offset minute) minute)
      else none := by
  have hguess : dateUtc (shownYear (civilOfDays (localDay offset probe)).1)
      (civilOfDays (localDay offset probe)).2.1 (civilOfDays (localDay offset probe)).2.2 minute
        = (utcDay (localDay offset probe) * 1440 + minute) * 60000 := rfl
  have hobserved : (localMinute offset ((utcDay (localDay offset probe) * 1440 + minute) * 60000) : ℤ)
      = minute + offset - dayShift offset minute * 1440 := by
    unfold localMinute localMinutes dayShift
    omega
  have hcandidate : (utcDay (localDay offset probe) * 1440 + minute) * 60000
      - (minute + offset - dayShift offset minute * 1440 - minute) * 60000
        = instantOf offset (utcDay (localDay offset probe) + dayShift offset minute) minute := by
    unfold instantOf
    omega
  unfold absoluteDateFromTzClock
  simp only [hzone.extractInTz_eq, splitDate_dateText, hguess, hobserved, hcandidate,
    (local_instantOf hminute).1, (local_instantOf hminute).2, and_true]

/-! ## Openings -/

/-- A window of the schedule starts at the instant. -/
def GrantSchedule.StartsAt (schedule : GrantSchedule) (t : ℤ) : Prop :=
  schedule.paused = false ∧ t % 60000 = 0 ∧
    ∃ w ∈ resolveDayWindows schedule (extractInTz t schedule.tz).isoDate
      (extractInTz t schedule.tz).weekday,
      w.start.val = (extractInTz t schedule.tz).minutesOfDay

/-- A window starts after `now`, on one of the `n + 1` days from today. -/
structure IsOpening (schedule : GrantSchedule) (offset now : ℤ) (n : ℕ) (t : ℤ) : Prop where
  opens : schedule.StartsAt t
  later : now < t
  within : localDay offset t ≤ localDay offset now + n

def IsEarliest (schedule : GrantSchedule) (offset now : ℤ) (n : ℕ) (t : ℤ) : Prop :=
  IsOpening schedule offset now n t ∧ ∀ t', IsOpening schedule offset now n t' → t ≤ t'

/-- What the next allowed time should be: the earliest opening, or nothing where there is none. -/
def IsNext (schedule : GrantSchedule) (offset now : ℤ) (n : ℕ) : Option ℤ → Prop
  | some t => IsEarliest schedule offset now n t
  | none => ∀ t, ¬IsOpening schedule offset now n t

def windowsOn (schedule : GrantSchedule) (day : ℤ) : List ScheduleWindow :=
  resolveDayWindows schedule (dateText day) (weekdayOfDays day)

variable {schedule : GrantSchedule} {offset now : ℤ} {n : ℕ}

variable {day : ℤ}

theorem isOpening_instantOf (hzone : FixedOffset schedule.tz offset)
    (hpaused : schedule.paused = false) {w : ScheduleWindow}
    (hw : w ∈ windowsOn schedule day) (hlater : now < instantOf offset day w.start.val)
    (hwithin : day ≤ localDay offset now + n) :
    IsOpening schedule offset now n (instantOf offset day w.start.val) := by
  obtain ⟨hday, hminute⟩ := @local_instantOf offset day _ w.start.property
  refine ⟨⟨hpaused, ?_, w, ?_, ?_⟩, hlater, ?_⟩
  · unfold instantOf
    omega
  · rw [hzone.extractInTz_eq, hday]
    exact hw
  · rw [hzone.extractInTz_eq, hminute]
  · rw [hday]
    exact hwithin

variable {t : ℤ}

theorem IsOpening.exists_window (hzone : FixedOffset schedule.tz offset)
    (h : IsOpening schedule offset now n t) : ∃ w ∈ windowsOn schedule (localDay offset t),
      w.start.val = localMinute offset t ∧ t = instantOf offset (localDay offset t) w.start.val := by
  obtain ⟨-, hwhole, w, hw, hstart⟩ := h.opens
  rw [hzone.extractInTz_eq] at hw hstart
  refine ⟨w, hw, hstart, ?_⟩
  rw [hstart]
  exact (instantOf_local hwhole).symm

/-- What one window of a day contributes to the search. -/
def candidateOn (offset now day : ℤ) (minute : ℕ) : Option ℤ :=
  if day = localDay offset now ∧ minute ≤ localMinute offset now then none
  else if dateText (utcDay day + dayShift offset minute) = dateText day then
    (some (instantOf offset (utcDay day + dayShift offset minute) minute)).filter (now < ·)
  else none

theorem nextStartOn_eq (hzone : FixedOffset schedule.tz offset) (k : ℕ) :
    nextStartOn schedule now k =
      ((windowsOn schedule (localDay offset now + k)).mergeSort fun a b => a.start ≤ b.start).findSome?
        fun w => candidateOn offset now (localDay offset now + k) w.start.val := by
  obtain ⟨hday, hminute⟩ : localDay offset (now + k * 86400000) = localDay offset now + k ∧
      localMinute offset (now + k * 86400000) = localMinute offset now := by
    apply local_of_localMinutes (localMinute_lt offset now)
    have h := localMinutes_eq offset now
    unfold localMinutes at h ⊢
    omega
  unfold nextStartOn
  rw [List.head?_filterMap, hzone.extractInTz_eq, hday, hminute]
  congr 1
  funext w
  rw [hzone.absoluteDateFromTzClock_eq _ w.start.property, hday]
  unfold candidateOn
  have hfirst : k = 0 ↔ localDay offset now + k = localDay offset now := by omega
  simp only [hfirst]
  split
  · rfl
  · split <;> rfl

omit [Intl] in
theorem candidateOn_later (hminute : minute < 1440)
    (hday : localDay offset now ≤ day) (h : candidateOn offset now day minute = some t) :
    now < instantOf offset day minute := by
  rw [lt_instantOf_iff hminute]
  unfold candidateOn at h
  split at h
  · cases h
  · omega

omit [Intl] in
/-- What a window contributes is an instant from the year 100 on at which the offset does not move
the clock past midnight. -/
theorem candidateOn_clock (hminute : minute < 1440)
    (hoffset : -720 ≤ offset ∧ offset ≤ 840) (h : candidateOn offset now day minute = some t) :
    100 ≤ (civilOfDays (localDay offset t)).1 ∧ 0 ≤ localMinute offset t + offset ∧
      localMinute offset t + offset < 1440 := by
  unfold candidateOn at h
  split at h
  · cases h
  · split at h
    · next hsame =>
      obtain ⟨rfl, -⟩ := Option.filter_eq_some_iff.1 h |>.imp_left Option.some.inj
      obtain ⟨htday, htminute⟩ := @local_instantOf offset (utcDay day + dayShift offset minute) _ hminute
      have htext := utcDay_congr hsame
      rw [htday, htminute]
      have hshift : -1 ≤ dayShift offset minute := by
        unfold dayShift
        omega
      have hyear : 100 ≤ (civilOfDays (utcDay day + dayShift offset minute)).1 := by
        by_contra hearly
        have hfar := utcDay_far (not_le.1 hearly)
        omega
      have hzero : dayShift offset minute = 0 := by
        have heq := utcDay_eq hyear
        omega
      unfold dayShift at hzero
      exact ⟨hyear, by omega, by omega⟩
    · cases h

omit [Intl] in
theorem candidateOn_eq (hminute : minute < 1440)
    (hyear : 100 ≤ (civilOfDays day).1) (hclock : 0 ≤ minute + offset ∧ minute + offset < 1440)
    (hlater : now < instantOf offset day minute) :
    candidateOn offset now day minute = some (instantOf offset day minute) := by
  have hshift : dayShift offset minute = 0 := by
    unfold dayShift
    omega
  have hfirst : ¬(day = localDay offset now ∧ minute ≤ localMinute offset now) := by
    rw [lt_instantOf_iff hminute] at hlater
    omega
  unfold candidateOn
  rw [if_neg hfirst, hshift, utcDay_eq hyear, add_zero, if_pos rfl]
  exact Option.filter_eq_some_iff.2 ⟨rfl, by simpa using hlater⟩

/-! ## The search -/

omit [Intl] in
theorem findSome?_sorted {windows : List ScheduleWindow} {f : ScheduleWindow → Option ℤ}
    (hsorted : windows.Pairwise fun a b => a.start ≤ b.start) {w : ScheduleWindow}
    (hw : w ∈ windows) (hbefore : ∀ v ∈ windows, v.start < w.start → f v = none)
    (hsame : ∀ v ∈ windows, v.start = w.start → f v = some t) : windows.findSome? f = some t := by
  induction windows with
  | nil => cases hw
  | cons v rest ih =>
    obtain ⟨hhead, hrest⟩ := List.pairwise_cons.1 hsorted
    rcases lt_trichotomy v.start w.start with hlt | heq | hgt
    · have hin : w ∈ rest := by
        rcases List.mem_cons.1 hw with rfl | h
        · exact absurd hlt (lt_irrefl _)
        · exact h
      rw [List.findSome?_cons, hbefore v List.mem_cons_self hlt]
      exact ih hrest hin (fun u hu => hbefore u (List.mem_cons_of_mem v hu))
        (fun u hu => hsame u (List.mem_cons_of_mem v hu))
    · rw [List.findSome?_cons, hsame v List.mem_cons_self heq]
    · rcases List.mem_cons.1 hw with rfl | h
      · exact absurd hgt (lt_irrefl _)
      · exact absurd (hhead w h) (not_le.2 hgt)

omit [Intl] in
theorem findSome?_range {f : ℕ → Option ℤ} {k m : ℕ} (hk : k < m)
    (hbefore : ∀ i < k, f i = none) (hat : f k = some t) :
    (List.range m).findSome? f = some t := by
  induction m with
  | zero => omega
  | succ m ih =>
    rw [List.range_succ, List.findSome?_append]
    rcases Nat.lt_succ_iff_lt_or_eq.1 hk with hlt | rfl
    · rw [ih hlt]
      rfl
    · rw [List.findSome?_eq_none_iff.2 fun i hi => hbefore i (List.mem_range.1 hi)]
      simp [hat]

theorem nextStartOn_none (hzone : FixedOffset schedule.tz offset) {k : ℕ}
    (h : ∀ w ∈ windowsOn schedule (localDay offset now + k),
      ¬now < instantOf offset (localDay offset now + k) w.start.val) :
    nextStartOn schedule now k = none := by
  rw [nextStartOn_eq hzone, List.findSome?_eq_none_iff]
  intro w hw
  rw [List.mem_mergeSort] at hw
  cases hc : candidateOn offset now (localDay offset now + k) w.start.val with
  | none => rfl
  | some t => exact absurd (candidateOn_later w.start.property (by omega) hc) (h w hw)

theorem findNextAllowedAt_none (hzone : FixedOffset schedule.tz offset)
    (hpaused : schedule.paused = false) (h : ∀ t, ¬IsOpening schedule offset now n t) :
    findNextAllowedAt schedule now n = none := by
  unfold findNextAllowedAt
  rw [List.findSome?_eq_none_iff]
  intro k hk
  apply nextStartOn_none hzone
  intro w hw hlater
  have hk := List.mem_range.1 hk
  exact h _ (isOpening_instantOf hzone hpaused hw hlater (by omega))

/-- The search finds the earliest opening if the offset does not move its clock past midnight. -/
theorem findNextAllowedAt_eq (hzone : FixedOffset schedule.tz offset)
    (h : IsEarliest schedule offset now n t) (hyear : 100 ≤ (civilOfDays (localDay offset t)).1)
    (hclock : 0 ≤ localMinute offset t + offset ∧ localMinute offset t + offset < 1440) :
    findNextAllowedAt schedule now n = some t := by
  obtain ⟨hopening, hfirst⟩ := h
  have hpaused := hopening.opens.1
  obtain ⟨w, hw, hstart, ht⟩ := hopening.exists_window hzone
  have hlater := hopening.later
  have hday : localDay offset now ≤ localDay offset t := by
    rw [ht, lt_instantOf_iff w.start.property] at hlater
    omega
  obtain ⟨k, hk⟩ := Int.le.dest hday
  have hwithin := hopening.within
  -- No window that would open earlier is still to open.
  have hnone : ∀ day, localDay offset now ≤ day → day ≤ localDay offset t →
      ∀ v ∈ windowsOn schedule day, instantOf offset day v.start.val < t →
        ¬now < instantOf offset day v.start.val := by
    intro day hfrom hto v hv hearlier hnow
    have hle := hfirst _ (isOpening_instantOf hzone hpaused hv hnow (by omega))
    omega
  unfold findNextAllowedAt
  apply findSome?_range (k := k) (by omega)
  · intro i hi
    apply nextStartOn_none hzone
    intro v hv
    apply hnone _ (by omega) (by omega) v hv
    have hminute := v.start.property
    refine lt_of_lt_of_eq ?_ ht.symm
    unfold instantOf
    omega
  · rw [nextStartOn_eq hzone, hk]
    have hsorted : ((windowsOn schedule (localDay offset t)).mergeSort
        fun a b => decide (a.start ≤ b.start)).Pairwise fun a b => a.start ≤ b.start := by
      have h := @List.pairwise_mergeSort ScheduleWindow (fun a b => decide (a.start ≤ b.start))
        (fun a b c hab hbc => by
          simp only [decide_eq_true_eq] at hab hbc ⊢
          exact hab.trans hbc)
        (fun a b => by simpa using le_total a.start b.start)
        (windowsOn schedule (localDay offset t))
      simpa using h
    apply findSome?_sorted hsorted (List.mem_mergeSort.2 hw)
    · intro v hv hlt
      rw [List.mem_mergeSort] at hv
      cases hc : candidateOn offset now (localDay offset t) v.start.val with
      | none => rfl
      | some u =>
        refine absurd (candidateOn_later v.start.property hday hc) (hnone _ hday le_rfl v hv ?_)
        have hlt : v.start.val < w.start.val := hlt
        refine lt_of_lt_of_eq ?_ ht.symm
        unfold instantOf
        omega
    · intro v _ heq
      rw [heq, hstart, candidateOn_eq (localMinute_lt offset t) hyear hclock]
      · rw [← hstart, ← ht]
      · rw [← hstart, ← ht]
        exact hlater

/-- What the search finds lies from the year 100 on, at a minute the offset does not move past
midnight. -/
theorem findNextAllowedAt_clock (hzone : FixedOffset schedule.tz offset)
    (hoffset : -720 ≤ offset ∧ offset ≤ 840) (h : findNextAllowedAt schedule now n = some t) :
    100 ≤ (civilOfDays (localDay offset t)).1 ∧ 0 ≤ localMinute offset t + offset ∧
      localMinute offset t + offset < 1440 := by
  obtain ⟨k, -, hk⟩ := List.exists_of_findSome?_eq_some h
  rw [nextStartOn_eq hzone] at hk
  obtain ⟨w, -, hw⟩ := List.exists_of_findSome?_eq_some hk
  exact candidateOn_clock w.start.property hoffset hw

omit [Intl] in
theorem exists_isEarliest [Intl] (h : ∃ t, IsOpening schedule offset now n t) :
    ∃ t, IsEarliest schedule offset now n t := by
  obtain ⟨t, ht, hfirst⟩ := Int.exists_least_of_bdd
    ⟨now, fun t (ht : IsOpening schedule offset now n t) => ht.later.le⟩ h
  exact ⟨t, ht, hfirst⟩

theorem isWithinSchedule_closed (h : isWithinSchedule schedule now n ≠ .allowed) :
    isWithinSchedule schedule now n
      = .blocked (if schedule.paused then none else findNextAllowedAt schedule now n) := by
  unfold isWithinSchedule at h ⊢
  split
  · rfl
  · next hpaused =>
    rw [if_neg hpaused] at h
    split
    · next hopen =>
      rw [if_pos hopen] at h
      exact absurd rfl h
    · rfl

/-- While a schedule is closed the promised time is the earliest opening, or none where none comes,
exactly if the earliest opening lies from the year 100 on and the offset does not move the minute
it starts at past midnight. -/
theorem nextAllowedAt_iff (hzone : FixedOffset schedule.tz offset)
    (hoffset : -720 ≤ offset ∧ offset ≤ 840)
    (hclosed : isWithinSchedule schedule now n ≠ .allowed) :
    (∃ nextAllowedAt, isWithinSchedule schedule now n = .blocked nextAllowedAt ∧
        IsNext schedule offset now n nextAllowedAt) ↔
      ∀ t, IsEarliest schedule offset now n t →
        100 ≤ (civilOfDays (localDay offset t)).1 ∧ 0 ≤ localMinute offset t + offset ∧
          localMinute offset t + offset < 1440 := by
  rw [isWithinSchedule_closed hclosed]
  constructor
  · rintro ⟨nextAllowedAt, hanswer, hnext⟩ t ht
    have hpaused := ht.1.opens.1
    rw [if_neg (by simp [hpaused])] at hanswer
    cases nextAllowedAt with
    | none => exact absurd ht.1 (hnext t)
    | some t' =>
      have hsame : t' = t := le_antisymm (hnext.2 t ht.1) (ht.2 t' hnext.1)
      apply findNextAllowedAt_clock hzone hoffset
      rw [← hsame]
      exact Within.blocked.inj hanswer
  · intro hclock
    refine ⟨_, rfl, ?_⟩
    split
    · next hpaused =>
      intro t ht
      have hopen := ht.opens.1
      simp [hpaused] at hopen
    · next hpaused =>
      by_cases hexists : ∃ t, IsOpening schedule offset now n t
      · obtain ⟨t, ht⟩ := exists_isEarliest hexists
        obtain ⟨hyear, hmidnight⟩ := hclock t ht
        rw [findNextAllowedAt_eq hzone ht hyear hmidnight]
        exact ht
      · rw [findNextAllowedAt_none hzone (by simpa using hpaused) (not_exists.1 hexists)]
        exact not_exists.1 hexists

end

/-! ## A zone nine hours ahead -/

/-- A platform whose zones all lie `offset` minutes east of Universal Time. -/
@[reducible] def fixedClock (offset : ℤ) : Intl where
  knowsZone _ := true
  formatToParts _ t :=
    { year := shownYear (civilOfDays (localDay offset t)).1
      month := (civilOfDays (localDay offset t)).2.1
      day := (civilOfDays (localDay offset t)).2.2
      hour := localMinute offset t / 60
      minute := localMinute offset t % 60
      weekday := weekdayOfDays (localDay offset t) }

theorem fixedOffset_fixedClock (tz : JsString) (offset : ℤ) :
    @FixedOffset (fixedClock offset) tz offset :=
  letI := fixedClock offset
  { year := fun _ => rfl
    month := fun _ => rfl
    day := fun _ => rfl
    weekday := fun _ => rfl
    hour := fun t => by
      have hlt := localMinute_lt offset t
      show localMinute offset t / 60 % 24 = localMinute offset t / 60 ∧ localMinute offset t / 60 ≤ 24
      omega
    minute := fun _ => rfl }

theorem fourPm_lt : 960 < 1440 := by omega

theorem fivePm_lt : 1020 < 1440 := by omega

/-- Open from 16:00 to 17:00 on every day. -/
def afterSchool : GrantSchedule where
  tz := lit "Asia/Tokyo"
  weekly _ := some [{ start := ⟨960, fourPm_lt⟩, stop := ⟨1020, fivePm_lt⟩ }]
  issuedAt := 1714000000

theorem valid_afterSchool (offset : ℤ) : @GrantSchedule.Valid (fixedClock offset) afterSchool :=
  letI := fixedClock offset
  { zone := rfl
    issuedAt_pos := by norm_num [afterSchool]
    weekly_lt := by
      intro day windows hwindows w hw
      rw [← Option.some.inj hwindows, List.mem_singleton] at hw
      rw [hw]
      exact show 960 < 1020 by omega
    overrides_lt := fun e he => absurd he List.not_mem_nil
    dates := fun date hdate => absurd hdate List.not_mem_nil }

theorem windowsOn_afterSchool (day : ℤ) :
    windowsOn afterSchool day = [{ start := ⟨960, fourPm_lt⟩, stop := ⟨1020, fivePm_lt⟩ }] := rfl

theorem closed_afterSchool {offset now : ℤ} (h : localMinute offset now < 960) (n : ℕ) :
    @isWithinSchedule (fixedClock offset) afterSchool now n ≠ .allowed := by
  let _ := fixedClock offset
  have hopen : afterSchool.opensAt (extractInTz now afterSchool.tz) = false := by
    rw [(fixedOffset_fixedClock afterSchool.tz offset).extractInTz_eq]
    unfold GrantSchedule.opensAt
    show (windowsOn afterSchool (localDay offset now)).any _ = false
    rw [windowsOn_afterSchool]
    simp [ScheduleWindow.contains, h]
  have hpaused : afterSchool.paused = false := rfl
  unfold isWithinSchedule
  simp [hopen, hpaused]

theorem nextAllowedAt_iff_sample :
    letI := fixedClock 0
    (∃ nextAllowedAt, isWithinSchedule afterSchool (dateUtc 2026 6 2 720) 30
          = .blocked nextAllowedAt ∧
        IsNext afterSchool 0 (dateUtc 2026 6 2 720) 30 nextAllowedAt) ↔
      ∀ t, IsEarliest afterSchool 0 (dateUtc 2026 6 2 720) 30 t →
        100 ≤ (civilOfDays (localDay 0 t)).1 ∧ 0 ≤ localMinute 0 t + (0 : ℤ) ∧
          localMinute 0 t + (0 : ℤ) < 1440 :=
  letI := fixedClock 0
  nextAllowedAt_iff (fixedOffset_fixedClock _ 0) (by decide) (closed_afterSchool (by decide) 30)

/-- At noon in Tokyo no time is promised although the afternoon is allowed: 16:00 and nine hours
pass midnight. -/
theorem afternoon_not_promised :
    letI := fixedClock 540
    afterSchool.Valid ∧
    isWithinSchedule afterSchool (dateUtc 2026 6 2 180) 30 ≠ .allowed ∧
    IsEarliest afterSchool 540 (dateUtc 2026 6 2 180) 30 (dateUtc 2026 6 2 420) ∧
    ¬∃ nextAllowedAt, isWithinSchedule afterSchool (dateUtc 2026 6 2 180) 30
        = .blocked nextAllowedAt ∧
      IsNext afterSchool 540 (dateUtc 2026 6 2 180) 30 nextAllowedAt := by
  let _ := fixedClock 540
  have hzone := fixedOffset_fixedClock afterSchool.tz 540
  have hclosed := @closed_afterSchool 540 (dateUtc 2026 6 2 180) (by decide) 30
  have hday : localDay 540 (dateUtc 2026 6 2 180) = 20606 := by decide
  have hminute : localMinute 540 (dateUtc 2026 6 2 180) = 720 := by decide
  have hinstant : dateUtc 2026 6 2 420 = instantOf 540 20606 960 := by decide
  have hearliest : IsEarliest afterSchool 540 (dateUtc 2026 6 2 180) 30 (dateUtc 2026 6 2 420) := by
    rw [hinstant]
    refine ⟨isOpening_instantOf hzone rfl (List.mem_singleton.2 rfl) ?_ (by omega), ?_⟩
    · rw [lt_instantOf_iff (by decide), hday, hminute]
      exact .inr ⟨rfl, by decide⟩
    · intro t ht
      obtain ⟨w, hw, -, hat⟩ := ht.exists_window hzone
      rw [windowsOn_afterSchool, List.mem_singleton] at hw
      have hlater := ht.later
      rw [hat, lt_instantOf_iff w.start.property, hday] at hlater
      rw [hat, hw]
      unfold instantOf
      dsimp only
      omega
  refine ⟨valid_afterSchool 540, hclosed, hearliest, ?_⟩
  rintro ⟨nextAllowedAt, hanswer, hnext⟩
  cases nextAllowedAt with
  | none => exact hnext _ hearliest.1
  | some t =>
    have hsame : t = dateUtc 2026 6 2 420 := le_antisymm (hnext.2 _ hearliest.1) (hearliest.2 t hnext.1)
    rw [isWithinSchedule_closed hclosed] at hanswer
    obtain ⟨-, -, hclock⟩ := findNextAllowedAt_clock hzone (by decide) (Within.blocked.inj hanswer)
    rw [hsame] at hclock
    exact absurd hclock (by decide)

end SignetApp.Grants
