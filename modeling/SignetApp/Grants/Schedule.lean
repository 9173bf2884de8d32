import SignetApp.Collections.OrderedMap
import SignetApp.Js.Text

/-!
# Schedules

`grant-schedule.ts`: when a dependant may sign. `isWithinSchedule` reads the clock of the schedule's
time zone; `intersectSchedules` combines two schedules into one. What the clock shows belongs to the
platform (`Intl`).
-/

namespace SignetApp.Grants

open SignetApp.Js

/-! ## Shape -/

/-- A time of day `HH:MM`, as the minute it names. -/
abbrev ClockTime := { minutes : ℕ // minutes < 1440 }

structure ScheduleWindow where
  start : ClockTime
  stop : ClockTime
  deriving DecidableEq

inductive Weekday where
  | mon | tue | wed | thu | fri | sat | sun
  deriving DecidableEq

/-- A date as a text `YYYY-MM-DD`. -/
abbrev IsoDate := JsString

structure GrantSchedule where
  tz : JsString
  paused : Bool := false
  /-- A missing day has no windows. -/
  weekly : Weekday → Option (List ScheduleWindow)
  /-- Replaces the weekly entry of a date; an empty list blocks the whole day. -/
  overrides : OrderedMap IsoDate (List ScheduleWindow) := .empty
  issuedAt : ℚ

/-! ## Calendar -/

/-- The number of days from the epoch to a date of the civil calendar. -/
def daysFromCivil (year month day : ℤ) : ℤ :=
  let y := if month ≤ 2 then year - 1 else year
  let era := y.fdiv 400
  let yoe := y - era * 400
  let doy := (153 * (if month > 2 then month - 3 else month + 9) + 2) / 5 + day - 1
  let doe := yoe * 365 + yoe / 4 - yoe / 100 + doy
  era * 146097 + doe - 719468

/-- `Date.UTC(year, month - 1, day, hour, minute)`, in milliseconds. A year below 100 is one of the
twentieth century. -/
def dateUtc (year month day minutes : ℤ) : ℤ :=
  let fullYear := if 0 ≤ year ∧ year ≤ 99 then 1900 + year else year
  (daysFromCivil fullYear month day * 1440 + minutes) * 60000

/-- `WEEKDAY_KEYS`, from Monday. -/
def weekdays : List Weekday := [.mon, .tue, .wed, .thu, .fri, .sat, .sun]

/-- The weekday of a day counted from the epoch, which was a Thursday. -/
def weekdayOfDays (days : ℤ) : Weekday := weekdays.getD ((days + 3).emod 7).toNat .mon

/-- The number the digits of a text stand for. -/
def numberOfDigits (s : JsString) : ℕ := s.foldl (fun n u => 10 * n + (u.val - 48)) 0

/-- `/^\d{4}-\d{2}-\d{2}$/`, with the year, the month and the day. -/
def readIsoDate (s : IsoDate) : Option (ℕ × ℕ × ℕ) :=
  let parts := [s.take 4, (s.drop 5).take 2, s.drop 8]
  if s.length = 10 ∧ s[4]? = some 45 ∧ s[7]? = some 45
      ∧ parts.all (fun part => part.all fun u => 48 ≤ u && u ≤ 57) then
    some (numberOfDigits (s.take 4), numberOfDigits ((s.drop 5).take 2), numberOfDigits (s.drop 8))
  else none

/-- `isoDate.split('-').map(Number)`. -/
def splitDate (isoDate : IsoDate) : List ℕ := (isoDate.splitOn 45).map numberOfDigits

/-- `parseIsoDateInTz(iso)`: a date's weekday does not depend on a time zone. -/
def parseIsoDateInTz (iso : IsoDate) : Option Weekday :=
  (readIsoDate iso).map fun (yy, mm, dd) => weekdayOfDays (daysFromCivil yy mm dd)

/-! ## The clock -/

/-- What a calendar and clock show. -/
structure LocalParts where
  year : ℕ
  month : ℕ
  day : ℕ
  hour : ℕ
  minute : ℕ
  weekday : Weekday

/-- `Intl.DateTimeFormat`: the time zones it knows, and the calendar and clock of a zone at an
instant in milliseconds. -/
class Intl where
  knowsZone : JsString → Bool
  formatToParts : JsString → ℤ → LocalParts

/-- `String(n).padStart(2, '0')`. -/
def pad (n : ℕ) : JsString := if n < 10 then lit "0" ++ lit (Nat.repr n) else lit (Nat.repr n)

structure LocalTime where
  weekday : Weekday
  isoDate : IsoDate
  minutesOfDay : ℕ

def LocalParts.toLocalTime (p : LocalParts) : LocalTime :=
  { weekday := p.weekday
    isoDate := lit (Nat.repr p.year) ++ lit "-" ++ pad p.month ++ lit "-" ++ pad p.day
    -- Some platforms show midnight as 24.
    minutesOfDay := (if p.hour = 24 then 0 else p.hour) * 60 + p.minute }

section
variable [Intl]

def extractInTz (now : ℤ) (tz : JsString) : LocalTime := (Intl.formatToParts tz now).toLocalTime

/-! ## `validateSchedule` -/

/-- The number of days of a month. -/
def daysInMonth (year month : ℕ) : ℕ :=
  if month = 2 then
    if year % 4 = 0 ∧ (year % 100 ≠ 0 ∨ year % 400 = 0) then 29 else 28
  else if month ∈ [4, 6, 9, 11] then 30 else 31

/-- A key that comes back from `Date.UTC` as it went in: years below 100 do not. -/
def isRealDate (date : IsoDate) : Prop :=
  ∃ yy mm dd, readIsoDate date = some (yy, mm, dd) ∧ 100 ≤ yy ∧ 1 ≤ mm ∧ mm ≤ 12 ∧ 1 ≤ dd ∧
    dd ≤ daysInMonth yy mm

/-- What `validateSchedule` checks of a value of this shape. -/
structure GrantSchedule.Valid (schedule : GrantSchedule) : Prop where
  zone : Intl.knowsZone schedule.tz = true
  issuedAt_pos : 0 < schedule.issuedAt
  weekly_lt : ∀ day, ∀ windows ∈ schedule.weekly day, ∀ w ∈ windows, w.start < w.stop
  overrides_lt : ∀ e ∈ schedule.overrides.entries, ∀ w ∈ e.2, w.start < w.stop
  dates : ∀ date ∈ schedule.overrides.keys, isRealDate date

/-! ## `isWithinSchedule` -/

/-- Is a minute of the day inside a window? -/
def ScheduleWindow.contains (w : ScheduleWindow) (minutesOfDay : ℕ) : Bool :=
  w.start.val ≤ minutesOfDay && minutesOfDay < w.stop.val

/-- The entry of a date: its override, else that of its weekday. -/
def GrantSchedule.entry (schedule : GrantSchedule) (isoDate : IsoDate) (weekday : Weekday) :
    Option (List ScheduleWindow) :=
  (schedule.overrides.get isoDate).or (schedule.weekly weekday)

/-- The active windows of a date. -/
def resolveDayWindows (schedule : GrantSchedule) (isoDate : IsoDate) (weekday : Weekday) :
    List ScheduleWindow :=
  (schedule.entry isoDate weekday).getD []

/-- The instant at which the clock of `tz` shows a minute on the day of `probe`; `none` in a gap or
an ambiguity. -/
def absoluteDateFromTzClock (probe : ℤ) (tz : JsString) (minutesOfDay : ℕ) : Option ℤ :=
  let isoDate := (extractInTz probe tz).isoDate
  match splitDate isoDate with
  | [yy, mm, dd] =>
    let utcGuess := dateUtc yy mm dd minutesOfDay
    let offsetMin : ℤ := (extractInTz utcGuess tz).minutesOfDay - minutesOfDay
    let candidate := utcGuess - offsetMin * 60000
    let verify := extractInTz candidate tz
    if verify.isoDate = isoDate ∧ verify.minutesOfDay = minutesOfDay then some candidate else none
  | _ => none

/-- The first window of one day that starts after `now`. -/
def nextStartOn (schedule : GrantSchedule) (now : ℤ) (dayOffset : ℕ) : Option ℤ :=
  let probe := now + dayOffset * 86400000
  let time := extractInTz probe schedule.tz
  let sorted := (resolveDayWindows schedule time.isoDate time.weekday).mergeSort
    fun a b => a.start ≤ b.start
  (sorted.filterMap fun w =>
    if dayOffset = 0 ∧ w.start.val ≤ time.minutesOfDay then none
    else (absoluteDateFromTzClock probe schedule.tz w.start.val).filter (now < ·)).head?

def findNextAllowedAt (schedule : GrantSchedule) (now : ℤ) (horizonDays : ℕ) : Option ℤ :=
  (List.range (horizonDays + 1)).findSome? (nextStartOn schedule now)

/-- The answer of `isWithinSchedule`. -/
inductive Within where
  | allowed
  | blocked (nextAllowedAt : Option ℤ)
  deriving DecidableEq

/-- Do the windows of the day hold the time of day? -/
def GrantSchedule.opensAt (schedule : GrantSchedule) (time : LocalTime) : Bool :=
  (resolveDayWindows schedule time.isoDate time.weekday).any (·.contains time.minutesOfDay)

def isWithinSchedule (schedule : GrantSchedule) (now : ℤ) (horizonDays : ℕ) : Within :=
  if schedule.paused then .blocked none
  else if schedule.opensAt (extractInTz now schedule.tz) then .allowed
  else .blocked (findNextAllowedAt schedule now horizonDays)

end

/-! ## `intersectSchedules` -/

/-- The minutes two windows share. -/
def ScheduleWindow.meet (a b : ScheduleWindow) : Option ScheduleWindow :=
  let w : ScheduleWindow := { start := max a.start b.start, stop := min a.stop b.stop }
  if w.start < w.stop then some w else none

/-- Merge windows that touch, given in the order of their starts; `last` is the one being grown. -/
def mergeTouching (last : ScheduleWindow) : List ScheduleWindow → List ScheduleWindow
  | [] => [last]
  | w :: rest =>
    if w.start ≤ last.stop then mergeTouching { last with stop := max last.stop w.stop } rest
    else last :: mergeTouching w rest

/-- An absent list passes the other one through. -/
def intersectWindowLists (a b : Option (List ScheduleWindow)) : List ScheduleWindow :=
  match a, b with
  | none, none => []
  | none, some b => b
  | some a, none => a
  | some a, some b =>
    let out := a.flatMap fun aw => b.filterMap aw.meet
    match out.mergeSort fun x y => x.start ≤ y.start with
    | [] => []
    | first :: rest => mergeTouching first rest

/-- The dates either side overrides, each with the intersection of what the two resolve it to. -/
def intersectOverrides (a b : GrantSchedule) : OrderedMap IsoDate (List ScheduleWindow) :=
  (a.overrides.keys ++ b.overrides.keys).foldl (fun overrides date =>
    let weekday := (parseIsoDateInTz date).getD .mon
    overrides.set date (intersectWindowLists (a.entry date weekday) (b.entry date weekday))) .empty

/-- The intersection of two schedules that are both there. -/
def intersectBoth (a b : GrantSchedule) : GrantSchedule :=
  if a.paused || b.paused then
    { tz := if a.paused then a.tz else b.tz, paused := true, weekly := fun _ => none
      issuedAt := max a.issuedAt b.issuedAt }
  else
    { tz := a.tz
      weekly := fun day =>
        match intersectWindowLists (a.weekly day) (b.weekly day) with
        | [] => none
        | windows => some windows
      overrides := intersectOverrides a b
      issuedAt := max a.issuedAt b.issuedAt }

def intersectSchedules (a b : Option GrantSchedule) : Option GrantSchedule :=
  match a, b with
  | none, b => b
  | a, none => a
  | some a, some b => some (intersectBoth a b)

end SignetApp.Grants
