/-
The timestamps of a report (`_timestamp`): the date an instant falls on, and how it is spelt. The date comparison of
the SDK reads a timestamp as its instant, cut to the millisecond.
-/
import ConfigDirector.Evaluation.Coercion
import ConfigDirector.Evaluation.DateFormat
import ConfigDirector.Python.Decimal
import ConfigDirector.Telemetry.Queue

namespace ConfigDirector.Telemetry

open Python Evaluation

/-! ## Dates -/

structure CivilDate where
  year : ℤ
  month : ℤ
  day : ℤ

/-- `date.fromordinal`: the 400, 100, 4 and single years before the day, and then the month, which may be
estimated one too late. -/
def dateOfOrdinal (ordinal : ℤ) : CivilDate :=
  let n := ordinal - 1
  let n400 := n / 146097
  let n := n % 146097
  let n100 := n / 36524
  let n := n % 36524
  let n4 := n / 1461
  let n := n % 1461
  let n1 := n / 365
  let n := n % 365
  let year := n400 * 400 + n100 * 100 + n4 * 4 + n1 + 1
  if n1 = 4 ∨ n100 = 4 then ⟨year - 1, 12, 31⟩
  else
    let month := (n + 50) / 32
    if n < daysBeforeMonth year month then ⟨year, month - 1, n - daysBeforeMonth year (month - 1) + 1⟩
    else ⟨year, month, n - daysBeforeMonth year month + 1⟩

/-- A date of the calendar, with its number of the day. -/
structure CivilDate.IsDay (d : CivilDate) (ordinal : ℤ) : Prop where
  month : 1 ≤ d.month ∧ d.month ≤ 12
  day : 1 ≤ d.day ∧ d.day ≤ daysInMonth d.year d.month
  ordinal : daysBeforeYear d.year + daysBeforeMonth d.year d.month + d.day = ordinal

theorem daysBeforeMonth_succ (y : ℤ) {m : ℤ} (h : 1 ≤ m ∧ m ≤ 12) :
    daysBeforeMonth y (m + 1) = daysBeforeMonth y m + daysInMonth y m := by
  obtain ⟨hlow, hhigh⟩ := h
  interval_cases m <;> simp [daysBeforeMonth, List.range_succ, add_assoc]

/-- A month begins at most 14 days after a multiple of 32, and the next not before. -/
theorem daysBeforeMonth_bounds (y : ℤ) {m : ℤ} (h : 1 ≤ m ∧ m ≤ 12) : daysBeforeMonth y m ≤ 32 * m - 18 ∧
    (32 * m - 18 ≤ daysBeforeMonth y (m + 1) ∨ 365 ≤ daysBeforeMonth y (m + 1)) := by
  obtain ⟨hlow, hhigh⟩ := h
  cases hleap : isLeap y with
  | false => interval_cases m <;> simp [daysBeforeMonth, daysInMonth, List.range_succ, hleap]
  | true => interval_cases m <;> simp [daysBeforeMonth, daysInMonth, List.range_succ, hleap]

theorem isLeap_iff (y : ℤ) : isLeap y = true ↔ y % 4 = 0 ∧ (y % 100 ≠ 0 ∨ y % 400 = 0) := by
  unfold isLeap
  simp only [Bool.and_eq_true, Bool.or_eq_true, beq_iff_eq, bne_iff_ne]

/-- The month of a day is estimated right, or one too late. -/
theorem isDay_of_month (y : ℤ) {n : ℤ} (hn : 0 ≤ n ∧ n < 365) :
    CivilDate.IsDay
      (if n < daysBeforeMonth y ((n + 50) / 32) then
        ⟨y, (n + 50) / 32 - 1, n - daysBeforeMonth y ((n + 50) / 32 - 1) + 1⟩
      else ⟨y, (n + 50) / 32, n - daysBeforeMonth y ((n + 50) / 32) + 1⟩) (daysBeforeYear y + n + 1) := by
  obtain ⟨m, hm⟩ : ∃ m, m = (n + 50) / 32 := ⟨_, rfl⟩
  rw [← hm]
  have hrange : 1 ≤ m ∧ m ≤ 12 := by omega
  have hbounds := daysBeforeMonth_bounds y hrange
  split
  · rename_i hlate
    have hfirst : 1 ≤ m - 1 := by
      by_contra hone
      have hm1 : m = 1 := by omega
      rw [hm1] at hlate
      exact absurd hlate (not_lt.2 hn.1)
    have hsucc := daysBeforeMonth_succ y (m := m - 1) ⟨hfirst, by omega⟩
    have hprevious := daysBeforeMonth_bounds y (m := m - 1) ⟨hfirst, by omega⟩
    rw [Int.sub_add_cancel] at hsucc
    refine ⟨⟨hfirst, ?_⟩, ⟨?_, ?_⟩, ?_⟩ <;> dsimp only <;> omega
  · rename_i hright
    have hsucc := daysBeforeMonth_succ y hrange
    refine ⟨hrange, ⟨?_, ?_⟩, ?_⟩ <;> dsimp only <;> omega

/-- The days of the years before one, from its 400, 100, 4 and single years. -/
theorem daysBeforeYear_parts (q400 : ℤ) {q100 q4 q1 : ℤ} (h100 : 0 ≤ q100 ∧ q100 ≤ 3) (h4 : 0 ≤ q4 ∧ q4 ≤ 24)
    (h1 : 0 ≤ q1 ∧ q1 ≤ 3) : daysBeforeYear (q400 * 400 + q100 * 100 + q4 * 4 + q1 + 1) =
      q400 * 146097 + q100 * 36524 + q4 * 1461 + q1 * 365 := by
  have hyears : q400 * 400 + q100 * 100 + q4 * 4 + q1 + 1 - 1 = q400 * 400 + q100 * 100 + q4 * 4 + q1 := by omega
  have hfour : (q400 * 400 + q100 * 100 + q4 * 4 + q1) / 4 = q400 * 100 + q100 * 25 + q4 := by omega
  have hhundred : (q400 * 400 + q100 * 100 + q4 * 4 + q1) / 100 = q400 * 4 + q100 := by omega
  have hfourHundred : (q400 * 400 + q100 * 100 + q4 * 4 + q1) / 400 = q400 := by omega
  rw [daysBeforeYear, hyears, hfour, hhundred, hfourHundred]
  omega

/-- A day is so many years of 400, 100, 4 and single years after the first, and so many days into its year. -/
theorem dateOfOrdinal_parts (ordinal : ℤ) : ∃ q400 q100 q4 q1 d : ℤ,
    ordinal - 1 = q400 * 146097 + q100 * 36524 + q4 * 1461 + q1 * 365 + d ∧ (0 ≤ d ∧ d < 365) ∧
      (0 ≤ q1 ∧ q1 * 365 + d < 1461) ∧ (0 ≤ q4 ∧ q4 * 1461 + q1 * 365 + d < 36524) ∧
      (0 ≤ q100 ∧ q100 * 36524 + q4 * 1461 + q1 * 365 + d < 146097) ∧
      dateOfOrdinal ordinal =
        (if q1 = 4 ∨ q100 = 4 then ⟨q400 * 400 + q100 * 100 + q4 * 4 + q1 + 1 - 1, 12, 31⟩
        else if d < daysBeforeMonth (q400 * 400 + q100 * 100 + q4 * 4 + q1 + 1) ((d + 50) / 32) then
          ⟨q400 * 400 + q100 * 100 + q4 * 4 + q1 + 1, (d + 50) / 32 - 1,
            d - daysBeforeMonth (q400 * 400 + q100 * 100 + q4 * 4 + q1 + 1) ((d + 50) / 32 - 1) + 1⟩
        else ⟨q400 * 400 + q100 * 100 + q4 * 4 + q1 + 1, (d + 50) / 32,
          d - daysBeforeMonth (q400 * 400 + q100 * 100 + q4 * 4 + q1 + 1) ((d + 50) / 32) + 1⟩) := by
  refine ⟨(ordinal - 1) / 146097, (ordinal - 1) % 146097 / 36524, (ordinal - 1) % 146097 % 36524 / 1461,
    (ordinal - 1) % 146097 % 36524 % 1461 / 365, (ordinal - 1) % 146097 % 36524 % 1461 % 365, ?_, ?_, ?_, ?_, ?_, rfl⟩ <;>
    omega

/-- The date of a day has the number of that day. -/
theorem isDay_dateOfOrdinal (ordinal : ℤ) : (dateOfOrdinal ordinal).IsDay ordinal := by
  obtain ⟨q400, q100, q4, q1, d, hdays, hd, hq1, hq4, hq100, hdate⟩ := dateOfOrdinal_parts ordinal
  rw [hdate]
  split
  · -- the last day of a leap year, its 366th
    rename_i hlast
    obtain ⟨y, hy⟩ : ∃ y, y = q400 * 400 + q100 * 100 + q4 * 4 + q1 + 1 - 1 := ⟨_, rfl⟩
    rw [← hy]
    have hparts : daysBeforeYear y = ordinal - 366 ∧ isLeap y = true := by
      rw [isLeap_iff]
      rcases hlast with hq | hq
      · have hbounds : q100 ≤ 3 ∧ q4 ≤ 23 := by omega
        have hyear : y = q400 * 400 + q100 * 100 + q4 * 4 + 3 + 1 := by omega
        rw [hyear, daysBeforeYear_parts _ ⟨hq100.1, hbounds.1⟩ ⟨hq4.1, by omega⟩ ⟨by decide, by decide⟩]
        omega
      · have hbounds : q4 = 0 ∧ q1 = 0 ∧ d = 0 := by omega
        have hyear : y = q400 * 400 + 3 * 100 + 24 * 4 + 3 + 1 := by omega
        rw [hyear, daysBeforeYear_parts _ ⟨by decide, by decide⟩ ⟨by decide, by decide⟩ ⟨by decide, by decide⟩]
        omega
    have hdecember : daysBeforeMonth y 12 = 335 := by
      simp [daysBeforeMonth, daysInMonth, List.range_succ, hparts.2]
    refine ⟨⟨?_, ?_⟩, ⟨?_, ?_⟩, ?_⟩ <;> dsimp only
    · decide
    · decide
    · decide
    · exact le_rfl
    · omega
  · rename_i hlast
    have hyear := daysBeforeYear_parts q400 ⟨hq100.1, (by omega : q100 ≤ 3)⟩ ⟨hq4.1, (by omega : q4 ≤ 24)⟩
      ⟨hq1.1, (by omega : q1 ≤ 3)⟩
    have hday := isDay_of_month (q400 * 400 + q100 * 100 + q4 * 4 + q1 + 1) hd
    rw [hyear, show q400 * 146097 + q100 * 36524 + q4 * 1461 + q1 * 365 + d + 1 = ordinal by omega] at hday
    exact hday

/-- The days up to the end of year 9999 are in the years a `date` can hold. -/
theorem year_dateOfOrdinal {ordinal : ℤ} (h : 1 ≤ ordinal ∧ ordinal ≤ 3652059) :
    1 ≤ (dateOfOrdinal ordinal).year ∧ (dateOfOrdinal ordinal).year ≤ 9999 := by
  obtain ⟨q400, q100, q4, q1, d, hdays, hd, hq1, hq4, hq100, hdate⟩ := dateOfOrdinal_parts ordinal
  have hyear : (dateOfOrdinal ordinal).year =
      if q1 = 4 ∨ q100 = 4 then q400 * 400 + q100 * 100 + q4 * 4 + q1 + 1 - 1
      else q400 * 400 + q100 * 100 + q4 * 4 + q1 + 1 := by
    rw [hdate]
    split
    · rfl
    · split <;> rfl
  rw [hyear]
  split <;> omega

/-! ## Timestamps -/

/-- The microseconds of a day. -/
def dayLength : ℤ := 86400000000

/-- The moments a `datetime` can hold: those of the years 1 to 9999. -/
def InCalendar (moment : Instant) : Prop := 1 ≤ moment / dayLength ∧ moment / dayLength ≤ 3652059

/-- A number that is not negative, in at least so many digits. -/
def padded (width : ℕ) (n : ℤ) : Text := zfill width (natText n.toNat)

/-- `_timestamp`. The `isoformat` of a moment in UTC ends in `+00:00`, which is replaced by `Z`. -/
def timestamp (moment : Instant) : Text :=
  let date := dateOfOrdinal (moment / dayLength)
  let time := moment % dayLength
  padded 4 date.year ++ lit "-" ++ padded 2 date.month ++ lit "-" ++ padded 2 date.day ++ lit "T" ++
    padded 2 (time / 3600000000) ++ lit ":" ++ padded 2 (time / 60000000 % 60) ++ lit ":" ++
    padded 2 (time / 1000000 % 60) ++ lit "." ++ padded 3 (time / 1000 % 1000) ++ lit "Z"

theorem digits_padded (width : ℕ) (n : ℤ) (hwidth : 0 < width) (h : n.toNat < 10 ^ width) :
    Digits CodePoint.isAsciiDigit width (padded width n) := by
  have hlength := length_natText_le hwidth h
  refine ⟨?_, allDigits_zfill (allDigits_natText _) width⟩
  rw [padded, zfill, List.length_append, List.length_replicate]
  omega

theorem intOfDigits_padded (width : ℕ) {n : ℤ} (h : 0 ≤ n) : intOfDigits (padded width n) = n := by
  have hdigits : AllDigits (padded width n) := allDigits_zfill (allDigits_natText _) width
  rw [intOfDigits_eq fun c hc => isDecimal_of_isAsciiDigit c (hdigits c hc), padded, zfill, digitValue_append,
    digitValue_zeros, digitValue_natText, zero_mul, zero_add, Int.toNat_of_nonneg h]

theorem encodable_padded (width : ℕ) (n : ℤ) : Encodable (padded width n) := by
  refine encodable_of_lt fun c hc => ?_
  have hdigit := allDigits_zfill (allDigits_natText n.toNat) width c hc
  unfold CodePoint.isAsciiDigit at hdigit
  rw [Bool.and_eq_true, decide_eq_true_eq, decide_eq_true_eq] at hdigit
  omega

theorem encodable_timestamp (moment : Instant) : Encodable (timestamp moment) := by
  have hpunctuation : ∀ s ∈ [lit "-", lit "T", lit ":", lit ".", lit "Z"], Encodable s := by
    intro s hs
    exact encodable_ascii (List.all_eq_true.1
      (show [lit "-", lit "T", lit ":", lit ".", lit "Z"].all (fun s => s.all CodePoint.isAscii) = true from rfl) s hs)
  simp only [List.forall_mem_cons] at hpunctuation
  obtain ⟨hdash, hT, hcolon, hpoint, hZ, -⟩ := hpunctuation
  simp only [timestamp, encodable_append, encodable_padded, hdash, hT, hcolon, hpoint, hZ, and_self]

/-- The parts of a timestamp: its date, and the microseconds of its day. -/
def timestampParts (date : CivilDate) (time : ℤ) : DateText :=
  ⟨padded 4 date.year, some (padded 2 date.month, some (padded 2 date.day)),
    some ⟨padded 2 (time / 3600000000), padded 2 (time / 60000000 % 60),
      some (padded 2 (time / 1000000 % 60), some (padded 3 (time / 1000 % 1000))), some (.zulu 0x5A)⟩⟩

theorem text_timestampParts (moment : Instant) :
    (timestampParts (dateOfOrdinal (moment / dayLength)) (moment % dayLength)).text = timestamp moment := by
  have hdash : lit "-" = [0x2D] := rfl
  have hcolon : lit ":" = [0x3A] := rfl
  have hT : lit "T" = [0x54] := rfl
  have hpoint : lit "." = [0x2E] := rfl
  have hZ : lit "Z" = [0x5A] := rfl
  simp only [timestampParts, timestamp, DateText.text, monthText, timeText, secondText, nestedText, offsetText,
    OffsetText.text, hdash, hcolon, hT, hpoint, hZ, List.append_assoc, List.cons_append, List.nil_append]

section Parts

variable {date : CivilDate} {ordinal time : ℤ}

theorem CivilDate.IsDay.day_le (h : date.IsDay ordinal) : date.day ≤ 31 := by
  refine h.day.2.trans ?_
  unfold daysInMonth
  split
  · split <;> decide
  · split <;> decide

theorem wellFormed_timestampParts (hdate : date.IsDay ordinal) (hyear : 1 ≤ date.year ∧ date.year ≤ 9999)
    (htime : 0 ≤ time ∧ time < 86400000000) : (timestampParts date time).WellFormed CodePoint.isAsciiDigit := by
  have hmonth := hdate.month
  have hday := hdate.day_le
  have hms := digits_padded 3 (time / 1000 % 1000) (by decide) (by omega)
  refine ⟨.inl (digits_padded _ _ (by decide) (by omega)),
    ⟨digits_padded _ _ (by decide) (by omega), digits_padded _ _ (by decide) (by omega)⟩, ?_⟩
  rintro t ⟨⟩
  refine ⟨digits_padded _ _ (by decide) (by omega), digits_padded _ _ (by decide) (by omega),
    ⟨digits_padded _ _ (by decide) (by omega), hms.ne_nil, hms.2⟩, ?_⟩
  rintro o ⟨⟩
  exact .inl rfl

/-- The parts say what they are made from. -/
structure SaysTime (d : DateText) (date : CivilDate) (time : ℤ) : Prop where
  year : d.yearValue = date.year
  month : d.monthValue = date.month
  day : d.dayValue = date.day
  hour : d.hourValue = time / 3600000000
  minute : d.minuteValue = time / 60000000 % 60
  second : d.secondValue = time / 1000000 % 60
  milliseconds : (milliseconds d.fraction : ℤ) = time / 1000 % 1000
  offset : d.offsetValue = 0

theorem saysTime_timestampParts (hdate : date.IsDay ordinal) (hyear : 1 ≤ date.year ∧ date.year ≤ 9999)
    (htime : 0 ≤ time ∧ time < 86400000000) : SaysTime (timestampParts date time) date time where
  year := intOfDigits_padded 4 (by omega)
  month := intOfDigits_padded 2 (by have hmonth := hdate.month; omega)
  day := intOfDigits_padded 2 (by have hday := hdate.day.1; omega)
  hour := intOfDigits_padded 2 (by omega)
  minute := intOfDigits_padded 2 (by omega)
  second := intOfDigits_padded 2 (by omega)
  milliseconds := by
    have hms := digits_padded 3 (time / 1000 % 1000) (by decide) (by omega)
    have hfraction : (timestampParts date time).fraction = padded 3 (time / 1000 % 1000) := rfl
    have hvalue := intOfDigits_padded 3 (n := time / 1000 % 1000) (by omega)
    rw [intOfDigits_eq fun c hc => isDecimal_of_isAsciiDigit c (hms.2 c hc)] at hvalue
    rw [hfraction, Evaluation.milliseconds, hms.1, show 1000 = 10 ^ 3 from rfl, Nat.mul_div_cancel _ (by decide)]
    exact hvalue
  offset := rfl

/-- The instant of the parts is the moment they are made from, cut to the millisecond. -/
theorem SaysTime.instant {d : DateText} (h : SaysTime d date time) (hdate : date.IsDay ordinal)
    (hyear : 1 ≤ date.year ∧ date.year ≤ 9999) : d.instant = (ordinal * 86400000000 + time) / 1000 * 1000 := by
  have hordinal := hdate.ordinal
  rw [dayNumber_eq hyear.1 hdate.month] at hordinal
  rw [DateText.instant, h.year, h.month, h.day, h.hour, h.minute, h.second, h.milliseconds, h.offset, hordinal]
  omega

end Parts

/-- The text is read as a date that exists, in UTC. -/
theorem reads_timestamp {moment : Instant} (h : InCalendar moment) : ∃ d, Reads (timestamp moment) d [] ∧ d.Exists ∧
    d.offsetValue = 0 ∧ d.instant = moment / 1000 * 1000 := by
  have hdate := isDay_dateOfOrdinal (moment / dayLength)
  have hyear := year_dateOfOrdinal h
  have htime : 0 ≤ Int.emod moment dayLength ∧ Int.emod moment dayLength < 86400000000 :=
    ⟨Int.emod_nonneg _ (by decide), Int.emod_lt_of_pos _ (by decide)⟩
  have hsaid := saysTime_timestampParts hdate hyear htime
  have hmoment : moment / dayLength * 86400000000 + moment % dayLength = moment := Int.ediv_mul_add_emod moment dayLength
  have hinstant := hsaid.instant hdate hyear
  refine ⟨_, ⟨(wellFormed_timestampParts hdate hyear htime).mono isDecimal_of_isAsciiDigit, ?_, .inl rfl⟩, ?_,
    hsaid.offset, hinstant.trans (congrArg (fun m : ℤ => m / 1000 * 1000) hmoment)⟩
  · rw [List.append_nil]
    exact (text_timestampParts moment).symm
  · refine ⟨?_, ?_, ?_, ?_, ?_, ?_⟩
    · rw [hsaid.year]
      exact hyear
    · rw [hsaid.month]
      exact hdate.month
    · rw [hsaid.year, hsaid.month, hsaid.day]
      exact hdate.day
    · rw [hsaid.hour]
      omega
    · rw [hsaid.minute]
      omega
    · rw [hsaid.second]
      omega

/-- The date comparison reads a timestamp as its moment, cut to the millisecond. -/
theorem parseDate_of_timestamp {moment : Instant} (h : InCalendar moment) :
    parseDate (timestamp moment) = .ok (some (moment / 1000 * 1000)) := by
  obtain ⟨d, hreads, hexists, hoffset, hinstant⟩ := reads_timestamp h
  rw [(parseDate_of_offset hreads (by rw [hoffset]; decide)).1 hexists, hinstant]

/-- A rule that compares dates orders the timestamps the SDK sends as their moments, to the millisecond: it is after or
before the one or the other. -/
theorem timestamps_ordered (moment moment' : Instant) (h : InCalendar moment) (h' : InCalendar moment')
    (targets : List Text) :
    compareDate (timestamp moment) (lit "is after") (timestamp moment' :: targets) =
        .ok (decide (moment' / 1000 < moment / 1000)) ∧
      compareDate (timestamp moment) (lit "is before") (timestamp moment' :: targets) =
        .ok (decide (moment / 1000 < moment' / 1000)) := by
  have hscale : ∀ a b : ℤ, decide (a * 1000 < b * 1000) = decide (a < b) := by
    intro a b
    rw [decide_eq_decide]
    omega
  unfold compareDate
  dsimp only
  rw [parseDate_of_timestamp h, parseDate_of_timestamp h']
  constructor
  · exact congrArg Except.ok (hscale _ _)
  · exact congrArg Except.ok (hscale _ _)

/-- The last millisecond of a leap day. -/
theorem timestamps_ordered_leapDay :
    compareDate (lit "2024-02-29T23:59:59.999Z") (lit "is before") [lit "2024-03-01T00:00:00.000Z"] = .ok true := by
  have hleap : timestamp (738945 * dayLength + 86399999999) = lit "2024-02-29T23:59:59.999Z" := by decide +kernel
  have hmarch : timestamp (738946 * dayLength) = lit "2024-03-01T00:00:00.000Z" := by decide +kernel
  have hordered := (timestamps_ordered (738945 * dayLength + 86399999999) (738946 * dayLength)
    ⟨by decide, by decide⟩ ⟨by decide, by decide⟩ []).2
  rw [hleap, hmarch] at hordered
  exact hordered

end ConfigDirector.Telemetry
