import Courier.Proofs.Numerals
import Courier.Time.Rfc3339
import Mathlib.Tactic.IntervalCases

namespace Courier

namespace Date

variable {n : Int}

/-- The parts of a date: the cycle of 400 years, the century, group of four years and year in it,
and the day of the year, which begins in March. A year has a day 365 only before a year that is a
leap year. -/
theorem ofDayNumber_parts (n : Int) : ∃ (cycle : Int) (c g s r : Nat),
    c ≤ 3 ∧ g ≤ 24 ∧ s ≤ 3 ∧ r ≤ 365 ∧ (r = 365 → s = 3 ∧ (g < 24 ∨ c = 3)) ∧
      n + 719468 = 146097 * cycle + 36524 * c + 1461 * g + 365 * s + r ∧
      ofDayNumber n =
        { year := if (5 * r + 2) / 153 < 10 then 400 * cycle + 100 * c + 4 * g + s
            else 400 * cycle + 100 * c + 4 * g + s + 1
          month := if (5 * r + 2) / 153 < 10 then (5 * r + 2) / 153 + 3 else (5 * r + 2) / 153 - 9
          day := r - (153 * ((5 * r + 2) / 153) + 2) / 5 + 1 } := by
  have low := Int.emod_nonneg (n + 719468) (b := 146097) (by decide)
  have high := Int.emod_lt_of_pos (n + 719468) (b := 146097) (by decide)
  refine ⟨(n + 719468) / 146097, _, _, _, _, ?_, ?_, ?_, ?_, ?_, ?_, rfl⟩
  all_goals omega

theorem isLeapYear_of_parts (cycle : Int) {c g : Nat} (hg : g ≤ 24) (leap : g < 24 ∨ c = 3) :
    isLeapYear (400 * cycle + 100 * c + 4 * g + 3 + 1) = true := by
  simp only [isLeapYear, Bool.and_eq_true, Bool.or_eq_true, beq_iff_eq, bne_iff_ne]
  omega

theorem daysInMonth_le (year : Int) (month : Nat) : daysInMonth year month ≤ 31 := by
  unfold daysInMonth
  repeat' split
  all_goals decide

/-- Every day has a date that exists. -/
theorem isValid_ofDayNumber (n : Int) : (ofDayNumber n).isValid = true := by
  obtain ⟨cycle, c, g, s, r, _, hg, _, hr, last, _, same⟩ := ofDayNumber_parts n
  rw [same]
  have month : (5 * r + 2) / 153 ≤ 11 := by omega
  generalize hm : (5 * r + 2) / 153 = m at month ⊢
  interval_cases m
  case «11» =>
      by_cases full : r = 365
      · obtain ⟨rfl, leap⟩ := last full
        have longer := isLeapYear_of_parts cycle hg leap
        simp [isValid, daysInMonth, longer, full]
      · simp only [isValid, daysInMonth, Nat.reduceLT, Nat.reduceSub, if_false, if_true,
          Bool.and_eq_true, decide_eq_true_eq]
        split <;> omega
  all_goals
    simp [isValid, daysInMonth]
    omega

/-- The dates of the days of all instants lie in the years that may be written. -/
theorem year_ofDayNumber (first : Instant.firstSecond ≤ 86400 * n)
    (last : 86400 * n ≤ Instant.lastSecond) :
    -262143 ≤ (ofDayNumber n).year ∧ (ofDayNumber n).year ≤ 262142 := by
  unfold Instant.firstSecond at first
  unfold Instant.lastSecond at last
  obtain ⟨cycle, c, g, s, r, hc, hg, hs, hr, _, day, same⟩ := ofDayNumber_parts n
  rw [same]
  dsimp only
  -- the first and the last year belong to these two cycles
  have cycles : cycle = -656 ∨ cycle = 655 ∨ -656 < cycle ∧ cycle < 655 := by omega
  rcases cycles with rfl | rfl | _
  · interval_cases c <;> split <;> omega
  · interval_cases c <;> split <;> omega
  · split <;> omega

end Date

namespace Rfc3339

open Text

variable {n : Nat} {rest : List Char}

theorem isBlank_of_isDigit {c : Char} (digit : isDigit c = true) : isBlank c = false := by
  simp only [isDigit, digitValue?] at digit
  split at digit
  · rename_i range
    obtain ⟨low, high⟩ := range
    simp [isBlank]
    omega
  · cases digit

/-- A run of digits is read as far as it goes, or as far as it may go. -/
theorem digits?_run {most : Nat} {ds : List Char} (digits : ∀ c ∈ ds, isDigit c = true)
    (some : ds ≠ []) (fits : ds.length ≤ most)
    (stops : ds.length = most ∨ ∀ c ∈ rest.head?, isDigit c = false) :
    digits? most (ds ++ rest) = (decimalNumber? ds).map fun n => (n, rest) := by
  have tail : (rest.take (most - ds.length)).takeWhile isDigit = [] := by
    rcases stops with full | stops
    · simp [full]
    · cases rest with
      | nil => simp
      | cons c rest =>
          cases most - ds.length with
          | zero => rfl
          | succ k => simp [stops c rfl]
  have run : ((ds ++ rest).take most).takeWhile isDigit = ds := by
    rw [List.take_append, List.take_of_length_le fits, List.takeWhile_append_of_pos digits, tail,
      List.append_nil]
  simp [digits?, run, some]

theorem trimStart_digits {ds : List Char} (digits : ∀ c ∈ ds, isDigit c = true) (some : ds ≠ []) :
    trimStart (ds ++ rest) = ds ++ rest := by
  cases ds with
  | nil => exact absurd rfl some
  | cons c ds => exact trimStart_of_head (isBlank_of_isDigit (digits c List.mem_cons_self))

theorem field?_digits (small : n < 100) : field? (decimalDigits 2 n ++ rest) = some (n, rest) := by
  have digits : ∀ c ∈ decimalDigits 2 n, isDigit c = true := fun c => isDigit_of_mem_decimalDigits
  have some : decimalDigits 2 n ≠ [] := List.ne_nil_of_length_pos (by simp)
  rw [field?, trimStart_digits digits some,
    digits?_run digits some (Nat.le_of_eq (length_decimalDigits 2 n))
      (.inl (length_decimalDigits 2 n)),
    decimalNumber?_decimalDigits small]
  rfl

theorem literal?_self {c : Char} (visible : isBlank c = false) :
    literal? c (c :: rest) = some rest := by
  simp [literal?, trimStart_of_head visible]

theorem decimalNumber?_zeros (k : Nat) (cs : List Char) :
    decimalNumber? (List.replicate k '0' ++ cs) = decimalNumber? cs := by
  induction k with
  | zero => rfl
  | succ k ih => exact ih

/-- A signed year is a sign and at least four digits. -/
theorem digits?_padded (n : Nat) (rest : List Char) :
    let ds := List.replicate (4 - (numeral n).length) '0' ++ numeral n
    digits? (ds ++ '-' :: rest).length (ds ++ '-' :: rest) = some (n, '-' :: rest) := by
  intro ds
  have digits : ∀ c ∈ ds, isDigit c = true := by
    intro c mem
    rcases List.mem_append.mp mem with zero | digit
    · rw [List.eq_of_mem_replicate zero]
      rfl
    · exact isDigit_of_mem_numeral digit
  have some : ds ≠ [] := List.append_ne_nil_of_right_ne_nil _ (numeral_ne_nil n)
  rw [digits?_run digits some (by simp) (.inr (by simp; decide)), decimalNumber?_zeros,
    decimalNumber?_numeral]
  rfl

theorem year?_renderYear (year : Int) :
    year? (renderYear year ++ '-' :: rest) = some (year, '-' :: rest) := by
  unfold renderYear
  split
  · rename_i plain
    have small : year.natAbs < 10 ^ 4 := by omega
    have digits : ∀ c ∈ decimalDigits 4 year.natAbs, isDigit c = true :=
      fun c => isDigit_of_mem_decimalDigits
    obtain ⟨c, cs, begins⟩ :=
      List.exists_cons_of_length_pos (l := decimalDigits 4 year.natAbs) (by simp)
    have digit : isDigit c = true := digits c (begins ▸ List.mem_cons_self)
    have some : decimalDigits 4 year.natAbs ≠ [] := by simp [begins]
    have read : digits? 4 (decimalDigits 4 year.natAbs ++ '-' :: rest) =
        (decimalNumber? (decimalDigits 4 year.natAbs)).map fun n => (n, '-' :: rest) :=
      digits?_run digits some (Nat.le_of_eq (length_decimalDigits 4 _))
        (.inl (length_decimalDigits 4 _))
    rw [decimalNumber?_decimalDigits small, Option.map_some] at read
    rw [year?, trimStart_digits digits some]
    rw [begins, List.cons_append] at read ⊢
    split
    · rename_i same
      cases same
      cases digit
    · rename_i same
      cases same
      cases digit
    · rw [read]
      simp
      omega
  · rename_i signed
    have read := digits?_padded year.natAbs rest
    by_cases negative : year < 0
    · have value : -(year.natAbs : Int) = year := by omega
      simp only [negative, if_true, List.cons_append, year?,
        trimStart_of_head (show isBlank '-' = false by decide)]
      rw [read, Option.map_some, value]
    · have value : (year.natAbs : Int) = year := by omega
      simp only [negative, if_false, List.cons_append, year?,
        trimStart_of_head (show isBlank '+' = false by decide)]
      rw [read, Option.map_some, value]

theorem fraction?_run {width : Nat} {digits : Nat} (room : digits < 10 ^ width) (some : width ≠ 0)
    (fits : width ≤ 9) :
    fraction? ('.' :: decimalDigits width digits ++ 'Z' :: rest) =
      .some (digits * 10 ^ (9 - width), 'Z' :: rest) := by
  have all : ∀ c ∈ decimalDigits width digits, isDigit c = true :=
    fun c => isDigit_of_mem_decimalDigits
  have stops : (('Z' :: rest).take (9 - width)).takeWhile isDigit = [] := by
    cases 9 - width with
    | zero => rfl
    | succ k => rfl
  have run : ((decimalDigits width digits ++ 'Z' :: rest).take 9).takeWhile isDigit =
      decimalDigits width digits := by
    rw [List.take_append, List.take_of_length_le (by simpa using fits),
      List.takeWhile_append_of_pos all, length_decimalDigits, stops, List.append_nil]
  have notEmpty : (decimalDigits width digits).isEmpty = false := by
    rw [List.isEmpty_eq_false_iff]
    exact List.ne_nil_of_length_pos (by simpa using Nat.pos_of_ne_zero some)
  have left : List.drop width (decimalDigits width digits ++ 'Z' :: rest) = 'Z' :: rest := by
    simp
  have mark : isDigit 'Z' = false := by decide
  simp [fraction?, run, notEmpty, decimalNumber?_decimalDigits room, left, mark]

theorem fraction?_renderFraction {nanos : Nat} (small : nanos < 1000000000) :
    fraction? (renderFraction nanos ++ 'Z' :: rest) = some (nanos, 'Z' :: rest) := by
  unfold renderFraction
  split
  · rename_i none
    subst none
    rfl
  · split
    · rw [fraction?_run (by omega) (by decide) (by decide)]
      congr
      omega
    · split
      · rw [fraction?_run (by omega) (by decide) (by decide)]
        congr
        omega
      · rw [fraction?_run (by omega) (by decide) (by decide)]
        simp

theorem date?_written {d : Date} (month : d.month < 100) (day : d.day < 100) :
    date? (renderYear d.year ++ '-' ::
      (decimalDigits 2 d.month ++ '-' :: (decimalDigits 2 d.day ++ rest))) = some (d, rest) := by
  have visible : isBlank '-' = false := by decide
  simp only [date?, year?_renderYear, literal?_self visible, field?_digits month, field?_digits day,
    Option.bind_eq_bind, Option.bind_some, Option.pure_def]

/-- A time of day is read as its second and the nanoseconds in it. The 60th second is the leap
second. -/
theorem time?_written {hour minute second nanos : Nat} (hours : hour ≤ 23) (minutes : minute ≤ 59)
    (seconds : second ≤ 60) (small : nanos < 1000000000) :
    time? (decimalDigits 2 hour ++ ':' ::
      (decimalDigits 2 minute ++ ':' :: (decimalDigits 2 second ++
        (renderFraction nanos ++ 'Z' :: rest)))) =
      some (if second = 60 then (3600 * hour + 60 * minute + 59, 1000000000 + nanos, 'Z' :: rest)
        else (3600 * hour + 60 * minute + second, nanos, 'Z' :: rest)) := by
  have visible : isBlank ':' = false := by decide
  have inRange : ¬(23 < hour ∨ 59 < minute ∨ 60 < second) := by omega
  simp only [time?, field?_digits (show hour < 100 by omega), literal?_self visible,
    field?_digits (show minute < 100 by omega), field?_digits (show second < 100 by omega),
    fraction?_renderFraction small, Option.bind_eq_bind, Option.bind_some, if_neg inRange]
  split <;> rfl

/-- The text of an instant is read as the second of its day and the nanoseconds in it. -/
theorem time?_of_instant (t : Instant) :
    time? (decimalDigits 2 (t.secondOfDay / 3600) ++ ':' ::
      (decimalDigits 2 (t.secondOfDay / 60 % 60) ++
        ':' :: (decimalDigits 2 (if t.isLeap then 60 else t.secondOfDay % 60) ++
          (renderFraction (t.nano % 1000000000) ++ 'Z' :: rest)))) =
      some (t.secondOfDay, t.nano, 'Z' :: rest) := by
  have bound : t.secondOfDay < 86400 := by
    unfold Instant.secondOfDay
    omega
  have seconds : (if t.isLeap then 60 else t.secondOfDay % 60) ≤ 60 := by
    split <;> omega
  rw [time?_written (by omega) (by omega) seconds (by omega)]
  have nanos := t.nano_lt
  by_cases leap : 1000000000 ≤ t.nano
  · have last : t.secondOfDay % 60 = 59 := by
      have last := t.leap_second leap
      unfold Instant.secondOfDay
      omega
    have isLeap : t.isLeap = true := by simpa [Instant.isLeap] using leap
    simp only [isLeap, if_true, Option.some.injEq, Prod.mk.injEq, and_true]
    omega
  · have isLeap : t.isLeap = false := by simpa [Instant.isLeap] using leap
    have plain : t.secondOfDay % 60 ≠ 60 := by omega
    simp only [isLeap, Bool.false_eq_true, if_false, if_neg plain, Option.some.injEq, Prod.mk.injEq,
      and_true]
    omega

theorem renderChars_eq (t : Instant) : renderChars t =
    renderYear (Date.ofDayNumber (t.second / 86400)).year ++ '-' ::
      (decimalDigits 2 (Date.ofDayNumber (t.second / 86400)).month ++ '-' ::
        (decimalDigits 2 (Date.ofDayNumber (t.second / 86400)).day ++ 'T' ::
          (decimalDigits 2 (t.secondOfDay / 3600) ++ ':' ::
            (decimalDigits 2 (t.secondOfDay / 60 % 60) ++ ':' ::
              (decimalDigits 2 (if t.isLeap then 60 else t.secondOfDay % 60) ++
                (renderFraction (t.nano % 1000000000) ++ ['Z'])))))) := by
  simp only [renderChars, List.append_assoc, List.cons_append, List.nil_append]

/-- Every instant is read back from its text. -/
theorem parse_render (t : Instant) : parse (render t) = some t := by
  have valid := Date.isValid_ofDayNumber (t.second / 86400)
  have years : -262143 ≤ (Date.ofDayNumber (t.second / 86400)).year ∧
      (Date.ofDayNumber (t.second / 86400)).year ≤ 262142 := by
    have first := t.second_ge
    have last := t.second_le
    unfold Instant.firstSecond at first
    unfold Instant.lastSecond at last
    apply Date.year_ofDayNumber
    · unfold Instant.firstSecond
      omega
    · unfold Instant.lastSecond
      omega
  have found : 86400 * Date.dayNumber (Date.ofDayNumber (t.second / 86400)) + t.secondOfDay - 0 =
      t.second := by
    rw [Date.dayNumber_ofDayNumber]
    unfold Instant.secondOfDay
    omega
  have small : (Date.ofDayNumber (t.second / 86400)).month < 100 ∧
      (Date.ofDayNumber (t.second / 86400)).day < 100 := by
    simp only [Date.isValid, Bool.and_eq_true, decide_eq_true_eq] at valid
    have month := Date.daysInMonth_le (Date.ofDayNumber (t.second / 86400)).year
      (Date.ofDayNumber (t.second / 86400)).month
    omega
  have utc : offset? ['Z'] = some (0, []) := by decide
  rw [parse, render, String.toList_ofList, renderChars_eq]
  simp only [parseChars, date?_written small.1 small.2, Option.bind_eq_bind, Option.bind_some,
    separator?, time?_of_instant, utc]
  rw [if_pos ⟨rfl, valid, years⟩, found, Instant.ofParts?_parts]

end Rfc3339
end Courier
