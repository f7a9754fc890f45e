namespace Courier

structure Date where
  year : Int
  month : Nat
  day : Nat
  deriving DecidableEq

namespace Date

def isLeapYear (year : Int) : Bool :=
  year % 4 == 0 && (year % 100 != 0 || year % 400 == 0)

def daysInMonth (year : Int) (month : Nat) : Nat :=
  if month = 2 then (if isLeapYear year then 29 else 28)
  else if month = 4 ∨ month = 6 ∨ month = 9 ∨ month = 11 then 30
  else 31

def isValid (d : Date) : Bool :=
  1 ≤ d.month && d.month ≤ 12 && 1 ≤ d.day && d.day ≤ daysInMonth d.year d.month

/-- Days from 1970-01-01. Years are counted from March, so that the leap day comes last, in cycles
of 400 years or 146097 days. -/
def dayNumber (d : Date) : Int :=
  let year := if d.month ≤ 2 then d.year - 1 else d.year
  let month := (d.month + 9) % 12
  let inCycle := year % 400
  146097 * (year / 400) + 365 * inCycle + inCycle / 4 - inCycle / 100
    + ((153 * month + 2) / 5 : Nat) + d.day - 1 - 719468

/-- The date of a day: its cycle, then the century, the group of four years and the year in it,
each of fixed length but for the last one, and the month by its rule of 153 days in five months. -/
def ofDayNumber (n : Int) : Date :=
  let shifted := n + 719468
  let day := (shifted % 146097).toNat
  let century := min (day / 36524) 3
  let day := day - 36524 * century
  let group := day / 1461
  let day := day - 1461 * group
  let single := min (day / 365) 3
  let day := day - 365 * single
  let month := (5 * day + 2) / 153
  let year : Int := 400 * (shifted / 146097) + 100 * century + 4 * group + single
  { year := if month < 10 then year else year + 1
    month := if month < 10 then month + 3 else month - 9
    day := day - (153 * month + 2) / 5 + 1 }

/-- The days before a year within its cycle, for the year called `100 c + 4 g + s` there. -/
theorem days_before_year {cycle : Int} {c g s : Nat} (hc : c ≤ 3) (hg : g ≤ 24) (hs : s ≤ 3) :
    let year := 400 * cycle + 100 * c + 4 * g + s
    146097 * (year / 400) + 365 * (year % 400) + year % 400 / 4 - year % 400 / 100
      = 146097 * cycle + 36524 * c + 1461 * g + 365 * s := by
  have whole : (400 * cycle + 100 * c + 4 * g + s) / 400 = cycle := by omega
  have part : (400 * cycle + 100 * c + 4 * g + s) % 400 = 100 * c + 4 * g + s := by omega
  have fours : (100 * c + 4 * g + s : Int) / 4 = 25 * c + g := by omega
  have hundreds : (100 * c + 4 * g + s : Int) / 100 = c := by omega
  simp only [whole, part, fours, hundreds]
  omega

theorem dayNumber_ofDayNumber (n : Int) : dayNumber (ofDayNumber n) = n := by
  simp only [ofDayNumber]
  generalize hd : ((n + 719468) % 146097).toNat = d
  have hn : n = 146097 * ((n + 719468) / 146097) + d - 719468 := by omega
  have hlt : d < 146097 := by omega
  generalize (n + 719468) / 146097 = cycle at *
  generalize hc : min (d / 36524) 3 = c
  have hc3 : c ≤ 3 := by omega
  obtain ⟨d1, hd1⟩ : ∃ d1, d = 36524 * c + d1 := ⟨d - 36524 * c, by omega⟩
  have hd1' : d - 36524 * c = d1 := by omega
  have hd1lt : d1 ≤ 36524 := by omega
  rw [hd1']
  generalize hg : d1 / 1461 = g
  have hg24 : g ≤ 24 := by omega
  obtain ⟨d2, hd2⟩ : ∃ d2, d1 = 1461 * g + d2 := ⟨d1 - 1461 * g, by omega⟩
  have hd2' : d1 - 1461 * g = d2 := by omega
  have hd2lt : d2 ≤ 1460 := by omega
  rw [hd2']
  generalize hs : min (d2 / 365) 3 = s
  have hs3 : s ≤ 3 := by omega
  obtain ⟨r, hr⟩ : ∃ r, d2 = 365 * s + r := ⟨d2 - 365 * s, by omega⟩
  have hr' : d2 - 365 * s = r := by omega
  have hrlt : r ≤ 365 := by omega
  rw [hr']
  clear hc hg hs hd hd1' hd2' hr' hlt hd1lt hd2lt
  have days := @days_before_year cycle c g s hc3 hg24 hs3
  generalize hm : (5 * r + 2) / 153 = m
  have hm11 : m ≤ 11 := by omega
  have first : (153 * m + 2) / 5 ≤ r := by omega
  simp only [dayNumber]
  by_cases hlow : m < 10
  · have h1 : ¬ m + 3 ≤ 2 := by omega
    have h2 : (m + 3 + 9) % 12 = m := by omega
    simp only [hlow, if_true, h1, if_false, h2]
    simp only at days
    rw [days]
    omega
  · have h1 : m - 9 ≤ 2 := by omega
    have h2 : (m - 9 + 9) % 12 = m := by omega
    simp only [hlow, if_false, h1, if_true, h2, Int.add_sub_cancel]
    simp only at days
    rw [days]
    omega

end Date
end Courier
