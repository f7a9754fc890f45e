import Courier.Time.Duration
import Courier.Time.Calendar

/-!
Instants of Coordinated Universal Time with nanoseconds. The last second of a minute may be a leap
second, which then runs for two seconds. Instants are ordered by one number, `Instant.key`.
-/
namespace Courier

/-- The first second that an instant can have: -262143-01-01T00:00:00. -/
def Instant.firstSecond : Int := -8334601228800

/-- The last second that an instant can have: +262142-12-31T23:59:59. -/
def Instant.lastSecond : Int := 8210266876799

/-- A second, counted from 1970-01-01T00:00:00, and the nanoseconds since it began. -/
structure Instant where
  second : Int
  nano : Nat
  second_ge : Instant.firstSecond ≤ second
  second_le : second ≤ Instant.lastSecond
  nano_lt : nano < 2000000000
  leap_second : 1000000000 ≤ nano → second % 60 = 59
  deriving DecidableEq

namespace Instant

theorem firstSecond_eq : firstSecond = 86400 * Date.dayNumber ⟨-262143, 1, 1⟩ := by decide

theorem lastSecond_eq : lastSecond = 86400 * Date.dayNumber ⟨262142, 12, 31⟩ + 86399 := by decide

/-- The instant with these parts, if there is one. -/
def ofParts? (second : Int) (nano : Nat) : Option Instant :=
  if h : firstSecond ≤ second ∧ second ≤ lastSecond ∧ nano < 2000000000 ∧
      (1000000000 ≤ nano → second % 60 = 59) then
    some ⟨second, nano, h.1, h.2.1, h.2.2.1, h.2.2.2⟩
  else none

/-- The instant a whole number of seconds from 1970 on, or 1970 itself if there is none. -/
def ofSecond (second : Int) : Instant :=
  if h : firstSecond ≤ second ∧ second ≤ lastSecond then
    ⟨second, 0, h.1, h.2, by decide, fun h => absurd h (by decide)⟩
  else ⟨0, 0, by decide, by decide, by decide, fun h => absurd h (by decide)⟩

instance : Inhabited Instant := ⟨ofSecond 0⟩

def isLeap (t : Instant) : Bool := 1000000000 ≤ t.nano

/-- The place of an instant in the order of time. -/
def key (t : Instant) : Int := 2000000000 * t.second + t.nano

instance : LE Instant := ⟨fun a b => a.key ≤ b.key⟩

instance : LT Instant := ⟨fun a b => a.key < b.key⟩

instance (a b : Instant) : Decidable (a ≤ b) := inferInstanceAs (Decidable (a.key ≤ b.key))

instance (a b : Instant) : Decidable (a < b) := inferInstanceAs (Decidable (a.key < b.key))

/-- The instant `d` later. Within a leap second it stays there while it can; otherwise the leap
second counts as its first half. -/
def add? (t : Instant) (d : Duration) : Option Instant :=
  if 1000000000 ≤ t.nano ∧ t.nano + d.nanos < 2000000000 then
    ofParts? t.second (t.nano + d.nanos)
  else
    let total := t.nano % 1000000000 + d.nanos
    ofParts? (t.second + (total / 1000000000 : Nat)) (total % 1000000000)

def sub? (t : Instant) (d : Duration) : Option Instant :=
  if 1000000000 ≤ t.nano ∧ d.nanos < 1000000000 then ofParts? t.second (t.nano - d.nanos)
  else
    let total : Int := (t.nano : Int) - d.nanos
    ofParts? (t.second + total / 1000000000) (total % 1000000000).toNat

/-- The second of the day, from 0 to 86399. -/
def secondOfDay (t : Instant) : Nat := (t.second % 86400).toNat

/-- The nanoseconds from `earlier` to `t`, negative if `t` comes first. A leap second counts for
two seconds when the times of day lie on either side of it. -/
def since (t earlier : Instant) : Int :=
  let plain := 1000000000 * (t.second - earlier.second) + t.nano - earlier.nano
  if earlier.secondOfDay < t.secondOfDay ∧ 1000000000 ≤ earlier.nano then plain + 1000000000
  else if t.secondOfDay < earlier.secondOfDay ∧ 1000000000 ≤ t.nano then plain - 1000000000
  else plain

/-- The time that has passed since `earlier`; none if `t` comes first. -/
def elapsedSince (t earlier : Instant) : Duration := Duration.ofNanos (t.since earlier).toNat

/-- Whole milliseconds from 1970 on, rounded down. -/
def epochMillis (t : Instant) : Int := 1000 * t.second + (t.nano / 1000000 : Nat)

/-- The instant `millis` milliseconds later, or earlier if that is negative. -/
def shift? (t : Instant) (millis : Int) : Option Instant :=
  if millis < 0 then t.sub? (Duration.ofMillis millis.natAbs)
  else t.add? (Duration.ofMillis millis.natAbs)

theorem ext_parts {a b : Instant} (hs : a.second = b.second) (hn : a.nano = b.nano) : a = b := by
  cases a; cases b; simp_all

theorem key_injective {a b : Instant} (h : a.key = b.key) : a = b := by
  have ha := a.nano_lt
  have hb := b.nano_lt
  unfold key at h
  exact ext_parts (by omega) (by omega)

theorem le_refl (t : Instant) : t ≤ t := Int.le_refl _

theorem le_trans {a b c : Instant} (hab : a ≤ b) (hbc : b ≤ c) : a ≤ c := Int.le_trans hab hbc

theorem ofParts?_eq_some {s : Int} {n : Nat} {t : Instant} (h : ofParts? s n = some t) :
    t.second = s ∧ t.nano = n := by
  unfold ofParts? at h
  split at h
  · cases h; exact ⟨rfl, rfl⟩
  · cases h

theorem ofParts?_parts (t : Instant) : ofParts? t.second t.nano = some t := by
  unfold ofParts?
  rw [dif_pos ⟨t.second_ge, t.second_le, t.nano_lt, t.leap_second⟩]

theorem le_of_add? {t u : Instant} {d : Duration} (h : t.add? d = some u) : t ≤ u := by
  have ht := t.nano_lt
  unfold add? at h
  change t.key ≤ u.key
  split at h
  · obtain ⟨hs, hn⟩ := ofParts?_eq_some h
    unfold key
    omega
  · obtain ⟨hs, hn⟩ := ofParts?_eq_some h
    unfold key
    omega

/-- Time added leads on, a leap second or not. -/
theorem lt_of_add? {t u : Instant} {d : Duration} (positive : 0 < d.nanos)
    (h : t.add? d = some u) : t < u := by
  have ht := t.nano_lt
  unfold add? at h
  change t.key < u.key
  split at h
  · obtain ⟨hs, hn⟩ := ofParts?_eq_some h
    unfold key
    omega
  · obtain ⟨hs, hn⟩ := ofParts?_eq_some h
    unfold key
    omega

/-- A duration added to an instant outside a leap second is the time from the one to the other. -/
theorem since_of_add? {t u : Instant} {d : Duration} (plain : t.nano < 1000000000)
    (h : t.add? d = some u) : u.since t = d.nanos := by
  unfold add? at h
  rw [if_neg (by omega)] at h
  obtain ⟨hs, hn⟩ := ofParts?_eq_some h
  unfold since
  rw [if_neg (by omega), if_neg (by omega)]
  omega

end Instant
end Courier
