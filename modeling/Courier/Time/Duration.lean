namespace Courier

/-- One more than the longest duration, in nanoseconds. -/
def Duration.limit : Nat := 18446744073709551616000000000

structure Duration where
  nanos : Nat
  nanos_lt : nanos < Duration.limit
  deriving DecidableEq

namespace Duration

def zero : Duration := ⟨0, by decide⟩

instance : Inhabited Duration := ⟨zero⟩

def longest : Duration := ⟨limit - 1, by decide⟩

def ofNanos? (n : Nat) : Option Duration :=
  if h : n < limit then some ⟨n, h⟩ else none

/-- The duration of that many nanoseconds, or the longest one. -/
def ofNanos (n : Nat) : Duration :=
  if h : n < limit then ⟨n, h⟩ else longest

def ofMillis (n : Nat) : Duration := ofNanos (n * 1000000)

def ofSeconds (n : Nat) : Duration := ofNanos (n * 1000000000)

def seconds (d : Duration) : Nat := d.nanos / 1000000000

def subsecond (d : Duration) : Nat := d.nanos % 1000000000

def millis (d : Duration) : Nat := d.nanos / 1000000

instance : LE Duration := ⟨fun a b => a.nanos ≤ b.nanos⟩

instance : LT Duration := ⟨fun a b => a.nanos < b.nanos⟩

instance (a b : Duration) : Decidable (a ≤ b) := inferInstanceAs (Decidable (a.nanos ≤ b.nanos))

instance (a b : Duration) : Decidable (a < b) := inferInstanceAs (Decidable (a.nanos < b.nanos))

def shorter (a b : Duration) : Duration := if a ≤ b then a else b

def add? (a b : Duration) : Option Duration := ofNanos? (a.nanos + b.nanos)

def scale? (d : Duration) (factor : Nat) : Option Duration := ofNanos? (d.nanos * factor)

@[simp] theorem ofNanos_nanos {n : Nat} (h : n < limit) : (ofNanos n).nanos = n := by
  simp [ofNanos, h]

theorem ofNanos?_eq_some {n : Nat} (h : n < limit) : ofNanos? n = some ⟨n, h⟩ := by
  simp [ofNanos?, h]

theorem shorter_le_right (a b : Duration) : shorter a b ≤ b := by
  unfold shorter
  split
  · assumption
  · exact Nat.le_refl _

theorem ext_nanos {a b : Duration} (h : a.nanos = b.nanos) : a = b := by
  cases a; cases b; simp_all

end Duration
end Courier
