import Mathlib.Data.Finset.Card
import Mathlib.Algebra.Order.Field.Rat
import Mathlib.Tactic.GCongr
import Mathlib.Tactic.Positivity
import Mathlib.Tactic.Ring
import Courier.Time.Instant

/-!
Time that really passes between two instants. A reading of a clock may lie in a leap second, and the
difference of two instants takes no notice of leap seconds between them, so differences do not add
up. With a table of the seconds that ran twice as long they do.
-/
namespace Courier.Instant

/-- A leap second that a clock shows is one of the table. -/
def Within (leaps : Finset ℤ) (t : Instant) : Prop := 1000000000 ≤ t.nano → t.second ∈ leaps

instance (leaps : Finset ℤ) (t : Instant) : Decidable (t.Within leaps) :=
  inferInstanceAs (Decidable (1000000000 ≤ t.nano → t.second ∈ leaps))

/-- The leap seconds that are over by the second of `t`. -/
def leapsBefore (leaps : Finset ℤ) (t : Instant) : ℕ := (leaps.filter (· < t.second)).card

/-- Nanoseconds up to `t`, the leap seconds of the table among them. -/
def running (leaps : Finset ℤ) (t : Instant) : ℤ :=
  1000000000 * t.second + t.nano + 1000000000 * leapsBefore leaps t

/-- Seconds from one instant to another. -/
def secondsBetween (leaps : Finset ℤ) (earlier later : Instant) : ℚ :=
  ((running leaps later - running leaps earlier : ℤ) : ℚ) / 1000000000

def earliest : Instant := ofSecond firstSecond

theorem earliest_le (t : Instant) : earliest ≤ t := by
  have first := t.second_ge
  have parts : earliest.second = firstSecond ∧ earliest.nano = 0 := by decide
  change earliest.key ≤ t.key
  unfold key
  omega

theorem le_of_not_le {a b : Instant} (h : ¬ a ≤ b) : b ≤ a := Int.le_of_lt (Int.not_le.mp h)

variable {leaps : Finset ℤ} {a b : Instant}

theorem second_le_of_le (h : a ≤ b) : a.second ≤ b.second := by
  have before : a.key ≤ b.key := h
  have ha := a.nano_lt
  have hb := b.nano_lt
  unfold key at before
  omega

theorem nano_le_of_le (h : a ≤ b) (same : a.second = b.second) : a.nano ≤ b.nano := by
  have before : a.key ≤ b.key := h
  unfold key at before
  omega

theorem leapsBefore_le (leaps : Finset ℤ) (h : a.second ≤ b.second) :
    leapsBefore leaps a ≤ leapsBefore leaps b := by
  apply Finset.card_le_card
  intro second mem
  simp only [Finset.mem_filter] at mem ⊢
  exact ⟨mem.1, by omega⟩

/-- A leap second is over once the next second begins. -/
theorem leapsBefore_lt (leap : a.second ∈ leaps) (h : a.second < b.second) :
    leapsBefore leaps a < leapsBefore leaps b := by
  apply Finset.card_lt_card
  refine Finset.ssubset_iff_subset_ne.mpr ⟨?_, ?_⟩
  · intro second mem
    simp only [Finset.mem_filter] at mem ⊢
    exact ⟨mem.1, by omega⟩
  · intro same
    have crossed : a.second ∈ leaps.filter (· < b.second) := by simp [leap, h]
    rw [← same] at crossed
    simp at crossed

theorem running_le (h : a ≤ b) (within : a.Within leaps) : running leaps a ≤ running leaps b := by
  have seconds := second_le_of_le h
  have counted := leapsBefore_le leaps seconds
  have hn := a.nano_lt
  unfold running
  by_cases same : a.second = b.second
  · have nanos := nano_le_of_le h same
    omega
  · by_cases leap : 1000000000 ≤ a.nano
    · have crossed := leapsBefore_lt (b := b) (within leap) (by omega)
      omega
    · omega

/-- The difference of two readings never exceeds the time that really passed. -/
theorem since_le_running (h : a ≤ b) (within : a.Within leaps) :
    b.since a ≤ running leaps b - running leaps a := by
  have seconds := second_le_of_le h
  have counted := leapsBefore_le leaps seconds
  unfold since running
  dsimp only
  split
  case isTrue across =>
    have later : a.second < b.second := by
      rcases seconds.lt_or_eq with later | same
      · exact later
      · have sameDay : a.secondOfDay = b.secondOfDay := by simp [secondOfDay, same]
        omega
    have crossed := leapsBefore_lt (within across.2) later
    omega
  case isFalse =>
    split <;> omega

theorem leapsBefore_add (leaps : Finset ℤ) (h : a.second ≤ b.second) : leapsBefore leaps b =
    leapsBefore leaps a + (leaps.filter fun s => a.second ≤ s ∧ s < b.second).card := by
  have parts : leaps.filter (· < b.second) =
      leaps.filter (· < a.second) ∪ leaps.filter fun s => a.second ≤ s ∧ s < b.second := by
    rw [← Finset.filter_or]
    refine Finset.filter_congr fun s _ => ?_
    omega
  have apart : Disjoint (leaps.filter (· < a.second))
      (leaps.filter fun s => a.second ≤ s ∧ s < b.second) := by
    refine Finset.disjoint_filter.mpr fun s _ before inside => ?_
    omega
  rw [leapsBefore, parts, Finset.card_union_of_disjoint apart]
  rfl

theorem secondsBetween_congr {others : Finset ℤ} (h : a ≤ b)
    (same : ∀ s, a.second ≤ s → s < b.second → (s ∈ leaps ↔ s ∈ others)) :
    secondsBetween leaps a b = secondsBetween others a b := by
  have seconds := second_le_of_le h
  have counted : leaps.filter (fun s => a.second ≤ s ∧ s < b.second) =
      others.filter fun s => a.second ≤ s ∧ s < b.second := by
    ext s
    simp only [Finset.mem_filter]
    exact and_congr_left fun inside => same s inside.1 inside.2
  have passed := leapsBefore_add leaps seconds
  have passed_others := leapsBefore_add others seconds
  rw [counted] at passed
  have running : running leaps b - running leaps a = running others b - running others a := by
    unfold running
    omega
  rw [secondsBetween, running, secondsBetween]

/-- Between instants outside leap seconds, with none in the table, the time that passes is their
difference. -/
theorem secondsBetween_of_plain (ha : a.nano < 1000000000) (hb : b.nano < 1000000000) :
    secondsBetween ∅ a b = (b.since a : ℚ) / 1000000000 := by
  have same : running ∅ b - running ∅ a = b.since a := by
    have none (t : Instant) : leapsBefore ∅ t = 0 := by simp [leapsBefore]
    unfold running since
    rw [if_neg (by omega), if_neg (by omega), none, none]
    omega
  rw [secondsBetween, same]

theorem secondsBetween_nonneg (h : a ≤ b) (within : a.Within leaps) :
    0 ≤ secondsBetween leaps a b := by
  have order : (0 : ℚ) ≤ ((running leaps b - running leaps a : ℤ) : ℚ) := by
    exact_mod_cast Int.sub_nonneg_of_le (running_le h within)
  exact div_nonneg order (by norm_num)

@[simp] theorem secondsBetween_self : secondsBetween leaps a a = 0 := by simp [secondsBetween]

theorem secondsBetween_add (leaps : Finset ℤ) (a b c : Instant) :
    secondsBetween leaps a b + secondsBetween leaps b c = secondsBetween leaps a c := by
  unfold secondsBetween
  push_cast
  ring

/-- What a bucket counts as elapsed is at most the time that really passed. -/
theorem elapsedSince_le (h : a ≤ b) (within : a.Within leaps) :
    ((b.elapsedSince a).nanos : ℚ) / 1000000000 ≤ secondsBetween leaps a b := by
  have clamped : (b.elapsedSince a).nanos ≤ (b.since a).toNat := by
    unfold elapsedSince Duration.ofNanos
    split
    · exact le_rfl
    · simp only [Duration.longest]
      omega
  have passed : ((b.elapsedSince a).nanos : ℤ) ≤ running leaps b - running leaps a := by
    have difference := since_le_running h within
    have forward := running_le h within
    omega
  unfold secondsBetween
  gcongr
  exact_mod_cast passed

end Courier.Instant
