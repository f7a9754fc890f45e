import Courier.PlainText
import Mathlib.Data.List.TakeWhile

/-!
What it means to replace all matches of a pattern. A text is gone through from the left: where a
match begins it gives way as a whole, and all else is kept. `Replaced` says so without an algorithm,
and if a match is determined by where it begins, then so is the result. The removal of tags and the
shortening of blank stretches do just that, each with its own kind of match.
-/
namespace Courier

namespace Text

/-- `Match m rest` says that `m`, with `rest` behind it, is a match. What is replaced is put
together from the left. -/
inductive Replaced (Match : List Char → List Char → Prop) (new : List Char) :
    List Char → List Char → Prop
  | nil : Replaced Match new [] []
  | keep {c : Char} {r s : List Char} (unmatched : ∀ m rest, c :: r = m ++ rest → ¬Match m rest)
      (onward : Replaced Match new r s) : Replaced Match new (c :: r) (c :: s)
  | replace {m rest s : List Char} (found : Match m rest) (onward : Replaced Match new rest s) :
      Replaced Match new (m ++ rest) (new ++ s)

/-- Matches have at least one character, and where a match begins there is no other one. -/
structure Determined (Match : List Char → List Char → Prop) : Prop where
  filled : ∀ {m rest}, Match m rest → m ≠ []
  same : ∀ {m rest m' rest'}, Match m rest → Match m' rest' → m ++ rest = m' ++ rest' → m = m'

namespace Replaced

variable {Match : List Char → List Char → Prop} {new cs s s' : List Char} {c : Char}

theorem unique (d : Determined Match) (h : Replaced Match new cs s)
    (h' : Replaced Match new cs s') :
    s = s' := by
  induction h generalizing s' with
  | nil =>
      generalize empty : ([] : List Char) = cs at h'
      cases h' with
      | nil => rfl
      | keep unmatched onward => cases empty
      | replace found onward =>
          exact absurd (List.append_eq_nil_iff.mp empty.symm).1 (d.filled found)
  | @keep c r s unmatched onward ih =>
      generalize whole : c :: r = cs at h'
      cases h' with
      | nil => cases whole
      | keep unmatched' onward' =>
          cases whole
          rw [ih onward']
      | replace found onward' => exact absurd found (unmatched _ _ whole)
  | @replace m rest s found onward ih =>
      generalize whole : m ++ rest = cs at h'
      cases h' with
      | nil => exact absurd (List.append_eq_nil_iff.mp whole).1 (d.filled found)
      | keep unmatched onward' => exact absurd found (unmatched _ _ whole.symm)
      | replace found' onward' =>
          obtain rfl := d.same found found' whole
          obtain rfl := List.append_cancel_left whole
          rw [ih onward']

theorem eq_self (h : Replaced Match new cs s)
    (done : ∀ m rest, m ++ rest <:+ cs → Match m rest → m = new) : s = cs := by
  induction h with
  | nil => rfl
  | @keep c r s unmatched onward ih =>
      rw [ih fun m rest inside => done m rest (inside.trans (List.suffix_cons c r))]
  | @replace m rest s found onward ih =>
      have later := ih fun m' rest' inside =>
          done m' rest' (inside.trans (List.suffix_append m rest))
      rw [done m rest List.suffix_rfl found, later]

theorem mem (h : Replaced Match new cs s) (mem : c ∈ s) : c ∈ cs ∨ c ∈ new := by
  induction h with
  | nil => exact .inl mem
  | keep unmatched onward ih =>
      rcases List.mem_cons.mp mem with rfl | mem
      · exact .inl List.mem_cons_self
      · exact (ih mem).imp_left (List.mem_cons_of_mem _)
  | replace found onward ih =>
      rcases List.mem_append.mp mem with mem | mem
      · exact .inr mem
      · exact (ih mem).imp_left (List.mem_append_right _)

theorem head? (h : Replaced Match new cs s)
    (free : ∀ m rest, Match m rest → ∃ a r, m = a :: r ∧ a ≠ c) (first : cs.head? = some c) :
    s.head? = some c := by
  cases h with
  | nil => exact first
  | keep unmatched onward => exact first
  | replace found onward =>
      obtain ⟨a, r, rfl, other⟩ := free _ _ found
      exact absurd (Option.some.inj first) other

theorem passing {m rest r : List Char} (found : Match m rest) (filled : m ≠ [])
    (whole : c :: r = m ++ rest) (onward : Replaced Match new (r.drop (m.length - 1)) s) :
    Replaced Match new (c :: r) (new ++ s) := by
  obtain ⟨a, m, rfl⟩ := List.exists_cons_of_ne_nil filled
  rw [List.cons_append] at whole
  obtain ⟨rfl, rfl⟩ := List.cons.inj whole
  rw [List.length_cons, Nat.add_sub_cancel, List.drop_left] at onward
  exact .replace found onward

end Replaced

end Text

namespace PlainText

open Text

variable {cs r : List Char} {c : Char}

/-- An opening bracket, at least one character that is no closing bracket, and a closing bracket. -/
def Tag (m _rest : List Char) : Prop :=
  ∃ inside, inside ≠ [] ∧ '>' ∉ inside ∧ m = '<' :: (inside ++ ['>'])

/-- Blanks, if anything, and then a line break. -/
def Breaks (cs : List Char) : Prop :=
  ∃ gap rest, cs = gap ++ '\n' :: rest ∧ ∀ c ∈ gap, isBlank c = true

/-- From a line break over blanks to the last line break among them. -/
def Stretch (m rest : List Char) : Prop :=
  ∃ gap, (∀ c ∈ gap, isBlank c = true) ∧ m = '\n' :: (gap ++ ['\n']) ∧ ¬Breaks rest

theorem breaks_cons : Breaks (c :: r) ↔ c = '\n' ∨ (isBlank c = true ∧ Breaks r) := by
  constructor
  · rintro ⟨gap, rest, same, blank⟩
    cases gap with
    | nil => exact .inl (List.cons.inj same).1
    | cons a gap =>
        obtain ⟨rfl, rfl⟩ := List.cons.inj same
        obtain ⟨first, blank⟩ := List.forall_mem_cons.mp blank
        exact .inr ⟨first, gap, rest, rfl, blank⟩
  · rintro (rfl | ⟨first, gap, rest, rfl, blank⟩)
    · exact ⟨[], r, rfl, fun _ mem => nomatch mem⟩
    · exact ⟨c :: gap, rest, rfl, List.forall_mem_cons.mpr ⟨first, blank⟩⟩

theorem breaks_iff : Breaks cs ↔ '\n' ∈ cs.takeWhile isBlank := by
  constructor
  · rintro ⟨gap, rest, rfl, blank⟩
    rw [List.takeWhile_append_of_pos blank, List.takeWhile_cons_of_pos rfl]
    exact List.mem_append_right gap List.mem_cons_self
  · intro mem
    obtain ⟨gap, between, run⟩ := List.append_of_mem mem
    refine ⟨gap, between ++ cs.dropWhile isBlank, ?_, ?_⟩
    · rw [← List.cons_append, ← List.append_assoc, ← run, List.takeWhile_append_dropWhile]
    · intro c inside
      refine List.mem_takeWhile_imp (l := cs) ?_
      rw [run]
      exact List.mem_append_left _ inside

theorem tag_of_tagLength? {n : Nat} (found : tagLength? cs = some n) :
    ∃ m rest, cs = m ++ rest ∧ Tag m rest ∧ m.length = n := by
  unfold tagLength? at found
  split at found
  · rename_i r
    split at found
    · rename_i c inside rest cut
      obtain ⟨rfl, absent⟩ := cut?_eq_some.mp cut
      refine ⟨'<' :: (c :: inside ++ ['>']), rest, by simp, ⟨c :: inside, by simp, absent, rfl⟩, ?_⟩
      simpa using found
    · cases found
  · cases found

theorem no_tag_of_tagLength? (none : tagLength? cs = none) {m rest : List Char}
    (whole : cs = m ++ rest) :
    ¬Tag m rest := by
  rintro ⟨inside, filled, absent, rfl⟩
  obtain ⟨c, inside, rfl⟩ := List.exists_cons_of_ne_nil filled
  have cut : cut? '>' (c :: inside ++ '>' :: rest) = some (c :: inside, rest) :=
    cut?_eq_some.mpr ⟨rfl, absent⟩
  have same : cs = '<' :: (c :: inside ++ '>' :: rest) := by simpa using whole
  rw [same] at none
  simp only [tagLength?, cut] at none
  cases none

theorem determined_tag : Determined Tag where
  filled := by
    rintro m rest ⟨inside, _, _, rfl⟩
    exact List.cons_ne_nil _ _
  same := by
    rintro m rest m' rest' ⟨inside, _, absent, rfl⟩ ⟨inside', _, absent', rfl⟩ whole
    have behind : inside ++ '>' :: rest = inside' ++ '>' :: rest' := by simpa using whole
    have cut := cut?_eq_some.mpr ⟨behind, absent'⟩
    rw [cut?_eq_some.mpr ⟨rfl, absent⟩] at cut
    cases cut
    rfl

theorem not_breaks_over {gap : List Char} (cs : List Char) (blank : ∀ c ∈ gap, isBlank c = true)
    (plain : '\n' ∉ gap) : ¬Breaks (gap ++ cs.dropWhile isBlank) := by
  have stop : (cs.dropWhile isBlank).takeWhile isBlank = [] := by
    cases left : cs.dropWhile isBlank with
    | nil => rfl
    | cons c r =>
        have solid : isBlank c = false := isBlank_of_trimStart left
        exact List.takeWhile_cons_of_neg (by simp [solid])
  rwa [breaks_iff, List.takeWhile_append_of_pos blank, stop, List.append_nil]

theorem stretchLength_eq (cs : List Char) :
    stretchLength cs = ((cs.takeWhile isBlank).reverse.dropWhile (· != '\n')).length := by
  have parts := List.takeWhile_append_dropWhile (p := (· != '\n'))
      (l := (cs.takeWhile isBlank).reverse)
  have total := congrArg List.length parts
  rw [List.length_append, List.length_reverse] at total
  simp only [stretchLength]
  omega

/-- The stretch ends with the last line break that only blanks lead to. -/
theorem stretchLength_spec (cs : List Char) : (stretchLength cs = 0 ∧ ¬Breaks cs) ∨
    ∃ gap rest, cs = gap ++ '\n' :: rest ∧ (∀ c ∈ gap, isBlank c = true) ∧ ¬Breaks rest ∧
      stretchLength cs = gap.length + 1 := by
  let run := cs.takeWhile isBlank
  have whole := List.takeWhile_append_dropWhile (p := isBlank) (l := cs)
  have parts := List.takeWhile_append_dropWhile (p := (· != '\n')) (l := run.reverse)
  have plain : '\n' ∉ run.reverse.takeWhile (· != '\n') :=
    fun mem => by simpa using List.mem_takeWhile_imp mem
  have length : stretchLength cs = (run.reverse.dropWhile (· != '\n')).length := stretchLength_eq cs
  cases before : run.reverse.dropWhile (· != '\n') with
  | nil =>
      refine .inl ⟨by rw [length, before]; rfl, ?_⟩
      rw [before, List.append_nil] at parts
      rw [breaks_iff, ← List.mem_reverse]
      rwa [parts] at plain
  | cons c r =>
      have first := List.head?_dropWhile_not (· != '\n') run.reverse
      rw [before] at first parts
      obtain rfl : c = '\n' := by simpa using first
      generalize run.reverse.takeWhile (· != '\n') = between at parts plain
      have split : run = r.reverse ++ '\n' :: between.reverse := by
        rw [← List.reverse_reverse run, ← parts]
        simp
      have blank : ∀ c ∈ run, isBlank c = true := fun c mem => List.mem_takeWhile_imp mem
      refine .inr ⟨r.reverse, between.reverse ++ cs.dropWhile isBlank, ?_, ?_, ?_, ?_⟩
      · rw [← List.cons_append, ← List.append_assoc, ← split, whole]
      · exact fun c mem => blank c (split ▸ List.mem_append_left _ mem)
      · refine not_breaks_over cs (fun c mem => blank c ?_) (mt List.mem_reverse.mp plain)
        exact split ▸ List.mem_append_right _ (List.mem_cons_of_mem _ mem)
      · rw [length, before, List.length_cons, List.length_reverse]

/-- A stretch begins with a line break, and another one follows over blanks. -/
theorem begins_of_stretch {m rest : List Char} (isStretch : Stretch m rest)
    (whole : c :: r = m ++ rest) :
    c = '\n' ∧ Breaks r := by
  obtain ⟨gap, blank, rfl, _⟩ := isStretch
  rw [List.cons_append] at whole
  obtain ⟨rfl, rfl⟩ := List.cons.inj whole
  exact ⟨rfl, gap, rest, by simp, blank⟩

theorem nothing_between {more rest rest' : List Char} (last : ¬Breaks rest)
    (blank : ∀ c ∈ more, isBlank c = true) (whole : '\n' :: rest = more ++ '\n' :: rest') :
    more = [] := by
  cases more with
  | nil => rfl
  | cons a more =>
      have breaks : Breaks rest :=
        ⟨more, rest', (List.cons.inj whole).2, (List.forall_mem_cons.mp blank).2⟩
      exact absurd breaks last

theorem determined_stretch : Determined Stretch where
  filled := by
    rintro m rest ⟨gap, _, rfl, _⟩
    exact List.cons_ne_nil _ _
  same := by
    rintro m rest m' rest' ⟨gap, blank, rfl, last⟩ ⟨gap', blank', rfl, last'⟩ whole
    have behind : gap ++ '\n' :: rest = gap' ++ '\n' :: rest' := by simpa using whole
    rcases List.append_eq_append_iff.mp behind with ⟨more, rfl, left⟩ | ⟨more, rfl, left⟩
    · rw [nothing_between last (fun c mem => blank' c (List.mem_append_right gap mem)) left,
        List.append_nil]
    · rw [nothing_between last' (fun c mem => blank c (List.mem_append_right gap' mem)) left,
        List.append_nil]

theorem withoutTagsFrom_replaced (skip : Nat) (cs : List Char) :
    Replaced Tag [] (cs.drop skip) (withoutTagsFrom skip cs) := by
  induction cs generalizing skip with
  | nil =>
      rw [List.drop_nil, withoutTagsFrom]
      exact .nil
  | cons c r ih =>
      cases skip with
      | succ skip => exact ih skip
      | zero =>
          rw [List.drop_zero, withoutTagsFrom]
          split
          · rename_i n found
            obtain ⟨m, rest, whole, isTag, rfl⟩ := tag_of_tagLength? found
            exact .passing isTag (determined_tag.filled isTag) whole (ih (m.length - 1))
          · rename_i none
            refine .keep (fun m rest whole => no_tag_of_tagLength? none whole) ?_
            exact ih 0

theorem withoutBlankLinesFrom_replaced (skip : Nat) (cs : List Char) :
    Replaced Stretch ['\n', '\n'] (cs.drop skip) (withoutBlankLinesFrom skip cs) := by
  induction cs generalizing skip with
  | nil =>
      rw [List.drop_nil, withoutBlankLinesFrom]
      exact .nil
  | cons c r ih =>
      cases skip with
      | succ skip => exact ih skip
      | zero =>
          rw [List.drop_zero, withoutBlankLinesFrom]
          split
          · rename_i isBreak
            subst isBreak
            rcases stretchLength_spec r with
                ⟨length, unbroken⟩ | ⟨gap, rest, rfl, blank, last, length⟩
            · rw [length]
              refine .keep (fun m rest whole isStretch => unbroken ?_) (ih 0)
              exact (begins_of_stretch isStretch whole).2
            · rw [length]
              have isStretch : Stretch ('\n' :: (gap ++ ['\n'])) rest := ⟨gap, blank, rfl, last⟩
              have covered : ('\n' :: (gap ++ ['\n'])).length - 1 = gap.length + 1 := by simp
              refine .passing isStretch (determined_stretch.filled isStretch) (by simp) ?_
              rw [covered]
              exact ih (gap.length + 1)
          · rename_i other
            exact .keep (fun m rest whole isStretch =>
              other (begins_of_stretch isStretch whole).1) (ih 0)

/-- All tags are removed. -/
theorem withoutTags_replaced (cs : List Char) : Replaced Tag [] cs (withoutTags cs) :=
  withoutTagsFrom_replaced 0 cs

/-- All blank stretches between line breaks are replaced by one blank line. -/
theorem withoutBlankLines_replaced (cs : List Char) :
    Replaced Stretch ['\n', '\n'] cs (withoutBlankLines cs) :=
  withoutBlankLinesFrom_replaced 0 cs

end PlainText

end Courier
