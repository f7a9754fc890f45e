import Courier.Proofs.Replacement

/-!
Plain text from an escaped text. Escaping writes entities for the characters with a meaning in
hypertext. The entities are decoded one after the other, and each step is right for all that is
still written: names begin with an ampersand, have no other one, and none of them begins another, so
that a name is found only where it has been written. The ampersand is written until the last step,
and so no step uncovers a name for a later one.
-/
namespace Courier

open Text

namespace PlainText

def escapeChar : Char → List Char
  | '&' => "&amp;".toList
  | '<' => "&lt;".toList
  | '>' => "&gt;".toList
  | '"' => "&quot;".toList
  | c => [c]

/-- The text as hypertext that shows it. -/
def escape (cs : List Char) : List Char := cs.flatMap escapeChar

def escaped (s : String) : String := String.ofList (escape s.toList)

/-- The entities that escaping writes, in the order in which they are decoded. -/
def specials : List (String × Char) :=
  [("&lt;", '<'), ("&gt;", '>'), ("&quot;", '"'), ("&amp;", '&')]

/-- What is written for a character with these entities. -/
def writtenChar : List (String × Char) → Char → List Char
  | [], a => [a]
  | (name, c) :: table, a => if a = c then name.toList else writtenChar table a

def written (table : List (String × Char)) (cs : List Char) : List Char :=
  cs.flatMap (writtenChar table)

/-- An ampersand and nothing like it behind. -/
def IsName (name : List Char) : Prop := ∃ body, name = '&' :: body ∧ '&' ∉ body

def Apart (name name' : List Char) : Prop := ¬name <+: name' ∧ ¬name' <+: name

/-- Entities that can be decoded one after the other. -/
structure Decodable (table : List (String × Char)) : Prop where
  named : ∀ e ∈ table, IsName e.1.toList
  apart : table.Pairwise fun e e' => Apart e.1.toList e'.1.toList
  distinct : table.Pairwise fun e e' => e.2 ≠ e'.2
  last : ∀ e ∈ table.getLast?, e.2 = '&'

variable {table : List (String × Char)} {name rest : List Char} {a : Char}

theorem writtenChar_of_forall_ne (other : ∀ e ∈ table, e.2 ≠ a) : writtenChar table a = [a] := by
  induction table with
  | nil => rfl
  | cons e table ih =>
      obtain ⟨first, other⟩ := List.forall_mem_cons.mp other
      rw [writtenChar, if_neg first.symm, ih other]

theorem writtenChar_cases (table : List (String × Char)) (a : Char) :
    (∃ e ∈ table, e.2 = a ∧ writtenChar table a = e.1.toList) ∨
      (∀ e ∈ table, e.2 ≠ a) ∧ writtenChar table a = [a] := by
  induction table with
  | nil => exact .inr ⟨fun _ mem => (nomatch mem), rfl⟩
  | cons e table ih =>
      by_cases same : a = e.2
      · exact .inl ⟨e, List.mem_cons_self, same.symm, if_pos same⟩
      · rw [writtenChar, if_neg same]
        rcases ih with ⟨e', known, found⟩ | ⟨other, plain⟩
        · exact .inl ⟨e', List.mem_cons_of_mem e known, found⟩
        · exact .inr ⟨List.forall_mem_cons.mpr ⟨Ne.symm same, other⟩, plain⟩

theorem replaceAll_name {name' : List Char} (new rest : List Char) (isName : IsName name)
    (isName' : IsName name') (apart : Apart name name') :
    replaceAll name new (name' ++ rest) = name' ++ replaceAll name new rest := by
  obtain ⟨body', rfl, plain⟩ := isName'
  have unmatched : ¬name <+: '&' :: (body' ++ rest) := by
    intro starts
    exact (List.prefix_or_prefix_of_prefix starts (List.prefix_append ('&' :: body') rest)).elim
      apart.1 apart.2
  obtain ⟨body, rfl, _⟩ := isName
  rw [List.cons_append, replaceAll_cons unmatched, replaceAll_append_of_not_mem body new rest plain,
    List.cons_append]

theorem replaceAll_writtenChar (new rest : List Char) (isName : IsName name)
    (named : ∀ e ∈ table, IsName e.1.toList) (apart : ∀ e ∈ table, Apart name e.1.toList)
    (covered : a = '&' → ∃ e ∈ table, e.2 = '&') :
    replaceAll name new (writtenChar table a ++ rest) = writtenChar table a ++
      replaceAll name new rest := by
  rcases writtenChar_cases table a with ⟨e, known, _, found⟩ | ⟨other, plain⟩
  · rw [found]
    exact replaceAll_name new rest isName (named e known) (apart e known)
  · rw [plain]
    obtain ⟨body, rfl, _⟩ := isName
    refine replaceAll_append_of_not_mem body new rest ?_
    intro mem
    obtain rfl := List.mem_singleton.mp mem
    obtain ⟨e, known, same⟩ := covered rfl
    exact other e known same

theorem replaceAll_written (name new : List Char) (isName : IsName name)
    (named : ∀ e ∈ table, IsName e.1.toList) (apart : ∀ e ∈ table, Apart name e.1.toList)
    (covered : ∃ e ∈ table, e.2 = '&') (cs : List Char) :
    replaceAll name new (written table cs) = written table cs := by
  induction cs with
  | nil => rfl
  | cons a cs ih =>
      rw [written, List.flatMap_cons, replaceAll_writtenChar new _ isName named apart
        fun _ => covered]
      exact congrArg _ ih

theorem Decodable.tail {e : String × Char} (d : Decodable (e :: table)) : Decodable table where
  named e' known := d.named e' (List.mem_cons_of_mem e known)
  apart := d.apart.of_cons
  distinct := d.distinct.of_cons
  last e' final := d.last e' (by rw [List.getLast?_cons, final]; rfl)

theorem Decodable.step {s : String} {c : Char} (d : Decodable ((s, c) :: table)) (cs : List Char) :
    replaceAll s.toList [c] (written ((s, c) :: table) cs) = written table cs := by
  obtain ⟨isName, named⟩ := List.forall_mem_cons.mp d.named
  have apart := (List.pairwise_cons.mp d.apart).1
  have distinct := (List.pairwise_cons.mp d.distinct).1
  induction cs with
  | nil => rfl
  | cons a cs ih =>
      rw [written, List.flatMap_cons, writtenChar]
      split
      · rename_i same
        subst same
        have filled : s.toList ≠ [] := by
          obtain ⟨body, same, _⟩ := isName
          exact same ▸ List.cons_ne_nil '&' body
        rw [replaceAll_append [a] _ filled, written, List.flatMap_cons,
          writtenChar_of_forall_ne fun e known => (distinct e known).symm]
        exact congrArg _ ih
      · rename_i other
        have covered : a = '&' → ∃ e ∈ table, e.2 = '&' := by
          rintro rfl
          cases final : table.getLast? with
          | none =>
              rw [List.getLast?_eq_none_iff.mp final] at d
              exact absurd (d.last (s, c) rfl).symm other
          | some e => exact ⟨e, List.mem_of_getLast? final, d.tail.last e final⟩
        rw [replaceAll_writtenChar [c] _ isName named apart covered]
        exact congrArg _ ih

theorem Decodable.decode (d : Decodable table) (cs : List Char) :
    table.foldl (fun text (name, c) => replaceAll name.toList [c] text) (written table cs) =
      cs := by
  induction table with
  | nil => exact List.flatMap_singleton' cs
  | cons e table ih =>
      obtain ⟨name, c⟩ := e
      have decoded := ih d.tail
      rw [← d.step cs] at decoded
      exact decoded

instance (name name' : List Char) : Decidable (Apart name name') :=
  inferInstanceAs (Decidable (_ ∧ _))

theorem decodable_specials : Decodable specials where
  named := by
    simp only [specials, List.forall_mem_cons]
    exact ⟨⟨_, rfl, by decide⟩, ⟨_, rfl, by decide⟩, ⟨_, rfl, by decide⟩,
      ⟨_, rfl, by decide⟩, nofun⟩
  apart := by decide
  distinct := by decide
  last := by decide

theorem escapeChar_eq (c : Char) : escapeChar c = writtenChar specials c := by
  unfold escapeChar
  split
  · rfl
  · rfl
  · rfl
  · rfl
  · simp_all [specials, writtenChar]

theorem decodeEntities_escape (cs : List Char) : decodeEntities (escape cs) = cs := by
  have same : escape cs = written specials cs := congrArg cs.flatMap (funext escapeChar_eq)
  have unwritten := replaceAll_written "&nbsp;".toList [' '] ⟨"nbsp;".toList, rfl, by decide⟩
    decodable_specials.named (by decide) ⟨("&amp;", '&'), by decide, rfl⟩ cs
  have first : decodeEntities (escape cs) =
      specials.foldl (fun text (name, c) => replaceAll name.toList [c] text)
        (replaceAll "&nbsp;".toList [' '] (written specials cs)) := by
    rw [same]
    rfl
  rw [first, unwritten, decodable_specials.decode]

theorem no_bracket_in_escape (cs : List Char) : '<' ∉ escape cs := by
  intro mem
  obtain ⟨c, _, mem⟩ := List.mem_flatMap.mp mem
  unfold escapeChar at mem
  split at mem
  · exact absurd mem (by decide)
  · exact absurd mem (by decide)
  · exact absurd mem (by decide)
  · exact absurd mem (by decide)
  · rename_i other _ _
    exact other (List.mem_singleton.mp mem).symm

theorem withoutTags_escape (cs : List Char) : withoutTags (escape cs) = escape cs := by
  refine (withoutTags_replaced (escape cs)).eq_self ?_
  rintro m rest inside ⟨between, _, _, rfl⟩
  exact absurd (inside.subset List.mem_cons_self) (no_bracket_in_escape cs)

/-- Decoding gives back what has been escaped, whatever it looks like, and all that changes is that
blank stretches between line breaks are shortened and the ends trimmed. -/
theorem ofHtml_escaped (s : String) :
    decodeEntities (withoutTags (escape s.toList)) = s.toList ∧
      ∃ text, (∀ other, Replaced Stretch ['\n', '\n'] s.toList other ↔ other = text) ∧
        ofHtml (escaped s) = trimmed (String.ofList text) := by
  have decoded : decodeEntities (withoutTags (escape s.toList)) = s.toList := by
    rw [withoutTags_escape, decodeEntities_escape]
  have replaced := withoutBlankLines_replaced s.toList
  refine ⟨decoded, withoutBlankLines s.toList, fun other => ⟨?_, ?_⟩, ?_⟩
  · exact fun another => another.unique determined_stretch replaced
  · rintro rfl
    exact replaced
  · rw [ofHtml, ofHtmlChars, escaped, String.toList_ofList, decoded, trimmed, String.toList_ofList]

example : ofHtml (escaped "&amp;lt; <b>\n \n\nx ") = "&amp;lt; <b>\n\nx" := rfl

end PlainText

end Courier
