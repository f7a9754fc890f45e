/-!
Finding and replacing a fixed piece of text. Replacement goes from left to right and never looks
at what it has already written; `replaceAll_append` and `replaceAll_cons` are its two steps.
-/
namespace Courier.Text

def startsWith (needle cs : List Char) : Bool := needle.isPrefixOf cs

def contains (needle : List Char) : List Char → Bool
  | [] => needle.isEmpty
  | c :: r => startsWith needle (c :: r) || contains needle r

def after? (needle cs : List Char) : Option (List Char) :=
  if startsWith needle cs then some (cs.drop needle.length) else none

/-- Replacement with a count of characters still covered by the last match. -/
def replaceFrom (needle new : List Char) : Nat → List Char → List Char
  | _, [] => []
  | skip + 1, _ :: r => replaceFrom needle new skip r
  | 0, c :: r =>
    if startsWith needle (c :: r) then new ++ replaceFrom needle new (needle.length - 1) r
    else c :: replaceFrom needle new 0 r

/-- Every occurrence of `needle`, from the left and without overlap, gives way to `new`. -/
def replaceAll (needle new cs : List Char) : List Char := replaceFrom needle new 0 cs

/-- The pieces between the separators; there is one more of them than there are separators. -/
def splitOn (separator : Char) : List Char → List (List Char)
  | [] => [[]]
  | c :: r =>
    if c = separator then [] :: splitOn separator r
    else
      match splitOn separator r with
      | [] => [[c]]
      | piece :: rest => (c :: piece) :: rest

def cut? (separator : Char) : List Char → Option (List Char × List Char)
  | [] => none
  | c :: r =>
    if c = separator then some ([], r)
    else (cut? separator r).map fun (before, rest) => (c :: before, rest)

def cutLast? (separator : Char) (cs : List Char) : Option (List Char × List Char) :=
  (cut? separator cs.reverse).map fun (rest, before) => (before.reverse, rest.reverse)

theorem startsWith_append_cons {needle : List Char} {c : Char} (absent : c ∉ needle)
    (a b : List Char) :
    startsWith needle (a ++ c :: b) = startsWith needle a := by
  induction needle generalizing a with
  | nil => rfl
  | cons d needle ih =>
      obtain ⟨other, absent⟩ := List.ne_and_not_mem_of_not_mem_cons absent
      cases a with
      | nil => exact Bool.and_eq_false_imp.mpr fun same => absurd (beq_iff_eq.mp same).symm other
      | cons x a => exact congrArg (d == x && ·) (ih absent a)

theorem contains_nil (cs : List Char) : contains [] cs = true := by
  cases cs with
  | nil => rfl
  | cons c r => rfl

theorem contains_append_cons {needle : List Char} {c : Char} (absent : c ∉ needle)
    (a b : List Char) :
    contains needle (a ++ c :: b) = (contains needle a || contains needle b) := by
  induction a with
  | nil =>
      have starts := startsWith_append_cons absent [] b
      show (startsWith needle (c :: b) || contains needle b) = _
      rw [List.nil_append] at starts
      rw [starts]
      cases needle with
      | nil => rfl
      | cons d needle => rfl
  | cons d a ih =>
      have starts := startsWith_append_cons absent (d :: a) b
      rw [List.cons_append] at starts ⊢
      rw [contains, starts, ih, contains, Bool.or_assoc]

/-- A run of characters that it does not have keeps apart what is before it and after it. -/
theorem contains_append_run {needle run : List Char} (filled : run ≠ [])
    (absent : ∀ c ∈ run, c ∉ needle) (a b : List Char) :
    contains needle (a ++ (run ++ b)) = (contains needle a || contains needle b) := by
  induction run generalizing a with
  | nil => exact absurd rfl filled
  | cons c run ih =>
      obtain ⟨first, absent⟩ := List.forall_mem_cons.mp absent
      rw [List.cons_append, contains_append_cons first]
      cases run with
      | nil => rfl
      | cons d run =>
          have later := ih (List.cons_ne_nil d run) absent []
          rw [List.nil_append] at later
          rw [later]
          cases needle with
          | nil => simp [contains_nil]
          | cons x needle => rfl

theorem cut?_eq_some {separator : Char} {cs before after : List Char} :
    cut? separator cs = some (before, after) ↔ cs = before ++ separator :: after ∧
      separator ∉ before := by
  induction cs generalizing before with
  | nil => simp [cut?]
  | cons c r ih =>
      unfold cut?
      split
      · rename_i same
        subst same
        cases before with
        | nil => simp [eq_comm]
        | cons b before =>
            simp only [Option.some.injEq, Prod.mk.injEq, List.cons_append, List.cons.injEq,
              List.mem_cons, not_or]
            exact ⟨fun same => (nomatch same.1), fun ⟨⟨same, _⟩, other, _⟩ => absurd same other⟩
      · rename_i other
        simp only [Option.map_eq_some_iff, Prod.exists, Prod.mk.injEq]
        constructor
        · rintro ⟨first, rest, found, rfl, rfl⟩
          obtain ⟨rfl, absent⟩ := ih.mp found
          exact ⟨rfl, List.not_mem_cons_of_ne_of_not_mem (Ne.symm other) absent⟩
        · rintro ⟨same, absent⟩
          cases before with
          | nil => exact absurd (List.cons.inj same).1 other
          | cons b before =>
              obtain ⟨rfl, whole⟩ := List.cons.inj same
              exact ⟨before, after, ih.mpr ⟨whole, List.not_mem_of_not_mem_cons absent⟩, rfl, rfl⟩

theorem replaceAll_cons {needle new r : List Char} {c : Char} (other : ¬needle <+: c :: r) :
    replaceAll needle new (c :: r) = c :: replaceAll needle new r := by
  have none : startsWith needle (c :: r) = false := by
    rw [startsWith, Bool.eq_false_iff]
    exact mt List.isPrefixOf_iff_prefix.mp other
  simp only [replaceAll, replaceFrom, none, Bool.false_eq_true, if_false]

theorem replaceFrom_append (needle new covered rest : List Char) :
    replaceFrom needle new covered.length (covered ++ rest) = replaceAll needle new rest := by
  induction covered with
  | nil => rfl
  | cons c covered ih => exact ih

theorem replaceAll_append {needle : List Char} (new rest : List Char) (filled : needle ≠ []) :
    replaceAll needle new (needle ++ rest) = new ++ replaceAll needle new rest := by
  obtain ⟨c, covered, rfl⟩ := List.exists_cons_of_ne_nil filled
  have starts : startsWith (c :: covered) (c :: (covered ++ rest)) = true :=
    List.isPrefixOf_iff_prefix.mpr (List.prefix_append (c :: covered) rest)
  simp only [List.cons_append, replaceAll, replaceFrom, starts, if_true, List.length_cons,
    Nat.add_sub_cancel]
  rw [replaceFrom_append]
  rfl

/-- Text without the first character of what is replaced stays as it is. -/
theorem replaceAll_append_of_not_mem {c : Char} {kept : List Char} (needle new rest : List Char)
    (absent : c ∉ kept) :
    replaceAll (c :: needle) new (kept ++ rest) = kept ++ replaceAll (c :: needle) new rest := by
  induction kept with
  | nil => rfl
  | cons a kept ih =>
      obtain ⟨other, absent⟩ := List.ne_and_not_mem_of_not_mem_cons absent
      have unmatched : ¬c :: needle <+: a :: (kept ++ rest) :=
        fun starts => other (List.cons_prefix_cons.mp starts).1
      rw [List.cons_append, replaceAll_cons unmatched, ih absent, List.cons_append]

theorem replaceAll_of_not_mem {c : Char} {cs : List Char} (needle new : List Char)
    (absent : c ∉ cs) :
    replaceAll (c :: needle) new cs = cs := by
  simpa [replaceAll, replaceFrom] using replaceAll_append_of_not_mem needle new [] absent

end Courier.Text
