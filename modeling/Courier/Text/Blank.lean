namespace Courier.Text

/-- The characters with the Unicode property `White_Space`. Joiners and marks that merely look
empty, such as U+200B and U+FEFF, are not among them. -/
def isBlank (c : Char) : Bool :=
  let n := c.toNat
  (9 ≤ n && n ≤ 13) || n == 0x20 || n == 0x85 || n == 0xA0 || n == 0x1680
    || (0x2000 ≤ n && n ≤ 0x200A) || n == 0x2028 || n == 0x2029 || n == 0x202F
    || n == 0x205F || n == 0x3000

def trimStart (cs : List Char) : List Char := cs.dropWhile isBlank

def trimEnd (cs : List Char) : List Char := (trimStart cs.reverse).reverse

def trim (cs : List Char) : List Char := trimEnd (trimStart cs)

/-- The text without the blank characters at its two ends. -/
def trimmed (s : String) : String := String.ofList (trim s.toList)

/-- Nothing but blank characters, or nothing at all. -/
def isBlankText (s : String) : Bool := s.toList.all isBlank

def words (cs : List Char) : List (List Char) :=
  (cs.splitBy fun a b => isBlank a == isBlank b).filter fun w => !w.all isBlank

theorem trimStart_of_head {c : Char} {cs : List Char} (h : isBlank c = false) :
    trimStart (c :: cs) = c :: cs := by
  simp [trimStart, h]

/-- A text that begins and ends with characters that are not blank is its own trimming. -/
theorem trim_eq_self {cs : List Char} (first : ∀ c ∈ cs.head?, isBlank c = false)
    (last : ∀ c ∈ cs.getLast?, isBlank c = false) : trim cs = cs := by
  have start : trimStart cs = cs := by
    cases cs with
    | nil => rfl
    | cons c r => exact trimStart_of_head (first c rfl)
  rw [trim, start, trimEnd]
  have tail : trimStart cs.reverse = cs.reverse := by
    cases h : cs.reverse with
    | nil => rfl
    | cons c r =>
      refine trimStart_of_head (last c ?_)
      simp [List.getLast?_eq_head?_reverse, h]
  rw [tail, List.reverse_reverse]

theorem trimmed_eq_self {s : String} (solid : ∀ c ∈ s.toList, isBlank c = false) :
    trimmed s = s := by
  rw [trimmed, trim_eq_self, String.ofList_toList]
  · exact fun c mem => solid c (List.mem_of_mem_head? mem)
  · exact fun c mem => solid c (List.mem_of_getLast? mem)

theorem trimEnd_prefix_self (cs : List Char) : trimEnd cs <+: cs := by
  rw [← List.reverse_suffix, trimEnd, List.reverse_reverse]
  exact List.dropWhile_suffix isBlank

theorem trim_infix (cs : List Char) : trim cs <:+: cs :=
  (trimEnd_prefix_self (trimStart cs)).isInfix.trans (List.dropWhile_suffix isBlank).isInfix

theorem isBlank_of_trimStart {cs r : List Char} {c : Char} (left : trimStart cs = c :: r) :
    isBlank c = false := by
  have first := List.head?_dropWhile_not isBlank cs
  rw [← trimStart, left] at first
  exact first

theorem trim_first (cs : List Char) : ∀ c ∈ (trim cs).head?, isBlank c = false := by
  intro c first
  have begins : (trimStart cs).head? = some c := by
    obtain ⟨rest, whole⟩ := trimEnd_prefix_self (trimStart cs)
    rw [← whole, List.head?_append, ← trim, first]
    rfl
  obtain ⟨r, left⟩ := List.head?_eq_some_iff.mp begins
  exact isBlank_of_trimStart left

theorem trim_last (cs : List Char) : ∀ c ∈ (trim cs).getLast?, isBlank c = false := by
  intro c last
  rw [trim, trimEnd, List.getLast?_reverse] at last
  obtain ⟨r, left⟩ := List.head?_eq_some_iff.mp last
  exact isBlank_of_trimStart left

end Courier.Text
