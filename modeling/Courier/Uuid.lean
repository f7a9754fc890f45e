import Courier.Text.Digits

namespace Courier

structure Uuid where
  bits : BitVec 128
  deriving DecidableEq, Inhabited

namespace Uuid

open Text

def ofNat (n : Nat) : Uuid := ⟨BitVec.ofNat 128 n⟩

def toNat (u : Uuid) : Nat := u.bits.toNat

instance : LE Uuid := ⟨fun a b => a.toNat ≤ b.toNat⟩

instance (a b : Uuid) : Decidable (a ≤ b) := inferInstanceAs (Decidable (a.toNat ≤ b.toNat))

def renderChars (u : Uuid) : List Char :=
  let n := u.toNat
  hexDigits 8 (n >>> 96) ++ ['-'] ++ hexDigits 4 (n >>> 80) ++ ['-'] ++ hexDigits 4 (n >>> 64)
    ++ ['-'] ++ hexDigits 4 (n >>> 48) ++ ['-'] ++ hexDigits 12 n

/-- The hyphenated form in lower case. -/
def render (u : Uuid) : String := String.ofList u.renderChars

/-- The groups of the hyphenated form without their hyphens. -/
def groups? (cs : List Char) : Option (List Char) :=
  if cs.length = 36 ∧ cs[8]? = some '-' ∧ cs[13]? = some '-' ∧ cs[18]? = some '-'
      ∧ cs[23]? = some '-' then
    some (cs.take 8 ++ (cs.drop 9).take 4 ++ (cs.drop 14).take 4 ++ (cs.drop 19).take 4
      ++ cs.drop 24)
  else none

/-- The text without the braces around it or the name of its namespace in front. -/
def unwrapped (cs : List Char) : List Char :=
  match cs with
  | '\x7b' :: r => if r.length = 37 ∧ r.getLast? = some '\x7d' then r.dropLast else cs
  | 'u' :: 'r' :: 'n' :: ':' :: 'u' :: 'u' :: 'i' :: 'd' :: ':' :: r => r
  | _ => cs

def parseChars (cs : List Char) : Option Uuid :=
  let digits? := if cs.length = 32 then some cs else groups? (unwrapped cs)
  (digits?.bind hexNumber?).map ofNat

/-- The 32 digits alone or hyphenated, the latter also in braces or as a resource name. -/
def parse (s : String) : Option Uuid := parseChars s.toList

theorem toNat_ofNat (u : Uuid) : ofNat u.toNat = u := by
  cases u
  simp [ofNat, toNat]

theorem toNat_injective {a b : Uuid} (h : a.toNat = b.toNat) : a = b := by
  rw [← toNat_ofNat a, h, toNat_ofNat]

end Uuid
end Courier
