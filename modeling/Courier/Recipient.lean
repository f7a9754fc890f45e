import Courier.Text.Blank
import Courier.Text.Search
import Courier.Error

namespace Courier.Recipient

open Courier.Text

def isLetterOrDigit (c : Char) : Bool :=
  let n := c.toNat
  (48 ≤ n && n ≤ 57) || (65 ≤ n && n ≤ 90) || (97 ≤ n && n ≤ 122)

/-- The punctuation that may occur in the local part of a mail address. -/
def localMarks : List Char := ".!#$%&'*+/=?^_`\x7b|\x7d~-".toList

def isLocalChar (c : Char) : Bool := isLetterOrDigit c || localMarks.contains c

def isLabel (cs : List Char) : Bool :=
  !cs.isEmpty && cs.all (fun c => isLetterOrDigit c || c == '-')
    && cs.head? != some '-' && cs.getLast? != some '-'

def isDomain (cs : List Char) : Bool :=
  let labels := splitOn '.' cs
  2 ≤ labels.length && labels.all isLabel

/-- A local part and a domain around the first at sign. -/
def isAddress (cs : List Char) : Bool :=
  match cut? '@' cs with
  | none => false
  | some (user, domain) => !user.isEmpty && user.all isLocalChar && isDomain domain

def isAsciiDigit (c : Char) : Bool := 48 ≤ c.toNat && c.toNat ≤ 57

/-- A plus sign, a digit that is not zero, and six to fourteen more digits. -/
def isTelephone (cs : List Char) : Bool :=
  match cs with
  | '+' :: first :: rest =>
    isAsciiDigit first && first != '0' && rest.all isAsciiDigit
      && 6 ≤ rest.length && rest.length ≤ 14
  | _ => false

/-- The longest mail address, in bytes. -/
def addressLimit : Nat := 254

/-- The longest device token, in bytes. -/
def deviceTokenLimit : Nat := 4096

def isValid (channel : Channel) (recipient : String) : Bool :=
  match channel with
  | .email => recipient.utf8ByteSize ≤ addressLimit && isAddress recipient.toList
  | .sms => isTelephone recipient.toList
  | .push =>
    recipient != "" && recipient.utf8ByteSize ≤ deviceTokenLimit
      && !recipient.toList.any isBlank

def validate (channel : Channel) (recipient : String) : Except Error Unit :=
  if isValid channel recipient then .ok () else .error (.invalidRecipient channel recipient)

end Courier.Recipient
