import Courier.Text.Blank
import Courier.Text.Search

namespace Courier.PlainText

open Courier.Text

/-- The length of the tag that begins here: an opening bracket, at least one character that is no
closing bracket, and the first closing bracket. -/
def tagLength? : List Char → Option Nat
  | '<' :: r =>
    match cut? '>' r with
    | some (c :: inside, _) => some ((c :: inside).length + 2)
    | _ => none
  | _ => none

/-- Removal of tags with a count of characters still covered by the last tag. -/
def withoutTagsFrom : (skip : Nat) → List Char → List Char
  | _, [] => []
  | skip + 1, _ :: r => withoutTagsFrom skip r
  | 0, c :: r =>
    match tagLength? (c :: r) with
    | some n => withoutTagsFrom (n - 1) r
    | none => c :: withoutTagsFrom 0 r

def withoutTags (cs : List Char) : List Char := withoutTagsFrom 0 cs

/-- The entities in the order in which they are decoded. The ampersand comes last, so that what it
uncovers is not decoded again. -/
def entities : List (String × Char) :=
  [("&nbsp;", ' '), ("&lt;", '<'), ("&gt;", '>'), ("&quot;", '"'), ("&amp;", '&')]

def decodeEntities (cs : List Char) : List Char :=
  entities.foldl (fun text (name, c) => replaceAll name.toList [c] text) cs

/-- How many of these characters belong to the blank stretch that a line break begins, up to its
last line break. -/
def stretchLength (cs : List Char) : Nat :=
  let run := cs.takeWhile isBlank
  run.length - (run.reverse.takeWhile (· != '\n')).length

/-- Shortening of blank stretches between line breaks with a count of characters still covered by
the last one. -/
def withoutBlankLinesFrom : (skip : Nat) → List Char → List Char
  | _, [] => []
  | skip + 1, _ :: r => withoutBlankLinesFrom skip r
  | 0, c :: r =>
    if c = '\n' then
      match stretchLength r with
      | 0 => '\n' :: withoutBlankLinesFrom 0 r
      | n + 1 => '\n' :: '\n' :: withoutBlankLinesFrom (n + 1) r
    else c :: withoutBlankLinesFrom 0 r

/-- Each stretch from a line break over blanks to the last line break among them becomes one blank
line. -/
def withoutBlankLines (cs : List Char) : List Char := withoutBlankLinesFrom 0 cs

def ofHtmlChars (cs : List Char) : List Char :=
  trim (withoutBlankLines (decodeEntities (withoutTags cs)))

def ofHtml (html : String) : String := String.ofList (ofHtmlChars html.toList)

end Courier.PlainText
