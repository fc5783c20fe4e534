/-
The text of a block string.

Lines that are blank at the beginning and at the end are dropped.  All lines but
the first lose the indent that those of them with a content have in common.
-/

namespace StagedResolver.Document.BlockText

/-- The lines of a text, which a line feed, a carriage return or both end. -/
def splitLines : List Char → List (List Char)
  | [] => [[]]
  | '\r' :: '\n' :: rest => [] :: splitLines rest
  | character :: rest =>
      if character = '\r' ∨ character = '\n' then [] :: splitLines rest
      else
        match splitLines rest with
        | [] => [[character]]
        | line :: lines => (character :: line) :: lines

private def indents (character : Char) : Bool :=
  character == ' ' || character == '\t'

def isBlank (line : List Char) : Bool := line.all indents

private def indent? (line : List Char) : Option Nat :=
  if isBlank line then none else some (line.takeWhile indents).length

private def commonIndent (lines : List (List Char)) : Nat :=
  (lines.filterMap indent?).min?.getD 0

private def cut (indent : Nat) (line : List Char) : List Char :=
  if indent ≤ line.length then line.drop indent else line

private def cutAll : List (List Char) → List (List Char)
  | [] => []
  | first :: others => first :: others.map (cut (commonIndent others))

private def dropBlank (lines : List (List Char)) : List (List Char) :=
  ((lines.dropWhile isBlank).reverse.dropWhile isBlank).reverse

/-- The text that stands for what is between the marks of a block string. -/
def meaning (raw : List Char) : List Char :=
  List.intercalate ['\n'] (dropBlank (cutAll (splitLines raw)))

end StagedResolver.Document.BlockText
