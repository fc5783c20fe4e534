/-
Places in a text, and what single characters of it are or stand for.

White space is what Unicode defines it to be.  In a label between quotes every character can be
told from the text: the quote, the backslash, the line ends, the tab and the null character have
short escapes, and any other character that is not visible on its own, or that would join the
character before it, is written as its code point.
-/
import StagedResolver.Text.Extending
import StagedResolver.Text.Unprintable

namespace StagedResolver

structure Position where
  line : Nat
  column : Nat
deriving DecidableEq, Inhabited

namespace Position

def start : Position := ⟨1, 1⟩

/-- The place behind a character.  A line feed starts a new line, and a carriage
return goes back to the first column of the same one. -/
def after (position : Position) (character : Char) : Position :=
  if character = '\n' then ⟨position.line + 1, 1⟩
  else if character = '\r' then ⟨position.line, 1⟩
  else ⟨position.line, position.column + 1⟩

def largest : Nat := 65535

def clamped (position : Position) : Position :=
  ⟨min position.line largest, min position.column largest⟩

def display (position : Position) : String :=
  toString position.line ++ ":" ++ toString position.column

end Position

structure Located (α : Type) where
  item : α
  position : Position
deriving DecidableEq, Inhabited

namespace Text

/-- The property White_Space: twenty-five code points. -/
def isBlank (character : Char) : Bool :=
  let code := character.toNat
  (9 ≤ code && code ≤ 13) || code == 0x20 || code == 0x85 || code == 0xA0 ||
    code == 0x1680 || (0x2000 ≤ code && code ≤ 0x200A) || code == 0x2028 ||
    code == 0x2029 || code == 0x202F || code == 0x205F || code == 0x3000

def trimStart (characters : List Char) : List Char :=
  characters.dropWhile isBlank

def trim (characters : List Char) : List Char :=
  (trimStart (trimStart characters).reverse).reverse

def digitsValue (digits : List Char) : Nat :=
  digits.foldl (fun value digit => value * 10 + (digit.toNat - 48)) 0

def hexValue? (character : Char) : Option Nat :=
  if character.isDigit then some (character.toNat - 48)
  else if 'a' ≤ character ∧ character ≤ 'f' then some (character.toNat - 87)
  else if 'A' ≤ character ∧ character ≤ 'F' then some (character.toNat - 55)
  else none

def escaped? (letter : Char) : Option Char :=
  match letter with
  | '"' => some '"'
  | '\\' => some '\\'
  | '/' => some '/'
  | 'b' => some (Char.ofNat 8)
  | 'f' => some (Char.ofNat 12)
  | 'n' => some '\n'
  | 'r' => some '\r'
  | 't' => some '\t'
  | _ => none

def codePoint (character : Char) : List Char :=
  "\\u\x7b".toList ++ Nat.toDigits 16 character.toNat ++ ['\x7d']

private def quotedCharacter (character : Char) : List Char :=
  match character with
  | '"' => ['\\', '"']
  | '\\' => ['\\', '\\']
  | '\n' => ['\\', 'n']
  | '\r' => ['\\', 'r']
  | '\t' => ['\\', 't']
  | _ =>
      if character.toNat = 0 then ['\\', '0']
      else if isExtending character || isUnprintable character then
        codePoint character
      else [character]

def quoted (label : String) : String :=
  String.ofList ('"' :: (label.toList.flatMap quotedCharacter ++ ['"']))

end Text

end StagedResolver
