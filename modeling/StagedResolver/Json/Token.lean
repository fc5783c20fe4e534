/-
The lexemes of a JSON text.

The scanner goes over the text once, a character at a time.  Literals and
numbers are runs of letters, digits, signs and points: no JSON text has two of
them next to each other, so that the longest run is the lexeme.
-/
import StagedResolver.Json.Basic
import StagedResolver.Number.Decimal
import StagedResolver.Text.Basic

namespace StagedResolver.Json

open Text

inductive Token where
  | openArray
  | closeArray
  | openObject
  | closeObject
  | colon
  | comma
  | string (text : String)
  | scalar (document : Json)
deriving Inhabited

def exponent? : List Char → Option Int
  | [] => some 0
  | mark :: rest =>
      if mark = 'e' ∨ mark = 'E' then
        match rest with
        | [] => none
        | sign :: digits =>
            let unsigned := if sign = '+' ∨ sign = '-' then digits else rest
            if unsigned.isEmpty || !unsigned.all Char.isDigit then none
            else
              let magnitude : Int := digitsValue unsigned
              some (if sign = '-' then -magnitude else magnitude)
      else none

/-- An integer when it has a fitting width, and a binary64 otherwise.  Minus
zero is the negative zero, which no integer is. -/
def integerLiteral? (negative : Bool) (magnitude : Nat) : Option Json :=
  if negative then
    if magnitude = 0 then some (.decimal .negativeZero)
    else if magnitude ≤ Nat.pow 2 63 then some (.integer (-(magnitude : Int)))
    else (Decimal.round? true ⟨magnitude, 0⟩).map .decimal
  else if magnitude < UInt64.size then some (.integer magnitude)
  else (Decimal.round? false ⟨magnitude, 0⟩).map .decimal

/-- A number without its sign: digits without a needless zero in front, perhaps
a fraction, perhaps an exponent. -/
def unsignedNumber? (negative : Bool) (characters : List Char) : Option Json :=
  let whole := characters.takeWhile Char.isDigit
  let rest := characters.dropWhile Char.isDigit
  let wellFormed :=
    match whole with
    | [] => false
    | first :: others => first ≠ '0' || others.isEmpty
  if !wellFormed then none
  else
    match rest with
    | [] => integerLiteral? negative (digitsValue whole)
    | '.' :: afterPoint =>
        let fraction := afterPoint.takeWhile Char.isDigit
        if fraction.isEmpty then none
        else do
          let exponent ← exponent? (afterPoint.dropWhile Char.isDigit)
          let number ← Decimal.round? negative
            ⟨digitsValue (whole ++ fraction), exponent - fraction.length⟩
          return .decimal number
    | _ => do
        let exponent ← exponent? rest
        let number ← Decimal.round? negative ⟨digitsValue whole, exponent⟩
        return .decimal number

def number? : List Char → Option Json
  | '-' :: rest => unsignedNumber? true rest
  | characters => unsignedNumber? false characters

def scalar? (characters : List Char) : Option Json :=
  if characters = ['n', 'u', 'l', 'l'] then some .null
  else if characters = ['t', 'r', 'u', 'e'] then some (.bool true)
  else if characters = ['f', 'a', 'l', 's', 'e'] then some (.bool false)
  else number? characters

/-! ### The scanner -/

inductive Pending where
  | character
  | escape
  /-- Further hexadecimal digits of a code unit, `left` of them. -/
  | unit (high : Option Nat) (left value : Nat)
  | pairEscape (high : Nat)
  | pairLetter (high : Nat)
deriving Inhabited

/-- Where the scanner is; runs and strings hold their characters in reverse. -/
inductive Mode where
  | between
  | run (characters : List Char)
  | text (characters : List Char) (pending : Pending)
deriving Inhabited

structure Scan where
  tokens : List Token
  mode : Mode
deriving Inhabited

def isBlank (character : Char) : Bool :=
  character == ' ' || character == '\n' || character == '\t' || character == '\r'

def isRunCharacter (character : Char) : Bool :=
  character.isAlphanum || character == '-' || character == '+' || character == '.'

/-- The character of a complete code unit, or what must follow it: a high half
of a pair waits for a low one, and no half stands alone. -/
def completeUnit (characters : List Char) (high : Option Nat) (value : Nat) :
    Option Mode :=
  match high with
  | none =>
      if 0xD800 ≤ value ∧ value < 0xDC00 then
        some (.text characters (.pairEscape value))
      else if 0xDC00 ≤ value ∧ value < 0xE000 then none
      else some (.text (Char.ofNat value :: characters) .character)
  | some first =>
      if 0xDC00 ≤ value ∧ value < 0xE000 then
        let code := 0x10000 + (first - 0xD800) * 0x400 + (value - 0xDC00)
        some (.text (Char.ofNat code :: characters) .character)
      else none

def Scan.inText (scan : Scan) (characters : List Char) (pending : Pending)
    (character : Char) : Option Scan :=
  match pending with
  | .character =>
      if character = '"' then
        some ⟨.string (String.ofList characters.reverse) :: scan.tokens, .between⟩
      else if character = '\\' then some { scan with mode := .text characters .escape }
      else if character.toNat < 32 then none
      else some { scan with mode := .text (character :: characters) .character }
  | .escape =>
      if character = 'u' then
        some { scan with mode := .text characters (.unit none 4 0) }
      else (escaped? character).map fun meant =>
        { scan with mode := .text (meant :: characters) .character }
  | .unit high left value => do
      let digit ← hexValue? character
      let value := value * 16 + digit
      if left ≤ 1 then
        let mode ← completeUnit characters high value
        return { scan with mode := mode }
      else return { scan with mode := .text characters (.unit high (left - 1) value) }
  | .pairEscape high =>
      if character = '\\' then
        some { scan with mode := .text characters (.pairLetter high) }
      else none
  | .pairLetter high =>
      if character = 'u' then
        some { scan with mode := .text characters (.unit (some high) 4 0) }
      else none

def Scan.between (scan : Scan) (character : Char) : Option Scan :=
  let punctuation (token : Token) : Option Scan :=
    some ⟨token :: scan.tokens, .between⟩
  match character with
  | '[' => punctuation .openArray
  | ']' => punctuation .closeArray
  | '{' => punctuation .openObject
  | '}' => punctuation .closeObject
  | ':' => punctuation .colon
  | ',' => punctuation .comma
  | '"' => some { scan with mode := .text [] .character }
  | _ =>
      if isBlank character then some { scan with mode := .between }
      else if isRunCharacter character then some { scan with mode := .run [character] }
      else none

def Scan.closeRun (scan : Scan) (characters : List Char) : Option Scan :=
  (scalar? characters.reverse).map fun document =>
    ⟨.scalar document :: scan.tokens, .between⟩

def Scan.step (scan : Scan) (character : Char) : Option Scan :=
  match scan.mode with
  | .between => scan.between character
  | .run characters =>
      if isRunCharacter character then
        some { scan with mode := .run (character :: characters) }
      else (scan.closeRun characters).bind fun closed => closed.between character
  | .text characters pending => scan.inText characters pending character

def tokens? (text : String) : Option (List Token) := do
  let scan ← text.toList.foldlM Scan.step ⟨[], .between⟩
  match scan.mode with
  | .between => return scan.tokens.reverse
  | .run characters => do
      let closed ← scan.closeRun characters
      return closed.tokens.reverse
  | .text _ _ => none

end StagedResolver.Json
