/-
The smallest parts of a TOML text: blanks, keys, strings, numbers and times.
-/
import StagedResolver.Number.Decimal
import StagedResolver.Text.Basic
import StagedResolver.Text.Reader
import StagedResolver.Toml.Basic
import StagedResolver.Value.Projection

namespace StagedResolver.Toml.Lexeme

open Text Text.Reader

def isBlank (character : Char) : Bool :=
  character == ' ' || character == '\t'

def blanks : Reader Unit := skip isBlank

def lineEnd : Reader Unit := choice [word "\n", word "\r\n"]

/-- Whether a character may stand in a text as it is: a tab, or anything that is
not a control character of ASCII. -/
def isPrintable (character : Char) : Bool :=
  character == '\t' || (32 ≤ character.toNat && character.toNat != 127)

def comment : Reader Unit := do
  let _ ← exactly '#'
  skip isPrintable

def spacing : Reader Unit := do
  let _ ← many (choice [
    do
      let _ ← run1 isBlank,
    lineEnd,
    comment])

def endOfLine : Reader Unit := do
  blanks
  let _ ← optional comment
  orElse lineEnd atEnd

def codePoint (count : Nat) : Reader Char := do
  let code ← digits count 0
  require (code < 0xD800 || (0xE000 ≤ code && code < 0x110000))
  return Char.ofNat code
where
  digits : Nat → Nat → Reader Nat
    | 0, value => give value
    | left + 1, value => do
        let digit ← satisfying fun character => (hexValue? character).isSome
        let digit ← ofOption (hexValue? digit)
        digits left (value * 16 + digit)

/-- The character that a letter behind a backslash stands for; a slash has no
escape. -/
def meaning? (letter : Char) : Option Char :=
  if letter = '/' then none else escaped? letter

def escape : Reader Char := do
  let _ ← exactly '\\'
  choice [
    do
      let letter ← satisfying fun character => (meaning? character).isSome
      ofOption (meaning? letter),
    do
      let _ ← exactly 'u'
      codePoint 4,
    do
      let _ ← exactly 'U'
      codePoint 8]

private def verbatim (quote : Char) : Reader Char :=
  satisfying fun character => isPrintable character && character != quote

private def basicCharacter : Reader Char :=
  orElse (satisfying fun character =>
    isPrintable character && character != '"' && character != '\\') escape

private def basicString : Reader String := do
  let _ ← exactly '"'
  let text ← many basicCharacter
  let _ ← exactly '"'
  return String.ofList text

private def literalString : Reader String := do
  let _ ← exactly '\''
  let text ← many (verbatim '\'')
  let _ ← exactly '\''
  return String.ofList text

private def longMark (quote : Char) : Reader Unit := characters [quote, quote, quote]

private def innerQuotes (quote : Char) : Reader (List Char) :=
  choice [
    do
      characters [quote, quote]
      notAhead (exactly quote)
      return [quote, quote],
    do
      let _ ← exactly quote
      notAhead (exactly quote)
      return [quote]]

private def closing (quote : Char) : Reader (List Char) :=
  choice [
    do
      characters [quote, quote]
      longMark quote
      return [quote, quote],
    do
      let _ ← exactly quote
      longMark quote
      return [quote],
    do
      longMark quote
      return []]

private def continuation : Reader (List Char) := do
  let _ ← exactly '\\'
  blanks
  lineEnd
  let _ ← many (orElse lineEnd do
    let _ ← run1 isBlank)
  return []

private def lineFeed : Reader (List Char) := do
  lineEnd
  return ['\n']

/-- A string of several lines.  A line end right behind the first mark is left
out, and all others are line feeds. -/
def longString (quote : Char) (content : Reader (List Char)) : Reader String := do
  longMark quote
  let _ ← optional lineEnd
  let text ← many (choice [content, lineFeed, innerQuotes quote])
  let last ← closing quote
  return String.ofList (text.flatten ++ last)

private def longBasicString : Reader String :=
  longString '"' (orElse continuation ((fun character => [character]) <$> basicCharacter))

private def longLiteralString : Reader String :=
  longString '\'' ((fun character => [character]) <$> verbatim '\'')

def string : Reader String :=
  choice [longBasicString, basicString, longLiteralString, literalString]

private def isBareKey (character : Char) : Bool :=
  character.isAlphanum || character == '_' || character == '-'

private def simpleKey : Reader String :=
  choice [basicString, literalString, String.ofList <$> run1 isBareKey]

private def longestPath : Nat := 79

def path : Reader (List String) := do
  let first ← spaced
  let others ← many do
    let _ ← exactly '.'
    spaced
  require (others.length < longestPath)
  return first :: others
where
  spaced : Reader String := do
    blanks
    let key ← simpleKey
    blanks
    return key

/-! ### Numbers -/

def sign : Reader (Option Char) :=
  optional (satisfying fun character => character == '+' || character == '-')

private def digitRun (isDigit : Char → Bool) : Reader (List Char) := do
  let first ← satisfying isDigit
  let others ← many (orElse (satisfying isDigit) do
    let _ ← exactly '_'
    satisfying isDigit)
  return first :: others

private def wholeDigits : Reader (List Char) :=
  orElse
    (do
      let zero ← exactly '0'
      return [zero])
    (digitRun Char.isDigit)

def fitting (number : Int) : Reader Int64 := ofOption (Value.int64? number)

private def signedInteger : Reader Int64 := do
  let sign ← sign
  let digits ← wholeDigits
  let magnitude : Int := digitsValue digits
  fitting (if sign = some '-' then -magnitude else magnitude)

private def basedInteger (mark : String) (base : Nat) : Reader Int64 := do
  word mark
  let digits ← digitRun fun character =>
    match hexValue? character with
    | some digit => digit < base
    | none => false
  let magnitude := digits.foldl
    (fun value digit => value * base + (hexValue? digit).getD 0) 0
  fitting magnitude

def integer : Reader Int64 :=
  choice [basedInteger "0x" 16, basedInteger "0o" 8, basedInteger "0b" 2, signedInteger]

private def fractionDigits : Reader (List Char) := do
  let _ ← exactly '.'
  digitRun Char.isDigit

def exponent : Reader Int := do
  let _ ← satisfying fun character => character == 'e' || character == 'E'
  let sign ← sign
  let digits ← digitRun Char.isDigit
  let magnitude : Int := digitsValue digits
  return if sign = some '-' then -magnitude else magnitude

private def fractionAndExponent : Reader (List Char × Int) :=
  choice [
    do
      let power ← exponent
      return ([], power),
    do
      let fraction ← fractionDigits
      let power ← optional exponent
      return (fraction, power.getD 0)]

/-- The nearest number.  There is none beyond the largest finite number; below the
smallest one is the negative infinity. -/
def rounded? (negative : Bool) (decimal : Decimal) : Option Binary64 :=
  match Decimal.round? negative decimal with
  | some number => some number
  | none => if negative then some .negativeInfinity else none

private def finiteFloat : Reader Binary64 := do
  let sign ← sign
  let whole ← wholeDigits
  let (fraction, power) ← fractionAndExponent
  ofOption (rounded? (sign == some '-')
    ⟨digitsValue (whole ++ fraction), power - fraction.length⟩)

private def specialFloat : Reader Binary64 := do
  let sign ← sign
  let magnitude ← choice [
    do
      word "inf"
      return Binary64.infinity,
    do
      word "nan"
      return Binary64.nan]
  return if sign = some '-' then magnitude.neg else magnitude

def float : Reader Binary64 := orElse finiteFloat specialFloat

def boolean : Reader Bool :=
  choice [
    do
      word "true"
      return true,
    do
      word "false"
      return false]

/-! ### Dates and times -/

private def fixedDigits (count : Nat) : Reader Nat := do
  let digits ← times count
  return digitsValue digits
where
  times : Nat → Reader (List Char)
    | 0 => give []
    | count + 1 => do
        let digit ← satisfying Char.isDigit
        let others ← times count
        return digit :: others

def date : Reader Date := do
  let year ← fixedDigits 4
  let _ ← exactly '-'
  let month ← fixedDigits 2
  let _ ← exactly '-'
  let day ← fixedDigits 2
  require (Date.isValid ⟨year, month, day⟩)
  return ⟨year, month, day⟩

/-- The fraction of a second in nanoseconds; further digits are cut off. -/
def nanoseconds : Reader Nat := do
  let _ ← exactly '.'
  let digits ← run1 Char.isDigit
  let first := digits.take 9
  return digitsValue first * Nat.pow 10 (9 - first.length)

def timeUpTo (lastHour : Nat) : Reader Time := do
  let hour ← fixedDigits 2
  let _ ← exactly ':'
  let minute ← fixedDigits 2
  let _ ← exactly ':'
  let second ← fixedDigits 2
  let fraction ← optional nanoseconds
  require (hour ≤ lastHour && minute < 60 && second ≤ 60)
  return ⟨hour, minute, second, fraction.getD 0⟩

def offsetWithin (isAllowed : Nat → Nat → Bool) : Reader Offset :=
  orElse
    (do
      let _ ← satisfying fun character => character == 'Z' || character == 'z'
      return .universal)
    (do
      let direction ← satisfying fun character => character == '+' || character == '-'
      let hours ← fixedDigits 2
      let _ ← exactly ':'
      let minutes ← fixedDigits 2
      require (isAllowed hours minutes)
      let distance : Int := ↑(hours * 60 + minutes)
      return .minutes (if direction = '-' then -distance else distance))

def datetimeOf (time : Reader Time) (offset : Reader Offset) : Reader Datetime :=
  orElse
    (do
      let day ← date
      let moment ← optional do
        let _ ← satisfying fun character =>
          character == 'T' || character == 't' || character == ' '
        let clock ← time
        let distance ← optional offset
        return (clock, distance)
      match moment with
      | some (clock, distance) => return .both day clock distance
      | none => return .date day)
    (Datetime.time <$> time)

def datetime : Reader Datetime :=
  datetimeOf (timeUpTo 23) (offsetWithin fun hours minutes => hours < 24 && minutes < 60)

end StagedResolver.Toml.Lexeme
