/-
The smallest parts of a query: what is ignored, names, numbers and strings.
-/
import StagedResolver.Document.BlockText
import StagedResolver.Json.Token
import StagedResolver.Text.Reader

namespace StagedResolver.Document.Lexeme

open Text Text.Reader

private def isLineEnd (character : Char) : Bool :=
  character == '\n' || character == '\r'

/-- Blanks, which commas and byte order marks are among. -/
def isIgnored (character : Char) : Bool :=
  isLineEnd character || character == ' ' || character == ',' ||
    character == '\t' || character == '\ufeff'

def skipIgnored (cursor : Cursor) : Cursor :=
  go false cursor.rest cursor.position
where
  go (inComment : Bool) : List Char → Position → Cursor
    | [], position => ⟨[], position⟩
    | character :: rest, position =>
        if inComment then
          go (!isLineEnd character) rest (position.after character)
        else if isIgnored character then go false rest (position.after character)
        else if character = '#' then go true rest (position.after character)
        else ⟨character :: rest, position⟩

def token {α : Type} (reader : Reader α) : Reader α := fun cursor =>
  reader (skipIgnored cursor)

def symbol (expected : String) : Reader Unit := token (word expected)

private def startsName (character : Char) : Bool :=
  character.isAlpha || character == '_'

private def continuesName (character : Char) : Bool :=
  startsName character || character.isDigit

def name : Reader String := do
  let first ← satisfying startsName
  let others ← run continuesName
  return String.ofList (first :: others)

private def integerPart : Reader (List Char) := do
  let sign ← optional (exactly '-')
  let zero ← optional (exactly '0')
  let digits ←
    match zero with
    | some digit => give [digit]
    | none => run1 Char.isDigit
  return sign.toList ++ digits

private def fractionPart : Reader (List Char) := do
  let point ← exactly '.'
  let digits ← run1 Char.isDigit
  return point :: digits

private def exponentPart : Reader (List Char) := do
  let mark ← satisfying fun character => character == 'e' || character == 'E'
  let sign ← optional (satisfying fun character => character == '+' || character == '-')
  let digits ← run1 Char.isDigit
  return mark :: (sign.toList ++ digits)

/-- The text of a number.  No name begins right behind it. -/
def numberText : Reader (List Char) := do
  let whole ← integerPart
  let fraction ← optional fractionPart
  let exponent ← optional exponentPart
  notAhead (satisfying startsName)
  return whole ++ fraction.getD [] ++ exponent.getD []

def number : Reader Json := do
  let text ← numberText
  ofOption (Json.number? text)

/-- Four hexadecimal digits that name a character.  Halves of surrogate pairs
name none. -/
def codePoint : Reader Char := do
  let first ← hexDigit
  let second ← hexDigit
  let third ← hexDigit
  let fourth ← hexDigit
  let code := ((first * 16 + second) * 16 + third) * 16 + fourth
  require (code < 0xD800 || 0xE000 ≤ code)
  return Char.ofNat code
where
  hexDigit : Reader Nat := do
    let digit ← satisfying fun character => (hexValue? character).isSome
    ofOption (hexValue? digit)

private def stringCharacter : Reader Char :=
  choice [
    satisfying fun character =>
      character != '"' && character != '\\' && !isLineEnd character,
    do
      let _ ← exactly '\\'
      let letter ← satisfying fun character => (escaped? character).isSome
      ofOption (escaped? letter),
    do
      word "\\u"
      codePoint]

private def lineString : Reader String := do
  let _ ← exactly '"'
  let text ← many stringCharacter
  let _ ← exactly '"'
  return String.ofList text

private def blockMark : Reader Unit := word "\"\"\""

/-- The mark behind a backslash does not end a block string. -/
def escapedMark : Reader (List Char) := do
  word "\\\"\"\""
  return ['\\', '"', '"', '"']

private def blockCharacters : Reader (List Char) :=
  orElse escapedMark do
    notAhead blockMark
    let character ← satisfying fun _ => true
    return [character]

private def blockString : Reader String := do
  blockMark
  let raw ← many blockCharacters
  blockMark
  return String.ofList (BlockText.meaning raw.flatten)

def string : Reader String := orElse blockString lineString

end StagedResolver.Document.Lexeme
