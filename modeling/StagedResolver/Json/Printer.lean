/-
The compact text of a JSON document.

Members are written in their order and without blanks.  Strings escape the
quote, the backslash and the control characters below U+0020, and write
everything else as it is.
-/
import StagedResolver.Json.Basic
import StagedResolver.Number.Layout

namespace StagedResolver.Json

/-- Numbers that are no integers are positional between 0.00001 and 10^16. -/
def numberLayout : DecimalLayout := ⟨-5, 16⟩

def hexDigit (value : Nat) : Char :=
  if value < 10 then Char.ofNat (48 + value) else Char.ofNat (87 + value)

def escape (character : Char) : List Char :=
  match character with
  | '"' => ['\\', '"']
  | '\\' => ['\\', '\\']
  | '\n' => ['\\', 'n']
  | '\r' => ['\\', 'r']
  | '\t' => ['\\', 't']
  | _ =>
      if character.toNat = 8 then ['\\', 'b']
      else if character.toNat = 12 then ['\\', 'f']
      else if character.toNat < 32 then
        ['\\', 'u', '0', '0', hexDigit (character.toNat / 16),
          hexDigit (character.toNat % 16)]
      else [character]

def quote (text : String) : String :=
  "\"" ++ String.ofList (text.toList.flatMap escape) ++ "\""

mutual

def render : Json → String
  | .null => "null"
  | .bool flag => if flag then "true" else "false"
  | .integer number => toString number
  | .decimal number => numberLayout.text number
  | .string text => quote text
  | .array items => "[" ++ renderItems items ++ "]"
  | .object members => "\x7b" ++ renderMembers members ++ "\x7d"

def renderItems : List Json → String
  | [] => ""
  | [item] => render item
  | item :: next :: rest => render item ++ "," ++ renderItems (next :: rest)

def renderMembers : List (String × Json) → String
  | [] => ""
  | [(key, held)] => quote key ++ ":" ++ render held
  | (key, held) :: next :: rest =>
      quote key ++ ":" ++ render held ++ "," ++ renderMembers (next :: rest)

end

end StagedResolver.Json
