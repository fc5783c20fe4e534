/-
Readers, which take what they read off the front of a text or refuse it.

A choice tries its alternatives in order and stays with the first that reads
something.  A repetition goes on as long as it can and never comes back.  A
reader that occurs inside itself is tied by `recursive`; it may do so once for
every character that is left, and no text needs more.
-/
import StagedResolver.Text.Basic

namespace StagedResolver.Text

/-- What is left of a text, and where that begins. -/
structure Cursor where
  rest : List Char
  position : Position
deriving Inhabited

namespace Cursor

def ofString (text : String) : Cursor := ⟨text.toList, .start⟩

def next? (cursor : Cursor) : Option (Char × Cursor) :=
  match cursor.rest with
  | [] => none
  | character :: rest => some (character, ⟨rest, cursor.position.after character⟩)

def skip (test : Char → Bool) (cursor : Cursor) : Cursor :=
  go cursor.rest cursor.position
where
  go : List Char → Position → Cursor
    | [], position => ⟨[], position⟩
    | character :: rest, position =>
        if test character then go rest (position.after character)
        else ⟨character :: rest, position⟩

end Cursor

def Reader (α : Type) := Cursor → Option (α × Cursor)

namespace Reader

variable {α β : Type}

def give (result : α) : Reader α := fun cursor => some (result, cursor)

def andThen (first : Reader α) (next : α → Reader β) : Reader β := fun cursor =>
  match first cursor with
  | some (result, rest) => next result rest
  | none => none

instance : Monad Reader where
  pure := give
  bind := andThen

def refuse : Reader α := fun _ => none

def orElse (first second : Reader α) : Reader α := fun cursor =>
  match first cursor with
  | some found => some found
  | none => second cursor

def choice (readers : List (Reader α)) : Reader α :=
  readers.foldr orElse refuse

def optional (reader : Reader α) : Reader (Option α) := fun cursor =>
  match reader cursor with
  | some (result, rest) => some (some result, rest)
  | none => some (none, cursor)

def notAhead (reader : Reader α) : Reader Unit := fun cursor =>
  if (reader cursor).isSome then none else some ((), cursor)

def require (condition : Bool) : Reader Unit :=
  if condition then give () else refuse

def ofOption : Option α → Reader α
  | some result => give result
  | none => refuse

def here : Reader Position := fun cursor => some (cursor.position, cursor)

def atEnd : Reader Unit := fun cursor =>
  if cursor.rest.isEmpty then some ((), cursor) else none

def satisfying (test : Char → Bool) : Reader Char := fun cursor =>
  match cursor.next? with
  | some (character, rest) => if test character then some (character, rest) else none
  | none => none

def exactly (expected : Char) : Reader Char :=
  satisfying fun character => character == expected

def characters : List Char → Reader Unit
  | [] => give ()
  | expected :: rest => do
      let _ ← exactly expected
      characters rest

def word (expected : String) : Reader Unit := characters expected.toList

/-- Repeats the reader until it refuses.  It also ends when nothing was taken. -/
def many (reader : Reader α) : Reader (List α) := fun cursor =>
  some (go cursor)
where
  go (cursor : Cursor) : List α × Cursor :=
    match reader cursor with
    | none => ([], cursor)
    | some (result, rest) =>
        if rest.rest.length < cursor.rest.length then
          let (others, last) := go rest
          (result :: others, last)
        else ([result], rest)
  termination_by cursor.rest.length

def many1 (reader : Reader α) : Reader (List α) := do
  let first ← reader
  let others ← many reader
  return first :: others

def run (test : Char → Bool) : Reader (List Char) := many (satisfying test)

def run1 (test : Char → Bool) : Reader (List Char) := many1 (satisfying test)

def skip (test : Char → Bool) : Reader Unit := fun cursor => some ((), cursor.skip test)

def located (reader : Reader α) : Reader (Located α) := do
  let position ← here
  let item ← reader
  return ⟨item, position⟩

/-- A reader that occurs inside itself, `depth` times at most. -/
def nested (build : Reader α → Reader α) : Nat → Reader α
  | 0, _ => none
  | depth + 1, cursor => build (fun inner => nested build depth inner) cursor

def recursive (build : Reader α → Reader α) : Reader α := fun cursor =>
  nested build (cursor.rest.length + 1) cursor

def whole (reader : Reader α) (text : String) : Option α :=
  (reader (Cursor.ofString text)).map Prod.fst

end Reader

end StagedResolver.Text
