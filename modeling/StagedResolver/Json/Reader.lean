/-
JSON documents from their lexemes.

The reader keeps the arrays and objects that are still open on a stack and goes
over the lexemes once.  How many of them a text may open inside each other can be
limited; usually there may be at most 127.
-/
import StagedResolver.Json.Token

namespace StagedResolver.Json

/-- An open array or object; what it holds so far is in reverse. -/
inductive Layer where
  | array (items : List Json)
  | object (members : List (String × Json)) (key : String)
deriving Inhabited

inductive Expected where
  | value
  | valueOrEnd
  | keyOrEnd
  | key
  | colon
  | more
  | nothing (document : Json)
deriving Inhabited

structure Reading where
  layers : List Layer
  expected : Expected
deriving Inhabited

def deepest : Nat := 127

def allows (limit : Option Nat) (layers : Nat) : Bool :=
  match limit with
  | none => true
  | some most => layers < most

def Reading.accept (layers : List Layer) (document : Json) : Reading :=
  match layers with
  | [] => ⟨[], .nothing document⟩
  | .array items :: outer => ⟨.array (document :: items) :: outer, .more⟩
  | .object members key :: outer =>
      ⟨.object ((key, document) :: members) key :: outer, .more⟩

def Reading.openLayer (limit : Option Nat) (reading : Reading) (layer : Layer)
    (expected : Expected) : Option Reading :=
  if allows limit reading.layers.length then some ⟨layer :: reading.layers, expected⟩
  else none

def Reading.start (limit : Option Nat) (reading : Reading) (token : Token) :
    Option Reading :=
  match token with
  | .openArray => reading.openLayer limit (.array []) .valueOrEnd
  | .openObject => reading.openLayer limit (.object [] "") .keyOrEnd
  | .string text => some (Reading.accept reading.layers (.string text))
  | .scalar document => some (Reading.accept reading.layers document)
  | _ => none

def Reading.close (reading : Reading) (token : Token) : Option Reading :=
  match token, reading.layers with
  | .closeArray, .array items :: outer =>
      some (Reading.accept outer (.array items.reverse))
  | .closeObject, .object members _ :: outer =>
      some (Reading.accept outer (.object members.reverse))
  | _, _ => none

def Reading.key (reading : Reading) (token : Token) : Option Reading :=
  match token, reading.layers with
  | .string text, .object members _ :: outer =>
      some ⟨.object members text :: outer, .colon⟩
  | _, _ => none

def Reading.step (limit : Option Nat) (reading : Reading) (token : Token) :
    Option Reading :=
  match reading.expected with
  | .value => reading.start limit token
  | .valueOrEnd =>
      match token with
      | .closeArray => reading.close token
      | _ => reading.start limit token
  | .keyOrEnd =>
      match token with
      | .closeObject => reading.close token
      | _ => reading.key token
  | .key => reading.key token
  | .colon =>
      match token with
      | .colon => some { reading with expected := .value }
      | _ => none
  | .more =>
      match token, reading.layers with
      | .comma, .array _ :: _ => some { reading with expected := .value }
      | .comma, .object _ _ :: _ => some { reading with expected := .key }
      | _, _ => reading.close token
  | .nothing _ => none

def readWithin? (limit : Option Nat) (text : String) : Option Json := do
  let tokens ← tokens? text
  let reading ← tokens.foldlM (Reading.step limit) ⟨[], .value⟩
  match reading.expected with
  | .nothing document => return document
  | _ => none

def read? (text : String) : Option Json := readWithin? (some deepest) text

end StagedResolver.Json
