/-
JSON documents as ordered trees.

Objects keep their members in the order of the text, repeated keys included; a
reader that wants one value per key collapses them, first place and last value.
Integers are those of sixty-four bits, signed or unsigned, and every other
number is a finite binary64.
-/
import StagedResolver.Entries
import StagedResolver.Number.Binary64

namespace StagedResolver

inductive Json where
  | null
  | bool (flag : Bool)
  | integer (number : Int)
  | decimal (number : Binary64)
  | string (text : String)
  | array (items : List Json)
  | object (members : List (String × Json))
deriving Inhabited

namespace Json

def member? (key : String) : Json → Option Json
  | .object members => Entries.find? key members
  | _ => none

mutual

/-- The document in which every object has one member per key. -/
def collapse : Json → Json
  | .array items => .array (collapseItems items)
  | .object members => .object (Entries.collapse (collapseMembers members))
  | document => document

def collapseItems : List Json → List Json
  | [] => []
  | item :: rest => collapse item :: collapseItems rest

def collapseMembers : List (String × Json) → List (String × Json)
  | [] => []
  | (key, held) :: rest => (key, collapse held) :: collapseMembers rest

end

end Json

end StagedResolver
