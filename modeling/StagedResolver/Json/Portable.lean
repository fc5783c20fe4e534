/-
Conventions of the portable form, in which typed data is stored as JSON.

A choice among alternatives is the name of the alternative, alone when it holds
nothing and otherwise as the only key of an object.  A group of fields is an
object, in which unknown members are ignored, or an array of exactly the fields
in their order.
-/
import StagedResolver.Json.Basic

namespace StagedResolver.Json

/-- An alternative that holds nothing, `name` alone or with null. -/
def isUnit (name : String) : Json → Bool
  | .string text => text == name
  | .object [(key, .null)] => key == name
  | _ => false

def unit? {α : Type} (alternatives : List (String × α)) (document : Json) :
    Option α :=
  (alternatives.find? fun alternative => document.isUnit alternative.1).map Prod.snd

def tagged (name : String) (body : Json) : Json :=
  .object [(name, body)]

def fields? (names : List String) : Json → Option (List (Option Json))
  | .object members => some (names.map fun name => Entries.find? name members)
  | .array items =>
      if items.length = names.length then some (items.map some) else none
  | _ => none

def string? : Json → Option String
  | .string text => some text
  | _ => none

def bool? : Json → Option Bool
  | .bool flag => some flag
  | _ => none

def natBelow? (bound : Nat) : Json → Option Nat
  | .integer number =>
      if 0 ≤ number ∧ number < bound then some number.toNat else none
  | _ => none

end StagedResolver.Json
