/-
Values in a query.

A literal is a value without variables; the values given for variables are
literals, too.  An input value may hold variables, alone or at any depth.  The
names of enumerations are not strings, and integers are not decimals.
-/
import StagedResolver.Json.Basic

namespace StagedResolver

/-- A value without variables.  Objects hold one value per name. -/
inductive Literal where
  | null
  | boolean (flag : Bool)
  | integer (number : Int)
  | decimal (number : Binary64)
  | string (text : String)
  | enumeration (name : String)
  | list (items : List Literal)
  | object (members : List (String × Literal))
deriving Inhabited

namespace Literal

def word : Literal → String
  | .null => "Null"
  | .boolean _ => "Boolean"
  | .integer _ => "Integer"
  | .decimal _ => "Float"
  | .string _ => "String"
  | .enumeration _ => "Enum"
  | .list _ => "List"
  | .object _ => "Object"

mutual

def ofJson : Json → Literal
  | .null => .null
  | .bool flag => .boolean flag
  | .integer number => .integer number
  | .decimal number => .decimal number
  | .string text => .string text
  | .array items => .list (itemsOfJson items)
  | .object members => .object (Entries.collapse (membersOfJson members))

def itemsOfJson : List Json → List Literal
  | [] => []
  | item :: rest => ofJson item :: itemsOfJson rest

def membersOfJson : List (String × Json) → List (String × Literal)
  | [] => []
  | (name, held) :: rest => (name, ofJson held) :: membersOfJson rest

end

end Literal

inductive InputValue where
  | variable (name : String)
  | null
  | boolean (flag : Bool)
  | integer (number : Int)
  | decimal (number : Binary64)
  | string (text : String)
  | enumeration (name : String)
  | list (items : List InputValue)
  | object (members : List (String × InputValue))
deriving Inhabited

namespace InputValue

mutual

def ofLiteral : Literal → InputValue
  | .null => .null
  | .boolean flag => .boolean flag
  | .integer number => .integer number
  | .decimal number => .decimal number
  | .string text => .string text
  | .enumeration name => .enumeration name
  | .list items => .list (itemsOfLiterals items)
  | .object members => .object (membersOfLiterals members)

def itemsOfLiterals : List Literal → List InputValue
  | [] => []
  | item :: rest => ofLiteral item :: itemsOfLiterals rest

def membersOfLiterals : List (String × Literal) → List (String × InputValue)
  | [] => []
  | (name, held) :: rest => (name, ofLiteral held) :: membersOfLiterals rest

end

variable {ε : Type}

mutual

def substitute (meaning : String → Except ε Literal) :
    InputValue → Except ε Literal
  | .variable name => meaning name
  | .null => .ok .null
  | .boolean flag => .ok (.boolean flag)
  | .integer number => .ok (.integer number)
  | .decimal number => .ok (.decimal number)
  | .string text => .ok (.string text)
  | .enumeration name => .ok (.enumeration name)
  | .list items => do
      let results ← substituteItems meaning items
      return .list results
  | .object members => do
      let results ← substituteMembers meaning members
      return .object results

def substituteItems (meaning : String → Except ε Literal) :
    List InputValue → Except ε (List Literal)
  | [] => .ok []
  | item :: rest => do
      let first ← substitute meaning item
      let others ← substituteItems meaning rest
      return first :: others

def substituteMembers (meaning : String → Except ε Literal) :
    List (String × InputValue) → Except ε (List (String × Literal))
  | [] => .ok []
  | (name, held) :: rest => do
      let first ← substitute meaning held
      let others ← substituteMembers meaning rest
      return (name, first) :: others

end

def literal? (value : InputValue) : Option Literal :=
  (value.substitute fun _ => Except.error ()).toOption

mutual

/-- Whether two values are the same.  Decimals are compared as numbers, objects
without regard to the order of their members. -/
def agrees : InputValue → InputValue → Bool
  | .variable first, .variable second => first == second
  | .null, .null => true
  | .boolean first, .boolean second => first == second
  | .integer first, .integer second => first == second
  | .decimal first, .decimal second => first.numericallyEqual second
  | .string first, .string second => first == second
  | .enumeration first, .enumeration second => first == second
  | .list first, .list second => agreesItems first second
  | .object first, .object second =>
      first.length == second.length && agreesMembers first second
  | _, _ => false

def agreesItems : List InputValue → List InputValue → Bool
  | [], [] => true
  | first :: firsts, second :: seconds => agrees first second && agreesItems firsts seconds
  | _, _ => false

def agreesMembers : List (String × InputValue) → List (String × InputValue) → Bool
  | [], _ => true
  | (name, held) :: rest, members =>
      (match Entries.find? name members with
        | some other => agrees held other
        | none => false) && agreesMembers rest members

end

end InputValue

end StagedResolver
