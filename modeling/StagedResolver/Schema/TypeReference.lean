/-
References to types, as declarations write them: `Int`, `[Bar]`, `[Bar!]!`.
-/
import StagedResolver.Json.Portable
import StagedResolver.Text.Basic

namespace StagedResolver

/-- A reference to a type; what is required is never null. -/
inductive TypeReference where
  | named (name : String) (required : Bool)
  | list (item : TypeReference) (required : Bool)
deriving DecidableEq, Inhabited

namespace TypeReference

def required : TypeReference → Bool
  | .named _ required => required
  | .list _ required => required

def isList : TypeReference → Bool
  | .named _ _ => false
  | .list _ _ => true

def asRequired : TypeReference → TypeReference
  | .named name _ => .named name true
  | .list item _ => .list item true

def innermost : TypeReference → String
  | .named name _ => name
  | .list item _ => innermost item

def display : TypeReference → String
  | .named name required => name ++ (if required then "!" else "")
  | .list item required => "[" ++ display item ++ "]" ++ (if required then "!" else "")

def splitMark (characters : List Char) : Bool × List Char :=
  if characters.getLast? = some '!' then (true, characters.dropLast)
  else (false, characters)

private theorem length_splitMark_le (characters : List Char) :
    (splitMark characters).2.length ≤ characters.length := by
  unfold splitMark
  split
  · simp only [List.length_dropLast]
    omega
  · exact Nat.le_refl _

/-- Reads a reference.  What starts with a bracket has to end with one, and
anything else is a name. -/
def read? (characters : List Char) : Option TypeReference :=
  match _rest : (splitMark characters).2 with
  | '[' :: inside =>
      if inside.getLast? = some ']' then
        (read? inside.dropLast).map fun item => .list item (splitMark characters).1
      else none
  | name => some (.named (String.ofList name) (splitMark characters).1)
termination_by characters.length
decreasing_by
  have bound := length_splitMark_le characters
  rw [_rest] at bound
  simp only [List.length_cons, List.length_dropLast] at bound ⊢
  omega

def parse? (text : String) : Option TypeReference :=
  read? (Text.trim text.toList)

def toPortable : TypeReference → Json
  | .named name required =>
      .object [("base", .tagged "Named" (.string name)), ("required", .bool required)]
  | .list item required =>
      .object [("base", .tagged "List" (toPortable item)), ("required", .bool required)]

def ofParts? (base : Option (Option (Bool → TypeReference))) (required : Option Json) :
    Option TypeReference := do
  let build ← base.join
  let required ← required
  let flag ← required.bool?
  return build flag

mutual

def ofPortable? : Json → Option TypeReference
  | .object members =>
      ofParts? (Entries.find? "base" (basesOfMembers members))
        (Entries.find? "required" members)
  | .array [base, required] => ofParts? (some (baseOfPortable? base)) (some required)
  | _ => none

def baseOfPortable? : Json → Option (Bool → TypeReference)
  | .object [(tag, body)] =>
      if tag = "Named" then body.string?.map .named
      else if tag = "List" then (ofPortable? body).map .list
      else none
  | _ => none

def basesOfMembers :
    List (String × Json) → List (String × Option (Bool → TypeReference))
  | [] => []
  | (key, held) :: rest => (key, baseOfPortable? held) :: basesOfMembers rest

end

end TypeReference

end StagedResolver
