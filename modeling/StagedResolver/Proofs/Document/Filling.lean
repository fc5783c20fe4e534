/-
Fields with literals in the place of variables.

A value is filled by putting a literal where each of its variables is, in lists and objects
too.  That is what substitution comes to when each variable has its literal, and nothing is
left in the value for another substitution to do.  An argument that is given nothing but
a variable without a literal is dropped.
-/
import StagedResolver.Document.Basic
import StagedResolver.Proofs.Success

namespace StagedResolver

namespace InputValue

mutual

def freeVariables : InputValue → List String
  | .variable name => [name]
  | .null | .boolean _ | .integer _ | .decimal _ | .string _ | .enumeration _ => []
  | .list items => freeVariablesOfItems items
  | .object members => freeVariablesOfMembers members

def freeVariablesOfItems : List InputValue → List String
  | [] => []
  | item :: rest => freeVariables item ++ freeVariablesOfItems rest

def freeVariablesOfMembers : List (String × InputValue) → List String
  | [] => []
  | (_, held) :: rest => freeVariables held ++ freeVariablesOfMembers rest

end

mutual

/-- The value with literals in the place of its variables. -/
def fill (meaning : String → Literal) : InputValue → InputValue
  | .variable name => ofLiteral (meaning name)
  | .null => .null
  | .boolean flag => .boolean flag
  | .integer number => .integer number
  | .decimal number => .decimal number
  | .string text => .string text
  | .enumeration name => .enumeration name
  | .list items => .list (fillItems meaning items)
  | .object members => .object (fillMembers meaning members)

def fillItems (meaning : String → Literal) : List InputValue → List InputValue
  | [] => []
  | item :: rest => fill meaning item :: fillItems meaning rest

def fillMembers (meaning : String → Literal) :
    List (String × InputValue) → List (String × InputValue)
  | [] => []
  | (name, held) :: rest => (name, fill meaning held) :: fillMembers meaning rest

end

variable {ε δ : Type}

mutual

theorem substitute_ofLiteral (meaning : String → Except ε Literal) :
    (literal : Literal) → (ofLiteral literal).substitute meaning = .ok literal
  | .null | .boolean _ | .integer _ | .decimal _ | .string _ | .enumeration _ => rfl
  | .list items => bind_eq_ok.mpr ⟨items, substituteItems_ofLiterals meaning items, rfl⟩
  | .object members =>
      bind_eq_ok.mpr ⟨members, substituteMembers_ofLiterals meaning members, rfl⟩

theorem substituteItems_ofLiterals (meaning : String → Except ε Literal) :
    (items : List Literal) → substituteItems meaning (itemsOfLiterals items) = .ok items
  | [] => rfl
  | item :: rest => bind_eq_ok.mpr ⟨item, substitute_ofLiteral meaning item,
      bind_eq_ok.mpr ⟨rest, substituteItems_ofLiterals meaning rest, rfl⟩⟩

theorem substituteMembers_ofLiterals (meaning : String → Except ε Literal) :
    (members : List (String × Literal)) →
      substituteMembers meaning (membersOfLiterals members) = .ok members
  | [] => rfl
  | (_, held) :: rest => bind_eq_ok.mpr ⟨held, substitute_ofLiteral meaning held,
      bind_eq_ok.mpr ⟨rest, substituteMembers_ofLiterals meaning rest, rfl⟩⟩

end

mutual

theorem freeVariables_ofLiteral : (literal : Literal) → (ofLiteral literal).freeVariables = []
  | .null | .boolean _ | .integer _ | .decimal _ | .string _ | .enumeration _ => rfl
  | .list items => freeVariablesOfItems_ofLiterals items
  | .object members => freeVariablesOfMembers_ofLiterals members

theorem freeVariablesOfItems_ofLiterals :
    (items : List Literal) → freeVariablesOfItems (itemsOfLiterals items) = []
  | [] => rfl
  | item :: rest => List.append_eq_nil_iff.mpr
      ⟨freeVariables_ofLiteral item, freeVariablesOfItems_ofLiterals rest⟩

theorem freeVariablesOfMembers_ofLiterals :
    (members : List (String × Literal)) → freeVariablesOfMembers (membersOfLiterals members) = []
  | [] => rfl
  | (_, held) :: rest => List.append_eq_nil_iff.mpr
      ⟨freeVariables_ofLiteral held, freeVariablesOfMembers_ofLiterals rest⟩

end

mutual

theorem freeVariables_fill (meaning : String → Literal) :
    (value : InputValue) → (value.fill meaning).freeVariables = []
  | .variable name => freeVariables_ofLiteral (meaning name)
  | .null | .boolean _ | .integer _ | .decimal _ | .string _ | .enumeration _ => rfl
  | .list items => freeVariablesOfItems_fillItems meaning items
  | .object members => freeVariablesOfMembers_fillMembers meaning members

theorem freeVariablesOfItems_fillItems (meaning : String → Literal) :
    (items : List InputValue) → freeVariablesOfItems (fillItems meaning items) = []
  | [] => rfl
  | item :: rest => List.append_eq_nil_iff.mpr
      ⟨freeVariables_fill meaning item, freeVariablesOfItems_fillItems meaning rest⟩

theorem freeVariablesOfMembers_fillMembers (meaning : String → Literal) :
    (members : List (String × InputValue)) →
      freeVariablesOfMembers (fillMembers meaning members) = []
  | [] => rfl
  | (_, held) :: rest => List.append_eq_nil_iff.mpr
      ⟨freeVariables_fill meaning held, freeVariablesOfMembers_fillMembers meaning rest⟩

end

mutual

theorem fill_of_closed (meaning : String → Literal) :
    (value : InputValue) → value.freeVariables = [] → value.fill meaning = value
  | .variable _, closed => absurd closed (List.cons_ne_nil _ _)
  | .null, _ | .boolean _, _ | .integer _, _ | .decimal _, _ | .string _, _ |
    .enumeration _, _ => rfl
  | .list items, closed => congrArg InputValue.list (fillItems_of_closed meaning items closed)
  | .object members, closed =>
      congrArg InputValue.object (fillMembers_of_closed meaning members closed)

theorem fillItems_of_closed (meaning : String → Literal) :
    (items : List InputValue) → freeVariablesOfItems items = [] →
      fillItems meaning items = items
  | [], _ => rfl
  | item :: rest, closed => by
      obtain ⟨itemClosed, restClosed⟩ := List.append_eq_nil_iff.mp closed
      rw [fillItems, fill_of_closed meaning item itemClosed,
        fillItems_of_closed meaning rest restClosed]

theorem fillMembers_of_closed (meaning : String → Literal) :
    (members : List (String × InputValue)) → freeVariablesOfMembers members = [] →
      fillMembers meaning members = members
  | [], _ => rfl
  | (name, held) :: rest, closed => by
      obtain ⟨heldClosed, restClosed⟩ := List.append_eq_nil_iff.mp closed
      rw [fillMembers, fill_of_closed meaning held heldClosed,
        fillMembers_of_closed meaning rest restClosed]

end

section

variable {meaning : String → Except ε Literal} {total : String → Literal}
  (other : String → Except ε Literal)

mutual

/-- Where each variable has its meaning, putting them in is the same as filling the value,
whatever variables mean afterwards. -/
theorem substitute_fill : (value : InputValue) →
    (∀ name ∈ value.freeVariables, meaning name = .ok (total name)) →
      value.substitute meaning = (value.fill total).substitute other
  | .variable name, each => by
      rw [fill, substitute_ofLiteral, substitute, each name (List.mem_singleton_self name)]
  | .null, _ | .boolean _, _ | .integer _, _ | .decimal _, _ | .string _, _ |
    .enumeration _, _ => rfl
  | .list items, each => by
      rw [fill, substitute, substitute, substituteItems_fillItems items each]
  | .object members, each => by
      rw [fill, substitute, substitute, substituteMembers_fillMembers members each]

theorem substituteItems_fillItems : (items : List InputValue) →
    (∀ name ∈ freeVariablesOfItems items, meaning name = .ok (total name)) →
      substituteItems meaning items = substituteItems other (fillItems total items)
  | [], _ => rfl
  | item :: rest, each => by
      obtain ⟨ofItem, ofRest⟩ := List.forall_mem_append.mp each
      rw [fillItems, substituteItems, substituteItems, substitute_fill item ofItem,
        substituteItems_fillItems rest ofRest]

theorem substituteMembers_fillMembers : (members : List (String × InputValue)) →
    (∀ name ∈ freeVariablesOfMembers members, meaning name = .ok (total name)) →
      substituteMembers meaning members = substituteMembers other (fillMembers total members)
  | [], _ => rfl
  | (_, held) :: rest, each => by
      obtain ⟨ofHeld, ofRest⟩ := List.forall_mem_append.mp each
      rw [fillMembers, substituteMembers, substituteMembers, substitute_fill held ofHeld,
        substituteMembers_fillMembers rest ofRest]

end

end

def isUnset (given? : String → Option Literal) : InputValue → Bool
  | .variable name => (given? name).isNone
  | _ => false

theorem isUnset_of_closed {value : InputValue} (closed : value.freeVariables = [])
    (given? : String → Option Literal) : value.isUnset given? = false := by
  unfold isUnset
  split
  · cases closed
  · rfl

end InputValue

/-! ### Fields without variables -/

def Located.fill (given? : String → Option Literal) (value : Located InputValue) :
    Located InputValue :=
  ⟨value.item.fill fun name => (given? name).getD .null, value.position⟩

/-- The argument with literals in the place of variables, if anything is given for it. -/
def Argument.fill? (given? : String → Option Literal) (argument : Argument) :
    Option Argument :=
  if argument.value.item.isUnset given? then none
  else some ⟨argument.name, argument.value.fill given?⟩

/-- The field with literals in the place of variables. -/
def FieldNode.fill (given? : String → Option Literal) (node : FieldNode) : FieldNode :=
  { node with arguments := node.arguments.filterMap (Argument.fill? given?) }

theorem argumentNamed?_cons (name : String) (argument : Argument) (rest : List Argument) :
    argumentNamed? name (argument :: rest) =
      if argument.name.item = name then some argument.value else argumentNamed? name rest := by
  unfold argumentNamed?
  by_cases same : argument.name.item = name
  · simp only [List.find?_cons, same, decide_true, Option.map_some, if_true]
  · simp only [List.find?_cons, same, decide_false, if_false]

theorem FieldNode.fill_of_given {given? : String → Option Literal} {variableName : String}
    {literal : Literal} (given : given? variableName = some literal) (node : FieldNode)
    (before after : List Argument) (name : Located String) (position : Position) :
    fill given? { node with
        arguments := before ++ ⟨name, ⟨.variable variableName, position⟩⟩ :: after } =
      fill given? { node with
        arguments := before ++ ⟨name, ⟨.ofLiteral literal, position⟩⟩ :: after } := by
  have closed := InputValue.freeVariables_ofLiteral literal
  have ofVariable : Argument.fill? given? ⟨name, ⟨.variable variableName, position⟩⟩ =
      some ⟨name, ⟨.ofLiteral literal, position⟩⟩ := by
    simp only [Argument.fill?, InputValue.isUnset, given, Option.isNone_some,
      Bool.false_eq_true, if_false, Located.fill, InputValue.fill, Option.getD_some]
  have ofLiteral : Argument.fill? given? ⟨name, ⟨.ofLiteral literal, position⟩⟩ =
      some ⟨name, ⟨.ofLiteral literal, position⟩⟩ := by
    simp only [Argument.fill?, InputValue.isUnset_of_closed closed, Bool.false_eq_true,
      if_false, Located.fill, InputValue.fill_of_closed _ _ closed]
  unfold fill
  simp only [List.filterMap_append, List.filterMap_cons, ofVariable, ofLiteral]

theorem mem_of_argumentNamed? {name : String} {arguments : List Argument}
    {value : Located InputValue} (isNamed : argumentNamed? name arguments = some value) :
    ∃ argument ∈ arguments, argument.name.item = name ∧ argument.value = value := by
  obtain ⟨argument, found, same⟩ := Option.map_eq_some_iff.mp isNamed
  have hasName := List.find?_some found
  exact ⟨argument, List.mem_of_find?_eq_some found, of_decide_eq_true hasName, same⟩

/-- Where no argument is given twice, what is left under a name is what was given under it,
unless that was a variable without a literal. -/
theorem argumentNamed?_filterMap (given? : String → Option Literal) (name : String)
    {arguments : List Argument}
    (distinct : (arguments.map fun argument => argument.name.item).Nodup) :
    argumentNamed? name (arguments.filterMap (Argument.fill? given?)) =
      ((argumentNamed? name arguments).filter fun value => !value.item.isUnset given?).map
        (Located.fill given?) := by
  induction arguments with
  | nil => rfl
  | cons argument rest ih =>
      obtain ⟨fresh, restDistinct⟩ := List.nodup_cons.mp distinct
      rw [List.filterMap_cons, Argument.fill?, argumentNamed?_cons]
      cases unset : argument.value.item.isUnset given? with
      | true =>
          rw [if_pos rfl, ih restDistinct]
          by_cases same : argument.name.item = name
          · -- A later argument would have the same name.
            have noOther : argumentNamed? name rest = none := by
              cases isNamed : argumentNamed? name rest with
              | none => rfl
              | some value =>
                  obtain ⟨other, member, otherName, _⟩ := mem_of_argumentNamed? isNamed
                  exact absurd (List.mem_map.mpr ⟨other, member, otherName.trans same.symm⟩) fresh
            rw [if_pos same, noOther, Option.filter_some, unset]
            rfl
          · rw [if_neg same]
      | false =>
          rw [if_neg Bool.false_ne_true, argumentNamed?_cons]
          by_cases same : argument.name.item = name
          · rw [if_pos same, if_pos same, Option.filter_some, unset]
            rfl
          · rw [if_neg same, if_neg same, ih restDistinct]

end StagedResolver
