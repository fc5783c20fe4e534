/-
Variables stand for what they are given.

The arguments of a field are the same when literals are written in the place of its
variables: the values that the request provides, or else their defaults.  A variable that
has neither stands for null inside a list or an object.  Where it is all that is given for
an argument, nothing is given for it; so the default of the argument applies, as it does
not for null.
-/
import StagedResolver.Proofs.Document.Filling
import StagedResolver.Proofs.Plan.Arguments

namespace StagedResolver

namespace VariableDefinition

/-- What a request gives for a variable of that name, or else the default of the variable. -/
def givenOf? (definitions : List VariableDefinition) (provided : Entries Json) (name : String) :
    Option Literal :=
  (definitions.find? fun definition => definition.name.item = name).bind
    fun definition => definition.given? provided

private theorem eq_given?_of_check {definition : VariableDefinition} {provided : Entries Json}
    {result : Option Literal} (checked : definition.check provided = .ok result) :
    result = definition.given? provided := by
  unfold check at checked
  split at checked
  · cases checked
  · split at checked
    · rename_i notGiven
      split at checked
      · cases checked
      · cases checked
        exact notGiven.symm
    · rename_i literal given
      split at checked
      · cases checked
        exact given.symm
      · cases checked

end VariableDefinition

namespace Assignment

variable {definitions : List VariableDefinition} {provided : Entries Json}
  {assignment : Assignment}

private theorem literalsOf_cons {definition : VariableDefinition} {result : Option Literal}
    (checked : definition.check provided = .ok result) :
    literalsOf (definition :: definitions) provided =
      (result.map fun literal => (definition.name.item, literal)).toList ++
        literalsOf definitions provided := by
  unfold literalsOf
  cases result with
  | none => simp only [List.filterMap_cons, checked, Option.map_none, Option.toList_none,
      List.nil_append]
  | some literal => simp only [List.filterMap_cons, checked, Option.map_some,
      Option.toList_some, List.singleton_append]

private theorem keys_literalsOf
    (each : ∀ definition ∈ definitions, ∃ result, definition.check provided = .ok result) :
    List.Sublist (literalsOf definitions provided).keys
      (definitions.map fun definition => definition.name.item) := by
  induction definitions with
  | nil => exact .slnil
  | cons definition rest ih =>
      obtain ⟨⟨result, checked⟩, restChecked⟩ := List.forall_mem_cons.mp each
      rw [literalsOf_cons checked]
      cases result with
      | none => exact .cons _ (ih restChecked)
      | some literal => exact .cons_cons _ (ih restChecked)

/-- Where no variable is defined twice, each has what it is given. -/
theorem find?_literalsOf
    (distinct : (definitions.map fun definition => definition.name.item).Nodup)
    (each : ∀ definition ∈ definitions, ∃ result, definition.check provided = .ok result)
    (name : String) :
    (literalsOf definitions provided).find? name =
      VariableDefinition.givenOf? definitions provided name := by
  unfold VariableDefinition.givenOf?
  induction definitions with
  | nil => rfl
  | cons definition rest ih =>
      obtain ⟨⟨result, checked⟩, restChecked⟩ := List.forall_mem_cons.mp each
      obtain ⟨fresh, restDistinct⟩ := List.nodup_cons.mp distinct
      rw [literalsOf_cons checked]
      rw [VariableDefinition.eq_given?_of_check checked]
      by_cases same : definition.name.item = name
      · subst same
        simp only [List.find?_cons, decide_true, Option.bind_some]
        cases definition.given? provided with
        | none =>
            apply Entries.find?_eq_none_iff.mpr
            exact fun later => fresh ((keys_literalsOf restChecked).mem later)
        | some literal => exact if_pos rfl
      · simp only [List.find?_cons, same, decide_false]
        rw [← ih restDistinct restChecked]
        cases definition.given? provided with
        | none => rfl
        | some literal => exact if_neg same

/-- What an accepted request assigns to variables is what they are given. -/
theorem find?_literals
    (distinct : (definitions.map fun definition => definition.name.item).Nodup)
    (accepted : ofRequest definitions provided = .ok assignment) (name : String) :
    assignment.literals.find? name =
      VariableDefinition.givenOf? definitions provided name := by
  unfold ofRequest at accepted
  split at accepted
  · rename_i noFaults
    cases accepted
    have each : ∀ definition ∈ definitions,
        ∃ result, definition.check provided = .ok result := by
      intro definition member
      have noFault := List.filterMap_eq_nil_iff.mp noFaults definition member
      cases checked : definition.check provided with
      | ok result => exact ⟨result, rfl⟩
      | error fault =>
          rw [checked] at noFault
          cases noFault
    have literalsDistinct : (literalsOf definitions provided).DistinctKeys :=
      (keys_literalsOf each).nodup distinct
    rw [literalsDistinct.collapse_eq]
    exact find?_literalsOf distinct each name
  · cases accepted

theorem defines_iff (accepted : ofRequest definitions provided = .ok assignment)
    {name : String} :
    assignment.defines name = true ↔
      ∃ definition ∈ definitions, definition.name.item = name := by
  unfold ofRequest at accepted
  split at accepted
  · cases accepted
    rw [defines, List.contains_iff_mem, List.mem_map]
  · cases accepted

/-- Whether an assignment defines the variables of a list, and has for each of them what is
given. -/
def Gives (assignment : Assignment) (given? : String → Option Literal)
    (names : List String) : Prop :=
  ∀ name ∈ names,
    assignment.defines name = true ∧ assignment.literals.find? name = given? name

section

variable {given? : String → Option Literal} {value : Located InputValue}

private theorem meaning?_of_gives {names : List String} (gives : assignment.Gives given? names)
    {name : String} (member : name ∈ names) :
    assignment.meaning? name = some ((given? name).getD .null) := by
  obtain ⟨isDefined, literalIs⟩ := gives name member
  unfold meaning?
  rw [literalIs, isDefined]
  cases given? name with
  | none => rfl
  | some literal => rfl

/-- A value comes to the same when it is filled with what its variables are given. -/
theorem resolve_fill (gives : assignment.Gives given? value.item.freeVariables)
    (other : Assignment) : assignment.resolve value = other.resolve (value.fill given?) := by
  apply InputValue.substitute_fill
  intro name member
  rw [meaning?_of_gives gives member]

private theorem isUnset_eq {name : String} (gives : assignment.Gives given? [name]) :
    assignment.isUnset name = (given? name).isNone := by
  obtain ⟨isDefined, literalIs⟩ := gives name (List.mem_singleton_self name)
  rw [isUnset, isDefined, Entries.has, literalIs, Bool.true_and]
  exact Option.not_isSome (given? name)

private theorem given?_of_named {name : String} {arguments : List Argument}
    (isNamed : argumentNamed? name arguments = some value)
    (gives : assignment.Gives given? value.item.freeVariables) :
    assignment.given? name arguments =
      if value.item.isUnset given? then none else some value := by
  unfold Assignment.given?
  rw [isNamed, Option.filter_some]
  obtain ⟨item, position⟩ := value
  match item, gives with
  | .variable variableName, gives =>
      show (if (!assignment.isUnset variableName) = true then _ else _) =
        if (given? variableName).isNone = true then _ else _
      rw [isUnset_eq gives]
      cases given? variableName with
      | none => rfl
      | some literal => rfl
  | .null, _ | .boolean _, _ | .integer _, _ | .decimal _, _ | .string _, _ |
    .enumeration _, _ | .list _, _ | .object _, _ => rfl

end

/-! ### Arguments of a field -/

section

variable {given? : String → Option Literal} {field : ObjectField} {node : FieldNode}
  {name : String} {argument : FieldArgument} {value : Located InputValue} {record : Record}

/-- Whether an assignment gives the variables of a field what they are given. -/
def GivesAll (assignment : Assignment) (given? : String → Option Literal)
    (node : FieldNode) : Prop :=
  ∀ argument ∈ node.arguments, assignment.Gives given? argument.value.item.freeVariables

private theorem given?_fill (gives : assignment.GivesAll given? node)
    (distinct : (node.arguments.map fun argument => argument.name.item).Nodup)
    (other : Assignment) (name : String) :
    other.given? name (node.fill given?).arguments =
      (assignment.given? name node.arguments).map (Located.fill given?) := by
  have left : argumentNamed? name (node.fill given?).arguments =
      ((argumentNamed? name node.arguments).filter fun value =>
        !value.item.isUnset given?).map (Located.fill given?) :=
    argumentNamed?_filterMap given? name distinct
  cases isNamed : argumentNamed? name node.arguments with
  | none =>
      rw [isNamed] at left
      rw [Assignment.given?, Assignment.given?, left, isNamed]
      rfl
  | some value =>
      obtain ⟨argument, member, _, same⟩ := mem_of_argumentNamed? isNamed
      have ofValue := gives argument member
      rw [same] at ofValue
      rw [isNamed, Option.filter_some] at left
      rw [given?_of_named isNamed ofValue]
      cases unset : value.item.isUnset given? with
      | true =>
          rw [unset] at left
          rw [Assignment.given?, left]
          rfl
      | false =>
          rw [unset] at left
          have closed : (value.fill given?).item.freeVariables = [] :=
            InputValue.freeVariables_fill _ value.item
          have ofFilled : other.Gives given? (value.fill given?).item.freeVariables := by
            rw [closed]
            exact List.forall_mem_nil _
          rw [given?_of_named left ofFilled, InputValue.isUnset_of_closed closed]
          rfl

private theorem argumentValue?_fill (gives : assignment.GivesAll given? node)
    (distinct : (node.arguments.map fun argument => argument.name.item).Nodup)
    (other : Assignment) (name : String) (argument : FieldArgument) :
    assignment.argumentValue? field node name argument =
      other.argumentValue? field (node.fill given?) name argument := by
  unfold argumentValue?
  rw [given?_fill gives distinct other name]
  cases given : assignment.given? name node.arguments with
  | none => rfl
  | some value =>
      obtain ⟨isNamed, _⟩ := Option.filter_eq_some_iff.mp given
      obtain ⟨written, member, _, same⟩ := mem_of_argumentNamed? isNamed
      have ofValue := gives written member
      rw [same] at ofValue
      simp only [Option.map_some]
      rw [resolve_fill ofValue other]
      rfl

private theorem argumentValues_fill (gives : assignment.GivesAll given? node)
    (distinct : (node.arguments.map fun argument => argument.name.item).Nodup)
    (other : Assignment) (declared : Entries FieldArgument) :
    assignment.argumentValues field node declared =
      other.argumentValues field (node.fill given?) declared := by
  induction declared with
  | nil => rfl
  | cons entry rest ih =>
      obtain ⟨name, argument⟩ := entry
      rw [argumentValues, argumentValues, ih, argumentValue?_fill gives distinct other]

private theorem argumentRecord_of_declared
    (declared : ∀ argument ∈ node.arguments, field.arguments.has argument.name.item = true) :
    assignment.argumentRecord field node =
      assignment.argumentValues field node field.arguments.entries := by
  have noStray : (node.arguments.find? fun given => !field.arguments.has given.name.item) =
      none := by
    apply List.find?_eq_none.mpr
    intro argument member
    rw [declared argument member]
    exact Bool.false_ne_true
  rw [argumentRecord, noStray]

private theorem declared_fill
    (declared : ∀ argument ∈ node.arguments, field.arguments.has argument.name.item = true) :
    ∀ argument ∈ (node.fill given?).arguments,
      field.arguments.has argument.name.item = true := by
  intro argument member
  obtain ⟨written, writtenMember, filled⟩ := List.mem_filterMap.mp member
  unfold Argument.fill? at filled
  split at filled
  · cases filled
  · cases filled
    exact declared written writtenMember

/-- The arguments of a field are those of the field with literals in the place of variables,
whatever variables mean there. -/
theorem argumentRecord_fill (gives : assignment.GivesAll given? node)
    (distinct : (node.arguments.map fun argument => argument.name.item).Nodup)
    (declared : ∀ argument ∈ node.arguments, field.arguments.has argument.name.item = true)
    (other : Assignment) :
    assignment.argumentRecord field node = other.argumentRecord field (node.fill given?) := by
  rw [argumentRecord_of_declared declared, argumentRecord_of_declared (declared_fill declared)]
  exact argumentValues_fill gives distinct other _

/-- A record of arguments has for each that is declared what that comes to. -/
theorem find?_argumentValues {declared : Entries FieldArgument}
    (distinct : declared.DistinctKeys)
    (bound : assignment.argumentValues field node declared = .ok record)
    (member : (name, argument) ∈ declared) :
    assignment.argumentValue? field node name argument = .ok (record.find? name) := by
  induction declared generalizing record with
  | nil => cases member
  | cons entry rest ih =>
      obtain ⟨first, firstArgument⟩ := entry
      obtain ⟨fresh, restDistinct⟩ := List.nodup_cons.mp distinct
      obtain ⟨found, foundIs, bound⟩ := bind_eq_ok.mp bound
      obtain ⟨others, othersAre, same⟩ := bind_eq_ok.mp bound
      cases same
      rcases List.mem_cons.mp member with here | later
      · cases here
        rw [foundIs]
        cases found with
        | none =>
            have notFound : others.find? name = none := by
              apply Entries.find?_eq_none_iff.mpr
              intro known
              obtain ⟨⟨_, value⟩, isEntry, rfl⟩ := List.mem_map.mp known
              obtain ⟨argument, isDeclared, _⟩ := (mem_argumentValues othersAre).mp isEntry
              exact fresh (List.mem_map.mpr ⟨_, isDeclared, rfl⟩)
            exact congrArg Except.ok notFound.symm
        | some value => exact congrArg Except.ok (if_pos rfl).symm
      · have different : first ≠ name := by
          rintro rfl
          exact fresh (List.mem_map.mpr ⟨_, later, rfl⟩)
        rw [ih restDistinct othersAre later]
        cases found with
        | none => rfl
        | some value => exact congrArg Except.ok (if_neg different).symm

private theorem find?_of_unset (ofValue : assignment.Gives given? value.item.freeVariables)
    (isNamed : argumentNamed? name node.arguments = some value)
    (unset : value.item.isUnset given? = true)
    (bound : assignment.argumentValues field node field.arguments.entries = .ok record)
    (member : (name, argument) ∈ field.arguments.entries) :
    record.find? name = argument.fallback := by
  have comesTo := find?_argumentValues field.arguments.distinct bound member
  have notGiven := given?_of_named isNamed ofValue
  rw [unset, if_pos rfl] at notGiven
  rw [argumentValue?, notGiven] at comesTo
  cases fallback : argument.fallback with
  | some value =>
      simp only [fallback] at comesTo
      exact (Except.ok.inj comesTo).symm
  | none =>
      simp only [fallback] at comesTo
      split at comesTo
      · cases comesTo
      · exact (Except.ok.inj comesTo).symm

private theorem find?_of_null (ofValue : assignment.Gives given? value.item.freeVariables)
    (isNamed : argumentNamed? name node.arguments = some value)
    (isSet : value.item.isUnset given? = false) (isNull : (value.fill given?).item = .null)
    (bound : assignment.argumentValues field node field.arguments.entries = .ok record)
    (member : (name, argument) ∈ field.arguments.entries) :
    argument.type.required = false ∧ record.find? name = some .null := by
  have comesTo := find?_argumentValues field.arguments.distinct bound member
  have given := given?_of_named isNamed ofValue
  rw [isSet, if_neg Bool.false_ne_true] at given
  have resolved : assignment.resolve value = .ok .null := by
    rw [resolve_fill ofValue assignment, resolve, isNull]
    rfl
  rw [argumentValue?, given] at comesTo
  obtain ⟨literal, literalIs, comesTo⟩ := bind_eq_ok.mp comesTo
  rw [resolved] at literalIs
  cases literalIs
  rw [TypeReference.coerce_null, TypeReference.coerceNull] at comesTo
  cases required : argument.type.required with
  | true =>
      rw [required, if_pos rfl] at comesTo
      cases comesTo
  | false =>
      rw [required, if_neg Bool.false_ne_true] at comesTo
      exact ⟨rfl, (Except.ok.inj comesTo).symm⟩

private theorem argumentRecord_of_given {variableName : String} {literal : Literal}
    (gives : assignment.GivesAll given? node)
    (distinct : (node.arguments.map fun argument => argument.name.item).Nodup)
    (declared : ∀ argument ∈ node.arguments, field.arguments.has argument.name.item = true)
    (given : given? variableName = some literal) {before after : List Argument}
    {written : Located String} {position : Position} (hasVariable : node.arguments =
      before ++ ⟨written, ⟨.variable variableName, position⟩⟩ :: after) :
    assignment.argumentRecord field node = assignment.argumentRecord field { node with
      arguments := before ++ ⟨written, ⟨.ofLiteral literal, position⟩⟩ :: after } := by
  have sameFilled := FieldNode.fill_of_given given node before after written position
  rw [← hasVariable] at sameFilled
  rw [argumentRecord_fill gives distinct declared assignment, sameFilled]
  unfold GivesAll at gives
  rw [hasVariable] at gives distinct declared
  obtain ⟨beforeGives, othersGive⟩ := List.forall_mem_append.mp gives
  obtain ⟨beforeDeclared, othersDeclared⟩ := List.forall_mem_append.mp declared
  let literally : Argument := ⟨written, ⟨.ofLiteral literal, position⟩⟩
  have literalGives : ∀ argument ∈ before ++ literally :: after,
      assignment.Gives given? argument.value.item.freeVariables := by
    refine List.forall_mem_append.mpr ⟨beforeGives, List.forall_mem_cons.mpr
      ⟨?_, (List.forall_mem_cons.mp othersGive).2⟩⟩
    rw [InputValue.freeVariables_ofLiteral]
    exact List.forall_mem_nil _
  have literalDistinct : ((before ++ literally :: after).map fun argument =>
      argument.name.item).Nodup := by
    rw [List.map_append, List.map_cons] at distinct ⊢
    exact distinct
  have literalDeclared : ∀ argument ∈ before ++ literally :: after,
      field.arguments.has argument.name.item = true :=
    List.forall_mem_append.mpr
      ⟨beforeDeclared, List.forall_mem_cons.mpr (List.forall_mem_cons.mp othersDeclared)⟩
  have ofReplaced : assignment.GivesAll given?
      { node with arguments := before ++ literally :: after } := literalGives
  exact (argumentRecord_fill ofReplaced literalDistinct literalDeclared assignment).symm

/-- The variables of a field that are defined have what an accepted request gives them. -/
theorem givesAll_of_ofRequest
    (distinct : (definitions.map fun definition => definition.name.item).Nodup)
    (accepted : ofRequest definitions provided = .ok assignment)
    (defined : ∀ argument ∈ node.arguments, ∀ name ∈ argument.value.item.freeVariables,
      ∃ definition ∈ definitions, definition.name.item = name) :
    assignment.GivesAll (VariableDefinition.givenOf? definitions provided) node := by
  intro argument member name isFree
  have isDefined := defined argument member name isFree
  exact ⟨(defines_iff accepted).mpr isDefined, find?_literals distinct accepted name⟩

/-- Variables are transparent: the arguments of a field are those of the field with literals
in the place of its variables.  So a variable and a literal that it has are the same; one
without a literal leaves an argument its default, and one whose literal is null does not. -/
theorem argumentRecord_transparent
    (distinct : (definitions.map fun definition => definition.name.item).Nodup)
    (accepted : ofRequest definitions provided = .ok assignment)
    (onceGiven : (node.arguments.map fun argument => argument.name.item).Nodup)
    (declared : ∀ argument ∈ node.arguments, field.arguments.has argument.name.item = true)
    (defined : ∀ argument ∈ node.arguments, ∀ name ∈ argument.value.item.freeVariables,
      ∃ definition ∈ definitions, definition.name.item = name) :
    (∀ argument ∈ (node.fill (VariableDefinition.givenOf? definitions provided)).arguments,
        argument.value.item.freeVariables = []) ∧
      (∀ other : Assignment, assignment.argumentRecord field node =
        other.argumentRecord field
          (node.fill (VariableDefinition.givenOf? definitions provided))) ∧
      (∀ before after written variableName position literal,
        node.arguments = before ++ ⟨written, ⟨.variable variableName, position⟩⟩ :: after →
          VariableDefinition.givenOf? definitions provided variableName = some literal →
            assignment.argumentRecord field node = assignment.argumentRecord field { node with
              arguments := before ++ ⟨written, ⟨.ofLiteral literal, position⟩⟩ :: after }) ∧
      ∀ name argument value record, (name, argument) ∈ field.arguments.entries →
        argumentNamed? name node.arguments = some value →
          assignment.argumentRecord field node = .ok record →
            (value.item.isUnset (VariableDefinition.givenOf? definitions provided) = true →
              record.find? name = argument.fallback) ∧
            (value.item.isUnset (VariableDefinition.givenOf? definitions provided) = false →
              (value.fill (VariableDefinition.givenOf? definitions provided)).item = .null →
                argument.type.required = false ∧ record.find? name = some .null) := by
  have gives := givesAll_of_ofRequest distinct accepted defined
  refine ⟨?_, argumentRecord_fill gives onceGiven declared, ?_, ?_⟩
  · intro argument member
    obtain ⟨written, _, filled⟩ := List.mem_filterMap.mp member
    unfold Argument.fill? at filled
    split at filled
    · cases filled
    · cases filled
      exact InputValue.freeVariables_fill _ written.value.item
  · intro before after written variableName position literal hasVariable given
    exact argumentRecord_of_given gives onceGiven declared given hasVariable
  · intro name argument value record member isNamed bound
    rw [argumentRecord_of_declared declared] at bound
    obtain ⟨written, writtenMember, _, same⟩ := mem_of_argumentNamed? isNamed
    have ofValue := gives written writtenMember
    rw [same] at ofValue
    constructor
    · intro unset
      exact find?_of_unset ofValue isNamed unset bound member
    · intro isSet isNull
      exact find?_of_null ofValue isNamed isSet isNull bound member

end

end Assignment

/-! ### A variable that is not set -/

def VariableDefinition.ofDefaults : List VariableDefinition :=
  [⟨⟨"v", ⟨1, 8⟩⟩, .named "Float" false, some (.integer 1)⟩,
    ⟨⟨"n", ⟨1, 22⟩⟩, .named "Int" false, none⟩]

def FieldNode.ofVariables : FieldNode :=
  ⟨none, ⟨"f", ⟨1, 34⟩⟩,
    [⟨⟨"a", ⟨1, 36⟩⟩, ⟨.list [.variable "v", .variable "n"], ⟨1, 39⟩⟩⟩,
      ⟨⟨"b", ⟨1, 49⟩⟩, ⟨.variable "n", ⟨1, 52⟩⟩⟩], []⟩

def FieldNode.ofLiterals : FieldNode :=
  ⟨none, ⟨"f", ⟨1, 34⟩⟩,
    [⟨⟨"a", ⟨1, 36⟩⟩, ⟨.list [.integer 1, .null], ⟨1, 39⟩⟩⟩], []⟩

def Assignment.ofVariables : Assignment := ⟨["v", "n"], [("v", .integer 1)]⟩

namespace Assignment

theorem argumentRecord_transparent_ofVariables :
    ofRequest VariableDefinition.ofDefaults [] = .ok .ofVariables ∧
      FieldNode.ofVariables.fill (VariableDefinition.givenOf? VariableDefinition.ofDefaults []) =
        .ofLiterals ∧
      Assignment.ofVariables.argumentRecord .ofDefaults .ofVariables =
        Assignment.argumentRecord ⟨[], []⟩ .ofDefaults .ofLiterals ∧
      Record.ofDefaults.find? "b" = some (.string "x") := by
  have accepted : ofRequest VariableDefinition.ofDefaults [] = .ok .ofVariables := rfl
  have bound : Assignment.ofVariables.argumentRecord .ofDefaults .ofVariables =
      .ok .ofDefaults := rfl
  have distinct : (VariableDefinition.ofDefaults.map fun definition =>
      definition.name.item).Nodup := by decide
  have onceGiven : (FieldNode.ofVariables.arguments.map fun argument =>
      argument.name.item).Nodup := by decide
  have declared : ∀ argument ∈ FieldNode.ofVariables.arguments,
      ObjectField.ofDefaults.arguments.has argument.name.item = true := by decide
  have defined : ∀ argument ∈ FieldNode.ofVariables.arguments,
      ∀ name ∈ argument.value.item.freeVariables,
        ∃ definition ∈ VariableDefinition.ofDefaults, definition.name.item = name := by decide
  obtain ⟨_, transparent, _, values⟩ :=
    argumentRecord_transparent distinct accepted onceGiven declared defined
  refine ⟨accepted, rfl, transparent ⟨[], []⟩, ?_⟩
  exact (values "b" _ _ _ (List.mem_cons_of_mem _ (List.mem_cons_self ..)) rfl bound).1 rfl

end Assignment

end StagedResolver
