/-
Variables are checked one by one, and all that fail are reported.

Whether a definition passes depends on what is given for its own variable alone.  A request is
accepted when all definitions pass; otherwise there is one fault for each definition that fails,
in the order of the definitions.  What is given for other variables does not matter to any of it.
-/
import StagedResolver.Proofs.Plan.Coercion
import StagedResolver.Proofs.Plan.Variables

namespace StagedResolver

namespace VariableDefinition

variable {definition : VariableDefinition} {provided others : Entries Json}

/-- Whether a definition passes: its type is of scalars, and has a value for what is provided
or else for the default, or does not need one where there is neither. -/
structure Passes (definition : VariableDefinition) (provided : Entries Json) : Prop where
  scalar : ∃ leaf, Scalar.ofName? definition.type.innermost = some leaf
  ofProvided : ∀ document, provided.find? definition.name.item = some document →
    ∃ value, definition.type.Makes (.ofJson document) value
  ofDefault : ∀ literal, provided.find? definition.name.item = none →
    definition.fallback = some literal → ∃ value, definition.type.Makes literal value
  ofNothing : provided.find? definition.name.item = none → definition.fallback = none →
    definition.type.required = false

/-- Whether a definition fails, and with which fault. -/
inductive Fails (definition : VariableDefinition) (provided : Entries Json) :
    VariableFault → Prop where
  | notScalar (noScalar : Scalar.ofName? definition.type.innermost = none) :
      Fails definition provided
        (.notScalar definition.name.item definition.type definition.name.position)
  | missing {leaf : Scalar} (scalar : Scalar.ofName? definition.type.innermost = some leaf)
      (notGiven : definition.given? provided = none)
      (required : definition.type.required = true) :
      Fails definition provided (.missing definition.name.item definition.name.position)
  | invalid {leaf : Scalar} {literal : Literal} {error : InputError}
      (scalar : Scalar.ofName? definition.type.innermost = some leaf)
      (given : definition.given? provided = some literal)
      (blamed : definition.type.Blames literal error) :
      Fails definition provided
        (.invalid definition.name.item error definition.name.position)

private theorem given?_of_provided {document : Json}
    (isProvided : provided.find? definition.name.item = some document) :
    definition.given? provided = some (.ofJson document) := by
  rw [given?, isProvided]

private theorem given?_of_notProvided (notProvided : provided.find? definition.name.item = none) :
    definition.given? provided = definition.fallback := by
  rw [given?, notProvided]

private theorem given?_congr
    (same : others.find? definition.name.item = provided.find? definition.name.item) :
    definition.given? others = definition.given? provided := by
  rw [given?, given?, same]

private theorem passes_iff :
    definition.Passes provided ↔
      (∃ leaf, Scalar.ofName? definition.type.innermost = some leaf) ∧
        match definition.given? provided with
        | some literal => ∃ value, definition.type.Makes literal value
        | none => definition.type.required = false := by
  constructor
  · intro passes
    refine ⟨passes.scalar, ?_⟩
    cases isProvided : provided.find? definition.name.item with
    | some document =>
        rw [given?_of_provided isProvided]
        exact passes.ofProvided document isProvided
    | none =>
        rw [given?_of_notProvided isProvided]
        cases isDefault : definition.fallback with
        | some literal => exact passes.ofDefault literal isProvided isDefault
        | none => exact passes.ofNothing isProvided isDefault
  · rintro ⟨scalar, has⟩
    refine ⟨scalar, ?_, ?_, ?_⟩
    · intro document isProvided
      rw [given?_of_provided isProvided] at has
      exact has
    · intro literal notProvided isDefault
      rw [given?_of_notProvided notProvided, isDefault] at has
      exact has
    · intro notProvided noDefault
      rw [given?_of_notProvided notProvided, noDefault] at has
      exact has

private theorem check_of_notScalar (noScalar : Scalar.ofName? definition.type.innermost = none) :
    definition.check provided =
      .error (.notScalar definition.name.item definition.type definition.name.position) := by
  rw [check, noScalar]
  rfl

private theorem check_of_notGiven {leaf : Scalar}
    (scalar : Scalar.ofName? definition.type.innermost = some leaf)
    (notGiven : definition.given? provided = none) :
    definition.check provided =
      if definition.type.required then
        .error (.missing definition.name.item definition.name.position)
      else .ok none := by
  rw [check, scalar, notGiven]
  rfl

private theorem check_of_given {leaf : Scalar} {literal : Literal}
    (scalar : Scalar.ofName? definition.type.innermost = some leaf)
    (given : definition.given? provided = some literal) :
    definition.check provided =
      match definition.type.coerce literal with
      | .ok _ => .ok (some literal)
      | .error error =>
          .error (.invalid definition.name.item error definition.name.position) := by
  rw [check, scalar, given]
  rfl

/-- What is wrong with a definition is what checking it finds. -/
theorem check_eq_error {fault : VariableFault} :
    definition.check provided = .error fault ↔ definition.Fails provided fault := by
  constructor
  · intro fails
    cases scalar : Scalar.ofName? definition.type.innermost with
    | none =>
        rw [check_of_notScalar scalar] at fails
        cases fails
        exact .notScalar scalar
    | some leaf =>
        cases given : definition.given? provided with
        | none =>
            rw [check_of_notGiven scalar given] at fails
            split at fails
            · rename_i required
              cases fails
              exact .missing scalar given required
            · cases fails
        | some literal =>
            rw [check_of_given scalar given] at fails
            split at fails
            · cases fails
            · rename_i error refused
              cases fails
              exact .invalid scalar given (TypeReference.coerce_eq_error.mp refused)
  · intro fails
    cases fails with
    | notScalar noScalar => exact check_of_notScalar noScalar
    | missing scalar notGiven required =>
        rw [check_of_notGiven scalar notGiven, if_pos required]
    | invalid scalar given blamed =>
        rw [check_of_given scalar given, TypeReference.coerce_eq_error.mpr blamed]

/-- A definition passes when checking it finds nothing wrong. -/
theorem exists_check_eq_ok :
    (∃ result, definition.check provided = .ok result) ↔ definition.Passes provided := by
  rw [passes_iff]
  cases scalar : Scalar.ofName? definition.type.innermost with
  | none =>
      rw [check_of_notScalar scalar]
      exact iff_of_false nofun nofun
  | some leaf =>
      have isScalar : ∃ other, some leaf = some other := ⟨leaf, rfl⟩
      cases given : definition.given? provided with
      | none =>
          rw [check_of_notGiven scalar given]
          cases definition.type.required with
          | true => exact iff_of_false nofun nofun
          | false => exact iff_of_true ⟨none, rfl⟩ ⟨isScalar, rfl⟩
      | some literal =>
          rw [check_of_given scalar given]
          cases coerced : definition.type.coerce literal with
          | ok value =>
              exact iff_of_true ⟨_, rfl⟩ ⟨isScalar, value, TypeReference.coerce_eq_ok.mp coerced⟩
          | error error =>
              refine iff_of_false nofun ?_
              rintro ⟨_, value, made⟩
              rw [TypeReference.coerce_eq_ok.mpr made] at coerced
              cases coerced

private theorem check_congr
    (same : others.find? definition.name.item = provided.find? definition.name.item) :
    definition.check others = definition.check provided := by
  rw [check, check, given?_congr same]

private theorem givenOf?_of_mem {definitions : List VariableDefinition}
    (distinct : (definitions.map fun definition => definition.name.item).Nodup)
    (member : definition ∈ definitions) :
    givenOf? definitions provided definition.name.item = definition.given? provided := by
  unfold givenOf?
  induction definitions with
  | nil => cases member
  | cons first rest ih =>
      obtain ⟨fresh, restDistinct⟩ := List.nodup_cons.mp distinct
      rcases List.mem_cons.mp member with rfl | later
      · simp only [List.find?_cons, decide_true, Option.bind_some]
      · have different : first.name.item ≠ definition.name.item := fun same =>
          fresh (List.mem_map.mpr ⟨definition, later, same.symm⟩)
        simp only [List.find?_cons, different, decide_false]
        exact ih restDistinct later

end VariableDefinition

/-! ### All definitions -/

namespace Assignment

variable {definitions : List VariableDefinition} {provided others : Entries Json}
  {assignment : Assignment}

/-- Whether faults are those of some definitions: one for each that fails, in their order. -/
inductive Reports (provided : Entries Json) :
    List VariableDefinition → List VariableFault → Prop where
  | nil : Reports provided [] []
  | pass {definition : VariableDefinition} {rest : List VariableDefinition}
      {faults : List VariableFault} (passes : definition.Passes provided)
      (reports : Reports provided rest faults) : Reports provided (definition :: rest) faults
  | fail {definition : VariableDefinition} {rest : List VariableDefinition}
      {fault : VariableFault} {faults : List VariableFault}
      (fails : definition.Fails provided fault) (reports : Reports provided rest faults) :
      Reports provided (definition :: rest) (fault :: faults)

private theorem faults_cons (definition : VariableDefinition)
    (definitions : List VariableDefinition)
    (provided : Entries Json) :
    faults (definition :: definitions) provided =
      (faultOf? (definition.check provided)).toList ++ faults definitions provided := by
  unfold faults
  rw [List.filterMap_cons]
  cases definition.check provided with
  | ok result => rfl
  | error fault => rfl

private theorem reports_iff {errors : List VariableFault} :
    Reports provided definitions errors ↔ faults definitions provided = errors := by
  constructor
  · intro reports
    induction reports with
    | nil => rfl
    | pass passes _ ih =>
        obtain ⟨result, checked⟩ := VariableDefinition.exists_check_eq_ok.mpr passes
        rw [faults_cons, checked, ih]
        rfl
    | fail fails _ ih =>
        rw [faults_cons, VariableDefinition.check_eq_error.mpr fails, ih]
        rfl
  · rintro rfl
    induction definitions with
    | nil => exact .nil
    | cons definition rest ih =>
        rw [faults_cons]
        cases checked : definition.check provided with
        | ok result => exact .pass (VariableDefinition.exists_check_eq_ok.mp ⟨result, checked⟩) ih
        | error fault => exact .fail (VariableDefinition.check_eq_error.mp checked) ih

private theorem faults_eq_nil :
    faults definitions provided = [] ↔ ∀ definition ∈ definitions, definition.Passes provided := by
  rw [← reports_iff]
  induction definitions with
  | nil => exact iff_of_true .nil (List.forall_mem_nil _)
  | cons definition rest ih =>
      rw [List.forall_mem_cons, ← ih]
      constructor
      · intro reports
        cases reports with
        | pass passes others => exact ⟨passes, others⟩
      · rintro ⟨passes, others⟩
        exact .pass passes others

private theorem ofRequest_eq_error {errors : List VariableFault} :
    ofRequest definitions provided = .error errors ↔
      errors ≠ [] ∧ faults definitions provided = errors := by
  unfold ofRequest
  split
  · rename_i noFaults
    rw [noFaults]
    refine iff_of_false nofun ?_
    rintro ⟨notEmpty, same⟩
    exact notEmpty same.symm
  · rename_i found
    constructor
    · intro same
      cases same
      exact ⟨found, rfl⟩
    · rintro ⟨_, same⟩
      rw [same]

private theorem exists_ofRequest_eq_ok :
    (∃ assignment, ofRequest definitions provided = .ok assignment) ↔
      faults definitions provided = [] := by
  unfold ofRequest
  split
  · rename_i noFaults
    exact iff_of_true ⟨_, rfl⟩ noFaults
  · rename_i found
    exact iff_of_false nofun found

private theorem faults_congr
    (same : ∀ definition ∈ definitions,
      others.find? definition.name.item = provided.find? definition.name.item) :
    faults definitions others = faults definitions provided :=
  List.filterMap_congr fun definition member => by
    rw [VariableDefinition.check_congr (same definition member)]

private theorem ofRequest_congr
    (same : ∀ definition ∈ definitions,
      others.find? definition.name.item = provided.find? definition.name.item) :
    ofRequest definitions others = ofRequest definitions provided := by
  have sameLiterals : literalsOf definitions others = literalsOf definitions provided :=
    List.filterMap_congr fun definition member => by
      rw [VariableDefinition.check_congr (same definition member)]
  rw [ofRequest, ofRequest, faults_congr same, sameLiterals]

/-- What a variable of an accepted request has: what is provided, null included, or else its
default, or else nothing. -/
theorem find?_literals_of_mem {definition : VariableDefinition}
    (distinct : (definitions.map fun definition => definition.name.item).Nodup)
    (accepted : ofRequest definitions provided = .ok assignment)
    (member : definition ∈ definitions) :
    assignment.literals.find? definition.name.item = definition.given? provided :=
  (find?_literals distinct accepted _).trans
    (VariableDefinition.givenOf?_of_mem distinct member)

/-- A request is accepted when every definition passes on its own, and otherwise all definitions
that fail are reported, each once and in order.  The variables of an accepted request have what is
provided for them or else their defaults, and are unset without either.  Nothing but what is
provided for the variables that are defined matters. -/
theorem ofRequest_exact (definitions : List VariableDefinition) (provided : Entries Json) :
    ((∃ assignment, ofRequest definitions provided = .ok assignment) ↔
        ∀ definition ∈ definitions, definition.Passes provided) ∧
      (∀ errors, ofRequest definitions provided = .error errors ↔
        errors ≠ [] ∧ Reports provided definitions errors) ∧
      (∀ assignment, (definitions.map fun definition => definition.name.item).Nodup →
        ofRequest definitions provided = .ok assignment →
          ∀ definition ∈ definitions,
            assignment.defines definition.name.item = true ∧
            (∀ document, provided.find? definition.name.item = some document →
              assignment.literals.find? definition.name.item = some (.ofJson document)) ∧
            (∀ literal, provided.find? definition.name.item = none →
              definition.fallback = some literal →
                assignment.literals.find? definition.name.item = some literal) ∧
            (provided.find? definition.name.item = none → definition.fallback = none →
              assignment.literals.find? definition.name.item = none)) ∧
      ∀ others : Entries Json,
        (∀ definition ∈ definitions,
          others.find? definition.name.item = provided.find? definition.name.item) →
            ofRequest definitions others = ofRequest definitions provided := by
  refine ⟨?_, fun errors => ?_, ?_, fun others => ofRequest_congr⟩
  · rw [exists_ofRequest_eq_ok, faults_eq_nil]
  · rw [ofRequest_eq_error, reports_iff]
  · intro assignment distinct accepted definition member
    rw [find?_literals_of_mem distinct accepted member]
    refine ⟨(defines_iff accepted).mpr ⟨definition, member, rfl⟩, ?_, ?_, ?_⟩
    · exact fun document => VariableDefinition.given?_of_provided
    · intro literal notProvided isDefault
      rw [VariableDefinition.given?_of_notProvided notProvided, isDefault]
    · intro notProvided noDefault
      rw [VariableDefinition.given?_of_notProvided notProvided, noDefault]

theorem ofRequest_exact_ofNull :
    let definitions := VariableDefinition.ofDefaults
    let provided : Entries Json := [("w", .integer 1), ("v", .null)]
    let refused : Entries Json := [("n", .bool true), ("v", .string "x")]
    (definitions.map fun definition => definition.name.item).Nodup ∧
      (∃ assignment, ofRequest definitions provided = .ok assignment ∧
        assignment.literals.find? "v" = some .null ∧ assignment.literals.find? "n" = none ∧
        ofRequest definitions [("v", .null)] = .ok assignment) ∧
      Reports refused definitions
        [.invalid "v" (.here (.wrongKind "String" "Float")) ⟨1, 8⟩,
          .invalid "n" (.here (.wrongKind "Boolean" "Int")) ⟨1, 22⟩] := by
  intro definitions provided refused
  have distinct : (definitions.map fun definition => definition.name.item).Nodup := by decide
  have accepted : ofRequest definitions provided = .ok ⟨["v", "n"], [("v", .null)]⟩ := rfl
  obtain ⟨_, _, values, unnamed⟩ := ofRequest_exact definitions provided
  obtain ⟨_, reported, _, _⟩ := ofRequest_exact definitions refused
  obtain ⟨⟨_, isProvided, _, _⟩, rest⟩ := List.forall_mem_cons.mp (values _ distinct accepted)
  obtain ⟨_, _, _, isUnset⟩ := (List.forall_mem_cons.mp rest).1
  refine ⟨distinct, ⟨_, accepted, isProvided .null rfl, isUnset rfl rfl, ?_⟩,
    ((reported _).mp rfl).2⟩
  rw [← accepted]
  apply unnamed
  exact List.forall_mem_cons.mpr ⟨rfl, List.forall_mem_singleton.mpr rfl⟩

end Assignment

end StagedResolver
