/-
What the arguments of a field hold.

Coercion makes values of the type that it coerces to, and everything that a query gives
for an argument is coerced, be it written there or the value of a variable.  A declared
default is put in as it is.  The arguments of a field are therefore of their types
exactly as far as the defaults are that fill in for what is not given.
-/
import StagedResolver.Plan.Input
import StagedResolver.Proofs.Success
import StagedResolver.Schema.Compilation

namespace StagedResolver

/-- Whether a value is of a type that arguments are declared with.  Nothing required is
null, and lists are of a type item by item. -/
inductive TypeReference.Admits : TypeReference → Value → Prop where
  | null {type : TypeReference} (optional : type.required = false) : Admits type .null
  | scalar {name : String} {leaf : Scalar} {value : Value} (required : Bool)
      (named : Scalar.ofName? name = some leaf) (notNull : value ≠ .null)
      (admitted : leaf.inputType.admits value = true) :
      Admits (.named name required) value
  | list {item : TypeReference} {items : List Value} (required : Bool)
      (each : ∀ element ∈ items, Admits item element) :
      Admits (.list item required) (.sequence items)

/-- Whether every entry of a record is of the type of an argument of its name. -/
def ObjectField.Admits (field : ObjectField) (record : Record) : Prop :=
  ∀ name value, (name, value) ∈ record → ∃ argument,
    (name, argument) ∈ field.arguments.entries ∧ argument.type.Admits value

private theorem Literal.toValue_ne_null {literal : Literal} (notNull : literal ≠ .null) :
    literal.toValue ≠ .null := by
  cases literal with
  | null => exact absurd rfl notNull
  | integer number =>
      rw [toValue]
      cases Value.int64? number with
      | none => exact nofun
      | some fitting => exact nofun
  | _ => exact nofun

theorem Scalar.admits_of_coerce {scalar : Scalar} {literal : Literal} {value : Value}
    (coerced : scalar.coerce literal = .ok value) (notNull : literal ≠ .null) :
    value ≠ .null ∧ scalar.inputType.admits value = true := by
  unfold coerce at coerced
  split at coerced
  case h_1 =>
      cases coerced
      exact ⟨Literal.toValue_ne_null notNull, rfl⟩
  case h_2 | h_3 | h_6 =>
      split at coerced
      · cases coerced
        exact ⟨Value.noConfusion, rfl⟩
      · cases coerced
  all_goals cases coerced
  all_goals exact ⟨Value.noConfusion, rfl⟩

namespace TypeReference

theorem coerce_null (type : TypeReference) : type.coerce .null = type.coerceNull := by
  cases type with
  | named name required => rfl
  | list item required => rfl

private theorem admits_of_coerceNull {type : TypeReference} {value : Value}
    (coerced : type.coerceNull = .ok value) : type.Admits value := by
  unfold coerceNull at coerced
  split at coerced
  case isTrue => cases coerced
  case isFalse notRequired =>
      cases coerced
      exact .null (Bool.eq_false_iff.mpr notRequired)

private theorem forall_of_coerceItems {coerceItem : Literal → Except InputError Value}
    {holds : Value → Prop} {literals : List Literal} {index : Nat} {values : List Value}
    (each : ∀ literal value, coerceItem literal = .ok value → holds value)
    (coerced : coerceItems coerceItem index literals = .ok values) :
    ∀ value ∈ values, holds value := by
  induction literals generalizing index values with
  | nil =>
      cases coerced
      exact List.forall_mem_nil _
  | cons literal rest ih =>
      obtain ⟨first, firstIs, coerced⟩ := bind_eq_ok.mp coerced
      obtain ⟨others, othersAre, same⟩ := bind_eq_ok.mp coerced
      cases same
      exact List.forall_mem_cons.mpr ⟨each literal first (mapError_eq_ok.mp firstIs),
        ih othersAre⟩

/-- What a literal is coerced to is of the type it is coerced to. -/
theorem admits_of_coerce {type : TypeReference} {literal : Literal} {value : Value}
    (coerced : type.coerce literal = .ok value) : type.Admits value := by
  induction type generalizing literal value with
  | named name required =>
      unfold coerce at coerced
      split at coerced
      case h_1 => exact admits_of_coerceNull coerced
      case h_2 notNull =>
          split at coerced
          case h_1 leaf named =>
              obtain ⟨valueNotNull, admitted⟩ :=
                Scalar.admits_of_coerce (mapError_eq_ok.mp coerced) notNull
              exact .scalar required named valueNotNull admitted
          case h_2 => cases coerced
  | list item required ih =>
      unfold coerce at coerced
      split at coerced
      case h_1 => exact admits_of_coerceNull coerced
      case h_2 literals =>
          obtain ⟨items, itemsAre, rfl⟩ := map_eq_ok.mp coerced
          exact .list required (forall_of_coerceItems (fun _ _ => ih) itemsAre)
      case h_3 =>
          obtain ⟨single, singleIs, rfl⟩ := map_eq_ok.mp coerced
          exact .list required (List.forall_mem_singleton.mpr (ih singleIs))

end TypeReference

/-! ### Arguments -/

namespace Assignment

variable {assignment : Assignment} {field : ObjectField} {node : FieldNode}
variable {name : String} {argument : FieldArgument} {value : Value} {record : Record}

private theorem argumentValue?_of_given {given : Located InputValue}
    (givenIs : assignment.given? name node.arguments = some given) :
    assignment.argumentValue? field node name argument = .ok (some value) ↔
      ∃ literal, assignment.resolve given = .ok literal ∧
        argument.type.coerce literal = .ok value := by
  rw [argumentValue?, givenIs, bind_eq_ok]
  refine exists_congr fun literal => and_congr_right fun _ => ?_
  cases argument.type.coerce literal with
  | error fault => exact ⟨nofun, nofun⟩
  | ok result =>
      constructor
      · intro same
        cases same
        rfl
      · intro same
        cases same
        rfl

private theorem argumentValue?_of_notGiven
    (notGiven : assignment.given? name node.arguments = none) :
    assignment.argumentValue? field node name argument = .ok (some value) ↔
      argument.fallback = some value := by
  rw [argumentValue?, notGiven]
  cases argument.fallback with
  | some fallback =>
      constructor
      · intro same
        cases same
        rfl
      · intro same
        cases same
        rfl
  | none =>
      refine ⟨fun impossible => ?_, nofun⟩
      simp only at impossible
      split at impossible
      · cases impossible
      · cases impossible

/-- The entries of a record of arguments are the values that declared arguments have. -/
theorem mem_argumentValues {declared : Entries FieldArgument}
    (bound : assignment.argumentValues field node declared = .ok record) :
    (name, value) ∈ record ↔ ∃ argument, (name, argument) ∈ declared ∧
      assignment.argumentValue? field node name argument = .ok (some value) := by
  induction declared generalizing record with
  | nil =>
      cases bound
      exact ⟨nofun, nofun⟩
  | cons entry rest ih =>
      obtain ⟨first, firstArgument⟩ := entry
      obtain ⟨found, foundIs, bound⟩ := bind_eq_ok.mp bound
      obtain ⟨others, othersAre, same⟩ := bind_eq_ok.mp bound
      cases same
      rw [List.mem_append, ih othersAre]
      constructor
      · rintro (here | ⟨argument, later, valueIs⟩)
        · obtain ⟨held, rfl, same⟩ :=
            Option.map_eq_some_iff.mp (Option.mem_toList.mp here)
          cases same
          exact ⟨firstArgument, List.mem_cons_self .., foundIs⟩
        · exact ⟨argument, List.mem_cons_of_mem _ later, valueIs⟩
      · rintro ⟨argument, member, valueIs⟩
        rcases List.mem_cons.mp member with here | later
        · cases here
          rw [foundIs] at valueIs
          cases valueIs
          exact .inl (List.mem_cons_self ..)
        · exact .inr ⟨argument, later, valueIs⟩

/-- Arguments are of their types, except for declared defaults that are put in where
nothing is given; all are of their types when these defaults are. -/
theorem argumentRecord_admitted
    (bound : assignment.argumentRecord field node = .ok record) :
    (∀ name value, (name, value) ∈ record → ∃ argument,
      (name, argument) ∈ field.arguments.entries ∧
        (argument.type.Admits value ∨
          assignment.given? name node.arguments = none ∧ argument.fallback = some value)) ∧
    (field.Admits record ↔ ∀ name argument fallback,
      (name, argument) ∈ field.arguments.entries →
        assignment.given? name node.arguments = none → argument.fallback = some fallback →
          argument.type.Admits fallback) := by
  have values : assignment.argumentValues field node field.arguments.entries = .ok record := by
    unfold argumentRecord at bound
    split at bound
    · cases bound
    · exact bound
  have origins : ∀ name value, (name, value) ∈ record → ∃ argument,
      (name, argument) ∈ field.arguments.entries ∧
        (argument.type.Admits value ∨
          assignment.given? name node.arguments = none ∧ argument.fallback = some value) := by
    intro name value member
    obtain ⟨argument, declared, valueIs⟩ := (mem_argumentValues values).mp member
    refine ⟨argument, declared, ?_⟩
    cases givenIs : assignment.given? name node.arguments with
    | none => exact .inr ⟨rfl, (argumentValue?_of_notGiven givenIs).mp valueIs⟩
    | some given =>
        obtain ⟨literal, _, coerced⟩ := (argumentValue?_of_given givenIs).mp valueIs
        exact .inl (TypeReference.admits_of_coerce coerced)
  refine ⟨origins, ?_, ?_⟩
  · intro admits name argument fallback declared notGiven fallbackIs
    have member : (name, fallback) ∈ record := (mem_argumentValues values).mpr
      ⟨argument, declared, (argumentValue?_of_notGiven notGiven).mpr fallbackIs⟩
    obtain ⟨other, otherDeclared, admitted⟩ := admits name fallback member
    have same : some argument = some other :=
      (field.arguments.distinct.find?_of_mem declared).symm.trans
        (field.arguments.distinct.find?_of_mem otherDeclared)
    cases same
    exact admitted
  · intro defaults name value member
    obtain ⟨argument, declared, admitted | ⟨notGiven, fallbackIs⟩⟩ := origins name value member
    · exact ⟨argument, declared, admitted⟩
    · exact ⟨argument, declared, defaults name argument value declared notGiven fallbackIs⟩

end Assignment

def FieldDeclaration.ofDefaults : FieldDeclaration :=
  (((FieldDeclaration.ofType "Boolean!").argument "a" ⟨"[Float]", none⟩).argument "b"
    ⟨"Int!", some (.string "x")⟩).resolve
      (.binary .equal (.read .arguments [.key "b"] .any) (.constant .any (.string "x")))

def SchemaDeclaration.ofDefaults : SchemaDeclaration :=
  (SchemaDeclaration.ofQuery "Query").object "Query"
    (ObjectDeclaration.field .empty "f" .ofDefaults)

def ObjectField.ofDefaults : ObjectField :=
  ⟨"f", .named "Boolean" true,
    .ofEntries [("a", ⟨.list (.named "Float" false) false, none⟩),
      ("b", ⟨.named "Int" true, some (.string "x")⟩)],
    ⟨.computed (.binary .equal (.read ⟨.arguments, [.key "b"], .any⟩)
      (.constant (.string "x"))), .scalar .boolean true⟩⟩

def ObjectType.ofDefaults : ObjectType := ⟨"Query", .ofEntries [("f", .ofDefaults)]⟩

def Schema.ofDefaults : Schema := ⟨0, [.ofDefaults]⟩

def FieldNode.ofDefaults : FieldNode :=
  ⟨none, ⟨"f", ⟨1, 2⟩⟩, [⟨⟨"a", ⟨1, 4⟩⟩, ⟨.variable "v", ⟨1, 7⟩⟩⟩], []⟩

def Assignment.ofDefaults : Assignment := ⟨["v"], [("v", .list [.integer 1, .null])]⟩

def Record.ofDefaults : Record :=
  [("a", .sequence [.float (.ofInt 1), .null]), ("b", .string "x")]

namespace Assignment

private theorem readType_ofDefaults (place : SchemaPlace) :
    readType place "Boolean!" = .ok (.named "Boolean" true) ∧
      readType place "[Float]" = .ok (.list (.named "Float" false) false) ∧
      readType place "Int!" = .ok (.named "Int" true) := by
  have boolean : TypeReference.parse? "Boolean!" = some (.named "Boolean" true) := by
    decide +kernel
  have floats : TypeReference.parse? "[Float]" = some (.list (.named "Float" false) false) := by
    decide +kernel
  have int : TypeReference.parse? "Int!" = some (.named "Int" true) := by decide +kernel
  exact ⟨readType_eq_ok.mpr boolean, readType_eq_ok.mpr floats, readType_eq_ok.mpr int⟩

private theorem compile_ofDefaults : SchemaDeclaration.ofDefaults.compile = .ok .ofDefaults := by
  refine bind_eq_ok.mpr ⟨[("Query", .ofDefaults)], ?_, rfl⟩
  refine bind_eq_ok.mpr ⟨.ofDefaults, bind_eq_ok.mpr ⟨[("f", .ofDefaults)], ?_, rfl⟩, rfl⟩
  refine bind_eq_ok.mpr ⟨.ofDefaults, ?_, rfl⟩
  refine bind_eq_ok.mpr ⟨_, (readType_ofDefaults _).1, bind_eq_ok.mpr ⟨_, rfl, ?_⟩⟩
  refine bind_eq_ok.mpr ⟨[("a", ⟨.list (.named "Float" false) false, none⟩),
      ("b", ⟨.named "Int" true, some (.string "x")⟩)], ?_, ?_⟩
  · refine bind_eq_ok.mpr ⟨_, bind_eq_ok.mpr ⟨_, (readType_ofDefaults _).2.1, rfl⟩, ?_⟩
    refine bind_eq_ok.mpr ⟨_, bind_eq_ok.mpr ⟨_, ?_, rfl⟩, rfl⟩
    exact bind_eq_ok.mpr ⟨_, (readType_ofDefaults _).2.2, rfl⟩
  · refine bind_eq_ok.mpr ⟨_, bind_eq_ok.mpr ⟨(), ?_, rfl⟩, rfl⟩
    rw [fitOutput]
    rfl

private theorem argumentRecord_ofDefaults :
    Assignment.ofDefaults.argumentRecord .ofDefaults .ofDefaults = .ok .ofDefaults := rfl

private theorem not_admits_text (text : String) :
    ¬ (TypeReference.named "Int" true).Admits (.string text) := by
  intro admits
  cases admits with
  | scalar required named notNull admitted =>
      cases named
      cases admitted

private theorem find?_ofDefaults {name : String} {argument : FieldArgument}
    (declared : (name, argument) ∈ ObjectField.ofDefaults.arguments.entries) :
    ObjectField.ofDefaults.arguments.find? name = some argument :=
  ObjectField.ofDefaults.arguments.distinct.find?_of_mem declared

/-- A default is put in even if it is not of the type of its argument. -/
theorem defaults_unchecked :
    ¬ ∀ (declaration : SchemaDeclaration) (schema : Schema) (object : ObjectType)
      (name : String) (field : ObjectField) (assignment : Assignment) (node : FieldNode)
      (record : Record),
      declaration.compile = .ok schema → object ∈ schema.objects →
        object.fields.find? name = some field →
          assignment.argumentRecord field node = .ok record → field.Admits record := by
  intro claimed
  have admits : ObjectField.ofDefaults.Admits .ofDefaults :=
    claimed .ofDefaults .ofDefaults .ofDefaults "f" .ofDefaults .ofDefaults .ofDefaults
      .ofDefaults compile_ofDefaults (List.mem_cons_self ..) rfl argumentRecord_ofDefaults
  obtain ⟨argument, declared, admitted⟩ :=
    admits "b" (.string "x") (List.mem_cons_of_mem _ (List.mem_cons_self ..))
  cases find?_ofDefaults declared
  exact not_admits_text "x" admitted

theorem argumentRecord_admitted_ofDefaults :
    Assignment.ofDefaults.argumentRecord .ofDefaults .ofDefaults = .ok .ofDefaults ∧
      (TypeReference.list (.named "Float" false) false).Admits
        (.sequence [.float (.ofInt 1), .null]) ∧
      ¬ ObjectField.ofDefaults.Admits .ofDefaults := by
  obtain ⟨origins, admits_iff⟩ := argumentRecord_admitted argumentRecord_ofDefaults
  refine ⟨argumentRecord_ofDefaults, ?_, ?_⟩
  · obtain ⟨argument, declared, admitted | ⟨notGiven, _⟩⟩ :=
      origins "a" (.sequence [.float (.ofInt 1), .null]) (List.mem_cons_self ..)
    · cases find?_ofDefaults declared
      exact admitted
    · cases notGiven
  · intro admits
    have declared : ("b", ⟨.named "Int" true, some (.string "x")⟩) ∈
        ObjectField.ofDefaults.arguments.entries :=
      List.mem_cons_of_mem _ (List.mem_cons_self ..)
    exact not_admits_text "x" (admits_iff.mp admits "b" _ _ declared rfl rfl)

end Assignment

end StagedResolver
