/-
What reading an argument comes to.

The types that an argument may be read at agree with its declared type but for what is
required.  An argument that is read at such a type is therefore of it, except that it may
lack something: as a whole, or in an item of a list.
-/
import StagedResolver.Evaluation.Lookup
import StagedResolver.Proofs.Plan.Arguments
import StagedResolver.Proofs.Value.Admission
import StagedResolver.Schema.Check

namespace StagedResolver

/-- Whether a value has a null item where a type asks for more than nothing. -/
inductive ValueType.LacksItem : ValueType → Value → Prop where
  | here {item : ValueType} {items : List Value} (member : .null ∈ items)
      (demanded : item.isOptional = false) : LacksItem (.sequence item) (.sequence items)
  | inside {item : ValueType} {items : List Value} {element : Value}
      (member : element ∈ items) (lacks : LacksItem item element) :
      LacksItem (.sequence item) (.sequence items)
  | optional {inner : ValueType} {value : Value} (lacks : LacksItem inner value) :
      LacksItem (.optional inner) value

namespace ValueType

variable {type : ValueType} {value : Value}

private theorem admits_null (type : ValueType) : type.admits .null = type.isOptional := by
  cases type with
  | _ => rfl

private theorem lacksItem_withoutOptional :
    type.withoutOptional.LacksItem value ↔ type.LacksItem value := by
  induction type with
  | optional inner ih =>
      refine ih.trans ⟨.optional, fun lacks => ?_⟩
      cases lacks with
      | optional lacks => exact lacks
  | _ => exact Iff.rfl

private theorem LacksItem.eq_sequence (lacks : type.LacksItem value) :
    ∃ items, value = .sequence items := by
  induction lacks with
  | here => exact ⟨_, rfl⟩
  | inside => exact ⟨_, rfl⟩
  | optional _ ih => exact ih

private theorem not_lacksItem_null : ¬ type.LacksItem .null := by
  induction type with
  | optional inner ih =>
      intro lacks
      cases lacks with
      | optional lacks => exact ih lacks
  | _ => exact nofun

private theorem admits_iff_of_withoutOptional (something : value.stripped.isNothing = false)
    (plain : type.withoutOptional.admits value = true ↔
      ¬ type.withoutOptional.LacksItem value) :
    type.admits value = true ↔ ¬ type.LacksItem value := by
  rw [admits_of_something type something, ← lacksItem_withoutOptional]
  exact plain

/-- Items that lack nothing inside, unless they are null, are of a type when none of them
is null where the type asks for more. -/
theorem admits_sequence_iff {item : ValueType} {items : List Value}
    (each : ∀ element ∈ items, element ≠ .null →
      (item.admits element = true ↔ ¬ item.LacksItem element)) :
    (sequence item).admits (.sequence items) = true ↔
      ¬ (sequence item).LacksItem (.sequence items) := by
  show items.all item.admits = true ↔ _
  rw [List.all_eq_true]
  constructor
  · intro admitted lacks
    cases lacks with
    | here member demanded =>
        have nullAdmitted : item.admits .null = true := admitted .null member
        rw [item.admits_null, demanded] at nullAdmitted
        cases nullAdmitted
    | @inside _ _ element member lacks =>
        have notNull : element ≠ .null := by
          rintro rfl
          exact not_lacksItem_null lacks
        exact (each element member notNull).mp (admitted element member) lacks
  · intro lacksNothing element member
    by_cases isNull : element = .null
    · rw [isNull, item.admits_null]
      cases demanded : item.isOptional with
      | true => rfl
      | false => exact absurd (.here (isNull ▸ member) demanded) lacksNothing
    · exact (each element member isNull).mpr fun lacks => lacksNothing (.inside member lacks)

end ValueType

/-! ### Arguments -/

namespace TypeReference

variable {type : TypeReference} {expected : ValueType} {value : Value} {leaf : Scalar}

private theorem something_of_inputType (noJson : leaf ≠ .json)
    (admitted : leaf.inputType.admits value = true) : value.stripped.isNothing = false := by
  cases leaf with
  | json => exact absurd rfl noJson
  | _ =>
      simp only [Scalar.inputType, ValueType.admits] at admitted
      generalize value.stripped = held at admitted ⊢
      cases held with
      | null => cases admitted
      | absent => cases admitted
      | present inner => cases admitted
      | _ => rfl

private theorem something_of_admits (admits : type.Admits value)
    (ofLeaf : Scalar.ofName? type.innermost = some leaf) (noJson : leaf ≠ .json)
    (notNull : value ≠ .null) : value.stripped.isNothing = false := by
  cases admits with
  | null => exact absurd rfl notNull
  | scalar required named _ admitted =>
      cases ofLeaf.symm.trans named
      exact something_of_inputType noJson admitted
  | list required each => rfl

private theorem eq_of_mayBeReadAt {required : Bool} {name : String}
    (named : Scalar.ofName? name = some leaf) (noJson : leaf ≠ .json)
    (readable : mayBeReadAt (.named name required) expected = true) :
    expected = .any ∨ expected = leaf.inputType := by
  have closed : leaf.inputType ≠ .any := by
    cases leaf with
    | json => exact absurd rfl noJson
    | _ => exact nofun
  unfold mayBeReadAt at readable
  split at readable
  case h_1 => exact .inl rfl
  case h_2 => cases readable
  case h_3 =>
      rw [named] at readable
      simp only [closed, decide_false, Bool.false_or, decide_eq_true_eq] at readable
      exact .inr readable.symm

private theorem admits_of_mayBeReadAt {required : Bool} {name : String}
    (named : Scalar.ofName? name = some leaf) (noJson : leaf ≠ .json)
    (admitted : leaf.inputType.admits value = true)
    (readable : mayBeReadAt (.named name required) expected = true) :
    expected.admits value = true ∧ ¬ expected.LacksItem value := by
  rcases eq_of_mayBeReadAt named noJson readable with rfl | rfl
  · exact ⟨rfl, nofun⟩
  · refine ⟨admitted, ?_⟩
    cases leaf with
    | _ => exact nofun

/-- An argument that is not null is of a type that it may be read at when it does not
lack an item there. -/
theorem admits_iff_of_mayBeReadAt (admits : type.Admits value)
    (ofLeaf : Scalar.ofName? type.innermost = some leaf) (noJson : leaf ≠ .json)
    (readable : mayBeReadAt type expected.withoutOptional = true) (notNull : value ≠ .null) :
    expected.admits value = true ↔ ¬ expected.LacksItem value := by
  induction type generalizing expected value with
  | named name required =>
      refine ValueType.admits_iff_of_withoutOptional
        (something_of_admits admits ofLeaf noJson notNull) ?_
      cases admits with
      | null => exact absurd rfl notNull
      | scalar _ named _ admitted =>
          cases ofLeaf.symm.trans named
          obtain ⟨isAdmitted, lacksNothing⟩ :=
            admits_of_mayBeReadAt named noJson admitted readable
          exact ⟨fun _ => lacksNothing, fun _ => isAdmitted⟩
  | list item required ih =>
      refine ValueType.admits_iff_of_withoutOptional
        (something_of_admits admits ofLeaf noJson notNull) ?_
      generalize expected.withoutOptional = plain at readable ⊢
      cases admits with
      | null => exact absurd rfl notNull
      | list _ each =>
          cases plain with
          | any => exact ⟨fun _ => nofun, fun _ => rfl⟩
          | sequence inner =>
              exact ValueType.admits_sequence_iff fun element member elementNotNull =>
                ih (each element member) ofLeaf readable elementNotNull
          | _ => cases readable

end TypeReference

namespace Lookup

variable {type : TypeReference} {expected : ValueType} {literal : Literal} {value : Value}
variable {leaf : Scalar} {name : String} {context : Context}

def ofArgument (name : String) (expected : ValueType) : Lookup :=
  ⟨.arguments, [.key name], expected⟩

private theorem resolve_ofArgument (elements : List Value)
    (found : context.arguments.find? name = some value) :
    (ofArgument name expected).resolve context elements =
      (ofArgument name expected).check (some value) := by
  have foundIs : (ofArgument name expected).find context elements = .ok (some value) := by
    simp only [find, ofArgument, findInRecord, found]
    rfl
  rw [resolve, foundIs]
  rfl

/-- An argument that is read at a type that it may be read at is missing when it is null
and of another type exactly when it lacks an item there; otherwise it has a value. -/
theorem resolve_of_mayBeReadAt (ofLeaf : Scalar.ofName? type.innermost = some leaf)
    (noJson : leaf ≠ .json) (readable : mayBeReadAt type expected.withoutOptional = true)
    (coerced : type.coerce literal = .ok value)
    (found : context.arguments.find? name = some value) (elements : List Value) :
    (value = .null → (ofArgument name expected).resolve context elements =
      if expected.isOptional then .ok .absent
      else .error (.missingPath (ofArgument name expected))) ∧
    (expected.LacksItem value → (ofArgument name expected).resolve context elements =
      .error (.pathMismatch (ofArgument name expected) .sequence)) ∧
    (value ≠ .null → ¬ expected.LacksItem value →
      (ofArgument name expected).resolve context elements =
        .ok ((ofArgument name expected).fit value)) := by
  have admits : type.Admits value := TypeReference.admits_of_coerce coerced
  have admitted_iff : value ≠ .null →
      (expected.admits value = true ↔ ¬ expected.LacksItem value) :=
    TypeReference.admits_iff_of_mayBeReadAt admits ofLeaf noJson readable
  have something : value ≠ .null → value.isNothing = false := fun notNull =>
    Value.isNothing_of_something
      (TypeReference.something_of_admits admits ofLeaf noJson notNull)
  rw [resolve_ofArgument elements found, check]
  refine ⟨?_, ?_, ?_⟩
  · rintro rfl
    rfl
  · intro lacks
    have notNull : value ≠ .null := by
      rintro rfl
      exact ValueType.not_lacksItem_null lacks
    have notAdmitted : expected.admits value ≠ true := fun admitted =>
      (admitted_iff notNull).mp admitted lacks
    obtain ⟨items, rfl⟩ := lacks.eq_sequence
    simp only [something notNull, ofArgument, notAdmitted]
    rfl
  · intro notNull lacksNothing
    have admitted : expected.admits value = true := (admitted_iff notNull).mpr lacksNothing
    simp only [something notNull, ofArgument, admitted, if_true]
    rfl

end Lookup

def TypeReference.ofRows : TypeReference := .list (.list (.named "Int" true) false) true

def Literal.ofRows : Literal := .list [.integer 1, .null]

def Value.ofRows : Value := .sequence [.sequence [.int 1], .null]

def Context.ofRows : Context := (Context.root .null []).withArguments [("rows", .ofRows)]

namespace Lookup

/-- Not every argument is of a type that it may be read at: an item may be missing. -/
theorem readable_mismatch :
    ¬ ∀ (type : TypeReference) (leaf : Scalar) (expected : ValueType) (literal : Literal)
      (value : Value) (name : String) (context : Context) (elements : List Value)
      (fault : EvaluationError),
      Scalar.ofName? type.innermost = some leaf → leaf ≠ .json →
        mayBeReadAt type expected.withoutOptional = true → type.coerce literal = .ok value →
          context.arguments.find? name = some value →
            (ofArgument name expected).resolve context elements = .error fault →
              fault.kind ≠ .typeMismatch := by
  intro claimed
  exact claimed .ofRows .int (.sequence (.sequence .int)) .ofRows .ofRows "rows" .ofRows [] _
    rfl nofun rfl rfl rfl rfl rfl

theorem resolve_of_mayBeReadAt_ofRows :
    TypeReference.ofRows.coerce .ofRows = .ok .ofRows ∧
      (ofArgument "rows" (.sequence (.sequence .int))).resolve .ofRows [] =
        .error (.pathMismatch (ofArgument "rows" (.sequence (.sequence .int))) .sequence) ∧
      (ofArgument "rows" (.sequence (.optional (.sequence .int)))).resolve .ofRows [] =
        .ok .ofRows := by
  have coerced : TypeReference.ofRows.coerce .ofRows = .ok .ofRows := rfl
  have lacks : (ValueType.sequence (.sequence .int)).LacksItem .ofRows :=
    .here (List.mem_cons_of_mem _ (List.mem_cons_self ..)) rfl
  have lacksNothing : ¬ (ValueType.sequence (.optional (.sequence .int))).LacksItem .ofRows :=
    (@TypeReference.admits_iff_of_mayBeReadAt .ofRows _ _ .int
      (TypeReference.admits_of_coerce coerced) rfl nofun rfl nofun).mp rfl
  obtain ⟨-, mismatch, -⟩ := @resolve_of_mayBeReadAt .ofRows (.sequence (.sequence .int))
    .ofRows .ofRows .int "rows" .ofRows rfl nofun rfl coerced rfl []
  obtain ⟨-, -, gives⟩ := @resolve_of_mayBeReadAt .ofRows
    (.sequence (.optional (.sequence .int))) .ofRows .ofRows .int "rows" .ofRows rfl nofun rfl
    coerced rfl []
  exact ⟨coerced, mismatch lacks, gives nofun lacksNothing⟩

end Lookup

end StagedResolver
