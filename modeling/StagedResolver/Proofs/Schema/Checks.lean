/-
What the checks of a schema rule out.

A constant that fits the shape of its field, and a value of a static type that fits
it, have lists where the shape has them and scalars that it takes.  When such a value
is completed, nothing can be wrong with it but that something is missing where it is
required.
-/
import StagedResolver.Proofs.Evaluation.Holding
import StagedResolver.Proofs.Execution.Failure
import StagedResolver.Proofs.Value.Admission
import StagedResolver.Schema.Check

namespace StagedResolver

/-- Whether a shape takes a value.  Every shape takes what is nothing, and an object
can be made of everything but a list. -/
inductive Shape.Takes : Shape → Value → Prop where
  | nothing {shape : Shape} {value : Value} (isNothing : value.stripped.isNothing = true) :
      Takes shape value
  | scalar {leaf : Scalar} {value : Value} (required : Bool)
      (taken : leaf.takes value.stripped = true) :
      Takes (.scalar leaf required) value
  | object {value : Value} (id : ObjectIndex) (required : Bool)
      (noList : value.stripped.kind ≠ .sequence) :
      Takes (.object id required) value
  | list {item : Shape} {value : Value} {items : List Value} (required : Bool)
      (itemsAre : value.stripped = .sequence items)
      (each : ∀ element ∈ items, Takes item element) :
      Takes (.list item required) value

private theorem Shape.Takes.of_something {shape : Shape} {value : Value}
    (takes : value.stripped.isNothing = false → shape.Takes value) : shape.Takes value := by
  cases isNothing : value.stripped.isNothing with
  | true => exact .nothing isNothing
  | false => exact takes isNothing

private theorem Value.present_of_something {value : Value}
    (something : value.stripped.isNothing = false) :
    value.present? = some value.stripped ∧ value.stripped ≠ .null := by
  constructor
  · apply present?_eq_stripped
    intro isAbsent
    rw [isAbsent] at something
    cases something
  · intro isNull
    rw [isNull] at something
    cases something

private theorem ValueType.isKnown_withoutOptional {type : ValueType} (known : type.isKnown = true) :
    type.withoutOptional.isKnown = true := by
  induction type with
  | optional inner ih => exact ih known
  | _ => exact known

private theorem ValueType.exists_kind_of_isKnown {type : ValueType} (known : type.isKnown = true) :
    ∃ kind, type.withoutOptional.kind? = some kind := by
  induction type with
  | any => cases known
  | optional inner ih => exact ih known
  | _ => exact ⟨_, rfl⟩

/-- What a known type admits is of the type's kind when it is something. -/
theorem Shape.Takes.of_admits {shape : Shape} {output : ValueType} {value : Value}
    (known : output.isKnown = true) (admitted : output.admits value = true)
    (takes : ∀ kind, output.withoutOptional.kind? = some kind → value.stripped.kind = kind →
      output.withoutOptional.admits value = true → shape.Takes value) :
    shape.Takes value := by
  refine .of_something fun something => ?_
  rw [ValueType.admits_of_something output something] at admitted
  obtain ⟨kind, kindIs⟩ := ValueType.exists_kind_of_isKnown known
  exact takes kind kindIs (ValueType.kind_stripped_of_admits admitted kindIs) admitted

private theorem Scalar.takes_of_takesType {leaf : Scalar} {type : ValueType} {kind : ValueKind}
    {value : Value} (takes : leaf.takesType type = true) (kindIs : type.kind? = some kind)
    (ofKind : value.kind = kind) : leaf.takes value = true := by
  cases leaf with
  | json => rfl
  | _ => cases type <;> cases takes <;> cases kindIs <;> cases value <;> cases ofKind <;> rfl

namespace Shape

variable {place : SchemaPlace} {type : TypeReference} {shape : Shape} {value : Value}

/-- A shape takes the constants that fit it. -/
theorem takes_of_fitConstant (fits : fitConstant place type shape value = .ok ()) :
    shape.Takes value := by
  induction shape generalizing value with
  | scalar leaf required =>
      refine .of_something fun something => ?_
      obtain ⟨held, notNull⟩ := Value.present_of_something something
      rw [fitConstant, held] at fits
      refine .scalar required ?_
      generalize value.stripped = inner at fits notNull
      by_cases isJson : leaf = .json
      · rw [isJson]
        rfl
      · cases inner with
        | null => exact absurd rfl notNull
        | record entries =>
            simp only [isJson, if_false] at fits
            cases fits
        | sequence items =>
            simp only [isJson, if_false] at fits
            cases fits
        | _ =>
            simp only [isJson, if_false] at fits
            split at fits
            · assumption
            · cases fits
  | object id required =>
      refine .of_something fun something => ?_
      obtain ⟨held, notNull⟩ := Value.present_of_something something
      rw [fitConstant, held] at fits
      refine .object id required ?_
      generalize value.stripped = inner at fits notNull
      cases inner with
      | null => exact absurd rfl notNull
      | sequence items => cases fits
      | _ => exact nofun
  | list item required ih =>
      refine .of_something fun something => ?_
      obtain ⟨held, notNull⟩ := Value.present_of_something something
      rw [fitConstant, held] at fits
      cases inner : value.stripped with
      | null => exact absurd inner notNull
      | sequence items =>
          rw [inner] at fits
          exact .list required inner fun element member =>
            ih (forM_eq_ok.mp fits element member)
      | _ =>
          rw [inner] at fits
          cases fits

/-- A shape takes the values of known types that fit it. -/
theorem takes_of_fitOutput {output : ValueType} (known : output.isKnown = true)
    (fits : fitOutput place type shape output = .ok ())
    (admitted : output.admits value = true) : shape.Takes value := by
  induction shape generalizing output value with
  | scalar leaf required =>
      refine .of_admits known admitted fun kind kindIs ofKind _ => .scalar required ?_
      rw [fitOutput] at fits
      generalize output.withoutOptional = inner at fits kindIs
      by_cases isJson : leaf = .json
      · rw [isJson]
        rfl
      · cases inner with
        | any => cases kindIs
        | optional content => cases kindIs
        | record =>
            simp only [isJson, if_false] at fits
            cases fits
        | sequence element =>
            simp only [isJson, if_false] at fits
            cases fits
        | _ =>
            simp only [isJson, if_false] at fits
            split at fits
            · rename_i takes
              exact Scalar.takes_of_takesType takes kindIs ofKind
            · cases fits
  | object id required =>
      refine .of_admits known admitted fun kind kindIs ofKind _ => .object id required ?_
      rw [fitOutput] at fits
      generalize output.withoutOptional = inner at fits kindIs
      rw [ofKind]
      cases inner with
      | any => cases kindIs
      | optional content => cases kindIs
      | sequence element => cases fits
      | _ =>
          cases kindIs
          exact nofun
  | list item required ih =>
      refine .of_admits known admitted fun kind kindIs ofKind admitted => ?_
      rw [fitOutput] at fits
      replace known := ValueType.isKnown_withoutOptional known
      generalize output.withoutOptional = inner at fits kindIs admitted known
      cases inner with
      | any => cases kindIs
      | optional content => cases kindIs
      | sequence element =>
          have knownItem : element.isKnown = true := known
          cases kindIs
          obtain ⟨items, itemsAre⟩ := Value.eq_sequence_of_kind ofKind
          rw [ValueType.admits, itemsAre] at admitted
          exact .list required itemsAre fun member isMember =>
            ih knownItem fits (List.all_eq_true.mp admitted member isMember)
      | _ => cases fits

end Shape

/-! ### Errors of what is taken -/

def PathStep.isIndex : PathStep → Bool
  | .index _ => true
  | .key _ => false

/-- Whether an error is about the value of the field itself, as a whole or somewhere in
its lists. -/
def FieldError.isOwn (error : FieldError) : Bool :=
  error.path.all PathStep.isIndex

/-- Whether the errors about the value of a field itself only say that something is
missing. -/
def Completion.LacksOnly (place : FieldPlace) (completion : Completion Value) : Prop :=
  ∀ error ∈ completion.errors, error.isOwn = true →
    error.fault = .nothingFound ∧
      error.message = "Cannot return null for non-nullable field " ++ place.display

namespace Site

variable {schema : Schema} {level : ReportLevel} {site target : Site} {value : Value}

/-- Where a value is taken, nothing but its lack is a fault. -/
theorem fault_of_takes {fault : FieldFault} (foundIs : site.found = .ok value)
    (takes : site.shape.Takes value) (fails : site.fault? = some fault) :
    fault = .nothingFound := by
  cases isNothing : value.stripped.isNothing with
  | true =>
      have missing : site.fault? =
          if site.shape.required then some .nothingFound else none := by
        rcases Value.eq_of_isNothing isNothing with isNull | isAbsent
        · simp only [fault?, foundIs, isNull]
        · simp only [fault?, foundIs, isAbsent]
      rw [missing] at fails
      split at fails
      · exact (Option.some.inj fails).symm
      · cases fails
  | false =>
      rw [fault?_of_something site foundIs isNothing] at fails
      generalize site.shape = shape at takes fails
      cases takes with
      | nothing nothing =>
          rw [isNothing] at nothing
          cases nothing
      | scalar required taken =>
          simp only [Shape.fault?, taken, if_true] at fails
          cases fails
      | object id required noList =>
          simp only [Shape.fault?, noList, if_false] at fails
          cases fails
      | list required itemsAre each =>
          rw [Shape.fault?, itemsAre] at fails
          cases fails

/-- By indices alone a site that takes its value leads to sites that do. -/
theorem Leads.takes {path : List PathStep} (leads : site.Leads schema level path target)
    (own : path.all PathStep.isIndex = true) (foundIs : site.found = .ok value)
    (takes : site.shape.Takes value) :
    target.place = site.place ∧
      ∃ held, target.found = .ok held ∧ target.shape.Takes held := by
  induction leads generalizing value with
  | here site => exact ⟨rfl, value, foundIs, takes⟩
  | @item site target item required holder element items index path shapeIs holderIs itemsAre
      atIndex leads ih =>
      rw [foundIs] at holderIs
      cases holderIs
      rw [shapeIs] at takes
      cases takes with
      | nothing nothing =>
          rw [itemsAre] at nothing
          cases nothing
      | list required otherItems each =>
          rw [itemsAre] at otherItems
          cases otherItems
          exact ih own rfl (each element (List.mem_of_getElem? atIndex))
  | inner => cases own

end Site

/-! ### Completion of what is checked -/

/-- Whether the objects of a shape, if it has any, are made by a plan for their type. -/
def PlanScope.MakesObjects (scope : PlanScope) (level : ReportLevel) (context : Context)
    (place : FieldPlace) (shape : Shape) (object : Value → Completion Value) : Prop :=
  ∀ id, shape.object? = some id → ∃ allowance lists plan,
    scope.planSelections allowance id lists = .ok plan ∧
      object = scope.schema.objectOf level context place plan

namespace PlanScope

variable {scope : PlanScope} {level : ReportLevel} {context : Context} {place : FieldPlace}
variable {shape : Shape} {object : Value → Completion Value} {value : Value}

/-- The errors of a completion are faults of sites that their paths lead to. -/
theorem MakesObjects.accounts (makes : scope.MakesObjects level context place shape object)
    (value : Value) :
    ∃ fields, (place.complete object shape value).AccountsFor
      (Site.Explains scope.schema level ⟨place, context, fields, shape, .ok value⟩) := by
  cases ofObject : shape.object? with
  | none =>
      refine ⟨[], @Site.accounts_complete scope.schema level
        ⟨place, context, [], shape, .ok value⟩ object shape ?_ value⟩
      intro id required held isObject
      rw [ofObject] at isObject
      cases isObject
  | some id =>
      obtain ⟨allowance, lists, plan, planned, rfl⟩ := makes id ofObject
      obtain ⟨rfl, inner, fits⟩ := scope.planSelections_fits allowance id lists plan planned
      refine ⟨plan.fields, @Site.accounts_complete scope.schema level
        ⟨place, context, plan.fields, shape, .ok value⟩ _ shape ?_ value⟩
      intro id required held isObject something noList
      rw [ofObject] at isObject
      cases isObject
      exact @Schema.accounts_objectOf scope.schema level
        ⟨place, context, plan.fields, shape, .ok value⟩ plan inner rfl fits.found fits.distinct
        (fun field member context =>
          Schema.accounts_resolveField (fits.fields field member) level context)
        required held something noList

/-- A value that a shape takes is completed without fault in itself. -/
theorem MakesObjects.lacksOnly (makes : scope.MakesObjects level context place shape object)
    (takes : shape.Takes value) : (place.complete object shape value).LacksOnly place := by
  obtain ⟨fields, accounts⟩ := makes.accounts value
  intro error member own
  obtain ⟨target, leads, isFault, placeIs⟩ := accounts.traces error member
  obtain ⟨samePlace, held, heldIs, targetTakes⟩ := leads.takes own rfl takes
  have faultIs : error.fault = .nothingFound :=
    Site.fault_of_takes heldIs targetTakes isFault
  refine ⟨faultIs, ?_⟩
  rw [FieldError.message, faultIs, ← placeIs, samePlace]

/-- Constants that fit the shape of their field, and values of known types that do, are
completed without fault in themselves: where they lack something that is required an
error says so, and no other error is about them. -/
theorem complete_of_checked
    (makes : scope.MakesObjects level context place shape object) (value : Value) :
    (∀ schemaPlace type, fitConstant schemaPlace type shape value = .ok () →
      (place.complete object shape value).LacksOnly place) ∧
    ∀ schemaPlace type output, output.isKnown = true →
      fitOutput schemaPlace type shape output = .ok () → output.admits value = true →
        (place.complete object shape value).LacksOnly place := by
  constructor
  · intro schemaPlace type fits
    exact makes.lacksOnly (Shape.takes_of_fitConstant fits)
  · intro schemaPlace type output known fits admitted
    exact makes.lacksOnly (Shape.takes_of_fitOutput known fits admitted)

end PlanScope

def Value.ofSomeHeroes : Value :=
  .sequence [.record [("name", .string "first")], .null]

def Plan.ofName : Plan := ⟨1, [.leaf "name" ⟨1, 12⟩ "name" []]⟩

def FieldPlace.ofHeroes : FieldPlace := ⟨"Query", "heroes", ⟨1, 3⟩⟩

theorem PlanScope.complete_of_checked_ofHeroes :
    PlanScope.ofHeroes.MakesObjects .off .ofHeroes .ofHeroes (.list (.object 1 true) false)
        (Schema.ofHeroes.objectOf .off .ofHeroes .ofHeroes .ofName) ∧
      fitConstant ⟨"Query", "heroes", none⟩ (.list (.named "Hero" true) false)
        (.list (.object 1 true) false) .ofSomeHeroes = .ok () ∧
      fitOutput ⟨"Query", "heroes", none⟩ (.list (.named "Hero" true) false)
        (.list (.object 1 true) false) (.sequence (.optional .record)) = .ok () ∧
      (ValueType.sequence (.optional .record)).admits .ofSomeHeroes = true ∧
      (FieldPlace.ofHeroes.complete (Schema.ofHeroes.objectOf .off .ofHeroes .ofHeroes .ofName)
        (.list (.object 1 true) false) .ofSomeHeroes).LacksOnly .ofHeroes ∧
      (FieldPlace.ofHeroes.complete (Schema.ofHeroes.objectOf .off .ofHeroes .ofHeroes .ofName)
        (.list (.object 1 true) false) .ofSomeHeroes).errors.map FieldError.path =
          [[.index 1]] := by
  have makes : PlanScope.ofHeroes.MakesObjects .off .ofHeroes .ofHeroes
      (.list (.object 1 true) false)
      (Schema.ofHeroes.objectOf .off .ofHeroes .ofHeroes .ofName) := by
    rintro _ ⟨⟩
    exact ⟨3, [[.field ⟨none, ⟨"name", ⟨1, 12⟩⟩, [], []⟩ []]], .ofName, rfl, rfl⟩
  have fits : fitConstant ⟨"Query", "heroes", none⟩ (.list (.named "Hero" true) false)
      (.list (.object 1 true) false) .ofSomeHeroes = .ok () := rfl
  have fitsType : fitOutput ⟨"Query", "heroes", none⟩ (.list (.named "Hero" true) false)
      (.list (.object 1 true) false) (.sequence (.optional .record)) = .ok () := by
    rw [fitOutput]
    show fitOutput _ _ (.object 1 true) (.optional .record) = .ok ()
    rw [fitOutput]
    rfl
  have admitted : (ValueType.sequence (.optional .record)).admits .ofSomeHeroes = true := rfl
  have lacks := (complete_of_checked makes .ofSomeHeroes).2 _ _ _ rfl fitsType admitted
  exact ⟨makes, fits, fitsType, admitted, lacks, rfl⟩

end StagedResolver
