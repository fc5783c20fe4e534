/-
Plans that are arranged anew.

Fields that are resolved in another order have the same values, each up to the order of the
keys in the objects below it.  A null that goes up keeps the fields after it from being
resolved, so that the errors need not be the same; but there is one in the one order exactly
when there is one in the other.
-/
import StagedResolver.Proofs.Execution.Failure
import StagedResolver.Proofs.Execution.Independence
import StagedResolver.Proofs.Plan.Correspondence
import StagedResolver.Proofs.Response.Classification

namespace StagedResolver

/-- Whether two values are the same, or lists whose items are, but for the entries of
records. -/
inductive Value.Agree (content : Record → Record → Prop) : Value → Value → Prop where
  | same (value : Value) : Agree content value value
  | record {entries others : Record} (agree : content entries others) :
      Agree content (.record entries) (.record others)
  | sequence {items others : List Value} (each : List.Forall₂ (Agree content) items others) :
      Agree content (.sequence items) (.sequence others)

namespace PlannedField

mutual

/-- Whether two values of a planned field are the same up to the order of the keys in the
objects that the field produces. -/
def Agree : PlannedField → Value → Value → Prop
  | .typename _ _, value, other => value = other
  | .leaf _ _ _ _, value, other => value = other
  | .composite _ _ _ _ _ fields, value, other =>
      Value.Agree (fun entries others =>
        ∃ middle, AllAgree fields entries middle ∧ middle.Perm others) value other

def AllAgree : List PlannedField → Record → Record → Prop
  | [], entries, others => entries = [] ∧ others = []
  | planned :: rest, entries, others =>
      ∃ value other restEntries restOthers, entries = (planned.key, value) :: restEntries ∧
        others = (planned.key, other) :: restOthers ∧ Agree planned value other ∧
          AllAgree rest restEntries restOthers

end

/-- Whether two lists of entries agree once the second is put in the order of planned
fields. -/
def AgreeUpToOrder (fields : List PlannedField) (entries others : Record) : Prop :=
  ∃ middle, AllAgree fields entries middle ∧ middle.Perm others

end PlannedField

namespace Completion

variable {α β γ δ : Type} {related : α → β → Prop} {relatedNext : γ → δ → Prop}

/-- Whether two completions have related results, if any, and errors only together. -/
structure Agree (related : α → β → Prop) (first : Completion α) (second : Completion β) :
    Prop where
  result : Option.Rel related first.result second.result
  errors : first.errors = [] ↔ second.errors = []

namespace Agree

theorem refl {relatedToSame : α → α → Prop} (reflexive : ∀ result, relatedToSame result result)
    (completion : Completion α) : completion.Agree relatedToSame completion := by
  refine ⟨?_, Iff.rfl⟩
  cases completion.result with
  | none => exact .none
  | some result => exact .some (reflexive result)

private theorem result_eq_none {first : Completion α} {second : Completion β}
    (agree : first.Agree related second) : first.result = none ↔ second.result = none := by
  obtain ⟨result, _⟩ := agree
  generalize first.result = found, second.result = otherFound at result
  cases result with
  | none => exact ⟨fun _ => rfl, fun _ => rfl⟩
  | some => simp

theorem trans {ε : Type} {relatedLast : β → ε → Prop} {first : Completion α}
    {second : Completion β} {third : Completion ε} (agree : first.Agree related second)
    (agreeLast : second.Agree relatedLast third) :
    first.Agree (fun result last => ∃ middle, related result middle ∧ relatedLast middle last)
      third := by
  refine ⟨?_, agree.errors.trans agreeLast.errors⟩
  have result := agree.result
  have resultLast := agreeLast.result
  generalize first.result = found, second.result = middle, third.result = last
    at result resultLast
  cases result with
  | none =>
      cases resultLast
      exact .none
  | some isRelated =>
      cases resultLast with
      | some isRelatedLast => exact .some ⟨_, isRelated, isRelatedLast⟩

theorem andThen {first : Completion α} {second : Completion β} {next : α → Completion γ}
    {other : β → Completion δ} (agree : first.Agree related second)
    (nextAgree : ∀ result otherResult, related result otherResult →
      (next result).Agree relatedNext (other otherResult)) :
    (first.andThen next).Agree relatedNext (second.andThen other) := by
  obtain ⟨result, errors⟩ := agree
  simp only [Completion.andThen]
  generalize first.result = found, second.result = otherFound at result
  cases result with
  | none => exact ⟨.none, errors⟩
  | some isRelated =>
      obtain ⟨nextResult, nextErrors⟩ := nextAgree _ _ isRelated
      refine ⟨nextResult, ?_⟩
      rw [List.append_eq_nil_iff, List.append_eq_nil_iff, errors, nextErrors]

theorem map {first : Completion α} {second : Completion β} {change : α → γ} {other : β → δ}
    (agree : first.Agree related second)
    (changed : ∀ result otherResult, related result otherResult →
      relatedNext (change result) (other otherResult)) :
    (first.map change).Agree relatedNext (second.map other) := by
  obtain ⟨result, errors⟩ := agree
  refine ⟨?_, errors⟩
  simp only [Completion.map]
  generalize first.result = found, second.result = otherFound at result
  cases result with
  | none => exact .none
  | some isRelated => exact .some (changed _ _ isRelated)

theorem under {first : Completion α} {second : Completion β}
    (agree : first.Agree related second) (segment otherSegment : PathStep) :
    (first.under segment).Agree related (second.under otherSegment) := by
  refine ⟨agree.result, ?_⟩
  simp only [Completion.under, List.map_eq_nil_iff]
  exact agree.errors

theorem after {first : Completion α} {second : Completion β}
    (agree : first.Agree related second) (reports otherReports : List Report) :
    (first.after reports).Agree related (second.after otherReports) :=
  ⟨agree.result, agree.errors⟩

theorem settle {content : Record → Record → Prop} {first second : Completion Value}
    (agree : first.Agree (Value.Agree content) second) (required : Bool) :
    (first.settle required).Agree (Value.Agree content) (second.settle required) := by
  cases required with
  | true =>
      rw [settle_true, settle_true]
      exact agree
  | false =>
      obtain ⟨result, errors⟩ := agree
      rw [settle_false, settle_false]
      refine ⟨?_, errors⟩
      generalize first.result = found, second.result = otherFound at result
      cases result with
      | none => exact .some (.same .null)
      | some isRelated => exact .some isRelated

end Agree

section Parts

variable {ι : Type} {segment : ι → PathStep} {parts others : List (ι × Completion α)}

private theorem errors_inTurn_eq_nil
    (explained : ∀ part ∈ parts, part.2.result = none → part.2.errors ≠ []) :
    (inTurn segment parts).errors = [] ↔ ∀ part ∈ parts, part.2.errors = [] := by
  induction parts with
  | nil => exact ⟨fun _ => List.forall_mem_nil _, fun _ => rfl⟩
  | cons first rest ih =>
      obtain ⟨label, part⟩ := first
      obtain ⟨firstExplained, restExplained⟩ := List.forall_mem_cons.mp explained
      rw [List.forall_mem_cons, ← ih restExplained]
      cases found : part.result with
      | none =>
          have isError := firstExplained found
          simp only [inTurn, andThen, under, found, List.map_eq_nil_iff]
          constructor
          · intro noError
            exact absurd noError isError
          · intro noErrors
            exact noErrors.1
      | some value =>
          simp only [inTurn, andThen, under, map, found, List.append_eq_nil_iff,
            List.map_eq_nil_iff]

private theorem agree_inTurn_of_perm (permuted : parts.Perm others)
    (explained : ∀ part ∈ parts, part.2.result = none → part.2.errors ≠ []) :
    (inTurn segment parts).Agree List.Perm (inTurn segment others) := by
  have othersExplained : ∀ part ∈ others, part.2.result = none → part.2.errors ≠ [] :=
    fun part member => explained part (permuted.mem_iff.mpr member)
  constructor
  · cases resolved : (inTurn segment parts).result with
    | none =>
        obtain ⟨part, member, noResult⟩ := result_inTurn_eq_none.mp resolved
        have none : (inTurn segment others).result = none :=
          result_inTurn_eq_none.mpr ⟨part, permuted.mem_iff.mp member, noResult⟩
        rw [none]
        exact .none
    | some results =>
        have each := result_inTurn_eq_some.mp resolved
        obtain ⟨otherResults, otherEach, permutedResults⟩ :=
          List.perm_comp_forall₂ permuted.symm each
        rw [result_inTurn_eq_some.mpr otherEach]
        exact .some permutedResults.symm
  · rw [errors_inTurn_eq_nil explained, errors_inTurn_eq_nil othersExplained]
    constructor
    · intro noErrors part member
      exact noErrors part (permuted.mem_iff.mpr member)
    · intro noErrors part member
      exact noErrors part (permuted.mem_iff.mp member)

end Parts

end Completion

/-! ### Completion of the same value -/

namespace FieldPlace

variable {place : FieldPlace} {content : Record → Record → Prop}

private theorem agree_whenPresent {required : Bool} {next other : Value → Completion Value}
    (each : ∀ found, (next found).Agree (Value.Agree content) (other found)) (value : Value) :
    (place.whenPresent required value next).Agree (Value.Agree content)
      (place.whenPresent required value other) := by
  simp only [whenPresent]
  split
  · exact .refl .same _
  · exact .refl .same _
  · exact each _

private theorem agree_completeItems {complete other : Value → Completion Value}
    (each : ∀ value, (complete value).Agree (Value.Agree content) (other value)) (start : Nat)
    (items : List Value) :
    (completeItems complete start items).Agree (List.Forall₂ (Value.Agree content))
      (completeItems other start items) := by
  induction items generalizing start with
  | nil =>
      refine ⟨?_, Iff.rfl⟩
      exact .some .nil
  | cons item rest ih =>
      rw [completeItems, completeItems]
      refine ((each item).under _ _).andThen fun value otherValue agree => ?_
      exact (ih (start + 1)).map fun _ _ restAgree => .cons agree restAgree

/-- Completion keeps values in agreement when objects are made that agree. -/
theorem agree_complete {object other : Value → Completion Value}
    (objects : ∀ value, (object value).Agree (Value.Agree content) (other value)) (shape : Shape)
    (value : Value) :
    (place.complete object shape value).Agree (Value.Agree content)
      (place.complete other shape value) := by
  induction shape generalizing value with
  | scalar leaf required => exact .refl .same _
  | object id required =>
      refine agree_whenPresent (fun found => ?_) value
      simp only [completeObject]
      split
      · exact .refl .same _
      · exact (objects _).settle required
  | list item required ih =>
      refine agree_whenPresent (fun found => ?_) value
      split
      · exact ((agree_completeItems ih 0 _).map fun _ _ each => .sequence each).settle required
      · exact .refl .same _

end FieldPlace

private theorem ObjectField.agree_resolve {content : Record → Record → Prop} (field : ObjectField)
    (level : ReportLevel) (context : Context) (arguments : Record) (place : FieldPlace)
    {object other : Value → Completion Value}
    (objects : ∀ value, (object value).Agree (Value.Agree content) (other value)) :
    (field.resolve level context arguments place object).Agree (Value.Agree content)
      (field.resolve level context arguments place other) := by
  simp only [resolve]
  split
  · exact (FieldPlace.agree_complete objects _ _).after _ _
  · exact .refl .same _

namespace Schema

variable {schema : Schema} {level : ReportLevel} {object : ObjectType} {context : Context}

private theorem agree_resolveFields {fields others : List PlannedField}
    (each : List.Forall₂ (fun planned other => other.key = planned.key ∧
      (schema.resolveField level object context planned).Agree planned.Agree
        (schema.resolveField level object context other)) fields others) :
    (schema.resolveFields level object context fields).Agree (PlannedField.AllAgree fields)
      (schema.resolveFields level object context others) := by
  induction each with
  | nil =>
      rw [resolveFields]
      refine ⟨?_, Iff.rfl⟩
      exact .some ⟨rfl, rfl⟩
  | @cons planned other rest otherRest first _ ih =>
      obtain ⟨sameKey, agree⟩ := first
      rw [resolveFields, resolveFields, sameKey]
      refine (agree.under _ _).andThen fun value otherValue valuesAgree => ?_
      exact ih.map fun entries otherEntries restAgree =>
        ⟨value, otherValue, entries, otherEntries, rfl, rfl, valuesAgree, restAgree⟩

/-- Fields in another order agree together, up to the order of their keys. -/
theorem agree_resolveFields_of_perm {fields middle others : List PlannedField}
    (each : List.Forall₂ (fun planned other => other.key = planned.key ∧
      (schema.resolveField level object context planned).Agree planned.Agree
        (schema.resolveField level object context other)) fields middle)
    (explained : ∀ planned ∈ fields, (schema.resolveField level object context planned).result =
      none → (schema.resolveField level object context planned).errors ≠ [])
    (permuted : middle.Perm others) :
    (schema.resolveFields level object context fields).Agree (PlannedField.AgreeUpToOrder fields)
      (schema.resolveFields level object context others) := by
  have inOrder := agree_resolveFields each
  have middleExplained : ∀ other ∈ middle,
      (schema.resolveField level object context other).result = none →
        (schema.resolveField level object context other).errors ≠ [] := by
    intro other member noResult noErrors
    obtain ⟨planned, plannedMember, _, agree⟩ := exists_mem_of_forall₂ each other member
    exact explained planned plannedMember (agree.result_eq_none.mpr noResult)
      (agree.errors.mpr noErrors)
  have rearranged : (schema.resolveFields level object context middle).Agree List.Perm
      (schema.resolveFields level object context others) := by
    rw [resolveFields_eq_inTurn, resolveFields_eq_inTurn]
    apply Completion.agree_inTurn_of_perm (permuted.map _)
    intro part member
    obtain ⟨other, otherMember, rfl⟩ := List.mem_map.mp member
    exact middleExplained other otherMember
  exact inOrder.trans rearranged

private theorem agree_resolveField {planned other : PlannedField}
    (fits : planned.Fits schema object)
    (corresponds : planned.Corresponds id List.Perm other) (level : ReportLevel)
    (context : Context) :
    (schema.resolveField level object context planned).Agree planned.Agree
      (schema.resolveField level object context other) := by
  induction fits generalizing other context with
  | typename key position =>
      cases corresponds
      exact .refl (fun _ => rfl) _
  | leaf key position arguments found noObject =>
      cases corresponds
      exact .refl (fun _ => rfl) _
  | @composite object inner name field objectId fields key position arguments found ofObject
      innerFound distinct inside ih =>
      cases corresponds with
      | @composite _ _ _ _ _ _ middle others related permuted =>
          rw [resolveField_composite, resolveField_composite, found]
          refine field.agree_resolve level context arguments _ fun value => ?_
          have each := forall₂_imp_of_mem related fun planned member other corresponds =>
            And.intro corresponds.key_eq (ih planned member corresponds (context.child value))
          have explained (planned : PlannedField) (member : planned ∈ fields) :=
            (accounts_resolveField (inside planned member) level (context.child value)).explained
          have objects := agree_resolveFields_of_perm each explained permuted
          have sameInner : schema.object? (id objectId) = some inner := innerFound
          simp only [objectOf, innerFound, sameInner]
          exact objects.map fun _ _ agree => .record agree

/-- Plans of one object type whose fields correspond have data and errors together; the data
is null for both, or entries that agree up to their order. -/
theorem agree_execute {plan other : Plan} (fits : plan.Fits schema object)
    (corresponds : plan.Corresponds id List.Perm other) (level : ReportLevel)
    (context : Context) :
    (((schema.execute level plan context).result = some .null ∧
        (schema.execute level other context).result = some .null) ∨
      ∃ entries others, (schema.execute level plan context).result = some (.record entries) ∧
        (schema.execute level other context).result = some (.record others) ∧
        PlannedField.AgreeUpToOrder plan.fields entries others) ∧
      ((schema.execute level plan context).errors = [] ↔
        (schema.execute level other context).errors = []) := by
  obtain ⟨sameObject, middle, related, permuted⟩ := corresponds
  have otherFound : schema.object? other.object = some object := by
    rw [sameObject]
    exact fits.found
  have each := forall₂_imp_of_mem related fun planned member other corresponds =>
    And.intro corresponds.key_eq
      (agree_resolveField (fits.fields planned member) corresponds level context)
  have explained (planned : PlannedField) (member : planned ∈ plan.fields) :=
    (accounts_resolveField (fits.fields planned member) level context).explained
  have agree := agree_resolveFields_of_perm each explained permuted
  rw [errors_execute fits.found, errors_execute otherFound]
  refine ⟨?_, agree.errors⟩
  rw [result_execute_eq_null_iff fits.found, result_execute_eq_null_iff otherFound]
  simp only [result_execute_eq_record_iff fits.found, result_execute_eq_record_iff otherFound]
  have result := agree.result
  generalize (schema.resolveFields level object context plan.fields).result = found,
    (schema.resolveFields level object context other.fields).result = otherResult at result
  cases result with
  | none => exact .inl ⟨rfl, rfl⟩
  | some entriesAgree => exact .inr ⟨_, _, rfl, rfl, entriesAgree⟩

end Schema

/-! ### Settings that arrange keys in another order -/

/-- Settings that differ in the order of keys alone refuse the same requests for the same
reasons.  All other requests have data that is null with both, or entries that agree up to the
order of the keys in them and in all objects below, and errors with both or with neither. -/
theorem Engine.execute_keyOrder (schema : Schema) (settings : Settings) (order other : KeyOrder)
    (request : Request) :
    let engine : Engine := ⟨schema, { settings with keyOrder := order }⟩
    let otherEngine : Engine := ⟨schema, { settings with keyOrder := other }⟩
    let response := (engine.execute request).response
    let otherResponse := (otherEngine.execute request).response
    (∃ errors, response = .refusal errors ∧ otherResponse = .refusal errors) ∨
      ∃ plan object, engine.prepare request = .ok plan ∧ plan.Fits schema object ∧
        ((response.data = some .null ∧ otherResponse.data = some .null) ∨
          ∃ entries others, response.data = some (.record entries) ∧
            otherResponse.data = some (.record others) ∧
            PlannedField.AgreeUpToOrder plan.fields entries others) ∧
        (response.errors = [] ↔ otherResponse.errors = []) := by
  intro engine otherEngine response otherResponse
  have alike : Alike (Plan.Corresponds id List.Perm) (engine.prepare request)
      (otherEngine.prepare request) :=
    @prepare_alike id List.Perm engine otherEngine schema.corresponds_self rfl
      (arranges_perm order other) request
  cases prepared : engine.prepare request with
  | error refusal =>
      rw [prepared] at alike
      generalize otherPrepared : otherEngine.prepare request = otherResult at alike
      cases alike
      left
      simp only [response, otherResponse, execute_refused prepared,
        execute_refused otherPrepared]
      exact ⟨refusal.errors, rfl, rfl⟩
  | ok plan =>
      rw [prepared] at alike
      generalize otherPrepared : otherEngine.prepare request = otherResult at alike
      cases alike with
      | ok corresponds =>
          obtain ⟨object, fits⟩ := fits_of_prepare prepared
          obtain ⟨data, errors⟩ := Schema.agree_execute fits corresponds settings.level
            (engine.rootContext request)
          refine .inr ⟨plan, object, rfl, fits, ?_⟩
          simp only [response, otherResponse, execute_prepared prepared,
            execute_prepared otherPrepared, List.map_eq_nil_iff]
          exact ⟨data, errors⟩

end StagedResolver
