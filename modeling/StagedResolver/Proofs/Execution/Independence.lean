/-
Siblings do not influence each other.

The keys of an object and the items of a list are completed in turn, each as it
would be alone.  Leaving some of them out leaves the others as they are, with their
errors and in their order, and a null goes up from all exactly when it goes up from
one of them.
-/
import StagedResolver.Execution.Basic
import StagedResolver.Proofs.Plan.Fit

namespace StagedResolver

def FieldError.isBelow (segments : List PathStep) (error : FieldError) : Bool :=
  match error.path with
  | [] => false
  | first :: _ => first ∈ segments

private theorem filter_label_mem {α β : Type} [DecidableEq β] {label : α → β} {chosen all : List α}
    (sublist : chosen.Sublist all) (distinct : (all.map label).Nodup) :
    (all.filter fun member => label member ∈ chosen.map label) = chosen := by
  induction sublist with
  | slnil => rfl
  | @cons chosen rest first sublist ih =>
      obtain ⟨fresh, restDistinct⟩ := List.nodup_cons.mp distinct
      have leftOut : label first ∉ chosen.map label := fun member =>
        fresh ((sublist.map label).subset member)
      simp only [List.filter_cons, leftOut, decide_false, Bool.false_eq_true, if_false]
      exact ih restDistinct
  | @cons_cons chosen rest first sublist ih =>
      obtain ⟨fresh, restDistinct⟩ := List.nodup_cons.mp distinct
      have sameRest : (rest.filter fun member => label member ∈ (first :: chosen).map label) =
          rest.filter fun member => label member ∈ chosen.map label := by
        apply List.filter_congr
        intro member isMember
        have other : label member ≠ label first := fun same =>
          fresh (same ▸ List.mem_map_of_mem isMember)
        simp only [List.map_cons, List.mem_cons, other, false_or]
      rw [List.filter_cons_of_pos (by simp), sameRest, ih restDistinct]

/-! ### Parts in turn -/

namespace Completion

variable {ι α : Type} {segment : ι → PathStep} {parts : List (ι × Completion α)}

/-- Completes labelled parts one after the other, each below the segment of its label.
A null that goes up ends them. -/
def inTurn (segment : ι → PathStep) :
    List (ι × Completion α) → Completion (List (ι × α))
  | [] => .ok []
  | (label, part) :: rest =>
      (part.under (segment label)).andThen fun value =>
        (inTurn segment rest).map fun others => (label, value) :: others

private theorem result_inTurn_cons (label : ι) (part : Completion α) :
    (inTurn segment ((label, part) :: parts)).result =
      part.result.bind fun value =>
        (inTurn segment parts).result.map fun others => (label, value) :: others := by
  cases found : part.result with
  | none => simp only [inTurn, andThen, under, found, Option.bind_none]
  | some value => simp only [inTurn, andThen, under, map, found, Option.bind_some]

/-- Parts have results together exactly when each has its own. -/
theorem result_inTurn_eq_some {results : List (ι × α)} :
    (inTurn segment parts).result = some results ↔
      List.Forall₂ (fun part entry => entry.1 = part.1 ∧ part.2.result = some entry.2)
        parts results := by
  induction parts generalizing results with
  | nil =>
      rw [List.forall₂_nil_left_iff]
      exact ⟨fun same => (Option.some.inj same).symm, fun same => congrArg some same.symm⟩
  | cons first rest ih =>
      obtain ⟨label, part⟩ := first
      rw [result_inTurn_cons, List.forall₂_cons_left_iff, Option.bind_eq_some_iff]
      constructor
      · rintro ⟨value, found, mapped⟩
        obtain ⟨others, restFound, rfl⟩ := Option.map_eq_some_iff.mp mapped
        exact ⟨(label, value), others, ⟨rfl, found⟩, ih.mp restFound, rfl⟩
      · rintro ⟨⟨otherLabel, value⟩, others, ⟨rfl, found⟩, restFound, rfl⟩
        exact ⟨value, found, Option.map_eq_some_iff.mpr ⟨others, ih.mpr restFound, rfl⟩⟩

/-- A null goes up from parts together exactly when it goes up from one of them. -/
theorem result_inTurn_eq_none :
    (inTurn segment parts).result = none ↔ ∃ part ∈ parts, part.2.result = none := by
  induction parts with
  | nil =>
      constructor
      · intro impossible
        cases impossible
      · rintro ⟨part, member, _⟩
        cases member
  | cons first rest ih =>
      obtain ⟨label, part⟩ := first
      rw [result_inTurn_cons, List.exists_mem_cons_iff, ← ih]
      cases part.result with
      | none => exact ⟨fun _ => .inl rfl, fun _ => rfl⟩
      | some value =>
          rw [Option.bind_some, Option.map_eq_none_iff]
          exact ⟨.inr, fun either => either.resolve_left nofun⟩

/-- The errors of a part, seen from where the parts are. -/
def errorsOf (segment : ι → PathStep) (part : ι × Completion α) : List FieldError :=
  part.2.errors.map (FieldError.under (segment part.1))

/-- Where no null goes up, the errors of the parts follow each other. -/
theorem errors_inTurn {results : List (ι × α)}
    (resolved : (inTurn segment parts).result = some results) :
    (inTurn segment parts).errors = parts.flatMap (errorsOf segment) := by
  induction parts generalizing results with
  | nil => rfl
  | cons first rest ih =>
      obtain ⟨label, part⟩ := first
      rw [result_inTurn_cons] at resolved
      obtain ⟨value, found, mapped⟩ := Option.bind_eq_some_iff.mp resolved
      obtain ⟨others, restResolved, _⟩ := Option.map_eq_some_iff.mp mapped
      simp only [inTurn, andThen, under, map, found, List.flatMap_cons, errorsOf]
      rw [ih restResolved]

private theorem filter_errorsOf [DecidableEq ι] (injective : segment.Injective) (labels : List ι) :
    (parts.flatMap (errorsOf segment)).filter (FieldError.isBelow (labels.map segment)) =
      (parts.filter fun part => part.1 ∈ labels).flatMap (errorsOf segment) := by
  induction parts with
  | nil => rfl
  | cons first rest ih =>
      obtain ⟨label, part⟩ := first
      have below : FieldError.isBelow (labels.map segment) ∘ FieldError.under (segment label) =
          fun _ => decide (label ∈ labels) := by
        funext error
        simp only [Function.comp_apply, FieldError.isBelow, FieldError.under,
          List.mem_map_of_injective injective]
      rw [List.flatMap_cons, List.filter_append, ih, errorsOf, List.filter_map, below]
      by_cases kept : label ∈ labels
      · simp only [List.filter_cons, kept, decide_true, if_true, List.filter_true,
          List.flatMap_cons, errorsOf]
      · simp only [List.filter_cons, kept, decide_false, Bool.false_eq_true, if_false,
          List.filter_false, List.map_nil, List.nil_append]

/-- Leaving parts out leaves the results and the errors of the others as they are. -/
theorem inTurn_of_sublist [DecidableEq ι] (injective : segment.Injective)
    {chosen : List (ι × Completion α)} {results : List (ι × α)}
    (sublist : chosen.Sublist parts) (distinct : (parts.map Prod.fst).Nodup)
    (resolved : (inTurn segment parts).result = some results) :
    (inTurn segment chosen).result =
        some (results.filter fun entry => entry.1 ∈ chosen.map Prod.fst) ∧
      (inTurn segment chosen).errors =
        (inTurn segment parts).errors.filter
          (FieldError.isBelow ((chosen.map Prod.fst).map segment)) := by
  have chosenAre := filter_label_mem sublist distinct
  have kept : (inTurn segment chosen).result =
      some (results.filter fun entry => entry.1 ∈ chosen.map Prod.fst) := by
    apply result_inTurn_eq_some.mpr
    rw [← chosenAre]
    refine List.rel_filter ?_ (result_inTurn_eq_some.mp resolved)
    rintro part entry ⟨sameLabel, _⟩
    simp only [chosenAre, sameLabel]
  refine ⟨kept, ?_⟩
  rw [errors_inTurn kept, errors_inTurn resolved, filter_errorsOf injective, chosenAre]

end Completion

namespace FieldPlace

variable {place : FieldPlace} {object : Value → Completion Value}

private theorem completeItems_eq_inTurn (complete : Value → Completion Value) (start : Nat)
    (items : List Value) :
    completeItems complete start items =
      (Completion.inTurn .index ((items.zipIdx start).map fun item =>
        (item.2, complete item.1))).map (List.map Prod.snd) := by
  induction items generalizing start with
  | nil => rfl
  | cons item rest ih =>
      rw [completeItems, ih]
      simp only [List.zipIdx_cons, List.map_cons, Completion.inTurn, Completion.andThen,
        Completion.under, Completion.map]
      cases (complete item).result with
      | none => rfl
      | some value =>
          simp only [Option.map_map]
          rfl

private theorem exists_result_whenPresent {next : Value → Completion Value}
    (each : ∀ found, ∃ result, (next found).result = some result) (value : Value) :
    ∃ result, (place.whenPresent false value next).result = some result := by
  simp only [whenPresent]
  split
  · exact ⟨.null, rfl⟩
  · exact ⟨.absent, rfl⟩
  · exact each _

private theorem exists_result_complete {shape : Shape} (nullable : shape.required = false)
    (value : Value) : ∃ result, (place.complete object shape value).result = some result := by
  have settled (completion : Completion Value) :
      ∃ result, (completion.settle false).result = some result :=
    ⟨_, by rw [completion.settle_false]⟩
  cases shape with
  | scalar leaf required =>
      cases nullable
      refine exists_result_whenPresent (fun found => ?_) value
      simp only [completeScalar]
      split
      · exact ⟨_, rfl⟩
      · exact settled _
  | object id required =>
      cases nullable
      refine exists_result_whenPresent (fun found => ?_) value
      simp only [completeObject]
      split
      · exact settled _
      · exact settled _
  | list item required =>
      cases nullable
      refine exists_result_whenPresent (fun found => ?_) value
      split
      · exact settled _
      · exact settled _

section Items

variable {complete : Value → Completion Value} {items results : List Value}

private theorem exists_results_completeItems
    (each : ∀ element ∈ items, (complete element).result ≠ none) :
    ∃ results, (completeItems complete 0 items).result = some results := by
  rw [completeItems_eq_inTurn, Completion.map]
  cases resolved : (Completion.inTurn PathStep.index (items.zipIdx.map fun item =>
      (item.2, complete item.1))).result with
  | none =>
      obtain ⟨part, member, noResult⟩ := Completion.result_inTurn_eq_none.mp resolved
      obtain ⟨item, itemMember, rfl⟩ := List.mem_map.mp member
      exact absurd noResult (each item.1 (List.fst_mem_of_mem_zipIdx itemMember))
  | some labelled => exact ⟨_, rfl⟩

/-- Items that are completed together have the results that they have alone. -/
theorem forall₂_of_completeItems
    (resolved : (completeItems complete 0 items).result = some results) :
    List.Forall₂ (fun element result => (complete element).result = some result) items
      results := by
  rw [completeItems_eq_inTurn] at resolved
  obtain ⟨labelled, together, rfl⟩ := Option.map_eq_some_iff.mp resolved
  have each := Completion.result_inTurn_eq_some.mp together
  rw [List.forall₂_map_left_iff] at each
  rw [← items.zipIdx_map_fst, List.forall₂_map_left_iff, List.forall₂_map_right_iff]
  exact each.imp fun _ _ both => both.2

private theorem filter_errors_completeItems {index : Nat} {element : Value}
    (resolved : (completeItems complete 0 items).result = some results)
    (atIndex : items[index]? = some element) :
    (completeItems complete 0 items).errors.filter (FieldError.isBelow [.index index]) =
      (complete element).errors.map (FieldError.under (.index index)) := by
  rw [completeItems_eq_inTurn] at resolved ⊢
  obtain ⟨labelled, together, _⟩ := Option.map_eq_some_iff.mp resolved
  have distinct : ((items.zipIdx.map fun item => (item.2, complete item.1)).map
      Prod.fst).Nodup := by
    rw [List.map_map]
    show (items.zipIdx.map Prod.snd).Nodup
    rw [List.zipIdx_map_snd]
    exact List.nodup_range' 1
  have alone : [(index, complete element)].Sublist
      (items.zipIdx.map fun item => (item.2, complete item.1)) :=
    List.singleton_sublist.mpr
      (List.mem_map.mpr ⟨(element, index), List.mk_mem_zipIdx_iff_getElem?.mpr atIndex, rfl⟩)
  obtain ⟨aloneResolved, errorsAre⟩ :=
    Completion.inTurn_of_sublist (fun _ _ => PathStep.index.inj) alone distinct together
  rw [Completion.errors_inTurn aloneResolved, List.flatMap_singleton] at errorsAre
  exact errorsAre.symm

end Items

private theorem complete_list {item : Shape} {required : Bool} {value : Value} {items : List Value}
    (itemsAre : value.stripped = .sequence items) :
    place.complete object (.list item required) value =
      ((completeItems (place.complete object item) 0 items).map Value.sequence).settle
        required := by
  simp only [complete, whenPresent, itemsAre]

/-- A list whose items may be null has as many items as the value, each of them, with
the errors below it, as it is completed alone. -/
theorem complete_list_of_nullable {item : Shape} (nullable : item.required = false)
    {required : Bool} {value : Value} {items : List Value}
    (itemsAre : value.stripped = .sequence items) :
    ∃ results, (place.complete object (.list item required) value).result =
        some (.sequence results) ∧
      results.length = items.length ∧
      ∀ index element, items[index]? = some element →
        results[index]? = (place.complete object item element).result ∧
          (place.complete object (.list item required) value).errors.filter
              (FieldError.isBelow [.index index]) =
            (place.complete object item element).errors.map
              (FieldError.under (.index index)) := by
  have each (element : Value) (_ : element ∈ items) :
      (place.complete object item element).result ≠ none := by
    obtain ⟨result, found⟩ := @exists_result_complete place object item nullable element
    rw [found]
    exact nofun
  obtain ⟨results, resolved⟩ := exists_results_completeItems each
  have wrapped : ((completeItems (place.complete object item) 0 items).map
      Value.sequence).result = some (.sequence results) := by
    rw [Completion.map, resolved, Option.map_some]
  have apart := forall₂_of_completeItems resolved
  rw [complete_list itemsAre, Completion.settle_of_some wrapped]
  refine ⟨results, wrapped, apart.length_eq.symm, fun index element atIndex => ⟨?_, ?_⟩⟩
  · obtain ⟨inItems, rfl⟩ := List.getElem?_eq_some_iff.mp atIndex
    have inResults : index < results.length := apart.length_eq ▸ inItems
    rw [List.getElem?_eq_getElem inResults]
    exact (apart.get inItems inResults).symm
  · exact filter_errors_completeItems resolved atIndex

end FieldPlace

/-! ### Keys of objects -/

namespace Schema

variable {schema : Schema} {level : ReportLevel} {object : ObjectType} {context : Context}
variable {fields chosen : List PlannedField}

theorem resolveFields_eq_inTurn (fields : List PlannedField) :
    schema.resolveFields level object context fields =
      Completion.inTurn .key (fields.map fun planned =>
        (planned.key, schema.resolveField level object context planned)) := by
  induction fields with
  | nil =>
      rw [resolveFields]
      rfl
  | cons planned rest ih =>
      rw [resolveFields, ih]
      rfl

private theorem result_resolveFields_eq_none :
    (schema.resolveFields level object context fields).result = none ↔
      ∃ planned ∈ fields,
        (schema.resolveFields level object context [planned]).result = none := by
  simp only [resolveFields_eq_inTurn, Completion.result_inTurn_eq_none]
  constructor
  · rintro ⟨part, member, noResult⟩
    obtain ⟨planned, isPlanned, rfl⟩ := List.mem_map.mp member
    exact ⟨planned, isPlanned, _, List.mem_singleton_self _, noResult⟩
  · rintro ⟨planned, isPlanned, part, member, noResult⟩
    rw [List.mem_singleton.mp member] at noResult
    exact ⟨_, List.mem_map_of_mem isPlanned, noResult⟩

/-- Fields that are left out change nothing for the others. -/
theorem resolveFields_of_sublist {entries : Record} (sublist : chosen.Sublist fields)
    (distinct : (fields.map PlannedField.key).Nodup)
    (resolved : (schema.resolveFields level object context fields).result = some entries) :
    (schema.resolveFields level object context chosen).result =
        some (entries.filter fun entry => entry.1 ∈ chosen.map PlannedField.key) ∧
      (schema.resolveFields level object context chosen).errors =
        (schema.resolveFields level object context fields).errors.filter
          (FieldError.isBelow (chosen.map fun planned => .key planned.key)) := by
  have labels (fields : List PlannedField) : (fields.map fun planned =>
      (planned.key, schema.resolveField level object context planned)).map Prod.fst =
        fields.map PlannedField.key := by
    rw [List.map_map]
    rfl
  rw [resolveFields_eq_inTurn] at resolved
  rw [← labels] at distinct
  have both := Completion.inTurn_of_sublist (fun _ _ => PathStep.key.inj)
    (sublist.map _) distinct resolved
  rw [labels, List.map_map] at both
  simp only [resolveFields_eq_inTurn]
  exact both

variable {plan : Plan}

theorem execute_of_object? (objectIs : schema.object? plan.object = some object) :
    schema.execute level plan context =
      ((schema.resolveFields level object context plan.fields).map Value.record).settle
        false := by
  simp only [execute, objectIs]

theorem result_execute_eq_record_iff (objectIs : schema.object? plan.object = some object)
    {entries : Record} :
    (schema.execute level plan context).result = some (.record entries) ↔
      (schema.resolveFields level object context plan.fields).result = some entries := by
  rw [execute_of_object? objectIs, Completion.settle_false]
  cases found : (schema.resolveFields level object context plan.fields).result with
  | none =>
      simp only [Completion.map, found, Option.map_none]
      constructor
      · intro impossible
        cases impossible
      · intro impossible
        cases impossible
  | some others =>
      simp only [Completion.map, found, Option.map_some, Option.getD_some]
      constructor
      · intro same
        cases same
        rfl
      · intro same
        cases same
        rfl

theorem result_execute_eq_null_iff (objectIs : schema.object? plan.object = some object) :
    (schema.execute level plan context).result = some .null ↔
      (schema.resolveFields level object context plan.fields).result = none := by
  rw [execute_of_object? objectIs, Completion.settle_false]
  cases found : (schema.resolveFields level object context plan.fields).result with
  | none => simp only [Completion.map, found, Option.map_none, Option.getD_none]
  | some others =>
      simp only [Completion.map, found, Option.map_some, Option.getD_some]
      constructor
      · intro impossible
        cases impossible
      · intro impossible
        cases impossible

theorem errors_execute (objectIs : schema.object? plan.object = some object) :
    (schema.execute level plan context).errors =
      (schema.resolveFields level object context plan.fields).errors := by
  rw [execute_of_object? objectIs, Completion.errors_settle]
  rfl

/-- Executing some of the fields of a plan, in their order, gives what executing all of
them does under their keys, data and errors alike; a null goes up from all fields exactly
when it goes up from a single one; and in a list whose items may be null each item is
completed as it would be alone. -/
theorem execute_of_sublist {scope : PlanScope} {allowance : Nat} {id : ObjectIndex}
    {lists : List (List Selection)} {plan : Plan}
    (planned : scope.planSelections allowance id lists = .ok plan) (level : ReportLevel)
    (context : Context) :
    (∀ fields entries, fields.Sublist plan.fields →
      (scope.schema.execute level plan context).result = some (.record entries) →
        (scope.schema.execute level ⟨plan.object, fields⟩ context).result =
            some (.record (entries.filter fun entry =>
              entry.1 ∈ fields.map PlannedField.key)) ∧
          (scope.schema.execute level ⟨plan.object, fields⟩ context).errors =
            (scope.schema.execute level plan context).errors.filter
              (FieldError.isBelow (fields.map fun field => .key field.key))) ∧
      ((scope.schema.execute level plan context).result = some .null ↔
        ∃ field ∈ plan.fields,
          (scope.schema.execute level ⟨plan.object, [field]⟩ context).result =
            some .null) ∧
      ∀ (place : FieldPlace) (object : Value → Completion Value) (item : Shape)
        (required : Bool) (value : Value) (items : List Value), item.required = false →
          value.stripped = .sequence items →
            ∃ results, (place.complete object (.list item required) value).result =
                some (.sequence results) ∧
              results.length = items.length ∧
              ∀ index element, items[index]? = some element →
                results[index]? = (place.complete object item element).result ∧
                  (place.complete object (.list item required) value).errors.filter
                      (FieldError.isBelow [.index index]) =
                    (place.complete object item element).errors.map
                      (FieldError.under (.index index)) := by
  obtain ⟨_, object, fits⟩ := scope.planSelections_fits allowance id lists plan planned
  refine ⟨fun fields entries sublist resolved => ?_, ?_, ?_⟩
  · rw [result_execute_eq_record_iff fits.found] at resolved
    have objectIs : scope.schema.object? (⟨plan.object, fields⟩ : Plan).object = some object :=
      fits.found
    rw [result_execute_eq_record_iff objectIs, errors_execute objectIs,
      errors_execute fits.found]
    exact resolveFields_of_sublist sublist fits.distinct resolved
  · have alone (field : PlannedField) :
        (scope.schema.execute level ⟨plan.object, [field]⟩ context).result = some .null ↔
          (scope.schema.resolveFields level object context [field]).result = none :=
      result_execute_eq_null_iff fits.found
    rw [result_execute_eq_null_iff fits.found, result_resolveFields_eq_none]
    simp only [alone]
  · intro place object item required value items nullable itemsAre
    exact FieldPlace.complete_list_of_nullable nullable itemsAre

end Schema

def Selection.ofHeroesTwice : List Selection :=
  let name : Selection := .field ⟨none, ⟨"name", ⟨1, 12⟩⟩, [], []⟩ []
  [.field ⟨none, ⟨"heroes", ⟨1, 3⟩⟩, [], []⟩ [name],
    .field ⟨some ⟨"again", ⟨1, 20⟩⟩, ⟨"heroes", ⟨1, 27⟩⟩, [], []⟩ [name]]

def PlannedField.ofHeroesAgain : PlannedField :=
  .composite "again" ⟨1, 27⟩ "heroes" [] 1 [.leaf "name" ⟨1, 12⟩ "name" []]

def Plan.ofHeroesTwice : Plan :=
  ⟨0, [.composite "heroes" ⟨1, 3⟩ "heroes" [] 1 [.leaf "name" ⟨1, 12⟩ "name" []],
    .ofHeroesAgain]⟩

theorem Schema.execute_of_sublist_ofHeroes :
    PlanScope.ofHeroes.planSelections 4 0 [Selection.ofHeroesTwice] = .ok .ofHeroesTwice ∧
      [PlannedField.ofHeroesAgain].Sublist Plan.ofHeroesTwice.fields ∧
      (Schema.ofHeroes.execute .off ⟨0, [.ofHeroesAgain]⟩ .ofHeroes).result =
        some (.record [("again", .sequence
          [.record [("name", .string "first")], .null, .null])]) ∧
      (Schema.ofHeroes.execute .off ⟨0, [.ofHeroesAgain]⟩ .ofHeroes).errors =
        (Schema.ofHeroes.execute .off .ofHeroesTwice .ofHeroes).errors.filter
          (FieldError.isBelow [.key "again"]) ∧
      (Schema.ofHeroes.execute .off .ofHeroesTwice .ofHeroes).errors.map FieldError.path =
        [[.key "heroes", .index 1, .key "name"], [.key "again", .index 1, .key "name"]] := by
  have planned : PlanScope.ofHeroes.planSelections 4 0 [Selection.ofHeroesTwice] =
      .ok .ofHeroesTwice := rfl
  have sublist : [PlannedField.ofHeroesAgain].Sublist Plan.ofHeroesTwice.fields :=
    List.singleton_sublist.mpr (List.mem_cons_of_mem _ (List.mem_singleton_self _))
  obtain ⟨dataIs, errorsAre⟩ :=
    (execute_of_sublist planned .off .ofHeroes).1 _ _ sublist rfl
  exact ⟨planned, sublist, dataIs, errorsAre, rfl⟩

end StagedResolver
