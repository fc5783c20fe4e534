/-
Plans in documents with further fragments.

A plan says nothing of fragments that its selections do not lead to, so that it stays the
same when a document defines more of them.
-/
import StagedResolver.Proofs.Plan.Merging

namespace StagedResolver

namespace PlanScope

def withFragments (scope : PlanScope) (fragments : OrderedMap Fragment) : PlanScope :=
  { scope with fragments := fragments }

/-- Whether the fragments of a scope are all defined, and the same, among others. -/
def KnownIn (scope : PlanScope) (more : OrderedMap Fragment) : Prop :=
  ∀ name fragment, scope.fragments.find? name = some fragment → more.find? name = some fragment

section WithFragments

variable {scope : PlanScope} {object : ObjectType} {more : OrderedMap Fragment}
variable {selection : Selection} {selections : List Selection}
variable {occurrences : List Occurrence}
variable (known : scope.KnownIn more)

include known

private theorem counts_withFragments {counted : Bool}
    (decided : scope.counts object selection = .ok counted) :
    (scope.withFragments more).counts object selection = .ok counted := by
  cases selection with
  | field node selections => exact decided
  | inline condition directives selections => exact decided
  | spread name directives =>
      obtain ⟨admitted, isAdmitted, decided⟩ := bind_eq_ok.mp decided
      refine bind_eq_ok.mpr ⟨admitted, isAdmitted, ?_⟩
      cases admitted with
      | false => exact decided
      | true =>
          cases found : scope.fragments.find? name.item with
          | none =>
              simp only [found] at decided
              cases decided
          | some fragment =>
              simp only [found] at decided
              simp only [withFragments, known name.item fragment found]
              exact decided

private theorem contentOf_withFragments (counted : scope.counts object selection = .ok true) :
    (scope.withFragments more).contentOf selection = scope.contentOf selection := by
  cases selection with
  | field node selections => rfl
  | inline condition directives selections => rfl
  | spread name directives =>
      cases found : scope.fragments.find? name.item with
      | none =>
          obtain ⟨_, fragment, isFragment, _⟩ := (counts_eq_ok counted).mp rfl
          rw [found] at isFragment
          cases isFragment
      | some fragment =>
          simp only [contentOf, withFragments, found, known name.item fragment found]

theorem ComesTo.withFragments (comesTo : scope.ComesTo object selections occurrences) :
    (scope.withFragments more).ComesTo object selections occurrences := by
  induction comesTo with
  | nil => exact .nil
  | field decided _ ih => exact .field (counts_withFragments known decided) ih
  | fragment isFragment decided _ _ ihEntered ih =>
      refine .fragment isFragment (counts_withFragments known decided) ?_ ih
      rw [contentOf_withFragments known decided]
      exact ihEntered
  | keptOut decided _ ih => exact .keptOut (counts_withFragments known decided) ih

omit known in
theorem Places.withFragments {planInner other : ObjectIndex → List Selection → Plan → Prop}
    {key : String} {first : FieldNode} {placed : PlacedPlan}
    (places : scope.Places planInner object key first selections placed)
    (plans : ∀ inner plan, planInner inner selections plan → other inner selections plan) :
    (scope.withFragments more).Places other object key first selections placed := by
  cases places with
  | typename isTypename nothing => exact .typename isTypename nothing
  | leaf isField placeIs fieldIs argumentsAre noObject nothing =>
      exact .leaf isField placeIs fieldIs argumentsAre noObject nothing
  | composite isField placeIs fieldIs argumentsAre ofObject something planned =>
      exact .composite isField placeIs fieldIs argumentsAre ofObject something
        (plans _ _ planned)

/-- A plan stays the same when further fragments are defined. -/
theorem PlansTo.withFragments {id : ObjectIndex} {plan : Plan}
    (plansTo : scope.PlansTo id selections plan) :
    (scope.withFragments more).PlansTo id selections plan := by
  obtain ⟨allowance, planned⟩ := plansTo
  induction allowance generalizing id selections plan with
  | zero => cases planned
  | succ allowance ih =>
      obtain ⟨object, occurrences, placed, objectIs, comesTo, groupsPlanned, planIs⟩ :=
        planned_groups planned
      refine plansTo_iff.mpr
        ⟨object, occurrences, placed, objectIs, comesTo.withFragments known, ?_, planIs⟩
      rw [← keys_groupsOf, Entries.keys, List.forall₂_map_left_iff]
      apply forall₂_imp_of_mem groupsPlanned
      intro group member one groupPlanned
      have ofGroup := occurrences_of_mem_groupsOf member
      obtain ⟨agree, places⟩ := planGroup_eq_ok.mp groupPlanned
      refine ⟨group.2, Group.ofOccurrences?_eq_some.mpr ofGroup.symm, agree, ?_⟩
      rw [← ofGroup]
      exact places.withFragments fun inner plan innerPlanned => ih innerPlanned

end WithFragments

end PlanScope

end StagedResolver
