/-
Selections written in other ways.

What is selected on a field may be spread over several occurrences of the field, and any
selections may be moved into a fragment that counts.  Selections written so have the plan that
they had, and no other.  They have none where the first occurrence of a key is spread and its
arguments do not agree with themselves.
-/
import StagedResolver.Proofs.Document.Agreement
import StagedResolver.Proofs.Document.Filling
import StagedResolver.Proofs.Plan.Merging

namespace StagedResolver

private theorem occurrencesOf_append (key : String) (first second : List Occurrence) :
    occurrencesOf key (first ++ second) =
      occurrencesOf key first ++ occurrencesOf key second :=
  List.filter_append ..

private theorem occurrencesOf_cons_of_eq {key : String} {node : FieldNode}
    (same : node.responseKey = key) (selections : List Selection)
    (occurrences : List Occurrence) :
    occurrencesOf key (⟨node, selections⟩ :: occurrences) =
      ⟨node, selections⟩ :: occurrencesOf key occurrences :=
  List.filter_cons_of_pos (decide_eq_true same)

private theorem occurrencesOf_cons_of_ne {key : String} {node : FieldNode}
    (different : node.responseKey ≠ key) (selections : List Selection)
    (occurrences : List Occurrence) :
    occurrencesOf key (⟨node, selections⟩ :: occurrences) = occurrencesOf key occurrences :=
  List.filter_cons_of_neg (mt of_decide_eq_true different)

private theorem occurrencesOf_eq_nil {key : String} {occurrences : List Occurrence} :
    occurrencesOf key occurrences = [] ↔ ∀ occurrence ∈ occurrences, occurrence.key ≠ key := by
  rw [occurrencesOf, List.filter_eq_nil_iff]
  simp only [decide_eq_true_eq, ne_eq]

private theorem firstKeys_insert {before after : List Occurrence} {occurrence : Occurrence}
    (known : occurrence.key ∈ before.map Occurrence.key) :
    firstKeys (before ++ occurrence :: after) = firstKeys (before ++ after) := by
  have dropped :
      (occurrence.key :: after.map Occurrence.key).removeAll (before.map Occurrence.key) =
        (after.map Occurrence.key).removeAll (before.map Occurrence.key) := by
    simp only [List.removeAll, List.elem_eq_mem]
    exact List.filter_cons_of_neg (by simpa using known)
  simp only [firstKeys, List.map_append, List.map_cons, List.eraseDups_append, dropped]

def nodesOf (key : String) (occurrences : List Occurrence) : List FieldNode :=
  (occurrencesOf key occurrences).map Occurrence.node

private theorem nodesOf_middle {key : String} {node : FieldNode} (same : node.responseKey = key)
    (front back : List Occurrence) (selections : List Selection) :
    nodesOf key (front ++ ⟨node, selections⟩ :: back) =
      nodesOf key front ++ node :: nodesOf key back := by
  rw [nodesOf, occurrencesOf_append, occurrencesOf_cons_of_eq same, List.map_append]
  rfl

private theorem selectionsOf_middle {key : String} {node : FieldNode}
    (same : node.responseKey = key) (front back : List Occurrence)
    (selections : List Selection) :
    selectionsOf (occurrencesOf key (front ++ ⟨node, selections⟩ :: back)) =
      selectionsOf (occurrencesOf key front) ++
        (selections ++ selectionsOf (occurrencesOf key back)) := by
  rw [occurrencesOf_append, occurrencesOf_cons_of_eq same, selectionsOf, List.flatMap_append,
    List.flatMap_cons]
  rfl

/-- The name of the field that a node selects, and the arguments that it gives. -/
def FieldNode.asks (node : FieldNode) : String × List (String × InputValue) :=
  (node.name.item,
    node.arguments.map fun argument => (argument.name.item, argument.value.item))

namespace FieldNode

variable {node left right : FieldNode}

def given (node : FieldNode) : Entries InputValue := node.asks.2

private theorem find?_given (name : String) :
    node.given.find? name = (argumentNamed? name node.arguments).map Located.item := by
  unfold given asks
  induction node.arguments with
  | nil => rfl
  | cons argument rest ih =>
      rw [argumentNamed?_cons, List.map_cons, Entries.find?, ih]
      by_cases same : argument.name.item = name
      · rw [if_pos same, if_pos same, Option.map_some]
      · rw [if_neg same, if_neg same]

/-- The arguments are counted, and each on the left is looked up on the right. -/
theorem argumentsAgree_iff : left.argumentsAgree right = true ↔
    left.given.length = right.given.length ∧
      ∀ entry ∈ left.given, ∃ other, right.given.find? entry.1 = some other ∧
        other.Agrees entry.2 := by
  have sameLength (node : FieldNode) : node.given.length = node.arguments.length :=
    List.length_map _
  have entries : left.given = left.arguments.map fun argument =>
    (argument.name.item, argument.value.item) := rfl
  rw [argumentsAgree, Bool.and_eq_true, beq_iff_eq, List.all_eq_true, sameLength, sameLength,
    entries, List.forall_mem_map]
  refine and_congr_right fun _ => forall₂_congr fun argument _ => ?_
  rw [find?_given]
  cases argumentNamed? argument.name.item right.arguments with
  | none => simp
  | some other => simp [InputValue.Agrees]

private theorem argumentsAgree_congr {first other : FieldNode} (same : other.asks = node.asks) :
    first.argumentsAgree other = first.argumentsAgree node := by
  have sameGiven : other.given = node.given := congrArg Prod.snd same
  rw [Bool.eq_iff_iff, argumentsAgree_iff, argumentsAgree_iff, sameGiven]

end FieldNode

theorem FieldNode.conflict?_eq_none {key : String} {first other : FieldNode} :
    first.conflict? key other = none ↔
      other.name.item = first.name.item ∧ first.argumentsAgree other = true := by
  simp only [conflict?]
  by_cases sameName : other.name.item = first.name.item
  · simp [sameName]
  · simp [sameName]

theorem FieldNode.conflict?_eq_none_congr {key : String} {first node other : FieldNode}
    (same : other.asks = node.asks) :
    first.conflict? key other = none ↔ first.conflict? key node = none := by
  have sameName : other.name.item = node.name.item := congrArg Prod.fst same
  rw [conflict?_eq_none, conflict?_eq_none, argumentsAgree_congr same, sameName]

namespace PlanScope

variable {scope : PlanScope} {id : ObjectIndex} {object : ObjectType}

theorem plansKey_iff_nodes {occurrences : List Occurrence} {key : String}
    {placed : PlacedPlan} :
    scope.PlansKey object occurrences key placed ↔
      ∃ first others, nodesOf key occurrences = first :: others ∧
        (∀ other ∈ others, first.conflict? key other = none) ∧
          scope.Places scope.PlansTo object key first
            (selectionsOf (occurrencesOf key occurrences)) placed := by
  constructor
  · rintro ⟨group, groupIs, agree, places⟩
    have occurrencesAre := Group.ofOccurrences?_eq_some.mp groupIs
    refine ⟨group.first.node, group.others.map Occurrence.node, ?_, ?_, places⟩
    · rw [nodesOf, occurrencesAre]
      rfl
    · exact List.forall_mem_map.mpr (List.findSome?_eq_none_iff.mp agree)
  · rintro ⟨_, _, nodesAre, agree, places⟩
    obtain ⟨first, others, occurrencesAre, rfl, rfl⟩ := List.map_eq_cons_iff.mp nodesAre
    refine ⟨⟨first, others⟩, Group.ofOccurrences?_eq_some.mpr occurrencesAre, ?_, places⟩
    exact List.findSome?_eq_none_iff.mpr (List.forall_mem_map.mp agree)

/-! ### In the place of other selections -/

/-- Whether selections can be replaced wherever they stand, without a plan being lost or
changed. -/
structure Replaceable (scope : PlanScope) (id : ObjectIndex)
    (selections replacement : List Selection) : Prop where
  empty_iff : selections = [] ↔ replacement = []
  plansTo : ∀ before after plan, scope.PlansTo id (before ++ selections ++ after) plan →
    scope.PlansTo id (before ++ replacement ++ after) plan

section Replaceable

variable {selections replacement last : List Selection}

theorem Replaceable.refl (selections : List Selection) :
    scope.Replaceable id selections selections :=
  ⟨.rfl, fun _ _ _ planned => planned⟩

theorem Replaceable.trans (first : scope.Replaceable id selections replacement)
    (second : scope.Replaceable id replacement last) : scope.Replaceable id selections last :=
  ⟨first.empty_iff.trans second.empty_iff, fun before after plan planned =>
    second.plansTo before after plan (first.plansTo before after plan planned)⟩

theorem Replaceable.within (replaceable : scope.Replaceable id selections replacement)
    (before after : List Selection) :
    scope.Replaceable id (before ++ selections ++ after) (before ++ replacement ++ after) where
  empty_iff := by
    simp only [List.append_eq_nil_iff, replaceable.empty_iff]
  plansTo further more plan planned := by
    have regroup (middle : List Selection) :
        further ++ (before ++ middle ++ after) ++ more =
          (further ++ before) ++ middle ++ (after ++ more) := by
      simp only [List.append_assoc]
    rw [regroup] at planned ⊢
    exact replaceable.plansTo _ _ plan planned

/-- A plan is kept when selections are replaced by such as come to occurrences under the
same keys that are planned the same. -/
theorem PlansTo.replace {before after : List Selection} {plan : Plan}
    (planned : scope.PlansTo id (before ++ selections ++ after) plan)
    (objectIs : scope.schema.object? id = some object)
    (comesTo : ∀ occurrences, scope.ComesTo object selections occurrences →
      ∃ others, scope.ComesTo object replacement others ∧
        ∀ front back, scope.ComesTo object before front →
          firstKeys (front ++ occurrences ++ back) = firstKeys (front ++ others ++ back) ∧
            ∀ key placed, scope.PlansKey object (front ++ occurrences ++ back) key placed →
              scope.PlansKey object (front ++ others ++ back) key placed) :
    scope.PlansTo id (before ++ replacement ++ after) plan := by
  obtain ⟨found, all, placed, foundIs, allComeTo, keysPlanned, planIs⟩ :=
    plansTo_iff.mp planned
  rw [objectIs] at foundIs
  cases foundIs
  obtain ⟨most, back, rfl, mostComeTo, backComesTo⟩ := Expands.of_append allComeTo
  obtain ⟨front, occurrences, rfl, frontComesTo, selectedComeTo⟩ :=
    Expands.of_append mostComeTo
  obtain ⟨others, othersComeTo, around⟩ := comesTo occurrences selectedComeTo
  obtain ⟨sameKeys, sameKeysPlanned⟩ := around front back frontComesTo
  refine plansTo_iff.mpr ⟨object, front ++ others ++ back, placed, objectIs,
    (frontComesTo.append othersComeTo).append backComesTo, ?_, planIs⟩
  rw [← sameKeys]
  exact keysPlanned.imp sameKeysPlanned

private theorem PlansTo.replace_of_comesTo {before after : List Selection} {plan : Plan}
    (planned : scope.PlansTo id (before ++ selections ++ after) plan)
    (objectIs : scope.schema.object? id = some object)
    (comesTo : ∀ occurrences, scope.ComesTo object selections occurrences →
      scope.ComesTo object replacement occurrences) :
    scope.PlansTo id (before ++ replacement ++ after) plan :=
  planned.replace objectIs fun occurrences selectedComeTo =>
    ⟨occurrences, comesTo occurrences selectedComeTo, fun _ _ _ =>
      ⟨rfl, fun _ _ keyPlanned => keyPlanned⟩⟩

end Replaceable

private theorem comesTo_fragment_iff {fragment : Selection} {occurrences : List Occurrence}
    (isFragment : fragment.IsFragment) (counted : scope.counts object fragment = .ok true) :
    scope.ComesTo object [fragment] occurrences ↔
      scope.ComesTo object (scope.contentOf fragment) occurrences := by
  constructor
  · intro comesTo
    cases comesTo with
    | field => cases isFragment
    | fragment _ _ entered further =>
        cases further
        rw [List.append_nil]
        exact entered
    | keptOut keptOut further =>
        rw [counted] at keptOut
        cases keptOut
  · intro entered
    rw [← List.append_nil occurrences]
    exact .fragment isFragment counted entered .nil

private theorem comesTo_field_iff {node : FieldNode} {selected rest : List Selection}
    {occurrences : List Occurrence}
    (admitted : scope.assignment.admitsAll node.directives = .ok true) :
    scope.ComesTo object (.field node selected :: rest) occurrences ↔
      ∃ further, occurrences = ⟨node, selected⟩ :: further ∧
        scope.ComesTo object rest further := by
  constructor
  · intro comesTo
    cases comesTo with
    | field _ further => exact ⟨_, rfl, further⟩
    | fragment isFragment => cases isFragment
    | keptOut decided => cases admitted.symm.trans decided
  · rintro ⟨further, rfl, comesTo⟩
    exact .field admitted comesTo

section Fragments

variable {fragment : Selection} {before after : List Selection} {plan : Plan}

private theorem PlansTo.intoFragment
    (planned : scope.PlansTo id (before ++ scope.contentOf fragment ++ after) plan)
    (objectIs : scope.schema.object? id = some object) (isFragment : fragment.IsFragment)
    (counted : scope.counts object fragment = .ok true) :
    scope.PlansTo id (before ++ [fragment] ++ after) plan :=
  planned.replace_of_comesTo objectIs fun _ comesTo =>
    (comesTo_fragment_iff isFragment counted).mpr comesTo

private theorem PlansTo.outOfFragment
    (planned : scope.PlansTo id (before ++ [fragment] ++ after) plan)
    (objectIs : scope.schema.object? id = some object) (isFragment : fragment.IsFragment)
    (counted : scope.counts object fragment = .ok true) :
    scope.PlansTo id (before ++ scope.contentOf fragment ++ after) plan :=
  planned.replace_of_comesTo objectIs fun _ comesTo =>
    (comesTo_fragment_iff isFragment counted).mp comesTo

private theorem replaceable_by_fragment (objectIs : scope.schema.object? id = some object)
    (isFragment : fragment.IsFragment) (counted : scope.counts object fragment = .ok true)
    (something : scope.contentOf fragment ≠ []) :
    scope.Replaceable id (scope.contentOf fragment) [fragment] :=
  ⟨⟨fun nothing => absurd nothing something, nofun⟩,
    fun _ _ _ planned => planned.intoFragment objectIs isFragment counted⟩

private theorem fragment_replaceable (objectIs : scope.schema.object? id = some object)
    (isFragment : fragment.IsFragment) (counted : scope.counts object fragment = .ok true)
    (something : scope.contentOf fragment ≠ []) :
    scope.Replaceable id [fragment] (scope.contentOf fragment) :=
  ⟨⟨nofun, fun nothing => absurd nothing something⟩,
    fun _ _ _ planned => planned.outOfFragment objectIs isFragment counted⟩

private theorem Replaceable.inFragment {selections replacement : List Selection}
    (replaceable : scope.Replaceable id selections replacement)
    (condition : Option (Located String)) (directives : List Directive) :
    scope.Replaceable id [.inline condition directives selections]
      [.inline condition directives replacement] := by
  refine ⟨⟨nofun, nofun⟩, fun before after plan planned => ?_⟩
  obtain ⟨object, _, _, objectIs, _⟩ := plansTo_iff.mp planned
  have sameCounts : scope.counts object (.inline condition directives replacement) =
      scope.counts object (.inline condition directives selections) := rfl
  cases counted : scope.counts object (.inline condition directives selections) with
  | ok counts =>
      cases counts with
      | true =>
          have opened := planned.outOfFragment objectIs trivial counted
          exact (replaceable.plansTo _ _ _ opened).intoFragment objectIs trivial
            (sameCounts.trans counted)
      | false =>
          refine planned.replace_of_comesTo objectIs fun occurrences comesTo => ?_
          cases comesTo with
          | fragment _ decided => cases counted.symm.trans decided
          | keptOut decided further => exact .keptOut (sameCounts.trans decided) further
  | error fault =>
      refine planned.replace_of_comesTo objectIs fun occurrences comesTo => ?_
      cases comesTo with
      | fragment _ decided => cases counted.symm.trans decided
      | keptOut decided => cases counted.symm.trans decided

end Fragments

/-- A key is planned the same when it has the same first node, all its nodes agree with
that one, and what is selected on it has the same plans. -/
theorem PlansKey.replace {occurrences others : List Occurrence} {key : String}
    {placed : PlacedPlan} (planned : scope.PlansKey object occurrences key placed)
    (agree : ∀ first rest, nodesOf key occurrences = first :: rest →
      (∀ other ∈ rest, first.conflict? key other = none) →
        ∃ otherRest, nodesOf key others = first :: otherRest ∧
          ∀ other ∈ otherRest, first.conflict? key other = none)
    (empty_iff : selectionsOf (occurrencesOf key occurrences) = [] ↔
      selectionsOf (occurrencesOf key others) = [])
    (plans : ∀ first rest field inner plan, nodesOf key occurrences = first :: rest →
      (∀ other ∈ rest, first.conflict? key other = none) →
        object.fields.find? first.name.item = some field →
          field.resolution.shape.object? = some inner →
            scope.PlansTo inner (selectionsOf (occurrencesOf key occurrences)) plan →
              scope.PlansTo inner (selectionsOf (occurrencesOf key others)) plan) :
    scope.PlansKey object others key placed := by
  obtain ⟨first, rest, nodesAre, restAgree, places⟩ := plansKey_iff_nodes.mp planned
  obtain ⟨otherRest, otherNodesAre, otherRestAgree⟩ := agree first rest nodesAre restAgree
  refine plansKey_iff_nodes.mpr ⟨first, otherRest, otherNodesAre, otherRestAgree, ?_⟩
  exact places.replace empty_iff fun field inner plan fieldIs innerIs innerPlanned =>
    plans first rest field inner plan nodesAre restAgree fieldIs innerIs innerPlanned

private theorem PlansKey.replace_nodes {occurrences others : List Occurrence} {key : String}
    {placed : PlacedPlan} (planned : scope.PlansKey object occurrences key placed)
    (sameSelected : selectionsOf (occurrencesOf key others) =
      selectionsOf (occurrencesOf key occurrences))
    (agree : ∀ first rest, nodesOf key occurrences = first :: rest →
      (∀ other ∈ rest, first.conflict? key other = none) →
        ∃ otherRest, nodesOf key others = first :: otherRest ∧
          ∀ other ∈ otherRest, first.conflict? key other = none) :
    scope.PlansKey object others key placed := by
  refine planned.replace agree (by rw [sameSelected]) ?_
  intro first rest field inner plan _ _ _ _ innerPlanned
  rw [sameSelected]
  exact innerPlanned

theorem PlansKey.congr {occurrences others : List Occurrence} {key : String}
    {placed : PlacedPlan} (planned : scope.PlansKey object occurrences key placed)
    (same : occurrencesOf key occurrences = occurrencesOf key others) :
    scope.PlansKey object others key placed := by
  rw [PlansKey, same] at planned
  exact planned

theorem Replaceable.inField {inner : ObjectIndex} {field : ObjectField}
    {selections replacement : List Selection}
    (replaceable : scope.Replaceable inner selections replacement) {node : FieldNode}
    (objectIs : scope.schema.object? id = some object)
    (fieldIs : object.fields.find? node.name.item = some field)
    (innerIs : field.resolution.shape.object? = some inner) :
    scope.Replaceable id [.field node selections] [.field node replacement] := by
  refine ⟨⟨nofun, nofun⟩, fun before after plan planned => ?_⟩
  refine planned.replace objectIs fun occurrences comesTo => ?_
  cases comesTo with
  | fragment isFragment => cases isFragment
  | keptOut decided further =>
      exact ⟨occurrences, .keptOut decided further, fun _ _ _ =>
        ⟨rfl, fun _ _ keyPlanned => keyPlanned⟩⟩
  | field decided further =>
      cases further
      refine ⟨[⟨node, replacement⟩], .field decided .nil, fun front back _ => ?_⟩
      simp only [List.append_assoc, List.singleton_append]
      refine ⟨?_, fun key placed keyPlanned => ?_⟩
      · simp only [firstKeys, List.map_append, List.map_cons]
        rfl
      by_cases same : node.responseKey = key
      · refine keyPlanned.replace ?_ ?_ ?_
        · intro first rest nodesAre restAgree
          rw [nodesOf_middle same] at nodesAre ⊢
          exact ⟨rest, nodesAre, restAgree⟩
        · simp only [selectionsOf_middle same, List.append_eq_nil_iff, replaceable.empty_iff]
        · intro first rest firstField firstInner innerPlan nodesAre restAgree firstFieldIs
            firstInnerIs innerPlanned
          have sameName : first.name.item = node.name.item := by
            rw [nodesOf_middle same] at nodesAre
            have member : node ∈ first :: rest := by
              rw [← nodesAre]
              simp
            rcases List.mem_cons.mp member with rfl | later
            · rfl
            · exact (FieldNode.conflict?_eq_none.mp (restAgree node later)).1.symm
          rw [sameName, fieldIs] at firstFieldIs
          cases firstFieldIs
          rw [innerIs] at firstInnerIs
          cases firstInnerIs
          rw [selectionsOf_middle same, ← List.append_assoc] at innerPlanned ⊢
          exact replaceable.plansTo _ _ _ innerPlanned
      · refine keyPlanned.congr ?_
        simp only [occurrencesOf_append, occurrencesOf_cons_of_ne same]

/-! ### One field in two places -/

section Split

variable {key : String} {node other : FieldNode} {front back inner : List Occurrence}

private theorem occurrencesOf_joined (same : node.responseKey = key)
    (elsewhere : ∀ occurrence ∈ inner, occurrence.key ≠ key) (selections : List Selection) :
    occurrencesOf key (front ++ ⟨node, selections⟩ :: (inner ++ back)) =
      occurrencesOf key front ++ ⟨node, selections⟩ :: occurrencesOf key back := by
  simp only [occurrencesOf_append, occurrencesOf_cons_of_eq same,
    occurrencesOf_eq_nil.mpr elsewhere, List.nil_append]

private theorem occurrencesOf_split (same : node.responseKey = key)
    (otherSame : other.responseKey = key)
    (elsewhere : ∀ occurrence ∈ inner, occurrence.key ≠ key)
    (first second : List Selection) :
    occurrencesOf key (front ++ ⟨node, first⟩ :: (inner ++ ⟨other, second⟩ :: back)) =
      occurrencesOf key front ++ ⟨node, first⟩ :: ⟨other, second⟩ :: occurrencesOf key back := by
  simp only [occurrencesOf_append, occurrencesOf_cons_of_eq same,
    occurrencesOf_cons_of_eq otherSame, occurrencesOf_eq_nil.mpr elsewhere, List.nil_append]

private theorem occurrencesOf_split_of_ne (different : node.responseKey ≠ key)
    (sameKey : other.responseKey = node.responseKey) (first second : List Selection) :
    occurrencesOf key (front ++ ⟨node, first⟩ :: (inner ++ ⟨other, second⟩ :: back)) =
      occurrencesOf key (front ++ ⟨node, first ++ second⟩ :: (inner ++ back)) := by
  have otherDiffers : other.responseKey ≠ key := sameKey ▸ different
  simp only [occurrencesOf_append, occurrencesOf_cons_of_ne different,
    occurrencesOf_cons_of_ne otherDiffers]

private theorem selectionsOf_split (same : node.responseKey = key)
    (otherSame : other.responseKey = key)
    (elsewhere : ∀ occurrence ∈ inner, occurrence.key ≠ key)
    (first second : List Selection) :
    selectionsOf (occurrencesOf key
        (front ++ ⟨node, first⟩ :: (inner ++ ⟨other, second⟩ :: back))) =
      selectionsOf (occurrencesOf key
        (front ++ ⟨node, first ++ second⟩ :: (inner ++ back))) := by
  rw [occurrencesOf_split same otherSame elsewhere, occurrencesOf_joined same elsewhere]
  simp only [selectionsOf, List.flatMap_append, List.flatMap_cons, List.append_assoc]

private theorem firstKeys_split (sameKey : other.responseKey = node.responseKey)
    (first second : List Selection) :
    firstKeys (front ++ ⟨node, first⟩ :: (inner ++ ⟨other, second⟩ :: back)) =
      firstKeys (front ++ ⟨node, first ++ second⟩ :: (inner ++ back)) := by
  have known : (⟨other, second⟩ : Occurrence).key ∈
      (front ++ ⟨node, first⟩ :: inner).map Occurrence.key := by
    refine List.mem_map.mpr ⟨⟨node, first⟩, by simp, sameKey.symm⟩
  have inserted : firstKeys (front ++ ⟨node, first⟩ :: inner ++ ⟨other, second⟩ :: back) =
      firstKeys (front ++ ⟨node, first⟩ :: inner ++ back) := firstKeys_insert known
  simp only [List.append_assoc, List.cons_append] at inserted
  rw [inserted]
  simp only [firstKeys, List.map_append, List.map_cons]
  rfl

/-- Under every key, occurrences are planned the same when one is taken apart, unless it is the
first of its key and the arguments of its node contradict each other. -/
theorem PlansKey.split {first second : List Selection} {placed : PlacedPlan}
    (planned : scope.PlansKey object (front ++ ⟨node, first ++ second⟩ :: (inner ++ back)) key
      placed)
    (sameKey : other.responseKey = node.responseKey) (sameAsked : other.asks = node.asks)
    (consistent : nodesOf node.responseKey front = [] → node.argumentsAgree node = true)
    (elsewhere : ∀ occurrence ∈ inner, occurrence.key ≠ node.responseKey) :
    scope.PlansKey object
      (front ++ ⟨node, first⟩ :: (inner ++ ⟨other, second⟩ :: back)) key placed := by
  by_cases same : node.responseKey = key
  · subst same
    refine planned.replace_nodes (selectionsOf_split rfl sameKey elsewhere first second) ?_
    intro head rest nodesAre agree
    rw [nodesOf, occurrencesOf_joined rfl elsewhere, List.map_append] at nodesAre
    rw [nodesOf, occurrencesOf_split rfl sameKey elsewhere, List.map_append]
    cases earlier : (occurrencesOf node.responseKey front).map Occurrence.node with
    | nil =>
        rw [earlier] at nodesAre
        cases nodesAre
        refine ⟨_, rfl, List.forall_mem_cons.mpr ⟨?_, agree⟩⟩
        have selfAgrees : node.conflict? node.responseKey node = none :=
          FieldNode.conflict?_eq_none.mpr ⟨rfl, consistent earlier⟩
        exact (FieldNode.conflict?_eq_none_congr sameAsked).mpr selfAgrees
    | cons _ nodes =>
        rw [earlier, List.cons_append] at nodesAre
        obtain ⟨rfl, rfl⟩ := List.cons.inj nodesAre
        refine ⟨nodes ++ node :: other :: nodesOf node.responseKey back, rfl,
          fun later member => ?_⟩
        have nodeAgrees := agree node (by simp)
        have otherAgrees := (FieldNode.conflict?_eq_none_congr sameAsked).mpr nodeAgrees
        simp only [List.map_cons, List.mem_append, List.mem_cons] at member agree
        rcases member with early | rfl | rfl | late
        · exact agree later (.inl early)
        · exact nodeAgrees
        · exact otherAgrees
        · exact agree later (.inr (.inr late))
  · exact planned.congr (occurrencesOf_split_of_ne same sameKey first second).symm

theorem PlansKey.join {first second : List Selection} {placed : PlacedPlan}
    (planned : scope.PlansKey object
      (front ++ ⟨node, first⟩ :: (inner ++ ⟨other, second⟩ :: back)) key placed)
    (sameKey : other.responseKey = node.responseKey)
    (elsewhere : ∀ occurrence ∈ inner, occurrence.key ≠ node.responseKey) :
    scope.PlansKey object (front ++ ⟨node, first ++ second⟩ :: (inner ++ back)) key
      placed := by
  by_cases same : node.responseKey = key
  · subst same
    refine planned.replace_nodes (selectionsOf_split rfl sameKey elsewhere first second).symm ?_
    intro head rest nodesAre agree
    rw [nodesOf, occurrencesOf_split rfl sameKey elsewhere, List.map_append] at nodesAre
    rw [nodesOf, occurrencesOf_joined rfl elsewhere, List.map_append]
    cases earlier : (occurrencesOf node.responseKey front).map Occurrence.node with
    | nil =>
        rw [earlier] at nodesAre
        cases nodesAre
        exact ⟨_, rfl, (List.forall_mem_cons.mp agree).2⟩
    | cons _ nodes =>
        rw [earlier, List.cons_append] at nodesAre
        obtain ⟨rfl, rfl⟩ := List.cons.inj nodesAre
        refine ⟨nodes ++ node :: nodesOf node.responseKey back, rfl,
          fun later member => agree later ?_⟩
        simp only [List.map_cons, List.mem_append, List.mem_cons] at member ⊢
        exact member.imp_right fun others => others.imp_right .inr
  · exact planned.congr (occurrencesOf_split_of_ne same sameKey first second)

end Split

def Avoids (scope : PlanScope) (object : ObjectType) (selections : List Selection)
    (key : String) : Prop :=
  ∀ occurrences, scope.ComesTo object selections occurrences →
    ∀ occurrence ∈ occurrences, occurrence.key ≠ key

/-- Whether a node repeats another one further on, and no occurrence of the key comes between the
two, of which directives keep out neither. -/
structure Repeats (scope : PlanScope) (object : ObjectType) (node : FieldNode)
    (between : List Selection) (other : FieldNode) : Prop where
  sameKey : other.responseKey = node.responseKey
  sameAsked : other.asks = node.asks
  admitted : scope.assignment.admitsAll node.directives = .ok true
  otherAdmitted : scope.assignment.admitsAll other.directives = .ok true
  elsewhere : scope.Avoids object between node.responseKey

section Split

variable {node other : FieldNode} {first second before between after : List Selection}
variable {occurrences : List Occurrence} {plan : Plan}

private theorem nodesOf_eq_nil {key : String} :
    nodesOf key occurrences = [] ↔ ∀ occurrence ∈ occurrences, occurrence.key ≠ key := by
  rw [nodesOf, List.map_eq_nil_iff, occurrencesOf_eq_nil]

theorem avoids_nil (object : ObjectType) (key : String) : scope.Avoids object [] key := by
  rintro _ ⟨⟩
  exact List.forall_mem_nil _

private theorem occurrences_split (front inner back : List Occurrence) (one other : Occurrence) :
    front ++ one :: (inner ++ [other]) ++ back = front ++ one :: (inner ++ other :: back) := by
  simp only [List.append_assoc, List.cons_append, List.nil_append]

private theorem comesTo_joined
    (comesTo : scope.ComesTo object (.field node (first ++ second) :: between) occurrences)
    (repeats : scope.Repeats object node between other) :
    ∃ inner, occurrences = ⟨node, first ++ second⟩ :: inner ∧
      (∀ occurrence ∈ inner, occurrence.key ≠ node.responseKey) ∧
      scope.ComesTo object (.field node first :: between ++ [.field other second])
        (⟨node, first⟩ :: (inner ++ [⟨other, second⟩])) := by
  obtain ⟨inner, rfl, further⟩ := (comesTo_field_iff repeats.admitted).mp comesTo
  have last : scope.ComesTo object [.field other second] [⟨other, second⟩] :=
    .field repeats.otherAdmitted .nil
  exact ⟨inner, rfl, repeats.elsewhere _ further,
    .field repeats.admitted (further.append last)⟩

private theorem comesTo_split
    (comesTo : scope.ComesTo object (.field node first :: between ++ [.field other second])
      occurrences)
    (repeats : scope.Repeats object node between other) :
    ∃ inner, occurrences = ⟨node, first⟩ :: (inner ++ [⟨other, second⟩]) ∧
      (∀ occurrence ∈ inner, occurrence.key ≠ node.responseKey) ∧
      scope.ComesTo object (.field node (first ++ second) :: between)
        (⟨node, first ++ second⟩ :: inner) := by
  obtain ⟨_, rfl, further⟩ := (comesTo_field_iff repeats.admitted).mp comesTo
  obtain ⟨inner, last, rfl, betweenComesTo, lastComesTo⟩ := Expands.of_append further
  obtain ⟨_, rfl, nothing⟩ := (comesTo_field_iff repeats.otherAdmitted).mp lastComesTo
  cases nothing
  exact ⟨inner, rfl, repeats.elsewhere _ betweenComesTo, .field repeats.admitted betweenComesTo⟩

/-- A field can stand in two places, unless it is the first of its key and its arguments
contradict each other. -/
theorem PlansTo.split
    (planned : scope.PlansTo id (before ++ .field node (first ++ second) :: between ++ after)
      plan)
    (objectIs : scope.schema.object? id = some object)
    (repeats : scope.Repeats object node between other)
    (consistent : scope.Avoids object before node.responseKey →
      node.argumentsAgree node = true) :
    scope.PlansTo id
      (before ++ (.field node first :: between ++ [.field other second]) ++ after) plan := by
  refine planned.replace objectIs fun occurrences comesTo => ?_
  obtain ⟨inner, rfl, elsewhere, splitComesTo⟩ := comesTo_joined comesTo repeats
  refine ⟨_, splitComesTo, fun front back frontComesTo => ?_⟩
  have consistentThere (noneBefore : nodesOf node.responseKey front = []) :
      node.argumentsAgree node = true := by
    refine consistent fun others beforeComesTo => ?_
    rw [beforeComesTo.unique frontComesTo]
    exact nodesOf_eq_nil.mp noneBefore
  rw [occurrences_split, List.append_assoc, List.cons_append]
  exact ⟨(firstKeys_split repeats.sameKey first second).symm, fun key placed keyPlanned =>
    keyPlanned.split repeats.sameKey repeats.sameAsked consistentThere elsewhere⟩

/-- A field that is planned in two places has no arguments that contradict each other, if it is
the first of its key. -/
theorem PlansTo.consistent_of_split
    (planned : scope.PlansTo id
      (before ++ (.field node first :: between ++ [.field other second]) ++ after) plan)
    (objectIs : scope.schema.object? id = some object)
    (repeats : scope.Repeats object node between other)
    (isFirst : scope.Avoids object before node.responseKey) :
    node.argumentsAgree node = true := by
  obtain ⟨found, all, placed, foundIs, allComeTo, keysPlanned, -⟩ := plansTo_iff.mp planned
  rw [objectIs] at foundIs
  cases foundIs
  obtain ⟨most, back, rfl, mostComeTo, -⟩ := Expands.of_append allComeTo
  obtain ⟨front, occurrences, rfl, frontComesTo, comesTo⟩ := Expands.of_append mostComeTo
  obtain ⟨inner, rfl, elsewhere, -⟩ := comesTo_split comesTo repeats
  rw [occurrences_split] at keysPlanned
  have isKey : node.responseKey ∈
      firstKeys (front ++ ⟨node, first⟩ :: (inner ++ ⟨other, second⟩ :: back)) :=
    mem_firstKeys.mpr ⟨⟨node, first⟩, by simp, rfl⟩
  obtain ⟨one, -, keyPlanned⟩ := exists_mem_of_forall₂ keysPlanned.flip _ isKey
  obtain ⟨_, _, nodesAre, agree, -⟩ := plansKey_iff_nodes.mp keyPlanned
  have noneBefore : occurrencesOf node.responseKey front = [] :=
    occurrencesOf_eq_nil.mpr (isFirst front frontComesTo)
  rw [nodesOf, occurrencesOf_split rfl repeats.sameKey elsewhere, noneBefore] at nodesAre
  cases nodesAre
  have selfAgrees := (FieldNode.conflict?_eq_none_congr repeats.sameAsked).mp
    (agree other (List.mem_cons_self ..))
  exact (FieldNode.conflict?_eq_none.mp selfAgrees).2

private theorem replaceable_split (objectIs : scope.schema.object? id = some object)
    (repeats : scope.Repeats object node between other)
    (consistent : node.argumentsAgree node = true) :
    scope.Replaceable id (.field node (first ++ second) :: between)
      (.field node first :: between ++ [.field other second]) :=
  ⟨⟨nofun, nofun⟩, fun _ _ _ planned => planned.split objectIs repeats fun _ => consistent⟩

private theorem replaceable_join (objectIs : scope.schema.object? id = some object)
    (repeats : scope.Repeats object node between other) :
    scope.Replaceable id (.field node first :: between ++ [.field other second])
      (.field node (first ++ second) :: between) := by
  refine ⟨⟨nofun, nofun⟩, fun before after plan planned => ?_⟩
  refine planned.replace objectIs fun occurrences comesTo => ?_
  obtain ⟨inner, rfl, elsewhere, joinedComesTo⟩ := comesTo_split comesTo repeats
  refine ⟨_, joinedComesTo, fun front back _ => ?_⟩
  rw [occurrences_split, List.append_assoc, List.cons_append]
  exact ⟨firstKeys_split repeats.sameKey first second, fun key placed keyPlanned =>
    keyPlanned.join repeats.sameKey elsewhere⟩

end Split

/-! ### Scattered selections -/

/-- Whether selections on an object type are others scattered: some of them moved into
fragments that count, and occurrences of fields taken apart, here or in what is selected on
fields and in fragments in place.  Only fields of which `splits` holds are taken apart, and
no other occurrence of their key comes between the parts. -/
inductive Scatters (scope : PlanScope) (splits : FieldNode → Prop) :
    ObjectIndex → List Selection → List Selection → Prop where
  | refl {id : ObjectIndex} (selections : List Selection) :
      Scatters scope splits id selections selections
  | trans {id : ObjectIndex} {selections scattered further : List Selection}
      (first : Scatters scope splits id selections scattered)
      (second : Scatters scope splits id scattered further) :
      Scatters scope splits id selections further
  | within {id : ObjectIndex} {selections scattered : List Selection}
      (scatters : Scatters scope splits id selections scattered)
      (before after : List Selection) :
      Scatters scope splits id (before ++ selections ++ after) (before ++ scattered ++ after)
  | enclose {id : ObjectIndex} {object : ObjectType} {fragment : Selection}
      (objectIs : scope.schema.object? id = some object) (isFragment : fragment.IsFragment)
      (counted : scope.counts object fragment = .ok true)
      (something : scope.contentOf fragment ≠ []) :
      Scatters scope splits id (scope.contentOf fragment) [fragment]
  | split {id : ObjectIndex} {object : ObjectType} {node other : FieldNode}
      {first second between : List Selection}
      (objectIs : scope.schema.object? id = some object) (may : splits node)
      (repeats : scope.Repeats object node between other) :
      Scatters scope splits id (.field node (first ++ second) :: between)
        (.field node first :: between ++ [.field other second])
  | inField {id inner : ObjectIndex} {object : ObjectType} {node : FieldNode}
      {field : ObjectField} {selections scattered : List Selection}
      (objectIs : scope.schema.object? id = some object)
      (fieldIs : object.fields.find? node.name.item = some field)
      (innerIs : field.resolution.shape.object? = some inner)
      (scatters : Scatters scope splits inner selections scattered) :
      Scatters scope splits id [.field node selections] [.field node scattered]
  | inFragment {id : ObjectIndex} {selections scattered : List Selection}
      (condition : Option (Located String)) (directives : List Directive)
      (scatters : Scatters scope splits id selections scattered) :
      Scatters scope splits id [.inline condition directives selections]
        [.inline condition directives scattered]

section Scatters

variable {splits : FieldNode → Prop} {selections scattered : List Selection}

/-- Selections can be replaced by themselves scattered, where only fields are taken apart
whose arguments do not contradict each other. -/
theorem Scatters.replaceable
    (scatters : scope.Scatters (fun node => node.argumentsAgree node = true) id selections
      scattered) :
    scope.Replaceable id selections scattered := by
  induction scatters with
  | refl selections => exact .refl selections
  | trans _ _ ihFirst ihSecond => exact ihFirst.trans ihSecond
  | within _ before after ih => exact ih.within before after
  | enclose objectIs isFragment counted something =>
      exact replaceable_by_fragment objectIs isFragment counted something
  | split objectIs may repeats => exact replaceable_split objectIs repeats may
  | inField objectIs fieldIs innerIs _ ih => exact ih.inField objectIs fieldIs innerIs
  | inFragment condition directives _ ih => exact ih.inFragment condition directives

/-- Scattered selections can be replaced by what was scattered. -/
theorem Scatters.replaceable_back (scatters : scope.Scatters splits id selections scattered) :
    scope.Replaceable id scattered selections := by
  induction scatters with
  | refl selections => exact .refl selections
  | trans _ _ ihFirst ihSecond => exact ihSecond.trans ihFirst
  | within _ before after ih => exact ih.within before after
  | enclose objectIs isFragment counted something =>
      exact fragment_replaceable objectIs isFragment counted something
  | split objectIs _ repeats => exact replaceable_join objectIs repeats
  | inField objectIs fieldIs innerIs _ ih => exact ih.inField objectIs fieldIs innerIs
  | inFragment condition directives _ ih => exact ih.inFragment condition directives

theorem Replaceable.plansTo_alone (replaceable : scope.Replaceable id selections scattered)
    {plan : Plan} (planned : scope.PlansTo id selections plan) :
    scope.PlansTo id scattered plan := by
  have alone := replaceable.plansTo [] [] plan
  simp only [List.nil_append, List.append_nil] at alone
  exact alone planned

end Scatters

end PlanScope

end StagedResolver
