/-
Plans say what selections ask for.

A plan has a field for every key that the selections come to and for no other, in the order that
settings ask for.  What is selected on the occurrences of a key is planned as if it stood in one
place.  It does not matter where it stands, but for a field that gives two values for one
argument: such a field is planned in one place and refused in two.
-/
import StagedResolver.Proofs.Plan.Arrangement
import StagedResolver.Proofs.Plan.Extension
import StagedResolver.Proofs.Plan.Scattering

namespace StagedResolver

namespace PlanScope

variable {scope : PlanScope} {object : ObjectType} {occurrences : List Occurrence}
variable {placed : List PlacedPlan}

private theorem Places.place_eq {planInner : ObjectIndex → List Selection → Plan → Prop}
    {key : String} {first : FieldNode} {selected : List Selection} {one : PlacedPlan}
    (places : scope.Places planInner object key first selected one) :
    one.place = one.plan.place? object := by
  cases places with
  | typename => rfl
  | leaf _ placeIs => exact placeIs.symm
  | composite _ placeIs => exact placeIs.symm

/-- Whether the fields of a plan on an object merge occurrences. -/
structure Merges (scope : PlanScope) (object : ObjectType) (occurrences : List Occurrence)
    (fields : List PlannedField) : Prop where
  distinct : (fields.map PlannedField.key).Nodup
  keys : ∀ key, key ∈ fields.map PlannedField.key ↔
    ∃ occurrence ∈ occurrences, occurrence.key = key
  bySelection : scope.order = .selection →
    fields.map PlannedField.key = firstKeys occurrences
  byDeclaration : scope.order = .schema → fields.Pairwise fun earlier later =>
    earlier.place? object < later.place? object ∨
      earlier.place? object = later.place? object ∧
        [earlier.key, later.key].Sublist (firstKeys occurrences)
  planned : ∀ field ∈ fields, ∃ first others,
    nodesOf field.key occurrences = first :: others ∧
      (∀ other ∈ others, first.conflict? field.key other = none) ∧
        scope.Places scope.PlansTo object field.key first
          (selectionsOf (occurrencesOf field.key occurrences)) ⟨field.place? object, field⟩

theorem PlansKey.key_eq {key : String} {one : PlacedPlan}
    (planned : scope.PlansKey object occurrences key one) : one.plan.key = key := by
  obtain ⟨_, _, _, places⟩ := planned
  exact places.key_eq

private theorem PlansKey.place_eq {key : String} {one : PlacedPlan}
    (planned : scope.PlansKey object occurrences key one) :
    one.place = one.plan.place? object := by
  obtain ⟨_, _, _, places⟩ := planned
  exact places.place_eq

private theorem merges_arrange
    (keysPlanned : List.Forall₂ (scope.PlansKey object occurrences) (firstKeys occurrences)
      placed) :
    scope.Merges object occurrences (PlacedPlan.arrange scope.order placed) := by
  have both : List.Forall₂ (fun one key =>
      scope.PlansKey object occurrences one.plan.key one ∧ one.plan.key = key)
        placed (firstKeys occurrences) := by
    refine keysPlanned.flip.imp fun one key planned => ?_
    have keyIs : one.plan.key = key := PlansKey.key_eq planned
    subst keyIs
    exact ⟨planned, rfl⟩
  obtain ⟨eachPlanned, keysMatch⟩ := (List.forall₂_and_left _ _).mp both
  have keysAre : placed.map (fun one => one.plan.key) = firstKeys occurrences := by
    rw [← List.forall₂_eq_eq_eq]
    exact List.forall₂_map_left_iff.mpr keysMatch
  have places : ∀ one ∈ placed, one.place = one.plan.place? object :=
    fun one member => (eachPlanned one member).place_eq
  have arranged := PlacedPlan.arrange_perm scope.order placed
  have sameKeys : ((PlacedPlan.arrange scope.order placed).map PlannedField.key).Perm
      (firstKeys occurrences) := by
    rw [← keysAre]
    exact (arranged.map PlannedField.key).trans (.of_eq (List.map_map ..))
  refine ⟨sameKeys.nodup_iff.mpr (nodup_firstKeys occurrences), ?_, ?_, ?_, ?_⟩
  · intro key
    rw [sameKeys.mem_iff]
    exact mem_firstKeys
  · intro bySelection
    rw [bySelection, ← keysAre]
    exact List.map_map ..
  · intro byDeclaration
    rw [byDeclaration]
    exact PlacedPlan.pairwise_arrange places keysAre (nodup_firstKeys occurrences)
  · intro field member
    rw [arranged.mem_iff, List.mem_map] at member
    obtain ⟨one, oneMember, rfl⟩ := member
    rw [← places one oneMember]
    exact plansKey_iff_nodes.mp (eachPlanned one oneMember)

private theorem plansTo_flatten {id : ObjectIndex} {lists : List (List Selection)} {plan : Plan} :
    scope.PlansTo id lists.flatten plan ↔
      ∃ allowance, scope.planSelections allowance id lists = .ok plan :=
  exists_congr fun allowance => by rw [planSelections_flatten allowance id lists]

/-- A plan merges the occurrences that selections come to.  It is their plan however they are
scattered, among further fragments too, as long as fields are taken apart only whose arguments
agree with themselves, and no other plan is theirs.  A field of the selections is planned in two
places exactly when its arguments agree with themselves or another occurrence of its key comes
first. -/
theorem planSelections_exact {scope : PlanScope} {allowance : Nat} {id : ObjectIndex}
    {lists : List (List Selection)} {plan : Plan}
    (planned : scope.planSelections allowance id lists = .ok plan) :
    ∃ object occurrences, scope.schema.object? id = some object ∧ plan.object = id ∧
      (∀ others, scope.ExpandsOn object lists.flatten others ↔ others = occurrences) ∧
      scope.Merges object occurrences plan.fields ∧
      (∀ (more : OrderedMap Fragment) (scattered : List (List Selection)),
        scope.KnownIn more →
          (scope.withFragments more).Scatters (fun node => node.argumentsAgree node = true) id
              lists.flatten scattered.flatten →
            ∃ enough, (scope.withFragments more).planSelections enough id scattered =
              .ok plan) ∧
      (∀ (before between after first second : List Selection) (node other : FieldNode),
        lists.flatten = before ++ .field node (first ++ second) :: between ++ after →
          scope.Repeats object node between other →
            ((∃ enough, scope.planSelections enough id
                [before ++ (.field node first :: between ++ [.field other second]) ++ after] =
                  .ok plan) ↔
              (scope.Avoids object before node.responseKey →
                node.argumentsAgree node = true))) ∧
      (∀ (more : OrderedMap Fragment) (scattered : List (List Selection))
        (otherAllowance : Nat) (other : Plan), scope.KnownIn more →
          (scope.withFragments more).Scatters (fun _ => True) id lists.flatten
              scattered.flatten →
            (scope.withFragments more).planSelections otherAllowance id scattered =
              .ok other → other = plan) ∧
      (∀ gathered : List (List Selection),
        scope.Scatters (fun _ => True) id gathered.flatten lists.flatten →
          ∃ enough, scope.planSelections enough id gathered = .ok plan) := by
  have plansTo : scope.PlansTo id lists.flatten plan :=
    plansTo_flatten.mpr ⟨allowance, planned⟩
  obtain ⟨object, occurrences, placed, objectIs, comesTo, keysPlanned, rfl⟩ :=
    plansTo_iff.mp plansTo
  -- Scattered selections may take another allowance, so that all goes by `PlansTo`.
  refine ⟨object, occurrences, objectIs, rfl, ?_, merges_arrange keysPlanned, ?_, ?_, ?_, ?_⟩
  · intro others
    constructor
    · exact fun expands => expands.unique comesTo.expandsOn
    · rintro rfl
      exact comesTo.expandsOn
  · intro more scattered known scatters
    have stillPlanned := plansTo.withFragments known
    exact plansTo_flatten.mp (scatters.replaceable.plansTo_alone stillPlanned)
  · intro before between after first second node other whole repeats
    rw [whole] at plansTo
    rw [← plansTo_flatten, List.flatten_singleton]
    constructor
    · exact fun splitPlanned => splitPlanned.consistent_of_split objectIs repeats
    · exact plansTo.split objectIs repeats
  · intro more scattered otherAllowance other known scatters otherPlanned
    have stillPlanned := plansTo.withFragments known
    have otherPlansTo := plansTo_flatten.mpr ⟨otherAllowance, otherPlanned⟩
    exact (scatters.replaceable_back.plansTo_alone otherPlansTo).unique stillPlanned
  · intro gathered scatters
    exact plansTo_flatten.mp (scatters.replaceable_back.plansTo_alone plansTo)

end PlanScope

/-! ### A query in two ways -/

def Fragment.ofHeroes : OrderedMap Fragment :=
  .ofEntries [("Named", ⟨⟨"Hero", ⟨2, 1⟩⟩, [],
    [.field ⟨none, ⟨"name", ⟨1, 23⟩⟩, [], []⟩ []]⟩)]

def Selection.ofScatteredHeroes : List Selection :=
  let plain (name : String) (column : Nat) : FieldNode := ⟨none, ⟨name, ⟨1, column⟩⟩, [], []⟩
  [.field (plain "heroes" 3) [.field (plain "__typename" 12) []],
    .field (plain "heroes" 30) [.spread ⟨"Named", ⟨1, 40⟩⟩ []]]

namespace PlanScope

private theorem scatters_ofHeroes :
    (PlanScope.ofHeroes.withFragments Fragment.ofHeroes).Scatters
      (fun node => node.argumentsAgree node = true) 0 Selection.ofHeroes
        Selection.ofScatteredHeroes := by
  have apart := @Scatters.split (PlanScope.ofHeroes.withFragments Fragment.ofHeroes)
    (fun node => node.argumentsAgree node = true) 0 _
    ⟨none, ⟨"heroes", ⟨1, 3⟩⟩, [], []⟩ ⟨none, ⟨"heroes", ⟨1, 30⟩⟩, [], []⟩
    [.field ⟨none, ⟨"__typename", ⟨1, 12⟩⟩, [], []⟩ []]
    [.field ⟨none, ⟨"name", ⟨1, 23⟩⟩, [], []⟩ []] [] rfl rfl ⟨rfl, rfl, rfl, rfl, avoids_nil _ _⟩
  have enclosed := @Scatters.enclose (PlanScope.ofHeroes.withFragments Fragment.ofHeroes)
    (fun node => node.argumentsAgree node = true) 1 _ (.spread ⟨"Named", ⟨1, 40⟩⟩ []) rfl
    trivial rfl nofun
  exact .trans apart (.within (.inField rfl rfl rfl enclosed) [_] [])

theorem planSelections_exact_ofHeroes :
    PlanScope.ofHeroes.planSelections 4 0 [Selection.ofHeroes] = .ok .ofHeroes ∧
      (∃ object occurrences,
        PlanScope.ofHeroes.ExpandsOn object Selection.ofHeroes occurrences ∧
          PlanScope.ofHeroes.Merges object occurrences Plan.ofHeroes.fields) ∧
      ∃ enough, (PlanScope.ofHeroes.withFragments Fragment.ofHeroes).planSelections enough 0
        [Selection.ofScatteredHeroes] = .ok .ofHeroes := by
  have planned : PlanScope.ofHeroes.planSelections 4 0 [Selection.ofHeroes] = .ok .ofHeroes :=
    rfl
  obtain ⟨object, occurrences, _, _, expands, merges, scattered, _⟩ :=
    planSelections_exact planned
  exact ⟨planned, ⟨object, occurrences, (expands _).mpr rfl, merges⟩,
    scattered Fragment.ofHeroes [Selection.ofScatteredHeroes] nofun scatters_ofHeroes⟩

end PlanScope

/-! ### A field that is not planned in two places -/

def Schema.ofHero : Schema :=
  let hero : ObjectField :=
    ⟨"hero", .named "Hero" false, .ofEntries [("x", ⟨.named "Int" false, none⟩)],
      ⟨.passthrough "hero", .object 1 false⟩⟩
  let name : ObjectField :=
    ⟨"name", .named "String" false, .empty, ⟨.passthrough "name", .scalar .string false⟩⟩
  let age : ObjectField :=
    ⟨"age", .named "Int" false, .empty, ⟨.passthrough "age", .scalar .int false⟩⟩
  ⟨0, [⟨"Query", .ofEntries [("hero", hero)]⟩,
    ⟨"Hero", .ofEntries [("name", name), ("age", age)]⟩]⟩

def PlanScope.ofHero : PlanScope := ⟨.ofHero, .empty, ⟨[], []⟩, .selection⟩

def FieldNode.ofHero (column : Nat) : FieldNode :=
  let number (column : Nat) (value : Int) : Argument :=
    ⟨⟨"x", ⟨1, column⟩⟩, ⟨.integer value, ⟨1, column + 3⟩⟩⟩
  ⟨none, ⟨"hero", ⟨1, column⟩⟩, [number (column + 5) 1, number (column + 11) 2], []⟩

def Selection.ofLeaf (name : String) (column : Nat) : Selection :=
  .field ⟨none, ⟨name, ⟨1, column⟩⟩, [], []⟩ []

namespace PlanScope

private theorem repeats_ofHero (object : ObjectType) :
    ofHero.Repeats object (.ofHero 3) [] (.ofHero 29) where
  sameKey := rfl
  sameAsked := rfl
  admitted := rfl
  otherAdmitted := rfl
  elsewhere := avoids_nil _ _

/-- What is planned in one place is refused in two, where one argument has two values. -/
theorem plan_not_scattered :
    let whole : List Selection := [.field (.ofHero 3) [.ofLeaf "name" 22, .ofLeaf "age" 48]]
    let apart : List Selection :=
      [.field (.ofHero 3) [.ofLeaf "name" 22], .field (.ofHero 29) [.ofLeaf "age" 48]]
    (∃ plan, ofHero.plan whole = .ok plan) ∧
      ofHero.plan apart = .error (.differentArguments "hero" ⟨1, 29⟩) ∧
      ofHero.Scatters (fun _ => True) 0 whole apart ∧
      ¬ ∀ (scope : PlanScope) (allowance : Nat) (id : ObjectIndex)
        (lists scattered : List (List Selection)) (plan : Plan),
          scope.planSelections allowance id lists = .ok plan →
            scope.Scatters (fun _ => True) id lists.flatten scattered.flatten →
              ∃ enough, scope.planSelections enough id scattered = .ok plan := by
  intro whole apart
  have scatters : ofHero.Scatters (fun _ => True) 0 whole apart := by
    show ofHero.Scatters _ 0
      [.field (.ofHero 3) ([.ofLeaf "name" 22] ++ [.ofLeaf "age" 48])]
      ([.field (.ofHero 3) [.ofLeaf "name" 22]] ++ [.field (.ofHero 29) [.ofLeaf "age" 48]])
    exact .split rfl trivial (repeats_ofHero _)
  refine ⟨⟨_, rfl⟩, rfl, scatters, fun claimed => ?_⟩
  have splitPlanned := plansTo_flatten.mpr
    (claimed ofHero (ofHero.allowance whole) 0 [whole] [apart] _ rfl scatters)
  have consistent := @PlansTo.consistent_of_split ofHero 0 _ (.ofHero 3) (.ofHero 29)
    [.ofLeaf "name" 22] [.ofLeaf "age" 48] [] [] [] _ splitPlanned rfl (repeats_ofHero _)
      (avoids_nil _ _)
  cases consistent

end PlanScope

end StagedResolver
