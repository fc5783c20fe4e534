/-
What selections come to on an object.

On an object of a type, selections come to occurrences of fields: a field to one, a
fragment to those of what it selects, and what is kept out to none.  Collecting groups
these occurrences.  How often fragments may be entered only matters when it is not often
enough.
-/
import StagedResolver.Proofs.Plan.Grouping
import StagedResolver.Proofs.Success

namespace StagedResolver

section Approximation

variable {α β : Type}

/-- Whether the first computation is the second one, unless it gives up for depth. -/
def Approximates (first second : Except PlanError α) : Prop :=
  first = .error .tooDeep ∨ first = second

theorem Approximates.refl (computation : Except PlanError α) :
    Approximates computation computation :=
  .inr rfl

theorem Approximates.eq_of_ok {first second : Except PlanError α} {result : α}
    (approximates : Approximates first second) (succeeds : first = .ok result) :
    second = .ok result := by
  rcases approximates with tooDeep | same
  · rw [tooDeep] at succeeds
    cases succeeds
  · rw [← same, succeeds]

theorem Approximates.bind {first second : Except PlanError α}
    {next other : α → Except PlanError β} (approximates : Approximates first second)
    (nextApproximates : ∀ found, Approximates (next found) (other found)) :
    Approximates (first >>= next) (second >>= other) := by
  rcases approximates with tooDeep | same
  · left
    rw [tooDeep]
    rfl
  · rw [same]
    cases second with
    | error fault => exact .inr rfl
    | ok found => exact nextApproximates found

theorem Approximates.map {first second : Except PlanError α}
    (approximates : Approximates first second) (change : α → β) :
    Approximates (first.map change) (second.map change) := by
  rcases approximates with tooDeep | same
  · left
    rw [tooDeep]
    rfl
  · right
    rw [same]

theorem Approximates.mapM {change other : α → Except PlanError β}
    (approximates : ∀ item, Approximates (change item) (other item)) (items : List α) :
    Approximates (items.mapM change) (items.mapM other) := by
  induction items with
  | nil => exact .refl _
  | cons item rest ih =>
      rw [List.mapM_cons, List.mapM_cons]
      exact (approximates item).bind fun _ => ih.bind fun _ => .refl _

end Approximation

namespace Assignment

/-- Whether a directive keeps out what it stands at: a skip whose condition is true, or an
inclusion whose condition is false. -/
def KeepsOut (assignment : Assignment) (directive : Directive) : Prop :=
  ∃ condition flag, argumentNamed? "if" directive.arguments = some condition ∧
    assignment.resolve condition = .ok (.boolean flag) ∧
      (directive.name = "skip" ∧ flag = true ∨ directive.name = "include" ∧ flag = false)

private theorem admits_eq_ok {assignment : Assignment} {directive : Directive} {admitted : Bool}
    (decided : assignment.admits directive = .ok admitted) :
    admitted = true ↔ ¬ assignment.KeepsOut directive := by
  simp only [admits] at decided
  by_cases known : directive.name = "skip" ∨ directive.name = "include"
  · rw [if_pos known] at decided
    cases conditionIs : argumentNamed? "if" directive.arguments with
    | none =>
        rw [conditionIs] at decided
        cases decided
    | some condition =>
        rw [conditionIs] at decided
        obtain ⟨literal, resolved, decided⟩ := bind_eq_ok.mp decided
        cases literal with
        | boolean flag =>
            cases decided
            have keepsOut : assignment.KeepsOut directive ↔
                directive.name = "skip" ∧ flag = true ∨
                  directive.name = "include" ∧ flag = false := by
              constructor
              · rintro ⟨other, otherFlag, otherIs, otherResolved, which⟩
                rw [conditionIs] at otherIs
                cases otherIs
                rw [resolved] at otherResolved
                cases otherResolved
                exact which
              · exact fun which => ⟨condition, flag, conditionIs, resolved, which⟩
            rw [keepsOut]
            rcases known with isSkip | isInclude
            · cases flag <;> simp [isSkip]
            · cases flag <;> simp [isInclude]
        | _ => cases decided
  · rw [if_neg known] at decided
    cases decided
    refine ⟨fun _ => ?_, fun _ => rfl⟩
    rintro ⟨_, _, _, _, ⟨isSkip, _⟩ | ⟨isInclude, _⟩⟩
    · exact known (.inl isSkip)
    · exact known (.inr isInclude)

private theorem admitsAll_eq_ok {assignment : Assignment} {directives : List Directive}
    {admitted : Bool} (decided : assignment.admitsAll directives = .ok admitted) :
    admitted = true ↔ ∀ directive ∈ directives, ¬ assignment.KeepsOut directive := by
  induction directives with
  | nil =>
      cases decided
      exact ⟨fun _ => List.forall_mem_nil _, fun _ => rfl⟩
  | cons directive rest ih =>
      obtain ⟨first, firstDecided, decided⟩ := bind_eq_ok.mp decided
      rw [List.forall_mem_cons, ← admits_eq_ok firstDecided]
      cases first with
      | false =>
          cases decided
          exact ⟨nofun, fun both => both.1⟩
      | true => exact ⟨fun passed => ⟨rfl, (ih decided).mp passed⟩,
          fun both => (ih decided).mpr both.2⟩

end Assignment

/-! ### Expansion -/

def Selection.IsFragment : Selection → Prop
  | .field _ _ => False
  | .spread _ _ => True
  | .inline _ _ _ => True

namespace PlanScope

def contentOf (scope : PlanScope) : Selection → List Selection
  | .field _ _ => []
  | .spread name _ =>
      match scope.fragments.find? name.item with
      | some fragment => fragment.selections
      | none => []
  | .inline _ _ selections => selections

/-- Whether a selection counts for an object. -/
def counts (scope : PlanScope) (object : ObjectType) : Selection → Except PlanError Bool
  | .field node _ => scope.assignment.admitsAll node.directives
  | .spread name directives => do
      if ← scope.assignment.admitsAll directives then
        match scope.fragments.find? name.item with
        | none => throw (.unknownFragment name.item name.position)
        | some fragment => scope.admitsFragment object fragment
      else return false
  | .inline condition directives _ => do
      if ← scope.assignment.admitsAll directives then scope.isMeantForAny object condition
      else return false

def reachedAll (reach : Selection → Except PlanError (List Occurrence)) :
    List Selection → Except PlanError (List Occurrence)
  | [] => .ok []
  | selection :: rest => do
      let first ← reach selection
      let others ← reachedAll reach rest
      return first ++ others

/-- What a selection comes to, with fragments entered inside each other as often as
`allowance` says. -/
def reached (scope : PlanScope) (object : ObjectType) :
    Nat → Selection → Except PlanError (List Occurrence)
  | 0, _ => .error .tooDeep
  | allowance + 1, selection => do
      if ← scope.counts object selection then
        match selection with
        | .field node selections => return [⟨node, selections⟩]
        | fragment => reachedAll (reached scope object allowance) (scope.contentOf fragment)
      else return []

variable {scope : PlanScope} {object : ObjectType}

private theorem reached_fragment {selection : Selection} (isFragment : selection.IsFragment)
    (allowance : Nat) :
    scope.reached object (allowance + 1) selection = (do
      if ← scope.counts object selection then
        reachedAll (scope.reached object allowance) (scope.contentOf selection)
      else return []) := by
  cases selection with
  | field node selections => cases isFragment
  | spread name directives => rfl
  | inline condition directives selections => rfl

private theorem foldlM_eq_reachedAll
    {collect : Entries Group → Selection → Except PlanError (Entries Group)}
    {reach : Selection → Except PlanError (List Occurrence)}
    (each : ∀ groups selection, collect groups selection =
      (reach selection).map fun occurrences => occurrences.foldl addOccurrence groups)
    (selections : List Selection) (groups : Entries Group) :
    selections.foldlM collect groups =
      (reachedAll reach selections).map fun occurrences =>
        occurrences.foldl addOccurrence groups := by
  induction selections generalizing groups with
  | nil => rfl
  | cons selection rest ih =>
      rw [List.foldlM_cons, each, reachedAll]
      cases reach selection with
      | error fault => rfl
      | ok first =>
          refine (ih _).trans ?_
          cases reachedAll reach rest with
          | error fault => rfl
          | ok others => exact congrArg Except.ok (List.foldl_append ..).symm

/-- Collecting a selection adds the occurrences that it comes to. -/
theorem collect_eq_reached (allowance : Nat) (groups : Entries Group) (selection : Selection) :
    scope.collect object allowance groups selection =
      (scope.reached object allowance selection).map fun occurrences =>
        occurrences.foldl addOccurrence groups := by
  induction allowance generalizing groups selection with
  | zero => rfl
  | succ allowance ih =>
      have all (selections : List Selection) (groups : Entries Group) :=
        foldlM_eq_reachedAll (fun groups selection => ih groups selection) selections groups
      cases selection with
      | field node selections =>
          simp only [collect, reached, counts]
          cases scope.assignment.admitsAll node.directives with
          | error fault => rfl
          | ok passed => cases passed <;> rfl
      | spread name directives =>
          simp only [collect, reached, counts, contentOf]
          cases scope.assignment.admitsAll directives with
          | error fault => rfl
          | ok passed =>
              cases passed with
              | false => rfl
              | true =>
                  cases scope.fragments.find? name.item with
                  | none => rfl
                  | some fragment =>
                      cases admitted : scope.admitsFragment object fragment with
                      | error fault =>
                          simp only [admitted]
                          rfl
                      | ok entered =>
                          simp only [admitted]
                          cases entered with
                          | false => rfl
                          | true => exact all fragment.selections groups
      | inline condition directives selections =>
          simp only [collect, reached, counts]
          cases scope.assignment.admitsAll directives with
          | error fault => rfl
          | ok passed =>
              cases passed with
              | false => rfl
              | true =>
                  cases scope.isMeantForAny object condition with
                  | error fault => rfl
                  | ok entered =>
                      cases entered with
                      | false => rfl
                      | true => exact all selections groups

theorem collectAll_eq_reachedAll (allowance : Nat) (lists : List (List Selection)) :
    scope.collectAll object allowance lists =
      (reachedAll (scope.reached object allowance) lists.flatten).map groupsOf :=
  foldlM_eq_reachedAll (fun groups selection => collect_eq_reached allowance groups selection)
    lists.flatten []

theorem reachedAll_approximates {reach other : Selection → Except PlanError (List Occurrence)}
    (each : ∀ selection, Approximates (reach selection) (other selection))
    (selections : List Selection) :
    Approximates (reachedAll reach selections) (reachedAll other selections) := by
  induction selections with
  | nil => exact .refl _
  | cons selection rest ih => exact (each selection).bind fun _ => ih.bind fun _ => .refl _

theorem reached_approximates {fewer more : Nat} (le : fewer ≤ more) (selection : Selection) :
    Approximates (scope.reached object fewer selection)
      (scope.reached object more selection) := by
  induction fewer generalizing more selection with
  | zero => exact .inl rfl
  | succ fewer ih =>
      cases more with
      | zero => cases le
      | succ more =>
          have inside (selection : Selection) := ih (Nat.le_of_succ_le_succ le) selection
          refine (Approximates.refl _).bind fun counted => ?_
          cases counted with
          | false => exact .refl _
          | true =>
              cases selection with
              | field node selections => exact .refl _
              | spread name directives => exact reachedAll_approximates inside _
              | inline condition directives selections => exact reachedAll_approximates inside _

theorem reachedAll_of_le {fewer more : Nat} {selections : List Selection}
    {occurrences : List Occurrence}
    (reached : reachedAll (scope.reached object fewer) selections = .ok occurrences)
    (le : fewer ≤ more) :
    reachedAll (scope.reached object more) selections = .ok occurrences :=
  (reachedAll_approximates (reached_approximates le) selections).eq_of_ok reached

/-! ### Expansion as a relation -/

/-- Whether selections come to occurrences, in their order, when `decides` says which
selections count. -/
inductive Expands (scope : PlanScope) (decides : Selection → Bool → Prop) :
    List Selection → List Occurrence → Prop where
  | nil : Expands scope decides [] []
  | field {node : FieldNode} {selections rest : List Selection}
      {occurrences : List Occurrence} (decided : decides (.field node selections) true)
      (further : Expands scope decides rest occurrences) :
      Expands scope decides (.field node selections :: rest)
        (⟨node, selections⟩ :: occurrences)
  | fragment {selection : Selection} {rest : List Selection}
      {inside occurrences : List Occurrence} (isFragment : selection.IsFragment)
      (decided : decides selection true)
      (entered : Expands scope decides (scope.contentOf selection) inside)
      (further : Expands scope decides rest occurrences) :
      Expands scope decides (selection :: rest) (inside ++ occurrences)
  | keptOut {selection : Selection} {rest : List Selection} {occurrences : List Occurrence}
      (decided : decides selection false)
      (further : Expands scope decides rest occurrences) :
      Expands scope decides (selection :: rest) occurrences

section Expands

variable {decides : Selection → Bool → Prop} {selections others : List Selection}
variable {occurrences otherOccurrences : List Occurrence}

theorem Expands.mono {weaker : Selection → Bool → Prop}
    (expands : scope.Expands decides selections occurrences)
    (implies : ∀ selection decision, decides selection decision → weaker selection decision) :
    scope.Expands weaker selections occurrences := by
  induction expands with
  | nil => exact .nil
  | field decided _ ih => exact .field (implies _ _ decided) ih
  | fragment isFragment decided _ _ ihEntered ih =>
      exact .fragment isFragment (implies _ _ decided) ihEntered ih
  | keptOut decided _ ih => exact .keptOut (implies _ _ decided) ih

theorem Expands.append (expands : scope.Expands decides selections occurrences)
    (othersExpand : scope.Expands decides others otherOccurrences) :
    scope.Expands decides (selections ++ others) (occurrences ++ otherOccurrences) := by
  induction expands with
  | nil => exact othersExpand
  | field decided _ ih => exact .field decided ih
  | fragment isFragment decided entered _ _ ih =>
      rw [List.append_assoc]
      exact .fragment isFragment decided entered ih
  | keptOut decided _ ih => exact .keptOut decided ih

theorem Expands.of_append
    (expands : scope.Expands decides (selections ++ others) occurrences) :
    ∃ first second, occurrences = first ++ second ∧
      scope.Expands decides selections first ∧ scope.Expands decides others second := by
  induction selections generalizing occurrences with
  | nil => exact ⟨[], occurrences, rfl, .nil, expands⟩
  | cons selection rest ih =>
      cases expands with
      | field decided further =>
          obtain ⟨first, second, rfl, restExpands, othersExpand⟩ := ih further
          exact ⟨_ :: first, second, rfl, .field decided restExpands, othersExpand⟩
      | fragment isFragment decided entered further =>
          obtain ⟨first, second, rfl, restExpands, othersExpand⟩ := ih further
          exact ⟨_, second, (List.append_assoc ..).symm,
            .fragment isFragment decided entered restExpands, othersExpand⟩
      | keptOut decided further =>
          obtain ⟨first, second, rfl, restExpands, othersExpand⟩ := ih further
          exact ⟨first, second, rfl, .keptOut decided restExpands, othersExpand⟩

/-- Selections expand in one way when it is decided in one way what counts. -/
theorem Expands.unique
    (functional : ∀ selection decision other, decides selection decision →
      decides selection other → decision = other)
    (expands : scope.Expands decides selections occurrences)
    (other : scope.Expands decides selections otherOccurrences) :
    occurrences = otherOccurrences := by
  induction expands generalizing otherOccurrences with
  | nil =>
      cases other
      rfl
  | field decided _ ih =>
      cases other with
      | field _ further => rw [ih further]
      | fragment isFragment => cases isFragment
      | keptOut keptOut => cases functional _ _ _ decided keptOut
  | fragment isFragment decided _ _ ihEntered ih =>
      cases other with
      | field => cases isFragment
      | fragment _ _ entered further => rw [ihEntered entered, ih further]
      | keptOut keptOut => cases functional _ _ _ decided keptOut
  | keptOut keptOut _ ih =>
      cases other with
      | field decided => cases functional _ _ _ decided keptOut
      | fragment _ decided => cases functional _ _ _ decided keptOut
      | keptOut _ further => exact ih further

end Expands

abbrev ComesTo (scope : PlanScope) (object : ObjectType) :
    List Selection → List Occurrence → Prop :=
  scope.Expands fun selection decision => scope.counts object selection = .ok decision

private theorem comesTo_of_reachedAll {reach : Selection → Except PlanError (List Occurrence)}
    (each : ∀ selection occurrences, reach selection = .ok occurrences →
      scope.ComesTo object [selection] occurrences)
    {selections : List Selection} {occurrences : List Occurrence}
    (reached : reachedAll reach selections = .ok occurrences) :
    scope.ComesTo object selections occurrences := by
  induction selections generalizing occurrences with
  | nil =>
      cases reached
      exact .nil
  | cons selection rest ih =>
      obtain ⟨first, firstReached, reached⟩ := bind_eq_ok.mp reached
      obtain ⟨others, othersReached, same⟩ := bind_eq_ok.mp reached
      cases same
      exact (each selection first firstReached).append (ih othersReached)

private theorem comesTo_of_reached {allowance : Nat} {selection : Selection}
    {occurrences : List Occurrence}
    (reached : scope.reached object allowance selection = .ok occurrences) :
    scope.ComesTo object [selection] occurrences := by
  induction allowance generalizing selection occurrences with
  | zero => cases reached
  | succ allowance ih =>
      obtain ⟨counted, isCounted, reached⟩ := bind_eq_ok.mp reached
      cases counted with
      | false =>
          cases reached
          exact .keptOut isCounted .nil
      | true =>
          have inside {selections : List Selection}
              (all : reachedAll (scope.reached object allowance) selections =
                .ok occurrences) : scope.ComesTo object selections occurrences :=
            comesTo_of_reachedAll (fun _ _ one => ih one) all
          rw [← List.append_nil occurrences]
          cases selection with
          | field node selections =>
              cases reached
              exact .field isCounted .nil
          | spread name directives =>
              exact .fragment trivial isCounted (inside reached) .nil
          | inline condition directives selections =>
              exact .fragment trivial isCounted (inside reached) .nil

theorem comesTo_iff {selections : List Selection} {occurrences : List Occurrence} :
    scope.ComesTo object selections occurrences ↔
      ∃ allowance, reachedAll (scope.reached object allowance) selections =
        .ok occurrences := by
  constructor
  · intro comesTo
    induction comesTo with
    | nil => exact ⟨0, rfl⟩
    | field decided _ ih =>
        obtain ⟨allowance, rest⟩ := ih
        refine ⟨allowance + 1, bind_eq_ok.mpr ⟨_, bind_eq_ok.mpr ⟨true, decided, rfl⟩, ?_⟩⟩
        exact bind_eq_ok.mpr ⟨_, reachedAll_of_le rest (Nat.le_succ _), rfl⟩
    | @fragment selection _ inside _ isFragment decided _ _ ihEntered ih =>
        obtain ⟨insideAllowance, insideReached⟩ := ihEntered
        obtain ⟨restAllowance, restReached⟩ := ih
        refine ⟨max insideAllowance restAllowance + 1, bind_eq_ok.mpr ⟨inside, ?_, ?_⟩⟩
        · rw [reached_fragment isFragment]
          have all := reachedAll_of_le insideReached (Nat.le_max_left _ restAllowance)
          exact bind_eq_ok.mpr ⟨true, decided, all⟩
        · have le : restAllowance ≤ max insideAllowance restAllowance + 1 := by omega
          exact bind_eq_ok.mpr ⟨_, reachedAll_of_le restReached le, rfl⟩
    | keptOut decided _ ih =>
        obtain ⟨allowance, rest⟩ := ih
        refine ⟨allowance + 1, bind_eq_ok.mpr ⟨[], bind_eq_ok.mpr ⟨false, decided, rfl⟩, ?_⟩⟩
        exact bind_eq_ok.mpr ⟨_, reachedAll_of_le rest (Nat.le_succ _), rfl⟩
  · rintro ⟨allowance, reached⟩
    exact comesTo_of_reachedAll (fun _ _ one => comesTo_of_reached one) reached

theorem ComesTo.unique {selections : List Selection} {first second : List Occurrence}
    (comesTo : scope.ComesTo object selections first)
    (other : scope.ComesTo object selections second) : first = second := by
  refine Expands.unique ?_ comesTo other
  intro selection decision otherDecision decided otherDecided
  rw [decided] at otherDecided
  exact Except.ok.inj otherDecided

/-! ### What contributes -/

/-- Whether a selection contributes to an object: no directive on it, or on the fragment
that it spreads, keeps it out, and a fragment is for the object's type if for any. -/
def Contributes (scope : PlanScope) (object : ObjectType) : Selection → Prop
  | .field node _ => ∀ directive ∈ node.directives, ¬ scope.assignment.KeepsOut directive
  | .spread name directives =>
      (∀ directive ∈ directives, ¬ scope.assignment.KeepsOut directive) ∧
        ∃ fragment, scope.fragments.find? name.item = some fragment ∧
          fragment.condition.item = object.name ∧
            ∀ directive ∈ fragment.directives, ¬ scope.assignment.KeepsOut directive
  | .inline condition directives _ =>
      (∀ directive ∈ directives, ¬ scope.assignment.KeepsOut directive) ∧
        ∀ required, condition = some required → required.item = object.name

private theorem isMeantFor_eq_ok {condition : Located String} {meant : Bool}
    (decided : scope.isMeantFor object condition = .ok meant) :
    meant = true ↔ condition.item = object.name := by
  simp only [isMeantFor] at decided
  by_cases same : object.name = condition.item
  · rw [if_pos same] at decided
    cases decided
    exact ⟨fun _ => same.symm, fun _ => rfl⟩
  · rw [if_neg same] at decided
    split at decided
    · cases decided
      exact ⟨nofun, fun equal => absurd equal.symm same⟩
    · split at decided
      · cases decided
      · cases decided

theorem counts_eq_ok {selection : Selection} {counted : Bool}
    (decided : scope.counts object selection = .ok counted) :
    counted = true ↔ scope.Contributes object selection := by
  cases selection with
  | field node selections => exact Assignment.admitsAll_eq_ok decided
  | spread name directives =>
      obtain ⟨passed, passedIs, decided⟩ := bind_eq_ok.mp decided
      rw [Contributes, ← Assignment.admitsAll_eq_ok passedIs]
      cases passed with
      | false =>
          cases decided
          exact ⟨nofun, fun both => both.1⟩
      | true =>
          cases found : scope.fragments.find? name.item with
          | none =>
              simp only [found] at decided
              cases decided
          | some fragment =>
              simp only [found] at decided
              obtain ⟨meant, meantIs, decided⟩ := bind_eq_ok.mp decided
              have meaning := isMeantFor_eq_ok meantIs
              cases meant with
              | false =>
                  cases decided
                  refine ⟨nofun, ?_⟩
                  rintro ⟨_, _, ⟨⟩, same, _⟩
                  exact meaning.mpr same
              | true =>
                  rw [Assignment.admitsAll_eq_ok decided]
                  constructor
                  · exact fun admitted => ⟨rfl, fragment, rfl, meaning.mp rfl, admitted⟩
                  · rintro ⟨_, _, ⟨⟩, _, admitted⟩
                    exact admitted
  | inline condition directives selections =>
      obtain ⟨passed, passedIs, decided⟩ := bind_eq_ok.mp decided
      rw [Contributes, ← Assignment.admitsAll_eq_ok passedIs]
      cases passed with
      | false =>
          cases decided
          exact ⟨nofun, fun both => both.1⟩
      | true =>
          cases condition with
          | none =>
              cases decided
              exact ⟨fun _ => ⟨rfl, nofun⟩, fun _ => rfl⟩
          | some required =>
              rw [isMeantFor_eq_ok decided]
              constructor
              · rintro same
                refine ⟨rfl, ?_⟩
                rintro _ ⟨⟩
                exact same
              · exact fun both => both.2 required rfl

/-- Whether selections come to occurrences on an object when all and only what contributes
is expanded. -/
def ExpandsOn (scope : PlanScope) (object : ObjectType) :
    List Selection → List Occurrence → Prop :=
  scope.Expands fun selection counted => counted = true ↔ scope.Contributes object selection

theorem ComesTo.expandsOn {selections : List Selection} {occurrences : List Occurrence}
    (comesTo : scope.ComesTo object selections occurrences) :
    scope.ExpandsOn object selections occurrences :=
  comesTo.mono fun _ _ decided => counts_eq_ok decided

theorem ExpandsOn.unique {selections : List Selection} {first second : List Occurrence}
    (expands : scope.ExpandsOn object selections first)
    (other : scope.ExpandsOn object selections second) : first = second := by
  refine Expands.unique ?_ expands other
  intro selection decision otherDecision decided otherDecided
  exact Bool.eq_iff_iff.mpr (decided.trans otherDecided.symm)

end PlanScope

end StagedResolver
