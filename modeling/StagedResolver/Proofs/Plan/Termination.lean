/-
Planning ends.

Planning by itself does not keep fragments from leading to themselves.  What the check lets
through leads so deep that the allowance, which is known from the document alone, is
enough: whatever the schema, planning never gives up for depth.
-/
import StagedResolver.Proofs.Plan.Faults
import StagedResolver.Proofs.Plan.Merging
import StagedResolver.Proofs.Plan.Nesting

namespace StagedResolver

section Completion

variable {α : Type}

/-- Whether a computation ends otherwise than by giving up for depth. -/
def EndsInDepth (computation : Except PlanError α) : Prop :=
  computation ≠ .error .tooDeep

private theorem Approximates.eq_of_ends {first second : Except PlanError α}
    (approximates : Approximates first second) (ends : EndsInDepth first) : first = second :=
  approximates.resolve_left ends

end Completion

namespace Document

/-- Whether what a selection leads to takes fewer calls inside each other than that. -/
def Clears (document : Document) (calls : Nat) (selection : Selection) : Prop :=
  ∃ entered, document.Valid none entered 0 [selection] ∧
    selection.depth + document.room entered < calls

variable {document : Document} {calls depth : Nat} {entered : List String}
variable {limit : Option Nat} {selections : List Selection}

theorem Valid.unlimited (valid : document.Valid limit entered depth selections)
    (other : Nat) : document.Valid none entered other selections :=
  ⟨valid.outside, valid.acyclic, fun _ _ => rfl⟩

theorem Clears.mono {selection : Selection} {more : Nat}
    (clears : document.Clears calls selection) (le : calls ≤ more) :
    document.Clears more selection := by
  obtain ⟨entered, valid, enough⟩ := clears
  exact ⟨entered, valid, Nat.lt_of_lt_of_le enough le⟩

private theorem valid_cons {selection : Selection} {rest : List Selection} :
    document.Valid limit entered depth (selection :: rest) ↔
      document.Valid limit entered depth [selection] ∧
        document.Valid limit entered depth rest := by
  cases selection with
  | field node inner =>
      rw [valid_field_cons, @valid_field_cons _ _ _ _ [], and_iff_left valid_nil, and_assoc]
  | spread name directives =>
      rw [valid_spread_cons, @valid_spread_cons _ _ _ _ [], and_iff_left valid_nil]
  | inline condition directives inner =>
      rw [valid_inline_cons, @valid_inline_cons _ _ _ _ [], and_iff_left valid_nil]

private theorem clears_of_mem (valid : document.Valid none entered 0 selections)
    (enough : Selection.depthOfAll selections + document.room entered < calls) :
    ∀ selection ∈ selections, document.Clears calls selection := by
  induction selections with
  | nil => exact List.forall_mem_nil _
  | cons selection rest ih =>
      rw [Selection.depthOfAll] at enough
      obtain ⟨first, others⟩ := valid_cons.mp valid
      exact List.forall_mem_cons.mpr ⟨⟨entered, first, by omega⟩, ih others (by omega)⟩

theorem Clears.field {node : FieldNode}
    (clears : document.Clears (calls + 1) (.field node selections)) :
    ∀ selection ∈ selections, document.Clears calls selection := by
  obtain ⟨entered, valid, enough⟩ := clears
  cases selections with
  | nil => exact List.forall_mem_nil _
  | cons first others =>
      simp only [Selection.depth, List.isEmpty_cons, Bool.false_eq_true, if_false] at enough
      exact clears_of_mem ((valid_field_cons.mp valid).2.1.unlimited 0) (by omega)

theorem Clears.content {scope : PlanScope} {fragment : Selection}
    (sameFragments : scope.fragments = document.fragments) (isFragment : fragment.IsFragment)
    (clears : document.Clears (calls + 1) fragment) :
    ∀ selection ∈ scope.contentOf fragment, document.Clears calls selection := by
  obtain ⟨entered, valid, enough⟩ := clears
  cases fragment with
  | field => cases isFragment
  | inline condition directives selections =>
      have inside : Selection.depthOfAll selections + document.room entered < calls := by
        rw [Selection.depth] at enough
        omega
      exact clears_of_mem (valid_inline_cons.mp valid).1 inside
  | spread name directives =>
      rw [PlanScope.contentOf, sameFragments]
      cases found : document.fragments.find? name.item with
      | none => exact List.forall_mem_nil _
      | some fragment =>
          obtain ⟨⟨fresh, inside⟩, _⟩ := valid_spread_cons.mp valid
          have leftOver : Selection.depthOfAll fragment.selections +
              document.room (name.item :: entered) < calls := by
            have room := room_enter found fresh
            omega
          exact clears_of_mem (inside fragment found) leftOver

end Document

/-! ### Planning -/

namespace PlanScope

variable {scope : PlanScope} {document : Document} {object : ObjectType} {calls : Nat}

private theorem failsOfRequest_reached (sameFragments : scope.fragments = document.fragments)
    {selection : Selection} (clears : document.Clears calls selection) :
    FailsOfRequest (scope.reached object calls selection) := by
  induction calls generalizing selection with
  | zero =>
      obtain ⟨_, _, impossible⟩ := clears
      cases impossible
  | succ calls ih =>
      have inside (isFragment : selection.IsFragment) :
          FailsOfRequest (reachedAll (scope.reached object calls) (scope.contentOf selection)) :=
        failsOfRequest_reachedAll fun one member =>
          ih (clears.content sameFragments isFragment one member)
      refine (failsOfRequest_counts selection).bind fun counted _ => ?_
      cases counted with
      | false => exact .ok _
      | true =>
          cases selection with
          | field node selections => exact .ok _
          | spread name directives => exact inside trivial
          | inline condition directives selections => exact inside trivial

/-- What is selected on the fields that cleared selections come to takes one call less. -/
theorem clears_of_comesTo (sameFragments : scope.fragments = document.fragments)
    {selections : List Selection} {occurrences : List Occurrence}
    (comesTo : scope.ComesTo object selections occurrences)
    (clears : ∀ selection ∈ selections, document.Clears (calls + 1) selection) :
    ∀ occurrence ∈ occurrences, ∀ selection ∈ occurrence.selections,
      document.Clears calls selection := by
  induction comesTo with
  | nil => exact List.forall_mem_nil _
  | field _ _ ih =>
      obtain ⟨first, others⟩ := List.forall_mem_cons.mp clears
      exact List.forall_mem_cons.mpr ⟨first.field, ih others⟩
  | fragment isFragment _ _ _ ihEntered ih =>
      obtain ⟨first, others⟩ := List.forall_mem_cons.mp clears
      have inside := first.content sameFragments isFragment
      refine List.forall_mem_append.mpr ⟨ihEntered fun selection member => ?_, ih others⟩
      exact (inside selection member).mono (Nat.le_succ calls)
  | keptOut _ _ ih => exact ih (List.forall_mem_cons.mp clears).2

/-- Planning on what is cleared never gives up: what goes wrong is up to the request, or an
object type is missing. -/
theorem fails_planSelections (sameFragments : scope.fragments = document.fragments)
    {id : ObjectIndex} {lists : List (List Selection)}
    (clears : ∀ list ∈ lists, ∀ selection ∈ list, document.Clears calls selection) :
    FailsAmong (scope.schema.PlanFault id) (scope.planSelections (calls + 1) id lists) := by
  induction calls generalizing id lists with
  | zero =>
      -- Nothing takes less than no call, so that nothing is selected.
      have nothing : lists.flatten = [] := by
        refine List.eq_nil_iff_forall_not_mem.mpr fun selection member => ?_
        obtain ⟨list, listMember, inList⟩ := List.mem_flatten.mp member
        obtain ⟨_, _, impossible⟩ := clears list listMember selection inList
        cases impossible
      rw [planSelections_flatten, nothing]
      simp only [planSelections]
      split
      · rename_i missing
        exact .error (.missing missing (.inl rfl))
      · exact .ok _
  | succ calls ih =>
      have all : ∀ selection ∈ lists.flatten, document.Clears (calls + 1) selection := by
        intro selection member
        obtain ⟨list, listMember, inList⟩ := List.mem_flatten.mp member
        exact clears list listMember selection inList
      rw [planSelections]
      simp only [collectAll_eq_reachedAll]
      split
      · rename_i missing
        exact .error (.missing missing (.inl rfl))
      · rename_i object objectIs
        have collects : FailsOfRequest
            (reachedAll (scope.reached object (calls + 1)) lists.flatten) :=
          failsOfRequest_reachedAll fun selection member =>
            failsOfRequest_reached sameFragments (all selection member)
        refine ((collects.map groupsOf).mono fun _ => .ofRequest).bind fun groups collected => ?_
        refine (FailsAmong.mapM fun group member => ?_).bind fun _ _ => .ok _
        obtain ⟨occurrences, reached, rfl⟩ := map_eq_ok.mp collected
        have inside :=
          clears_of_comesTo sameFragments (comesTo_iff.mpr ⟨_, reached⟩) all
        have ofGroup : group.2.occurrences = occurrencesOf group.1 occurrences :=
          occurrences_of_mem_groupsOf member
        have cleared : ∀ list ∈ group.2.selections, ∀ selection ∈ list,
            document.Clears calls selection := by
          intro list listMember
          obtain ⟨occurrence, inGroup, rfl⟩ := List.mem_map.mp (List.mem_filter.mp listMember).1
          rw [ofGroup] at inGroup
          exact inside occurrence (List.mem_filter.mp inGroup).1
        exact fails_planGroup objectIs fun inner => ih cleared

private theorem endsInDepth_planSelections (sameFragments : scope.fragments = document.fragments)
    {id : ObjectIndex} {lists : List (List Selection)}
    (clears : ∀ list ∈ lists, ∀ selection ∈ list, document.Clears calls selection) :
    EndsInDepth (scope.planSelections (calls + 1) id lists) :=
  fun tooDeep => (fails_planSelections sameFragments clears _ tooDeep).ne_tooDeep rfl

private theorem allowance_eq_nesting (sameFragments : scope.fragments = document.fragments)
    (selections : List Selection) :
    scope.allowance selections = document.nesting selections := by
  simp only [allowance, Document.foldr_eq_roomIn, sameFragments, Document.nesting, Document.room]

/-- What goes wrong in planning what the check lets through is up to the request, or an object
type is missing. -/
theorem fails_plan (sameFragments : scope.fragments = document.fragments) {limit : Option Nat}
    {selections : List Selection} (accepted : document.check limit selections = .ok ()) :
    FailsAmong (scope.schema.PlanFault scope.schema.query) (scope.plan selections) := by
  have valid := (Document.walk_eq_ok_iff.mp accepted).unlimited 0
  have clears := Document.clears_of_mem valid (Nat.lt_succ_self _)
  rw [plan, allowance_eq_nesting sameFragments]
  exact fails_planSelections sameFragments (List.forall_mem_singleton.mpr clears)

end PlanScope

namespace Document

/-- The check and, once it lets a query through, planning end within a number of calls
inside each other that is known from the document, whatever the schema.  More calls change
nothing. -/
theorem nesting_suffices (document : Document) (selections : List Selection) :
    (∀ limit calls, document.nesting selections ≤ calls →
      document.walkWithin limit calls [] 0 selections =
        (document.check limit selections).mapError some) ∧
      ∀ limit, document.check limit selections = .ok () → ∀ scope : PlanScope,
        scope.fragments = document.fragments →
          scope.plan selections ≠ .error .tooDeep ∧
            ∀ id allowance, document.nesting selections ≤ allowance →
              scope.planSelections allowance id [selections] ≠ .error .tooDeep ∧
                scope.planSelections allowance id [selections] =
                  scope.planSelections (document.nesting selections) id [selections] := by
  constructor
  · intro limit calls enough
    refine walkWithin_eq ?_
    rw [nesting] at enough
    omega
  · intro limit accepted scope sameFragments
    have valid := (walk_eq_ok_iff.mp accepted).unlimited 0
    have clears := clears_of_mem valid (Nat.lt_succ_self _)
    have ends (id : ObjectIndex) : EndsInDepth
        (scope.planSelections (document.nesting selections) id [selections]) :=
      scope.endsInDepth_planSelections sameFragments (List.forall_mem_singleton.mpr clears)
    refine ⟨?_, fun id allowance enough => ?_⟩
    · rw [PlanScope.plan, PlanScope.allowance_eq_nesting sameFragments]
      exact ends scope.schema.query
    · have same := (scope.planSelections_approximates enough id [selections]).eq_of_ends (ends id)
      rw [← same]
      exact ⟨ends id, rfl⟩

end Document

/-! ### Fragments on a type that contains itself -/

def Schema.ofSelves : Schema :=
  let itself : ObjectField :=
    ⟨"self", .named "Query" true, .empty, ⟨.passthrough "self", .object 0 true⟩⟩
  ⟨0, [⟨"Query", .ofEntries [("self", itself)]⟩]⟩

def Document.ofSelves : Document :=
  let inSelf (selection : Selection) : Selection :=
    .field ⟨none, ⟨"self", ⟨1, 1⟩⟩, [], []⟩ [selection]
  let typename : Selection := .field ⟨none, ⟨"__typename", ⟨1, 1⟩⟩, [], []⟩ []
  ⟨[], .ofEntries [("A", ⟨⟨"Query", ⟨1, 1⟩⟩, [], [inSelf (.spread ⟨"B", ⟨1, 1⟩⟩ [])]⟩),
    ("B", ⟨⟨"Query", ⟨1, 1⟩⟩, [], [inSelf typename]⟩)]⟩

def PlanScope.ofSelves : PlanScope :=
  ⟨.ofSelves, Document.ofSelves.fragments, ⟨[], []⟩, .selection⟩

namespace Document

theorem nesting_suffices_ofSelves :
    ofSelves.check none [.spread ⟨"A", ⟨1, 1⟩⟩ []] = .ok () ∧
      ofSelves.nesting [.spread ⟨"A", ⟨1, 1⟩⟩ []] = 6 ∧
      ∀ allowance, 6 ≤ allowance →
        PlanScope.ofSelves.planSelections allowance 0 [[.spread ⟨"A", ⟨1, 1⟩⟩ []]] =
          .ok ⟨0, [.composite "self" ⟨1, 1⟩ "self" [] 0
            [.composite "self" ⟨1, 1⟩ "self" [] 0 [.typename "__typename" ⟨1, 1⟩]]]⟩ := by
  have accepted : ofSelves.check none [.spread ⟨"A", ⟨1, 1⟩⟩ []] = .ok () := by
    refine walk_eq_ok_iff.mpr (valid_spread_cons.mpr ⟨⟨List.not_mem_nil, ?_⟩, valid_nil⟩)
    rintro _ ⟨⟩
    refine valid_field_cons.mpr ⟨rfl, valid_spread_cons.mpr ⟨⟨by simp, ?_⟩, valid_nil⟩, valid_nil⟩
    rintro _ ⟨⟩
    refine valid_field_cons.mpr ⟨rfl, ?_, valid_nil⟩
    exact valid_field_cons.mpr ⟨rfl, valid_nil, valid_nil⟩
  have bound : ofSelves.nesting [.spread ⟨"A", ⟨1, 1⟩⟩ []] = 6 := rfl
  refine ⟨accepted, bound, fun allowance enough => ?_⟩
  have unchanged :=
    (nesting_suffices ofSelves [.spread ⟨"A", ⟨1, 1⟩⟩ []]).2 none accepted .ofSelves rfl
  rw [(unchanged.2 0 allowance enough).2, bound]
  rfl

end Document

end StagedResolver
