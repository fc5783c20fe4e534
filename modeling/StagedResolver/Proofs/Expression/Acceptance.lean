/-
Which drafts lower, to which lookups, and for which fault the others do not.

A path that names its slot goes out through any number of parents to a current value,
or straight to the arguments or the environment.  A path from the element of a map has
to stand inside that map.  All other paths are in order as they are.
-/
import StagedResolver.Proofs.Expression.Paths

namespace StagedResolver

def LookupRoot.ofDepth : Nat → LookupRoot
  | 0 => .current
  | depth + 1 => .ancestor (depth + 1)

private theorem LookupRoot.ite_eq_ofDepth (depth : Nat) :
    (if depth = 0 then .current else .ancestor depth) = LookupRoot.ofDepth depth := by
  cases depth with
  | zero => rfl
  | succ depth => rfl

def PathStep.parents (count : Nat) : List PathStep :=
  List.replicate count (.key "parent")

def PathStep.slotNames : List PathStep :=
  [.key "parent", .key "value", .key "args", .key "env"]

open PathStep (parents slotNames)

inductive NamesSlot : List PathStep → LookupRoot → List PathStep → Prop where
  | value (depth : Nat) (rest : List PathStep) :
      NamesSlot (parents depth ++ .key "value" :: rest) (.ofDepth depth) rest
  | arguments (rest : List PathStep) : NamesSlot (.key "args" :: rest) .arguments rest
  | environment (rest : List PathStep) : NamesSlot (.key "env" :: rest) .environment rest

/-- Why the first segments of a path name no slot. -/
inductive MissesSlot : List PathStep → LoweringError → Prop where
  | empty : MissesSlot [] .emptyPath
  | incomplete (depth : Nat) :
      MissesSlot (parents (depth + 1)) (.incompletePath (parents (depth + 1)))
  | ancestor (depth : Nat) {name : String} (isRecord : name = "args" ∨ name = "env")
      (rest : List PathStep) :
      MissesSlot (parents (depth + 1) ++ .key name :: rest)
        (.ancestorSlot (parents (depth + 1) ++ [.key name]))
  | unknown (depth : Nat) {segment : PathStep} (noSlot : segment ∉ slotNames)
      (rest : List PathStep) :
      MissesSlot (parents depth ++ segment :: rest) (.unknownSlot segment)

private theorem slot_parents (whole : List PathStep) (depth count : Nat) (rest : List PathStep) :
    slot whole depth (parents count ++ rest) = slot whole (depth + count) rest := by
  induction count generalizing depth with
  | zero => rfl
  | succ count ih =>
      have further := ih (depth + 1)
      rw [Nat.add_right_comm] at further
      unfold parents at further ⊢
      rw [List.replicate_succ, List.cons_append, slot, if_pos rfl]
      exact further

private theorem NamesSlot.slot_eq {segments rest : List PathStep} {root : LookupRoot}
    (names : NamesSlot segments root rest) : slot segments 0 segments = .ok (root, rest) := by
  cases names with
  | value depth =>
      rw [slot_parents, Nat.zero_add, ← LookupRoot.ite_eq_ofDepth]
      rfl
  | arguments => rfl
  | environment => rfl

private theorem MissesSlot.slot_eq {segments : List PathStep} {fault : LoweringError}
    (misses : MissesSlot segments fault) : slot segments 0 segments = .error fault := by
  cases misses with
  | empty => rfl
  | incomplete depth =>
      have atEnd := slot_parents (parents (depth + 1)) 0 (depth + 1) []
      rw [List.append_nil] at atEnd
      rw [atEnd]
      rfl
  | @ancestor depth name isRecord rest =>
      rw [slot_parents, Nat.zero_add]
      have prefixIs : (parents (depth + 1) ++ .key name :: rest).take (depth + 1 + 1) =
          parents (depth + 1) ++ [.key name] := by
        rw [List.take_append, List.take_of_length_le (by simp [parents])]
        simp [parents]
      rcases isRecord with rfl | rfl
      · unfold slot
        simp [prefixIs]
      · unfold slot
        simp [prefixIs]
  | @unknown depth segment noSlot rest =>
      rw [slot_parents]
      cases segment with
      | index position => rfl
      | key name =>
          simp only [slotNames, List.mem_cons, PathStep.key.injEq, List.not_mem_nil, or_false,
            not_or] at noSlot
          obtain ⟨noParent, noValue, noArguments, noEnvironment⟩ := noSlot
          unfold slot
          rw [if_neg noParent, if_neg noValue, if_neg]
          rintro (isArguments | isEnvironment)
          · exact noArguments isArguments
          · exact noEnvironment isEnvironment

/-- A path begins with some number of parents, and something else comes next. -/
theorem PathStep.exists_parents (segments : List PathStep) :
    ∃ depth rest, segments = parents depth ++ rest ∧ ∀ more, rest ≠ .key "parent" :: more := by
  induction segments with
  | nil => exact ⟨0, [], rfl, nofun⟩
  | cons segment segments ih =>
      by_cases isParent : segment = .key "parent"
      · obtain ⟨depth, rest, rfl, noParent⟩ := ih
        refine ⟨depth + 1, rest, ?_, noParent⟩
        rw [isParent, parents, parents, List.replicate_succ, List.cons_append]
      · refine ⟨0, segment :: segments, rfl, ?_⟩
        intro more same
        cases same
        exact isParent rfl

private theorem namesSlot_or_missesSlot (segments : List PathStep) :
    (∃ root rest, NamesSlot segments root rest) ∨ ∃ fault, MissesSlot segments fault := by
  obtain ⟨depth, rest, rfl, noParent⟩ := PathStep.exists_parents segments
  cases rest with
  | nil =>
      right
      rw [List.append_nil]
      cases depth with
      | zero => exact ⟨_, .empty⟩
      | succ depth => exact ⟨_, .incomplete depth⟩
  | cons segment rest =>
      by_cases isValue : segment = .key "value"
      · rw [isValue]
        exact .inl ⟨_, _, .value depth rest⟩
      by_cases isRecord : segment = .key "args" ∨ segment = .key "env"
      · cases depth with
        | zero =>
            left
            rcases isRecord with rfl | rfl
            · exact ⟨_, _, .arguments rest⟩
            · exact ⟨_, _, .environment rest⟩
        | succ depth =>
            right
            rcases isRecord with rfl | rfl
            · exact ⟨_, .ancestor depth (.inl rfl) rest⟩
            · exact ⟨_, .ancestor depth (.inr rfl) rest⟩
      · refine .inr ⟨_, .unknown depth ?_ rest⟩
        have isNoParent : segment ≠ .key "parent" := by
          rintro rfl
          exact noParent rest rfl
        simpa [slotNames, isNoParent, isValue] using isRecord

theorem bindingIndex?_of_notMem {name : BindingName} {scope : List BindingName}
    (free : name ∉ scope) : bindingIndex? name scope = none := by
  induction scope with
  | nil => rfl
  | cons inner outer ih =>
      have different : inner ≠ name := (List.ne_of_not_mem_cons free).symm
      rw [bindingIndex?, if_neg different, ih (List.not_mem_of_not_mem_cons free)]
      rfl

theorem bindingIndex?_append {name : BindingName} {inner : List BindingName}
    (innermost : name ∉ inner) (outer : List BindingName) :
    bindingIndex? name (inner ++ name :: outer) = some inner.length := by
  induction inner with
  | nil => exact if_pos rfl
  | cons first inner ih =>
      have different : first ≠ name := (List.ne_of_not_mem_cons innermost).symm
      have further := ih (List.not_mem_of_not_mem_cons innermost)
      rw [List.cons_append, bindingIndex?, if_neg different, further]
      rfl

/-! ### Paths where they stand -/

namespace PlacedPath

/-- The lookup that a path becomes.  Its segments are those behind the slot, and its type
is kept. -/
inductive Becomes : PlacedPath → Lookup → Prop where
  | named {segments rest : List PathStep} {root : LookupRoot} (scope : List BindingName)
      (expected : ValueType) (names : NamesSlot segments root rest) :
      Becomes ⟨scope, .named, segments, expected⟩ ⟨root, rest, expected⟩
  | current (scope : List BindingName) (segments : List PathStep) (expected : ValueType) :
      Becomes ⟨scope, .current, segments, expected⟩ ⟨.current, segments, expected⟩
  | ancestor (scope : List BindingName) (depth : Nat) (segments : List PathStep)
      (expected : ValueType) :
      Becomes ⟨scope, .ancestor depth, segments, expected⟩ ⟨.ofDepth depth, segments, expected⟩
  | arguments (scope : List BindingName) (segments : List PathStep) (expected : ValueType) :
      Becomes ⟨scope, .arguments, segments, expected⟩ ⟨.arguments, segments, expected⟩
  | environment (scope : List BindingName) (segments : List PathStep) (expected : ValueType) :
      Becomes ⟨scope, .environment, segments, expected⟩ ⟨.environment, segments, expected⟩
  | element {name : BindingName} {inner : List BindingName} (innermost : name ∉ inner)
      (outer : List BindingName) (segments : List PathStep) (expected : ValueType) :
      Becomes ⟨inner ++ name :: outer, .binding name, segments, expected⟩
        ⟨.element inner.length, segments, expected⟩

inductive Fails : PlacedPath → LoweringError → Prop where
  | named {segments : List PathStep} {fault : LoweringError} (scope : List BindingName)
      (expected : ValueType) (misses : MissesSlot segments fault) :
      Fails ⟨scope, .named, segments, expected⟩ fault
  | unbound {scope : List BindingName} {name : BindingName} (free : name ∉ scope)
      (segments : List PathStep) (expected : ValueType) :
      Fails ⟨scope, .binding name, segments, expected⟩ .unboundElement

/-- Whether a path names a slot as it has to, or the element of a map around it. -/
def IsWellFormed (place : PlacedPath) : Prop :=
  match place.path.origin with
  | .named =>
      (∃ depth rest, place.path.segments = parents depth ++ .key "value" :: rest) ∨
        (∃ rest, place.path.segments = .key "args" :: rest) ∨
        ∃ rest, place.path.segments = .key "env" :: rest
  | .binding name => name ∈ place.scope
  | _ => True

variable {place : PlacedPath} {lookup : Lookup} {fault : LoweringError}

private theorem Becomes.lower_eq (becomes : place.Becomes lookup) : place.lower = .ok lookup := by
  cases becomes with
  | named scope expected names =>
      unfold lower lowerRead
      rw [names.slot_eq]
      rfl
  | ancestor scope depth segments expected =>
      rw [← LookupRoot.ite_eq_ofDepth]
      rfl
  | element innermost outer segments expected =>
      unfold lower lowerRead
      simp only [bindingIndex?_append innermost]
      rfl
  | _ => rfl

private theorem Fails.lower_eq (fails : place.Fails fault) : place.lower = .error fault := by
  cases fails with
  | named scope expected misses =>
      unfold lower lowerRead
      rw [misses.slot_eq]
      rfl
  | unbound free segments expected =>
      unfold lower lowerRead
      simp only [bindingIndex?_of_notMem free]
      rfl

private theorem becomes_or_fails (place : PlacedPath) :
    (∃ lookup, place.Becomes lookup) ∨ ∃ fault, place.Fails fault := by
  obtain ⟨scope, origin, segments, expected⟩ := place
  cases origin with
  | named =>
      rcases namesSlot_or_missesSlot segments with ⟨root, rest, names⟩ | ⟨fault, misses⟩
      · exact .inl ⟨_, .named scope expected names⟩
      · exact .inr ⟨_, .named scope expected misses⟩
  | current => exact .inl ⟨_, .current scope segments expected⟩
  | ancestor depth => exact .inl ⟨_, .ancestor scope depth segments expected⟩
  | arguments => exact .inl ⟨_, .arguments scope segments expected⟩
  | environment => exact .inl ⟨_, .environment scope segments expected⟩
  | binding name =>
      by_cases bound : name ∈ scope
      · obtain ⟨inner, outer, rfl, innermost⟩ := List.eq_append_cons_of_mem bound
        exact .inl ⟨_, .element innermost outer segments expected⟩
      · exact .inr ⟨_, .unbound bound segments expected⟩

private theorem lower_eq_ok : place.lower = .ok lookup ↔ place.Becomes lookup := by
  constructor
  · intro lowers
    rcases place.becomes_or_fails with ⟨other, becomes⟩ | ⟨fault, fails⟩
    · rw [becomes.lower_eq] at lowers
      cases lowers
      exact becomes
    · rw [fails.lower_eq] at lowers
      cases lowers
  · exact Becomes.lower_eq

private theorem lower_eq_error : place.lower = .error fault ↔ place.Fails fault := by
  constructor
  · intro lowers
    rcases place.becomes_or_fails with ⟨lookup, becomes⟩ | ⟨other, fails⟩
    · rw [becomes.lower_eq] at lowers
      cases lowers
    · rw [fails.lower_eq] at lowers
      cases lowers
      exact fails
  · exact Fails.lower_eq

private theorem isWellFormed_iff : place.IsWellFormed ↔ ∃ lookup, place.lower = .ok lookup := by
  simp only [lower_eq_ok]
  constructor
  · intro wellFormed
    obtain ⟨scope, origin, segments, expected⟩ := place
    cases origin with
    | named =>
        rcases wellFormed with ⟨depth, rest, same⟩ | ⟨rest, same⟩ | ⟨rest, same⟩
        · cases same
          exact ⟨_, .named scope expected (.value depth rest)⟩
        · cases same
          exact ⟨_, .named scope expected (.arguments rest)⟩
        · cases same
          exact ⟨_, .named scope expected (.environment rest)⟩
    | binding name =>
        obtain ⟨inner, outer, same, innermost⟩ := List.eq_append_cons_of_mem wellFormed
        cases same
        exact ⟨_, .element innermost outer segments expected⟩
    | current => exact ⟨_, .current scope segments expected⟩
    | ancestor depth => exact ⟨_, .ancestor scope depth segments expected⟩
    | arguments => exact ⟨_, .arguments scope segments expected⟩
    | environment => exact ⟨_, .environment scope segments expected⟩
  · rintro ⟨lookup, becomes⟩
    cases becomes with
    | named scope expected names =>
        cases names with
        | value depth => exact .inl ⟨depth, _, rfl⟩
        | arguments => exact .inr (.inl ⟨_, rfl⟩)
        | environment => exact .inr (.inr ⟨_, rfl⟩)
    | element innermost outer => exact List.mem_append_right _ (List.mem_cons_self ..)
    | _ => trivial

private theorem Becomes.ancestor_pos (becomes : place.Becomes lookup) {depth : Nat}
    (isAncestor : lookup.root = .ancestor depth) : 1 ≤ depth := by
  have ofDepth (other : Nat) (same : LookupRoot.ofDepth other = .ancestor depth) :
      1 ≤ depth := by
    cases other with
    | zero => cases same
    | succ other =>
        cases same
        omega
  cases becomes with
  | named _ _ names =>
      cases names with
      | value other => exact ofDepth other isAncestor
      | arguments => cases isAncestor
      | environment => cases isAncestor
  | ancestor _ other => exact ofDepth other isAncestor
  | _ => cases isAncestor

end PlacedPath

/-- A draft lowers exactly when all of its paths are well formed, to lookups that these paths
become; otherwise it fails as the first path that is not.  Whether a slot is named by the first
segments of a path or by its origin makes no difference. -/
theorem Draft.lower_exact (draft : Draft) :
    ((∃ expression, draft.lower = .ok expression) ↔
        ∀ place ∈ draft.pathsIn [], place.IsWellFormed) ∧
      (∀ fault, draft.lower = .error fault ↔
        ∃ before place after, draft.pathsIn [] = before ++ place :: after ∧
          (∀ earlier ∈ before, earlier.IsWellFormed) ∧ place.Fails fault) ∧
      (∀ expression, draft.lower = .ok expression →
        List.Forall₂ PlacedPath.Becomes (draft.pathsIn []) expression.lookups ∧
          ∀ lookup ∈ expression.lookups, ∀ depth, lookup.root = .ancestor depth → 1 ≤ depth) ∧
      ∀ (scope : List BindingName) (rest : List PathStep) (expected : ValueType),
        (∀ depth, (Draft.read .named (parents depth ++ .key "value" :: rest) expected).lowerIn
            scope = (Draft.read (.ancestor depth) rest expected).lowerIn scope) ∧
          (Draft.read .current rest expected).lowerIn scope =
            (Draft.read (.ancestor 0) rest expected).lowerIn scope ∧
          (Draft.read .named (.key "args" :: rest) expected).lowerIn scope =
            (Draft.read .arguments rest expected).lowerIn scope ∧
          (Draft.read .named (.key "env" :: rest) expected).lowerIn scope =
            (Draft.read .environment rest expected).lowerIn scope := by
  refine ⟨?_, ?_, ?_, ?_⟩
  · rw [← faultOf?_eq_none, lower, faultOf?_lowerIn, List.findSome?_eq_none_iff]
    simp only [faultOf?_eq_none, PlacedPath.isWellFormed_iff]
  · intro fault
    rw [← faultOf?_eq_some, lower, faultOf?_lowerIn, List.findSome?_eq_some_iff]
    simp only [faultOf?_eq_some, faultOf?_eq_none, PlacedPath.isWellFormed_iff,
      PlacedPath.lower_eq_error]
    constructor
    · rintro ⟨before, place, after, pathsAre, fails, wellFormed⟩
      exact ⟨before, place, after, pathsAre, wellFormed, fails⟩
    · rintro ⟨before, place, after, pathsAre, wellFormed, fails⟩
      exact ⟨before, place, after, pathsAre, fails, wellFormed⟩
  · intro expression lowers
    have becomes : List.Forall₂ PlacedPath.Becomes (draft.pathsIn []) expression.lookups :=
      (forall₂_lower_of_lowerIn lowers).imp fun _ _ => PlacedPath.lower_eq_ok.mp
    refine ⟨becomes, fun lookup member depth isAncestor => ?_⟩
    obtain ⟨place, _, placeBecomes⟩ := exists_mem_of_forall₂ becomes lookup member
    exact placeBecomes.ancestor_pos isAncestor
  · intro scope rest expected
    refine ⟨fun depth => ?_, rfl, rfl, rfl⟩
    have named := PlacedPath.Becomes.named scope expected (.value depth rest)
    have explicit := PlacedPath.Becomes.ancestor scope depth rest expected
    rw [lowerIn_read, lowerIn_read, named.lower_eq, explicit.lower_eq]

end StagedResolver
