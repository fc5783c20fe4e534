/-
What is read off the arguments and the environment.

Every lookup of a lowered draft comes from a path of the draft, with the same segments after
its slot and the same type.  One from the arguments or the environment finds in their record
what a path from a current value that is this record finds there, as long as it has a segment.
Without any it finds nothing, where the other path finds the record; the paths that lower to
such lookups are those that name a slot and nothing in it.
-/
import StagedResolver.Proofs.Evaluation.Walking
import StagedResolver.Proofs.Expression.LoweringMeaning
import StagedResolver.Proofs.Expression.Paths

namespace StagedResolver

namespace DraftPath

/-- Whether a lookup is what a path lowers to inside some bindings. -/
def LowersTo (path : DraftPath) (lookup : Lookup) : Prop :=
  ∃ scope, lowerRead scope path.origin path.segments = .ok (lookup.root, lookup.segments) ∧
    lookup.expected = path.expected

/-- Whether a path names the arguments or the environment and nothing in them. -/
def NamesRecord (path : DraftPath) : Prop :=
  (path.origin = .arguments ∨ path.origin = .environment) ∧ path.segments = [] ∨
    path.origin = .named ∧ (path.segments = [.key "args"] ∨ path.segments = [.key "env"])

end DraftPath

namespace Draft

private theorem lowersTo_of_lowerIn {scope : List BindingName} {draft : Draft}
    {expression : Expression} (lowers : draft.lowerIn scope = .ok expression) :
    List.Forall₂ DraftPath.LowersTo draft.paths expression.lookups := by
  rw [← map_path_pathsIn scope draft, List.forall₂_map_left_iff]
  refine (forall₂_lower_of_lowerIn lowers).imp fun place lookup lookupIs => ?_
  obtain ⟨start, startIs, rfl⟩ := map_eq_ok.mp lookupIs
  exact ⟨place.scope, startIs, rfl⟩

end Draft

/-! ### Slots that hold records -/

def Context.withCurrent (context : Context) (current : Value) : Context :=
  { context with current := current }

/-- The record that a root names, if it names one. -/
def Context.recordAt? (context : Context) : LookupRoot → Option Record
  | .arguments => some context.arguments
  | .environment => some context.environment
  | _ => none

private theorem valueRoot_ne_record (depth : Nat) :
    let root : LookupRoot := if depth = 0 then .current else .ancestor depth
    ¬ (root = .arguments ∨ root = .environment) := by
  intro root isRecord
  simp only [root] at isRecord
  split at isRecord
  · rcases isRecord with impossible | impossible <;> cases impossible
  · rcases isRecord with impossible | impossible <;> cases impossible

private theorem slot_eq_record {segments : List PathStep} {start : LookupRoot × List PathStep}
    (lowered : slot segments 0 segments = .ok start)
    (isRecord : start.1 = .arguments ∨ start.1 = .environment) :
    segments = .key "args" :: start.2 ∨ segments = .key "env" :: start.2 := by
  obtain ⟨name, rest, dropped, sameRest, slots⟩ := slot_eq_ok lowered
  simp only [Nat.zero_add] at slots
  have atOnce (none : (segments.takeWhile PathStep.isParent).length = 0) :
      segments = .key name :: start.2 := by
    rw [sameRest, ← dropped]
    have whole := List.takeWhile_append_dropWhile (p := PathStep.isParent) (l := segments)
    rw [List.length_eq_zero_iff.mp none] at whole
    exact whole.symm
  rcases slots with ⟨_, root⟩ | ⟨depth, rfl, _⟩ | ⟨depth, rfl, _⟩
  · rw [root] at isRecord
    exact absurd isRecord (valueRoot_ne_record _)
  · exact .inl (atOnce depth)
  · exact .inr (atOnce depth)

private theorem slot_segments_eq_nil_iff {segments : List PathStep}
    {start : LookupRoot × List PathStep} (lowered : slot segments 0 segments = .ok start)
    (isRecord : start.1 = .arguments ∨ start.1 = .environment) :
    start.2 = [] ↔ segments = [.key "args"] ∨ segments = [.key "env"] := by
  rcases slot_eq_record lowered isRecord with named | named
  · rw [named]
    simp
  · rw [named]
    simp

private theorem DraftPath.LowersTo.segments_eq_nil_iff {path : DraftPath} {lookup : Lookup}
    (lowers : path.LowersTo lookup)
    (isRecord : lookup.root = .arguments ∨ lookup.root = .environment) :
    lookup.segments = [] ↔ path.NamesRecord := by
  obtain ⟨root, rest, type⟩ := lookup
  obtain ⟨origin, segments, expected⟩ := path
  obtain ⟨scope, startIs, -⟩ := lowers
  simp only [NamesRecord]
  cases origin with
  | named => simpa using slot_segments_eq_nil_iff startIs isRecord
  | arguments =>
      cases startIs
      simp
  | environment =>
      cases startIs
      simp
  | current =>
      cases startIs
      exact absurd isRecord (valueRoot_ne_record 0)
  | ancestor depth =>
      cases startIs
      exact absurd isRecord (valueRoot_ne_record depth)
  | binding name =>
      simp only [lowerRead] at startIs
      split at startIs
      · cases startIs
        rcases isRecord with impossible | impossible <;> cases impossible
      · cases startIs

namespace Lookup

variable {lookup : Lookup} {context : Context} {elements : List Value} {record : Record}

/-- The lookup that takes the same steps from the current value. -/
def fromCurrent (lookup : Lookup) : Lookup :=
  { lookup with root := .current }

private theorem findInRecord_eq_findIn_iff :
    lookup.findInRecord record = lookup.findIn (.record record) ↔ lookup.segments ≠ [] := by
  constructor
  · intro same noSegments
    rw [findInRecord, findIn, noSegments] at same
    cases same
  · exact fun hasSegments => findInRecord_eq_findIn hasSegments record

private theorem resolve_of_recordAt? (slot : context.recordAt? lookup.root = some record) :
    lookup.resolve context elements = lookup.findInRecord record >>= lookup.check := by
  obtain ⟨root, segments, expected⟩ := lookup
  cases root with
  | arguments | environment =>
      cases slot
      rfl
  | _ => cases slot

/-- With segments a lookup reads off its record, diagnostics apart, what it reads off a current
value that is this record. -/
theorem resolve_kind_fromCurrent (slot : context.recordAt? lookup.root = some record)
    (hasSegments : lookup.segments ≠ []) :
    (lookup.resolve context elements).mapError EvaluationError.kind =
      (lookup.fromCurrent.resolve (context.withCurrent (.record record)) elements).mapError
        EvaluationError.kind := by
  rw [resolve_of_recordAt? slot, findInRecord_eq_findIn hasSegments]
  exact mapError_bind_congr (follow_kind lookup lookup.fromCurrent lookup.segments _)
    (check_kind lookup lookup.fromCurrent rfl)

private theorem resolve_of_isBareSlot (bare : lookup.IsBareSlot) :
    lookup.resolve context elements =
      if lookup.expected.isOptional then .ok .absent else .error (.missingPath lookup) := by
  rw [resolve_of_finds (.slot bare)]
  exact @check_of_nothing lookup none rfl

/-- Without segments a lookup from a current value that is a record reads this record. -/
theorem resolve_fromCurrent_of_noSegments (noSegments : lookup.segments = []) :
    lookup.fromCurrent.resolve (context.withCurrent (.record record)) elements =
      if lookup.expected.admits (.record record) then .ok (lookup.fit (.record record))
      else .error (.pathMismatch lookup.fromCurrent .record) := by
  have found : lookup.fromCurrent.findIn (.record record) = .ok (some (.record record)) := by
    show lookup.fromCurrent.follow lookup.segments (.record record) = _
    rw [noSegments]
    rfl
  show lookup.fromCurrent.findIn (.record record) >>= lookup.fromCurrent.check = _
  rw [found]
  rfl

end Lookup

/-- Every lookup from the arguments or the environment in a lowered draft finds in their record
what the walk from the record finds, and reads what a lookup from a current value that is this
record reads, as long as it has a segment.  The exceptions are the paths of the draft that name a
slot and nothing in it: their lookups find nothing, where the current value is found. -/
theorem Draft.recordLookup_exact {draft : Draft} {expression : Expression} {lookup : Lookup}
    (lowers : draft.lower = .ok expression) (isLookup : lookup ∈ expression.lookups)
    (isRecord : lookup.root = .arguments ∨ lookup.root = .environment) :
    (∃ path ∈ draft.paths, path.LowersTo lookup ∧
        (lookup.segments = [] ↔ path.NamesRecord)) ∧
      ∀ record : Record,
        (lookup.findInRecord record = lookup.findIn (.record record) ↔
          lookup.segments ≠ []) ∧
        ∀ (context : Context) (elements : List Value),
          context.recordAt? lookup.root = some record →
            (lookup.segments ≠ [] →
              (lookup.resolve context elements).mapError EvaluationError.kind =
                (lookup.fromCurrent.resolve (context.withCurrent (.record record))
                  elements).mapError EvaluationError.kind) ∧
            (lookup.segments = [] →
              lookup.resolve context elements =
                  (if lookup.expected.isOptional then .ok .absent
                    else .error (.missingPath lookup)) ∧
                lookup.fromCurrent.resolve (context.withCurrent (.record record)) elements =
                  if lookup.expected.admits (.record record) then
                    .ok (lookup.fit (.record record))
                  else .error (.pathMismatch lookup.fromCurrent .record)) := by
  constructor
  · obtain ⟨path, isPath, lowersTo⟩ :=
      exists_mem_of_forall₂ (lowersTo_of_lowerIn lowers) lookup isLookup
    exact ⟨path, isPath, lowersTo, lowersTo.segments_eq_nil_iff isRecord⟩
  · refine fun record => ⟨Lookup.findInRecord_eq_findIn_iff, fun context elements slot => ?_⟩
    refine ⟨Lookup.resolve_kind_fromCurrent slot, fun noSegments => ?_⟩
    exact ⟨Lookup.resolve_of_isBareSlot ⟨isRecord, noSegments⟩,
      Lookup.resolve_fromCurrent_of_noSegments noSegments⟩

def Draft.ofOffset : Draft :=
  .map (.read .named [.key "args", .key "rows"] (.sequence .int)) 0
    (.binary .add (.read (.binding 0) [] .int) (.read .named [.key "env", .key "offset"] .int))

theorem Draft.recordLookup_exact_ofOffset :
    let lookup : Lookup := ⟨.environment, [.key "offset"], .int⟩
    let context : Context := .root .null [("offset", .present (.int 3))]
    (∃ expression, Draft.ofOffset.lower = .ok expression ∧ lookup ∈ expression.lookups) ∧
      (∀ record, lookup.findInRecord record = lookup.findIn (.record record)) ∧
      (lookup.fromCurrent.resolve (context.withCurrent (.record context.environment))
        [.int 1]).mapError EvaluationError.kind = .ok (.int 3) := by
  intro lookup context
  have lowers : Draft.ofOffset.lower = .ok
      (.map (.read ⟨.arguments, [.key "rows"], .sequence .int⟩)
        (.binary .add (.read ⟨.element 0, [], .int⟩) (.read lookup))) := rfl
  have isLookup : lookup ∈ Expression.lookups
      (.map (.read ⟨.arguments, [.key "rows"], .sequence .int⟩)
        (.binary .add (.read ⟨.element 0, [], .int⟩) (.read lookup))) := by decide
  obtain ⟨_, reads⟩ := Draft.recordLookup_exact lowers isLookup (.inr rfl)
  refine ⟨⟨_, lowers, isLookup⟩, fun record => (reads record).1.mpr nofun, ?_⟩
  rw [← ((reads context.environment).2 context [.int 1] rfl).1 nofun]
  rfl

/-- The arguments alone lower to a lookup that does not find them. -/
theorem Draft.argumentsAlone_not_found :
    let draft : Draft := .read .named [.key "args"] .record
    let lookup : Lookup := ⟨.arguments, [], .record⟩
    let record : Record := [("n", .int 1)]
    let context : Context := (Context.root .null []).withArguments record
    draft.lower = .ok (.read lookup) ∧
      lookup.findInRecord record = .ok none ∧
      lookup.findIn (.record record) = .ok (some (.record record)) ∧
      lookup.resolve context [] = .error (.missingPath lookup) ∧
      lookup.fromCurrent.resolve (context.withCurrent (.record record)) [] =
        .ok (.record record) ∧
      ¬ ∀ (draft : Draft) (expression : Expression) (lookup : Lookup) (record : Record),
        draft.lower = .ok expression → lookup ∈ expression.lookups →
          lookup.root = .arguments ∨ lookup.root = .environment →
            lookup.findInRecord record = lookup.findIn (.record record) := by
  intro draft lookup record context
  have lowers : draft.lower = .ok (.read lookup) := rfl
  refine ⟨lowers, rfl, rfl, rfl, rfl, fun claimed => ?_⟩
  cases claimed _ _ _ record lowers (List.mem_singleton.mpr rfl) (.inl rfl)

end StagedResolver
