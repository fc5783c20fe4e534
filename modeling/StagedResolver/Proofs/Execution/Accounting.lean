/-
Accounts of errors.

The errors of a part of a response are accounted for when each of them can be
traced, no two have the same path, every one of them is seen in the result as a
null on its path, and there is one when there is no result.  Parts that are
completed one after the other are accounted for together, each below its own
segment.
-/
import Mathlib.Data.List.Nodup
import StagedResolver.Execution.Completion

namespace StagedResolver

namespace Value

def at? : List PathStep → Value → Option Value
  | [], value => some value
  | .key name :: rest, .record entries => (Entries.find? name entries).bind (at? rest)
  | .index position :: rest, .sequence items => items[position]?.bind (at? rest)
  | _ :: _, _ => none

/-- Whether a value is null at a path or at a beginning of it. -/
def HasNullOn (path : List PathStep) (value : Value) : Prop :=
  ∃ before, before <+: path ∧ value.at? before = some .null

private theorem hasNullOn_null (path : List PathStep) : null.HasNullOn path :=
  ⟨[], List.nil_prefix, rfl⟩

theorem HasNullOn.under {path : List PathStep} {value container : Value}
    {segment : PathStep} (hasNull : value.HasNullOn path)
    (below : ∀ rest, container.at? (segment :: rest) = value.at? rest) :
    container.HasNullOn (segment :: path) := by
  obtain ⟨before, isPrefix, isNull⟩ := hasNull
  refine ⟨segment :: before, List.cons_prefix_cons.mpr ⟨rfl, isPrefix⟩, ?_⟩
  rw [below]
  exact isNull

end Value

namespace Completion

variable {α β : Type} {traced : FieldError → Prop}

/-- Whether the errors of a value are accounted for. -/
structure AccountsFor (traced : FieldError → Prop) (completion : Completion Value) :
    Prop where
  traces : ∀ error ∈ completion.errors, traced error
  distinct : (completion.errors.map FieldError.path).Nodup
  explained : completion.result = none → completion.errors ≠ []
  covered : ∀ value, completion.result = some value → ∀ error ∈ completion.errors,
    value.HasNullOn error.path

namespace AccountsFor

variable {completion : Completion Value}

theorem ok (value : Value) : (Completion.ok value).AccountsFor traced where
  traces := List.forall_mem_nil _
  distinct := List.nodup_nil
  explained noResult := absurd noResult (Option.some_ne_none value)
  covered _ _ := List.forall_mem_nil _

theorem rise {place : FieldPlace} {fault : FieldFault} (trace : traced ⟨[], place, fault⟩) :
    (Completion.rise place fault).AccountsFor traced where
  traces := List.forall_mem_singleton.mpr trace
  distinct := List.nodup_singleton _
  explained _ := List.cons_ne_nil _ _
  covered value impossible := absurd impossible.symm (Option.some_ne_none value)

theorem mono {other : FieldError → Prop} (accounts : completion.AccountsFor traced)
    (implies : ∀ error, traced error → other error) : completion.AccountsFor other where
  traces error member := implies error (accounts.traces error member)
  distinct := accounts.distinct
  explained := accounts.explained
  covered := accounts.covered

theorem after (reports : List Report) (accounts : completion.AccountsFor traced) :
    (completion.after reports).AccountsFor traced :=
  ⟨accounts.traces, accounts.distinct, accounts.explained, accounts.covered⟩

/-- Where a null that goes up stops, it stands on the paths of all errors so far. -/
theorem settle (required : Bool) (accounts : completion.AccountsFor traced) :
    (completion.settle required).AccountsFor traced := by
  cases required with
  | true =>
      rw [settle_true]
      exact accounts
  | false =>
      cases found : completion.result with
      | some value =>
          rw [settle_of_some found]
          exact accounts
      | none =>
          rw [settle_false, found]
          refine ⟨accounts.traces, accounts.distinct, nofun, ?_⟩
          rintro value ⟨⟩ error _
          exact Value.hasNullOn_null error.path

/-- Where nothing is required there is a result in the end, and a null in place of
one is due to an error. -/
theorem exists_result (accounts : completion.AccountsFor traced)
    (noNull : completion.result ≠ some .null) :
    ∃ value, (completion.settle false).result = some value ∧
      (value = .null → (completion.settle false).errors ≠ []) := by
  rw [errors_settle, settle_false]
  cases found : completion.result with
  | some value =>
      refine ⟨value, rfl, fun isNull => ?_⟩
      rw [found, isNull] at noNull
      exact absurd rfl noNull
  | none => exact ⟨.null, rfl, fun _ => accounts.explained found⟩

end AccountsFor

/-! ### Accounts of parts -/

/-- Whether the errors of the parts of a container are accounted for.  `look` says
what the container holds below a segment, and `among` which segments are those of
its parts. -/
structure AccountsForParts (look : PathStep → β → Option Value) (among : PathStep → Prop)
    (traced : FieldError → Prop) (completion : Completion β) : Prop where
  traces : ∀ error ∈ completion.errors, traced error
  distinct : (completion.errors.map FieldError.path).Nodup
  explained : completion.result = none → completion.errors ≠ []
  covered : ∀ error ∈ completion.errors, ∃ segment rest, among segment ∧
    error.path = segment :: rest ∧ ∀ held, completion.result = some held →
      ∃ value, look segment held = some value ∧ value.HasNullOn rest

namespace AccountsForParts

variable {look : PathStep → β → Option Value} {among : PathStep → Prop}

theorem ok (held : β) : (Completion.ok held).AccountsForParts look among traced where
  traces := List.forall_mem_nil _
  distinct := List.nodup_nil
  explained noResult := absurd noResult (Option.some_ne_none held)
  covered := List.forall_mem_nil _

private theorem of_under {segment : PathStep} {first : Completion Value}
    (accounts : first.AccountsFor fun error => traced (error.under segment)) :
    (∀ error ∈ first.errors.map (FieldError.under segment), traced error) ∧
      ((first.errors.map (FieldError.under segment)).map FieldError.path).Nodup ∧
        ∀ error ∈ first.errors.map (FieldError.under segment), ∃ rest,
          error.path = segment :: rest ∧
            ∀ value, first.result = some value → value.HasNullOn rest := by
  refine ⟨?_, ?_, ?_⟩
  · intro error member
    obtain ⟨inner, innerMember, rfl⟩ := List.mem_map.mp member
    exact accounts.traces inner innerMember
  · have paths : (first.errors.map (FieldError.under segment)).map FieldError.path =
        (first.errors.map FieldError.path).map (List.cons segment) := by
      rw [List.map_map, List.map_map]
      rfl
    rw [paths]
    exact accounts.distinct.map List.cons_injective
  · intro error member
    obtain ⟨inner, innerMember, rfl⟩ := List.mem_map.mp member
    refine ⟨inner.path, rfl, fun value resultIs => ?_⟩
    exact accounts.covered value resultIs inner innerMember

/-- One more part in front of others, below a segment that none of them has. -/
theorem cons {segment : PathStep} {first : Completion Value} {others : Completion α}
    {lookOthers : PathStep → α → Option Value} {amongOthers : PathStep → Prop}
    {join : Value → α → β}
    (accounts : first.AccountsFor fun error => traced (error.under segment))
    (accountsOthers : others.AccountsForParts lookOthers amongOthers traced)
    (fresh : ¬ amongOthers segment) (own : among segment)
    (owned : ∀ other, amongOthers other → among other)
    (lookFirst : ∀ value held, look segment (join value held) = some value)
    (lookRest : ∀ other value held, other ≠ segment →
      look other (join value held) = lookOthers other held) :
    ((first.under segment).andThen fun value => others.map (join value)).AccountsForParts
      look among traced := by
  obtain ⟨firstTraces, firstDistinct, firstBelow⟩ := of_under accounts
  cases found : first.result with
  | none =>
      simp only [Completion.andThen, Completion.under, found]
      refine ⟨firstTraces, firstDistinct, fun _ noErrors => ?_, fun error member => ?_⟩
      · exact accounts.explained found (List.map_eq_nil_iff.mp noErrors)
      · obtain ⟨rest, pathIs, _⟩ := firstBelow error member
        exact ⟨segment, rest, own, pathIs, nofun⟩
  | some value =>
      simp only [Completion.andThen, Completion.under, Completion.map, found]
      refine ⟨?_, ?_, ?_, ?_⟩
      · intro error member
        rcases List.mem_append.mp member with atFirst | atOthers
        · exact firstTraces error atFirst
        · exact accountsOthers.traces error atOthers
      · rw [List.map_append]
        refine List.nodup_append.mpr ⟨firstDistinct, accountsOthers.distinct, ?_⟩
        intro path firstPath other otherPath same
        obtain ⟨error, member, rfl⟩ := List.mem_map.mp firstPath
        obtain ⟨otherError, otherMember, rfl⟩ := List.mem_map.mp otherPath
        obtain ⟨rest, pathIs, _⟩ := firstBelow error member
        obtain ⟨otherSegment, otherRest, isAmong, otherPathIs, _⟩ :=
          accountsOthers.covered otherError otherMember
        rw [pathIs, otherPathIs] at same
        rw [(List.cons.inj same).1] at fresh
        exact fresh isAmong
      · intro noResult noErrors
        have othersNone : others.result = none := Option.map_eq_none_iff.mp noResult
        exact accountsOthers.explained othersNone (List.append_eq_nil_iff.mp noErrors).2
      · intro error member
        rcases List.mem_append.mp member with atFirst | atOthers
        · obtain ⟨rest, pathIs, hasNull⟩ := firstBelow error atFirst
          refine ⟨segment, rest, own, pathIs, fun joined joinedIs => ?_⟩
          obtain ⟨held, _, rfl⟩ := Option.map_eq_some_iff.mp joinedIs
          exact ⟨value, lookFirst value held, hasNull value found⟩
        · obtain ⟨other, rest, isAmong, pathIs, hasNull⟩ :=
            accountsOthers.covered error atOthers
          refine ⟨other, rest, owned other isAmong, pathIs, fun joined joinedIs => ?_⟩
          obtain ⟨held, heldIs, rfl⟩ := Option.map_eq_some_iff.mp joinedIs
          have different : other ≠ segment := by
            intro same
            rw [same] at isAmong
            exact fresh isAmong
          rw [lookRest other value held different]
          exact hasNull held heldIs

theorem wrap {completion : Completion β} {container : β → Value}
    (accounts : completion.AccountsForParts look among traced)
    (below : ∀ segment rest held value, look segment held = some value →
      (container held).at? (segment :: rest) = value.at? rest) :
    (completion.map container).AccountsFor traced where
  traces := accounts.traces
  distinct := accounts.distinct
  explained noResult := accounts.explained (Option.map_eq_none_iff.mp noResult)
  covered := by
    intro result resultIs error member
    obtain ⟨held, heldIs, rfl⟩ := Option.map_eq_some_iff.mp resultIs
    obtain ⟨segment, rest, _, pathIs, hasNull⟩ := accounts.covered error member
    obtain ⟨value, lookIs, isNull⟩ := hasNull held heldIs
    rw [pathIs]
    exact isNull.under fun rest => below segment rest held value lookIs

end AccountsForParts

end Completion

end StagedResolver
