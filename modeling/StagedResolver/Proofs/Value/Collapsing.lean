/-
Values whose present layers count once.

A value may have any number of present layers, and absence may lie below some of them.
Collapsing keeps one layer around something and none around what is absent, in sequences
item by item.  A type that admits a value also admits it collapsed.  The converse fails only
for values that hide nothing deep: where a present layer lies around nothing that is not
simply null.
-/
import StagedResolver.Proofs.Value.Admission

namespace StagedResolver

namespace Value

/-- A present layer around a value that has collapsed: it counts if it is the first one, and
around an absent value it does not count at all. -/
def covered : Value → Value
  | .absent => .absent
  | .present inner => .present inner
  | other => .present other

mutual

/-- The value with one present layer in the place of several, and none around absence. -/
def collapsed : Value → Value
  | .sequence items => .sequence (collapsedItems items)
  | .present inner => (collapsed inner).covered
  | other => other

def collapsedItems : List Value → List Value
  | [] => []
  | item :: rest => collapsed item :: collapsedItems rest

end

mutual

/-- Whether each present layer lies around something, or else right around null. -/
def isDirect : Value → Bool
  | .sequence items => itemsAreDirect items
  | .present inner => (inner.isNull || !inner.stripped.isNothing) && isDirect inner
  | _ => true

def itemsAreDirect : List Value → Bool
  | [] => true
  | item :: rest => isDirect item && itemsAreDirect rest

end

variable {value inner : Value}

private theorem collapsedItems_eq_map (items : List Value) :
    collapsedItems items = items.map collapsed := by
  induction items with
  | nil => rfl
  | cons item rest ih => rw [collapsedItems, ih, List.map_cons]

private theorem itemsAreDirect_iff {items : List Value} :
    itemsAreDirect items = true ↔ ∀ item ∈ items, item.isDirect = true := by
  induction items with
  | nil => exact ⟨fun _ => List.forall_mem_nil _, fun _ => rfl⟩
  | cons item rest ih => rw [itemsAreDirect, Bool.and_eq_true, ih, List.forall_mem_cons]

private theorem covered_covered (value : Value) : value.covered.covered = value.covered := by
  cases value with
  | _ => rfl

private theorem stripped_covered (value : Value) : value.covered.stripped = value.stripped := by
  cases value with
  | _ => rfl

theorem kind_collapsed (value : Value) : value.collapsed.kind = value.kind := by
  cases value with
  | present inner =>
      show inner.collapsed.covered.kind = .optional
      cases inner.collapsed with
      | _ => rfl
  | _ => rfl

theorem stripped_collapsed (value : Value) :
    value.collapsed.stripped = value.stripped.collapsed := by
  induction value using Value.stripped.induct with
  | case1 inner ih =>
      calc inner.collapsed.covered.stripped
        _ = inner.collapsed.stripped := stripped_covered _
        _ = inner.stripped.collapsed := ih
  | case2 value noLayer =>
      cases value with
      | present inner => exact absurd rfl (noLayer inner)
      | _ => rfl

/-- All present layers together are as much as one. -/
theorem covered_collapsed (value : Value) :
    value.collapsed.covered = value.stripped.collapsed.covered := by
  induction value using Value.stripped.induct with
  | case1 inner ih =>
      calc inner.collapsed.covered.covered
        _ = inner.collapsed.covered := covered_covered _
        _ = inner.stripped.collapsed.covered := ih
  | case2 value noLayer =>
      cases value with
      | present inner => exact absurd rfl (noLayer inner)
      | _ => rfl

private theorem collapsed_present_of_absent (nothing : inner.stripped = .absent) :
    (present inner).collapsed = .absent := by
  show inner.collapsed.covered = .absent
  rw [covered_collapsed, nothing]
  rfl

private theorem collapsed_present_of_ne_absent (something : inner.stripped ≠ .absent) :
    (present inner).collapsed = .present inner.stripped.collapsed := by
  have notOptional : inner.stripped.collapsed.kind ≠ .optional := by
    rw [kind_collapsed]
    exact kind_stripped_ne_optional something
  show inner.collapsed.covered = _
  rw [covered_collapsed]
  generalize inner.stripped.collapsed = held at notOptional ⊢
  cases held with
  | absent => exact absurd rfl notOptional
  | present content => exact absurd rfl notOptional
  | _ => rfl

private theorem isDirect_stripped (direct : value.isDirect = true) :
    value.stripped.isDirect = true := by
  induction value using Value.stripped.induct with
  | case1 inner ih => exact ih (Bool.and_eq_true_iff.mp direct).2
  | case2 value noLayer =>
      cases value with
      | present inner => exact absurd rfl (noLayer inner)
      | _ => exact direct

private theorem eq_null_or_something (direct : (present inner).isDirect = true) :
    inner = .null ∨ inner.stripped.isNothing = false := by
  rw [isDirect, Bool.and_eq_true, Bool.or_eq_true, Bool.not_eq_true'] at direct
  refine direct.1.imp_left fun isNull => ?_
  cases inner with
  | null => rfl
  | _ => cases isNull

end Value

/-! ### Admission -/

namespace ValueType

variable {type item inner : ValueType} {value : Value}

theorem admits_sequence :
    (sequence item).admits value = true ↔
      ∃ items, value.stripped = .sequence items ∧
        ∀ element ∈ items, item.admits element = true := by
  rw [admits]
  cases value.stripped with
  | sequence items =>
      rw [List.all_eq_true]
      constructor
      · exact fun each => ⟨items, rfl, each⟩
      · rintro ⟨_, same, each⟩
        cases same
        exact each
  | _ =>
      constructor
      · intro impossible
        cases impossible
      · rintro ⟨_, impossible, _⟩
        cases impossible

theorem admits_sequence_collapsed :
    (sequence item).admits value.collapsed = true ↔
      ∃ items, value.stripped = .sequence items ∧
        ∀ element ∈ items, item.admits element.collapsed = true := by
  rw [admits_sequence, value.stripped_collapsed]
  constructor
  · rintro ⟨results, collapsedIs, each⟩
    have kindIs : value.stripped.kind = .sequence := by
      rw [← Value.kind_collapsed, collapsedIs]
      rfl
    obtain ⟨items, itemsAre⟩ := Value.eq_sequence_of_kind kindIs
    rw [itemsAre, Value.collapsed, Value.collapsedItems_eq_map] at collapsedIs
    cases collapsedIs
    exact ⟨items, itemsAre, List.forall_mem_map.mp each⟩
  · rintro ⟨items, itemsAre, each⟩
    refine ⟨items.map Value.collapsed, ?_, List.forall_mem_map.mpr each⟩
    rw [itemsAre, Value.collapsed, Value.collapsedItems_eq_map]

/-- An optional type admits what has collapsed to absence, and otherwise what lies below
the one layer that is left. -/
theorem admits_optional_collapsed (notNull : value ≠ .null) :
    (optional inner).admits value.collapsed = true ↔
      value.stripped = .absent ∨ inner.admits value.stripped.collapsed = true := by
  cases value with
  | null => exact absurd rfl notNull
  | absent => exact ⟨fun _ => .inl rfl, fun _ => rfl⟩
  | present content =>
      by_cases isAbsent : content.stripped = .absent
      · rw [Value.collapsed_present_of_absent isAbsent]
        exact ⟨fun _ => .inl isAbsent, fun _ => rfl⟩
      · rw [Value.collapsed_present_of_ne_absent isAbsent]
        exact ⟨.inr, fun admitted => admitted.resolve_left isAbsent⟩
  | _ => exact ⟨.inr, fun admitted => admitted.resolve_left nofun⟩

private theorem admits_of_present (admitted : type.admits (.present value) = true) :
    type.admits value = true := by
  induction type generalizing value with
  | optional inner ih =>
      cases value with
      | null => rfl
      | absent => rfl
      | present content => exact ih admitted
      | _ => exact admitted
  | _ => exact admitted

private theorem admits_stripped_of_admits (admitted : type.admits value = true) :
    type.admits value.stripped = true := by
  induction value using Value.stripped.induct with
  | case1 content ih => exact ih (admits_of_present admitted)
  | case2 value noLayer =>
      cases value with
      | present content => exact absurd rfl (noLayer content)
      | _ => exact admitted

theorem admits_collapsed (admitted : type.admits value = true) :
    type.admits value.collapsed = true := by
  induction type generalizing value with
  | any => rfl
  | sequence item ih =>
      obtain ⟨items, itemsAre, each⟩ := admits_sequence.mp admitted
      exact admits_sequence_collapsed.mpr
        ⟨items, itemsAre, fun element member => ih (each element member)⟩
  | optional inner ih =>
      by_cases isNull : value = .null
      · rw [isNull]
        rfl
      · rw [admits_optional_collapsed isNull]
        cases value with
        | null => exact absurd rfl isNull
        | absent => exact .inl rfl
        | present content => exact .inr (ih (@admits_stripped_of_admits inner content admitted))
        | _ => exact .inr (ih admitted)
  | _ =>
      rw [admits, value.stripped_collapsed, Value.kind_collapsed]
      exact admitted

/-- Something is of the same types without its present layers. -/
theorem admits_eq_stripped (something : value.stripped.isNothing = false) :
    type.admits value = type.admits value.stripped := by
  have below : value.stripped.stripped.isNothing = false := by
    rw [Value.stripped_stripped]
    exact something
  rw [admits_of_something type something, admits_of_something type below,
    admits_stripped type.withoutOptional_ne_optional]

theorem admits_of_isDirect (direct : value.isDirect = true)
    (admitted : type.admits value.collapsed = true) : type.admits value = true := by
  induction type generalizing value with
  | any => rfl
  | sequence item ih =>
      obtain ⟨items, itemsAre, each⟩ := admits_sequence_collapsed.mp admitted
      have itemsDirect : (Value.sequence items).isDirect = true :=
        itemsAre ▸ Value.isDirect_stripped direct
      refine admits_sequence.mpr ⟨items, itemsAre, fun element member => ?_⟩
      exact ih (Value.itemsAreDirect_iff.mp itemsDirect element member) (each element member)
  | optional inner ih =>
      by_cases isNull : value = .null
      · rw [isNull]
        rfl
      · have below := (admits_optional_collapsed isNull).mp admitted
        cases value with
        | null => exact absurd rfl isNull
        | absent => rfl
        | present content =>
            rcases Value.eq_null_or_something direct with rfl | something
            · exact below.resolve_left nofun
            · have notAbsent : content.stripped ≠ .absent := fun isAbsent => by
                rw [isAbsent] at something
                cases something
              have inside : inner.admits content.stripped = true :=
                ih (@Value.isDirect_stripped (.present content) direct)
                  (below.resolve_left notAbsent)
              exact (admits_eq_stripped something).trans inside
        | _ => exact ih direct (below.resolve_left nofun)
  | _ =>
      rw [admits, value.stripped_collapsed, Value.kind_collapsed] at admitted
      exact admitted

end ValueType

end StagedResolver
