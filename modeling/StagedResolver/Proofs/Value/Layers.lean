/-
Kinds and present layers of values.

A kind says by which constructor a value was made.  Without its present layers a
value is absent, or of a kind other than that of optional values.
-/
import StagedResolver.Value.Basic

namespace StagedResolver

namespace Value

theorem eq_null_of_kind {value : Value} (kindIs : value.kind = .null) : value = .null := by
  cases value with
  | null => rfl
  | _ => cases kindIs

theorem eq_bool_of_kind {value : Value} (kindIs : value.kind = .bool) :
    ∃ flag, value = .bool flag := by
  cases value with
  | bool flag => exact ⟨flag, rfl⟩
  | _ => cases kindIs

theorem eq_int_of_kind {value : Value} (kindIs : value.kind = .int) :
    ∃ number, value = .int number := by
  cases value with
  | int number => exact ⟨number, rfl⟩
  | _ => cases kindIs

theorem eq_float_of_kind {value : Value} (kindIs : value.kind = .float) :
    ∃ number, value = .float number := by
  cases value with
  | float number => exact ⟨number, rfl⟩
  | _ => cases kindIs

theorem eq_string_of_kind {value : Value} (kindIs : value.kind = .string) :
    ∃ text, value = .string text := by
  cases value with
  | string text => exact ⟨text, rfl⟩
  | _ => cases kindIs

theorem eq_record_of_kind {value : Value} (kindIs : value.kind = .record) :
    ∃ entries, value = .record entries := by
  cases value with
  | record entries => exact ⟨entries, rfl⟩
  | _ => cases kindIs

theorem eq_sequence_of_kind {value : Value} (kindIs : value.kind = .sequence) :
    ∃ items, value = .sequence items := by
  cases value with
  | sequence items => exact ⟨items, rfl⟩
  | _ => cases kindIs

theorem eq_optional_of_kind {value : Value} (kindIs : value.kind = .optional) :
    value = .absent ∨ ∃ inner, value = .present inner := by
  cases value with
  | absent => exact .inl rfl
  | present inner => exact .inr ⟨inner, rfl⟩
  | _ => cases kindIs

theorem stripped_stripped (value : Value) :
    value.stripped.stripped = value.stripped := by
  induction value using Value.stripped.induct with
  | case1 inner ih => exact ih
  | case2 value noLayer =>
      have strippedIs : value.stripped = value := by
        cases value with
        | present inner => exact absurd rfl (noLayer inner)
        | _ => rfl
      rw [strippedIs, strippedIs]

theorem present?_eq_stripped {value : Value} (something : value.stripped ≠ .absent) :
    value.present? = some value.stripped := by
  induction value using Value.stripped.induct with
  | case1 inner ih => exact ih something
  | case2 value noLayer =>
      cases value with
      | absent => exact absurd rfl something
      | present inner => exact absurd rfl (noLayer inner)
      | _ => rfl

theorem present?_eq_none {value : Value} (nothing : value.stripped = .absent) :
    value.present? = none := by
  induction value using Value.stripped.induct with
  | case1 inner ih => exact ih nothing
  | case2 value noLayer =>
      cases value with
      | absent => rfl
      | present inner => exact absurd rfl (noLayer inner)
      | _ => cases nothing

theorem isAbsent_of_stripped {value : Value} (nothing : value.stripped = .absent) :
    value.isAbsent = true := by
  induction value using Value.stripped.induct with
  | case1 inner ih => exact ih nothing
  | case2 value noLayer =>
      cases value with
      | absent => rfl
      | present inner => exact absurd rfl (noLayer inner)
      | _ => cases nothing

theorem isAbsent_stripped (value : Value) : value.stripped.isAbsent = value.isAbsent := by
  induction value using Value.stripped.induct with
  | case1 inner ih => exact ih
  | case2 value noLayer =>
      cases value with
      | present inner => exact absurd rfl (noLayer inner)
      | _ => rfl

theorem isNothing_of_something {value : Value}
    (something : value.stripped.isNothing = false) : value.isNothing = false := by
  have notAbsent : value.isAbsent = false := by
    rw [← isAbsent_stripped]
    exact (Bool.or_eq_false_iff.mp something).2
  cases value with
  | null => cases something
  | _ => exact notAbsent

theorem present?_getD (value : Value) (something : value.isAbsent = false) :
    (value.present?).getD value = value.stripped := by
  have noAbsent : value.stripped ≠ .absent := fun nothing => by
    rw [isAbsent_of_stripped nothing] at something
    cases something
  rw [present?_eq_stripped noAbsent, Option.getD_some]

theorem kind_stripped_ne_optional {value : Value} (something : value.stripped ≠ .absent) :
    value.stripped.kind ≠ .optional := by
  induction value using Value.stripped.induct with
  | case1 inner ih => exact ih something
  | case2 value noLayer =>
      cases value with
      | absent => exact absurd rfl something
      | present inner => exact absurd rfl (noLayer inner)
      | _ =>
          intro impossible
          cases impossible

theorem eq_of_isNothing {value : Value} (isNothing : value.stripped.isNothing = true) :
    value.stripped = .null ∨ value.stripped = .absent := by
  have noLayer := @kind_stripped_ne_optional value
  generalize value.stripped = held at isNothing noLayer ⊢
  cases held with
  | null => exact .inl rfl
  | absent => exact .inr rfl
  | present inner => exact absurd rfl (noLayer nofun)
  | _ => cases isNothing

end Value

end StagedResolver
