/-
Values that lookups come to.

What a lookup finds is checked as it is, and is then made to fit: an optional type gets an
optional value, and any other type but the open one gets a value without present layers.
The type still admits what it has been made to fit, so that a lookup comes to a value of
the type that it was built with, wherever it starts.
-/
import StagedResolver.Proofs.Evaluation.Holding
import StagedResolver.Proofs.Success
import StagedResolver.Proofs.Value.Admission

namespace StagedResolver

private theorem ValueType.exists_kind {type : ValueType} (plain : type.isOptional = false) :
    ∃ kind, type.kind? = some kind ∧ kind ≠ .optional ∧ kind ≠ .null := by
  cases type with
  | any => cases plain
  | optional inner => cases plain
  | _ => exact ⟨_, rfl, by decide, by decide⟩

private theorem ValueType.ne_optional_of_plain {type : ValueType} (plain : type.isOptional = false)
    (inner : ValueType) : type ≠ .optional inner := by
  rintro rfl
  cases plain

namespace Lookup

variable {lookup : Lookup} {context : Context} {elements : List Value} {value : Value}

/-- A check succeeds on nothing where nothing is allowed to be found, and on what its type
admits. -/
theorem check_eq_ok {found : Option Value} :
    lookup.check found = .ok value ↔
      (found.all Value.isNothing = true ∧ lookup.expected.isOptional = true ∧
          value = .absent) ∨
        ∃ held, found = some held ∧ held.isNothing = false ∧
          lookup.expected.admits held = true ∧ value = lookup.fit held := by
  have ofNothing : (if lookup.expected.isOptional then .ok .absent
        else .error (.missingPath lookup) : Except EvaluationError Value) = .ok value ↔
      lookup.expected.isOptional = true ∧ value = .absent := by
    split
    · rename_i optional
      exact ⟨fun same => ⟨optional, (Except.ok.inj same).symm⟩,
        fun same => congrArg Except.ok same.2.symm⟩
    · rename_i plain
      constructor
      · intro impossible
        cases impossible
      · exact fun same => absurd same.1 plain
  cases found with
  | none =>
      rw [check, ofNothing]
      constructor
      · exact fun allowed => .inl ⟨rfl, allowed⟩
      · rintro (⟨_, allowed⟩ | ⟨_, impossible, _⟩)
        · exact allowed
        · cases impossible
  | some held =>
      rw [check]
      split
      · rename_i nothing
        rw [ofNothing]
        constructor
        · exact fun allowed => .inl ⟨nothing, allowed⟩
        · rintro (⟨_, allowed⟩ | ⟨_, same, something, _⟩)
          · exact allowed
          · cases same
            rw [nothing] at something
            cases something
      · rename_i something
        split
        · rename_i admitted
          constructor
          · intro same
            exact .inr ⟨held, rfl, Bool.eq_false_iff.mpr something, admitted,
              (Except.ok.inj same).symm⟩
          · rintro (⟨nothing, _⟩ | ⟨_, same, _, _, rfl⟩)
            · exact absurd nothing something
            · cases same
              rfl
        · rename_i notAdmitted
          constructor
          · intro impossible
            cases impossible
          · rintro (⟨nothing, _⟩ | ⟨_, same, _, admitted, _⟩)
            · exact absurd nothing something
            · cases same
              exact absurd admitted notAdmitted

private theorem fit_of_plain {held : Value} (plain : lookup.expected.isOptional = false)
    (something : held.isNothing = false) : lookup.fit held = held.stripped := by
  have present : held.isAbsent = false := (Bool.or_eq_false_iff.mp something).2
  obtain ⟨root, segments, type⟩ := lookup
  cases type with
  | any => cases plain
  | optional inner => cases plain
  | _ => exact held.present?_getD present

private theorem fit_of_optional {inner : ValueType} (optional : lookup.expected = .optional inner)
    (held : Value) :
    held.kind = .optional ∧ lookup.fit held = held ∨
      held.kind ≠ .optional ∧ lookup.fit held = .present held := by
  obtain ⟨root, segments, type⟩ := lookup
  cases optional
  cases held with
  | absent => exact .inl ⟨rfl, rfl⟩
  | present content => exact .inl ⟨rfl, rfl⟩
  | _ => exact .inr ⟨nofun, rfl⟩

private theorem admits_fit {held : Value} (something : held.isNothing = false)
    (admitted : lookup.expected.admits held = true) :
    lookup.expected.admits (lookup.fit held) = true := by
  cases expected : lookup.expected with
  | any => rfl
  | optional inner =>
      rw [expected] at admitted
      rcases fit_of_optional expected held with ⟨_, same⟩ | ⟨notOptional, wrapped⟩
      · rw [same]
        exact admitted
      · rw [wrapped]
        cases held with
        | null => cases something
        | absent => exact absurd rfl notOptional
        | present content => exact absurd rfl notOptional
        | _ => exact admitted
  | _ =>
      have plain : lookup.expected.isOptional = false := by rw [expected]; rfl
      rw [← expected, fit_of_plain plain something,
        ValueType.admits_stripped (ValueType.ne_optional_of_plain plain)]
      exact admitted

private theorem kind_fit_of_plain {held : Value} (plain : lookup.expected.isOptional = false)
    (something : held.isNothing = false) (admitted : lookup.expected.admits held = true) :
    (lookup.fit held).kind ≠ .optional ∧ (lookup.fit held).kind ≠ .null := by
  obtain ⟨kind, kindIs, notOptional, notNull⟩ := ValueType.exists_kind plain
  rw [fit_of_plain plain something, ValueType.kind_stripped_of_admits admitted kindIs]
  exact ⟨notOptional, notNull⟩

/-- A lookup comes to a value of the type that it was built with: one without present layers
that is something, unless the type is optional or open, and an optional value when the type
is optional. -/
theorem admits_of_resolve (resolved : lookup.resolve context elements = .ok value) :
    lookup.expected.admits value = true ∧
      (lookup.expected.isOptional = false → value.kind ≠ .optional ∧ value.kind ≠ .null) ∧
      ((∃ inner, lookup.expected = .optional inner) → value.kind = .optional) := by
  obtain ⟨found, _, checked⟩ := bind_eq_ok.mp resolved
  rcases check_eq_ok.mp checked with ⟨_, optional, rfl⟩ | ⟨held, _, something, admitted, rfl⟩
  · refine ⟨?_, fun plain => ?_, fun _ => rfl⟩
    · cases expected : lookup.expected with
      | any => rfl
      | optional inner => rfl
      | _ =>
          rw [expected] at optional
          cases optional
    · rw [optional] at plain
      cases plain
  · refine ⟨admits_fit something admitted, fun plain => ?_, fun isOptional => ?_⟩
    · exact kind_fit_of_plain plain something admitted
    · obtain ⟨inner, expected⟩ := isOptional
      rcases fit_of_optional expected held with ⟨isOptional, same⟩ | ⟨_, wrapped⟩
      · rw [same]
        exact isOptional
      · rw [wrapped]
        rfl

end Lookup

def Lookup.ofOuterRow : Lookup :=
  ⟨.element 1, [.key "rows", .index 0], .sequence (.optional .int)⟩

def Context.ofOuterRow : Context :=
  (Context.root .null []).withElement
    (.record [("rows", .sequence [.present (.present (.sequence [.null, .int 1]))])])

theorem Lookup.admits_of_resolve_ofOuterRow :
    Lookup.ofOuterRow.resolve .ofOuterRow [.int 7] = .ok (.sequence [.null, .int 1]) ∧
      Lookup.ofOuterRow.expected.admits (.sequence [.null, .int 1]) = true ∧
      (Lookup.ofOuterRow.expected.isOptional = false →
        (Value.sequence [.null, .int 1]).kind ≠ .optional ∧
          (Value.sequence [.null, .int 1]).kind ≠ .null) ∧
      ((∃ inner, Lookup.ofOuterRow.expected = .optional inner) →
        (Value.sequence [.null, .int 1]).kind = .optional) := by
  have resolved : Lookup.ofOuterRow.resolve .ofOuterRow [.int 7] =
      .ok (.sequence [.null, .int 1]) := rfl
  exact ⟨resolved, Lookup.admits_of_resolve resolved⟩

end StagedResolver
