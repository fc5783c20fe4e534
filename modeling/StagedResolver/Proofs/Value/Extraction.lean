/-
Native data taken out of values.

Which values hold data of a native type is said twice: by taking the data out, which looks
through all present layers at once, and by the type of its values, which takes one layer away
at a time.  Taking out succeeds exactly on the values that are admitted once they have
collapsed, hence on all that are admitted, and among direct values on no others.

Data comes back from its value unless an option is directly of an option or of a value: the
layer of the outer one is then taken for one that is inside.
-/
import StagedResolver.Proofs.Success
import StagedResolver.Proofs.Value.Collapsing
import StagedResolver.Value.Native

namespace StagedResolver

namespace NativeType

variable {type inner item : NativeType} {value : Value}

private theorem something_eq (value : Value) :
    something value =
      if value.stripped.isNothing then .error .absent else .ok value.stripped := by
  rw [something]
  by_cases isAbsent : value.stripped = .absent
  · rw [Value.present?_eq_none isAbsent, isAbsent]
    rfl
  · have notOptional := Value.kind_stripped_ne_optional isAbsent
    rw [Value.present?_eq_stripped isAbsent]
    cases strippedIs : value.stripped with
    | absent => exact absurd strippedIs isAbsent
    | present content =>
        rw [strippedIs] at notOptional
        exact absurd rfl notOptional
    | _ => rfl

private theorem exists_something_bind {α : Type} {read : Value → Except ExtractionError α}
    (accepts : Value → Prop) (reads : ∀ held, (∃ data, read held = .ok data) ↔ accepts held)
    (ofSomething : ∀ held, accepts held → held.isNothing = false) :
    (∃ data, (something value >>= read) = .ok data) ↔ accepts value.stripped := by
  rw [something_eq]
  cases isNothing : value.stripped.isNothing with
  | true =>
      constructor
      · rintro ⟨_, impossible⟩
        cases impossible
      · intro accepted
        rw [ofSomething _ accepted] at isNothing
        cases isNothing
  | false => exact reads value.stripped

private theorem exists_ofValue_kind {α : Type} {read : Value → Except ExtractionError α}
    {kind : ValueKind} (notOptional : kind ≠ .optional) (notNull : kind ≠ .null)
    (reads : ∀ held, (∃ data, read held = .ok data) ↔ held.kind = kind) :
    (∃ data, (something value >>= read) = .ok data) ↔
      (value.collapsed.stripped.kind == kind) = true := by
  rw [beq_iff_eq, value.stripped_collapsed, Value.kind_collapsed]
  refine exists_something_bind (fun held => held.kind = kind) reads fun held kindIs => ?_
  cases held with
  | null => exact absurd kindIs.symm notNull
  | absent => exact absurd kindIs.symm notOptional
  | present content => exact absurd kindIs.symm notOptional
  | _ => rfl

private theorem exists_ofValue_list :
    (∃ data, (list item).ofValue value = .ok data) ↔
      ∃ items, value.stripped = .sequence items ∧
        ∀ element ∈ items, ∃ data, item.ofValue element = .ok data := by
  refine exists_something_bind (fun held => ∃ items, held = .sequence items ∧
    ∀ element ∈ items, ∃ data, item.ofValue element = .ok data) (fun held => ?_) ?_
  · cases held with
    | sequence items =>
        refine exists_mapM_eq_ok.trans ⟨fun each => ⟨items, rfl, each⟩, ?_⟩
        rintro ⟨_, same, each⟩
        cases same
        exact each
    | _ => exact ⟨fun ⟨_, impossible⟩ => (nomatch impossible),
        fun ⟨_, impossible, _⟩ => (nomatch impossible)⟩
  · rintro _ ⟨items, rfl, _⟩
    rfl

private theorem ofValue_option_of_absent (isAbsent : value.stripped = .absent) :
    (option inner).ofValue value = .ok none := by
  have isNone : value.present? = none := Value.present?_eq_none isAbsent
  cases value with
  | null => rfl
  | _ => simp only [ofValue, isNone]

private theorem ofValue_option (notNull : value ≠ .null) (notAbsent : value.stripped ≠ .absent) :
    (option inner).ofValue value = (inner.ofValue value.stripped).map some := by
  have isSome : value.present? = some value.stripped := Value.present?_eq_stripped notAbsent
  cases value with
  | null => exact absurd rfl notNull
  | _ =>
      simp only [ofValue, isSome]
      rfl

private theorem exists_ofValue_option (notNull : value ≠ .null) :
    (∃ data, (option inner).ofValue value = .ok data) ↔
      value.stripped = .absent ∨ ∃ data, inner.ofValue value.stripped = .ok data := by
  by_cases isAbsent : value.stripped = .absent
  · exact ⟨fun _ => .inl isAbsent, fun _ => ⟨none, ofValue_option_of_absent isAbsent⟩⟩
  · rw [ofValue_option notNull isAbsent]
    constructor
    · rintro ⟨_, taken⟩
      obtain ⟨data, taken, _⟩ := map_eq_ok.mp taken
      exact .inr ⟨data, taken⟩
    · rintro (nothing | ⟨data, taken⟩)
      · exact absurd nothing isAbsent
      · exact ⟨some data, map_eq_ok.mpr ⟨data, taken, rfl⟩⟩

/-- Data can be taken out of a value when it is admitted once it has collapsed. -/
theorem exists_ofValue_iff_collapsed (type : NativeType) (value : Value) :
    (∃ data, type.ofValue value = .ok data) ↔
      type.typeOfValues.admits value.collapsed = true := by
  induction type generalizing value with
  | bool =>
      refine exists_ofValue_kind nofun nofun fun held => ?_
      cases held with
      | bool flag => exact ⟨fun _ => rfl, fun _ => ⟨flag, rfl⟩⟩
      | _ => exact ⟨fun ⟨_, impossible⟩ => (nomatch impossible), nofun⟩
  | int =>
      refine exists_ofValue_kind nofun nofun fun held => ?_
      cases held with
      | int number => exact ⟨fun _ => rfl, fun _ => ⟨number, rfl⟩⟩
      | _ => exact ⟨fun ⟨_, impossible⟩ => (nomatch impossible), nofun⟩
  | float =>
      refine exists_ofValue_kind nofun nofun fun held => ?_
      cases held with
      | float number => exact ⟨fun _ => rfl, fun _ => ⟨number, rfl⟩⟩
      | _ => exact ⟨fun ⟨_, impossible⟩ => (nomatch impossible), nofun⟩
  | string =>
      refine exists_ofValue_kind nofun nofun fun held => ?_
      cases held with
      | string text => exact ⟨fun _ => rfl, fun _ => ⟨text, rfl⟩⟩
      | _ => exact ⟨fun ⟨_, impossible⟩ => (nomatch impossible), nofun⟩
  | record =>
      refine exists_ofValue_kind nofun nofun fun held => ?_
      cases held with
      | record entries => exact ⟨fun _ => rfl, fun _ => ⟨entries, rfl⟩⟩
      | _ => exact ⟨fun ⟨_, impossible⟩ => (nomatch impossible), nofun⟩
  | value => exact ⟨fun _ => rfl, fun _ => ⟨value, rfl⟩⟩
  | option inner ih =>
      by_cases isNull : value = .null
      · rw [isNull]
        exact ⟨fun _ => rfl, fun _ => ⟨none, rfl⟩⟩
      · rw [exists_ofValue_option isNull, ih]
        exact (ValueType.admits_optional_collapsed isNull).symm
  | list item ih =>
      rw [exists_ofValue_list]
      simp only [ih]
      exact ValueType.admits_sequence_collapsed.symm

/-- Data can be taken out of exactly those values that are admitted once they have collapsed:
of all that the type of its values admits, and of no other direct ones. -/
theorem ofValue_exact (type : NativeType) (value : Value) :
    ((∃ data, type.ofValue value = .ok data) ↔
        type.typeOfValues.admits value.collapsed = true) ∧
      (type.typeOfValues.admits value = true → ∃ data, type.ofValue value = .ok data) ∧
      (value.isDirect = true → (∃ data, type.ofValue value = .ok data) →
        type.typeOfValues.admits value = true) := by
  have exact_iff := exists_ofValue_iff_collapsed type value
  refine ⟨exact_iff, fun admitted => ?_, fun direct taken => ?_⟩
  · exact exact_iff.mpr (ValueType.admits_collapsed admitted)
  · exact ValueType.admits_of_isDirect direct (exact_iff.mp taken)

def ofCounts : Value :=
  .present (.sequence [.present (.present (.int 1)), .null])

theorem ofValue_exact_ofCounts :
    let type := option (list (option int))
    ofCounts.isDirect = true ∧ (∃ data, type.ofValue ofCounts = .ok data) ∧
      type.typeOfValues.admits ofCounts.collapsed = true ∧
      type.typeOfValues.admits ofCounts = true := by
  intro type
  have direct : ofCounts.isDirect = true := rfl
  have admitted : type.typeOfValues.admits ofCounts = true := by decide
  obtain ⟨exact_iff, taken, onlyAdmitted⟩ := ofValue_exact type ofCounts
  exact ⟨direct, taken admitted, exact_iff.mp (taken admitted),
    onlyAdmitted direct (taken admitted)⟩

/-- An absent value in a present layer holds no integer, yet the type of optional integers does
not admit it. -/
theorem presentAbsent_taken_not_admitted :
    let type := option int
    type.ofValue (.present .absent) = .ok none ∧
      type.typeOfValues.admits .absent = true ∧
      type.typeOfValues.admits (.present .absent) = false ∧
      ¬ ∀ (type : NativeType) (value : Value),
        (∃ data, type.ofValue value = .ok data) ↔ type.typeOfValues.admits value = true := by
  intro type
  have taken : type.ofValue (.present .absent) = .ok none := rfl
  refine ⟨taken, rfl, rfl, fun claimed => ?_⟩
  cases (claimed type (.present .absent)).mp ⟨none, taken⟩

/-! ### There and back -/

/-- Whether the values of a type are sure to be something without any present layer. -/
def isBare : NativeType → Bool
  | .option _ => false
  | .value => false
  | _ => true

/-- Whether no option is directly of an option or of a value. -/
def isSeparated : NativeType → Bool
  | .option inner => inner.isBare && isSeparated inner
  | .list item => isSeparated item
  | _ => true

private theorem toValue_of_isBare (bare : type.isBare = true) (data : type.Carrier) :
    (type.toValue data).stripped = type.toValue data ∧ type.toValue data ≠ .absent := by
  cases type with
  | option inner => cases bare
  | value => cases bare
  | _ => exact ⟨rfl, nofun⟩

private theorem ofValue_toValue_some (bare : inner.isBare = true) (data : inner.Carrier) :
    (option inner).ofValue ((option inner).toValue (some data)) =
      (inner.ofValue (inner.toValue data)).map some := by
  obtain ⟨noLayer, notAbsent⟩ := toValue_of_isBare bare data
  have strippedIs : (Value.present (inner.toValue data)).stripped = inner.toValue data := noLayer
  rw [← strippedIs] at notAbsent
  have taken : (option inner).ofValue (.present (inner.toValue data)) = _ :=
    ofValue_option nofun notAbsent
  rw [strippedIs] at taken
  exact taken

private theorem ofValue_toValue_list {elements : List item.Carrier} :
    (list item).ofValue ((list item).toValue elements) = .ok elements ↔
      ∀ data ∈ elements, item.ofValue (item.toValue data) = .ok data := by
  have each : (elements.map item.toValue).mapM item.ofValue = .ok elements ↔
      List.Forall₂ (fun element data => item.ofValue element = .ok data)
        (elements.map item.toValue) elements :=
    ⟨forall₂_of_mapM_eq_ok, mapM_eq_ok_of_forall₂⟩
  rw [List.forall₂_map_left_iff, List.forall₂_same] at each
  exact each

/-- All data of a type comes back from its values exactly when its options are separated. -/
theorem isSeparated_iff (type : NativeType) :
    type.isSeparated = true ↔ ∀ data, type.ofValue (type.toValue data) = .ok data := by
  induction type with
  | option inner ih =>
      rw [isSeparated, Bool.and_eq_true, ih]
      constructor
      · rintro ⟨bare, comeBack⟩ data
        cases data with
        | none => rfl
        | some held =>
            rw [ofValue_toValue_some bare]
            exact map_eq_ok.mpr ⟨held, comeBack held, rfl⟩
      · intro comeBack
        have bare : inner.isBare = true := by
          cases inner with
          | option content => cases comeBack (some none)
          | value => cases comeBack (some Value.absent)
          | _ => rfl
        refine ⟨bare, fun data => ?_⟩
        have taken := comeBack (some data)
        rw [ofValue_toValue_some bare] at taken
        obtain ⟨_, taken, same⟩ := map_eq_ok.mp taken
        cases same
        exact taken
  | list item ih =>
      refine ih.trans ⟨fun comeBack elements => ?_, fun comeBack data => ?_⟩
      · exact ofValue_toValue_list.mpr fun data _ => comeBack data
      · exact ofValue_toValue_list.mp (comeBack [data]) data (List.mem_singleton.mpr rfl)
  | _ => exact ⟨fun _ _ => rfl, fun _ => rfl⟩

private theorem admits_toValue (type : NativeType) (data : type.Carrier) :
    type.typeOfValues.admits (type.toValue data) = true := by
  induction type with
  | option inner ih =>
      cases data with
      | none => rfl
      | some held => exact ih held
  | list item ih =>
      refine ValueType.admits_sequence.mpr ⟨_, rfl, ?_⟩
      exact List.forall_mem_map.mpr fun element _ => ih element
  | _ => rfl

/-- Data of a type with separated options comes back from its value, which is of the type that
says so; any other type has data that does not come back. -/
theorem comesBack_iff (type : NativeType) :
    (type.isSeparated = true ↔ ∀ data, type.ofValue (type.toValue data) = .ok data) ∧
      ∀ data, type.typeOfValues.admits (type.toValue data) = true :=
  ⟨isSeparated_iff type, admits_toValue type⟩

end NativeType

end StagedResolver
