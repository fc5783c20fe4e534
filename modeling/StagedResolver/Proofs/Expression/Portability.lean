/-
Portable documents tell what they were written for.

Values and lowered expressions are read back as they were, or not at all where a number inside
is not finite.  Hence what is finite shares its document, and its text, with nothing else.
-/
import StagedResolver.Proofs.Expression.Storage
import StagedResolver.Proofs.Json.Reading

namespace StagedResolver

namespace Json

section Faithful

variable {α : Type} {write : α → Json} {read? : Json → Option α} {fits : α → Prop}
  {isFinite : α → Bool}

/-- Whether items that fit are written in a form that is never read back as something else.
Texts are read without a limit on nesting, and the numbers in them have to be read exactly. -/
structure IsFaithful (write : α → Json) (read? : Json → Option α) (fits : α → Prop)
    (isFinite : α → Bool) : Prop where
  document : ∀ item, fits item →
    read? (write item) = if isFinite item then some item else none
  text : ∀ item, fits item → (∀ number ∈ (write item).decimals, IsExact number) →
    (readWithin? none (write item).render).bind read? =
      if isFinite item then some item else none
  documents_ne : ∀ item other, fits item → fits other → isFinite item = true → item ≠ other →
    write item ≠ write other
  texts_ne : ∀ item other, fits item → fits other → isFinite item = true → item ≠ other →
    (∀ number ∈ (write item).decimals, IsExact number) →
    (∀ number ∈ (write other).decimals, IsExact number) →
    (write item).render ≠ (write other).render

private theorem eq_of_kept {item other : α} (finite : isFinite item = true)
    (same : (if isFinite item then some item else none) =
      if isFinite other then some other else none) : item = other := by
  rw [if_pos finite] at same
  split at same
  · exact Option.some.inj same
  · cases same

/-- It is enough that documents are read back, and that their integers are narrow. -/
theorem isFaithful_of_document
    (document : ∀ item, fits item → read? (write item) = if isFinite item then some item else none)
    (narrow : ∀ item, fits item → (write item).AllScalars IsNarrow) :
    IsFaithful write read? fits isFinite := by
  have reads (item : α) (itemFits : fits item)
      (exact : ∀ number ∈ (write item).decimals, IsExact number) :
      readWithin? none (write item).render = some (write item) :=
    readWithin?_render_of_isNarrow (narrow item itemFits) exact (Room.unlimited _ _)
  have documents_ne (item other : α) (itemFits : fits item) (otherFits : fits other)
      (finite : isFinite item = true) (different : item ≠ other) : write item ≠ write other := by
    intro sameDocument
    apply different
    apply eq_of_kept finite
    rw [← document item itemFits, ← document other otherFits, sameDocument]
  constructor
  case document => exact document
  case text =>
    intro item itemFits exact
    rw [reads item itemFits exact, Option.bind_some, document item itemFits]
  case documents_ne => exact documents_ne
  case texts_ne =>
    intro item other itemFits otherFits finite different exact otherExact sameText
    apply documents_ne item other itemFits otherFits finite different
    apply Option.some.inj
    rw [← reads item itemFits exact, ← reads other otherFits otherExact, sameText]

end Faithful

end Json

namespace Expression

/-- The portable form of values and of lowered expressions never lies: what holds only finite
numbers is read back as it was, and anything else is not read at all. -/
theorem isFaithful_portable :
    Json.IsFaithful Value.toPortable Value.ofPortable? Value.WellFormed Value.isFinite ∧
      Json.IsFaithful toPortable ofPortable? Storable isFinite := by
  constructor
  · exact Json.isFaithful_of_document Value.ofPortable?_toPortable
      fun value _ => value.isNarrow_toPortable
  · exact Json.isFaithful_of_document (fun _ => ofPortable?_toPortable)
      fun _ => isNarrow_toPortable

theorem isFaithful_portable_ofOnes :
    let one : Binary64 := ⟨0x3FF0000000000000⟩
    let value : Value := .record [("b", .present (.present .null)),
      ("a", .sequence [.null, .absent, .present .absent, .int 1, .float one])]
    let expression : Expression :=
      .map (.read ⟨.ancestor 1, [.key "a"], .sequence .any⟩) (.debug "x" (.constant (.float .nan)))
    value.WellFormed ∧ (∀ number ∈ value.toPortable.decimals, Json.IsExact number) ∧
      (Json.readWithin? none value.toPortable.render).bind Value.ofPortable? = some value ∧
      expression.Storable ∧
      (∀ number ∈ expression.toPortable.decimals, Json.IsExact number) ∧
      (Json.readWithin? none expression.toPortable.render).bind ofPortable? = none := by
  intro one value expression
  have oneExact : Json.IsExact one := by
    have text : Json.numberLayout.text one = "1.0" := by decide +kernel
    have rounded : Decimal.round? false ⟨10, -1⟩ = some one := by decide +kernel
    have read : Json.number? "1.0".toList = (Decimal.round? false ⟨10, -1⟩).map Json.decimal := rfl
    rw [Json.IsExact, text, read, rounded]
    rfl
  have distinct : ["b", "a"].Nodup := by decide
  have wellFormed : value.WellFormed :=
    ⟨distinct, trivial, ⟨trivial, trivial, trivial, trivial, trivial, trivial⟩, trivial⟩
  have decimals : value.toPortable.decimals = [one] := by decide +kernel
  have exact : ∀ number ∈ value.toPortable.decimals, Json.IsExact number := by
    rw [decimals, List.forall_mem_singleton]
    exact oneExact
  have storable : expression.Storable := by
    refine ⟨⟨?_, ?_⟩, trivial⟩
    · show 1 < UInt32.size
      decide
    · exact List.forall_mem_singleton.mpr trivial
  have noDecimals : expression.toPortable.decimals = [] := by decide +kernel
  have expressionExact : ∀ number ∈ expression.toPortable.decimals, Json.IsExact number := by
    rw [noDecimals]
    exact List.forall_mem_nil _
  have finite : value.isFinite = true := by decide +kernel
  have notFinite : ¬ expression.isFinite = true := by decide +kernel
  obtain ⟨ofValues, ofExpressions⟩ := isFaithful_portable
  have valueRead := ofValues.text value wellFormed exact
  have expressionRead := ofExpressions.text expression storable expressionExact
  rw [if_pos finite] at valueRead
  rw [if_neg notFinite] at expressionRead
  exact ⟨wellFormed, exact, valueRead, storable, expressionExact, expressionRead⟩

end Expression

end StagedResolver
