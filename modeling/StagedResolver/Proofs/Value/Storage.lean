/-
Values and their types are read back from their portable documents.

Every distinction that values make is kept, save one: a number that is not finite is written
as null, so that no value that holds one is read back.
-/
import StagedResolver.Proofs.Json.Portable
import StagedResolver.Value.Portable
import StagedResolver.Value.Type

namespace StagedResolver

namespace Value

mutual

def isFinite : Value → Bool
  | .float number => number.isFinite
  | .record entries => entriesAreFinite entries
  | .sequence items => itemsAreFinite items
  | .present inner => isFinite inner
  | _ => true

def itemsAreFinite : List Value → Bool
  | [] => true
  | item :: rest => isFinite item && itemsAreFinite rest

def entriesAreFinite : List (String × Value) → Bool
  | [] => true
  | (_, held) :: rest => isFinite held && entriesAreFinite rest

end

theorem toPortable_ne_null (value : Value) : value.toPortable ≠ .null := by
  cases value <;> exact Json.noConfusion

theorem int64?_toInt (number : Int64) : int64? number.toInt = some number := by
  have inRange : Int64.minValue.toInt ≤ number.toInt ∧ number.toInt ≤ Int64.maxValue.toInt :=
    ⟨number.minValue_le_toInt, number.toInt_le⟩
  rw [int64?, if_pos inRange, Int64.ofInt_toInt]

theorem int64?_eq_some {number : Int} {fitting : Int64} :
    int64? number = some fitting ↔ number = fitting.toInt := by
  constructor
  · intro found
    unfold int64? at found
    split at found
    · rename_i inRange
      cases found
      exact (Int64.toInt_ofInt_of_le inRange.1 (Int.lt_add_one_of_le inRange.2)).symm
    · cases found
  · intro same
    rw [same]
    exact int64?_toInt fitting

private theorem ofPortable?_optional {body : Json} (notNull : body ≠ .null) :
    ofPortable? (.tagged "Optional" body) = (ofPortable? body).map .present := by
  cases body with
  | null => exact absurd rfl notNull
  | _ => rfl

mutual

/-- A value is read back from its portable document exactly when it is finite. -/
theorem ofPortable?_toPortable : ∀ value : Value, value.WellFormed →
    ofPortable? value.toPortable = if value.isFinite then some value else none
  | .null, _ => rfl
  | .bool _, _ => rfl
  | .int number, _ => by
      show (int64? number.toInt).map Value.int = _
      rw [int64?_toInt]
      rfl
  | .float number, _ => by
      rw [toPortable, floatToJson, isFinite]
      cases number.isFinite with
      | false => rfl
      | true => rfl
  | .string _, _ => rfl
  | .record entries, wellFormed => by
      obtain ⟨distinct, entriesFormed⟩ := wellFormed
      show (entriesOfPortable? (entriesToPortable entries)).map _ = _
      rw [entriesOfPortable?_entriesToPortable entries entriesFormed, Option.map_if,
        Entries.DistinctKeys.collapse_eq distinct, isFinite]
  | .sequence items, wellFormed => by
      show (itemsOfPortable? (itemsToPortable items)).map _ = _
      rw [itemsOfPortable?_itemsToPortable items wellFormed, Option.map_if, isFinite]
  | .absent, _ => rfl
  | .present inner, wellFormed => by
      rw [toPortable, ofPortable?_optional (toPortable_ne_null inner),
        ofPortable?_toPortable inner wellFormed, Option.map_if, isFinite]

theorem itemsOfPortable?_itemsToPortable : ∀ items : List Value, WellFormedItems items →
    itemsOfPortable? (itemsToPortable items) = if itemsAreFinite items then some items else none
  | [], _ => rfl
  | item :: rest, wellFormed => by
      obtain ⟨itemFormed, restFormed⟩ := wellFormed
      rw [itemsToPortable, itemsOfPortable?, ofPortable?_toPortable item itemFormed,
        itemsOfPortable?_itemsToPortable rest restFormed, itemsAreFinite]
      simp only [Json.bind_kept, Bool.and_eq_true, ite_and]
      rfl

theorem entriesOfPortable?_entriesToPortable : ∀ entries : List (String × Value),
    WellFormedEntries entries →
    entriesOfPortable? (entriesToPortable entries) =
      if entriesAreFinite entries then some entries else none
  | [], _ => rfl
  | (key, held) :: rest, wellFormed => by
      obtain ⟨heldFormed, restFormed⟩ := wellFormed
      rw [entriesToPortable, entriesOfPortable?, ofPortable?_toPortable held heldFormed,
        entriesOfPortable?_entriesToPortable rest restFormed, entriesAreFinite]
      simp only [Json.bind_kept, Bool.and_eq_true, ite_and]
      rfl

end

mutual

theorem isNarrow_toPortable : ∀ value : Value, value.toPortable.AllScalars Json.IsNarrow
  | .null => Json.allScalars_string _
  | .bool _ => Json.allScalars_tagged.mpr (Json.allScalars_bool.mpr trivial)
  | .int number => by
      have low := number.le_toInt
      have high := number.toInt_lt
      rw [toPortable, Json.allScalars_tagged, Json.allScalars_integer]
      constructor
      · omega
      · omega
  | .float number => by
      rw [toPortable, Json.allScalars_tagged]
      unfold floatToJson
      split
      · exact Json.allScalars_decimal.mpr trivial
      · exact Json.allScalars_null.mpr trivial
  | .string text => Json.allScalars_tagged.mpr (Json.allScalars_string text)
  | .record entries => by
      rw [toPortable, Json.allScalars_tagged, Json.allScalars_object]
      exact isNarrow_entriesToPortable entries
  | .sequence items => by
      rw [toPortable, Json.allScalars_tagged, Json.allScalars_array]
      exact isNarrow_itemsToPortable items
  | .absent => Json.allScalars_tagged.mpr (Json.allScalars_null.mpr trivial)
  | .present inner => Json.allScalars_tagged.mpr (isNarrow_toPortable inner)

theorem isNarrow_itemsToPortable : ∀ items : List Value,
    ∀ document ∈ itemsToPortable items, document.AllScalars Json.IsNarrow
  | [] => List.forall_mem_nil _
  | item :: rest =>
      List.forall_mem_cons.mpr ⟨isNarrow_toPortable item, isNarrow_itemsToPortable rest⟩

theorem isNarrow_entriesToPortable : ∀ entries : List (String × Value),
    ∀ member ∈ entriesToPortable entries, member.2.AllScalars Json.IsNarrow
  | [] => List.forall_mem_nil _
  | (_, held) :: rest =>
      List.forall_mem_cons.mpr ⟨isNarrow_toPortable held, isNarrow_entriesToPortable rest⟩

end

end Value

namespace ValueType

theorem ofPortable?_toPortable (type : ValueType) : ofPortable? type.toPortable = some type := by
  induction type with
  | sequence item ih => exact congrArg (Option.map ValueType.sequence) ih
  | optional inner ih => exact congrArg (Option.map ValueType.optional) ih
  | _ => rfl

theorem isNarrow_toPortable (type : ValueType) : type.toPortable.AllScalars Json.IsNarrow := by
  induction type with
  | sequence item ih => exact Json.allScalars_tagged.mpr ih
  | optional inner ih => exact Json.allScalars_tagged.mpr ih
  | _ => exact Json.allScalars_string _

end ValueType

end StagedResolver
