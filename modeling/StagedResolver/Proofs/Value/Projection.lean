/-
Plain JSON and values are inverse up to what plain JSON can say.

A value that is written with its absences as null, and read back, is the value without its
present layers and with null for all that JSON has no word for.  A document whose numbers are
integers of sixty-four bits or finite comes back as it was, since no value that is read from a
document is absent.
-/
import StagedResolver.Proofs.Json.Portable
import StagedResolver.Proofs.Value.Storage
import StagedResolver.Value.Projection

namespace StagedResolver

namespace Json

mutual

/-- No object inside holds a key twice. -/
def WellFormed : Json → Prop
  | .array items => WellFormedItems items
  | .object members => Entries.DistinctKeys members ∧ WellFormedMembers members
  | _ => True

def WellFormedItems : List Json → Prop
  | [] => True
  | item :: rest => WellFormed item ∧ WellFormedItems rest

def WellFormedMembers : List (String × Json) → Prop
  | [] => True
  | (_, held) :: rest => WellFormed held ∧ WellFormedMembers rest

end

/-- Whether values have a number for a leaf, if it is one. -/
def HasNumber : Json → Prop
  | .integer number => Int64.minValue.toInt ≤ number ∧ number ≤ Int64.maxValue.toInt
  | .decimal number => number.isFinite = true
  | _ => True

end Json

namespace Value

mutual

/-- The value without present layers, and with null in the place of what is absent or not
finite. -/
def plain : Value → Value
  | .float number => if number.isFinite then .float number else .null
  | .record entries => .record (plainEntries entries)
  | .sequence items => .sequence (plainItems items)
  | .absent => .null
  | .present inner => plain inner
  | leaf => leaf

def plainItems : List Value → List Value
  | [] => []
  | item :: rest => plain item :: plainItems rest

def plainEntries : List (String × Value) → List (String × Value)
  | [] => []
  | (key, held) :: rest => (key, plain held) :: plainEntries rest

end

variable {style : AbsenceStyle}

private theorem keys_entriesToJson (entries : List (String × Value)) :
    Entries.keys (entriesToJson .null entries) = Entries.keys entries := by
  induction entries with
  | nil => rfl
  | cons entry rest ih => exact congrArg (List.cons entry.1) ih

private theorem keys_entriesOfJson (members : List (String × Json)) :
    Entries.keys (entriesOfJson members) = Entries.keys members := by
  induction members with
  | nil => rfl
  | cons member rest ih => exact congrArg (List.cons member.1) ih

private theorem collapse_entriesOfJson {members : List (String × Json)}
    (distinct : Entries.DistinctKeys members) :
    Entries.collapse (entriesOfJson members) = entriesOfJson members := by
  apply Entries.DistinctKeys.collapse_eq
  rw [Entries.DistinctKeys, keys_entriesOfJson]
  exact distinct

mutual

theorem ofJson_toJson : ∀ value : Value, value.WellFormed →
    ofJson (value.toJson .null) = value.plain
  | .null, _ => rfl
  | .bool _, _ => rfl
  | .int number, _ => by
      simp only [toJson, ofJson, int64?_toInt, plain]
  | .float number, _ => by
      rw [toJson, plain]
      split
      · rfl
      · rfl
  | .string _, _ => rfl
  | .record entries, ⟨distinct, entriesFormed⟩ => by
      have distinctMembers : Entries.DistinctKeys (entriesToJson .null entries) := by
        rw [Entries.DistinctKeys, keys_entriesToJson]
        exact distinct
      rw [toJson, ofJson, collapse_entriesOfJson distinctMembers,
        entriesOfJson_entriesToJson entries entriesFormed, plain]
  | .sequence items, wellFormed => by
      rw [toJson, ofJson, itemsOfJson_itemsToJson items wellFormed, plain]
  | .absent, _ => rfl
  | .present inner, wellFormed => ofJson_toJson inner wellFormed

theorem itemsOfJson_itemsToJson : ∀ items : List Value, WellFormedItems items →
    itemsOfJson (itemsToJson .null items) = plainItems items
  | [], _ => rfl
  | item :: rest, ⟨itemFormed, restFormed⟩ => by
      rw [itemsToJson, itemsOfJson, ofJson_toJson item itemFormed,
        itemsOfJson_itemsToJson rest restFormed, plainItems]

theorem entriesOfJson_entriesToJson : ∀ entries : List (String × Value),
    WellFormedEntries entries → entriesOfJson (entriesToJson .null entries) = plainEntries entries
  | [], _ => rfl
  | (key, held) :: rest, ⟨heldFormed, restFormed⟩ => by
      show (key, ofJson (held.toJson .null)) :: entriesOfJson (entriesToJson .null rest) = _
      rw [ofJson_toJson held heldFormed, entriesOfJson_entriesToJson rest restFormed, plainEntries]

end

/-! ### From documents and back -/

/-- Nothing that is read from a document is absent, so that no entry is left out afterwards. -/
theorem isAbsent_ofJson (document : Json) : (ofJson document).isAbsent = false := by
  cases document with
  | integer number =>
      rw [ofJson]
      cases int64? number with
      | none => rfl
      | some fitting => rfl
  | _ => rfl

private theorem entriesToJson_cons_ofJson (key : String) (held : Json)
    (rest : List (String × Value)) :
    entriesToJson style ((key, ofJson held) :: rest) =
      (key, (ofJson held).toJson style) :: entriesToJson style rest := by
  rw [entriesToJson, if_neg]
  rintro ⟨_, absent⟩
  rw [isAbsent_ofJson] at absent
  cases absent

mutual

theorem toJson_ofJson : ∀ document : Json, document.WellFormed →
    document.AllScalars Json.HasNumber → (ofJson document).toJson style = document
  | .null, _, _ => rfl
  | .bool _, _, _ => rfl
  | .integer number, _, representable => by
      have fits : int64? number = some (Int64.ofInt number) :=
        if_pos (Json.allScalars_integer.mp representable)
      rw [ofJson, fits]
      exact congrArg Json.integer (int64?_eq_some.mp fits).symm
  | .decimal number, _, representable => if_pos (Json.allScalars_decimal.mp representable)
  | .string _, _, _ => rfl
  | .array items, wellFormed, representable => by
      rw [ofJson, toJson,
        itemsToJson_itemsOfJson items wellFormed (Json.allScalars_array.mp representable)]
  | .object members, ⟨distinct, membersFormed⟩, representable => by
      rw [ofJson, toJson, collapse_entriesOfJson distinct,
        entriesToJson_entriesOfJson members membersFormed (Json.allScalars_object.mp representable)]

theorem itemsToJson_itemsOfJson : ∀ items : List Json, Json.WellFormedItems items →
    (∀ item ∈ items, item.AllScalars Json.HasNumber) →
    itemsToJson style (itemsOfJson items) = items
  | [], _, _ => rfl
  | item :: rest, ⟨itemFormed, restFormed⟩, representable => by
      obtain ⟨ofItem, ofRest⟩ := List.forall_mem_cons.mp representable
      rw [itemsOfJson, itemsToJson, toJson_ofJson item itemFormed ofItem,
        itemsToJson_itemsOfJson rest restFormed ofRest]

theorem entriesToJson_entriesOfJson : ∀ members : List (String × Json),
    Json.WellFormedMembers members → (∀ member ∈ members, member.2.AllScalars Json.HasNumber) →
    entriesToJson style (entriesOfJson members) = members
  | [], _, _ => rfl
  | (key, held) :: rest, ⟨heldFormed, restFormed⟩, representable => by
      obtain ⟨ofHeld, ofRest⟩ := List.forall_mem_cons.mp representable
      rw [entriesOfJson, entriesToJson_cons_ofJson, toJson_ofJson held heldFormed ofHeld,
        entriesToJson_entriesOfJson rest restFormed ofRest]

end

/-- A value that is written as plain JSON and read back has lost its present layers, and null is
in the place of what was absent or not finite; nothing else has changed, not even the order of
entries.  A document of which values have all numbers is written back as it was read, with
absent entries left out or not. -/
theorem projection_inverse :
    (∀ value : Value, value.WellFormed → ofJson (value.toJson .null) = value.plain) ∧
      ∀ document : Json, document.WellFormed → document.AllScalars Json.HasNumber →
        ∀ style : AbsenceStyle, (ofJson document).toJson style = document :=
  ⟨ofJson_toJson, fun _ wellFormed representable _ => toJson_ofJson _ wellFormed representable⟩

/-- A record with much that plain JSON has no word for, and the document it is written as, where
one as an integer and one as a number stay apart. -/
theorem projection_inverse_ofOnes :
    let one : Binary64 := ⟨0x3FF0000000000000⟩
    let items : List Value := [.float .nan, .int 1, .float one, .present (.present .null)]
    let value : Value := .record [("b", .present .absent), ("a", .present (.sequence items))]
    let document : Json :=
      .object [("b", .null), ("a", .array [.null, .integer 1, .decimal one, .null])]
    value.WellFormed ∧ document.WellFormed ∧ document.AllScalars Json.HasNumber ∧
      value.toJson .null = document ∧
      ofJson document =
        .record [("b", .null), ("a", .sequence [.null, .int 1, .float one, .null])] ∧
      (ofJson document).toJson .omit = document := by
  intro one items value document
  have notFinite : Binary64.nan.isFinite = false := by decide +kernel
  have oneFinite : one.isFinite = true := by decide +kernel
  have distinct : ["b", "a"].Nodup := by decide
  have wellFormed : value.WellFormed :=
    ⟨distinct, trivial, ⟨trivial, trivial, trivial, trivial, trivial⟩, trivial⟩
  have documentFormed : document.WellFormed :=
    ⟨distinct, trivial, ⟨trivial, trivial, trivial, trivial, trivial⟩, trivial⟩
  have integerFits : Json.HasNumber (.integer 1) := ⟨by decide, by decide⟩
  have representable : document.AllScalars Json.HasNumber := by
    show ∀ leaf ∈ [Json.null, .null, .integer 1, .decimal one, .null], leaf.HasNumber
    simp only [List.forall_mem_cons]
    exact ⟨trivial, trivial, integerFits, oneFinite, trivial, List.forall_mem_nil _⟩
  have written : value.toJson .null = document := by
    simp only [value, items, toJson, itemsToJson, entriesToJson, notFinite, oneFinite]
    rfl
  obtain ⟨ofValue, ofDocument⟩ := projection_inverse
  refine ⟨wellFormed, documentFormed, representable, written, ?_,
    ofDocument document documentFormed representable .omit⟩
  rw [← written, ofValue value wellFormed]
  simp only [value, items, plain, plainItems, plainEntries, notFinite, oneFinite]
  rfl

end Value

end StagedResolver
