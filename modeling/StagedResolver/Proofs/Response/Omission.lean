/-
What is left out of a document.

Leaving absent values out takes members away from objects and nothing else: those under which a
record holds an absent value, below any number of present layers.  Null stays, and so do the
holes of lists and the numbers that are not finite, and what stays keeps its place.
-/
import StagedResolver.Proofs.Evaluation.Walking
import StagedResolver.Proofs.Response.Rendering

namespace StagedResolver

namespace Json

mutual

/-- The document without the members at some paths. -/
def without (isLeftOut : List PathStep → Bool) : Json → Json
  | .array items => .array (itemsWithout isLeftOut 0 items)
  | .object members => .object (membersWithout isLeftOut members)
  | leaf => leaf

def itemsWithout (isLeftOut : List PathStep → Bool) (start : Nat) : List Json → List Json
  | [] => []
  | item :: rest =>
      without (fun path => isLeftOut (.index start :: path)) item ::
        itemsWithout isLeftOut (start + 1) rest

def membersWithout (isLeftOut : List PathStep → Bool) :
    List (String × Json) → List (String × Json)
  | [] => []
  | (key, held) :: rest =>
      if isLeftOut [.key key] then membersWithout isLeftOut rest
      else (key, without (fun path => isLeftOut (.key key :: path)) held) ::
        membersWithout isLeftOut rest

end

end Json

namespace Value

variable {style : AbsenceStyle} {value held : Value} {path : List PathStep}

/-- What a value holds along a path, whatever present layers are on the way. -/
def heldAlong? : List PathStep → Value → Option Value
  | [], value => some value
  | step :: rest, value => (step.heldAt? value.stripped).bind (heldAlong? rest)

/-- Whether a path leads to an entry of a record, and the entry is absent through any number of
present layers. -/
def hasAbsentEntryAt (value : Value) (path : List PathStep) : Bool :=
  match path.getLast? with
  | some (.key _) => (value.heldAlong? path).any isAbsent
  | _ => false

private theorem hasAbsentEntryAt_eq_false (holds : value.heldAlong? path = some held)
    (something : held.isAbsent = false) : value.hasAbsentEntryAt path = false := by
  unfold hasAbsentEntryAt
  split
  · rw [holds]
    exact something
  · rfl

private theorem hasAbsentEntryAt_cons {step next : PathStep} {rest : List PathStep}
    (holds : step.heldAt? value.stripped = some held) :
    value.hasAbsentEntryAt (step :: next :: rest) = held.hasAbsentEntryAt (next :: rest) := by
  rw [hasAbsentEntryAt, hasAbsentEntryAt, List.getLast?_cons_cons, heldAlong?, holds,
    Option.bind_some]

private theorem hasAbsentEntryAt_key {name : String}
    (holds : (PathStep.key name).heldAt? value.stripped = some held) :
    value.hasAbsentEntryAt [.key name] = held.isAbsent := by
  rw [hasAbsentEntryAt, heldAlong?, holds]
  rfl

private theorem hasAbsentEntryAt_index {position : Nat} :
    value.hasAbsentEntryAt [.index position] = false :=
  rfl

/-- Below what is not an absent entry itself, absent entries are those of what is held. -/
theorem hasAbsentEntryAt_below {step : PathStep}
    (holds : step.heldAt? value.stripped = some held)
    (stays : value.hasAbsentEntryAt [step] = false) :
    (fun rest => value.hasAbsentEntryAt (step :: rest)) = held.hasAbsentEntryAt := by
  funext rest
  cases rest with
  | nil => exact stays
  | cons next rest => exact hasAbsentEntryAt_cons holds

private theorem hasAbsentEntryAt_present (inner : Value) :
    (present inner).hasAbsentEntryAt = inner.hasAbsentEntryAt := by
  funext path
  cases path with
  | nil => rfl
  | cons step rest => rfl

private theorem wellFormed_of_mem_items {items : List Value} (wellFormed : WellFormedItems items)
    (member : held ∈ items) : held.WellFormed := by
  induction items with
  | nil => cases member
  | cons item rest ih =>
      rcases List.mem_cons.mp member with rfl | later
      · exact wellFormed.1
      · exact ih wellFormed.2 later

private theorem wellFormed_of_mem_entries {entries : List (String × Value)} {key : String}
    (wellFormed : WellFormedEntries entries) (member : (key, held) ∈ entries) :
    held.WellFormed := by
  induction entries with
  | nil => cases member
  | cons entry rest ih =>
      rcases List.mem_cons.mp member with rfl | later
      · exact wellFormed.1
      · exact ih wellFormed.2 later

private theorem wellFormed_stripped (wellFormed : value.WellFormed) :
    value.stripped.WellFormed := by
  induction value using Value.stripped.induct with
  | case1 inner ih => exact ih wellFormed
  | case2 value noLayer =>
      cases value with
      | present inner => exact absurd rfl (noLayer inner)
      | _ => exact wellFormed

private theorem toJson_stripped (style : AbsenceStyle) (value : Value) :
    value.stripped.toJson style = value.toJson style := by
  induction value using Value.stripped.induct with
  | case1 inner ih => exact ih
  | case2 value noLayer =>
      cases value with
      | present inner => exact absurd rfl (noLayer inner)
      | _ => rfl

/-! ### One document from the other -/

mutual

theorem toJson_omit : ∀ value : Value, value.WellFormed →
    value.toJson .omit = (value.toJson .null).without value.hasAbsentEntryAt
  | .null, _ => rfl
  | .bool _, _ => rfl
  | .int _, _ => rfl
  | .float number, _ => by
      rw [toJson, toJson]
      split
      · rfl
      · rfl
  | .string _, _ => rfl
  | .record entries, ⟨distinct, entriesFormed⟩ => by
      rw [toJson, toJson, Json.without]
      rw [entriesToJson_omit entries entriesFormed]
      intro key held member
      have holds : (PathStep.key key).heldAt? (record entries).stripped = some held :=
        distinct.find?_of_mem member
      exact ⟨hasAbsentEntryAt_key holds, hasAbsentEntryAt_below holds⟩
  | .sequence items, wellFormed => by
      rw [toJson, toJson, Json.without, itemsToJson_omit items wellFormed 0]
      intro index item isItem
      rw [Nat.zero_add]
      exact hasAbsentEntryAt_below isItem rfl
  | .absent, _ => rfl
  | .present inner, wellFormed => by
      rw [hasAbsentEntryAt_present]
      exact toJson_omit inner wellFormed

theorem itemsToJson_omit : ∀ items : List Value, WellFormedItems items →
    ∀ (start : Nat) (isLeftOut : List PathStep → Bool),
      (∀ (index : Nat) (item : Value), items[index]? = some item →
        (fun rest => isLeftOut (.index (start + index) :: rest)) = item.hasAbsentEntryAt) →
        itemsToJson .omit items = Json.itemsWithout isLeftOut start (itemsToJson .null items)
  | [], _, _, _, _ => rfl
  | item :: rest, ⟨itemFormed, restFormed⟩, start, isLeftOut, below => by
      have belowItem := below 0 item rfl
      rw [itemsToJson, itemsToJson, Json.itemsWithout]
      rw [itemsToJson_omit rest restFormed (start + 1) isLeftOut]
      · rw [toJson_omit item itemFormed, ← belowItem]
        rfl
      · intro index other isOther
        rw [Nat.add_assoc, Nat.add_comm 1 index]
        exact below (index + 1) other isOther

theorem entriesToJson_omit : ∀ entries : List (String × Value), WellFormedEntries entries →
    ∀ isLeftOut : List PathStep → Bool,
      (∀ key held, (key, held) ∈ entries → isLeftOut [.key key] = held.isAbsent ∧
        (isLeftOut [.key key] = false →
          (fun rest => isLeftOut (.key key :: rest)) = held.hasAbsentEntryAt)) →
        entriesToJson .omit entries = Json.membersWithout isLeftOut (entriesToJson .null entries)
  | [], _, _, _ => rfl
  | (key, held) :: rest, ⟨heldFormed, restFormed⟩, isLeftOut, below => by
      obtain ⟨decides, belowHeld⟩ := below key held (List.mem_cons_self ..)
      have others := entriesToJson_omit rest restFormed isLeftOut fun name other later =>
        below name other (List.mem_cons_of_mem _ later)
      show _ = Json.membersWithout isLeftOut
        ((key, held.toJson .null) :: entriesToJson .null rest)
      rw [entriesToJson, Json.membersWithout, decides, others]
      cases isAbsent : held.isAbsent with
      | true => rfl
      | false =>
          rw [isAbsent] at decides
          rw [belowHeld decides, ← toJson_omit held heldFormed]
          rfl

end

private theorem at?_toJson_cons {step : PathStep} {rest : List PathStep}
    (wellFormed : value.WellFormed)
    (holds : step.heldAt? value.stripped = some held) :
    (value.toJson style).at? (step :: rest) =
      if style = .omit ∧ value.hasAbsentEntryAt [step] = true then none
      else (held.toJson style).at? rest := by
  rw [← toJson_stripped]
  cases step with
  | key name =>
      obtain ⟨entries, isRecord⟩ := eq_record_of_kind (Lookup.kind_of_heldAt? holds)
      have recordFormed : (record entries).WellFormed := isRecord ▸ wellFormed_stripped wellFormed
      rw [hasAbsentEntryAt_key holds]
      rw [isRecord] at holds ⊢
      have found : Entries.find? name entries = some held := holds
      rw [toJson, Json.at?, find?_entriesToJson recordFormed.1, found, Option.bind_some]
      split
      · rfl
      · rfl
  | index position =>
      obtain ⟨items, isSequence⟩ := eq_sequence_of_kind (Lookup.kind_of_heldAt? holds)
      rw [hasAbsentEntryAt_index, if_neg fun both => Bool.false_ne_true both.2]
      rw [isSequence] at holds ⊢
      have found : items[position]? = some held := holds
      rw [toJson, Json.at?, itemsToJson_eq_map, List.getElem?_map, found]
      rfl

private theorem wellFormed_of_heldAt? {step : PathStep} (wellFormed : value.WellFormed)
    (holds : step.heldAt? value.stripped = some held) : held.WellFormed := by
  have contentFormed := wellFormed_stripped wellFormed
  cases step with
  | key name =>
      obtain ⟨entries, isRecord⟩ := eq_record_of_kind (Lookup.kind_of_heldAt? holds)
      rw [isRecord] at holds contentFormed
      exact wellFormed_of_mem_entries contentFormed.2 (Entries.mem_of_find? holds)
  | index position =>
      obtain ⟨items, isSequence⟩ := eq_sequence_of_kind (Lookup.kind_of_heldAt? holds)
      rw [isSequence] at holds contentFormed
      exact wellFormed_of_mem_items contentFormed (List.mem_of_getElem? holds)

private theorem stripped_of_isAbsent (isAbsent : value.isAbsent = true) :
    value.stripped = .absent := by
  induction value using Value.stripped.induct with
  | case1 inner ih => exact ih isAbsent
  | case2 value noLayer =>
      cases value with
      | absent => rfl
      | present inner => exact absurd rfl (noLayer inner)
      | _ => cases isAbsent

private theorem stripped_of_leftOut {step : PathStep}
    (holds : step.heldAt? value.stripped = some held)
    (leftOut : value.hasAbsentEntryAt [step] = true) : held.stripped = .absent := by
  cases step with
  | key name =>
      rw [hasAbsentEntryAt_key holds] at leftOut
      exact stripped_of_isAbsent leftOut
  | index position => cases leftOut

/-- A document holds at a path what the value holds along it, unless that is left out. -/
theorem at?_toJson_of_heldAlong? (wellFormed : value.WellFormed)
    (holds : value.heldAlong? path = some held) :
    (value.toJson style).at? path =
      if style = .omit ∧ value.hasAbsentEntryAt path = true then none
      else some (held.toJson style) := by
  induction path generalizing value with
  | nil =>
      cases holds
      exact (if_neg fun both => Bool.false_ne_true both.2).symm
  | cons step rest ih =>
      obtain ⟨next, nextIs, holds⟩ := Option.bind_eq_some_iff.mp holds
      rw [at?_toJson_cons wellFormed nextIs]
      cases leftOut : value.hasAbsentEntryAt [step] with
      | false =>
          have below := congrFun (hasAbsentEntryAt_below nextIs leftOut) rest
          rw [if_neg fun both => Bool.false_ne_true both.2, below]
          exact ih (wellFormed_of_heldAt? wellFormed nextIs) holds
      | true =>
          have nothing := stripped_of_leftOut nextIs leftOut
          cases rest with
          | nil =>
              cases holds
              rw [leftOut]
              rfl
          | cons further rest =>
              rw [heldAlong?, nothing] at holds
              cases further <;> cases holds

/-! ### What stays -/

private theorem toJson_eq_null (shownAsNull : value.stripped = .null ∨
    ∃ number, value.stripped = .float number ∧ number.isFinite = false) :
    value.toJson style = .null := by
  rw [← toJson_stripped]
  rcases shownAsNull with isNull | ⟨number, isFloat, notFinite⟩
  · rw [isNull, toJson]
  · rw [isFloat, toJson, notFinite]
    rfl

private theorem entriesToJson_omit_eq (entries : List (String × Value)) :
    entriesToJson .omit entries =
      (entries.filter fun entry => !entry.2.isAbsent).map
        fun entry => (entry.1, entry.2.toJson .omit) := by
  induction entries with
  | nil => rfl
  | cons entry rest ih =>
      obtain ⟨key, held⟩ := entry
      rw [entriesToJson, List.filter_cons, ih]
      cases held.isAbsent with
      | true => rfl
      | false => rfl

/-- Leaving absent values out takes exactly the absent entries of records away, at every depth and
below any present layers.  Wherever else a path leads, the document shows what the value holds
there: null as null, and also what JSON has no word for, a list with all its items in their places,
and a record with the entries that are not absent in their order. -/
theorem omission_exact (wellFormed : value.WellFormed) :
    value.toJson .omit = (value.toJson .null).without value.hasAbsentEntryAt ∧
      ∀ path held, value.heldAlong? path = some held →
        (value.toJson .null).at? path = some (held.toJson .null) ∧
        (value.hasAbsentEntryAt path = true → (value.toJson .omit).at? path = none) ∧
        (value.hasAbsentEntryAt path = false →
          (value.toJson .omit).at? path = some (held.toJson .omit)) ∧
        ((held.stripped = .null ∨
            ∃ number, held.stripped = .float number ∧ number.isFinite = false) →
          (value.toJson .omit).at? path = some .null) ∧
        (∀ items, held.stripped = .sequence items →
          (value.toJson .omit).at? path = some (.array (items.map (toJson .omit)))) ∧
        ∀ entries, held.stripped = .record entries →
          (value.toJson .omit).at? path =
            some (.object ((entries.filter fun entry => !entry.2.isAbsent).map
              fun entry => (entry.1, entry.2.toJson .omit))) := by
  refine ⟨toJson_omit value wellFormed, fun path held holds => ?_⟩
  have stays (kept : value.hasAbsentEntryAt path = false) :
      (value.toJson .omit).at? path = some (held.toJson .omit) := by
    rw [at?_toJson_of_heldAlong? wellFormed holds, kept]
    rfl
  have something (present : held.stripped.isAbsent = false) :
      value.hasAbsentEntryAt path = false :=
    hasAbsentEntryAt_eq_false holds ((isAbsent_stripped held).symm.trans present)
  refine ⟨at?_toJson_of_heldAlong? wellFormed holds, ?_, stays, ?_, ?_, ?_⟩
  · intro leftOut
    rw [at?_toJson_of_heldAlong? wellFormed holds, leftOut]
    rfl
  · intro shownAsNull
    have present : held.stripped.isAbsent = false := by
      rcases shownAsNull with isNull | ⟨number, isFloat, _⟩
      · rw [isNull]
        rfl
      · rw [isFloat]
        rfl
    rw [stays (something present), toJson_eq_null shownAsNull]
  · intro items isSequence
    rw [stays (something (isSequence ▸ rfl)), ← toJson_stripped, isSequence, toJson,
      itemsToJson_eq_map]
  · intro entries isRecord
    rw [stays (something (isRecord ▸ rfl)), ← toJson_stripped, isRecord, toJson,
      entriesToJson_omit_eq]

theorem omission_exact_ofHoles :
    let kept : List (String × Value) :=
      [("b", .present .null), ("c", .float .nan), ("d", .sequence [.present .absent])]
    let inner : Value := .record (("a", .present (.present .absent)) :: kept)
    let value : Value := .present (.record [("rows", .sequence [.absent, .present inner])])
    let path : List PathStep := [.key "rows", .index 1]
    value.WellFormed ∧ value.heldAlong? path = some (.present inner) ∧
      value.hasAbsentEntryAt (path ++ [.key "a"]) = true ∧
      (value.toJson .omit).at? (path ++ [.key "a"]) = none ∧
      (value.toJson .omit).at? (path ++ [.key "c"]) = some .null ∧
      (value.toJson .omit).at? path =
        some (.object [("b", .null), ("c", .null), ("d", .array [.null])]) := by
  intro kept inner value path
  have wellFormed : value.WellFormed := by
    refine ⟨List.nodup_singleton _, ⟨trivial, ⟨?_, ?_⟩, trivial⟩, trivial⟩
    · show ["a", "b", "c", "d"].Nodup
      decide
    · exact ⟨trivial, trivial, trivial, ⟨trivial, trivial⟩, trivial⟩
  obtain ⟨_, along⟩ := omission_exact wellFormed
  obtain ⟨_, _, _, _, _, shown⟩ := along path (.present inner) rfl
  obtain ⟨_, absent, _⟩ := along (path ++ [.key "a"]) (.present (.present .absent)) rfl
  obtain ⟨_, _, _, isNull, _⟩ := along (path ++ [.key "c"]) (.float .nan) rfl
  exact ⟨wellFormed, rfl, rfl, absent rfl, isNull (.inr ⟨_, rfl, by decide⟩), shown _ rfl⟩

end Value

end StagedResolver
