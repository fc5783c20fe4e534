/-
What literals are coerced to, and which part is to blame when they are not.

A list is coerced item by item, in order, and a single item as if it stood in a
list of its own.  When coercion fails, the path of the error leads to a part that
its type refuses as a whole, and every part that stands before it has a value.
-/
import StagedResolver.Proofs.Plan.Arguments
import StagedResolver.Proofs.Value.Storage

namespace StagedResolver

/-- The literals that a scalar takes, and the values that it makes of them. -/
inductive Scalar.Makes : Scalar → Literal → Value → Prop where
  | json (literal : Literal) : Makes .json literal literal.toValue
  | int (number : Int64) : Makes .int (.integer number.toInt) (.int number)
  /-- A decimal without a fraction, as an integer. -/
  | narrowed {decimal : Binary64} {number : Int64}
      (same : decimal.integer? = some number.toInt) :
      Makes .int (.decimal decimal) (.int number)
  | widened (number : Int) : Makes .float (.integer number) (.float (.ofInt number))
  | float (number : Binary64) : Makes .float (.decimal number) (.float number)
  | numbered (number : Int64) :
      Makes .id (.integer number.toInt) (.string (toString number.toInt))
  | id (text : String) : Makes .id (.string text) (.string text)
  | string (text : String) : Makes .string (.string text) (.string text)
  | boolean (flag : Bool) : Makes .boolean (.boolean flag) (.bool flag)

theorem Scalar.coerce_eq_ok {scalar : Scalar} {literal : Literal} {value : Value} :
    scalar.coerce literal = .ok value ↔ scalar.Makes literal value := by
  constructor
  · intro coerced
    unfold coerce at coerced
    split at coerced
    case h_2 | h_6 =>
        split at coerced
        · rename_i fitting found
          cases coerced
          rw [Value.int64?_eq_some.mp found]
          constructor
        · cases coerced
    case h_3 =>
        split at coerced
        · rename_i fitting found
          cases coerced
          obtain ⟨number, whole, fits⟩ := Option.bind_eq_some_iff.mp found
          rw [Value.int64?_eq_some.mp fits] at whole
          exact .narrowed whole
        · cases coerced
    all_goals cases coerced
    all_goals constructor
  · intro made
    cases made with
    | int number =>
        simp only [coerce, Value.int64?_toInt]
    | narrowed same =>
        simp only [coerce, same, Option.bind_some, Value.int64?_toInt]
    | numbered number =>
        simp only [coerce, Value.int64?_toInt]
    | json literal => cases literal <;> rfl
    | _ => rfl

def Literal.isList : Literal → Bool
  | .list _ => true
  | _ => false

namespace TypeReference

/-- The values that a type makes of literals. -/
inductive Makes : TypeReference → Literal → Value → Prop where
  | null {type : TypeReference} (optional : type.required = false) : Makes type .null .null
  | scalar {name : String} {leaf : Scalar} {literal : Literal} {value : Value}
      (required : Bool) (named : Scalar.ofName? name = some leaf) (notNull : literal ≠ .null)
      (made : leaf.Makes literal value) : Makes (.named name required) literal value
  | items {item : TypeReference} {literals : List Literal} {values : List Value}
      (required : Bool) (sameLength : literals.length = values.length)
      (each : ∀ index (before : index < literals.length) (after : index < values.length),
        Makes item (literals.get ⟨index, before⟩) (values.get ⟨index, after⟩)) :
      Makes (.list item required) (.list literals) (.sequence values)
  | single {item : TypeReference} {literal : Literal} {value : Value} (required : Bool)
      (notNull : literal ≠ .null) (notList : literal.isList = false)
      (made : Makes item literal value) : Makes (.list item required) literal (.sequence [value])

/-- Whether a type refuses a literal as a whole, and for which fault.  A single item
is refused as the items of a list are. -/
inductive Refuses : TypeReference → Literal → InputFault → Prop where
  | null {type : TypeReference} (required : type.required = true) :
      Refuses type .null (.unexpectedNull type)
  | scalar {name : String} {leaf : Scalar} {literal : Literal} {fault : InputFault}
      (required : Bool) (named : Scalar.ofName? name = some leaf) (notNull : literal ≠ .null)
      (refused : leaf.coerce literal = .error fault) :
      Refuses (.named name required) literal fault
  | unknown {name : String} {literal : Literal} (required : Bool)
      (unnamed : Scalar.ofName? name = none) (notNull : literal ≠ .null) :
      Refuses (.named name required) literal (.unknownType name)
  | single {item : TypeReference} {literal : Literal} {fault : InputFault} (required : Bool)
      (notNull : literal ≠ .null) (notList : literal.isList = false)
      (refused : Refuses item literal fault) : Refuses (.list item required) literal fault

/-- The part of a literal at positions in lists inside each other, and its type. -/
def partAt? : TypeReference → Literal → List Nat → Option (TypeReference × Literal)
  | type, literal, [] => some (type, literal)
  | .list item _, .list literals, index :: path =>
      literals[index]?.bind fun literal => partAt? item literal path
  | _, _, _ :: _ => none

end TypeReference

/-- Whether a place comes before another one in a document and is not around it. -/
def Precedes : List Nat → List Nat → Prop
  | first :: firsts, second :: seconds =>
      first < second ∨ first = second ∧ Precedes firsts seconds
  | _, _ => False

/-- Whether an error is that of the first part that its type refuses. -/
structure TypeReference.Blames (type : TypeReference) (literal : Literal)
    (error : InputError) : Prop where
  refused : ∃ part, type.partAt? literal error.path = some part ∧
    part.1.Refuses part.2 error.fault
  first : ∀ path part, Precedes path error.path → type.partAt? literal path = some part →
    ∃ value, part.1.Makes part.2 value

/-! ### Items -/

namespace TypeReference

variable {item type : TypeReference} {literal : Literal} {value : Value} {error : InputError}
variable {required : Bool}

private theorem coerceItems_eq_ok {coerceItem : Literal → Except InputError Value} {start : Nat}
    {literals : List Literal} {values : List Value} :
    coerceItems coerceItem start literals = .ok values ↔
      List.Forall₂ (fun literal value => coerceItem literal = .ok value) literals values := by
  induction literals generalizing start values with
  | nil =>
      constructor
      · intro coerced
        cases coerced
        exact .nil
      · intro each
        cases each
        rfl
  | cons literal rest ih =>
      unfold coerceItems
      constructor
      · intro coerced
        obtain ⟨first, firstIs, coerced⟩ := bind_eq_ok.mp coerced
        obtain ⟨others, othersAre, same⟩ := bind_eq_ok.mp coerced
        cases same
        exact .cons (mapError_eq_ok.mp firstIs) (ih.mp othersAre)
      · intro each
        cases each with
        | cons firstIs othersAre =>
            apply bind_eq_ok.mpr
            refine ⟨_, mapError_eq_ok.mpr firstIs, ?_⟩
            apply bind_eq_ok.mpr
            exact ⟨_, ih.mpr othersAre, rfl⟩

/-- The first item that fails decides, and its place goes in front of the path. -/
theorem coerceItems_eq_error {coerceItem : Literal → Except InputError Value} {start : Nat}
    {literals : List Literal} :
    coerceItems coerceItem start literals = .error error ↔
      ∃ index literal inner, literals[index]? = some literal ∧
        coerceItem literal = .error inner ∧ error = inner.inItem (start + index) ∧
        ∀ (earlier : Nat) (other : Literal), earlier < index →
          literals[earlier]? = some other → ∃ value, coerceItem other = .ok value := by
  induction literals generalizing start with
  | nil =>
      constructor
      · intro fails
        cases fails
      · rintro ⟨index, literal, inner, impossible, _⟩
        cases impossible
  | cons head rest ih =>
      unfold coerceItems
      rw [bind_eq_error]
      constructor
      · rintro (fails | ⟨first, firstIs, fails⟩)
        · obtain ⟨inner, failsInside, rfl⟩ := mapError_eq_error.mp fails
          refine ⟨0, head, inner, rfl, failsInside, rfl, ?_⟩
          intro earlier other before
          omega
        · rcases bind_eq_error.mp fails with fails | ⟨others, _, impossible⟩
          · obtain ⟨index, literal, inner, member, failsInside, same, before⟩ := ih.mp fails
            refine ⟨index + 1, literal, inner, member, failsInside, ?_, ?_⟩
            · rw [same]
              congr 1
              omega
            · intro earlier other isBefore otherIs
              cases earlier with
              | zero =>
                  cases otherIs
                  exact ⟨first, mapError_eq_ok.mp firstIs⟩
              | succ earlier => exact before earlier other (by omega) otherIs
          · cases impossible
      · rintro ⟨index, literal, inner, member, failsInside, same, before⟩
        cases index with
        | zero =>
            cases member
            left
            exact mapError_eq_error.mpr ⟨inner, failsInside, same.symm⟩
        | succ index =>
            right
            obtain ⟨first, firstIs⟩ := before 0 head (by omega) rfl
            refine ⟨first, mapError_eq_ok.mpr firstIs, ?_⟩
            apply bind_eq_error.mpr
            left
            apply ih.mpr
            refine ⟨index, literal, inner, member, failsInside, ?_, ?_⟩
            · rw [same]
              congr 1
              omega
            · intro earlier other isBefore otherIs
              exact before (earlier + 1) other (by omega) otherIs

private theorem coerce_single (notNull : literal ≠ .null) (notList : literal.isList = false) :
    (TypeReference.list item required).coerce literal =
      (item.coerce literal).map fun value => .sequence [value] := by
  cases literal with
  | null => exact absurd rfl notNull
  | list literals => cases notList
  | _ => rfl

private theorem coerceNull_eq_ok :
    type.coerceNull = .ok value ↔ type.required = false ∧ value = .null := by
  unfold coerceNull
  cases type.required with
  | true => exact ⟨nofun, nofun⟩
  | false => exact ⟨fun same => ⟨rfl, (Except.ok.inj same).symm⟩, fun ⟨_, same⟩ => same ▸ rfl⟩

private theorem coerceNull_eq_error :
    type.coerceNull = .error error ↔
      type.required = true ∧ error = .here (.unexpectedNull type) := by
  unfold coerceNull
  cases type.required with
  | true => exact ⟨fun same => ⟨rfl, (Except.error.inj same).symm⟩, fun ⟨_, same⟩ => same ▸ rfl⟩
  | false => exact ⟨nofun, nofun⟩

/-- Coercion succeeds with the values that the type makes, and with no others. -/
theorem coerce_eq_ok : type.coerce literal = .ok value ↔ type.Makes literal value := by
  constructor
  · intro coerced
    induction type generalizing literal value with
    | named name required =>
        unfold coerce at coerced
        split at coerced
        case h_1 =>
            obtain ⟨optional, rfl⟩ := coerceNull_eq_ok.mp coerced
            exact .null optional
        case h_2 notNull =>
            split at coerced
            case h_1 leaf named =>
                exact .scalar required named notNull
                  (Scalar.coerce_eq_ok.mp (mapError_eq_ok.mp coerced))
            case h_2 => cases coerced
    | list item required ih =>
        unfold coerce at coerced
        split at coerced
        case h_1 =>
            obtain ⟨optional, rfl⟩ := coerceNull_eq_ok.mp coerced
            exact .null optional
        case h_2 literals =>
            obtain ⟨values, valuesAre, rfl⟩ := map_eq_ok.mp coerced
            have each := (coerceItems_eq_ok.mp valuesAre).imp fun _ _ => ih
            obtain ⟨sameLength, made⟩ := List.forall₂_iff_get.mp each
            exact .items required sameLength made
        case h_3 notNull notList =>
            obtain ⟨single, singleIs, rfl⟩ := map_eq_ok.mp coerced
            refine .single required notNull ?_ (ih singleIs)
            cases literal with
            | list literals => exact absurd rfl (notList literals)
            | _ => rfl
  · intro made
    induction made with
    | null optional =>
        rw [coerce_null]
        exact coerceNull_eq_ok.mpr ⟨optional, rfl⟩
    | scalar required named notNull made =>
        unfold coerce
        split
        · exact absurd rfl notNull
        · rw [named]
          exact mapError_eq_ok.mpr (Scalar.coerce_eq_ok.mpr made)
    | items required sameLength each ih =>
        apply map_eq_ok.mpr
        refine ⟨_, coerceItems_eq_ok.mpr ?_, rfl⟩
        exact List.forall₂_iff_get.mpr ⟨sameLength, ih⟩
    | single required notNull notList made ih =>
        rw [coerce_single notNull notList, ih]
        rfl

private theorem partAt?_of_notList (notList : literal.isList = false) (index : Nat)
    (path : List Nat) :
    type.partAt? literal (index :: path) = none := by
  unfold partAt?
  cases literal with
  | list literals => cases notList
  | _ => cases type <;> rfl

/-- Every part of what is coerced has a value of its own. -/
theorem Makes.ofPart (made : type.Makes literal value) {path : List Nat}
    {part : TypeReference × Literal} (found : type.partAt? literal path = some part) :
    ∃ value, part.1.Makes part.2 value := by
  induction path generalizing type literal value with
  | nil =>
      unfold partAt? at found
      cases found
      exact ⟨value, made⟩
  | cons index path ih =>
      cases made with
      | items required sameLength each =>
          unfold partAt? at found
          obtain ⟨inner, innerIs, found⟩ := Option.bind_eq_some_iff.mp found
          obtain ⟨inside, rfl⟩ := List.getElem?_eq_some_iff.mp innerIs
          exact ih (each index inside (sameLength ▸ inside)) found
      | null optional =>
          rw [partAt?_of_notList rfl] at found
          cases found
      | scalar required named notNull made =>
          unfold partAt? at found
          cases found
      | single required notNull notList made =>
          rw [partAt?_of_notList notList] at found
          cases found

/-! ### Blame -/

private theorem refuses_null_iff {fault : InputFault} :
    type.Refuses .null fault ↔ type.required = true ∧ fault = .unexpectedNull type := by
  constructor
  · intro refused
    cases refused with
    | null required => exact ⟨required, rfl⟩
    | scalar _ _ notNull => exact absurd rfl notNull
    | unknown _ _ notNull => exact absurd rfl notNull
    | single _ notNull => exact absurd rfl notNull
  · rintro ⟨required, rfl⟩
    exact .null required

private theorem refuses_single_iff {fault : InputFault} (notNull : literal ≠ .null)
    (notList : literal.isList = false) :
    (TypeReference.list item required).Refuses literal fault ↔ item.Refuses literal fault := by
  constructor
  · intro refused
    cases refused with
    | null => exact absurd rfl notNull
    | single _ _ _ refused => exact refused
  · exact .single required notNull notList

private theorem blames_whole_iff
    (whole : ∀ index path, type.partAt? literal (index :: path) = none) :
    type.Blames literal error ↔
      ∃ fault, type.Refuses literal fault ∧ error = .here fault := by
  obtain ⟨path, fault⟩ := error
  constructor
  · intro blamed
    obtain ⟨part, found, refused⟩ := blamed.refused
    cases path with
    | nil =>
        unfold partAt? at found
        cases found
        exact ⟨fault, refused, rfl⟩
    | cons index path =>
        rw [whole] at found
        cases found
  · rintro ⟨other, refused, same⟩
    cases same
    refine ⟨⟨(type, literal), ?_, refused⟩, ?_⟩
    · unfold partAt?
      rfl
    · intro path part before
      unfold Precedes at before
      cases path <;> cases before

/-- Of a list the first item that has no value is blamed. -/
theorem blames_list_iff {literals : List Literal} :
    (TypeReference.list item required).Blames (.list literals) error ↔
      ∃ index literal inner, literals[index]? = some literal ∧ item.Blames literal inner ∧
        error = inner.inItem index ∧
        ∀ (earlier : Nat) (other : Literal), earlier < index →
          literals[earlier]? = some other → ∃ value, item.Makes other value := by
  have partOfItem {index : Nat} {literal : Literal} (path : List Nat)
      (literalIs : literals[index]? = some literal) :
      (TypeReference.list item required).partAt? (.list literals) (index :: path) =
        item.partAt? literal path := by
    rw [partAt?, literalIs]
    rfl
  obtain ⟨path, fault⟩ := error
  constructor
  · intro blamed
    obtain ⟨part, found, refused⟩ := blamed.refused
    cases path with
    | nil =>
        unfold partAt? at found
        cases found
        cases refused with
        | single _ _ notList => cases notList
    | cons index path =>
        unfold partAt? at found
        obtain ⟨literal, literalIs, found⟩ := Option.bind_eq_some_iff.mp found
        refine ⟨index, literal, ⟨path, fault⟩, literalIs, ⟨⟨part, found, refused⟩, ?_⟩, rfl, ?_⟩
        · intro other otherPart before otherFound
          apply blamed.first (index :: other) otherPart (.inr ⟨rfl, before⟩)
          rw [partOfItem other literalIs]
          exact otherFound
        · intro earlier other before otherIs
          apply blamed.first [earlier] (item, other) (.inl before)
          rw [partOfItem [] otherIs, partAt?]
  · rintro ⟨index, literal, inner, literalIs, blamed, same, before⟩
    cases same
    obtain ⟨part, found, refused⟩ := blamed.refused
    refine ⟨⟨part, ?_, refused⟩, ?_⟩
    · rw [← found]
      exact partOfItem inner.path literalIs
    · intro path otherPart isBefore otherFound
      cases path with
      | nil => exact isBefore.elim
      | cons earlier path =>
          unfold partAt? at otherFound
          obtain ⟨other, otherIs, otherFound⟩ := Option.bind_eq_some_iff.mp otherFound
          rcases isBefore with isBefore | ⟨rfl, isBefore⟩
          · obtain ⟨value, made⟩ := before earlier other isBefore otherIs
            exact made.ofPart otherFound
          · rw [literalIs] at otherIs
            cases otherIs
            exact blamed.first path otherPart isBefore otherFound

private theorem coerce_null_eq_error :
    type.coerce .null = .error error ↔ type.Blames .null error := by
  rw [coerce_null, coerceNull_eq_error, blames_whole_iff (partAt?_of_notList rfl)]
  simp only [refuses_null_iff]
  constructor
  · rintro ⟨required, same⟩
    exact ⟨_, ⟨required, rfl⟩, same⟩
  · rintro ⟨_, ⟨required, rfl⟩, same⟩
    exact ⟨required, same⟩

private theorem coerce_named_eq_error {name : String} (notNull : literal ≠ .null) :
    (TypeReference.named name required).coerce literal = .error error ↔
      (TypeReference.named name required).Blames literal error := by
  rw [blames_whole_iff fun index path => rfl]
  constructor
  · intro fails
    unfold coerce at fails
    split at fails
    · exact absurd rfl notNull
    · split at fails
      · rename_i leaf named
        obtain ⟨fault, refused, same⟩ := mapError_eq_error.mp fails
        exact ⟨fault, .scalar required named notNull refused, same.symm⟩
      · rename_i unnamed
        cases fails
        exact ⟨_, .unknown required unnamed notNull, rfl⟩
  · rintro ⟨fault, refused, rfl⟩
    unfold coerce
    split
    · exact absurd rfl notNull
    · cases refused with
      | null => exact absurd rfl notNull
      | scalar _ named _ refused =>
          rw [named]
          exact mapError_eq_error.mpr ⟨fault, refused, rfl⟩
      | unknown _ unnamed => rw [unnamed]

private theorem coerce_single_eq_error (notNull : literal ≠ .null)
    (notList : literal.isList = false)
    (ofItem : item.coerce literal = .error error ↔ item.Blames literal error) :
    (TypeReference.list item required).coerce literal = .error error ↔
      (TypeReference.list item required).Blames literal error := by
  rw [coerce_single notNull notList, map_eq_error, ofItem,
    blames_whole_iff (partAt?_of_notList notList), blames_whole_iff (partAt?_of_notList notList)]
  simp only [refuses_single_iff notNull notList]

/-- Coercion fails with the error of the part that is to blame. -/
theorem coerce_eq_error : type.coerce literal = .error error ↔ type.Blames literal error := by
  induction type generalizing literal error with
  | named name required =>
      by_cases isNull : literal = .null
      · rw [isNull]
        exact coerce_null_eq_error
      · exact coerce_named_eq_error isNull
  | list item required ih =>
      cases literal with
      | null => exact coerce_null_eq_error
      | list literals =>
          rw [blames_list_iff]
          simp only [coerce, map_eq_error, coerceItems_eq_error, ih, coerce_eq_ok, Nat.zero_add]
      | _ => exact coerce_single_eq_error (by simp) rfl ih

/-- Coercion makes values of the declared type, list for list, and fails exactly where some part
is refused: then with the path and the fault of the first such part. -/
theorem coerce_exact (type : TypeReference) (literal : Literal) :
    (∀ value, type.coerce literal = .ok value ↔ type.Makes literal value) ∧
      (∀ value, type.Makes literal value → type.Admits value) ∧
      ∀ error, type.coerce literal = .error error ↔ type.Blames literal error := by
  refine ⟨fun value => coerce_eq_ok, ?_, fun error => coerce_eq_error⟩
  intro value made
  exact admits_of_coerce (coerce_eq_ok.mpr made)

-- The single item in front counts as one place, though it is put into a list.
example : (TypeReference.list (.list (.named "Int" true) false) false).coerce
    (.list [.integer 1, .list [.integer 2, .null], .string "x"]) =
      .error ⟨[1, 1], .unexpectedNull (.named "Int" true)⟩ := rfl

end TypeReference

end StagedResolver
