/-
What can be read.

A property holds of all that a reader gives when it holds of all that its parts give.  In this
way the values and the arguments that a query can hold are well formed.
-/
import StagedResolver.Document.Grammar
import StagedResolver.Proofs.Document.Agreement
import StagedResolver.Proofs.Entries

namespace StagedResolver

namespace Text.Reader

variable {α β : Type} {given : α → Prop} {holds : β → Prop}

/-- Whether a property holds of whatever a reader gives. -/
def Gives (reader : Reader α) (holds : α → Prop) : Prop :=
  ∀ cursor result rest, reader cursor = some (result, rest) → holds result

private theorem gives_true (reader : Reader α) : reader.Gives fun _ => True :=
  fun _ _ _ _ => trivial

private theorem gives_pure {result : α} (isGiven : given result) :
    (pure result : Reader α).Gives given := by
  intro cursor found rest read
  cases read
  exact isGiven

private theorem gives_refuse : (refuse : Reader α).Gives given := by
  intro cursor found rest read
  cases read

theorem Gives.bind {first : Reader α} {next : α → Reader β} (firstGives : first.Gives given)
    (nextGives : ∀ result, given result → (next result).Gives holds) :
    (first >>= next).Gives holds := by
  intro cursor result rest read
  change first.andThen next cursor = some (result, rest) at read
  unfold andThen at read
  cases firstRead : first cursor with
  | none =>
      rw [firstRead] at read
      cases read
  | some found =>
      obtain ⟨item, middle⟩ := found
      rw [firstRead] at read
      exact nextGives item (firstGives cursor item middle firstRead) middle result rest read

private theorem gives_bind (first : Reader α) {next : α → Reader β}
    (nextGives : ∀ result, (next result).Gives holds) : (first >>= next).Gives holds :=
  (gives_true first).bind fun result _ => nextGives result

private theorem gives_map (change : α → β) (reader : Reader α)
    (each : ∀ result, holds (change result)) :
    (change <$> reader).Gives holds :=
  gives_bind reader fun result => gives_pure (each result)

private theorem gives_ofOption {found : Option α}
    (each : ∀ result, found = some result → given result) :
    (ofOption found).Gives given := by
  cases found with
  | none => exact gives_refuse
  | some result => exact gives_pure (each result rfl)

theorem Gives.orElse {first second : Reader α} (firstGives : first.Gives given)
    (secondGives : second.Gives given) : (first.orElse second).Gives given := by
  intro cursor result rest read
  unfold Reader.orElse at read
  cases firstRead : first cursor with
  | none =>
      rw [firstRead] at read
      exact secondGives cursor result rest read
  | some found =>
      rw [firstRead] at read
      cases read
      exact firstGives cursor result rest firstRead

private theorem gives_choice {readers : List (Reader α)}
    (each : ∀ reader ∈ readers, reader.Gives given) :
    (choice readers).Gives given := by
  induction readers with
  | nil => exact gives_refuse
  | cons reader readers ih =>
      rw [List.forall_mem_cons] at each
      exact each.1.orElse (ih each.2)

theorem Gives.optional {reader : Reader α} (gives : reader.Gives given) :
    (optional reader).Gives fun found => ∀ result ∈ found, given result := by
  intro cursor found rest read
  unfold Reader.optional at read
  cases itemRead : reader cursor with
  | none =>
      rw [itemRead] at read
      cases read
      simp
  | some item =>
      rw [itemRead] at read
      cases read
      intro result isItem
      cases isItem
      exact gives cursor _ _ itemRead

theorem Gives.many {reader : Reader α} (gives : reader.Gives given) :
    (many reader).Gives fun results => ∀ result ∈ results, given result := by
  -- The repetition ends where nothing can be read or nothing was taken, and else goes on.
  have each (cursor : Cursor) : ∀ result ∈ (many.go reader cursor).1, given result := by
    induction cursor using many.go.induct reader with
    | case1 cursor refused =>
        unfold many.go
        simp [refused]
    | case2 cursor result rest read further others last othersAre ih =>
        unfold many.go
        simpa [read, further, gives cursor result rest read] using ih
    | case3 cursor result rest read nothing =>
        unfold many.go
        simp [read, nothing, gives cursor result rest read]
  intro cursor results rest read
  have readAll : many.go reader cursor = (results, rest) := Option.some.inj read
  have given := each cursor
  rw [readAll] at given
  exact given

theorem Gives.many1 {reader : Reader α} (gives : reader.Gives given) :
    (many1 reader).Gives fun results => ∀ result ∈ results, given result := by
  refine gives.bind fun first firstGiven => gives.many.bind fun others othersGiven => ?_
  exact gives_pure (List.forall_mem_cons.mpr ⟨firstGiven, othersGiven⟩)

theorem Gives.located {reader : Reader α} (gives : reader.Gives given) :
    (located reader).Gives fun result => given result.item :=
  gives_bind here fun _ => gives.bind fun _ itemGiven => gives_pure itemGiven

/-- A reader that occurs inside itself, provided that it gives what it should when its
occurrences do. -/
theorem gives_recursive {build : Reader α → Reader α}
    (each : ∀ inner : Reader α, inner.Gives given → (build inner).Gives given) :
    (recursive build).Gives given := by
  have atDepth (depth : Nat) : Reader.Gives (nested build depth) given := by
    induction depth with
    | zero =>
        intro cursor result rest read
        cases read
    | succ depth ih => exact each _ ih
  exact fun cursor => atDepth (cursor.rest.length + 1) cursor

end Text.Reader

private theorem Binary64.isFinite_neg (number : Binary64) :
    number.neg.isFinite = number.isFinite := by
  have signApart : (((0x8000000000000000 : UInt64) >>> 52) &&& 0x7FF).toNat = 0 := by decide
  have sameField : number.neg.exponentField = number.exponentField := by
    unfold exponentField neg
    rw [UInt64.toNat_and] at signApart
    rw [UInt64.shiftRight_xor, UInt64.toNat_and, UInt64.toNat_xor, Nat.and_xor_distrib_right,
      signApart, Nat.xor_zero, UInt64.toNat_and]
  rw [isFinite, isFinite, sameField]

private theorem Binary64.isNaN_of_isFinite {number : Binary64} (finite : number.isFinite = true) :
    number.isNaN = false := by
  simp_all [isFinite, isNaN]

private theorem Decimal.isFinite_of_round? {negative : Bool} {decimal : Decimal} {number : Binary64}
    (rounds : decimal.round? negative = some number) : number.isFinite = true := by
  have finiteZero : Binary64.zero.isFinite = true := by decide
  grind [round?, Binary64.isFinite_neg]

namespace Json

variable {negative : Bool} {characters : List Char} {number : Binary64}

private theorem isFinite_of_integerLiteral? {magnitude : Nat}
    (isNumber : integerLiteral? negative magnitude = some (.decimal number)) :
    number.isFinite = true := by
  have finiteZero : Binary64.negativeZero.isFinite = true := by decide
  grind [integerLiteral?, Decimal.isFinite_of_round?, Option.map_eq_some_iff]

private theorem isFinite_of_unsignedNumber?
    (isNumber : unsignedNumber? negative characters = some (.decimal number)) :
    number.isFinite = true := by
  have rounded {exponent : Option Int} {digits : Int → Decimal}
      (isRounded : (exponent.bind fun power =>
        ((digits power).round? negative).bind fun found => some (decimal found)) =
          some (decimal number)) : number.isFinite = true := by
    obtain ⟨power, _, isRounded⟩ := Option.bind_eq_some_iff.mp isRounded
    obtain ⟨found, rounds, same⟩ := Option.bind_eq_some_iff.mp isRounded
    cases same
    exact Decimal.isFinite_of_round? rounds
  simp only [unsignedNumber?] at isNumber
  obtain ⟨_, isNumber⟩ := Option.ite_none_left_eq_some.mp isNumber
  split at isNumber
  · exact isFinite_of_integerLiteral? isNumber
  · exact rounded (Option.ite_none_left_eq_some.mp isNumber).2
  · exact rounded isNumber

private theorem isFinite_of_number? (isNumber : number? characters = some (.decimal number)) :
    number.isFinite = true := by
  unfold number? at isNumber
  split at isNumber
  · exact isFinite_of_unsignedNumber? isNumber
  · exact isFinite_of_unsignedNumber? isNumber

end Json

namespace Document

open Text Text.Reader

private theorem gives_token {α : Type} {given : α → Prop} {reader : Reader α}
    (gives : reader.Gives given) : (Lexeme.token reader).Gives given :=
  fun cursor => gives (Lexeme.skipIgnored cursor)

/-! ### Values and arguments -/

namespace Grammar

open Lexeme

variable {item : Reader InputValue}

private theorem inputNumber_gives : inputNumber.Gives InputValue.WellFormed := by
  have decimals : number.Gives fun found => ∀ decimal, found = .decimal decimal →
      decimal.isNaN = false := by
    refine gives_bind _ fun text => gives_ofOption fun found isNumber decimal isDecimal => ?_
    rw [isDecimal] at isNumber
    exact Binary64.isNaN_of_isFinite (Json.isFinite_of_number? isNumber)
  refine decimals.bind fun found areNumbers => ?_
  cases found with
  | integer value => exact gives_pure (.plain rfl)
  | decimal value => exact gives_pure (.decimal (areNumbers value rfl))
  | _ => exact gives_refuse

private theorem listOf_gives (gives : item.Gives InputValue.WellFormed) :
    (listOf item).Gives InputValue.WellFormed := by
  refine gives_bind _ fun _ => (gives_token gives).many.bind fun items each => ?_
  exact gives_bind _ fun _ => gives_pure (.list each)

/-- Of several members of one name an object keeps the last. -/
theorem objectOf_gives (gives : item.Gives InputValue.WellFormed) :
    (objectOf item).Gives InputValue.WellFormed := by
  refine gives_bind _ fun _ => ?_
  have members : (many do
      let key ← token name
      symbol ":"
      let held ← token item
      return (key, held)).Gives fun found => ∀ member ∈ found, member.2.WellFormed := by
    refine Gives.many (gives_bind _ fun key => gives_bind _ fun _ => ?_)
    exact (gives_token gives).bind fun held wellFormed => gives_pure wellFormed
  refine members.bind fun found each => gives_bind _ fun _ => gives_pure ?_
  refine .object (Entries.distinctKeys_collapse found) fun member isMember => ?_
  exact each member (Entries.mem_of_mem_collapse isMember)

private theorem inputValue_gives (allowed : Bool) :
    (inputValue allowed).Gives InputValue.WellFormed := by
  refine gives_recursive fun inner gives => gives_choice ?_
  have plain {α : Type} (reader : Reader α) (build : α → InputValue)
      (isPlain : ∀ result, (build result).isPlain = true) :
      (build <$> reader).Gives InputValue.WellFormed :=
    gives_map build reader fun result => .plain (isPlain result)
  have fixedPlain (text : String) {value : InputValue} (isPlain : value.isPlain = true) :
      (fixed text value).Gives InputValue.WellFormed :=
    gives_bind _ fun _ => gives_pure (.plain isPlain)
  simp only [List.forall_mem_cons, List.not_mem_nil, false_implies, implies_true, and_true]
  refine ⟨?_, inputNumber_gives, plain _ _ fun _ => rfl, fixedPlain _ rfl, fixedPlain _ rfl,
    fixedPlain _ rfl, plain _ _ fun _ => rfl, listOf_gives gives, objectOf_gives gives⟩
  exact gives_bind _ fun _ => gives_bind _ fun _ => gives_pure (.plain rfl)

private theorem argument_gives : argument.Gives fun found => found.value.item.WellFormed := by
  refine gives_bind _ fun key => gives_bind _ fun _ => ?_
  exact (gives_token (inputValue_gives true).located).bind fun held wellFormed =>
    gives_pure wellFormed

theorem arguments_gives :
    arguments.Gives fun found => ∀ argument ∈ found, argument.value.item.WellFormed := by
  have between : (do
      symbol "("
      let found ← many1 argument
      symbol ")"
      return found).Gives fun found => ∀ argument ∈ found, argument.value.item.WellFormed := by
    refine gives_bind _ fun _ => argument_gives.many1.bind fun found each => ?_
    exact gives_bind _ fun _ => gives_pure each
  refine between.optional.bind fun found each => gives_pure ?_
  cases found with
  | none => simp
  | some list => exact each list rfl

end Grammar

end Document

end StagedResolver
