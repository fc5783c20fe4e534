/-
Literals and numbers are read from the texts that are written for them.

The integers of the widths that the reader has are read as themselves.  A decimal is read from
its layout, which is why its text needs to be a number's for the number to be read back.
-/
import Mathlib.Data.List.TakeWhile
import StagedResolver.Json.Printer
import StagedResolver.Json.Token

namespace StagedResolver.Json

open Text

private theorem isRunCharacter_of_isDigit {character : Char} (isDigit : character.isDigit = true) :
    isRunCharacter character = true := by
  simp only [isRunCharacter, Char.isAlphanum, isDigit, Bool.or_true, Bool.true_or]

private theorem isDigit_of_mem_toDigits {number : Nat} :
    ∀ character ∈ Nat.toDigits 10 number, character.isDigit = true :=
  fun _ member => Nat.isDigit_of_mem_toDigits (by decide) (by decide) member

private theorem digitsValue_toDigits (number : Nat) :
    digitsValue (Nat.toDigits 10 number) = number := by
  have value : Nat.ofDigitChars 10 (Nat.toDigits 10 number) 0 = number :=
    Nat.ofDigitChars_ten_toDigits
  rw [Nat.ofDigitChars_eq_foldl] at value
  rw [digitsValue]
  simp only [Nat.mul_comm 10] at value
  exact value

private theorem toDigits_of_pos {number : Nat} (positive : 0 < number) :
    ∃ first others, Nat.toDigits 10 number = first :: others ∧ first ≠ '0' := by
  induction number using Nat.strongRecOn with
  | ind number ih =>
      by_cases small : number < 10
      · refine ⟨number.digitChar, [], Nat.toDigits_of_lt_base small, ?_⟩
        intro isZero
        have := Nat.digitChar_eq_zero.mp isZero
        omega
      · obtain ⟨first, others, digits, notZero⟩ := ih (number / 10) (by omega) (by omega)
        refine ⟨first, others ++ [(number % 10).digitChar], ?_, notZero⟩
        rw [Nat.toDigits_of_base_le (by decide) (by omega), digits, List.cons_append]

private theorem unsignedNumber?_toDigits (negative : Bool) (number : Nat) :
    unsignedNumber? negative (Nat.toDigits 10 number) = integerLiteral? negative number := by
  have whole : (Nat.toDigits 10 number).takeWhile Char.isDigit = Nat.toDigits 10 number :=
    List.takeWhile_eq_self_iff.mpr isDigit_of_mem_toDigits
  have rest : (Nat.toDigits 10 number).dropWhile Char.isDigit = [] :=
    List.dropWhile_eq_nil_iff.mpr isDigit_of_mem_toDigits
  simp only [unsignedNumber?, whole, rest, digitsValue_toDigits]
  rcases Nat.eq_zero_or_pos number with rfl | positive
  · rfl
  · obtain ⟨first, others, digits, notZero⟩ := toDigits_of_pos positive
    simp [digits, notZero]

def IsRun (characters : List Char) : Prop :=
  ∀ character ∈ characters, isRunCharacter character = true

instance (characters : List Char) : Decidable (IsRun characters) :=
  List.decidableBAll (fun character => isRunCharacter character = true) characters

namespace IsRun

variable {first : Char} {characters others : List Char}

theorem nil : IsRun [] :=
  List.forall_mem_nil _

theorem cons (isFirst : isRunCharacter first = true) (rest : IsRun characters) :
    IsRun (first :: characters) :=
  List.forall_mem_cons.mpr ⟨isFirst, rest⟩

theorem append (isRun : IsRun characters) (othersRun : IsRun others) :
    IsRun (characters ++ others) :=
  List.forall_mem_append.mpr ⟨isRun, othersRun⟩

theorem toDigits (number : Nat) : IsRun (Nat.toDigits 10 number) :=
  fun character member => isRunCharacter_of_isDigit (isDigit_of_mem_toDigits character member)

theorem repr (number : Nat) : IsRun (Nat.repr number).toList := by
  rw [Nat.repr_eq_ofList_toDigits, String.toList_ofList]
  exact toDigits number

theorem zeros (count : Nat) : IsRun (DecimalLayout.zeros count) := by
  intro character member
  rw [(List.mem_replicate.mp member).2]
  decide

theorem positional (isRun : IsRun characters) (point : Int) :
    IsRun (DecimalLayout.positional characters point) := by
  have isPoint : isRunCharacter '.' = true := by decide
  have isZero : isRunCharacter '0' = true := by decide
  unfold DecimalLayout.positional
  split
  · exact cons isZero (cons isPoint ((zeros _).append isRun))
  · split
    · have before : IsRun (characters.take point.toNat) :=
        fun character member => isRun character (List.mem_of_mem_take member)
      have after : IsRun (characters.drop point.toNat) :=
        fun character member => isRun character (List.mem_of_mem_drop member)
      exact before.append (cons isPoint after)
    · exact (isRun.append (zeros _)).append (cons isPoint (cons isZero nil))

theorem scientific (isRun : IsRun characters) (point : Int) :
    IsRun (DecimalLayout.scientific characters point) := by
  have isMark : isRunCharacter 'e' = true := by decide
  have isPoint : isRunCharacter '.' = true := by decide
  have isSign : isRunCharacter (if point - 1 < 0 then '-' else '+') = true := by
    split
    · decide
    · decide
  have exponent := cons isMark (cons isSign (repr (point - 1).natAbs))
  match characters with
  | [] => exact exponent
  | [first] => exact isRun.append exponent
  | first :: second :: rest =>
      obtain ⟨isFirst, others⟩ := List.forall_mem_cons.mp isRun
      exact (cons isFirst (cons isPoint others)).append exponent

theorem text (layout : DecimalLayout) (number : Binary64) :
    IsRun (layout.text number).toList := by
  have isSign : isRunCharacter '-' = true := by decide
  have magnitude : IsRun (if number.isZero then DecimalLayout.positional ['0'] 1
      else layout.decimalText (Decimal.shortest number)) := by
    split
    · exact (repr 0).positional 1
    · simp only [DecimalLayout.decimalText]
      split
      · exact (repr _).positional _
      · exact (repr _).scientific _
  simp only [DecimalLayout.text, String.toList_ofList]
  split
  · exact cons isSign magnitude
  · exact magnitude

end IsRun

/-- Whether the text of a literal or number is one run, from which it is read. -/
structure Legible (leaf : Json) : Prop where
  run : IsRun leaf.render.toList
  scalar : scalar? leaf.render.toList = some leaf

theorem Legible.null : Legible .null where
  run := by decide +kernel
  scalar := rfl

theorem Legible.bool (flag : Bool) : Legible (.bool flag) where
  run := by
    cases flag with
    | false => decide +kernel
    | true => decide +kernel
  scalar := by
    cases flag with
    | false => rfl
    | true => rfl

/-- The integers of sixty-four bits, signed or unsigned. -/
def InWidth (number : Int) : Prop :=
  -0x8000000000000000 ≤ number ∧ number < 0x10000000000000000

private theorem scalar?_eq_number? {first : Char} {rest : List Char}
    (starts : first.isDigit = true ∨ first = '-') :
    scalar? (first :: rest) = number? (first :: rest) := by
  have differs : ∀ letter : Char, letter.isDigit = false → letter ≠ '-' → first ≠ letter := by
    intro letter noDigit noSign same
    rcases starts with isDigit | isSign
    · rw [same, noDigit] at isDigit
      cases isDigit
    · exact noSign (same.symm.trans isSign)
  have notNull := differs 'n' (by decide) (by decide)
  have notTrue := differs 't' (by decide) (by decide)
  have notFalse := differs 'f' (by decide) (by decide)
  simp only [scalar?, List.cons.injEq, notNull, notTrue, notFalse, false_and, if_false]

private theorem scalar?_toDigits (magnitude : Nat) :
    scalar? (Nat.toDigits 10 magnitude) = integerLiteral? false magnitude := by
  rw [← unsignedNumber?_toDigits]
  obtain ⟨first, others, digits⟩ :=
    List.exists_cons_of_ne_nil (Nat.toDigits_ne_nil : Nat.toDigits 10 magnitude ≠ [])
  have isDigit : first.isDigit = true :=
    isDigit_of_mem_toDigits first (digits ▸ List.mem_cons_self ..)
  rw [digits, scalar?_eq_number? (.inl isDigit), number?]
  intro rest same
  cases same
  cases isDigit

private theorem scalar?_minus_toDigits (magnitude : Nat) :
    scalar? ('-' :: Nat.toDigits 10 magnitude) = integerLiteral? true magnitude := by
  rw [scalar?_eq_number? (.inr rfl), number?, unsignedNumber?_toDigits]

theorem Legible.integer {number : Int} (inWidth : InWidth number) : Legible (.integer number) := by
  obtain ⟨low, high⟩ := inWidth
  cases number with
  | ofNat magnitude =>
      have text : (render (.integer (Int.ofNat magnitude))).toList = Nat.toDigits 10 magnitude := by
        show (Nat.repr magnitude).toList = _
        rw [Nat.repr_eq_ofList_toDigits, String.toList_ofList]
      constructor
      · rw [text]
        exact .toDigits magnitude
      · have fits : magnitude < UInt64.size := Int.ofNat_lt.mp high
        rw [text, scalar?_toDigits, integerLiteral?]
        simp only [Bool.false_eq_true, fits, if_false, if_true]
        rfl
  | negSucc before =>
      have text : (render (.integer (Int.negSucc before))).toList =
          '-' :: Nat.toDigits 10 (before + 1) := by
        show ("-" ++ Nat.repr (before + 1)).toList = _
        simp only [Nat.repr_eq_ofList_toDigits, String.toList_append, String.toList_ofList]
        rfl
      constructor
      · have isSign : isRunCharacter '-' = true := by decide
        rw [text]
        exact .cons isSign (.toDigits (before + 1))
      · have fits : before + 1 ≤ Nat.pow 2 63 := by
          show before + 1 ≤ 2 ^ 63
          omega
        rw [text, scalar?_minus_toDigits, integerLiteral?]
        simp only [if_true, Nat.succ_ne_zero, if_false, fits]
        rfl

/-! ### Decimals -/

/-- Whether a number is read exactly from the text that is written for it. -/
def IsExact (number : Binary64) : Prop :=
  number? (numberLayout.text number).toList = some (.decimal number)

theorem Legible.decimal {number : Binary64} (exact : IsExact number) :
    Legible (.decimal number) where
  run := IsRun.text numberLayout number
  scalar := by
    have noLiteral (literal : List Char) (noNumber : number? literal = none) :
        (numberLayout.text number).toList ≠ literal := by
      intro same
      rw [IsExact, same, noNumber] at exact
      cases exact
    show scalar? (numberLayout.text number).toList = _
    rw [scalar?, if_neg (noLiteral _ rfl), if_neg (noLiteral _ rfl), if_neg (noLiteral _ rfl)]
    exact exact

end StagedResolver.Json
