/-
Values are totally ordered, and nothing but the same value compares equal.

Three values are compared in three pairs, and what two of the pairs compare to limits the
third.  This passes from heads to lists and from what is held to what holds it, so that one
induction over a value, its items and its entries says that the order is transitive and which
way round it is.  Between values of different kinds the places of the kinds decide.
-/
import StagedResolver.Proofs.Value.Layers
import StagedResolver.Value.Order

namespace StagedResolver

/-- Whether a comparison is a total order in which nothing but the same compares equal. -/
structure IsTotalOrder {α : Type} (compare : α → α → Ordering) : Prop where
  reflexive (one : α) : (compare one one).isLE
  antisymmetric (one two : α) : (compare one two).isLE → (compare two one).isLE → one = two
  transitive (one two three : α) :
    (compare one two).isLE → (compare two three).isLE → (compare one three).isLE
  total (one two : α) : (compare one two).isLE ∨ (compare two one).isLE
  swapped (one two : α) : compare two one = (compare one two).swap
  same (one two : α) : compare one two = .eq ↔ one = two

private theorem isTotalOrder_of_lawful {α : Type} {compare : α → α → Ordering}
    [Std.TransCmp compare]
    [Std.LawfulEqCmp compare] : IsTotalOrder compare where
  reflexive one := Std.ReflCmp.isLE_rfl
  antisymmetric one two le ge :=
    Std.LawfulEqCmp.eq_of_compare (Std.OrientedCmp.isLE_antisymm le ge)
  transitive one two three := Std.TransCmp.isLE_trans
  total one two := by
    have swapped : compare two one = (compare one two).swap := Std.OrientedCmp.eq_swap
    rw [swapped]
    cases compare one two with
    | lt | eq => exact .inl rfl
    | gt => exact .inr rfl
  swapped one two := Std.OrientedCmp.eq_swap
  same one two := Std.LawfulEqCmp.compare_eq_iff_eq

/-- Whether a third thing compares to a first one as the comparisons with a second one between
them allow. -/
structure Chains (first second whole : Ordering) : Prop where
  ofFirst : first = .eq → whole = second
  ofSecond : second = .eq → whole = first
  ofSame : first = second → whole = first

namespace Chains

variable {first second whole : Ordering}

private theorem ofTrans {α : Type} (compare : α → α → Ordering) [Std.TransCmp compare]
    (one two three : α) :
    Chains (compare one two) (compare two three) (compare one three) where
  ofFirst same := Std.TransCmp.congr_left same
  ofSecond same := (Std.TransCmp.congr_right same).symm
  ofSame same := by
    cases decided : compare one two with
    | lt => exact Std.TransCmp.lt_trans decided (same.symm.trans decided)
    | eq => exact (Std.TransCmp.congr_left decided).trans (same.symm.trans decided)
    | gt => exact Std.TransCmp.gt_trans decided (same.symm.trans decided)

theorem left (decided : first ≠ .eq) : Chains first second first :=
  ⟨fun same => absurd same decided, fun _ => rfl, fun _ => rfl⟩

theorem right (decided : second ≠ .eq) : Chains first second second :=
  ⟨fun _ => rfl, fun same => absurd same decided, fun same => same.symm⟩

theorem apart (decided : first ≠ .eq) (secondDecided : second ≠ .eq) (differ : first ≠ second) :
    Chains first second whole :=
  ⟨fun same => absurd same decided, fun same => absurd same secondDecided,
    fun same => absurd same differ⟩

theorem sameFirst : Chains .eq second second :=
  ⟨fun _ => rfl, id, Eq.symm⟩

private theorem leftLt : Chains .lt second .lt := left (by decide)

private theorem leftGt : Chains .gt second .gt := left (by decide)

private theorem rightLt : Chains first .lt .lt := right (by decide)

private theorem rightGt : Chains first .gt .gt := right (by decide)

private theorem ltGt : Chains .lt .gt whole := apart (by decide) (by decide) (by decide)

private theorem gtLt : Chains .gt .lt whole := apart (by decide) (by decide) (by decide)

theorem andThen {firstRest secondRest wholeRest : Ordering} (chains : Chains first second whole)
    (rest : Chains firstRest secondRest wholeRest) :
    Chains (first.then firstRest) (second.then secondRest) (whole.then wholeRest) := by
  cases first with
  | eq =>
      cases chains.ofFirst rfl
      cases second with
      | eq => exact rest
      | lt => exact rightLt
      | gt => exact rightGt
  | lt =>
      cases second with
      | eq =>
          cases chains.ofSecond rfl
          exact leftLt
      | lt =>
          cases chains.ofSame rfl
          exact leftLt
      | gt => exact ltGt
  | gt =>
      cases second with
      | eq =>
          cases chains.ofSecond rfl
          exact leftGt
      | lt => exact gtLt
      | gt =>
          cases chains.ofSame rfl
          exact leftGt

private theorem isLE (chains : Chains first second whole) (firstLE : first.isLE)
    (secondLE : second.isLE) :
    whole.isLE := by
  cases first with
  | eq =>
      rw [chains.ofFirst rfl]
      exact secondLE
  | lt =>
      cases second with
      | eq =>
          rw [chains.ofSecond rfl]
          exact firstLE
      | lt =>
          rw [chains.ofSame rfl]
          exact firstLE
      | gt => cases secondLE
  | gt => cases firstLE

private theorem eq_swap (chains : Chains first second .eq) : first = second.swap := by
  cases first with
  | eq =>
      rw [← chains.ofFirst rfl]
      rfl
  | lt =>
      cases second with
      | eq => cases chains.ofSecond rfl
      | lt => cases chains.ofSame rfl
      | gt => rfl
  | gt =>
      cases second with
      | eq => cases chains.ofSecond rfl
      | lt => rfl
      | gt => cases chains.ofSame rfl

end Chains

namespace Binary64

/-- Whether a number comes before another one, by their bits: negative numbers come first,
those with greater bits before those with smaller ones, and then all others, those with smaller
bits first. -/
def Precedes (left right : Binary64) : Prop :=
  if left.isNegative then right.isNegative = false ∨ right.bits < left.bits
  else right.isNegative = false ∧ left.bits < right.bits

private theorem isNegative_iff {number : Binary64} :
    number.isNegative = true ↔ 0x8000000000000000 ≤ number.bits.toNat := by
  have bound := number.bits.toNat_lt
  rw [isNegative, beq_iff_eq, ← UInt64.toNat_inj, UInt64.toNat_shiftRight]
  show number.bits.toNat >>> 63 = 1 ↔ _
  rw [Nat.shiftRight_eq_div_pow]
  omega

/-- Keys count up through the bits of numbers that are not negative, and down through those of
negative ones, which have keys below zero. -/
theorem orderKey_of_sign (number : Binary64) :
    (number.isNegative = false ∧ number.orderKey = (number.bits.toNat : Int)) ∨
      number.isNegative = true ∧ number.orderKey < 0 ∧
        number.orderKey = 0x7FFFFFFFFFFFFFFF - (number.bits.toNat : Int) := by
  cases sign : number.isNegative with
  | true =>
      have high := isNegative_iff.mp sign
      have key : number.orderKey = 0x7FFFFFFFFFFFFFFF - (number.bits.toNat : Int) :=
        if_neg (Nat.not_lt.mpr high)
      exact .inr ⟨rfl, by omega, key⟩
  | false =>
      have low : ¬ 0x8000000000000000 ≤ number.bits.toNat := by
        rw [← isNegative_iff, sign]
        exact Bool.false_ne_true
      exact .inl ⟨rfl, if_pos (Nat.lt_of_not_le low)⟩

theorem compare_eq_lt_iff {left right : Binary64} :
    compare left right = .lt ↔ left.Precedes right := by
  rw [compare, Int.compare_eq_lt, Precedes, UInt64.lt_iff_toNat_lt, UInt64.lt_iff_toNat_lt]
  rcases orderKey_of_sign left with ⟨leftSign, leftKey⟩ | ⟨leftSign, leftBelow, leftKey⟩
  · rcases orderKey_of_sign right with ⟨rightSign, rightKey⟩ | ⟨rightSign, rightBelow, rightKey⟩
    · simp only [leftSign, rightSign, Bool.false_eq_true, if_false, true_and]
      omega
    · simp only [leftSign, rightSign, Bool.false_eq_true, if_false, Bool.true_eq_false, false_and,
        iff_false]
      omega
  · rcases orderKey_of_sign right with ⟨rightSign, rightKey⟩ | ⟨rightSign, rightBelow, rightKey⟩
    · simp only [leftSign, rightSign, if_true, true_or, iff_true]
      omega
    · simp only [leftSign, rightSign, if_true, Bool.true_eq_false, false_or]
      omega

private theorem orderKey_injective {left right : Binary64} (same : left.orderKey = right.orderKey) :
    left = right := by
  have sameBits : left.bits.toNat = right.bits.toNat := by
    rcases orderKey_of_sign left with ⟨_, leftKey⟩ | ⟨_, leftBelow, leftKey⟩
    · rcases orderKey_of_sign right with ⟨_, rightKey⟩ | ⟨_, rightBelow, rightKey⟩
      · omega
      · omega
    · rcases orderKey_of_sign right with ⟨_, rightKey⟩ | ⟨_, rightBelow, rightKey⟩
      · omega
      · omega
  exact congrArg Binary64.mk (UInt64.toNat_inj.mp sameBits)

instance : Std.TransCmp Binary64.compare where
  eq_swap {left right} :=
    (Std.OrientedOrd.eq_swap : Ord.compare left.orderKey right.orderKey = _)
  isLE_trans {one two _} := (Std.TransOrd.isLE_trans :
    (Ord.compare one.orderKey two.orderKey).isLE → _)

instance : Std.LawfulEqCmp Binary64.compare where
  compare_self {number} := (Std.ReflOrd.compare_self : Ord.compare number.orderKey _ = _)
  eq_of_compare same := orderKey_injective (Std.LawfulEqOrd.eq_of_compare same)

end Binary64

/-! ### The kinds of values -/

namespace Value

theorem rank_eq_iff {left right : Value} : left.rank = right.rank ↔ left.kind = right.kind := by
  cases left <;> cases right <;> simp [rank, kind]

/-- Values of different kinds are ordered as their kinds are. -/
theorem compare_of_kind_ne {left right : Value} (differ : left.kind ≠ right.kind) :
    compare left right = Ord.compare left.rank right.rank := by
  fun_cases compare left right with
  | case10 => rfl
  | _ => exact absurd rfl differ

private theorem compare_ne_eq_of_kind_ne {left right : Value} (differ : left.kind ≠ right.kind) :
    compare left right ≠ .eq := by
  rw [compare_of_kind_ne differ]
  intro same
  exact differ (rank_eq_iff.mp (Std.LawfulEqOrd.eq_of_compare same))

private theorem compareItems_cons (left right : Value) (lefts rights : List Value) :
    compareItems (left :: lefts) (right :: rights) =
      (compare left right).then (compareItems lefts rights) := by
  rw [compareItems]
  cases compare left right with
  | _ => rfl

private theorem compareEntries_cons (leftKey rightKey : String) (left right : Value)
    (lefts rights : List (String × Value)) :
    compareEntries ((leftKey, left) :: lefts) ((rightKey, right) :: rights) =
      (Ord.compare leftKey rightKey).then
        ((compare left right).then (compareEntries lefts rights)) := by
  rw [compareEntries]
  cases Ord.compare leftKey rightKey with
  | eq =>
      cases compare left right with
      | _ => rfl
  | _ => rfl

/-- To compare three values it is enough to compare those of one kind. -/
theorem chains_of_sameKind {one two three : Value}
    (chains : one.kind = two.kind → two.kind = three.kind →
      Chains (compare one two) (compare two three) (compare one three)) :
    Chains (compare one two) (compare two three) (compare one three) := by
  by_cases same : one.kind = two.kind
  · by_cases sameNext : two.kind = three.kind
    · exact chains same sameNext
    · have whole : compare one three = compare two three := by
        rw [compare_of_kind_ne sameNext, compare_of_kind_ne (same ▸ sameNext),
          rank_eq_iff.mpr same]
      rw [whole]
      exact .right (compare_ne_eq_of_kind_ne sameNext)
  · by_cases sameNext : two.kind = three.kind
    · have whole : compare one three = compare one two := by
        rw [compare_of_kind_ne same, compare_of_kind_ne (sameNext ▸ same),
          rank_eq_iff.mpr sameNext]
      rw [whole]
      exact .left (compare_ne_eq_of_kind_ne same)
    · by_cases sameEnds : one.kind = three.kind
      · apply Chains.apart (compare_ne_eq_of_kind_ne same) (compare_ne_eq_of_kind_ne sameNext)
        have decided := compare_ne_eq_of_kind_ne sameNext
        have swapped : Ord.compare three.rank two.rank = (Ord.compare two.rank three.rank).swap :=
          Std.OrientedOrd.eq_swap
        rw [compare_of_kind_ne sameNext] at decided ⊢
        rw [compare_of_kind_ne same, rank_eq_iff.mpr sameEnds, swapped]
        generalize Ord.compare two.rank three.rank = order at decided ⊢
        cases order with
        | eq => exact absurd rfl decided
        | lt | gt => decide
      · rw [compare_of_kind_ne same, compare_of_kind_ne sameNext, compare_of_kind_ne sameEnds]
        exact .ofTrans Ord.compare one.rank two.rank three.rank

mutual

theorem chains_compare : ∀ one two three : Value,
    Chains (compare one two) (compare two three) (compare one three)
  | .null, two, three => chains_of_sameKind fun same sameNext => by
      cases eq_null_of_kind same.symm
      cases eq_null_of_kind sameNext.symm
      exact ⟨fun _ => rfl, fun _ => rfl, fun _ => rfl⟩
  | .bool flag, two, three => chains_of_sameKind fun same sameNext => by
      obtain ⟨other, rfl⟩ := eq_bool_of_kind same.symm
      obtain ⟨last, rfl⟩ := eq_bool_of_kind sameNext.symm
      exact .ofTrans Ord.compare flag other last
  | .int number, two, three => chains_of_sameKind fun same sameNext => by
      obtain ⟨other, rfl⟩ := eq_int_of_kind same.symm
      obtain ⟨last, rfl⟩ := eq_int_of_kind sameNext.symm
      exact .ofTrans Ord.compare number.toInt other.toInt last.toInt
  | .float number, two, three => chains_of_sameKind fun same sameNext => by
      obtain ⟨other, rfl⟩ := eq_float_of_kind same.symm
      obtain ⟨last, rfl⟩ := eq_float_of_kind sameNext.symm
      exact .ofTrans Binary64.compare number other last
  | .string text, two, three => chains_of_sameKind fun same sameNext => by
      obtain ⟨other, rfl⟩ := eq_string_of_kind same.symm
      obtain ⟨last, rfl⟩ := eq_string_of_kind sameNext.symm
      exact .ofTrans Ord.compare text other last
  | .record entries, two, three => chains_of_sameKind fun same sameNext => by
      obtain ⟨others, rfl⟩ := eq_record_of_kind same.symm
      obtain ⟨last, rfl⟩ := eq_record_of_kind sameNext.symm
      exact chains_compareEntries entries others last
  | .sequence items, two, three => chains_of_sameKind fun same sameNext => by
      obtain ⟨others, rfl⟩ := eq_sequence_of_kind same.symm
      obtain ⟨last, rfl⟩ := eq_sequence_of_kind sameNext.symm
      exact chains_compareItems items others last
  | .absent, two, three => chains_of_sameKind fun same sameNext => by
      rcases eq_optional_of_kind same.symm with rfl | ⟨other, rfl⟩
      · exact .sameFirst
      · rcases eq_optional_of_kind sameNext.symm with rfl | ⟨last, rfl⟩
        · exact .ltGt
        · exact .leftLt
  | .present inner, two, three => chains_of_sameKind fun same sameNext => by
      rcases eq_optional_of_kind same.symm with rfl | ⟨other, rfl⟩
      · rcases eq_optional_of_kind sameNext.symm with rfl | ⟨last, rfl⟩
        · exact .leftGt
        · exact .gtLt
      · rcases eq_optional_of_kind sameNext.symm with rfl | ⟨last, rfl⟩
        · exact .rightGt
        · exact chains_compare inner other last

theorem chains_compareItems : ∀ one two three : List Value,
    Chains (compareItems one two) (compareItems two three) (compareItems one three)
  | [], [], _ => .sameFirst
  | [], _ :: _, [] => .ltGt
  | [], _ :: _, _ :: _ => .leftLt
  | _ :: _, [], [] => .leftGt
  | _ :: _, [], _ :: _ => .gtLt
  | _ :: _, _ :: _, [] => .rightGt
  | one :: ones, two :: twos, three :: threes => by
      rw [compareItems_cons, compareItems_cons, compareItems_cons]
      exact (chains_compare one two three).andThen (chains_compareItems ones twos threes)

theorem chains_compareEntries : ∀ one two three : List (String × Value),
    Chains (compareEntries one two) (compareEntries two three) (compareEntries one three)
  | [], [], _ => .sameFirst
  | [], _ :: _, [] => .ltGt
  | [], _ :: _, _ :: _ => .leftLt
  | _ :: _, [], [] => .leftGt
  | _ :: _, [], _ :: _ => .gtLt
  | _ :: _, _ :: _, [] => .rightGt
  | (oneKey, one) :: ones, (twoKey, two) :: twos, (threeKey, three) :: threes => by
      rw [compareEntries_cons, compareEntries_cons, compareEntries_cons]
      exact (Chains.ofTrans Ord.compare oneKey twoKey threeKey).andThen
        ((chains_compare one two three).andThen (chains_compareEntries ones twos threes))

end

private theorem compare_eq_iff_of_sameKind {left right : Value}
    (sameKind : left.kind = right.kind → (compare left right = .eq ↔ left = right)) :
    compare left right = .eq ↔ left = right := by
  by_cases same : left.kind = right.kind
  · exact sameKind same
  · refine iff_of_false (compare_ne_eq_of_kind_ne same) ?_
    rintro rfl
    exact same rfl

mutual

/-- Nothing but the same value compares equal: the same kind, the same bits and texts, the same
items, and the same entries in the same order. -/
theorem compare_eq_iff : ∀ left right : Value, compare left right = .eq ↔ left = right
  | .null, right => compare_eq_iff_of_sameKind fun same => by
      cases eq_null_of_kind same.symm
      exact iff_of_true rfl rfl
  | .bool flag, right => compare_eq_iff_of_sameKind fun same => by
      obtain ⟨other, rfl⟩ := eq_bool_of_kind same.symm
      rw [Value.bool.injEq]
      exact Std.compare_eq_iff_eq
  | .int number, right => compare_eq_iff_of_sameKind fun same => by
      obtain ⟨other, rfl⟩ := eq_int_of_kind same.symm
      rw [Value.int.injEq, ← Int64.toInt_inj]
      exact Std.compare_eq_iff_eq
  | .float number, right => compare_eq_iff_of_sameKind fun same => by
      obtain ⟨other, rfl⟩ := eq_float_of_kind same.symm
      rw [Value.float.injEq]
      exact (Std.LawfulEqCmp.compare_eq_iff_eq : Binary64.compare number other = .eq ↔ _)
  | .string text, right => compare_eq_iff_of_sameKind fun same => by
      obtain ⟨other, rfl⟩ := eq_string_of_kind same.symm
      rw [Value.string.injEq]
      exact Std.compare_eq_iff_eq
  | .record entries, right => compare_eq_iff_of_sameKind fun same => by
      obtain ⟨others, rfl⟩ := eq_record_of_kind same.symm
      rw [Value.record.injEq]
      exact compareEntries_eq_iff entries others
  | .sequence items, right => compare_eq_iff_of_sameKind fun same => by
      obtain ⟨others, rfl⟩ := eq_sequence_of_kind same.symm
      rw [Value.sequence.injEq]
      exact compareItems_eq_iff items others
  | .absent, right => compare_eq_iff_of_sameKind fun same => by
      rcases eq_optional_of_kind same.symm with rfl | ⟨other, rfl⟩
      · exact iff_of_true rfl rfl
      · exact iff_of_false Ordering.noConfusion Value.noConfusion
  | .present inner, right => compare_eq_iff_of_sameKind fun same => by
      rcases eq_optional_of_kind same.symm with rfl | ⟨other, rfl⟩
      · exact iff_of_false Ordering.noConfusion Value.noConfusion
      · rw [Value.present.injEq]
        exact compare_eq_iff inner other

theorem compareItems_eq_iff : ∀ lefts rights : List Value,
    compareItems lefts rights = .eq ↔ lefts = rights
  | [], [] => iff_of_true rfl rfl
  | [], _ :: _ => iff_of_false Ordering.noConfusion (List.cons_ne_nil _ _).symm
  | _ :: _, [] => iff_of_false Ordering.noConfusion (List.cons_ne_nil _ _)
  | left :: lefts, right :: rights => by
      rw [compareItems_cons, Ordering.then_eq_eq, compare_eq_iff left right,
        compareItems_eq_iff lefts rights, List.cons.injEq]

theorem compareEntries_eq_iff : ∀ lefts rights : List (String × Value),
    compareEntries lefts rights = .eq ↔ lefts = rights
  | [], [] => iff_of_true rfl rfl
  | [], _ :: _ => iff_of_false Ordering.noConfusion (List.cons_ne_nil _ _).symm
  | _ :: _, [] => iff_of_false Ordering.noConfusion (List.cons_ne_nil _ _)
  | (leftKey, left) :: lefts, (rightKey, right) :: rights => by
      rw [compareEntries_cons, Ordering.then_eq_eq, Ordering.then_eq_eq, Std.compare_eq_iff_eq,
        compare_eq_iff left right, compareEntries_eq_iff lefts rights, List.cons.injEq,
        Prod.mk.injEq, and_assoc]

end

/-! ### The order -/

instance : Std.LawfulEqCmp compare where
  compare_self := (compare_eq_iff _ _).mpr rfl
  eq_of_compare := (compare_eq_iff _ _).mp

instance : Std.TransCmp compare where
  eq_swap {left right} := by
    have chains := chains_compare left right left
    rw [(compare_eq_iff left left).mpr rfl] at chains
    exact chains.eq_swap
  isLE_trans := (chains_compare _ _ _).isLE

theorem isTotalOrder_compare : IsTotalOrder compare := isTotalOrder_of_lawful

end Value

end StagedResolver
