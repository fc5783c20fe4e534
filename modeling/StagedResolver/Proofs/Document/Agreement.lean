/-
Values of a query that agree.

Agreement is an equivalence of the values that a query can hold.  It passes over the order of
the members of an object, which is counted and looked up from one side only: this suffices as
long as no object has two members of one name.  It is reflexive as long as no decimal is a NaN.
-/
import Mathlib.Data.List.Forall2
import Mathlib.Data.List.Perm.Subperm
import StagedResolver.Document.Literal
import StagedResolver.Entries

namespace StagedResolver

section SideBySide

variable {α : Type} {related : α → α → Prop} {items others more : List α}

private theorem forall₂_symm (alike : List.Forall₂ related items others)
    (symmetric : ∀ item ∈ items, ∀ other ∈ others, related item other → related other item) :
    List.Forall₂ related others items := by
  induction alike with
  | nil => exact .nil
  | cons isRelated _ ih =>
      simp only [List.forall_mem_cons] at symmetric
      refine .cons (symmetric.1.1 isRelated) (ih ?_)
      exact fun item member => (symmetric.2 item member).2

private theorem forall₂_trans (alike : List.Forall₂ related items others)
    (further : List.Forall₂ related others more)
    (transitive : ∀ item ∈ items, ∀ other ∈ others, ∀ last ∈ more,
      related item other → related other last → related item last) :
    List.Forall₂ related items more := by
  induction alike generalizing more with
  | nil =>
      cases further
      exact .nil
  | cons isRelated _ ih =>
      cases further with
      | cons alsoRelated alsoAlike =>
          simp only [List.forall_mem_cons] at transitive
          refine .cons (transitive.1.1.1 isRelated alsoRelated) (ih alsoAlike ?_)
          exact fun item member other among => ((transitive.2 item member).2 other among).2

end SideBySide

namespace Entries

variable {α : Type} {related : α → α → Prop} {first second third : Entries α}

/-- Whether each entry of either list has one of the same key and a related value in the
other. -/
def Correspond (related : α → α → Prop) (first second : Entries α) : Prop :=
  (∀ entry ∈ first, ∃ other ∈ second, other.1 = entry.1 ∧ related entry.2 other.2) ∧
    ∀ other ∈ second, ∃ entry ∈ first, other.1 = entry.1 ∧ related entry.2 other.2

instance [∀ held other, Decidable (related held other)] :
    Decidable (Correspond related first second) :=
  inferInstanceAs (Decidable (_ ∧ _))

theorem Correspond.refl (reflexive : ∀ entry ∈ first, related entry.2 entry.2) :
    Correspond related first first :=
  ⟨fun entry member => ⟨entry, member, rfl, reflexive entry member⟩,
    fun entry member => ⟨entry, member, rfl, reflexive entry member⟩⟩

theorem Correspond.symm (correspond : Correspond related first second)
    (symmetric : ∀ entry ∈ first, ∀ other ∈ second, related entry.2 other.2 →
      related other.2 entry.2) : Correspond related second first := by
  obtain ⟨forth, back⟩ := correspond
  constructor
  · intro other inSecond
    obtain ⟨entry, inFirst, sameKey, isRelated⟩ := back other inSecond
    exact ⟨entry, inFirst, sameKey.symm, symmetric entry inFirst other inSecond isRelated⟩
  · intro entry inFirst
    obtain ⟨other, inSecond, sameKey, isRelated⟩ := forth entry inFirst
    exact ⟨other, inSecond, sameKey.symm, symmetric entry inFirst other inSecond isRelated⟩

theorem Correspond.trans (correspond : Correspond related first second)
    (further : Correspond related second third)
    (transitive : ∀ entry ∈ first, ∀ other ∈ second, ∀ last ∈ third,
      related entry.2 other.2 → related other.2 last.2 → related entry.2 last.2) :
    Correspond related first third := by
  constructor
  · intro entry inFirst
    obtain ⟨other, inSecond, sameKey, isRelated⟩ := correspond.1 entry inFirst
    obtain ⟨last, inThird, lastKey, lastRelated⟩ := further.1 other inSecond
    exact ⟨last, inThird, lastKey.trans sameKey,
      transitive entry inFirst other inSecond last inThird isRelated lastRelated⟩
  · intro last inThird
    obtain ⟨other, inSecond, lastKey, lastRelated⟩ := further.2 last inThird
    obtain ⟨entry, inFirst, sameKey, isRelated⟩ := correspond.2 other inSecond
    exact ⟨entry, inFirst, lastKey.trans sameKey,
      transitive entry inFirst other inSecond last inThird isRelated lastRelated⟩

private theorem keys_subset
    (forth : ∀ entry ∈ first, ∃ other ∈ second, other.1 = entry.1 ∧ related entry.2 other.2) :
    first.keys ⊆ second.keys := by
  intro key known
  obtain ⟨entry, inFirst, rfl⟩ := List.mem_map.mp known
  obtain ⟨other, inSecond, sameKey, _⟩ := forth entry inFirst
  exact List.mem_map.mpr ⟨other, inSecond, sameKey⟩

/-- Without repeated keys it is enough to count the entries and to look up those of one list in
the other. -/
theorem correspond_iff (firstDistinct : DistinctKeys first) (secondDistinct : DistinctKeys second) :
    Correspond related first second ↔
      first.length = second.length ∧
        ∀ entry ∈ first, ∃ other, second.find? entry.1 = some other ∧ related entry.2 other := by
  constructor
  · rintro ⟨forth, back⟩
    constructor
    · have sameBack (other : String × α) (inSecond : other ∈ second) :
          ∃ entry ∈ first, entry.1 = other.1 ∧ related entry.2 other.2 := by
        obtain ⟨entry, inFirst, sameKey, isRelated⟩ := back other inSecond
        exact ⟨entry, inFirst, sameKey.symm, isRelated⟩
      have fewer := (List.subperm_of_subset firstDistinct (keys_subset forth)).length_le
      have subset := @keys_subset α (flip related) second first sameBack
      have more := (List.subperm_of_subset secondDistinct subset).length_le
      simp only [keys, List.length_map] at fewer more
      omega
    · intro entry inFirst
      obtain ⟨⟨key, other⟩, inSecond, rfl, isRelated⟩ := forth entry inFirst
      exact ⟨other, secondDistinct.find?_of_mem inSecond, isRelated⟩
  · rintro ⟨sameLength, finds⟩
    have forth (entry : String × α) (inFirst : entry ∈ first) :
        ∃ other ∈ second, other.1 = entry.1 ∧ related entry.2 other.2 := by
      obtain ⟨other, found, isRelated⟩ := finds entry inFirst
      exact ⟨(entry.1, other), mem_of_find? found, rfl, isRelated⟩
    refine ⟨forth, ?_⟩
    have sameKeys : first.keys.Perm second.keys := by
      apply (List.subperm_of_subset firstDistinct (keys_subset forth)).perm_of_length_le
      simp only [keys, List.length_map]
      omega
    intro other inSecond
    have known : other.1 ∈ first.keys :=
      sameKeys.mem_iff.mpr (List.mem_map.mpr ⟨other, inSecond, rfl⟩)
    obtain ⟨entry, inFirst, sameKey⟩ := List.mem_map.mp known
    obtain ⟨found, isFound, isRelated⟩ := finds entry inFirst
    rw [sameKey, secondDistinct.find?_of_mem inSecond] at isFound
    cases isFound
    exact ⟨entry, inFirst, sameKey.symm, isRelated⟩

end Entries

namespace Binary64

variable {first second third : Binary64}

private theorem numericallyEqual_iff : first.numericallyEqual second = true ↔
    first.isNaN = false ∧ second.isNaN = false ∧
      (first = second ∨ first.isZero = true ∧ second.isZero = true) := by
  simp [numericallyEqual, and_assoc]

private theorem numericallyEqual_symm (equal : first.numericallyEqual second = true) :
    second.numericallyEqual first = true := by
  rw [numericallyEqual_iff] at equal ⊢
  obtain ⟨firstIs, secondIs, same⟩ := equal
  exact ⟨secondIs, firstIs, same.imp Eq.symm And.symm⟩

private theorem numericallyEqual_trans (equal : first.numericallyEqual second = true)
    (further : second.numericallyEqual third = true) : first.numericallyEqual third = true := by
  rw [numericallyEqual_iff] at equal further ⊢
  obtain ⟨firstIs, _, same⟩ := equal
  obtain ⟨_, thirdIs, sameFurther⟩ := further
  refine ⟨firstIs, thirdIs, ?_⟩
  rcases same with rfl | ⟨firstZero, secondZero⟩
  · exact sameFurther
  · rcases sameFurther with rfl | ⟨_, thirdZero⟩
    · exact .inr ⟨firstZero, secondZero⟩
    · exact .inr ⟨firstZero, thirdZero⟩

end Binary64

/-! ### Values -/

namespace InputValue

def isPlain : InputValue → Bool
  | .decimal _ => false
  | .list _ => false
  | .object _ => false
  | _ => true

/-- Whether no object in a value has two members of one name, and no decimal is a NaN. -/
inductive WellFormed : InputValue → Prop where
  | plain {value : InputValue} (isPlain : value.isPlain = true) : WellFormed value
  | decimal {number : Binary64} (isNumber : number.isNaN = false) : WellFormed (.decimal number)
  | list {items : List InputValue} (each : ∀ item ∈ items, WellFormed item) :
      WellFormed (.list items)
  | object {members : List (String × InputValue)} (distinct : Entries.DistinctKeys members)
      (each : ∀ member ∈ members, WellFormed member.2) : WellFormed (.object members)

private theorem wellFormed_list {items : List InputValue} :
    (list items).WellFormed ↔ ∀ item ∈ items, item.WellFormed := by
  constructor
  · intro wellFormed
    cases wellFormed with
    | plain isPlain => cases isPlain
    | list each => exact each
  · exact WellFormed.list

private theorem wellFormed_object {members : List (String × InputValue)} :
    (object members).WellFormed ↔
      Entries.DistinctKeys members ∧ ∀ member ∈ members, member.2.WellFormed := by
  constructor
  · intro wellFormed
    cases wellFormed with
    | plain isPlain => cases isPlain
    | object distinct each => exact ⟨distinct, each⟩
  · rintro ⟨distinct, each⟩
    exact .object distinct each

def Agrees (first second : InputValue) : Prop := first.agrees second = true

instance (first second : InputValue) : Decidable (first.Agrees second) :=
  inferInstanceAs (Decidable (_ = _))

variable {value other first second third : InputValue}

private theorem agrees_plain (isPlain : value.isPlain = true) :
    value.Agrees other ↔ other = value := by
  unfold Agrees
  cases value <;> cases other <;> simp_all only [agrees, InputValue.isPlain, beq_iff_eq,
    reduceCtorEq, variable.injEq, boolean.injEq, integer.injEq, string.injEq,
    enumeration.injEq, Bool.false_eq_true] <;> exact eq_comm

private theorem agrees_decimal {number : Binary64} :
    (decimal number).Agrees other ↔
      ∃ found, other = .decimal found ∧ number.numericallyEqual found = true := by
  unfold Agrees
  cases other <;> simp [agrees]

private theorem agreesItems_iff {items others : List InputValue} :
    agreesItems items others = true ↔ List.Forall₂ Agrees items others := by
  induction items generalizing others with
  | nil => cases others <;> simp [agreesItems]
  | cons item rest ih => cases others <;> simp [agreesItems, Agrees, ih]

private theorem agrees_list {items : List InputValue} :
    (list items).Agrees other ↔
      ∃ others, other = .list others ∧ List.Forall₂ Agrees items others := by
  cases other with
  | list others =>
      have ofItems : (list items).Agrees (.list others) ↔ List.Forall₂ Agrees items others :=
        agreesItems_iff
      simp [ofItems]
  | _ => simp [Agrees, agrees]

private theorem agreesMembers_iff {members others : List (String × InputValue)} :
    agreesMembers members others = true ↔
      ∀ member ∈ members, ∃ other, Entries.find? member.1 others = some other ∧
        member.2.Agrees other := by
  induction members with
  | nil => simp [agreesMembers]
  | cons member rest ih =>
      obtain ⟨name, held⟩ := member
      rw [agreesMembers, Bool.and_eq_true, ih, List.forall_mem_cons]
      cases Entries.find? name others with
      | none => simp
      | some found => simp [Agrees]

/-- Objects without repeated names agree when their members do, in any order. -/
theorem agrees_object {members : List (String × InputValue)}
    (distinct : Entries.DistinctKeys members) (wellFormed : other.WellFormed) :
    (object members).Agrees other ↔
      ∃ others, other = .object others ∧ Entries.Correspond Agrees members others := by
  unfold Agrees
  cases wellFormed with
  | plain isPlain => cases other <;> simp_all [agrees, InputValue.isPlain]
  | decimal isNumber => simp [agrees]
  | list each => simp [agrees]
  | object otherDistinct each =>
      simp [agrees, agreesMembers_iff, Entries.correspond_iff distinct otherDistinct, Agrees]

theorem WellFormed.agrees_self (wellFormed : value.WellFormed) : value.Agrees value := by
  induction wellFormed with
  | plain isPlain => exact (agrees_plain isPlain).mpr rfl
  | decimal isNumber =>
      refine agrees_decimal.mpr ⟨_, rfl, ?_⟩
      exact Binary64.numericallyEqual_iff.mpr ⟨isNumber, isNumber, .inl rfl⟩
  | list each ih =>
      exact agrees_list.mpr ⟨_, rfl, List.forall₂_same.mpr ih⟩
  | object distinct each ih =>
      exact (agrees_object distinct (.object distinct each)).mpr ⟨_, rfl, .refl ih⟩

theorem Agrees.symm (firstFormed : first.WellFormed) (secondFormed : second.WellFormed)
    (agrees : first.Agrees second) : second.Agrees first := by
  induction firstFormed generalizing second with
  | plain isPlain =>
      cases (agrees_plain isPlain).mp agrees
      exact agrees
  | decimal isNumber =>
      obtain ⟨found, rfl, equal⟩ := agrees_decimal.mp agrees
      exact agrees_decimal.mpr ⟨_, rfl, Binary64.numericallyEqual_symm equal⟩
  | @list items each ih =>
      obtain ⟨others, rfl, agree⟩ := agrees_list.mp agrees
      have otherEach := wellFormed_list.mp secondFormed
      refine agrees_list.mpr ⟨_, rfl, forall₂_symm agree fun item inItems other inOthers => ?_⟩
      exact ih item inItems (otherEach other inOthers)
  | @object members distinct each ih =>
      obtain ⟨others, rfl, correspond⟩ := (agrees_object distinct secondFormed).mp agrees
      obtain ⟨otherDistinct, otherEach⟩ := wellFormed_object.mp secondFormed
      refine (agrees_object otherDistinct (.object distinct each)).mpr ⟨_, rfl, ?_⟩
      exact correspond.symm fun member inMembers other inOthers =>
        ih member inMembers (otherEach other inOthers)

theorem Agrees.trans (firstFormed : first.WellFormed) (secondFormed : second.WellFormed)
    (thirdFormed : third.WellFormed) (agrees : first.Agrees second)
    (further : second.Agrees third) : first.Agrees third := by
  induction firstFormed generalizing second third with
  | plain isPlain =>
      cases (agrees_plain isPlain).mp agrees
      exact further
  | decimal isNumber =>
      obtain ⟨found, rfl, equal⟩ := agrees_decimal.mp agrees
      obtain ⟨last, rfl, alsoEqual⟩ := agrees_decimal.mp further
      exact agrees_decimal.mpr ⟨last, rfl, Binary64.numericallyEqual_trans equal alsoEqual⟩
  | @list items each ih =>
      obtain ⟨others, rfl, agree⟩ := agrees_list.mp agrees
      obtain ⟨more, rfl, alsoAgree⟩ := agrees_list.mp further
      have otherEach := wellFormed_list.mp secondFormed
      have moreEach := wellFormed_list.mp thirdFormed
      refine agrees_list.mpr ⟨_, rfl, forall₂_trans agree alsoAgree ?_⟩
      intro item inItems other inOthers last inMore
      exact ih item inItems (otherEach other inOthers) (moreEach last inMore)
  | @object members distinct each ih =>
      obtain ⟨others, rfl, correspond⟩ := (agrees_object distinct secondFormed).mp agrees
      obtain ⟨otherDistinct, otherEach⟩ := wellFormed_object.mp secondFormed
      obtain ⟨more, rfl, alsoCorrespond⟩ := (agrees_object otherDistinct thirdFormed).mp further
      obtain ⟨_, moreEach⟩ := wellFormed_object.mp thirdFormed
      refine (agrees_object distinct thirdFormed).mpr ⟨_, rfl, correspond.trans alsoCorrespond ?_⟩
      intro member inMembers other inOthers last inMore
      exact ih member inMembers (otherEach other inOthers) (moreEach last inMore)

end InputValue

end StagedResolver
