/-
Plans in the order that settings ask for.

Sorting by place is stable: fields of the same place stay in the order in which they
stood before.
-/
import Mathlib.Data.List.Nodup
import StagedResolver.Plan.Planning

namespace StagedResolver

section Pairs

variable {α : Type} {first second : α} {items : List α}

private theorem pair_sublist_or_swap (firstMember : first ∈ items) (secondMember : second ∈ items)
    (different : first ≠ second) :
    [first, second].Sublist items ∨ [second, first].Sublist items := by
  induction items with
  | nil => cases firstMember
  | cons item rest ih =>
      rcases List.mem_cons.mp firstMember with rfl | firstLater
      · have secondLater := (List.mem_cons.mp secondMember).resolve_left different.symm
        exact .inl ((List.singleton_sublist.mpr secondLater).cons_cons first)
      · rcases List.mem_cons.mp secondMember with rfl | secondLater
        · exact .inr ((List.singleton_sublist.mpr firstLater).cons_cons second)
        · rcases ih firstLater secondLater with kept | swapped
          · exact .inl (kept.cons item)
          · exact .inr (swapped.cons item)

private theorem not_pair_sublist_swap (distinct : items.Nodup)
    (ordered : [first, second].Sublist items) : ¬ [second, first].Sublist items := by
  intro swapped
  induction items with
  | nil => cases ordered
  | cons item rest ih =>
      obtain ⟨fresh, restDistinct⟩ := List.nodup_cons.mp distinct
      cases ordered with
      | cons _ ordered =>
          cases swapped with
          | cons _ swapped => exact ih restDistinct ordered swapped
          | cons_cons _ swapped => exact fresh (ordered.subset (by simp))
      | cons_cons _ ordered =>
          cases swapped with
          | cons _ swapped => exact fresh (swapped.subset (by simp))
          | cons_cons _ swapped => exact fresh (ordered.subset (by simp))

/-- In a sorted list, items of one rank stand in the order that they had before. -/
theorem pairwise_mergeSort_rank (rank : α → Nat) (distinct : items.Nodup) :
    (items.mergeSort fun left right => rank left ≤ rank right).Pairwise fun left right =>
      rank left < rank right ∨ rank left = rank right ∧ [left, right].Sublist items := by
  have trans (a b c : α) : decide (rank a ≤ rank b) = true → decide (rank b ≤ rank c) = true →
      decide (rank a ≤ rank c) = true := by
    simp only [decide_eq_true_eq]
    exact Nat.le_trans
  have total (a b : α) : (decide (rank a ≤ rank b) || decide (rank b ≤ rank a)) = true := by
    simp only [Bool.or_eq_true, decide_eq_true_eq]
    exact Nat.le_total _ _
  have perm := List.mergeSort_perm items fun left right => rank left ≤ rank right
  have sortedDistinct := perm.nodup_iff.mpr distinct
  rw [List.pairwise_iff_forall_sublist]
  intro left right ordered
  have le : rank left ≤ rank right := by
    have sorted := List.pairwise_mergeSort trans total items
    exact of_decide_eq_true (List.pairwise_iff_forall_sublist.mp sorted ordered)
  rcases Nat.lt_or_eq_of_le le with less | same
  · exact .inl less
  · refine .inr ⟨same, ?_⟩
    have leftMember := perm.mem_iff.mp (ordered.subset (List.mem_cons_self ..))
    have rightMember := perm.mem_iff.mp (ordered.subset (by simp : right ∈ [left, right]))
    have different : left ≠ right := by
      rintro rfl
      exact List.nodup_iff_sublist.mp sortedDistinct left ordered
    rcases pair_sublist_or_swap leftMember rightMember different with kept | swapped
    · exact kept
    · -- A stable sort would have kept them the other way round.
      have stillSwapped := List.pair_sublist_mergeSort trans total
        (decide_eq_true (Nat.le_of_eq same.symm)) swapped
      exact absurd stillSwapped (not_pair_sublist_swap sortedDistinct ordered)

end Pairs

def PlannedField.place? (object : ObjectType) : PlannedField → Option Nat
  | .typename _ _ => none
  | .leaf _ _ name _ => object.fields.position? name
  | .composite _ _ name _ _ _ => object.fields.position? name

namespace PlacedPlan

private theorem rank_lt_iff {left right : PlacedPlan} :
    left.rank < right.rank ↔ left.place < right.place := by
  cases leftIs : left.place with
  | none =>
      cases rightIs : right.place with
      | none => simp [rank, leftIs, rightIs]
      | some other => simp [rank, leftIs, rightIs]
  | some place =>
      cases rightIs : right.place with
      | none => simp [rank, leftIs, rightIs]
      | some other => simp [rank, leftIs, rightIs]

theorem rank_eq_iff {left right : PlacedPlan} :
    left.rank = right.rank ↔ left.place = right.place := by
  cases leftIs : left.place with
  | none =>
      cases rightIs : right.place with
      | none => simp [rank, leftIs, rightIs]
      | some other => simp [rank, leftIs, rightIs]
  | some place =>
      cases rightIs : right.place with
      | none => simp [rank, leftIs, rightIs]
      | some other => simp [rank, leftIs, rightIs]

/-- By declaration, fields stand by place, and those of one place as they were. -/
theorem pairwise_arrange {object : ObjectType} {placed : List PlacedPlan} {keys : List String}
    (places : ∀ one ∈ placed, one.place = one.plan.place? object)
    (keysAre : placed.map (fun one => one.plan.key) = keys) (distinct : keys.Nodup) :
    (arrange .schema placed).Pairwise fun earlier later =>
      earlier.place? object < later.place? object ∨
        earlier.place? object = later.place? object ∧
          [earlier.key, later.key].Sublist keys := by
  have placedDistinct : placed.Nodup := by
    rw [← keysAre] at distinct
    exact List.Nodup.of_map _ distinct
  rw [arrange, List.pairwise_map]
  refine (pairwise_mergeSort_rank rank placedDistinct).imp_of_mem ?_
  intro left right leftMember rightMember ordered
  rw [List.mem_mergeSort] at leftMember rightMember
  rw [← places left leftMember, ← places right rightMember, ← rank_lt_iff, ← rank_eq_iff]
  refine ordered.imp_right fun both => ⟨both.1, ?_⟩
  rw [← keysAre]
  exact both.2.map fun one => one.plan.key

end PlacedPlan

end StagedResolver
