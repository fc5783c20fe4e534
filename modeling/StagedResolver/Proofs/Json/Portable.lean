/-
What the parts of portable documents are read as, and which integers they hold.
-/
import StagedResolver.Json.Portable
import StagedResolver.Proofs.Json.Scanning

namespace StagedResolver.Json

section Scalars

variable {holds : Json → Prop}

@[simp] theorem allScalars_string (text : String) : AllScalars holds (.string text) :=
  List.forall_mem_nil _

@[simp] theorem allScalars_null : AllScalars holds .null ↔ holds .null :=
  List.forall_mem_singleton

@[simp] theorem allScalars_bool {flag : Bool} :
    AllScalars holds (.bool flag) ↔ holds (.bool flag) :=
  List.forall_mem_singleton

@[simp] theorem allScalars_integer {number : Int} :
    AllScalars holds (.integer number) ↔ holds (.integer number) :=
  List.forall_mem_singleton

@[simp] theorem allScalars_decimal {number : Binary64} :
    AllScalars holds (.decimal number) ↔ holds (.decimal number) :=
  List.forall_mem_singleton

@[simp] theorem allScalars_array {items : List Json} :
    AllScalars holds (.array items) ↔ ∀ item ∈ items, AllScalars holds item := by
  show (∀ leaf ∈ scalarsOfItems items, holds leaf) ↔ _
  induction items with
  | nil => exact iff_of_true (List.forall_mem_nil _) (List.forall_mem_nil _)
  | cons item rest ih =>
      rw [scalarsOfItems, List.forall_mem_append, List.forall_mem_cons, ih]
      rfl

@[simp] theorem allScalars_object {members : List (String × Json)} :
    AllScalars holds (.object members) ↔ ∀ member ∈ members, AllScalars holds member.2 := by
  show (∀ leaf ∈ scalarsOfMembers members, holds leaf) ↔ _
  induction members with
  | nil => exact iff_of_true (List.forall_mem_nil _) (List.forall_mem_nil _)
  | cons member rest ih =>
      rw [scalarsOfMembers, List.forall_mem_append, List.forall_mem_cons, ih]
      rfl

@[simp] theorem allScalars_tagged {name : String} {body : Json} :
    AllScalars holds (.tagged name body) ↔ AllScalars holds body := by
  rw [tagged, allScalars_object]
  exact List.forall_mem_singleton

end Scalars

/-- Whether a document is a literal, or a number that fits sixty-four bits. -/
def IsNarrow : Json → Prop
  | .integer number => InWidth number
  | .null => True
  | .bool _ => True
  | .decimal _ => True
  | _ => False

theorem isNarrow_natCast {number : Nat} (small : number < UInt64.size) :
    IsNarrow (.integer number) := by
  unfold UInt64.size at small
  constructor
  · omega
  · omega

theorem isNarrow_of_lt_uint32Size {number : Nat} (small : number < UInt32.size) :
    IsNarrow (.integer number) := by
  apply isNarrow_natCast
  unfold UInt32.size at small
  unfold UInt64.size
  omega

/-- Literals and narrow integers are legible, so that only decimals may be not. -/
theorem legible_of_isNarrow {leaf : Json} (narrow : IsNarrow leaf)
    (exact : ∀ number, leaf = .decimal number → IsExact number) : Legible leaf := by
  cases leaf with
  | null => exact .null
  | bool flag => exact .bool flag
  | integer number => exact .integer narrow
  | decimal number => exact .decimal (exact number rfl)
  | string text => cases narrow
  | array items => cases narrow
  | object members => cases narrow

theorem natBelow?_natCast {number bound : Nat} (below : number < bound) :
    natBelow? bound (.integer number) = some number := by
  have inBounds : (0 : Int) ≤ number ∧ (number : Int) < bound := by omega
  simp only [natBelow?, inBounds, and_self, if_true, Int.toNat_natCast]

section Kept

variable {α β : Type} {kept : Bool} {found : α}

theorem bind_kept {next : α → Option β} :
    ((if kept then some found else none) >>= next) = if kept then next found else none := by
  cases kept with
  | false => rfl
  | true => rfl

/-- Where each of some items is read back exactly when it is kept, all of them are exactly when
all are kept. -/
theorem mapM_map_of_each {write : α → β} {read : β → Option α} {keeps : α → Bool}
    {items : List α}
    (each : ∀ item ∈ items, read (write item) = if keeps item then some item else none) :
    (items.map write).mapM read = if items.all keeps then some items else none := by
  induction items with
  | nil => rfl
  | cons item rest ih =>
      obtain ⟨first, others⟩ := List.forall_mem_cons.mp each
      rw [List.map_cons, List.mapM_cons, first, ih others, bind_kept, bind_kept, List.all_cons]
      simp only [Bool.and_eq_true, ite_and]
      rfl

end Kept

end StagedResolver.Json
