/-
Lowered expressions are read back from their portable documents.

A document has room for positions of sixty-four bits and for depths and elements of
thirty-two.  Of an expression within these bounds everything is read back, up to the constants
that are not finite.
-/
import StagedResolver.Expression.Portable
import StagedResolver.Proofs.Value.Storage

namespace StagedResolver

theorem BinaryOperator.ofPortable?_toPortable (operator : BinaryOperator) :
    ofPortable? operator.toPortable = some operator := by
  cases operator <;> rfl

theorem UnaryOperator.ofPortable?_toPortable (operator : UnaryOperator) :
    ofPortable? operator.toPortable = some operator := by
  cases operator <;> rfl

def PathStep.Storable : PathStep → Prop
  | .key _ => True
  | .index position => position < UInt64.size

def LookupRoot.Storable : LookupRoot → Prop
  | .ancestor depth => depth < UInt32.size
  | .element index => index < UInt32.size
  | _ => True

structure Lookup.Storable (lookup : Lookup) : Prop where
  root : lookup.root.Storable
  segments : ∀ segment ∈ lookup.segments, segment.Storable

theorem PathStep.ofPortable?_toPortable {segment : PathStep} (storable : segment.Storable) :
    ofPortable? segment.toPortable = some segment := by
  cases segment with
  | key name => rfl
  | index position =>
      show (Json.natBelow? UInt64.size (.integer position)).map PathStep.index = _
      rw [Json.natBelow?_natCast storable]
      rfl

theorem PathStep.isNarrow_toPortable {segment : PathStep} (storable : segment.Storable) :
    segment.toPortable.AllScalars Json.IsNarrow := by
  cases segment with
  | key name => exact Json.allScalars_tagged.mpr (Json.allScalars_string name)
  | index position =>
      rw [toPortable, Json.allScalars_tagged, Json.allScalars_integer]
      exact Json.isNarrow_natCast storable

theorem LookupRoot.ofPortable?_toPortable {root : LookupRoot} (storable : root.Storable) :
    ofPortable? root.toPortable = some root := by
  cases root with
  | ancestor depth =>
      show (Json.natBelow? UInt32.size (.integer depth)).map LookupRoot.ancestor = _
      rw [Json.natBelow?_natCast storable]
      rfl
  | element index =>
      show (Json.natBelow? UInt32.size (.integer index)).map LookupRoot.element = _
      rw [Json.natBelow?_natCast storable]
      rfl
  | _ => rfl

theorem LookupRoot.isNarrow_toPortable {root : LookupRoot} (storable : root.Storable) :
    root.toPortable.AllScalars Json.IsNarrow := by
  cases root with
  | ancestor depth =>
      rw [toPortable, Json.allScalars_tagged, Json.allScalars_integer]
      exact Json.isNarrow_of_lt_uint32Size storable
  | element index =>
      rw [toPortable, Json.allScalars_tagged, Json.allScalars_integer]
      exact Json.isNarrow_of_lt_uint32Size storable
  | _ => exact Json.allScalars_string _

namespace Lookup

variable {lookup : Lookup}

theorem ofPortable?_toPortable (storable : lookup.Storable) :
    ofPortable? lookup.toPortable = some lookup := by
  have segments : (lookup.segments.map PathStep.toPortable).mapM PathStep.ofPortable? =
      some lookup.segments := by
    have each : ∀ segment ∈ lookup.segments, PathStep.ofPortable? segment.toPortable =
        if true then some segment else none :=
      fun segment member => PathStep.ofPortable?_toPortable (storable.segments segment member)
    rw [Json.mapM_map_of_each each]
    exact if_pos (List.all_eq_true.mpr fun _ _ => rfl)
  show (do
    let root ← LookupRoot.ofPortable? lookup.root.toPortable
    let segments ← (lookup.segments.map PathStep.toPortable).mapM PathStep.ofPortable?
    let expected ← ValueType.ofPortable? lookup.expected.toPortable
    return (⟨root, segments, expected⟩ : Lookup)) = some lookup
  rw [LookupRoot.ofPortable?_toPortable storable.root, segments,
    ValueType.ofPortable?_toPortable]
  rfl

theorem isNarrow_toPortable (storable : lookup.Storable) :
    lookup.toPortable.AllScalars Json.IsNarrow := by
  have segments : ∀ document ∈ lookup.segments.map PathStep.toPortable,
      document.AllScalars Json.IsNarrow := by
    intro document member
    obtain ⟨segment, segmentMember, rfl⟩ := List.mem_map.mp member
    exact PathStep.isNarrow_toPortable (storable.segments segment segmentMember)
  simp only [toPortable, Json.allScalars_object, List.forall_mem_cons, Json.allScalars_array]
  exact ⟨LookupRoot.isNarrow_toPortable storable.root, segments,
    lookup.expected.isNarrow_toPortable, List.forall_mem_nil _⟩

end Lookup

/-! ### Expressions -/

namespace Expression

/-- Whether every lookup is storable and no record of a constant holds a key twice. -/
def Storable : Expression → Prop
  | .constant value => value.WellFormed
  | .read lookup => lookup.Storable
  | .binary _ left right => Storable left ∧ Storable right
  | .unary _ operand => Storable operand
  | .map source transform => Storable source ∧ Storable transform
  | .flatten source => Storable source
  | .debug _ source => Storable source

def isFinite : Expression → Bool
  | .constant value => value.isFinite
  | .read _ => true
  | .binary _ left right => isFinite left && isFinite right
  | .unary _ operand => isFinite operand
  | .map source transform => isFinite source && isFinite transform
  | .flatten source => isFinite source
  | .debug _ source => isFinite source

theorem ofPortable?_toPortable {expression : Expression} (storable : expression.Storable) :
    ofPortable? expression.toPortable =
      if expression.isFinite then some expression else none := by
  induction expression with
  | constant value =>
      show (Value.ofPortable? value.toPortable).map Expression.constant = _
      rw [Value.ofPortable?_toPortable value storable, Option.map_if, isFinite]
  | read lookup =>
      show (Lookup.ofPortable? lookup.toPortable).map Expression.read = _
      rw [Lookup.ofPortable?_toPortable storable]
      rfl
  | binary operator left right leftIh rightIh =>
      show (do
        let operator ← BinaryOperator.ofPortable? operator.toPortable
        let left ← ofPortable? left.toPortable
        let right ← ofPortable? right.toPortable
        return Expression.binary operator left right) = _
      rw [BinaryOperator.ofPortable?_toPortable, leftIh storable.1, rightIh storable.2, isFinite]
      simp only [Json.bind_kept, Bool.and_eq_true, ite_and]
      rfl
  | unary operator operand ih =>
      show (do
        let operator ← UnaryOperator.ofPortable? operator.toPortable
        let operand ← ofPortable? operand.toPortable
        return Expression.unary operator operand) = _
      rw [UnaryOperator.ofPortable?_toPortable, ih storable, isFinite]
      simp only [Json.bind_kept]
      rfl
  | map source transform sourceIh transformIh =>
      show (do
        let source ← ofPortable? source.toPortable
        let transform ← ofPortable? transform.toPortable
        return Expression.map source transform) = _
      rw [sourceIh storable.1, transformIh storable.2, isFinite]
      simp only [Json.bind_kept, Bool.and_eq_true, ite_and]
      rfl
  | flatten source ih =>
      show (ofPortable? source.toPortable).map Expression.flatten = _
      rw [ih storable, Option.map_if, isFinite]
  | debug label source ih =>
      show (do
        let source ← ofPortable? source.toPortable
        return Expression.debug label source) = _
      rw [ih storable, Json.bind_kept, isFinite]
      rfl

theorem isNarrow_toPortable {expression : Expression} (storable : expression.Storable) :
    expression.toPortable.AllScalars Json.IsNarrow := by
  induction expression with
  | constant value => exact Json.allScalars_tagged.mpr value.isNarrow_toPortable
  | read lookup => exact Json.allScalars_tagged.mpr (Lookup.isNarrow_toPortable storable)
  | binary operator left right leftIh rightIh =>
      rw [toPortable, Json.allScalars_tagged, Json.allScalars_object]
      simp only [List.forall_mem_cons]
      exact ⟨Json.allScalars_string _, leftIh storable.1, rightIh storable.2,
        List.forall_mem_nil _⟩
  | unary operator operand ih =>
      rw [toPortable, Json.allScalars_tagged, Json.allScalars_object]
      simp only [List.forall_mem_cons]
      exact ⟨Json.allScalars_string _, ih storable, List.forall_mem_nil _⟩
  | map source transform sourceIh transformIh =>
      rw [toPortable, Json.allScalars_tagged, Json.allScalars_object]
      simp only [List.forall_mem_cons]
      exact ⟨sourceIh storable.1, transformIh storable.2, List.forall_mem_nil _⟩
  | flatten source ih => exact Json.allScalars_tagged.mpr (ih storable)
  | debug label source ih =>
      rw [toPortable, Json.allScalars_tagged, Json.allScalars_object]
      simp only [List.forall_mem_cons]
      exact ⟨Json.allScalars_string label, ih storable, List.forall_mem_nil _⟩

end Expression

end StagedResolver
