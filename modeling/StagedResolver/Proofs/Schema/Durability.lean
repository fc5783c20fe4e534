/-
Compiled schemas survive being stored.

Whatever a declaration of storable parts compiles to is storable: lowering counts parents and
maps, and shapes mention positions of declared objects.  So a compiled schema is loaded as it
was stored, its order included, unless some constant or fallback in it is not finite.
-/
import StagedResolver.Proofs.Expression.Lowered
import StagedResolver.Proofs.Expression.LoweringMeaning
import StagedResolver.Proofs.Schema.Compiled
import StagedResolver.Proofs.Schema.Storage

namespace StagedResolver

def Origin.Storable : Origin → Prop
  | .ancestor depth => depth < UInt32.size
  | _ => True

/-- Whether a draft, with so many bindings around it, is within the bounds that documents have
room for: positions of sixty-four bits, and depths and bindings of thirty-two. -/
def Draft.Storable (bindings : Nat) : Draft → Prop
  | .constant value => value.WellFormed
  | .read origin segments _ =>
      bindings ≤ UInt32.size ∧ origin.Storable ∧ segments.length < UInt32.size ∧
        ∀ segment ∈ segments, segment.Storable
  | .binary _ left right => left.Storable bindings ∧ right.Storable bindings
  | .unary _ operand => operand.Storable bindings
  | .map source _ transform => source.Storable bindings ∧ transform.Storable (bindings + 1)
  | .flatten source => source.Storable bindings
  | .debug _ source => source.Storable bindings

private theorem lt_length_of_bindingIndex? {name : BindingName} {scope : List BindingName}
    {index : Nat}
    (isIndex : bindingIndex? name scope = some index) : index < scope.length := by
  induction scope generalizing index with
  | nil => cases isIndex
  | cons inner outer ih =>
      rw [bindingIndex?] at isIndex
      split at isIndex
      · cases isIndex
        exact Nat.zero_lt_succ _
      · obtain ⟨before, isBefore, rfl⟩ := Option.map_eq_some_iff.mp isIndex
        exact Nat.succ_lt_succ (ih isBefore)

private theorem storable_of_slot {segments : List PathStep} {start : LookupRoot × List PathStep}
    (small : segments.length < UInt32.size) (storable : ∀ segment ∈ segments, segment.Storable)
    (lowered : slot segments 0 segments = .ok start) (expected : ValueType) :
    (Lookup.mk start.1 start.2 expected).Storable := by
  obtain ⟨name, rest, dropped, sameRest, slots⟩ := slot_eq_ok lowered
  constructor
  · have depth : 0 + (segments.takeWhile PathStep.isParent).length < UInt32.size := by
      have shorter := (List.takeWhile_prefix PathStep.isParent (l := segments)).length_le
      omega
    show start.1.Storable
    rcases slots with ⟨_, root⟩ | ⟨_, _, root⟩ | ⟨_, _, root⟩
    · rw [root]
      split
      · trivial
      · exact depth
    · rw [root]
      trivial
    · rw [root]
      trivial
  · intro segment member
    apply storable
    apply (List.dropWhile_suffix PathStep.isParent).subset
    rw [dropped]
    exact List.mem_cons_of_mem _ (sameRest ▸ member)

namespace Draft

variable {scope : List BindingName}

private theorem storable_of_lowerRead {origin : Origin} {segments : List PathStep}
    {expected : ValueType}
    {start : LookupRoot × List PathStep}
    (storable : (Draft.read origin segments expected).Storable scope.length)
    (lowered : lowerRead scope origin segments = .ok start) :
    (Lookup.mk start.1 start.2 expected).Storable := by
  obtain ⟨bindings, originStorable, small, segmentsStorable⟩ := storable
  cases origin with
  | named => exact storable_of_slot small segmentsStorable lowered expected
  | current =>
      cases lowered
      exact ⟨trivial, segmentsStorable⟩
  | ancestor depth =>
      cases lowered
      refine ⟨?_, segmentsStorable⟩
      show (if depth = 0 then LookupRoot.current else .ancestor depth).Storable
      split
      · trivial
      · exact originStorable
  | arguments =>
      cases lowered
      exact ⟨trivial, segmentsStorable⟩
  | environment =>
      cases lowered
      exact ⟨trivial, segmentsStorable⟩
  | binding name =>
      rw [lowerRead] at lowered
      split at lowered
      · rename_i index isIndex
        cases lowered
        have bound := lt_length_of_bindingIndex? isIndex
        exact ⟨Nat.lt_of_lt_of_le bound bindings, segmentsStorable⟩
      · cases lowered

/-- A storable draft has a storable lowered form. -/
theorem storable_of_lowerIn {draft : Draft} {expression : Expression}
    (storable : draft.Storable scope.length)
    (lowered : draft.lowerIn scope = .ok expression) : expression.Storable := by
  induction draft generalizing scope expression with
  | constant value =>
      cases lowered
      exact storable
  | read origin segments expected =>
      obtain ⟨start, isStart, rfl⟩ := lowerIn_read_eq_ok.mp lowered
      exact storable_of_lowerRead storable isStart
  | binary operator left right leftIh rightIh =>
      obtain ⟨first, isFirst, second, isSecond, rfl⟩ := lowerIn_binary_eq_ok.mp lowered
      exact ⟨leftIh storable.1 isFirst, rightIh storable.2 isSecond⟩
  | unary operator operand ih =>
      obtain ⟨inner, isInner, rfl⟩ := lowerIn_unary_eq_ok.mp lowered
      show inner.Storable
      exact ih storable isInner
  | map source name transform sourceIh transformIh =>
      obtain ⟨first, isFirst, second, isSecond, rfl⟩ := lowerIn_map_eq_ok.mp lowered
      have inside : transform.Storable (name :: scope).length := storable.2
      exact ⟨sourceIh storable.1 isFirst, transformIh inside isSecond⟩
  | flatten source ih =>
      obtain ⟨inner, isInner, rfl⟩ := lowerIn_flatten_eq_ok.mp lowered
      show inner.Storable
      exact ih storable isInner
  | debug label source ih =>
      obtain ⟨inner, isInner, rfl⟩ := lowerIn_debug_eq_ok.mp lowered
      show inner.Storable
      exact ih storable isInner

end Draft

/-! ### Declarations -/

def ArgumentDeclaration.Storable (argument : ArgumentDeclaration) : Prop :=
  ∀ value, argument.fallback = some value → value.WellFormed

def Provision.Storable : Provision → Prop
  | .passthrough => True
  | .constant value => value.WellFormed
  | .resolver draft _ => draft.Storable 0

structure FieldDeclaration.Storable (field : FieldDeclaration) : Prop where
  arguments : ∀ entry ∈ field.arguments.entries, entry.2.Storable
  provision : field.provision.Storable

/-- Whether the objects of a declaration can be numbered with thirty-two bits, and all else is
within the bounds that documents have room for. -/
structure SchemaDeclaration.Storable (declaration : SchemaDeclaration) : Prop where
  objects : declaration.objects.size ≤ UInt32.size
  fields : ∀ object ∈ declaration.objects.entries, ∀ field ∈ object.2.entries, field.2.Storable

private theorem ArgumentDeclaration.storable_of_compile {place : SchemaPlace}
    {argument : ArgumentDeclaration} {result : FieldArgument} (storable : argument.Storable)
    (compiled : argument.compile place = .ok result) : result.Storable := by
  rw [ArgumentDeclaration.compile, bind_eq_ok] at compiled
  obtain ⟨type, _, compiled⟩ := compiled
  split at compiled
  · cases compiled
    exact storable
  · cases compiled

private theorem Provision.storable_of_compile {place : SchemaPlace} {name : String}
    {type : TypeReference} {shape : Shape} {arguments : OrderedMap FieldArgument}
    {provision : Provision} {source : Source} (storable : provision.Storable)
    (compiled : provision.compile place name type shape arguments = .ok source) :
    source.Storable := by
  cases provision with
  | passthrough =>
      cases compiled
      trivial
  | constant value =>
      obtain ⟨_, _, same⟩ := bind_eq_ok.mp compiled
      cases same
      exact storable
  | resolver draft output =>
      obtain ⟨_, _, compiled⟩ := bind_eq_ok.mp compiled
      split at compiled
      · cases compiled
      · rename_i expression lowered
        obtain ⟨_, _, same⟩ := bind_eq_ok.mp compiled
        cases same
        have draftStorable : draft.Storable ([] : List BindingName).length := storable
        exact Draft.storable_of_lowerIn draftStorable lowered

namespace SchemaDeclaration

variable {declaration : SchemaDeclaration}

private theorem length_objects_of_compile {schema : Schema}
    (compiled : declaration.compile = .ok schema) :
    schema.objects.length = declaration.objects.size := by
  obtain ⟨_, objects⟩ := compile_eq_ok.mp compiled
  exact objects.length_eq.symm

/-- A storable declaration compiles to a storable schema. -/
theorem storable_of_compile {schema : Schema} (storable : declaration.Storable)
    (compiled : declaration.compile = .ok schema) : schema.Storable := by
  have small {id : ObjectIndex} (mentions : schema.Mentions id) : id < UInt32.size := by
    have inside := Schema.closed_of_compile compiled id mentions
    rw [length_objects_of_compile compiled] at inside
    exact Nat.lt_of_lt_of_le inside storable.objects
  refine ⟨small .query, ?_⟩
  intro object member entry fieldMember
  obtain ⟨declared, declaredMember, objectMade⟩ := exists_object_of_compile compiled member
  obtain ⟨declaredField, declaredFieldMember, made⟩ :=
    exists_field_of_objectType objectMade fieldMember
  have fieldStorable := storable.fields _ declaredMember _ declaredFieldMember
  obtain ⟨_, _, _, arguments, sourceIs⟩ := objectField_eq_ok.mp made
  constructor
  · intro argument argumentMember
    obtain ⟨_, declaredArgument, _, argumentMade⟩ :=
      exists_mem_of_forall₂ arguments argument argumentMember
    exact ArgumentDeclaration.storable_of_compile
      (fieldStorable.arguments _ declaredArgument) argumentMade
  · constructor
    · exact Provision.storable_of_compile fieldStorable.provision sourceIs
    · exact fun id ofObject => small (.shape member fieldMember ofObject)

/-- Without a limit on nesting, a compiled schema is loaded as it was stored exactly when it is
finite, where the numbers written in its text are read exactly. -/
theorem loadWithin?_store_of_compile {schema : Schema} (storable : declaration.Storable)
    (compiled : declaration.compile = .ok schema)
    (exact : ∀ number ∈ schema.toPortable.decimals, Json.IsExact number) :
    Schema.loadWithin? none schema.store = if schema.isFinite then some schema else none :=
  Schema.loadWithin?_store (storable_of_compile storable compiled) (Json.Room.unlimited _ _) exact

end SchemaDeclaration

def FieldDeclaration.ofConstant (number : Binary64) : FieldDeclaration :=
  ((FieldDeclaration.ofType "Float").argument "a" ⟨"Int", some (.int (-5))⟩).provide
    (.constant (.float number))

def SchemaDeclaration.ofConstant (number : Binary64) : SchemaDeclaration :=
  (SchemaDeclaration.ofQuery "Query").object "Query"
    (ObjectDeclaration.field .empty "f" (.ofConstant number))

def ObjectField.ofConstant (number : Binary64) : ObjectField :=
  ⟨"f", .named "Float" false, .ofEntries [("a", ⟨.named "Int" false, some (.int (-5))⟩)],
    ⟨.constant (.float number), .scalar .float false⟩⟩

def Schema.ofConstant (number : Binary64) : Schema :=
  ⟨0, [⟨"Query", .ofEntries [("f", .ofConstant number)]⟩]⟩

def Binary64.threeHalves : Binary64 := ⟨0x3FF8000000000000⟩

namespace SchemaDeclaration

private theorem storable_ofConstant (number : Binary64) : (ofConstant number).Storable where
  objects := by
    show 1 ≤ UInt32.size
    decide
  fields := by
    intro object member field fieldMember
    cases List.mem_singleton.mp member
    cases List.mem_singleton.mp fieldMember
    constructor
    · intro argument argumentMember value isFallback
      cases List.mem_singleton.mp argumentMember
      cases isFallback
      trivial
    · trivial

private theorem compile_ofConstant (number : Binary64) :
    (ofConstant number).compile = .ok (.ofConstant number) := by
  have float : TypeReference.parse? "Float" = some (.named "Float" false) := by decide +kernel
  have int : TypeReference.parse? "Int" = some (.named "Int" false) := by decide +kernel
  have argument (place : SchemaPlace) :
      ArgumentDeclaration.compile place ⟨"Int", some (.int (-5))⟩ =
        .ok ⟨.named "Int" false, some (.int (-5))⟩ :=
    bind_eq_ok.mpr ⟨_, readType_eq_ok.mpr int, rfl⟩
  have fits (place : SchemaPlace) (type : TypeReference) :
      fitConstant place type (.scalar .float false) (.float number) = .ok () := by
    rw [fitConstant]
    rfl
  have field : (ofConstant number).objectField "Query" "f" (.ofConstant number) =
      .ok (.ofConstant number) :=
    objectField_eq_ok.mpr ⟨rfl, readType_eq_ok.mpr float, rfl, .cons ⟨rfl, argument _⟩ .nil,
      bind_eq_ok.mpr ⟨(), fits _ _, rfl⟩⟩
  exact compile_eq_ok.mpr ⟨rfl, .cons (objectType_eq_ok.mpr ⟨rfl, .cons ⟨rfl, field⟩ .nil⟩) .nil⟩

private theorem isExact_threeHalves : Json.IsExact .threeHalves := by
  have text : Json.numberLayout.text .threeHalves = "1.5" := by decide +kernel
  have rounded : Decimal.round? false ⟨15, -1⟩ = some .threeHalves := by decide +kernel
  have read : Json.number? "1.5".toList = (Decimal.round? false ⟨15, -1⟩).map Json.decimal := rfl
  rw [Json.IsExact, text, read, rounded]
  rfl

theorem loadWithin?_store_ofConstant :
    (ofConstant .threeHalves).Storable ∧
      (ofConstant .threeHalves).compile = .ok (.ofConstant .threeHalves) ∧
      (∀ number ∈ (Schema.ofConstant .threeHalves).toPortable.decimals, Json.IsExact number) ∧
      Schema.loadWithin? none (Schema.ofConstant .threeHalves).store =
        some (.ofConstant .threeHalves) := by
  have decimals : (Schema.ofConstant .threeHalves).toPortable.decimals = [.threeHalves] := by
    decide +kernel
  have exact : ∀ number ∈ (Schema.ofConstant .threeHalves).toPortable.decimals,
      Json.IsExact number := by
    rw [decimals, List.forall_mem_singleton]
    exact isExact_threeHalves
  have finite : (Schema.ofConstant .threeHalves).isFinite = true := by decide +kernel
  have loaded := loadWithin?_store_of_compile (storable_ofConstant .threeHalves)
    (compile_ofConstant .threeHalves) exact
  rw [if_pos finite] at loaded
  exact ⟨storable_ofConstant .threeHalves, compile_ofConstant .threeHalves, exact, loaded⟩

/-- A constant that is no number compiles, but what is stored cannot be loaded. -/
theorem constants_unstored :
    ¬ ∀ (declaration : SchemaDeclaration) (schema : Schema), declaration.compile = .ok schema →
      Schema.loadWithin? none schema.store = some schema := by
  intro claimed
  have loaded := claimed (ofConstant .nan) (.ofConstant .nan) (compile_ofConstant .nan)
  have decimals : (Schema.ofConstant .nan).toPortable.decimals = [] := by decide +kernel
  have exact : ∀ number ∈ (Schema.ofConstant .nan).toPortable.decimals, Json.IsExact number := by
    rw [decimals]
    exact List.forall_mem_nil _
  have notFinite : ¬ (Schema.ofConstant .nan).isFinite = true := by decide +kernel
  have storable := storable_of_compile (storable_ofConstant .nan) (compile_ofConstant .nan)
  rw [Schema.loadWithin?_store storable (Json.Room.unlimited _ _) exact,
    if_neg notFinite] at loaded
  cases loaded

end SchemaDeclaration

end StagedResolver
