/-
Operators of typed terms take their operands.

A typed term whose operands keep their types never applies an operator to values
of the wrong kind.  The induction follows the typing rules and carries, for every
accuracy at which a term keeps its type, that its values are of that type.  No
more is known of the elements of a map than of what a context holds: they are
read through lookups, which check them.
-/
import StagedResolver.Proofs.Evaluation.Holding
import StagedResolver.Proofs.Expression.Lowered

namespace StagedResolver

namespace Term

variable {types : List ValueType} {term : Term} {type : ValueType}
variable {scope : List BindingName} {expression : Expression}

/-- Whether all values that an evaluation ends with are of the term's static type,
at every accuracy at which the term keeps it. -/
def Gives (types : List ValueType) (term : Term) (type : ValueType) (value : Value) :
    Prop :=
  ∀ accuracy, term.keepsType (types.map ElementType.ofType) accuracy = true →
    type.Holds accuracy value

private theorem Typed.draftIn_of_isPath (typed : Typed types term type)
    (path : term.isPath = true) :
    ∃ origin segments,
      term.draftIn (types.map ElementType.ofType) = .read origin segments type := by
  induction typed with
  | read slot segments known => exact ⟨_, _, rfl⟩
  | element index bound =>
      simp only [draftIn, List.getElem?_map, bound, Option.map_some]
      exact ⟨_, _, rfl⟩
  | step segment sourcePath source_typed known ih =>
      obtain ⟨origin, segments, drafted⟩ := ih sourcePath
      simp only [draftIn, drafted, Draft.enter]
      exact ⟨_, _, rfl⟩
  | _ => cases path

private theorem Typed.keepsType_of_isPath (typed : Typed types term type)
    (path : term.isPath = true) (accuracy : Accuracy) :
    term.keepsType (types.map ElementType.ofType) accuracy = type.readAt accuracy := by
  cases typed with
  | read slot segments known => simp only [keepsType]
  | element index bound =>
      simp only [keepsType, (Typed.element index bound).typeIn_eq]
  | step segment sourcePath source_typed known => simp only [keepsType]
  | _ => cases path

private theorem Typed.yields_of_isPath (typed : Typed types term type)
    (known : type.isKnown = true) (path : term.isPath = true)
    (lowers : (term.draftIn (types.map ElementType.ofType)).lowerIn scope = .ok expression)
    (context : Context) (elements : List Value) :
    (expression.run context elements).Yields false (term.Gives types type) := by
  obtain ⟨origin, segments, drafted⟩ := typed.draftIn_of_isPath path
  rw [drafted] at lowers
  obtain ⟨start, _, rfl⟩ := Draft.lowerIn_read_eq_ok.mp lowers
  have resolved : (Evaluation.ofExcept
      (Lookup.resolve ⟨start.1, start.2, type⟩ context elements)).Yields false
        (term.Gives types type) := by
    apply Evaluation.Yields.ofExcept
    · intro value found accuracy keeps
      obtain ⟨held, _, checked⟩ := bind_eq_ok.mp found
      rw [typed.keepsType_of_isPath path] at keeps
      exact Lookup.holds_of_check known keeps checked
    · intro error fails
      exact Lookup.isOperandFault_of_resolve_eq_error fails
  exact resolved

/-- What a map makes of a value whose elements it gives a property: a sequence of a
sequence, nothing of what is absent, and something present of what is present. -/
structure MapsTo (element : Value → Prop) (value result : Value) : Prop where
  sequence : value.kind = .sequence → ∃ results, result = .sequence results
  absent : value = .absent → result = .absent
  present : ∀ content, value = .present content →
    ∃ inner, result = .present inner ∧ element inner

private theorem mapContent_yields {transform : Value → Evaluation Value} {element : Value → Prop}
    (each : ∀ item, (transform item).Yields false element) (value : Value) :
    (value.mapContent transform).Yields false (MapsTo element value) := by
  cases value with
  | sequence items =>
      have all : (Evaluation.forEach transform items).Yields false fun _ => True :=
        .forEach (fun item => (each item).mono id fun _ _ => trivial) items
      exact all.andThen fun results _ => .ok ⟨fun _ => ⟨results, rfl⟩, nofun, nofun⟩
  | absent => exact .ok ⟨nofun, fun _ => rfl, nofun⟩
  | present inner =>
      refine (each inner).andThen fun result holds => .ok ⟨nofun, nofun, ?_⟩
      intro content contentIs
      exact ⟨result, rfl, holds⟩
  | _ => exact (each _).mono id fun result _ => ⟨nofun, nofun, nofun⟩

private theorem yields_map {source body : Expression} {abandons bodyAbandons : Bool}
    {sourceHolds bodyHolds holds : Value → Prop} {context : Context} {elements : List Value}
    (sourceYields : (source.run context elements).Yields abandons sourceHolds)
    (bodyYields : ∀ held, (body.run context (held :: elements)).Yields bodyAbandons bodyHolds)
    (mapped : ∀ value result, sourceHolds value →
      MapsTo (fun inner => bodyHolds inner ∨ bodyAbandons = true ∧ inner = .absent)
        value result → holds result) :
    ((Expression.map source body).run context elements).Yields abandons holds := by
  have each := fun held => (bodyYields held).orAbsent
  have yields := sourceYields.andThen fun value valueHolds =>
    (mapContent_yields each value).mono id fun result mapsTo =>
      mapped value result valueHolds mapsTo
  rw [Bool.or_false] at yields
  exact yields

private theorem unwrap_yields (inner : ValueType) (value : Value) :
    value.unwrap.Yields true fun result =>
      ∀ accuracy, accuracy ≠ .outer → inner.optional.Holds accuracy value →
        inner.Holds accuracy result := by
  cases value with
  | absent => exact .abandoned [] rfl
  | present held =>
      refine .ok fun accuracy inside holds => ?_
      rcases holds with isAbsent | ⟨content, isPresent, fits⟩
      · cases isAbsent
      · cases isPresent
        exact fits.resolve_left inside
  | _ =>
      refine .ok fun accuracy inside holds => ?_
      rcases holds with isAbsent | ⟨content, isPresent, _⟩
      · cases isAbsent
      · cases isPresent

private theorem Typed.gives_mapSome {source body : Term} {inner : ValueType}
    (source_typed : Typed types source inner.optional)
    (body_typed : Typed (inner :: types) body type) (known : type.isKnown = true)
    {value result : Value} (sourceGives : source.Gives types inner.optional value)
    (mapsTo : MapsTo (fun held => body.Gives (inner :: types) type held ∨
      body.mayAbandon = true ∧ held = .absent) value result) :
    (Term.mapSome source body).Gives types type.optional result := by
  intro accuracy keeps
  have bodyType : body.typeIn (ElementType.ofType inner :: types.map ElementType.ofType) =
      type := body_typed.typeIn_eq
  simp only [keepsType, source_typed.typeIn_eq, ValueType.content, bodyType,
    Bool.and_eq_true, Bool.or_eq_true, decide_eq_true_eq, Bool.not_eq_true'] at keeps
  obtain ⟨sourceKeeps, inside⟩ := keeps
  rcases sourceGives .outer sourceKeeps with isAbsent | ⟨content, isPresent, _⟩
  · exact .inl (mapsTo.absent isAbsent)
  · obtain ⟨held, resultIs, given⟩ := mapsTo.present content isPresent
    refine .inr ⟨held, resultIs, ?_⟩
    rcases inside with isOuter | ⟨bodyKeeps, optional | noAbandon⟩
    · exact .inl isOuter
    · right
      rcases given with bodyGives | ⟨_, heldAbsent⟩
      · exact bodyGives accuracy bodyKeeps
      · cases type with
        | any => cases known
        | optional content => exact .inl heldAbsent
        | _ => cases optional
    · right
      rcases given with bodyGives | ⟨abandons, _⟩
      · exact bodyGives accuracy bodyKeeps
      · rw [noAbandon] at abandons
        cases abandons

private theorem gives_flatten {source : Term} {value result : Value}
    (sourceGives : source.Gives types type.optional value)
    (unwrapped : ∀ accuracy, accuracy ≠ .outer → type.optional.Holds accuracy value →
      type.Holds accuracy result) :
    (flatten source).Gives types type result := by
  intro accuracy keeps
  cases accuracy with
  | outer => exact (unwrapped .layered nofun (sourceGives .layered keeps)).outer
  | layered => exact unwrapped .layered nofun (sourceGives .layered keeps)
  | bare => exact unwrapped .bare nofun (sourceGives .bare keeps)

private theorem gives_mapEach {source body : Term} {item image : ValueType}
    {element : Value → Prop} {value result : Value}
    (sourceGives : source.Gives types item.sequence value)
    (mapsTo : MapsTo element value result) :
    (mapEach source body).Gives types image.sequence result := by
  intro accuracy keeps
  simp only [keepsType] at keeps
  have bare := sourceGives .bare keeps
  obtain ⟨results, rfl⟩ := mapsTo.sequence (bare .sequence rfl)
  exact ValueType.holds_of_kind accuracy rfl rfl rfl

private theorem yields_unary {operator : UnaryOperator} {operand : Term} {lowered : Expression}
    {operandType : ValueType} {context : Context} {elements : List Value}
    (operandYields : (lowered.run context elements).Yields operand.mayAbandon
      (operand.Gives types operandType))
    (keeps : (unary operator operand).operandsKeepType (types.map ElementType.ofType) = true)
    (computes : ∀ value, operandType.Holds .layered value →
      type.Computes (operator.apply value)) :
    ((Expression.unary operator lowered).run context elements).Yields
      (unary operator operand).mayAbandon ((unary operator operand).Gives types type) := by
  simp only [operandsKeepType, Bool.and_eq_true] at keeps
  have computed := operandYields.andThen fun value operandGives =>
    (computes value (operandGives .layered keeps.2)).mono id fun _ holds =>
      (fun accuracy _ => holds accuracy : (unary operator operand).Gives types type _)
  rw [Bool.or_false] at computed
  exact computed

section Binary

variable {operator : BinaryOperator} {left right : Term} {first second : Expression}
variable {operandType : ValueType} {context : Context} {elements : List Value}

private theorem yields_binary
    (leftYields : (first.run context elements).Yields left.mayAbandon
      (left.Gives types operandType))
    (rightYields : (second.run context elements).Yields right.mayAbandon
      (right.Gives types operandType))
    (computes : ∀ value other, left.Gives types operandType value →
      right.Gives types operandType other → type.Computes (operator.apply value other)) :
    ((Expression.binary operator first second).run context elements).Yields
      (binary operator left right).mayAbandon
      ((binary operator left right).Gives types type) := by
  have computed := leftYields.andThen fun value leftGives =>
    rightYields.andThen fun other rightGives =>
      (computes value other leftGives rightGives).mono id fun _ holds =>
        (fun accuracy _ => holds accuracy :
          (binary operator left right).Gives types type _)
  rw [Bool.or_false] at computed
  exact computed

private theorem yields_binary_of_layered
    (leftYields : (first.run context elements).Yields left.mayAbandon
      (left.Gives types operandType))
    (rightYields : (second.run context elements).Yields right.mayAbandon
      (right.Gives types operandType))
    (keeps : (binary operator left right).operandsKeepType
      (types.map ElementType.ofType) = true)
    (noEquality : operator.equates = false)
    (computes : ∀ value other, operandType.Holds .layered value →
      operandType.Holds .layered other → type.Computes (operator.apply value other)) :
    ((Expression.binary operator first second).run context elements).Yields
      (binary operator left right).mayAbandon
      ((binary operator left right).Gives types type) := by
  simp only [operandsKeepType, noEquality, Bool.false_or, Bool.and_eq_true] at keeps
  obtain ⟨_, leftKeeps, rightKeeps⟩ := keeps
  apply yields_binary leftYields rightYields
  intro value other leftGives rightGives
  exact computes value other (leftGives .layered leftKeeps) (rightGives .layered rightKeeps)

end Binary

private theorem operandsKeepType_of_binary {elements : List ElementType}
    {operator : BinaryOperator} {left right : Term}
    (keeps : (binary operator left right).operandsKeepType elements = true) :
    left.operandsKeepType elements = true ∧ right.operandsKeepType elements = true := by
  simp only [operandsKeepType, Bool.and_eq_true] at keeps
  exact keeps.1

/-! ### The induction -/

theorem Typed.yields (typed : Typed types term type)
    (known : ∀ bound ∈ types, bound.isKnown = true)
    (lowers : (term.draftIn (types.map ElementType.ofType)).lowerIn scope = .ok expression)
    (keeps : term.operandsKeepType (types.map ElementType.ofType) = true)
    (context : Context) (elements : List Value) :
    (expression.run context elements).Yields term.mayAbandon (term.Gives types type) := by
  -- The elements are any values at all, of whatever type their map has them.
  induction typed generalizing scope expression elements with
  | constant native data dataKnown =>
      cases lowers
      exact .ok fun accuracy _ => native.holds_toValue accuracy data
  | read slot segments typeKnown =>
      exact (Typed.read slot segments typeKnown).yields_of_isPath typeKnown rfl lowers
        context elements
  | element index bound =>
      have typed := Typed.element index bound
      exact typed.yields_of_isPath (typed.isKnown known) rfl lowers context elements
  | step segment path source_typed typeKnown ih =>
      have typed := Typed.step segment path source_typed typeKnown
      exact typed.yields_of_isPath typeKnown path lowers context elements
  | @mapEach types source body item type source_typed body_typed ihSource ihBody =>
      simp only [draftIn, source_typed.typeIn_eq, ValueType.content] at lowers
      obtain ⟨first, sourceLowers, second, bodyLowers, rfl⟩ :=
        Draft.lowerIn_map_eq_ok.mp lowers
      simp only [operandsKeepType, source_typed.typeIn_eq, ValueType.content,
        Bool.and_eq_true] at keeps
      have itemKnown : item.isKnown = true := source_typed.isKnown known
      apply yields_map (ihSource known sourceLowers keeps.1 elements)
      · intro held
        exact ihBody (List.forall_mem_cons.mpr ⟨itemKnown, known⟩) bodyLowers keeps.2
          (held :: elements)
      · intro value result sourceGives mapsTo
        exact gives_mapEach sourceGives mapsTo
  | @mapSome types source body inner type source_typed body_typed ihSource ihBody =>
      simp only [draftIn, source_typed.typeIn_eq, ValueType.content] at lowers
      obtain ⟨first, sourceLowers, second, bodyLowers, rfl⟩ :=
        Draft.lowerIn_map_eq_ok.mp lowers
      simp only [operandsKeepType, source_typed.typeIn_eq, ValueType.content,
        Bool.and_eq_true] at keeps
      have innerKnown : inner.isKnown = true := source_typed.isKnown known
      have bodyKnown : ∀ bound ∈ inner :: types, bound.isKnown = true :=
        List.forall_mem_cons.mpr ⟨innerKnown, known⟩
      apply yields_map (ihSource known sourceLowers keeps.1 elements)
      · intro held
        exact ihBody bodyKnown bodyLowers keeps.2 (held :: elements)
      · intro value result sourceGives mapsTo
        exact source_typed.gives_mapSome body_typed (body_typed.isKnown bodyKnown)
          sourceGives mapsTo
  | @flatten types source type source_typed ih =>
      obtain ⟨lowered, sourceLowers, rfl⟩ := Draft.lowerIn_flatten_eq_ok.mp lowers
      have unwrapped := (ih known sourceLowers keeps elements).andThen
        fun value sourceGives =>
          (unwrap_yields type value).mono id fun result fits =>
            gives_flatten sourceGives fits
      rw [Bool.or_true] at unwrapped
      exact unwrapped
  | debug label source_typed ih =>
      obtain ⟨lowered, sourceLowers, rfl⟩ := Draft.lowerIn_debug_eq_ok.mp lowers
      refine ((ih known sourceLowers keeps elements).sighted label).mono id ?_
      intro value sourceGives accuracy keepsDebug
      simp only [keepsType] at keepsDebug
      exact sourceGives accuracy keepsDebug
  | negation number operand_typed ih =>
      obtain ⟨lowered, operandLowers, rfl⟩ := Draft.lowerIn_unary_eq_ok.mp lowers
      have operandKeeps := (Bool.and_eq_true_iff.mp keeps).1
      apply yields_unary (ih known operandLowers operandKeeps elements) keeps
      intro value holds
      exact UnaryOperator.computes_neg number holds
  | complement operand_typed ih =>
      obtain ⟨lowered, operandLowers, rfl⟩ := Draft.lowerIn_unary_eq_ok.mp lowers
      have operandKeeps := (Bool.and_eq_true_iff.mp keeps).1
      apply yields_unary (ih known operandLowers operandKeeps elements) keeps
      intro value holds
      exact UnaryOperator.computes_not holds
  | arithmetic computes left_typed right_typed ihLeft ihRight =>
      obtain ⟨first, leftLowers, second, rightLowers, rfl⟩ :=
        Draft.lowerIn_binary_eq_ok.mp lowers
      obtain ⟨leftKeeps, rightKeeps⟩ := operandsKeepType_of_binary keeps
      apply yields_binary_of_layered (ihLeft known leftLowers leftKeeps elements)
        (ihRight known rightLowers rightKeeps elements) keeps
        (BinaryOperator.equates_of_computesOn computes)
      intro value other valueHolds otherHolds
      exact BinaryOperator.computes_of_computesOn computes valueHolds otherHolds
  | connective connects left_typed right_typed ihLeft ihRight =>
      obtain ⟨first, leftLowers, second, rightLowers, rfl⟩ :=
        Draft.lowerIn_binary_eq_ok.mp lowers
      obtain ⟨leftKeeps, rightKeeps⟩ := operandsKeepType_of_binary keeps
      apply yields_binary_of_layered (ihLeft known leftLowers leftKeeps elements)
        (ihRight known rightLowers rightKeeps elements) keeps
      · rcases connects with rfl | rfl <;> rfl
      · intro value other valueHolds otherHolds
        exact BinaryOperator.computes_of_connective connects valueHolds otherHolds
  | concat left_typed right_typed ihLeft ihRight =>
      obtain ⟨first, leftLowers, second, rightLowers, rfl⟩ :=
        Draft.lowerIn_binary_eq_ok.mp lowers
      obtain ⟨leftKeeps, rightKeeps⟩ := operandsKeepType_of_binary keeps
      apply yields_binary_of_layered (ihLeft known leftLowers leftKeeps elements)
        (ihRight known rightLowers rightKeeps elements) keeps rfl
      intro value other valueHolds otherHolds
      exact BinaryOperator.computes_concat valueHolds otherHolds
  | equality equates left_typed right_typed ihLeft ihRight =>
      obtain ⟨first, leftLowers, second, rightLowers, rfl⟩ :=
        Draft.lowerIn_binary_eq_ok.mp lowers
      obtain ⟨leftKeeps, rightKeeps⟩ := operandsKeepType_of_binary keeps
      apply yields_binary (ihLeft known leftLowers leftKeeps elements)
        (ihRight known rightLowers rightKeeps elements)
      intro value other _ _
      exact BinaryOperator.computes_of_equates equates
  | ordering orders plain left_typed right_typed ihLeft ihRight =>
      obtain ⟨first, leftLowers, second, rightLowers, rfl⟩ :=
        Draft.lowerIn_binary_eq_ok.mp lowers
      obtain ⟨leftKeeps, rightKeeps⟩ := operandsKeepType_of_binary keeps
      apply yields_binary_of_layered (ihLeft known leftLowers leftKeeps elements)
        (ihRight known rightLowers rightKeeps elements) keeps
        (BinaryOperator.equates_of_orders orders)
      intro value other valueHolds otherHolds
      exact BinaryOperator.computes_of_orders orders plain valueHolds otherHolds

/-- A typed term whose operands keep their types never applies an operator to values
of the wrong kind: a wrong kind is reported by a lookup. -/
theorem Typed.evaluate_noOperandFault (typed : Typed [] term type)
    (keeps : term.operandsKeepType [] = true) (lowers : term.lower = .ok expression)
    (level : ReportLevel) (context : Context) {error : EvaluationError}
    (fails : (expression.evaluate level context).result = .error error) :
    error.isOperandFault = false ∧
      (error.kind = .typeMismatch →
        (∃ lookup needed found, error = .stepMismatch lookup needed found) ∨
          ∃ lookup found, error = .pathMismatch lookup found) := by
  have noElements : ∀ bound ∈ ([] : List ValueType), bound.isKnown = true :=
    fun _ member => nomatch member
  have yields := typed.yields noElements lowers keeps context []
  have noFault : error.isOperandFault = false := yields.finish fails
  refine ⟨noFault, fun mismatch => ?_⟩
  cases error with
  | stepMismatch lookup needed found => exact .inl ⟨lookup, needed, found, rfl⟩
  | pathMismatch lookup found => exact .inr ⟨lookup, found, rfl⟩
  | operandMismatch operator left right => cases noFault
  | unaryMismatch operator operand => cases noFault
  | _ => cases mismatch

def nextOfNext : Term :=
  .binary .add
    (.flatten (.mapSome (.step (.read .current [] .record) (.key "count") (.optional .int))
      (.binary .add (.element 0) (.constant .int (.int 1)))))
    (.constant .int (.int 1))

def wordyCount : Context := .root (.record [("count", .string "many")]) []

theorem evaluate_nextOfNext :
    ∃ expression error, nextOfNext.lower = .ok expression ∧
      (expression.evaluate .off wordyCount).result = .error error ∧
      (error.isOperandFault = false ∧
        (error.kind = .typeMismatch →
          (∃ lookup needed found, error = .stepMismatch lookup needed found) ∨
            ∃ lookup found, error = .pathMismatch lookup found)) ∧
      error.kind = .typeMismatch := by
  have typed : Typed [] nextOfNext .int :=
    .arithmetic rfl
      (.flatten (.mapSome (.step _ rfl (.read .current [] rfl) rfl)
        (.arithmetic rfl (.element 0 rfl) (.constant .int (1 : Int64) rfl))))
      (.constant .int (1 : Int64) rfl)
  exact ⟨_, _, rfl, rfl, typed.evaluate_noOperandFault rfl rfl .off wordyCount rfl, rfl⟩

/-! ### Operands that do not keep their types -/

/-- Whether a term is typed, and its evaluation applies an operator to values of the
wrong kind. -/
def FaultsIn (context : Context) (term : Term) : Prop :=
  ∃ type expression error, Typed [] term type ∧ term.lower = .ok expression ∧
    (expression.evaluate .off context).result = .error error ∧ error.isOperandFault = true

def abandonedContent : Term :=
  .binary .add
    (.flatten (.mapSome (.constant (.optional .int) (.present (.int 1)))
      (.flatten (.constant (.optional .int) .absent))))
    (.constant .int (.int 1))

def innerNull : Term :=
  .binary .add
    (.flatten (.flatten (.read .current [] (.optional (.optional .int)))))
    (.constant .int (.int 1))

def mappedItems : Term :=
  .binary .add
    (.flatten (.mapSome
      (.flatten (.read .current [] (.optional (.optional (.sequence .int)))))
      (.constant .int (.int 1))))
    (.constant .int (.int 1))

def layeredItems : Term :=
  .binary .lessThan
    (.mapEach (.flatten (.read .current [] (.optional (.sequence .int))))
      (.constant .int (.int 1)))
    (.constant (.sequence .int) (.sequence []))

/-- Typed terms do apply operators to values of the wrong kind, each of these for a
reason of its own. -/
theorem typed_terms_fault :
    abandonedContent.FaultsIn (.root .null []) ∧
      innerNull.FaultsIn (.root (.present .null) []) ∧
      mappedItems.FaultsIn (.root (.present (.sequence [])) []) ∧
      layeredItems.FaultsIn (.root (.present (.present (.sequence []))) []) := by
  have one {types : List ValueType} : Typed types (.constant .int (.int 1)) .int :=
    .constant .int (1 : Int64) rfl
  refine ⟨⟨.int, _, _, ?_, rfl, rfl, rfl⟩, ⟨.int, _, _, ?_, rfl, rfl, rfl⟩,
    ⟨.int, _, _, ?_, rfl, rfl, rfl⟩, ⟨.bool, _, _, ?_, rfl, rfl, rfl⟩⟩
  · exact .arithmetic rfl
      (.flatten (.mapSome (.constant (.option .int) (some (1 : Int64)) rfl)
        (.flatten (.constant (.option .int) (none : Option Int64) rfl)))) one
  · exact .arithmetic rfl (.flatten (.flatten (.read .current [] rfl))) one
  · exact .arithmetic rfl (.flatten (.mapSome (.flatten (.read .current [] rfl)) one)) one
  · exact .ordering rfl rfl (.mapEach (.flatten (.read .current [] rfl)) one)
      (.constant (.list .int) ([] : List Int64) rfl)

end Term

end StagedResolver
