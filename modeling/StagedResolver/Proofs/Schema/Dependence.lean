/-
Resolvers depend on the arguments that are declared, and on no others.

A lookup in the arguments of a compiled field starts with the key of a declared argument.
Records of arguments that agree on those keys therefore look alike to its resolver, and
so it ends alike with both.
-/
import StagedResolver.Proofs.Schema.Declared

namespace StagedResolver

private theorem Context.current_ancestor?_withArguments (context : Context) (arguments : Record)
    (depth : Nat) :
    ((context.withArguments arguments).ancestor? depth).map current =
      (context.ancestor? depth).map current := by
  cases depth with
  | zero => rfl
  | succ depth => rfl

namespace Lookup

variable {lookup : Lookup} {first second : Record}

private theorem findInRecord_congr (agree : ∀ name rest, lookup.segments = .key name :: rest →
    first.find? name = second.find? name) :
    lookup.findInRecord first = lookup.findInRecord second := by
  unfold findInRecord
  split
  · rfl
  · rename_i name rest segments
    rw [agree name rest segments]
  · rfl

/-- Two records of arguments come to the same for a lookup when they agree on the argument
that it starts with, should it start with one. -/
theorem resolve_withArguments_congr (context : Context) (elements : List Value)
    (agree : lookup.root = .arguments → ∀ name rest, lookup.segments = .key name :: rest →
      first.find? name = second.find? name) :
    lookup.resolve (context.withArguments first) elements =
      lookup.resolve (context.withArguments second) elements := by
  suffices sameFound : lookup.find (context.withArguments first) elements =
      lookup.find (context.withArguments second) elements by
    rw [resolve, resolve, sameFound]
  cases root : lookup.root with
  | ancestor depth =>
      rw [find_ancestor root, find_ancestor root,
        Context.current_ancestor?_withArguments, Context.current_ancestor?_withArguments]
  | arguments =>
      simp only [find, root]
      exact findInRecord_congr (agree root)
  | current | environment | element index =>
      simp only [find, root]
      rfl

end Lookup

attribute [ext] Evaluated

/-- Whether two records have the same values for the arguments that a field declares. -/
def ObjectField.SameArguments (field : ObjectField) (first second : Record) : Prop :=
  ∀ name, field.arguments.has name = true → first.find? name = second.find? name

namespace SchemaDeclaration

variable {declaration : SchemaDeclaration} {object name : String} {declared : FieldDeclaration}
  {field : ObjectField} {first second : Record}

/-- A compiled resolver looks alike with records that agree on what is declared. -/
theorem looksAlike_of_sameArguments
    (made : declaration.objectField object name declared = .ok field)
    (same : field.SameArguments first second) {expression : Expression}
    (computed : field.resolution.source = .computed expression) (context : Context) :
    expression.LooksAlike id (context.withArguments first) (context.withArguments second) := by
  intro lookup member _
  have isPart := Expression.mem_lookups_iff.mp member
  apply congrArg (Except.mapError id)
  apply Lookup.resolve_withArguments_congr
  intro inArguments key rest segments
  have notEmpty : lookup.segments ≠ [] := by
    rw [segments]
    exact List.cons_ne_nil _ _
  obtain ⟨argument, others, startsWith, isDeclared⟩ :=
    has_of_isPartOf made computed isPart inArguments notEmpty
  rw [segments] at startsWith
  cases startsWith
  exact same key isDeclared

private theorem evaluate_of_sameArguments
    (made : declaration.objectField object name declared = .ok field)
    (same : field.SameArguments first second) (level : ReportLevel) (context : Context) :
    field.resolution.source.evaluate level (context.withArguments first) =
      field.resolution.source.evaluate level (context.withArguments second) := by
  cases source : field.resolution.source with
  | passthrough key => rfl
  | constant value => rfl
  | computed expression =>
      have sameElements : (context.withArguments first).elements =
          (context.withArguments second).elements := rfl
      have alike := looksAlike_of_sameArguments made same source context
      obtain ⟨sameResult, sameReports⟩ := Expression.evaluate_agree level sameElements alike
      rw [mapError_id, mapError_id] at sameResult
      exact Evaluated.ext sameResult sameReports

end SchemaDeclaration

def Context.ofTitled (title : String) : Context :=
  .root (.record [("rows", .sequence [.sequence [.null]]), ("title", .string title)]) []

private theorem Expression.looksAlike_ofRows (title other : String) (arguments : Record) :
    Expression.ofRows.LooksAlike id ((Context.ofTitled title).withArguments arguments)
      ((Context.ofTitled other).withArguments arguments) := by
  intro lookup member notElement
  simp only [ofRows, lookups, List.cons_append, List.nil_append, List.mem_cons,
    List.not_mem_nil, or_false] at member
  rcases member with rows | item | width
  · rw [rows]
    rfl
  · exact absurd (congrArg Lookup.root item) (notElement 0)
  · rw [width]
    rfl

private theorem ObjectField.sameArguments_ofRows (height : Int64) :
    ObjectField.ofRows.SameArguments [("width", .int 2)]
      [("height", .int height), ("width", .int 2)] := by
  intro name isDeclared
  by_cases isWidth : "width" = name
  · rw [← isWidth]
    rfl
  · have undeclared : ObjectField.ofRows.arguments.find? name = none :=
      if_neg isWidth
    rw [OrderedMap.has, Entries.has, ← OrderedMap.find?, undeclared] at isDeclared
    cases isDeclared

/-- The lookups of an expression are a complete account of what it depends on: it ends
alike in any two contexts that have the same elements and in which its other lookups
come to the same.  A compiled field therefore depends on no argument that it does not
declare. -/
theorem Expression.evaluate_dependence :
    (∀ {γ : Type} (view : EvaluationError → γ) (level : ReportLevel) (expression : Expression)
      (first second : Context), first.elements = second.elements →
        expression.LooksAlike view first second →
          (expression.evaluate level first).result.mapError view =
              (expression.evaluate level second).result.mapError view ∧
            (expression.evaluate level first).reports =
              (expression.evaluate level second).reports) ∧
      ∀ (declaration : SchemaDeclaration) (schema : Schema), declaration.compile = .ok schema →
        ∀ object ∈ schema.objects, ∀ name field, (name, field) ∈ object.fields.entries →
          ∀ (level : ReportLevel) (context : Context) (first second : Record),
            field.SameArguments first second →
              field.resolution.source.evaluate level (context.withArguments first) =
                field.resolution.source.evaluate level (context.withArguments second) := by
  constructor
  · intro γ view level expression first second sameElements alike
    exact evaluate_agree level sameElements alike
  · intro declaration schema compiled object member name field fieldMember level context first
      second same
    obtain ⟨_, _, objectMade⟩ := SchemaDeclaration.exists_object_of_compile compiled member
    obtain ⟨_, _, made⟩ := SchemaDeclaration.exists_field_of_objectType objectMade fieldMember
    exact SchemaDeclaration.evaluate_of_sameArguments made same level context

theorem Expression.evaluate_dependence_ofTable :
    (Context.ofTitled "Stock").elements = (Context.ofTitled "Sales").elements ∧
      Expression.ofRows.LooksAlike id (Context.ofTitled "Stock") (Context.ofTitled "Sales") ∧
      (Expression.ofRows.evaluate .debug (Context.ofTitled "Stock")).result.mapError id =
        (Expression.ofRows.evaluate .debug (Context.ofTitled "Sales")).result.mapError id ∧
      SchemaDeclaration.ofTable.compile = .ok .ofTable ∧
      ObjectField.ofRows.SameArguments [("width", .int 2)]
        [("height", .int 3), ("width", .int 2)] ∧
      ObjectField.ofRows.resolution.source.evaluate .debug
          ((Context.ofTitled "Stock").withArguments [("width", .int 2)]) =
        ObjectField.ofRows.resolution.source.evaluate .debug
          ((Context.ofTitled "Stock").withArguments [("height", .int 3), ("width", .int 2)]) := by
  have alike : Expression.ofRows.LooksAlike id (Context.ofTitled "Stock")
      (Context.ofTitled "Sales") := looksAlike_ofRows "Stock" "Sales" []
  have sameElements : (Context.ofTitled "Stock").elements = (Context.ofTitled "Sales").elements :=
    rfl
  have sameArguments := ObjectField.sameArguments_ofRows 3
  obtain ⟨footprint, declaredOnly⟩ := evaluate_dependence
  have sameEnd := footprint id .debug .ofRows _ _ sameElements alike
  refine ⟨sameElements, alike, sameEnd.1, SchemaDeclaration.compile_ofTable, sameArguments, ?_⟩
  exact declaredOnly _ _ SchemaDeclaration.compile_ofTable ⟨"Query", .ofEntries [("rows", .ofRows)]⟩
    (List.mem_cons_self ..) "rows" .ofRows (List.mem_singleton_self _) .debug _ _ _ sameArguments

end StagedResolver
