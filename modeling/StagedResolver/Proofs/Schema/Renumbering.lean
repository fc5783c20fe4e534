/-
The order of declaration does not matter.

Declarations that list the same objects and fields in different orders compile to schemas
that correspond: each object type is at the position that its name has, and shapes mention it
by that.  Where responses follow the selection, both schemas answer every request alike.
-/
import StagedResolver.Proofs.Execution.Independence
import StagedResolver.Proofs.Plan.Correspondence
import StagedResolver.Proofs.Response.Classification
import StagedResolver.Proofs.Schema.Compiled

namespace StagedResolver

/-- Whether two declarations have the same query type and the same objects with the same
fields, in whatever order. -/
structure SchemaDeclaration.Rearranges (declaration other : SchemaDeclaration) : Prop where
  query : other.query = declaration.query
  objects : ∀ name, Option.Rel
    (fun object another : ObjectDeclaration => object.entries.Perm another.entries)
    (declaration.objects.find? name) (other.objects.find? name)

/-- The position that the object at a position has in another declaration, by its name. -/
def SchemaDeclaration.renumbering (declaration other : SchemaDeclaration) (id : ObjectIndex) :
    ObjectIndex :=
  match declaration.objects.entries[id]? with
  | some (name, _) => (other.indexOf? name).getD id
  | none => id

section Checks

variable {rename : ObjectIndex → ObjectIndex} {place : SchemaPlace} {type : TypeReference}

private theorem fitConstant_renumber (shape : Shape) (value : Value) :
    fitConstant place type (shape.renumber rename) value = fitConstant place type shape value := by
  induction shape generalizing value with
  | scalar leaf required => rfl
  | object id required =>
      simp only [Shape.renumber]
      rw [fitConstant, fitConstant]
  | list item required ih =>
      simp only [Shape.renumber]
      rw [fitConstant, fitConstant]
      simp only [ih]

private theorem fitOutput_renumber (shape : Shape) (output : ValueType) :
    fitOutput place type (shape.renumber rename) output = fitOutput place type shape output := by
  induction shape generalizing output with
  | scalar leaf required => rfl
  | object id required =>
      simp only [Shape.renumber]
      rw [fitOutput, fitOutput]
  | list item required ih =>
      simp only [Shape.renumber]
      rw [fitOutput, fitOutput]
      simp only [ih]

private theorem Provision.compile_renumber (provision : Provision) (name : String) (shape : Shape)
    (arguments : OrderedMap FieldArgument) :
    provision.compile place name type (shape.renumber rename) arguments =
      provision.compile place name type shape arguments := by
  cases provision with
  | passthrough => rfl
  | constant value => simp only [compile, fitConstant_renumber]
  | resolver draft output => simp only [compile, fitOutput_renumber]

end Checks

namespace SchemaDeclaration

variable {declaration other : SchemaDeclaration}

private theorem renumbering_of_length_le {id : ObjectIndex}
    (outside : declaration.objects.entries.length ≤ id) :
    declaration.renumbering other id = id := by
  simp only [renumbering, List.getElem?_eq_none_iff.mpr outside]

namespace Rearranges

theorem symm (rearranges : declaration.Rearranges other) : other.Rearranges declaration where
  query := rearranges.query.symm
  objects name := by
    have related := rearranges.objects name
    generalize declaration.objects.find? name = found, other.objects.find? name = otherFound
      at related
    cases related with
    | none => exact .none
    | some permuted => exact .some permuted.symm

private theorem exists_of_find? (rearranges : declaration.Rearranges other) {name : String}
    {object : ObjectDeclaration} (found : declaration.objects.find? name = some object) :
    ∃ another, other.objects.find? name = some another ∧
      object.entries.Perm another.entries := by
  have related := rearranges.objects name
  rw [found] at related
  generalize other.objects.find? name = otherFound at related
  cases related with
  | some permuted => exact ⟨_, rfl, permuted⟩

private theorem mem_keys (rearranges : declaration.Rearranges other) {name : String}
    (known : name ∈ declaration.objects.entries.keys) : name ∈ other.objects.entries.keys := by
  obtain ⟨entry, member, rfl⟩ := List.mem_map.mp known
  obtain ⟨another, found, _⟩ :=
    rearranges.exists_of_find? (declaration.objects.distinct.find?_of_mem member)
  exact Entries.mem_keys_of_find? found

private theorem mem_keys_iff (rearranges : declaration.Rearranges other) {name : String} :
    name ∈ other.objects.entries.keys ↔ name ∈ declaration.objects.entries.keys :=
  ⟨rearranges.symm.mem_keys, rearranges.mem_keys⟩

theorem length_eq (rearranges : declaration.Rearranges other) :
    other.objects.entries.length = declaration.objects.entries.length := by
  have permuted : other.objects.entries.keys.Perm declaration.objects.entries.keys :=
    (List.perm_ext_iff_of_nodup other.objects.distinct declaration.objects.distinct).mpr
      fun _ => rearranges.mem_keys_iff
  have lengths := permuted.length_eq
  rw [Entries.keys, Entries.keys, List.length_map, List.length_map] at lengths
  exact lengths

/-- What is at a position has its name at the renumbered one. -/
theorem getElem?_renumbering (rearranges : declaration.Rearranges other) {id : ObjectIndex}
    {name : String} {object : ObjectDeclaration}
    (atPlace : declaration.objects.entries[id]? = some (name, object)) :
    ∃ another, other.objects.entries[declaration.renumbering other id]? = some (name, another) ∧
      object.entries.Perm another.entries := by
  have found : declaration.objects.find? name = some object :=
    declaration.objects.distinct.find?_of_mem (List.mem_of_getElem? atPlace)
  obtain ⟨another, otherFound, permuted⟩ := rearranges.exists_of_find? found
  obtain ⟨place, isPlace⟩ := Entries.exists_position?_of_find? otherFound
  obtain ⟨held, atOtherPlace, isHeld⟩ := Entries.position?_eq_some isPlace
  have isIndex : other.indexOf? name = some place := isPlace
  have same : held = another := Option.some.inj (isHeld.symm.trans otherFound)
  subst same
  simp only [renumbering, atPlace, isIndex, Option.getD_some]
  exact ⟨held, atOtherPlace, permuted⟩

private theorem renumbering_renumbering (rearranges : declaration.Rearranges other)
    (id : ObjectIndex) :
    other.renumbering declaration (declaration.renumbering other id) = id := by
  cases atPlace : declaration.objects.entries[id]? with
  | none =>
      have outside := List.getElem?_eq_none_iff.mp atPlace
      rw [renumbering_of_length_le outside]
      apply renumbering_of_length_le
      rw [rearranges.length_eq]
      exact outside
  | some entry =>
      obtain ⟨name, object⟩ := entry
      obtain ⟨another, atOther, _⟩ := rearranges.getElem?_renumbering atPlace
      have isIndex : declaration.indexOf? name = some id :=
        declaration.objects.distinct.position?_of_getElem? atPlace
      rw [renumbering, atOther]
      simp only [isIndex, Option.getD_some]

private theorem indexOf?_eq (rearranges : declaration.Rearranges other) (name : String) :
    other.indexOf? name = (declaration.indexOf? name).map (declaration.renumbering other) := by
  cases isIndex : declaration.indexOf? name with
  | none =>
      have unknown := Entries.position?_eq_none_iff.mp isIndex
      apply Entries.position?_eq_none_iff.mpr
      rw [rearranges.mem_keys_iff]
      exact unknown
  | some id =>
      obtain ⟨object, atPlace, _⟩ := Entries.position?_eq_some isIndex
      obtain ⟨another, atOther, _⟩ := rearranges.getElem?_renumbering atPlace
      exact other.objects.distinct.position?_of_getElem? atOther

private theorem shape_eq (rearranges : declaration.Rearranges other) (place : SchemaPlace)
    (type : TypeReference) :
    other.shape place type =
      (declaration.shape place type).map (Shape.renumber (declaration.renumbering other)) := by
  induction type with
  | named name required =>
      rw [shape, shape]
      cases Scalar.ofName? name with
      | some leaf => rfl
      | none =>
          simp only [rearranges.indexOf?_eq]
          cases declaration.indexOf? name with
          | none => rfl
          | some id => rfl
  | list item required ih =>
      rw [shape, shape, ih]
      cases declaration.shape place item with
      | error fault => rfl
      | ok inner => rfl

private theorem objectField_of_ok (rearranges : declaration.Rearranges other) {object name : String}
    {declared : FieldDeclaration} {field : ObjectField}
    (made : declaration.objectField object name declared = .ok field) :
    other.objectField object name declared =
      .ok (field.renumber (declaration.renumbering other)) := by
  obtain ⟨nameIs, typeRead, shapeIs, arguments, sourceIs⟩ := objectField_eq_ok.mp made
  apply objectField_eq_ok.mpr
  refine ⟨nameIs, typeRead, ?_, arguments, ?_⟩
  · show other.shape _ field.type = _
    rw [rearranges.shape_eq, shapeIs]
    rfl
  · show declared.provision.compile _ name field.type (field.resolution.shape.renumber _)
      field.arguments = _
    rw [Provision.compile_renumber]
    exact sourceIs

/-- An object type compiles whatever the order of its fields, with the same fields. -/
theorem objectType_of_ok (rearranges : declaration.Rearranges other) {name : String}
    {object another : ObjectDeclaration} (permuted : object.entries.Perm another.entries)
    {type : ObjectType} (made : declaration.objectType name object = .ok type) :
    ∃ otherType, other.objectType name another = .ok otherType ∧
      type.Corresponds (declaration.renumbering other) otherType := by
  obtain ⟨nameIs, fields⟩ := objectType_eq_ok.mp made
  have eachOther : ∀ entry ∈ another.entries, ∃ field,
      other.objectField name entry.1 entry.2 = .ok field := by
    intro entry member
    obtain ⟨field, _, _, fieldMade⟩ :=
      exists_mem_of_forall₂ fields.flip entry (permuted.mem_iff.mpr member)
    exact ⟨_, rearranges.objectField_of_ok fieldMade⟩
  obtain ⟨results, traversed⟩ := Entries.exists_traverse eachOther
  have otherFields := Entries.traverse_eq_ok.mp traversed
  have entriesAre := Entries.ofEntries_of_forall₂ otherFields
  refine ⟨⟨name, .ofEntries results⟩, objectType_eq_ok.mpr ⟨rfl, ?_⟩, ⟨nameIs.symm, ?_⟩⟩
  · rw [entriesAre]
    exact otherFields
  · intro fieldName
    have found := Entries.rel_find? fields fieldName
    have otherFound := Entries.rel_find? otherFields fieldName
    rw [object.distinct.find?_eq_of_perm permuted] at otherFound
    show Entries.find? fieldName (OrderedMap.ofEntries results).entries =
      (Entries.find? fieldName type.fields.entries).map _
    rw [entriesAre]
    generalize object.entries.find? fieldName = declared,
      type.fields.entries.find? fieldName = field,
      Entries.find? fieldName results = otherField at found otherFound
    cases found with
    | none =>
        cases otherFound
        rfl
    | some fieldMade =>
        cases otherFound with
        | some otherMade =>
            rw [rearranges.objectField_of_ok fieldMade] at otherMade
            rw [Option.map_some, Except.ok.inj otherMade]

/-! ### Schemas -/

private theorem exists_compile (rearranges : declaration.Rearranges other) {schema : Schema}
    (compiled : declaration.compile = .ok schema) :
    ∃ otherSchema, other.compile = .ok otherSchema := by
  obtain ⟨queryIs, objects⟩ := compile_eq_ok.mp compiled
  have eachOther : ∀ entry ∈ other.objects.entries, ∃ type,
      other.objectType entry.1 entry.2 = .ok type := by
    rintro ⟨name, another⟩ member
    have otherFound := other.objects.distinct.find?_of_mem member
    obtain ⟨object, found, permuted⟩ := rearranges.symm.exists_of_find? otherFound
    obtain ⟨type, _, made⟩ :=
      exists_mem_of_forall₂ objects.flip (name, object) (Entries.mem_of_find? found)
    obtain ⟨otherType, otherMade, _⟩ := rearranges.objectType_of_ok permuted.symm made
    exact ⟨otherType, otherMade⟩
  obtain ⟨results, traversed⟩ := Entries.exists_traverse eachOther
  have otherQueryIs : other.indexOf? other.query =
      some (declaration.renumbering other schema.query) := by
    rw [rearranges.indexOf?_eq, rearranges.query, queryIs]
    rfl
  refine ⟨⟨declaration.renumbering other schema.query, Entries.values results⟩,
    compile_eq_ok.mpr ⟨otherQueryIs, ?_⟩⟩
  have each := Entries.traverse_eq_ok.mp traversed
  exact List.forall₂_map_right_iff.mpr (each.imp fun _ _ changed => changed.2)

end Rearranges

private theorem isSome_objectNamed?_of_compile {schema : Schema}
    (compiled : declaration.compile = .ok schema) (name : String) :
    (schema.objectNamed? name).isSome = true ↔ name ∈ declaration.objects.entries.keys := by
  rw [← names_of_compile compiled, Schema.objectNamed?, List.find?_isSome, List.mem_map]
  simp only [decide_eq_true_eq]

/-- The compiled schemas of declarations in different orders correspond. -/
theorem Rearranges.corresponds (rearranges : declaration.Rearranges other)
    {schema otherSchema : Schema} (compiled : declaration.compile = .ok schema)
    (otherCompiled : other.compile = .ok otherSchema) :
    schema.Corresponds (declaration.renumbering other) otherSchema where
  query := by
    have otherQueryIs := (compile_eq_ok.mp otherCompiled).1
    rw [rearranges.indexOf?_eq, rearranges.query, (compile_eq_ok.mp compiled).1] at otherQueryIs
    exact (Option.some.inj otherQueryIs).symm
  objects id := by
    have types := rel_object?_of_compile compiled id
    have otherTypes := rel_object?_of_compile otherCompiled (declaration.renumbering other id)
    cases atPlace : declaration.objects.entries[id]? with
    | none =>
        have outside := List.getElem?_eq_none_iff.mp atPlace
        have otherOutside : other.objects.entries[declaration.renumbering other id]? = none := by
          rw [renumbering_of_length_le outside, List.getElem?_eq_none_iff, rearranges.length_eq]
          exact outside
        rw [atPlace] at types
        rw [otherOutside] at otherTypes
        generalize schema.object? id = type, otherSchema.object? _ = otherType
          at types otherTypes
        cases types
        cases otherTypes
        exact .none
    | some entry =>
        obtain ⟨name, object⟩ := entry
        obtain ⟨another, atOther, permuted⟩ := rearranges.getElem?_renumbering atPlace
        rw [atPlace] at types
        rw [atOther] at otherTypes
        generalize schema.object? id = type, otherSchema.object? _ = otherType
          at types otherTypes
        cases types with
        | some made =>
            cases otherTypes with
            | some otherMade =>
                obtain ⟨expected, expectedMade, corresponds⟩ :=
                  rearranges.objectType_of_ok permuted made
                rw [otherMade] at expectedMade
                rw [Except.ok.inj expectedMade]
                exact .some corresponds
  outside id isMissing := by
    have types := rel_object?_of_compile compiled id
    rw [isMissing] at types
    apply renumbering_of_length_le
    apply List.getElem?_eq_none_iff.mp
    generalize declaration.objects.entries[id]? = found at types
    cases types
    rfl
  named name := by
    rw [Bool.eq_iff_iff, isSome_objectNamed?_of_compile compiled,
      isSome_objectNamed?_of_compile otherCompiled, rearranges.mem_keys_iff]

end SchemaDeclaration

section Execution

variable {rename : ObjectIndex → ObjectIndex}

/-- The positions in a shape do not matter to completion, which is told what to make of
objects. -/
theorem FieldPlace.complete_renumber (place : FieldPlace) (object : Value → Completion Value)
    (shape : Shape) (value : Value) :
    place.complete object (shape.renumber rename) value = place.complete object shape value := by
  induction shape generalizing value with
  | scalar leaf required => rfl
  | object id required => rfl
  | list item required ih =>
      have items : place.complete object (item.renumber rename) = place.complete object item :=
        funext ih
      rw [Shape.renumber, complete, complete, items]

private theorem ObjectField.resolve_renumber (field : ObjectField) (level : ReportLevel)
    (context : Context) (arguments : Record) (place : FieldPlace)
    (object : Value → Completion Value) :
    (field.renumber rename).resolve level context arguments place object =
      field.resolve level context arguments place object := by
  simp only [resolve, renumber, FieldPlace.complete_renumber, Shape.required_renumber]

namespace Schema

variable {schema other : Schema} {object otherObject : ObjectType}

private theorem resolveFields_congr {level : ReportLevel} {context : Context}
    {fields others : List PlannedField}
    (each : List.Forall₂ (fun planned another => another.key = planned.key ∧
      other.resolveField level otherObject context another =
        schema.resolveField level object context planned) fields others) :
    other.resolveFields level otherObject context others =
      schema.resolveFields level object context fields := by
  induction each with
  | nil =>
      rw [resolveFields, resolveFields]
  | cons first _ ih =>
      obtain ⟨sameKey, same⟩ := first
      rw [resolveFields, resolveFields, sameKey, same, ih]

private theorem resolveField_eq (schemas : schema.Corresponds rename other)
    {planned another : PlannedField} (fits : planned.Fits schema object)
    (objects : object.Corresponds rename otherObject)
    (corresponds : planned.Corresponds rename Eq another) (level : ReportLevel)
    (context : Context) :
    other.resolveField level otherObject context another =
      schema.resolveField level object context planned := by
  induction fits generalizing another otherObject context with
  | typename key position =>
      cases corresponds
      rw [resolveField, resolveField, objects.name]
  | @leaf object name field key position arguments found noObject =>
      cases corresponds
      have otherFound := objects.fields name
      rw [found] at otherFound
      rw [resolveField, resolveField, found, otherFound, objects.name]
      exact field.resolve_renumber level context arguments _ _
  | @composite object inner name field id fields key position arguments found ofObject
      innerFound distinct inside ih =>
      cases corresponds with
      | @composite _ _ _ _ _ _ middle others related sameOrder =>
          subst sameOrder
          have otherFound := objects.fields name
          rw [found] at otherFound
          have inners := schemas.objects id
          rw [innerFound] at inners
          generalize otherInnerFound : other.object? (rename id) = otherInner at inners
          cases inners with
          | @some _ otherInner innersCorrespond =>
              have each (context : Context) :=
                forall₂_imp_of_mem related fun planned member another corresponds =>
                  And.intro corresponds.key_eq
                    (ih planned member innersCorrespond corresponds context)
              have sameObjects (place : FieldPlace) :
                  other.objectOf level context place ⟨rename id, middle⟩ =
                    schema.objectOf level context place ⟨id, fields⟩ := by
                funext value
                simp only [objectOf, innerFound, otherInnerFound]
                rw [resolveFields_congr (each (context.child value))]
              rw [resolveField_composite, resolveField_composite, found, otherFound,
                objects.name]
              simp only [Option.map_some]
              rw [sameObjects]
              exact field.resolve_renumber level context arguments _ _

/-- On schemas that correspond, plans that correspond are executed alike. -/
theorem execute_eq (schemas : schema.Corresponds rename other) {plan another : Plan}
    (fits : plan.Fits schema object) (corresponds : plan.Corresponds rename Eq another)
    (level : ReportLevel) (context : Context) :
    other.execute level another context = schema.execute level plan context := by
  obtain ⟨sameObject, middle, related, sameOrder⟩ := corresponds
  have objects := schemas.objects plan.object
  rw [fits.found, ← sameObject] at objects
  generalize otherFound : other.object? another.object = found at objects
  cases objects with
  | @some _ otherObject objectsCorrespond =>
      have each := forall₂_imp_of_mem related fun planned member another corresponds =>
        And.intro corresponds.key_eq (resolveField_eq schemas (fits.fields planned member)
          objectsCorrespond corresponds level context)
      rw [execute_of_object? fits.found, execute_of_object? otherFound, ← sameOrder,
        resolveFields_congr each]

end Schema

/-- Engines whose schemas correspond answer every request alike, with the same settings, if
responses follow the selection. -/
theorem Engine.execute_eq {schema other : Schema} (schemas : schema.Corresponds rename other)
    {settings : Settings} (inSelection : settings.keyOrder = .selection) (request : Request) :
    execute ⟨other, settings⟩ request = execute ⟨schema, settings⟩ request := by
  have arranges : Arranges rename Eq settings.keyOrder settings.keyOrder := by
    rw [inSelection]
    exact arranges_selection
  have alike := @prepare_alike rename Eq ⟨schema, settings⟩ ⟨other, settings⟩ schemas rfl
    arranges request
  generalize prepared : prepare ⟨schema, settings⟩ request = result,
    otherPrepared : prepare ⟨other, settings⟩ request = otherResult at alike
  cases alike with
  | error refusal => rw [execute_refused prepared, execute_refused otherPrepared]
  | ok corresponds =>
      obtain ⟨object, fits⟩ := fits_of_prepare prepared
      have same := Schema.execute_eq schemas fits corresponds settings.level
        (rootContext ⟨schema, settings⟩ request)
      rw [execute_prepared prepared, execute_prepared otherPrepared]
      have sameContext : rootContext ⟨other, settings⟩ request =
          rootContext ⟨schema, settings⟩ request := rfl
      simp only [sameContext, same]

end Execution

namespace SchemaDeclaration

/-- Declarations that differ in the order of objects and of fields compile together.  Their
schemas correspond under the renumbering by names, which the renumbering back undoes, and
where responses follow the selection every request is answered alike. -/
theorem compile_rearranged {declaration other : SchemaDeclaration}
    (rearranges : declaration.Rearranges other) :
    ((∃ schema, declaration.compile = .ok schema) ↔ ∃ schema, other.compile = .ok schema) ∧
      (∀ id, other.renumbering declaration (declaration.renumbering other id) = id) ∧
      ∀ schema otherSchema, declaration.compile = .ok schema →
        other.compile = .ok otherSchema →
          schema.Corresponds (declaration.renumbering other) otherSchema ∧
            ∀ settings request, settings.keyOrder = .selection →
              Engine.execute ⟨otherSchema, settings⟩ request =
                Engine.execute ⟨schema, settings⟩ request := by
  refine ⟨⟨?_, ?_⟩, rearranges.renumbering_renumbering, ?_⟩
  · rintro ⟨schema, compiled⟩
    exact rearranges.exists_compile compiled
  · rintro ⟨schema, compiled⟩
    exact rearranges.symm.exists_compile compiled
  · intro schema otherSchema compiled otherCompiled
    have schemas := rearranges.corresponds compiled otherCompiled
    refine ⟨schemas, fun settings request inSelection => ?_⟩
    exact Engine.execute_eq schemas inSelection request

/-! ### Heroes, declared in two orders -/

def ofHeroes : SchemaDeclaration :=
  ⟨"Query", .ofEntries [("Query", .ofEntries [("heroes", .ofType "[Hero]!")]),
    ("Hero", .ofEntries [("name", .ofType "String!")])]⟩

def ofHeroesFirst : SchemaDeclaration :=
  ⟨"Query", .ofEntries [("Hero", .ofEntries [("name", .ofType "String!")]),
    ("Query", .ofEntries [("heroes", .ofType "[Hero]!")])]⟩

private theorem readType_ofHeroes (place : SchemaPlace) :
    readType place "[Hero]!" = .ok (.list (.named "Hero" false) true) ∧
      readType place "String!" = .ok (.named "String" true) := by
  have heroes : TypeReference.parse? "[Hero]!" = some (.list (.named "Hero" false) true) := by
    decide +kernel
  have name : TypeReference.parse? "String!" = some (.named "String" true) := by
    decide +kernel
  exact ⟨readType_eq_ok.mpr heroes, readType_eq_ok.mpr name⟩

private theorem compile_ofHeroes : ofHeroes.compile = .ok .ofHeroes := by
  have heroes (place : SchemaPlace) := (readType_ofHeroes place).1
  have name (place : SchemaPlace) := (readType_ofHeroes place).2
  refine compile_eq_ok.mpr ⟨rfl, .cons (objectType_eq_ok.mpr ⟨rfl, .cons ⟨rfl, ?_⟩ .nil⟩)
    (.cons (objectType_eq_ok.mpr ⟨rfl, .cons ⟨rfl, ?_⟩ .nil⟩) .nil)⟩
  · exact objectField_eq_ok.mpr ⟨rfl, heroes _, rfl, .nil, rfl⟩
  · exact objectField_eq_ok.mpr ⟨rfl, name _, rfl, .nil, rfl⟩

private theorem rearranges_ofHeroes : ofHeroes.Rearranges ofHeroesFirst where
  query := rfl
  objects name := by
    by_cases isQuery : "Query" = name
    · subst isQuery
      exact .some (.refl _)
    · by_cases isHero : "Hero" = name
      · subst isHero
        exact .some (.refl _)
      · have unknown : ofHeroes.objects.find? name = none := by
          apply Entries.find?_eq_none_iff.mpr
          rintro (_ | ⟨_, _ | ⟨_, _ | _⟩⟩)
          · exact isQuery rfl
          · exact isHero rfl
        have otherUnknown : ofHeroesFirst.objects.find? name = none := by
          apply Entries.find?_eq_none_iff.mpr
          rintro (_ | ⟨_, _ | ⟨_, _ | _⟩⟩)
          · exact isHero rfl
          · exact isQuery rfl
        rw [unknown, otherUnknown]
        exact .none

theorem compile_rearranged_ofHeroes :
    ofHeroes.Rearranges ofHeroesFirst ∧ ofHeroes.compile = .ok .ofHeroes ∧
      ofHeroes.renumbering ofHeroesFirst 1 = 0 ∧
      ∃ other, ofHeroesFirst.compile = .ok other ∧
        (∃ hero, other.object? 0 = some hero ∧ hero.name = "Hero") ∧
        ∀ request,
          Engine.execute ⟨other, { Settings.standard with keyOrder := .selection }⟩ request =
            Engine.execute ⟨.ofHeroes, { Settings.standard with keyOrder := .selection }⟩
              request := by
  obtain ⟨together, _, schemas⟩ := compile_rearranged rearranges_ofHeroes
  obtain ⟨other, otherCompiled⟩ := together.mp ⟨_, compile_ofHeroes⟩
  obtain ⟨corresponds, answers⟩ := schemas _ other compile_ofHeroes otherCompiled
  have hero := corresponds.objects 1
  have renumbered : ofHeroes.renumbering ofHeroesFirst 1 = 0 := rfl
  rw [renumbered] at hero
  refine ⟨rearranges_ofHeroes, compile_ofHeroes, renumbered, other, otherCompiled, ?_,
    fun request => answers _ request rfl⟩
  cases found : other.object? 0 with
  | none =>
      rw [found] at hero
      cases hero
  | some object =>
      rw [found] at hero
      cases hero with
      | some heroCorresponds => exact ⟨object, rfl, heroCorresponds.name⟩

end SchemaDeclaration

end StagedResolver
