/-
Names of bound elements, which make no difference.

Two drafts match when they differ in such names only: where one reads the element of a map, so
does the other, and the map is the same.  Drafts that match lower to the same expression, or
fail with the same fault.  A draft matches any other in which its names are exchanged one for
one, and so do two drafts of one term, whichever names they took from a supply.
-/
import StagedResolver.Proofs.Expression.Acceptance
import StagedResolver.Proofs.Expression.LoweringMeaning
import StagedResolver.Schema.Compilation

namespace StagedResolver

inductive Origin.Matches (scope other : List BindingName) : Origin → Origin → Prop where
  | slot {origin : Origin} (noElement : ∀ name, origin ≠ .binding name) :
      Matches scope other origin origin
  | element {name otherName : BindingName}
      (same : bindingIndex? name scope = bindingIndex? otherName other) :
      Matches scope other (.binding name) (.binding otherName)

private theorem Origin.Matches.lowerRead_eq {scope other : List BindingName} {origin start : Origin}
    (same : origin.Matches scope other start) (segments : List PathStep) :
    lowerRead scope origin segments = lowerRead other start segments := by
  cases same with
  | slot noElement =>
      cases origin with
      | binding name => exact absurd rfl (noElement name)
      | _ => rfl
  | element same => simp only [lowerRead, same]

namespace Draft

/-- Whether two drafts differ in the names of elements only, each inside its own maps. -/
inductive Matches : List BindingName → List BindingName → Draft → Draft → Prop where
  | constant {scope other : List BindingName} (value : Value) :
      Matches scope other (.constant value) (.constant value)
  | read {scope other : List BindingName} {origin start : Origin}
      (same : origin.Matches scope other start) (segments : List PathStep)
      (expected : ValueType) :
      Matches scope other (.read origin segments expected) (.read start segments expected)
  | binary {scope other : List BindingName} {left right otherLeft otherRight : Draft}
      (operator : BinaryOperator) (sameLeft : Matches scope other left otherLeft)
      (sameRight : Matches scope other right otherRight) :
      Matches scope other (.binary operator left right) (.binary operator otherLeft otherRight)
  | unary {scope other : List BindingName} {operand otherOperand : Draft}
      (operator : UnaryOperator) (same : Matches scope other operand otherOperand) :
      Matches scope other (.unary operator operand) (.unary operator otherOperand)
  | map {scope other : List BindingName} {source transform otherSource otherTransform : Draft}
      {name otherName : BindingName} (sameSource : Matches scope other source otherSource)
      (sameTransform :
        Matches (name :: scope) (otherName :: other) transform otherTransform) :
      Matches scope other (.map source name transform)
        (.map otherSource otherName otherTransform)
  | flatten {scope other : List BindingName} {source otherSource : Draft}
      (same : Matches scope other source otherSource) :
      Matches scope other (.flatten source) (.flatten otherSource)
  | debug {scope other : List BindingName} {source otherSource : Draft} (label : String)
      (same : Matches scope other source otherSource) :
      Matches scope other (.debug label source) (.debug label otherSource)

private theorem Matches.lowerIn_eq {scope other : List BindingName} {draft otherDraft : Draft}
    (same : Matches scope other draft otherDraft) :
    draft.lowerIn scope = otherDraft.lowerIn other := by
  induction same with
  | constant value => rfl
  | read same segments expected =>
      unfold lowerIn
      rw [same.lowerRead_eq]
  | binary operator sameLeft sameRight ihLeft ihRight =>
      unfold lowerIn
      rw [ihLeft, ihRight]
  | unary operator same ih =>
      unfold lowerIn
      rw [ih]
  | map sameSource sameTransform ihSource ihTransform =>
      unfold lowerIn
      rw [ihSource, ihTransform]
  | flatten same ih =>
      unfold lowerIn
      rw [ih]
  | debug label same ih =>
      unfold lowerIn
      rw [ih]

theorem Matches.enter {scope other : List BindingName} {source otherSource : Draft}
    (same : Matches scope other source otherSource) (name otherName : BindingName)
    (segment : PathStep) (expected : ValueType) :
    Matches scope other (Draft.enter name segment expected source)
      (Draft.enter otherName segment expected otherSource) := by
  have element : Matches (name :: scope) (otherName :: other)
      (.read (.binding name) [segment] expected)
      (.read (.binding otherName) [segment] expected) := by
    apply Matches.read
    apply Origin.Matches.element
    rw [bindingIndex?, if_pos rfl, bindingIndex?, if_pos rfl]
  cases same with
  | read same segments _ => exact .read same (segments ++ [segment]) expected
  | constant value => exact .map (.constant value) element
  | binary operator sameLeft sameRight =>
      exact .map (.binary operator sameLeft sameRight) element
  | unary operator same => exact .map (.unary operator same) element
  | map sameSource sameTransform => exact .map (.map sameSource sameTransform) element
  | flatten same => exact .map (.flatten same) element
  | debug label same => exact .map (.debug label same) element

theorem Matches.expecting {scope other : List BindingName} {source otherSource : Draft}
    (same : Matches scope other source otherSource) (expected : ValueType) :
    Matches scope other (Draft.expecting expected source)
      (Draft.expecting expected otherSource) := by
  cases same with
  | read same segments _ => exact .read same segments expected
  | constant value => exact .constant value
  | binary operator sameLeft sameRight => exact .binary operator sameLeft sameRight
  | unary operator same => exact .unary operator same
  | map sameSource sameTransform => exact .map sameSource sameTransform
  | flatten same => exact .flatten same
  | debug label same => exact .debug label same

end Draft

/-! ### Renaming -/

def Origin.names : Origin → List BindingName
  | .binding name => [name]
  | _ => []

def Origin.rename (change : BindingName → BindingName) : Origin → Origin
  | .binding name => .binding (change name)
  | other => other

namespace Draft

def names : Draft → List BindingName
  | .constant _ => []
  | .read origin _ _ => origin.names
  | .binary _ left right => names left ++ names right
  | .unary _ operand => names operand
  | .map source name transform => names source ++ name :: names transform
  | .flatten source => names source
  | .debug _ source => names source

def rename (change : BindingName → BindingName) : Draft → Draft
  | .constant value => .constant value
  | .read origin segments expected => .read (origin.rename change) segments expected
  | .binary operator left right => .binary operator (rename change left) (rename change right)
  | .unary operator operand => .unary operator (rename change operand)
  | .map source name transform =>
      .map (rename change source) (change name) (rename change transform)
  | .flatten source => .flatten (rename change source)
  | .debug label source => .debug label (rename change source)

end Draft

/-- Whether a change of names keeps some names apart. -/
def Separates (change : BindingName → BindingName) (names : List BindingName) : Prop :=
  ∀ first ∈ names, ∀ second ∈ names, change first = change second → first = second

section Renaming

variable {change : BindingName → BindingName}

theorem Separates.of_subset {names others : List BindingName} (separate : Separates change others)
    (subset : names ⊆ others) : Separates change names := by
  intro first isFirst second isSecond
  exact separate first (subset isFirst) second (subset isSecond)

private theorem bindingIndex?_map {name : BindingName} {scope : List BindingName}
    (separate : Separates change (name :: scope)) :
    bindingIndex? (change name) (scope.map change) = bindingIndex? name scope := by
  induction scope with
  | nil => rfl
  | cons inner outer ih =>
      have further := ih (separate.of_subset (List.cons_subset_cons name
        (List.subset_cons_self inner outer)))
      rw [List.map_cons, bindingIndex?, bindingIndex?, further]
      by_cases same : inner = name
      · rw [same, if_pos rfl, if_pos rfl]
      · have changed : change inner ≠ change name := by
          intro sameChanged
          exact same (separate inner (by simp) name (by simp) sameChanged)
        rw [if_neg same, if_neg changed]

private theorem Origin.matches_rename {origin : Origin} {scope : List BindingName}
    (separate : Separates change (origin.names ++ scope)) :
    origin.Matches scope (scope.map change) (origin.rename change) := by
  cases origin with
  | binding name => exact .element (bindingIndex?_map separate).symm
  | _ =>
      apply Origin.Matches.slot
      intro name impossible
      cases impossible

private theorem Draft.matches_rename {draft : Draft} {scope : List BindingName}
    (separate : Separates change (draft.names ++ scope)) :
    Draft.Matches scope (scope.map change) draft (draft.rename change) := by
  induction draft generalizing scope with
  | constant value => exact .constant value
  | read origin segments expected =>
      exact .read (Origin.matches_rename separate) segments expected
  | binary operator left right ihLeft ihRight =>
      apply Draft.Matches.binary
      · exact ihLeft (separate.of_subset (by simp [names]))
      · exact ihRight (separate.of_subset (by simp [names]))
  | unary operator operand ih => exact .unary operator (ih separate)
  | map source name transform ihSource ihTransform =>
      apply Draft.Matches.map
      · exact ihSource (separate.of_subset (by grind [names]))
      · -- Inside the transform the name is one of the scope.
        have inside := @ihTransform (name :: scope)
        exact inside (separate.of_subset (by grind [names]))
  | flatten source ih => exact .flatten (ih separate)
  | debug label source ih => exact .debug label (ih separate)

end Renaming

/-! ### Names from a supply -/

/-- A map over what has been drafted, with the next name of the supply for its element.  `body`
drafts the transform, given this name and how many names are taken by then. -/
def Draft.mapNext (supply : Nat → BindingName) (source : Draft × Nat)
    (body : BindingName → Nat → Draft × Nat) : Draft × Nat :=
  let name := supply source.2
  let transform := body name (source.2 + 1)
  (.map source.1 name transform.1, transform.2)

namespace Term

/-- The draft of a term and how many names are taken after it, when `taken` are before.  The
elements in scope come with their names. -/
def buildIn (supply : Nat → BindingName) (elements : List (ElementType × BindingName))
    (taken : Nat) : Term → Draft × Nat
  | .constant _ value => (.constant value, taken)
  | .read slot segments type => (.read (Slot.origin slot) segments type, taken)
  | .element index =>
      match elements[index]? with
      | some (bound, name) => (.read (.binding name) [] bound.expected, taken)
      | none => (.read (.binding (supply taken)) [] .any, taken + 1)
  | .stray type => (.read (.binding (supply taken)) [] type, taken + 1)
  | .step source segment type =>
      let built := buildIn supply elements taken source
      (Draft.enter (supply built.2) segment type built.1, built.2 + 1)
  | .map source body =>
      let element : ElementType := ⟨typeIn (elements.map Prod.fst) source, .any⟩
      Draft.mapNext supply (buildIn supply elements taken source) fun name taken =>
        buildIn supply ((element, name) :: elements) taken body
  | .mapEach source body | .mapSome source body =>
      let content := (typeIn (elements.map Prod.fst) source).content
      Draft.mapNext supply (buildIn supply elements taken source) fun name taken =>
        buildIn supply ((⟨content, content⟩, name) :: elements) taken body
  | .flatMap source body =>
      let content := (typeIn (elements.map Prod.fst) source).content
      let built := Draft.mapNext supply (buildIn supply elements taken source) fun name taken =>
        buildIn supply ((⟨content, content⟩, name) :: elements) taken body
      (.flatten built.1, built.2)
  | .flatten source =>
      let built := buildIn supply elements taken source
      (.flatten built.1, built.2)
  | .debug label source =>
      let built := buildIn supply elements taken source
      (.debug label built.1, built.2)
  | .erase source =>
      let built := buildIn supply elements taken source
      (Draft.expecting .any built.1, built.2)
  | .unary operator operand =>
      let built := buildIn supply elements taken operand
      (.unary operator built.1, built.2)
  | .binary operator left right =>
      let first := buildIn supply elements taken left
      let second := buildIn supply elements first.2 right
      (.binary operator first.1 second.1, second.2)

def build (supply : Nat → BindingName) (term : Term) : Draft :=
  (term.buildIn supply [] 0).1

private theorem le_buildIn (supply : Nat → BindingName)
    (elements : List (ElementType × BindingName))
    (taken : Nat) (term : Term) : taken ≤ (term.buildIn supply elements taken).2 := by
  induction term generalizing elements taken with
  | constant type value => exact Nat.le_refl taken
  | read slot segments type => exact Nat.le_refl taken
  | element index =>
      unfold buildIn
      split
      · exact Nat.le_refl taken
      · exact Nat.le_succ taken
  | stray type => exact Nat.le_succ taken
  | step source segment type ih => exact Nat.le_succ_of_le (ih elements taken)
  | map source body ihSource ihBody | mapEach source body ihSource ihBody
  | mapSome source body ihSource ihBody | flatMap source body ihSource ihBody =>
      have beforeMap := ihSource elements taken
      exact Nat.le_trans (Nat.le_succ_of_le beforeMap) (ihBody _ _)
  | flatten source ih => exact ih elements taken
  | debug label source ih => exact ih elements taken
  | erase source ih => exact ih elements taken
  | unary operator operand ih => exact ih elements taken
  | binary operator left right ihLeft ihRight =>
      exact Nat.le_trans (ihLeft elements taken) (ihRight elements _)

end Term

/-- Whether the names in scope are different ones, all taken from a supply already. -/
structure AreTaken (supply : Nat → BindingName) (scope : List BindingName) (taken : Nat) :
    Prop where
  distinct : scope.Nodup
  before : ∀ name ∈ scope, ∃ position < taken, name = supply position

namespace AreTaken

variable {supply : Nat → BindingName} {scope : List BindingName} {taken later : Nat}

theorem mono (areTaken : AreTaken supply scope taken) (notBefore : taken ≤ later) :
    AreTaken supply scope later := by
  refine ⟨areTaken.distinct, ?_⟩
  intro name inScope
  obtain ⟨position, isBefore, rfl⟩ := areTaken.before name inScope
  exact ⟨position, by omega, rfl⟩

private theorem next_notMem (injective : Function.Injective supply)
    (areTaken : AreTaken supply scope taken) : supply taken ∉ scope := by
  intro inScope
  obtain ⟨position, isBefore, same⟩ := areTaken.before _ inScope
  have samePosition := injective same
  omega

theorem cons (injective : Function.Injective supply) (areTaken : AreTaken supply scope taken) :
    AreTaken supply (supply taken :: scope) (taken + 1) := by
  refine ⟨List.nodup_cons.mpr ⟨areTaken.next_notMem injective, areTaken.distinct⟩, ?_⟩
  intro name inScope
  rcases List.mem_cons.mp inScope with rfl | inScope
  · exact ⟨taken, by omega, rfl⟩
  · exact (areTaken.mono (Nat.le_succ taken)).before name inScope

end AreTaken

/-- The names that a term's own draft has in scope, which count the maps. -/
def countNames : Nat → List BindingName
  | 0 => []
  | count + 1 => count :: countNames count

private theorem countNames_areTaken (count : Nat) : AreTaken id (countNames count) count := by
  induction count with
  | zero => exact ⟨List.nodup_nil, by simp [countNames]⟩
  | succ count ih => exact ih.cons Function.injective_id

private theorem getElem?_countNames {count index : Nat} (inScope : index < count) :
    (countNames count)[index]? = some (count - 1 - index) := by
  induction count generalizing index with
  | zero => omega
  | succ count ih =>
      cases index with
      | zero => rfl
      | succ index =>
          rw [countNames, List.getElem?_cons_succ, ih (by omega)]
          congr 1
          omega

private theorem bindingIndex?_of_nodup {name : BindingName} {scope : List BindingName} {index : Nat}
    (distinct : scope.Nodup) (stands : scope[index]? = some name) :
    bindingIndex? name scope = some index := by
  obtain ⟨inScope, rfl⟩ := List.getElem?_eq_some_iff.mp stands
  have split := List.take_append_drop index scope
  rw [List.drop_eq_getElem_cons inScope] at split
  have innermost : scope[index] ∉ scope.take index := by
    rw [← split] at distinct
    intro earlier
    have apart := (List.nodup_append.mp distinct).2.2
    exact apart _ earlier _ (List.mem_cons_self ..) rfl
  have found := bindingIndex?_append innermost (scope.drop (index + 1))
  rw [split, List.length_take, Nat.min_eq_left (by omega)] at found
  exact found

private theorem matches_unbound {supply : Nat → BindingName} (injective : Function.Injective supply)
    {scope : List BindingName} {taken : Nat} (areTaken : AreTaken supply scope taken)
    (count : Nat) (expected : ValueType) :
    Draft.Matches scope (countNames count) (.read (.binding (supply taken)) [] expected)
      (.read (.binding count) [] expected) := by
  -- Neither name is one of its scope, so that both references are to no map.
  have counted := countNames_areTaken count
  apply Draft.Matches.read
  apply Origin.Matches.element
  rw [bindingIndex?_of_notMem (areTaken.next_notMem injective)]
  exact (bindingIndex?_of_notMem (counted.next_notMem Function.injective_id)).symm

/-- What a term builds with the names of a supply matches its own draft. -/
theorem Term.buildIn_matches {supply : Nat → BindingName} (injective : Function.Injective supply)
    (term : Term) {elements : List (ElementType × BindingName)} {taken : Nat}
    (areTaken : AreTaken supply (elements.map Prod.snd) taken) :
    Draft.Matches (elements.map Prod.snd) (countNames elements.length)
      (term.buildIn supply elements taken).1 (term.draftIn (elements.map Prod.fst)) := by
  induction term generalizing elements taken with
  | constant type value => exact .constant value
  | read slot segments type =>
      apply Draft.Matches.read
      apply Origin.Matches.slot
      intro name impossible
      cases slot <;> cases impossible
  | element index =>
      unfold buildIn draftIn
      rw [List.getElem?_map, List.length_map]
      cases bound : elements[index]? with
      | none => exact matches_unbound injective areTaken elements.length .any
      | some element =>
          obtain ⟨inScope, -⟩ := List.getElem?_eq_some_iff.mp bound
          have named : (elements.map Prod.snd)[index]? = some element.2 := by
            rw [List.getElem?_map, bound]
            rfl
          have counted := countNames_areTaken elements.length
          apply Draft.Matches.read
          apply Origin.Matches.element
          rw [bindingIndex?_of_nodup areTaken.distinct named,
            bindingIndex?_of_nodup counted.distinct (getElem?_countNames inScope)]
  | stray type =>
      unfold buildIn draftIn
      rw [List.length_map]
      exact matches_unbound injective areTaken elements.length type
  | step source segment type ih => exact (ih areTaken).enter _ _ segment type
  | map source body ihSource ihBody | mapEach source body ihSource ihBody
  | mapSome source body ihSource ihBody =>
      have outside := areTaken.mono (le_buildIn supply elements taken source)
      have inside (element : ElementType) :=
        @ihBody ((element, _) :: elements) _ (outside.cons injective)
      unfold buildIn draftIn
      rw [List.length_map]
      exact .map (ihSource areTaken) (inside _)
  | flatMap source body ihSource ihBody =>
      have outside := areTaken.mono (le_buildIn supply elements taken source)
      have inside (element : ElementType) :=
        @ihBody ((element, _) :: elements) _ (outside.cons injective)
      unfold buildIn draftIn
      rw [List.length_map]
      exact .flatten (.map (ihSource areTaken) (inside _))
  | flatten source ih => exact .flatten (ih areTaken)
  | debug label source ih => exact .debug label (ih areTaken)
  | erase source ih => exact (ih areTaken).expecting .any
  | unary operator operand ih => exact .unary operator (ih areTaken)
  | binary operator left right ihLeft ihRight =>
      have between := areTaken.mono (le_buildIn supply elements taken left)
      exact .binary operator (ihLeft areTaken) (ihRight between)

private theorem Term.lower_build {supply : Nat → BindingName}
    (injective : Function.Injective supply)
    (term : Term) : (term.build supply).lower = term.lower := by
  have nothingTaken : AreTaken supply [] 0 := ⟨List.nodup_nil, by simp⟩
  have matched : Draft.Matches [] [] (term.build supply) term.draft :=
    @Term.buildIn_matches supply injective term [] 0 nothingTaken
  exact matched.lowerIn_eq

private theorem Provision.compile_congr {draft other : Draft} (same : draft.lower = other.lower)
    (place : SchemaPlace) (name : String) (type : TypeReference) (shape : Shape)
    (arguments : OrderedMap FieldArgument) (output : ValueType) :
    Provision.compile place name type shape arguments (.resolver draft output) =
      Provision.compile place name type shape arguments (.resolver other output) := by
  simp only [Provision.compile, same]

/-- Lowering and compilation do not depend on the names of elements.  Any change of names that
keeps those of the draft apart leaves the lowered form, or the fault, as it is, and so the
compiled field.  A term can be built any number of times, each time with whatever different names
there are for its elements, and compiles to the same field. -/
theorem Draft.lower_rename :
    (∀ (draft : Draft) (change : BindingName → BindingName),
        Separates change draft.names →
        (draft.rename change).lower = draft.lower ∧
          ∀ (place : SchemaPlace) (name : String) (type : TypeReference) (shape : Shape)
            (arguments : OrderedMap FieldArgument) (output : ValueType),
            Provision.compile place name type shape arguments
                (.resolver (draft.rename change) output) =
              Provision.compile place name type shape arguments (.resolver draft output)) ∧
      ∀ (term : Term) (first second : Nat → BindingName), Function.Injective first →
        Function.Injective second →
        (term.build first).lower = (term.build second).lower ∧
          (term.build first).lower = term.lower ∧
          ∀ (place : SchemaPlace) (name : String) (type : TypeReference) (shape : Shape)
            (arguments : OrderedMap FieldArgument) (output : ValueType),
            Provision.compile place name type shape arguments
                (.resolver (term.build first) output) =
              Provision.compile place name type shape arguments
                (.resolver (term.build second) output) := by
  constructor
  · intro draft change separate
    have atTop : Separates change (draft.names ++ []) := by
      rw [List.append_nil]
      exact separate
    have matched : Draft.Matches [] [] draft (draft.rename change) := Draft.matches_rename atTop
    have same : (draft.rename change).lower = draft.lower := matched.lowerIn_eq.symm
    exact ⟨same, Provision.compile_congr same⟩
  · intro term first second firstInjective secondInjective
    have firstLowers := term.lower_build firstInjective
    have same := firstLowers.trans (term.lower_build secondInjective).symm
    exact ⟨same, firstLowers, Provision.compile_congr same⟩

/-- Two maps of one name, one inside the other, still have it in common.  The cells of rows, each
with the first one of its row added, are built with odd names and with names in steps of three. -/
theorem Draft.lower_rename_movedCells :
    let rows : Term := .read .named [.key "args", .key "rows"] (.sequence (.sequence .int))
    let moved : Term := .mapEach rows (.mapEach (.element 0)
      (.binary .add (.element 0) (.step (.flatten (.element 1)) (.index 0) .int)))
    (Draft.movedCells.rename fun name => 7 - name).lower = Draft.movedCells.lower ∧
      (∃ expression, Draft.movedCells.lower = .ok expression) ∧
      (moved.build fun position => 2 * position + 1).lower =
        (moved.build fun position => 3 * position).lower ∧
      ∃ expression, (moved.build fun position => 3 * position).lower = .ok expression := by
  intro rows moved
  have separate : Separates (fun name => 7 - name) Draft.movedCells.names := by
    unfold Separates
    decide
  have odd : Function.Injective fun position => 2 * position + 1 := by
    intro first second same
    simp only at same
    omega
  have threes : Function.Injective fun position => 3 * position := by
    intro first second same
    simp only at same
    omega
  refine ⟨?_, ⟨_, rfl⟩, ?_, ⟨_, rfl⟩⟩
  · exact (Draft.lower_rename.1 Draft.movedCells _ separate).1
  · exact (Draft.lower_rename.2 moved _ _ odd threes).1

end StagedResolver
