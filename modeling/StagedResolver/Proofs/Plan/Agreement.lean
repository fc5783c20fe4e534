/-
Occurrences of one key that agree.

All occurrences of a key have to select one field and give the same arguments.  Only the first
one is compared with the others, from one side.  As long as no occurrence gives an argument
twice, this compares any two of them, and their order does not matter.  An occurrence that gives
different values for one argument does not even agree with itself.
-/
import StagedResolver.Proofs.Document.Reading
import StagedResolver.Proofs.Plan.Faults
import StagedResolver.Proofs.Plan.Scattering

namespace StagedResolver

namespace FieldNode

def NamesApart (node : FieldNode) : Prop := node.given.DistinctKeys

/-- Whether two nodes give the same arguments, as sets of names and values. -/
def SameArguments (left right : FieldNode) : Prop :=
  Entries.Correspond InputValue.Agrees left.given right.given

/-- Whether two nodes select different fields or give different arguments. -/
def Differ (left right : FieldNode) : Prop :=
  left.name.item ≠ right.name.item ∨ ¬ left.SameArguments right

instance (node : FieldNode) : Decidable node.NamesApart :=
  inferInstanceAs (Decidable (List.Nodup _))

instance (left right : FieldNode) : Decidable (left.SameArguments right) :=
  inferInstanceAs (Decidable (Entries.Correspond _ _ _))

instance (left right : FieldNode) : Decidable (left.Differ right) :=
  inferInstanceAs (Decidable (_ ∨ _))

/-- Whether the arguments of a node are such as can be read. -/
def IsRead (node : FieldNode) : Prop :=
  ∃ cursor rest, Document.Grammar.arguments cursor = some (node.arguments, rest)

variable {node left right last : FieldNode}

theorem IsRead.wellFormed (isRead : node.IsRead) {entry : String × InputValue}
    (isGiven : entry ∈ node.given) : entry.2.WellFormed := by
  obtain ⟨cursor, rest, read⟩ := isRead
  obtain ⟨argument, member, rfl⟩ := List.mem_map.mp isGiven
  exact Document.Grammar.arguments_gives cursor _ rest read argument member

private theorem IsRead.sameArguments_self (isRead : node.IsRead) : node.SameArguments node :=
  .refl fun _ isGiven => (isRead.wellFormed isGiven).agrees_self

theorem SameArguments.symm (same : left.SameArguments right) (leftRead : left.IsRead)
    (rightRead : right.IsRead) : right.SameArguments left :=
  Entries.Correspond.symm same fun _ inLeft _ inRight =>
    .symm (leftRead.wellFormed inLeft) (rightRead.wellFormed inRight)

theorem SameArguments.trans (same : left.SameArguments right) (further : right.SameArguments last)
    (leftRead : left.IsRead) (rightRead : right.IsRead) (lastRead : last.IsRead) :
    left.SameArguments last :=
  Entries.Correspond.trans same further fun _ inLeft _ inRight _ inLast =>
    .trans (leftRead.wellFormed inLeft) (rightRead.wellFormed inRight)
      (lastRead.wellFormed inLast)

/-- Where no argument is given twice, comparing from one side is comparing sets. -/
theorem argumentsAgree_iff_same (leftRead : left.IsRead) (rightRead : right.IsRead)
    (leftApart : left.NamesApart) (rightApart : right.NamesApart) :
    left.argumentsAgree right = true ↔ left.SameArguments right := by
  rw [argumentsAgree_iff, SameArguments, Entries.correspond_iff leftApart rightApart]
  refine and_congr_right fun _ => forall₂_congr fun entry inLeft => ?_
  refine exists_congr fun other => and_congr_right fun found => ?_
  have leftFormed := leftRead.wellFormed inLeft
  have rightFormed := rightRead.wellFormed (Entries.mem_of_find? found)
  exact ⟨.symm rightFormed leftFormed, .symm leftFormed rightFormed⟩

/-- The arguments of a node agree with themselves when all values of one argument do. -/
theorem argumentsAgree_self_iff (isRead : node.IsRead) : node.argumentsAgree node = true ↔
    ∀ entry ∈ node.given, ∀ other ∈ node.given, other.1 = entry.1 → entry.2.Agrees other.2 := by
  rw [argumentsAgree_iff]
  constructor
  · rintro ⟨-, agrees⟩ entry isGiven other otherGiven sameName
    obtain ⟨first, found, agreesEntry⟩ := agrees entry isGiven
    obtain ⟨_, foundAgain, agreesOther⟩ := agrees other otherGiven
    rw [sameName, found] at foundAgain
    cases foundAgain
    have firstFormed := isRead.wellFormed (Entries.mem_of_find? found)
    have formed := isRead.wellFormed isGiven
    exact (agreesEntry.symm firstFormed formed).trans formed firstFormed
      (isRead.wellFormed otherGiven) agreesOther
  · intro agree
    refine ⟨rfl, fun entry isGiven => ?_⟩
    cases found : node.given.find? entry.1 with
    | none =>
        have unknown := Entries.find?_eq_none_iff.mp found
        exact absurd (List.mem_map.mpr ⟨entry, isGiven, rfl⟩) unknown
    | some first =>
        exact ⟨first, rfl, agree _ (Entries.mem_of_find? found) entry isGiven rfl⟩

private theorem conflict?_eq_none_iff (key : String) (leftRead : left.IsRead)
    (rightRead : right.IsRead)
    (leftApart : left.NamesApart) (rightApart : right.NamesApart) :
    left.conflict? key right = none ↔ ¬ left.Differ right := by
  rw [conflict?_eq_none, argumentsAgree_iff_same leftRead rightRead leftApart rightApart, Differ,
    not_or, not_not, not_not]
  exact and_congr_left fun _ => eq_comm

private theorem IsRead.not_differ_self (isRead : node.IsRead) : ¬ node.Differ node := by
  rw [Differ, not_or, not_not, not_not]
  exact ⟨rfl, isRead.sameArguments_self⟩

private theorem not_differ_of_not_differ (leftSame : ¬ node.Differ left)
    (rightSame : ¬ node.Differ right)
    (isRead : node.IsRead) (leftRead : left.IsRead) (rightRead : right.IsRead) :
    ¬ left.Differ right := by
  simp only [Differ, not_or, not_not] at leftSame rightSame ⊢
  obtain ⟨leftName, leftArguments⟩ := leftSame
  obtain ⟨rightName, rightArguments⟩ := rightSame
  exact ⟨leftName.symm.trans rightName, (leftArguments.symm isRead leftRead).trans rightArguments
    leftRead isRead rightRead⟩

end FieldNode

/-! ### Groups -/

namespace Group

def nodes (group : Group) : List FieldNode := group.occurrences.map Occurrence.node

/-- Whether a group is rejected for its nodes, whatever it is planned with. -/
def IsRejected (key : String) (group : Group) : Prop :=
  ∃ fault, ((∃ first other position, fault = .differentFields key first other position) ∨
      ∃ position, fault = .differentArguments key position) ∧
    ∀ (scope : PlanScope)
      (planInner : ObjectIndex → List (List Selection) → Except PlanError Plan)
      (object : ObjectType), scope.planGroup planInner object key group = .error fault

variable {group : Group} {key : String}

private theorem isRejected_iff_conflict? : group.IsRejected key ↔ group.conflict? key ≠ none := by
  constructor
  · rintro ⟨fault, kind, rejected⟩ noConflict
    have planned := rejected ⟨⟨0, []⟩, .empty, ⟨[], []⟩, .selection⟩
      (fun _ _ => .error .tooDeep) ⟨"", .empty⟩
    simp only [PlanScope.planGroup, noConflict, PlanScope.planTypename] at planned
    rcases kind with ⟨first, other, position, rfl⟩ | ⟨position, rfl⟩
    all_goals
      split at planned
      · split at planned <;> cases planned
      · cases planned
  · intro conflicts
    obtain ⟨fault, isConflict⟩ := Option.ne_none_iff_exists'.mp conflicts
    obtain ⟨occurrence, _, ofNode⟩ := List.exists_of_findSome?_eq_some isConflict
    refine ⟨fault, FieldNode.kind_of_conflict ofNode, fun scope planInner object => ?_⟩
    simp only [PlanScope.planGroup, isConflict]

private theorem not_isRejected_iff :
    ¬ group.IsRejected key ↔
      ∀ other ∈ group.others, group.first.node.conflict? key other.node = none := by
  rw [isRejected_iff_conflict?, not_not, conflict?, List.findSome?_eq_none_iff]

/-- Without repeated arguments the first node stands for all of them: when none differs from it,
no two differ. -/
theorem not_isRejected_iff_same (read : ∀ node ∈ group.nodes, node.IsRead)
    (apart : ∀ node ∈ group.nodes, node.NamesApart) : ¬ group.IsRejected key ↔
      ∀ left ∈ group.nodes, ∀ right ∈ group.nodes, ¬ left.Differ right := by
  have isFirst : group.first.node ∈ group.nodes := List.mem_cons_self ..
  have isOther {other : Occurrence} (member : other ∈ group.others) :
      other.node ∈ group.nodes := List.mem_cons_of_mem _ (List.mem_map.mpr ⟨other, member, rfl⟩)
  have comparesFirst {other : Occurrence} (member : other ∈ group.others) :
      group.first.node.conflict? key other.node = none ↔
        ¬ group.first.node.Differ other.node :=
    FieldNode.conflict?_eq_none_iff key (read _ isFirst) (read _ (isOther member))
      (apart _ isFirst) (apart _ (isOther member))
  rw [not_isRejected_iff]
  constructor
  · intro noConflict
    -- The first node does not differ from itself either, so that it stands between any two.
    have sameAsFirst (node : FieldNode) (member : node ∈ group.nodes) :
        ¬ group.first.node.Differ node := by
      rcases List.mem_cons.mp member with rfl | further
      · exact (read _ isFirst).not_differ_self
      · obtain ⟨other, among, rfl⟩ := List.mem_map.mp further
        exact (comparesFirst among).mp (noConflict other among)
    intro left inLeft right inRight
    exact FieldNode.not_differ_of_not_differ (sameAsFirst left inLeft) (sameAsFirst right inRight)
      (read _ isFirst) (read left inLeft) (read right inRight)
  · intro noDifference other member
    exact (comparesFirst member).mpr (noDifference _ isFirst _ (isOther member))

private theorem not_isRejected_iff_self (several : group.others ≠ [])
    (alike : ∀ other ∈ group.others, other.node.asks = group.first.node.asks) :
    ¬ group.IsRejected key ↔ group.first.node.argumentsAgree group.first.node = true := by
  have self : group.first.node.conflict? key group.first.node = none ↔
      group.first.node.argumentsAgree group.first.node = true := by
    rw [FieldNode.conflict?_eq_none]
    exact and_iff_right rfl
  rw [not_isRejected_iff, ← self]
  constructor
  · intro noConflict
    obtain ⟨other, member⟩ := List.exists_mem_of_ne_nil _ several
    exact (FieldNode.conflict?_eq_none_congr (alike other member)).mp (noConflict other member)
  · intro noConflict other member
    exact (FieldNode.conflict?_eq_none_congr (alike other member)).mpr noConflict

/-- As long as no node gives an argument twice, a group is rejected exactly when two of its nodes
differ, whatever their order.  A group of nodes that all ask for the same is rejected as well when
they give values that differ for one argument, and only then. -/
theorem isRejected_exact (read : ∀ node ∈ group.nodes, node.IsRead) (key : String) :
    ((∀ node ∈ group.nodes, node.NamesApart) →
        (group.IsRejected key ↔
            ∃ left ∈ group.nodes, ∃ right ∈ group.nodes, left.Differ right) ∧
          ∀ other : Group, other.nodes.Perm group.nodes →
            (other.IsRejected key ↔ group.IsRejected key)) ∧
      (group.others ≠ [] →
        (∀ other ∈ group.others, other.node.asks = group.first.node.asks) →
          (group.IsRejected key ↔
            ∃ entry ∈ group.first.node.given, ∃ other ∈ group.first.node.given,
              other.1 = entry.1 ∧ ¬ entry.2.Agrees other.2)) := by
  constructor
  · intro apart
    have accepted : ¬ group.IsRejected key ↔
        ∀ left ∈ group.nodes, ∀ right ∈ group.nodes, ¬ left.Differ right :=
      not_isRejected_iff_same read apart
    constructor
    · rw [← not_iff_not, accepted]
      simp only [not_exists, not_and]
    · intro other permuted
      have otherAccepted : ¬ other.IsRejected key ↔
          ∀ left ∈ other.nodes, ∀ right ∈ other.nodes, ¬ left.Differ right := by
        apply not_isRejected_iff_same
        · exact fun node member => read node (permuted.mem_iff.mp member)
        · exact fun node member => apart node (permuted.mem_iff.mp member)
      rw [← not_iff_not, accepted, otherAccepted]
      simp only [permuted.mem_iff]
  · intro several alike
    rw [← not_iff_not, not_isRejected_iff_self several alike,
      FieldNode.argumentsAgree_self_iff (read _ (List.mem_cons_self ..))]
    simp only [not_exists, not_and, not_not]

end Group

/-! ### Nodes from texts -/

def FieldNode.reading (text : String) : FieldNode :=
  let found := Document.Grammar.arguments (Text.Cursor.ofString text)
  ⟨none, ⟨"int", .start⟩, (found.map Prod.fst).getD [], []⟩

private theorem FieldNode.isRead_reading {text : String}
    (isSome : (Document.Grammar.arguments (Text.Cursor.ofString text)).isSome = true) :
    (reading text).IsRead := by
  obtain ⟨found, read⟩ := Option.isSome_iff_exists.mp isSome
  refine ⟨Text.Cursor.ofString text, found.2, ?_⟩
  rw [reading, read]
  rfl

namespace Group

def ofNodes (first : FieldNode) (others : List FieldNode) : Group :=
  ⟨⟨first, []⟩, others.map fun node => ⟨node, []⟩⟩

private theorem nodes_ofNodes (first : FieldNode) (others : List FieldNode) :
    (ofNodes first others).nodes = first :: others := by
  simp [nodes, occurrences, ofNodes, Function.comp_def]

private theorem forall_nodes_ofNodes {first : FieldNode} {others : List FieldNode}
    {holds : FieldNode → Prop} : (∀ node ∈ (ofNodes first others).nodes, holds node) ↔
      holds first ∧ ∀ other ∈ others, holds other := by
  rw [nodes_ofNodes, List.forall_mem_cons]

theorem isRejected_exact_ofReading :
    let first : FieldNode := .reading "(x: 1, y: \x7ba: 2, b: [true]\x7d)"
    let reordered : FieldNode := .reading "(y: \x7bb: [true], a: 2\x7d, x: 1)"
    let fewer : FieldNode := .reading "(x: 1)"
    let twice : FieldNode := .reading "(x: 1, x: 2)"
    ¬ (ofNodes first [reordered]).IsRejected "int" ∧
      (ofNodes first [reordered, fewer]).IsRejected "int" ∧
      (ofNodes fewer [first, reordered]).IsRejected "int" ∧
      (ofNodes twice [twice]).IsRejected "int" := by
  intro first reordered fewer twice
  have firstRead : first.IsRead := FieldNode.isRead_reading (by decide +kernel)
  have reorderedRead : reordered.IsRead := FieldNode.isRead_reading (by decide +kernel)
  have fewerRead : fewer.IsRead := FieldNode.isRead_reading (by decide +kernel)
  have twiceRead : twice.IsRead := FieldNode.isRead_reading (by decide +kernel)
  have agreeing : ∀ node ∈ (ofNodes first [reordered]).nodes, node.IsRead :=
    forall_nodes_ofNodes.mpr ⟨firstRead, List.forall_mem_singleton.mpr reorderedRead⟩
  have differing : ∀ node ∈ (ofNodes first [reordered, fewer]).nodes, node.IsRead :=
    forall_nodes_ofNodes.mpr ⟨firstRead, List.forall_mem_cons.mpr
      ⟨reorderedRead, List.forall_mem_singleton.mpr fewerRead⟩⟩
  have copies : ∀ node ∈ (ofNodes twice [twice]).nodes, node.IsRead :=
    forall_nodes_ofNodes.mpr ⟨twiceRead, List.forall_mem_singleton.mpr twiceRead⟩
  obtain ⟨agreeingLaw, -⟩ := (isRejected_exact agreeing "int").1 (by decide +kernel)
  obtain ⟨differingLaw, anyOrder⟩ := (isRejected_exact differing "int").1 (by decide +kernel)
  have rejected : (ofNodes first [reordered, fewer]).IsRejected "int" :=
    differingLaw.mpr (by decide +kernel)
  refine ⟨?_, rejected, ?_, ?_⟩
  · rw [agreeingLaw]
    decide +kernel
  · refine (anyOrder (ofNodes fewer [first, reordered]) ?_).mpr rejected
    rw [nodes_ofNodes, nodes_ofNodes]
    exact @List.perm_append_comm _ [fewer] [first, reordered]
  · refine ((isRejected_exact copies "int").2 (List.cons_ne_nil _ _) ?_).mpr (by decide +kernel)
    intro other member
    cases List.mem_singleton.mp member
    rfl

/-- A node that gives two values for one argument is rejected next to its copy.  Next to one that
gives the first of the two values twice it is rejected or accepted, depending on which comes
first. -/
theorem copies_rejected :
    let once : FieldNode := .reading "(x: 1, x: 1)"
    let twice : FieldNode := .reading "(x: 1, x: 2)"
    once.IsRead ∧ twice.IsRead ∧
      ((ofNodes twice [twice]).IsRejected "int" ∧ ¬ twice.Differ twice) ∧
      (¬ (ofNodes once [twice]).IsRejected "int" ∧ once.Differ twice) ∧
      (ofNodes twice [once]).IsRejected "int" ∧
      (¬ ∀ (group : Group) (key : String), (∀ node ∈ group.nodes, node.IsRead) →
        (group.IsRejected key ↔
          ∃ left ∈ group.nodes, ∃ right ∈ group.nodes, left.Differ right)) ∧
      ¬ ∀ (group other : Group) (key : String), (∀ node ∈ group.nodes, node.IsRead) →
        other.nodes.Perm group.nodes → (other.IsRejected key ↔ group.IsRejected key) := by
  intro once twice
  have onceRead : once.IsRead := FieldNode.isRead_reading (by decide +kernel)
  have twiceRead : twice.IsRead := FieldNode.isRead_reading (by decide +kernel)
  have rejected {first other : FieldNode}
      (conflicts : first.conflict? "int" other ≠ none) :
      (ofNodes first [other]).IsRejected "int" := by
    rw [isRejected_iff_conflict?]
    intro accepted
    exact conflicts (List.findSome?_eq_none_iff.mp accepted ⟨other, []⟩ (List.mem_singleton_self _))
  have copies : (ofNodes twice [twice]).IsRejected "int" := rejected (by decide +kernel)
  have reversed : (ofNodes twice [once]).IsRejected "int" := rejected (by decide +kernel)
  have accepted : ¬ (ofNodes once [twice]).IsRejected "int" := by
    rw [not_isRejected_iff]
    decide +kernel
  have twiceSame : ¬ twice.Differ twice := twiceRead.not_differ_self
  have copiesRead : ∀ node ∈ (ofNodes twice [twice]).nodes, node.IsRead :=
    forall_nodes_ofNodes.mpr ⟨twiceRead, List.forall_mem_singleton.mpr twiceRead⟩
  have bothRead : ∀ node ∈ (ofNodes once [twice]).nodes, node.IsRead :=
    forall_nodes_ofNodes.mpr ⟨onceRead, List.forall_mem_singleton.mpr twiceRead⟩
  refine ⟨onceRead, twiceRead, ⟨copies, twiceSame⟩, ⟨accepted, by decide +kernel⟩, reversed, ?_, ?_⟩
  · intro claimed
    obtain ⟨left, isLeft, right, isRight, differ⟩ := (claimed _ "int" copiesRead).mp copies
    rw [nodes_ofNodes] at isLeft isRight
    simp only [List.mem_cons, List.not_mem_nil, or_false, or_self] at isLeft isRight
    rw [isLeft, isRight] at differ
    exact twiceSame differ
  · intro claimed
    refine accepted ((claimed _ (ofNodes twice [once]) "int" bothRead ?_).mp reversed)
    rw [nodes_ofNodes, nodes_ofNodes]
    exact .swap once twice []

end Group

end StagedResolver
