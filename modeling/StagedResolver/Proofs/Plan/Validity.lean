/-
Which selections are valid.

Selections are valid exactly when no fragment they lead to leads to itself and no fields
are nested in them beyond the limit.  Without a limit all that can be wrong is a cycle,
and the fragments of the report follow one another in the document.
-/
import Mathlib.Data.List.Chain
import StagedResolver.Plan.Validity
import StagedResolver.Proofs.Document.Reachability
import StagedResolver.Proofs.Success

namespace StagedResolver

namespace Document

variable {document : Document} {limit : Option Nat} {entered : List String} {depth : Nat}
variable {selections rest inner : List Selection} {node : FieldNode}
variable {condition : Option (Located String)} {directives : List Directive}
variable {name : Located String} {fragment : Fragment}

private theorem walk_field (allowed : ¬ exceeds limit (depth + 1) = true) :
    document.walk limit entered depth (.field node inner :: rest) = (do
      document.walk limit entered (depth + 1) inner
      document.walk limit entered depth rest) := by
  rw [walk, if_neg allowed]

theorem walk_entered (known : name.item ∈ entered) :
    document.walk limit entered depth (.spread name directives :: rest) =
      .error (.cycle (name.item :: entered).reverse name.position) := by
  rw [walk, dif_pos known]

theorem walk_unknown (fresh : name.item ∉ entered)
    (unknown : document.fragments.find? name.item = none) :
    document.walk limit entered depth (.spread name directives :: rest) =
      document.walk limit entered depth rest := by
  rw [walk, dif_neg fresh]
  split
  · rfl
  · rename_i found
    rw [unknown] at found
    cases found

theorem walk_known (fresh : name.item ∉ entered)
    (found : document.fragments.find? name.item = some fragment) :
    document.walk limit entered depth (.spread name directives :: rest) = (do
      document.walk limit (name.item :: entered) depth fragment.selections
      document.walk limit entered depth rest) := by
  rw [walk, dif_neg fresh]
  split
  · rename_i unknown
    rw [found] at unknown
    cases unknown
  · rename_i other otherFound
    rw [found] at otherFound
    cases otherFound
    rfl

/-- Whether nothing is wrong with selections at a depth of fields, inside the fragments
entered so far. -/
structure Valid (document : Document) (limit : Option Nat) (entered : List String)
    (depth : Nat) (selections : List Selection) : Prop where
  outside : ∀ name, document.Reaches name selections → name ∉ entered
  acyclic : ∀ name, document.Reaches name selections → ¬ document.ReachesItself name
  shallow : ∀ length, document.Nests (length + 1) selections →
    exceeds limit (depth + (length + 1)) = false

theorem valid_nil : document.Valid limit entered depth [] where
  outside _ reaches := absurd reaches not_reaches_nil
  acyclic _ reaches := absurd reaches not_reaches_nil
  shallow _ nests := absurd nests not_nests_nil

private theorem Valid.of_imp (valid : document.Valid limit entered depth selections)
    (reaches : ∀ name, document.Reaches name inner → document.Reaches name selections)
    (nests : ∀ length, document.Nests (length + 1) inner →
      document.Nests (length + 1) selections) : document.Valid limit entered depth inner where
  outside name below := valid.outside name (reaches name below)
  acyclic name below := valid.acyclic name (reaches name below)
  shallow length below := valid.shallow length (nests length below)

theorem valid_field_cons :
    document.Valid limit entered depth (.field node inner :: rest) ↔
      exceeds limit (depth + 1) = false ∧ document.Valid limit entered (depth + 1) inner ∧
        document.Valid limit entered depth rest := by
  have deeper (length : Nat) : depth + 1 + (length + 1) = depth + (length + 1 + 1) := by omega
  constructor
  · intro valid
    refine ⟨valid.shallow 0 (.field (.none inner)), ⟨?_, ?_, ?_⟩, valid.of_imp ?_ ?_⟩
    · exact fun name below => valid.outside name (reaches_field_cons.mpr (.inl below))
    · exact fun name below => valid.acyclic name (reaches_field_cons.mpr (.inl below))
    · intro length below
      rw [deeper]
      exact valid.shallow (length + 1) (.field below)
    · exact fun name later => reaches_field_cons.mpr (.inr later)
    · exact fun length later => .later later
  · rintro ⟨allowed, inside, others⟩
    refine ⟨?_, ?_, ?_⟩
    · intro name reaches
      rcases reaches_field_cons.mp reaches with below | later
      · exact inside.outside name below
      · exact others.outside name later
    · intro name reaches
      rcases reaches_field_cons.mp reaches with below | later
      · exact inside.acyclic name below
      · exact others.acyclic name later
    · intro length nests
      rcases nests_field_cons.mp nests with below | later
      · cases length with
        | zero => exact allowed
        | succ length =>
            rw [← deeper]
            exact inside.shallow length below
      · exact others.shallow length later

theorem valid_inline_cons :
    document.Valid limit entered depth (.inline condition directives inner :: rest) ↔
      document.Valid limit entered depth inner ∧ document.Valid limit entered depth rest := by
  constructor
  · intro valid
    refine ⟨valid.of_imp ?_ ?_, valid.of_imp ?_ ?_⟩
    · exact fun name below => reaches_inline_cons.mpr (.inl below)
    · exact fun length below => .inPlace below
    · exact fun name later => reaches_inline_cons.mpr (.inr later)
    · exact fun length later => .later later
  · rintro ⟨inside, others⟩
    refine ⟨?_, ?_, ?_⟩
    · intro name reaches
      rcases reaches_inline_cons.mp reaches with below | later
      · exact inside.outside name below
      · exact others.outside name later
    · intro name reaches
      rcases reaches_inline_cons.mp reaches with below | later
      · exact inside.acyclic name below
      · exact others.acyclic name later
    · intro length nests
      rcases nests_inline_cons.mp nests with below | later
      · exact inside.shallow length below
      · exact others.shallow length later

theorem valid_spread_cons :
    document.Valid limit entered depth (.spread name directives :: rest) ↔
      (name.item ∉ entered ∧ ∀ fragment, document.fragments.find? name.item = some fragment →
        document.Valid limit (name.item :: entered) depth fragment.selections) ∧
          document.Valid limit entered depth rest := by
  constructor
  · intro valid
    have here : document.Reaches name.item (.spread name directives :: rest) :=
      reaches_spread_cons.mpr (.inl (.inl rfl))
    refine ⟨⟨valid.outside _ here, fun fragment found => ?_⟩, valid.of_imp ?_ ?_⟩
    · have inside : document.Valid limit entered depth fragment.selections := by
        refine valid.of_imp ?_ ?_
        · exact fun other below =>
            reaches_spread_cons.mpr (.inl (.inr ⟨fragment, found, below⟩))
        · exact fun length below => .spread found below
      refine ⟨fun other below => ?_, inside.acyclic, inside.shallow⟩
      refine List.not_mem_cons_of_ne_of_not_mem ?_ (inside.outside other below)
      rintro rfl
      exact valid.acyclic _ here ⟨fragment, found, below⟩
    · exact fun other later => reaches_spread_cons.mpr (.inr later)
    · exact fun length later => .later later
  · rintro ⟨⟨fresh, inside⟩, others⟩
    refine ⟨?_, ?_, ?_⟩
    · intro other reaches
      rcases reaches_spread_cons.mp reaches with (rfl | ⟨fragment, found, below⟩) | later
      · exact fresh
      · exact List.not_mem_of_not_mem_cons ((inside fragment found).outside other below)
      · exact others.outside other later
    · intro other reaches
      rcases reaches_spread_cons.mp reaches with (rfl | ⟨fragment, found, below⟩) | later
      · rintro ⟨fragment, found, itself⟩
        exact (inside fragment found).outside _ itself (List.mem_cons_self ..)
      · exact (inside fragment found).acyclic other below
      · exact others.acyclic other later
    · intro length nests
      rcases nests_spread_cons.mp nests with ⟨fragment, found, below⟩ | later
      · exact (inside fragment found).shallow length below
      · exact others.shallow length later

/-- A walk succeeds exactly on valid selections. -/
theorem walk_eq_ok_iff :
    document.walk limit entered depth selections = .ok () ↔
      document.Valid limit entered depth selections := by
  -- The cases are those of the walk, and each is what validity says of the first selection.
  induction entered, depth, selections using walk.induct document limit with
  | case1 entered depth =>
      rw [walk]
      exact ⟨fun _ => valid_nil, fun _ => rfl⟩
  | case2 entered depth node inner rest above =>
      rw [walk, if_pos above, valid_field_cons, above]
      exact ⟨nofun, nofun⟩
  | case3 entered depth node inner rest allowed ihInner ihRest =>
      rw [walk_field allowed, bind_eq_ok, valid_field_cons, ← ihInner, ← ihRest]
      constructor
      · rintro ⟨_, inside, others⟩
        exact ⟨Bool.eq_false_iff.mpr allowed, inside, others⟩
      · rintro ⟨_, inside, others⟩
        exact ⟨(), inside, others⟩
  | case4 entered depth condition directives inner rest ihInner ihRest =>
      rw [walk, bind_eq_ok, valid_inline_cons, ← ihInner, ← ihRest]
      constructor
      · rintro ⟨_, inside, others⟩
        exact ⟨inside, others⟩
      · rintro ⟨inside, others⟩
        exact ⟨(), inside, others⟩
  | case5 entered depth name directives rest known =>
      rw [walk_entered known, valid_spread_cons]
      exact ⟨nofun, fun valid => absurd known valid.1.1⟩
  | case6 entered depth name directives rest fresh unknown ihRest =>
      rw [walk_unknown fresh unknown, ihRest, valid_spread_cons]
      constructor
      · intro others
        refine ⟨⟨fresh, fun fragment found => ?_⟩, others⟩
        rw [unknown] at found
        cases found
      · exact fun valid => valid.2
  | case7 entered depth name directives rest fresh fragment found ihFragment ihRest =>
      rw [walk_known fresh found, bind_eq_ok, valid_spread_cons, ← ihRest]
      constructor
      · rintro ⟨_, inside, others⟩
        refine ⟨⟨fresh, fun other otherFound => ?_⟩, others⟩
        rw [found] at otherFound
        cases otherFound
        exact ihFragment.mp inside
      · rintro ⟨⟨_, inside⟩, others⟩
        exact ⟨(), ihFragment.mpr (inside fragment found), others⟩

/-! ### Reported cycles -/

def SpreadsIn (document : Document) (outer inner : String) : Prop :=
  ∃ fragment, document.fragments.find? outer = some fragment ∧
    inner ∈ Selection.spreadsOfAll fragment.selections

/-- Whether each fragment was entered inside the next one, and selections are inside the
first. -/
structure Trail (document : Document) (entered : List String) (selections : List Selection) :
    Prop where
  chain : entered.IsChain fun inner outer => document.SpreadsIn outer inner
  inside : ∀ innermost ∈ entered.head?, ∀ name ∈ Selection.spreadsOfAll selections,
    document.SpreadsIn innermost name

theorem Trail.of_subset (trail : document.Trail entered selections)
    (included : Selection.spreadsOfAll inner ⊆ Selection.spreadsOfAll selections) :
    document.Trail entered inner where
  chain := trail.chain
  inside innermost isInnermost name spread := trail.inside innermost isInnermost name
    (included spread)

private theorem Trail.chain_cons (trail : document.Trail entered selections) {name : String}
    (spread : name ∈ Selection.spreadsOfAll selections) :
    (name :: entered).IsChain fun inner outer => document.SpreadsIn outer inner :=
  trail.chain.cons fun innermost isInnermost => trail.inside innermost isInnermost name spread

theorem Trail.enter (trail : document.Trail entered selections) {name : String}
    (spread : name ∈ Selection.spreadsOfAll selections)
    (found : document.fragments.find? name = some fragment) :
    document.Trail (name :: entered) fragment.selections where
  chain := trail.chain_cons spread
  inside := by
    rintro _ ⟨⟩ other otherSpread
    exact ⟨fragment, found, otherSpread⟩

/-- Whether fragments follow one another in a document until one of them comes again. -/
def IsCycle (document : Document) (cycle : List String) : Prop :=
  cycle.IsChain document.SpreadsIn ∧
    ∃ before last, cycle = before ++ [last] ∧ last ∈ before

private theorem Trail.isCycle (trail : document.Trail entered selections) {name : String}
    (spread : name ∈ Selection.spreadsOfAll selections) (known : name ∈ entered) :
    document.IsCycle (name :: entered).reverse := by
  refine ⟨List.isChain_reverse.mpr (trail.chain_cons spread), entered.reverse, name, ?_, ?_⟩
  · rw [List.reverse_cons]
  · exact List.mem_reverse.mpr known

/-- Without a limit, a walk that fails has come upon a cycle. -/
theorem isCycle_of_walk {error : ValidityError}
    (failed : document.walk none entered depth selections = .error error)
    (trail : document.Trail entered selections) :
    ∃ cycle position, error = .cycle cycle position ∧ document.IsCycle cycle := by
  -- The trail goes along: whatever is spread is spread in the fragment entered last.
  induction entered, depth, selections using walk.induct document none with
  | case1 entered depth =>
      rw [walk] at failed
      cases failed
  | case2 entered depth node inner rest above => cases above
  | case3 entered depth node inner rest allowed ihInner ihRest =>
      rw [walk_field allowed] at failed
      rcases bind_eq_error.mp failed with below | ⟨_, _, later⟩
      · refine ihInner below (trail.of_subset ?_)
        exact List.subset_append_left _ _
      · refine ihRest later (trail.of_subset ?_)
        exact List.subset_append_right _ _
  | case4 entered depth condition directives inner rest ihInner ihRest =>
      rw [walk] at failed
      rcases bind_eq_error.mp failed with below | ⟨_, _, later⟩
      · refine ihInner below (trail.of_subset ?_)
        exact List.subset_append_left _ _
      · refine ihRest later (trail.of_subset ?_)
        exact List.subset_append_right _ _
  | case5 entered depth name directives rest known =>
      rw [walk_entered known] at failed
      cases failed
      exact ⟨_, _, rfl, trail.isCycle (List.mem_cons_self ..) known⟩
  | case6 entered depth name directives rest fresh unknown ihRest =>
      rw [walk_unknown fresh unknown] at failed
      exact ihRest failed (trail.of_subset (List.subset_cons_self _ _))
  | case7 entered depth name directives rest fresh fragment found ihFragment ihRest =>
      rw [walk_known fresh found] at failed
      rcases bind_eq_error.mp failed with below | ⟨_, _, later⟩
      · exact ihFragment below (trail.enter (List.mem_cons_self ..) found)
      · exact ihRest later (trail.of_subset (List.subset_cons_self _ _))

/-! ### The check -/

/-- A check succeeds exactly when no fragment that selections lead to leads to itself and
fields are not nested beyond the limit; without a limit, a check that fails reports a
cycle. -/
theorem check_exact (document : Document) (limit : Option Nat)
    (selections : List Selection) :
    (document.check limit selections = .ok () ↔
      (∀ name, document.Reaches name selections → ¬ document.ReachesItself name) ∧
        ∀ largest, limit = some largest → ∀ length, document.Nests length selections →
          length ≤ largest) ∧
      ∀ error, document.check none selections = .error error →
        ∃ cycle position, error = .cycle cycle position ∧ document.IsCycle cycle := by
  constructor
  · rw [check, walk_eq_ok_iff]
    constructor
    · rintro ⟨_, acyclic, shallow⟩
      refine ⟨acyclic, ?_⟩
      rintro largest rfl length nests
      cases length with
      | zero => exact Nat.zero_le largest
      | succ length =>
          have allowed := shallow length nests
          rw [Nat.zero_add] at allowed
          simpa [exceeds] using allowed
    · rintro ⟨acyclic, shallow⟩
      refine ⟨fun _ _ => List.not_mem_nil, acyclic, fun length nests => ?_⟩
      cases limit with
      | none => rfl
      | some largest =>
          have allowed := shallow largest rfl (length + 1) nests
          rw [Nat.zero_add]
          simpa [exceeds] using allowed
  · intro error failed
    exact isCycle_of_walk failed ⟨.nil, nofun⟩

def ofMutualFragments : Document :=
  let spread (name : String) : Selection := .spread ⟨name, ⟨1, 1⟩⟩ []
  let field : Selection := .field ⟨none, ⟨"a", ⟨1, 1⟩⟩, [], []⟩ [spread "B"]
  ⟨[], .ofEntries [("A", ⟨⟨"Query", ⟨1, 1⟩⟩, [], [field]⟩),
    ("B", ⟨⟨"Query", ⟨1, 1⟩⟩, [], [spread "A"]⟩)]⟩

theorem check_exact_ofMutualFragments :
    ofMutualFragments.check none [.spread ⟨"A", ⟨1, 1⟩⟩ []] =
        .error (.cycle ["A", "B", "A"] ⟨1, 1⟩) ∧
      ofMutualFragments.IsCycle ["A", "B", "A"] := by
  have failed : ofMutualFragments.check none [.spread ⟨"A", ⟨1, 1⟩⟩ []] =
      .error (.cycle ["A", "B", "A"] ⟨1, 1⟩) := by
    have back : ofMutualFragments.walk none ["B", "A"] 1 [.spread ⟨"A", ⟨1, 1⟩⟩ []] =
        .error (.cycle ["A", "B", "A"] ⟨1, 1⟩) := walk_entered (by simp)
    have inField : ofMutualFragments.walk none ["A"] 1 [.spread ⟨"B", ⟨1, 1⟩⟩ []] =
        .error (.cycle ["A", "B", "A"] ⟨1, 1⟩) :=
      (walk_known (by simp) rfl).trans (bind_eq_error.mpr (.inl back))
    refine (walk_known List.not_mem_nil rfl).trans (bind_eq_error.mpr (.inl ?_))
    exact (walk_field (by simp [exceeds])).trans (bind_eq_error.mpr (.inl inField))
  obtain ⟨cycle, position, same, isCycle⟩ :=
    (check_exact ofMutualFragments none [.spread ⟨"A", ⟨1, 1⟩⟩ []]).2 _ failed
  cases same
  exact ⟨failed, isCycle⟩

end Document

end StagedResolver
