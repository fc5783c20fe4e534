/-
Where selections lead.

Selections lead to the fragments that are spread in them, inside whatever fields and
fragments in place, and on to those that are spread in these.  Directives and the types
that fragments are for play no part in it, and a fragment without a definition leads
nowhere.
-/
import StagedResolver.Document.Basic

namespace StagedResolver

namespace Selection

mutual

def spreads : Selection → List String
  | .field _ selections => spreadsOfAll selections
  | .spread name _ => [name.item]
  | .inline _ _ selections => spreadsOfAll selections

def spreadsOfAll : List Selection → List String
  | [] => []
  | selection :: rest => spreads selection ++ spreadsOfAll rest

end

end Selection

namespace Document

/-- Whether selections lead to a name, through any number of fragments. -/
inductive Reaches (document : Document) (name : String) : List Selection → Prop where
  | spread {selections : List Selection} (spread : name ∈ Selection.spreadsOfAll selections) :
      Reaches document name selections
  | through {selections : List Selection} {between : String} {fragment : Fragment}
      (spread : between ∈ Selection.spreadsOfAll selections)
      (found : document.fragments.find? between = some fragment)
      (reaches : Reaches document name fragment.selections) :
      Reaches document name selections

def ReachesItself (document : Document) (name : String) : Prop :=
  ∃ fragment, document.fragments.find? name = some fragment ∧
    document.Reaches name fragment.selections

/-- Whether so many fields are selected inside each other, with fragments taken for what
they select. -/
inductive Nests (document : Document) : Nat → List Selection → Prop where
  | none (selections : List Selection) : Nests document 0 selections
  | field {node : FieldNode} {inner rest : List Selection} {length : Nat}
      (inside : Nests document length inner) :
      Nests document (length + 1) (.field node inner :: rest)
  | inPlace {condition : Option (Located String)} {directives : List Directive}
      {inner rest : List Selection} {length : Nat} (inside : Nests document length inner) :
      Nests document length (.inline condition directives inner :: rest)
  | spread {name : Located String} {directives : List Directive} {rest : List Selection}
      {fragment : Fragment} {length : Nat}
      (found : document.fragments.find? name.item = some fragment)
      (inside : Nests document length fragment.selections) :
      Nests document length (.spread name directives :: rest)
  | later {selection : Selection} {rest : List Selection} {length : Nat}
      (nests : Nests document length rest) : Nests document length (selection :: rest)

variable {document : Document} {name : String} {length : Nat}
variable {selections rest inner : List Selection} {node : FieldNode}
variable {condition : Option (Located String)} {directives : List Directive}
variable {spread : Located String} {fragment : Fragment}

private theorem reaches_iff :
    document.Reaches name selections ↔
      ∃ first ∈ Selection.spreadsOfAll selections, first = name ∨
        ∃ fragment, document.fragments.find? first = some fragment ∧
          document.Reaches name fragment.selections := by
  constructor
  · intro reaches
    cases reaches with
    | spread spread => exact ⟨name, spread, .inl rfl⟩
    | through spread found reaches => exact ⟨_, spread, .inr ⟨_, found, reaches⟩⟩
  · rintro ⟨first, spread, rfl | ⟨fragment, found, reaches⟩⟩
    · exact .spread spread
    · exact .through spread found reaches

theorem not_reaches_nil : ¬ document.Reaches name [] := by
  intro reaches
  obtain ⟨first, spread, _⟩ := reaches_iff.mp reaches
  cases spread

theorem reaches_field_cons :
    document.Reaches name (.field node inner :: rest) ↔
      document.Reaches name inner ∨ document.Reaches name rest := by
  rw [reaches_iff, @reaches_iff _ _ inner, @reaches_iff _ _ rest,
    Selection.spreadsOfAll, Selection.spreads]
  simp only [List.mem_append, or_and_right, exists_or]

theorem reaches_inline_cons :
    document.Reaches name (.inline condition directives inner :: rest) ↔
      document.Reaches name inner ∨ document.Reaches name rest := by
  rw [reaches_iff, @reaches_iff _ _ inner, @reaches_iff _ _ rest,
    Selection.spreadsOfAll, Selection.spreads]
  simp only [List.mem_append, or_and_right, exists_or]

theorem reaches_spread_cons :
    document.Reaches name (.spread spread directives :: rest) ↔
      (spread.item = name ∨ ∃ fragment,
        document.fragments.find? spread.item = some fragment ∧
          document.Reaches name fragment.selections) ∨ document.Reaches name rest := by
  rw [reaches_iff, @reaches_iff _ _ rest, Selection.spreadsOfAll,
    Selection.spreads, List.singleton_append]
  simp only [List.mem_cons, or_and_right, exists_or, exists_eq_left]

theorem not_nests_nil : ¬ document.Nests (length + 1) [] := by
  intro nests
  cases nests

theorem nests_field_cons :
    document.Nests (length + 1) (.field node inner :: rest) ↔
      document.Nests length inner ∨ document.Nests (length + 1) rest := by
  constructor
  · intro nests
    cases nests with
    | field inside => exact .inl inside
    | later nests => exact .inr nests
  · rintro (inside | nests)
    · exact .field inside
    · exact .later nests

theorem nests_inline_cons :
    document.Nests (length + 1) (.inline condition directives inner :: rest) ↔
      document.Nests (length + 1) inner ∨ document.Nests (length + 1) rest := by
  constructor
  · intro nests
    cases nests with
    | inPlace inside => exact .inl inside
    | later nests => exact .inr nests
  · rintro (inside | nests)
    · exact .inPlace inside
    · exact .later nests

theorem nests_spread_cons :
    document.Nests (length + 1) (.spread spread directives :: rest) ↔
      (∃ fragment, document.fragments.find? spread.item = some fragment ∧
        document.Nests (length + 1) fragment.selections) ∨
          document.Nests (length + 1) rest := by
  constructor
  · intro nests
    cases nests with
    | spread found inside => exact .inl ⟨_, found, inside⟩
    | later nests => exact .inr nests
  · rintro (⟨fragment, found, inside⟩ | nests)
    · exact .spread found inside
    · exact .later nests

end Document

end StagedResolver
