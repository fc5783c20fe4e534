/-
What a query is checked for before it is planned.

No fragment may reach itself, through fields or through other fragments,
whatever the conditions on the way: planning would not come to an end.  Fields
may be nested up to a limit, in which fragments do not count.

The check walks through the selections.  It enters a fragment only from outside
of it, so that with every fragment entered there are fewer left to enter.
Fragments that no definition has are left to planning.
-/
import StagedResolver.Document.Basic

namespace StagedResolver

inductive ValidityError where
  | tooDeep (position : Position)
  /-- The fragments from the first that was entered to the one met again. -/
  | cycle (fragments : List String) (position : Position)
deriving DecidableEq, Inhabited

namespace ValidityError

def message : ValidityError → String
  | .tooDeep _ => "Query is nested too deep."
  | .cycle fragments _ =>
      "Fragment cycle detected: " ++ String.intercalate ", " fragments

def position : ValidityError → Position
  | .tooDeep position => position
  | .cycle _ position => position

end ValidityError

def exceeds (limit : Option Nat) (number : Nat) : Bool :=
  match limit with
  | some largest => largest < number
  | none => false

namespace Document

def outside (document : Document) (entered : List String) : Nat :=
  (document.fragments.entries.keys.filter fun name => name ∉ entered).length

private theorem outside_lt {document : Document} {entered : List String} {name : String}
    {fragment : Fragment} (found : document.fragments.find? name = some fragment)
    (fresh : name ∉ entered) :
    document.outside (name :: entered) < document.outside entered := by
  have known : name ∈ document.fragments.entries.keys :=
    Entries.mem_keys_of_find? found
  have narrower :
      (document.fragments.entries.keys.filter fun other => other ∉ name :: entered) =
        (document.fragments.entries.keys.filter fun other => other ∉ entered).filter
          fun other => other ≠ name := by
    rw [List.filter_filter]
    congr 1
    funext other
    by_cases same : other = name <;> simp [same]
  unfold outside
  rw [narrower]
  exact List.length_filter_lt_length_iff_exists.mpr
    ⟨name, List.mem_filter.mpr ⟨known, by simpa using fresh⟩, by simp⟩

/-- Checks selections at a depth of fields, inside the fragments entered so far,
the innermost first. -/
def walk (document : Document) (limit : Option Nat) (entered : List String)
    (depth : Nat) : List Selection → Except ValidityError Unit
  | [] => .ok ()
  | .field node selections :: rest =>
      if exceeds limit (depth + 1) then .error (.tooDeep node.name.position)
      else do
        document.walk limit entered (depth + 1) selections
        document.walk limit entered depth rest
  | .inline _ _ selections :: rest => do
      document.walk limit entered depth selections
      document.walk limit entered depth rest
  | .spread name _ :: rest =>
      if _fresh : name.item ∈ entered then
        .error (.cycle (name.item :: entered).reverse name.position)
      else
        match _found : document.fragments.find? name.item with
        | none => document.walk limit entered depth rest
        | some fragment => do
            document.walk limit (name.item :: entered) depth fragment.selections
            document.walk limit entered depth rest
termination_by selections => (document.outside entered, sizeOf selections)
decreasing_by
  · exact Prod.Lex.right _ (by
      simp only [List.cons.sizeOf_spec, Selection.field.sizeOf_spec]; omega)
  · exact Prod.Lex.right _ (by simp only [List.cons.sizeOf_spec]; omega)
  · exact Prod.Lex.right _ (by
      simp only [List.cons.sizeOf_spec, Selection.inline.sizeOf_spec]; omega)
  · exact Prod.Lex.right _ (by simp only [List.cons.sizeOf_spec]; omega)
  · exact Prod.Lex.right _ (by simp only [List.cons.sizeOf_spec]; omega)
  · exact Prod.Lex.left _ _ (outside_lt _found _fresh)
  · exact Prod.Lex.right _ (by simp only [List.cons.sizeOf_spec]; omega)

def check (document : Document) (limit : Option Nat) (selections : List Selection) :
    Except ValidityError Unit :=
  document.walk limit [] 0 selections

end Document

end StagedResolver
