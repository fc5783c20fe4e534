/-
How deep the check of a query goes.

With every fragment that is entered, one less can be entered further in.  What is selected
in the fragments outside therefore bounds how deep a walk still leads.
-/
import StagedResolver.Plan.Planning
import StagedResolver.Proofs.Plan.Validity

namespace StagedResolver

namespace Document

def roomIn (entered : List String) : Entries Fragment → Nat
  | [] => 0
  | (name, fragment) :: rest =>
      (if name ∈ entered then 0 else Selection.depthOfAll fragment.selections + 1) +
        roomIn entered rest

def room (document : Document) (entered : List String) : Nat :=
  roomIn entered document.fragments.entries

/-- A bound on the calls inside each other that a query takes, from its document. -/
def nesting (document : Document) (selections : List Selection) : Nat :=
  Selection.depthOfAll selections + document.room [] + 2

variable {document : Document} {entered : List String} {name : String} {fragment : Fragment}

private theorem roomIn_cons_le (name : String) (entered : List String)
    (fragments : Entries Fragment) :
    roomIn (name :: entered) fragments ≤ roomIn entered fragments := by
  induction fragments with
  | nil => exact Nat.le_refl 0
  | cons entry rest ih =>
      obtain ⟨other, fragment⟩ := entry
      simp only [roomIn]
      by_cases known : other ∈ entered
      · have stillKnown : other ∈ name :: entered := List.mem_cons_of_mem _ known
        rw [if_pos known, if_pos stillKnown]
        omega
      · rw [if_neg known]
        split
        · omega
        · omega

private theorem roomIn_enter {fragments : Entries Fragment}
    (found : fragments.find? name = some fragment) (fresh : name ∉ entered) :
    Selection.depthOfAll fragment.selections + 1 + roomIn (name :: entered) fragments ≤
      roomIn entered fragments := by
  induction fragments with
  | nil => cases found
  | cons entry rest ih =>
      obtain ⟨other, otherFragment⟩ := entry
      rw [Entries.find?] at found
      have later := roomIn_cons_le name entered rest
      simp only [roomIn]
      by_cases same : other = name
      · subst same
        rw [if_pos rfl] at found
        cases found
        rw [if_pos (List.mem_cons_self ..), if_neg fresh]
        omega
      · rw [if_neg same] at found
        have known : other ∈ name :: entered ↔ other ∈ entered := by
          rw [List.mem_cons, or_iff_right same]
        have inRest := ih found
        simp only [known]
        omega

theorem room_enter (found : document.fragments.find? name = some fragment)
    (fresh : name ∉ entered) :
    Selection.depthOfAll fragment.selections + 1 + document.room (name :: entered) ≤
      document.room entered :=
  roomIn_enter found fresh

theorem foldr_eq_roomIn (fragments : Entries Fragment) :
    fragments.values.foldr (fun fragment total =>
      Selection.depthOfAll fragment.selections + 1 + total) 0 = roomIn [] fragments := by
  induction fragments with
  | nil => rfl
  | cons entry rest ih => simpa [Entries.values, roomIn] using ih

/-! ### Calls inside each other -/

def visit (document : Document) (limit : Option Nat)
    (call : List String → Nat → List Selection → Except (Option ValidityError) Unit)
    (entered : List String) (depth : Nat) : Selection → Except (Option ValidityError) Unit
  | .field node inner =>
      if exceeds limit (depth + 1) then .error (some (.tooDeep node.name.position))
      else call entered (depth + 1) inner
  | .inline _ _ inner => call entered depth inner
  | .spread name _ =>
      if name.item ∈ entered then
        .error (some (.cycle (name.item :: entered).reverse name.position))
      else
        match document.fragments.find? name.item with
        | none => .ok ()
        | some fragment => call (name.item :: entered) depth fragment.selections

/-- The walk of the check with calls inside each other as often as `calls` says.  It ends
without a word when that is not enough. -/
def walkWithin (document : Document) (limit : Option Nat) :
    Nat → List String → Nat → List Selection → Except (Option ValidityError) Unit
  | 0, _, _, _ => .error none
  | calls + 1, entered, depth, selections =>
      forM selections (document.visit limit (walkWithin document limit calls) entered depth)

variable {limit : Option Nat} {depth calls : Nat} {selections rest : List Selection}

private theorem walk_cons_eq {call : List String → Nat → List Selection →
      Except (Option ValidityError) Unit} {selection : Selection}
    (field : ∀ node inner, selection = .field node inner →
      call entered (depth + 1) inner =
        (document.walk limit entered (depth + 1) inner).mapError some)
    (inPlace : ∀ condition directives inner, selection = .inline condition directives inner →
      call entered depth inner = (document.walk limit entered depth inner).mapError some)
    (spread : ∀ name directives fragment, selection = .spread name directives →
      name.item ∉ entered → document.fragments.find? name.item = some fragment →
        call (name.item :: entered) depth fragment.selections =
          (document.walk limit (name.item :: entered) depth fragment.selections).mapError
            some) :
    (document.walk limit entered depth (selection :: rest)).mapError some =
      document.visit limit call entered depth selection >>= fun _ =>
        (document.walk limit entered depth rest).mapError some := by
  cases selection with
  | field node inner =>
      rw [walk, visit]
      split
      · rfl
      · rw [mapError_bind, field node inner rfl]
  | inline condition directives inner =>
      rw [walk, mapError_bind, visit, inPlace condition directives inner rfl]
  | spread name directives =>
      rw [visit]
      by_cases known : name.item ∈ entered
      · rw [walk_entered known, if_pos known]
        rfl
      · rw [if_neg known]
        cases found : document.fragments.find? name.item with
        | none => exact congrArg (Except.mapError some) (walk_unknown known found)
        | some fragment =>
            rw [walk_known known found, mapError_bind]
            simp only [spread name directives fragment rfl known found]

/-- With enough calls inside each other, the walk comes to the end that it comes to. -/
theorem walkWithin_eq
    (enough : Selection.depthOfAll selections + document.room entered + 1 < calls) :
    document.walkWithin limit calls entered depth selections =
      (document.walk limit entered depth selections).mapError some := by
  induction calls generalizing entered depth selections with
  | zero => cases enough
  | succ calls ih =>
      rw [walkWithin]
      induction selections with
      | nil =>
          rw [walk]
          rfl
      | cons selection rest ihRest =>
          rw [Selection.depthOfAll] at enough
          rw [List.forM_cons, ihRest (by omega)]
          symm
          refine walk_cons_eq ?_ ?_ ?_
          · rintro node inner rfl
            cases inner with
            | nil =>
                obtain ⟨fewer, rfl⟩ : ∃ fewer, calls = fewer + 1 := ⟨calls - 1, by omega⟩
                rw [walk]
                rfl
            | cons first others =>
                simp only [Selection.depth, List.isEmpty_cons, Bool.false_eq_true, if_false]
                  at enough
                exact ih (by omega)
          · rintro condition directives inner rfl
            rw [Selection.depth] at enough
            exact ih (by omega)
          · rintro name directives fragment rfl fresh found
            have room := room_enter found fresh
            exact ih (by omega)

end Document

end StagedResolver
