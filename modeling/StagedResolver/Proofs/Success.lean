/-
When computations that may fail succeed.

A computation made of steps succeeds exactly when its steps do, one after the
other.  What every step preserves, the whole of them preserves.  And it fails only
with faults that its steps fail with.
-/
import Mathlib.Data.List.Forall2

namespace StagedResolver

variable {ε α β : Type}

/-- A step followed by another succeeds exactly when both do. -/
theorem bind_eq_ok {first : Except ε α} {next : α → Except ε β} {result : β} :
    (first >>= next) = .ok result ↔
      ∃ found, first = .ok found ∧ next found = .ok result := by
  cases first with
  | error fault =>
      constructor
      · intro succeeds
        cases succeeds
      · rintro ⟨found, impossible, _⟩
        cases impossible
  | ok found =>
      constructor
      · intro succeeds
        exact ⟨found, rfl, succeeds⟩
      · rintro ⟨other, same, succeeds⟩
        cases same
        exact succeeds

theorem map_eq_ok {change : α → β} {computation : Except ε α} {result : β} :
    computation.map change = .ok result ↔
      ∃ found, computation = .ok found ∧ change found = result := by
  cases computation with
  | error fault =>
      constructor
      · intro succeeds
        cases succeeds
      · rintro ⟨found, impossible, _⟩
        cases impossible
  | ok found =>
      constructor
      · intro succeeds
        exact ⟨found, rfl, Except.ok.inj succeeds⟩
      · rintro ⟨other, same, rfl⟩
        cases same
        rfl

theorem bind_eq_error {first : Except ε α} {next : α → Except ε β} {fault : ε} :
    (first >>= next) = .error fault ↔
      first = .error fault ∨ ∃ found, first = .ok found ∧ next found = .error fault := by
  cases first with
  | error other =>
      constructor
      · intro fails
        cases fails
        exact .inl rfl
      · rintro (fails | ⟨found, impossible, _⟩)
        · cases fails
          rfl
        · cases impossible
  | ok found =>
      constructor
      · intro fails
        exact .inr ⟨found, rfl, fails⟩
      · rintro (impossible | ⟨other, same, fails⟩)
        · cases impossible
        · cases same
          exact fails

theorem pure_eq_ok {found result : α} :
    (pure found : Except ε α) = .ok result ↔ result = found :=
  ⟨fun same => (Except.ok.inj same).symm, fun same => congrArg Except.ok same.symm⟩

theorem guarded_eq_ok {check : Except ε Bool} {next : Except ε β} {kept result : β}
    (succeeds : (do if ← check then next else return kept) = .ok result) :
    result = kept ∨ next = .ok result := by
  obtain ⟨passed, _, succeeds⟩ := bind_eq_ok.mp succeeds
  cases passed with
  | false =>
      cases succeeds
      exact .inl rfl
  | true => exact .inr succeeds

theorem mapError_eq_ok {ζ : Type} {view : ε → ζ} {computation : Except ε α} {result : α} :
    computation.mapError view = .ok result ↔ computation = .ok result := by
  cases computation with
  | error fault => exact ⟨nofun, nofun⟩
  | ok found => exact ⟨fun same => congrArg Except.ok (Except.ok.inj same),
      fun same => congrArg Except.ok (Except.ok.inj same)⟩

theorem map_eq_error {change : α → β} {computation : Except ε α} {fault : ε} :
    computation.map change = .error fault ↔ computation = .error fault := by
  cases computation with
  | error other => exact ⟨fun same => congrArg Except.error (Except.error.inj same),
      fun same => congrArg Except.error (Except.error.inj same)⟩
  | ok found => exact ⟨nofun, nofun⟩

theorem mapError_eq_error {ζ : Type} {view : ε → ζ} {computation : Except ε α} {fault : ζ} :
    computation.mapError view = .error fault ↔
      ∃ found, computation = .error found ∧ view found = fault := by
  cases computation with
  | error found =>
      constructor
      · intro fails
        exact ⟨found, rfl, Except.error.inj fails⟩
      · rintro ⟨other, same, rfl⟩
        cases same
        rfl
  | ok result =>
      constructor
      · intro impossible
        cases impossible
      · rintro ⟨found, impossible, _⟩
        cases impossible

theorem mapError_id (computation : Except ε α) : computation.mapError id = computation := by
  cases computation with
  | error fault => rfl
  | ok found => rfl

theorem mapError_bind {ζ : Type} (view : ε → ζ) (first : Except ε α)
    (next : α → Except ε β) :
    (first >>= next).mapError view =
      first.mapError view >>= fun found => (next found).mapError view := by
  cases first with
  | error fault => rfl
  | ok found => rfl

theorem mapError_bind_congr {ζ : Type} {view : ε → ζ} {first second : Except ε α}
    {next other : α → Except ε β}
    (same : first.mapError view = second.mapError view)
    (sameNext : ∀ found, (next found).mapError view = (other found).mapError view) :
    (first >>= next).mapError view = (second >>= other).mapError view := by
  cases first with
  | error fault =>
      cases second with
      | error otherFault => exact congrArg Except.error (Except.error.inj same)
      | ok found => cases same
  | ok found =>
      cases second with
      | error otherFault => cases same
      | ok otherFound =>
          cases same
          exact sameNext found

theorem forall₂_of_mapM_eq_ok {change : α → Except ε β} {items : List α}
    {results : List β} (succeeds : items.mapM change = .ok results) :
    List.Forall₂ (fun item result => change item = .ok result) items results := by
  induction items generalizing results with
  | nil =>
      cases succeeds
      exact .nil
  | cons item rest ih =>
      rw [List.mapM_cons, bind_eq_ok] at succeeds
      obtain ⟨first, changed, succeeds⟩ := succeeds
      rw [bind_eq_ok] at succeeds
      obtain ⟨others, restChanged, same⟩ := succeeds
      cases same
      exact .cons changed (ih restChanged)

theorem mapM_eq_ok_of_forall₂ {change : α → Except ε β} {items : List α} {results : List β}
    (forall₂ : List.Forall₂ (fun item result => change item = .ok result) items results) :
    items.mapM change = .ok results := by
  induction forall₂ with
  | nil => rfl
  | cons changed _ ih =>
      rw [List.mapM_cons, bind_eq_ok]
      refine ⟨_, changed, ?_⟩
      rw [bind_eq_ok]
      exact ⟨_, ih, rfl⟩

/-- Changing all items succeeds for some results exactly when each change does. -/
theorem exists_mapM_eq_ok {change : α → Except ε β} {items : List α} :
    (∃ results, items.mapM change = .ok results) ↔
      ∀ item ∈ items, ∃ result, change item = .ok result := by
  induction items with
  | nil => exact ⟨fun _ => List.forall_mem_nil _, fun _ => ⟨[], rfl⟩⟩
  | cons item rest ih =>
      rw [List.forall_mem_cons, ← ih]
      constructor
      · rintro ⟨results, succeeds⟩
        cases forall₂_of_mapM_eq_ok succeeds with
        | cons changed restChanged =>
            exact ⟨⟨_, changed⟩, _, mapM_eq_ok_of_forall₂ restChanged⟩
      · rintro ⟨⟨first, changed⟩, others, restChanged⟩
        exact ⟨first :: others,
          mapM_eq_ok_of_forall₂ (.cons changed (forall₂_of_mapM_eq_ok restChanged))⟩

theorem exists_mem_of_forall₂ {related : α → β → Prop} {items : List α} {results : List β}
    (forall₂ : List.Forall₂ related items results) :
    ∀ result ∈ results, ∃ item ∈ items, related item result := by
  induction forall₂ with
  | nil => exact List.forall_mem_nil _
  | @cons item result _ _ first _ ih =>
      intro other member
      rcases List.mem_cons.mp member with rfl | later
      · exact ⟨item, List.mem_cons_self .., first⟩
      · obtain ⟨found, foundMember, isRelated⟩ := ih other later
        exact ⟨found, List.mem_cons_of_mem _ foundMember, isRelated⟩

theorem forall₂_imp_of_mem {related other : α → β → Prop} {items : List α} {results : List β}
    (forall₂ : List.Forall₂ related items results)
    (implies : ∀ item ∈ items, ∀ result, related item result → other item result) :
    List.Forall₂ other items results := by
  induction forall₂ with
  | nil => exact .nil
  | cons first _ ih =>
      obtain ⟨firstImplies, restImplies⟩ := List.forall_mem_cons.mp implies
      exact .cons (firstImplies _ first) (ih restImplies)

theorem forM_eq_ok {check : α → Except ε Unit} {items : List α} :
    items.forM check = .ok () ↔ ∀ item ∈ items, check item = .ok () := by
  induction items with
  | nil => exact ⟨fun _ => List.forall_mem_nil _, fun _ => rfl⟩
  | cons item rest ih =>
      show (check item >>= fun _ => rest.forM check) = .ok () ↔ _
      rw [bind_eq_ok, List.forall_mem_cons, ← ih]
      exact ⟨fun ⟨_, checked, restChecked⟩ => ⟨checked, restChecked⟩,
        fun ⟨checked, restChecked⟩ => ⟨(), checked, restChecked⟩⟩

/-- What holds at first and is preserved by every step holds at the end. -/
theorem foldlM_preserves {step : β → α → Except ε β} {holds : β → Prop}
    {items : List α} {start result : β}
    (preserved : ∀ item ∈ items, ∀ before after,
      step before item = .ok after → holds before → holds after)
    (succeeds : items.foldlM step start = .ok result) (atStart : holds start) :
    holds result := by
  induction items generalizing start with
  | nil =>
      cases succeeds
      exact atStart
  | cons item rest ih =>
      rw [List.foldlM_cons, bind_eq_ok] at succeeds
      obtain ⟨after, stepped, succeeds⟩ := succeeds
      have afterHolds : holds after :=
        preserved item (List.mem_cons_self ..) start after stepped atStart
      exact ih (fun other member => preserved other (List.mem_cons_of_mem _ member))
        succeeds afterHolds

/-- Whether a computation fails with certain faults only. -/
def FailsAmong (faults : ε → Prop) (computation : Except ε α) : Prop :=
  ∀ fault, computation = .error fault → faults fault

namespace FailsAmong

variable {faults : ε → Prop}

theorem ok (result : α) : FailsAmong faults (.ok result) := by
  intro fault fails
  cases fails

theorem error {fault : ε} (isAmong : faults fault) :
    FailsAmong faults (.error fault : Except ε α) := by
  intro other fails
  cases fails
  exact isAmong

theorem mono {others : ε → Prop} {computation : Except ε α}
    (fails : FailsAmong faults computation) (implies : ∀ fault, faults fault → others fault) :
    FailsAmong others computation :=
  fun fault isFault => implies fault (fails fault isFault)

theorem bind {first : Except ε α} {next : α → Except ε β} (firstFails : FailsAmong faults first)
    (nextFails : ∀ found, first = .ok found → FailsAmong faults (next found)) :
    FailsAmong faults (first >>= next) := by
  intro fault fails
  rcases bind_eq_error.mp fails with atFirst | ⟨found, succeeds, later⟩
  · exact firstFails fault atFirst
  · exact nextFails found succeeds fault later

theorem guarded {check : Except ε Bool} {next : Except ε β} {kept : β}
    (checkFails : FailsAmong faults check) (nextFails : FailsAmong faults next) :
    FailsAmong faults (do if ← check then next else return kept) := by
  refine checkFails.bind fun passed _ => ?_
  cases passed with
  | false => exact ok kept
  | true => exact nextFails

theorem map {computation : Except ε α} (fails : FailsAmong faults computation)
    (change : α → β) : FailsAmong faults (computation.map change) := by
  cases computation with
  | error fault => exact error (fails fault rfl)
  | ok found => exact ok (change found)

theorem mapError {ζ : Type} {others : ζ → Prop} {view : ε → ζ} {computation : Except ε α}
    (fails : FailsAmong faults computation) (viewed : ∀ fault, faults fault → others (view fault)) :
    FailsAmong others (computation.mapError view) := by
  cases computation with
  | error fault => exact error (viewed fault (fails fault rfl))
  | ok found => exact ok found

theorem mapM {change : α → Except ε β} {items : List α}
    (each : ∀ item ∈ items, FailsAmong faults (change item)) :
    FailsAmong faults (items.mapM change) := by
  induction items with
  | nil => exact ok []
  | cons item rest ih =>
      obtain ⟨first, others⟩ := List.forall_mem_cons.mp each
      rw [List.mapM_cons]
      exact first.bind fun _ _ => (ih others).bind fun _ _ => ok _

end FailsAmong

def faultOf? : Except ε α → Option ε
  | .error fault => some fault
  | .ok _ => none

theorem faultOf?_eq_some {computation : Except ε α} {fault : ε} :
    faultOf? computation = some fault ↔ computation = .error fault := by
  cases computation with
  | error other =>
      constructor
      · intro same
        cases same
        rfl
      · intro same
        cases same
        rfl
  | ok result => exact ⟨nofun, nofun⟩

theorem faultOf?_eq_none {computation : Except ε α} :
    faultOf? computation = none ↔ ∃ result, computation = .ok result := by
  cases computation with
  | error fault => exact ⟨nofun, nofun⟩
  | ok result => exact ⟨fun _ => ⟨result, rfl⟩, fun _ => rfl⟩

theorem faultOf?_map (change : α → β) (computation : Except ε α) :
    faultOf? (computation.map change) = faultOf? computation := by
  cases computation with
  | error fault => rfl
  | ok result => rfl

/-- Steps that end alike whatever comes before them fail after those before them. -/
theorem faultOf?_bind {first : Except ε α} {next : α → Except ε β} {later : Option ε}
    (alike : ∀ found, faultOf? (next found) = later) :
    faultOf? (first >>= next) = (faultOf? first).or later := by
  cases first with
  | error fault => rfl
  | ok found => exact alike found

/-! ### Computations that end alike -/

/-- Whether two computations fail with the same fault, or succeed with related results. -/
inductive Alike (related : α → β → Prop) : Except ε α → Except ε β → Prop where
  | ok {result : α} {other : β} (isRelated : related result other) :
      Alike related (.ok result) (.ok other)
  | error (fault : ε) : Alike related (.error fault) (.error fault)

namespace Alike

variable {γ δ : Type} {related : α → β → Prop} {relatedNext : γ → δ → Prop}

theorem refl {relatedToSame : α → α → Prop} (reflexive : ∀ result, relatedToSame result result)
    (computation : Except ε α) : Alike relatedToSame computation computation := by
  cases computation with
  | error fault => exact .error fault
  | ok result => exact .ok (reflexive result)

theorem bind {first : Except ε α} {second : Except ε β} {next : α → Except ε γ}
    {other : β → Except ε δ} (alike : Alike related first second)
    (nextAlike : ∀ found otherFound, related found otherFound →
      Alike relatedNext (next found) (other otherFound)) :
    Alike relatedNext (first >>= next) (second >>= other) := by
  cases alike with
  | ok isRelated => exact nextAlike _ _ isRelated
  | error fault => exact .error fault

theorem sameBind {first : Except ε α} {next : α → Except ε γ} {other : α → Except ε δ}
    (nextAlike : ∀ found, Alike relatedNext (next found) (other found)) :
    Alike relatedNext (first >>= next) (first >>= other) := by
  have same : Alike Eq first first := refl (fun _ => rfl) first
  refine same.bind fun found _ isSame => ?_
  rw [← isSame]
  exact nextAlike found

theorem mapError {ζ : Type} {first : Except ε α} {second : Except ε β}
    (alike : Alike related first second) (view : ε → ζ) :
    Alike related (first.mapError view) (second.mapError view) := by
  cases alike with
  | ok isRelated => exact .ok isRelated
  | error fault => exact .error (view fault)

theorem mapM {change : γ → Except ε α} {otherChange : γ → Except ε β} {items : List γ}
    (each : ∀ item ∈ items, Alike related (change item) (otherChange item)) :
    Alike (List.Forall₂ related) (items.mapM change) (items.mapM otherChange) := by
  induction items with
  | nil => exact .ok .nil
  | cons item rest ih =>
      obtain ⟨first, others⟩ := List.forall_mem_cons.mp each
      rw [List.mapM_cons, List.mapM_cons]
      refine first.bind fun result other isRelated => ?_
      exact (ih others).bind fun _ _ restRelated => .ok (.cons isRelated restRelated)

end Alike

end StagedResolver
