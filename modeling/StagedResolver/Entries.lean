/-
Keyed entries in the order in which their keys first appeared.

Records, objects, argument lists and tables of declarations all keep their
entries this way: writing a key that is already there replaces its value and
leaves its place alone, and a new key goes to the end.  Look-up finds the first
entry of a key.
-/

namespace StagedResolver

abbrev Entries (α : Type) := List (String × α)

namespace Entries

variable {α β : Type}

def keys (entries : Entries α) : List String :=
  entries.map Prod.fst

def values (entries : Entries α) : List α :=
  entries.map Prod.snd

def find? (key : String) : Entries α → Option α
  | [] => none
  | (name, held) :: rest => if name = key then some held else find? key rest

def has (key : String) (entries : Entries α) : Bool :=
  (find? key entries).isSome

def position? (key : String) : Entries α → Option Nat
  | [] => none
  | (name, _) :: rest =>
      if name = key then some 0 else (position? key rest).map (· + 1)

/-- Writes `held` under `key`: in the place the key already has, or else at the
end. -/
def put (key : String) (held : α) : Entries α → Entries α
  | [] => [(key, held)]
  | (name, other) :: rest =>
      if name = key then (name, held) :: rest
      else (name, other) :: put key held rest

def putAll (entries more : Entries α) : Entries α :=
  more.foldl (fun written entry => put entry.1 entry.2 written) entries

/-- The entries left when each key keeps its first place and its last value. -/
def collapse (entries : Entries α) : Entries α :=
  putAll [] entries

def mapValues (change : String → α → β) (entries : Entries α) : Entries β :=
  entries.map fun entry => (entry.1, change entry.1 entry.2)

def traverse {ε : Type} (change : String → α → Except ε β) :
    Entries α → Except ε (Entries β)
  | [] => .ok []
  | (key, held) :: rest => do
      let changed ← change key held
      let others ← traverse change rest
      return (key, changed) :: others

def DistinctKeys (entries : Entries α) : Prop :=
  (keys entries).Nodup

theorem mem_of_find? {key : String} {held : α} {entries : Entries α}
    (found : find? key entries = some held) : (key, held) ∈ entries := by
  induction entries with
  | nil => cases found
  | cons entry rest ih =>
      obtain ⟨name, other⟩ := entry
      by_cases same : name = key
      · simp only [find?, same, if_true, Option.some.injEq] at found
        rw [same, found]
        exact List.mem_cons_self ..
      · simp only [find?, same, if_false] at found
        exact List.mem_cons_of_mem _ (ih found)

theorem mem_keys_of_find? {key : String} {held : α} {entries : Entries α}
    (found : find? key entries = some held) : key ∈ keys entries :=
  List.mem_map.mpr ⟨_, mem_of_find? found, rfl⟩

private theorem mem_keys_put (key name : String) (held : α) (entries : Entries α) :
    name ∈ keys (put key held entries) ↔ name = key ∨ name ∈ keys entries := by
  induction entries with
  | nil => simp [put, keys]
  | cons entry rest ih =>
      obtain ⟨first, other⟩ := entry
      by_cases same : first = key
      · subst same
        simp [put, keys]
      · simp only [put, same, if_false, keys, List.map_cons, List.mem_cons]
        simp only [keys] at ih
        rw [ih]
        constructor
        · rintro (h | h | h)
          · exact .inr (.inl h)
          · exact .inl h
          · exact .inr (.inr h)
        · rintro (h | h | h)
          · exact .inr (.inl h)
          · exact .inl h
          · exact .inr (.inr h)

theorem keys_put_of_mem {key : String} {entries : Entries α} (held : α)
    (known : key ∈ keys entries) : keys (put key held entries) = keys entries := by
  induction entries with
  | nil => cases known
  | cons entry rest ih =>
      obtain ⟨first, other⟩ := entry
      by_cases same : first = key
      · simp only [put, same, if_true, keys, List.map_cons]
      · have later : key ∈ keys rest :=
          (List.mem_cons.mp known).resolve_left fun equal => same equal.symm
        simp only [put, same, if_false, keys, List.map_cons]
        exact congrArg (List.cons first) (ih later)

private theorem put_of_notMem {key : String} {entries : Entries α} (held : α)
    (fresh : key ∉ keys entries) : put key held entries = entries ++ [(key, held)] := by
  induction entries with
  | nil => rfl
  | cons entry rest ih =>
      obtain ⟨first, other⟩ := entry
      have different : first ≠ key := fun same =>
        fresh (List.mem_cons.mpr (.inl same.symm))
      simp only [put, different, if_false, List.cons_append]
      exact congrArg (List.cons (first, other))
        (ih fun later => fresh (List.mem_cons_of_mem _ later))

theorem keys_put_of_notMem {key : String} {entries : Entries α} (held : α)
    (fresh : key ∉ keys entries) :
    keys (put key held entries) = keys entries ++ [key] := by
  rw [put_of_notMem held fresh, keys, List.map_append]
  rfl

/-- What is written is found under its key, and nothing else changes. -/
theorem find?_put (key name : String) (held : α) (entries : Entries α) :
    find? name (put key held entries) =
      if name = key then some held else find? name entries := by
  induction entries with
  | nil =>
      by_cases same : key = name
      · simp only [put, find?, same, if_true]
      · have different : name ≠ key := fun equal => same equal.symm
        simp only [put, find?, same, different, if_false]
  | cons entry rest ih =>
      obtain ⟨first, other⟩ := entry
      by_cases here : first = key
      · by_cases same : name = key
        · simp only [put, find?, here, same, if_true]
        · have different : key ≠ name := fun equal => same equal.symm
          simp only [put, find?, here, same, different, if_true, if_false]
      · by_cases same : first = name
        · have different : name ≠ key := fun equal => here (same.trans equal)
          simp only [put, find?, same, different, if_true, if_false]
        · simp only [put, find?, here, same, if_false, ih]

theorem find?_eq_none_iff {key : String} {entries : Entries α} :
    find? key entries = none ↔ key ∉ keys entries := by
  induction entries with
  | nil => simp [find?, keys]
  | cons entry rest ih =>
      obtain ⟨first, other⟩ := entry
      by_cases same : first = key
      · simp [find?, keys, same]
      · have different : ¬ key = first := fun equal => same equal.symm
        simp only [find?, same, if_false, ih, keys, List.map_cons, List.mem_cons,
          different, false_or]

theorem has_iff_mem_keys {key : String} {entries : Entries α} :
    has key entries = true ↔ key ∈ keys entries := by
  rw [has, Option.isSome_iff_ne_none, ne_eq, find?_eq_none_iff, Decidable.not_not]

theorem DistinctKeys.find?_of_mem {entries : Entries α} (distinct : DistinctKeys entries)
    {key : String} {held : α} (member : (key, held) ∈ entries) :
    find? key entries = some held := by
  induction entries with
  | nil => cases member
  | cons entry rest ih =>
      obtain ⟨first, other⟩ := entry
      obtain ⟨fresh, restDistinct⟩ := List.nodup_cons.mp distinct
      rcases List.mem_cons.mp member with here | later
      · cases here
        simp only [find?, if_true]
      · have different : first ≠ key := by
          rintro rfl
          exact fresh (List.mem_map.mpr ⟨_, later, rfl⟩)
        simp only [find?, different, if_false]
        exact ih restDistinct later

theorem DistinctKeys.find?_eq_of_perm {entries others : Entries α}
    (distinct : DistinctKeys entries) (permuted : entries.Perm others) (key : String) :
    find? key others = find? key entries := by
  cases found : find? key entries with
  | none =>
      rw [find?_eq_none_iff] at found ⊢
      intro known
      exact found ((permuted.map Prod.fst).mem_iff.mpr known)
  | some held =>
      have othersDistinct : DistinctKeys others :=
        (permuted.map Prod.fst).nodup_iff.mp distinct
      exact othersDistinct.find?_of_mem (permuted.mem_iff.mp (mem_of_find? found))

theorem DistinctKeys.put {entries : Entries α} (distinct : DistinctKeys entries)
    (key : String) (held : α) : DistinctKeys (put key held entries) := by
  induction entries with
  | nil => simp [DistinctKeys, Entries.put, keys]
  | cons entry rest ih =>
      obtain ⟨first, other⟩ := entry
      simp only [DistinctKeys, keys, List.map_cons, List.nodup_cons] at distinct
      by_cases same : first = key
      · simpa [DistinctKeys, Entries.put, same, keys] using
          (same ▸ distinct : key ∉ List.map Prod.fst rest ∧ _)
      · simp only [DistinctKeys, Entries.put, same, if_false, keys,
          List.map_cons, List.nodup_cons]
        refine ⟨fun found => ?_, ih distinct.2⟩
        rcases (mem_keys_put key first held rest).mp found with h | h
        · exact same h
        · exact distinct.1 h

theorem DistinctKeys.putAll {entries : Entries α}
    (distinct : DistinctKeys entries) (more : Entries α) :
    DistinctKeys (putAll entries more) := by
  induction more generalizing entries with
  | nil => exact distinct
  | cons entry rest ih => exact ih (distinct.put entry.1 entry.2)

theorem distinctKeys_nil : DistinctKeys ([] : Entries α) :=
  List.nodup_nil

theorem distinctKeys_collapse (entries : Entries α) :
    DistinctKeys (collapse entries) :=
  distinctKeys_nil.putAll entries

private theorem putAll_of_distinct {entries more : Entries α}
    (distinct : DistinctKeys (entries ++ more)) : putAll entries more = entries ++ more := by
  induction more generalizing entries with
  | nil => exact (List.append_nil entries).symm
  | cons entry rest ih =>
      obtain ⟨key, held⟩ := entry
      have fresh : key ∉ keys entries := by
        intro known
        rw [DistinctKeys, keys, List.map_append] at distinct
        exact (List.nodup_append.mp distinct).2.2 key known key (List.mem_cons_self ..) rfl
      rw [List.append_cons] at distinct ⊢
      rw [← ih distinct, ← put_of_notMem held fresh]
      rfl

theorem DistinctKeys.collapse_eq {entries : Entries α} (distinct : DistinctKeys entries) :
    collapse entries = entries :=
  putAll_of_distinct distinct

theorem find?_putAll (key : String) (entries more : Entries α) :
    find? key (putAll entries more) = (find? key (collapse more)).or (find? key entries) := by
  induction more generalizing entries with
  | nil => rfl
  | cons entry rest ih =>
      have written : putAll entries (entry :: rest) =
          putAll (put entry.1 entry.2 entries) rest := rfl
      have alone : collapse (entry :: rest) = putAll [(entry.1, entry.2)] rest := rfl
      rw [written, alone, ih, ih, find?_put, Option.or_assoc]
      apply congrArg
      by_cases same : key = entry.1
      · simp only [find?, same, if_true, Option.some_or]
      · have different : entry.1 ≠ key := fun equal => same equal.symm
        simp only [find?, same, different, if_false, Option.none_or]

theorem position?_eq_some {key : String} {place : Nat} {entries : Entries α}
    (isPlace : position? key entries = some place) :
    ∃ held, entries[place]? = some (key, held) ∧ find? key entries = some held := by
  induction entries generalizing place with
  | nil => cases isPlace
  | cons entry rest ih =>
      obtain ⟨first, other⟩ := entry
      by_cases same : first = key
      · simp only [position?, same, if_true, Option.some.injEq] at isPlace
        subst isPlace
        exact ⟨other, by rw [same]; rfl, by simp only [find?, same, if_true]⟩
      · simp only [position?, same, if_false, Option.map_eq_some_iff] at isPlace
        obtain ⟨before, isBefore, rfl⟩ := isPlace
        obtain ⟨held, atPlace, found⟩ := ih isBefore
        exact ⟨held, atPlace, by simp only [find?, same, if_false, found]⟩

theorem DistinctKeys.position?_of_getElem? {key : String} {held : α} {place : Nat}
    {entries : Entries α} (distinct : DistinctKeys entries)
    (atPlace : entries[place]? = some (key, held)) : position? key entries = some place := by
  induction entries generalizing place with
  | nil => cases atPlace
  | cons entry rest ih =>
      obtain ⟨first, other⟩ := entry
      obtain ⟨fresh, restDistinct⟩ := List.nodup_cons.mp distinct
      cases place with
      | zero =>
          cases atPlace
          simp only [position?, if_true]
      | succ place =>
          rw [List.getElem?_cons_succ] at atPlace
          have different : first ≠ key := by
            rintro rfl
            exact fresh (List.mem_map.mpr ⟨_, List.mem_of_getElem? atPlace, rfl⟩)
          simp only [position?, different, if_false, ih restDistinct atPlace, Option.map_some]

theorem position?_eq_none_iff {key : String} {entries : Entries α} :
    position? key entries = none ↔ key ∉ keys entries := by
  induction entries with
  | nil => simp [position?, keys]
  | cons entry rest ih =>
      obtain ⟨first, other⟩ := entry
      by_cases same : first = key
      · simp [position?, keys, same]
      · have different : ¬ key = first := fun equal => same equal.symm
        simp only [position?, same, if_false, Option.map_eq_none_iff, ih, keys, List.map_cons,
          List.mem_cons, different, false_or]

theorem exists_position?_of_find? {key : String} {held : α} {entries : Entries α}
    (found : find? key entries = some held) : ∃ place, position? key entries = some place := by
  have known : key ∈ keys entries := mem_keys_of_find? found
  cases isPlace : position? key entries with
  | none => exact absurd known (position?_eq_none_iff.mp isPlace)
  | some place => exact ⟨place, rfl⟩

theorem keys_mapValues (change : String → α → β) (entries : Entries α) :
    keys (mapValues change entries) = keys entries := by
  simp [keys, mapValues, Function.comp_def]

end Entries

end StagedResolver
