/-
Occurrences in groups.

However occurrences are added, the keys of the groups are those of the occurrences in the
order in which each first occurs, and the group of a key holds the occurrences of the key
in their order.
-/
import StagedResolver.Proofs.Entries
import StagedResolver.Proofs.Plan.Fit

namespace StagedResolver

def Occurrence.key (occurrence : Occurrence) : String := occurrence.node.responseKey

def Group.ofOccurrences? : List Occurrence → Option Group
  | [] => none
  | first :: others => some ⟨first, others⟩

theorem Group.ofOccurrences?_eq_some {occurrences : List Occurrence} {group : Group} :
    ofOccurrences? occurrences = some group ↔ occurrences = group.occurrences := by
  cases occurrences with
  | nil =>
      constructor
      · intro impossible
        cases impossible
      · intro impossible
        cases impossible
  | cons first others =>
      constructor
      · intro same
        cases same
        rfl
      · intro same
        cases same
        rfl

def occurrencesOf (key : String) (occurrences : List Occurrence) : List Occurrence :=
  occurrences.filter fun occurrence => occurrence.key = key

def firstKeys (occurrences : List Occurrence) : List String :=
  (occurrences.map Occurrence.key).eraseDups

theorem mem_firstKeys {key : String} {occurrences : List Occurrence} :
    key ∈ firstKeys occurrences ↔ ∃ occurrence ∈ occurrences, occurrence.key = key := by
  rw [firstKeys, List.mem_eraseDups, List.mem_map]

def groupsOf (occurrences : List Occurrence) : Entries Group :=
  occurrences.foldl addOccurrence []

private theorem groupsOf_append_singleton (occurrences : List Occurrence) (last : Occurrence) :
    groupsOf (occurrences ++ [last]) = addOccurrence (groupsOf occurrences) last := by
  rw [groupsOf, List.foldl_append]
  rfl

private theorem occurrencesOf_append_singleton (key : String) (occurrences : List Occurrence)
    (last : Occurrence) :
    occurrencesOf key (occurrences ++ [last]) =
      if last.key = key then occurrencesOf key occurrences ++ [last]
      else occurrencesOf key occurrences := by
  rw [occurrencesOf, List.filter_append]
  by_cases same : last.key = key
  · rw [if_pos same, List.filter_cons_of_pos (by simpa using same), List.filter_nil]
    rfl
  · rw [if_neg same, List.filter_cons_of_neg (by simpa using same), List.filter_nil,
      List.append_nil]
    rfl

private theorem find?_groupsOf (key : String) (occurrences : List Occurrence) :
    (groupsOf occurrences).find? key =
      Group.ofOccurrences? (occurrencesOf key occurrences) := by
  induction occurrences using List.reverseRecOn with
  | nil => rfl
  | append_singleton occurrences last ih =>
      have found (group : Group) :
          ((groupsOf occurrences).put last.key group).find? key =
            if key = last.key then some group
            else Group.ofOccurrences? (occurrencesOf key occurrences) := by
        rw [Entries.find?_put, ih]
      rw [groupsOf_append_singleton, occurrencesOf_append_singleton, addOccurrence]
      by_cases same : last.key = key
      · subst same
        have lastFound : (groupsOf occurrences).find? last.node.responseKey =
            Group.ofOccurrences? (occurrencesOf last.key occurrences) := ih
        rw [lastFound, if_pos rfl]
        cases occurrencesOf last.key occurrences with
        | nil => exact (Entries.find?_put ..).trans (if_pos rfl)
        | cons first others => exact (Entries.find?_put ..).trans (if_pos rfl)
      · rw [if_neg same]
        have different : ¬ key = last.key := fun equal => same equal.symm
        cases (groupsOf occurrences).find? last.node.responseKey with
        | none => exact (found _).trans (if_neg different)
        | some group => exact (found _).trans (if_neg different)

theorem keys_groupsOf (occurrences : List Occurrence) :
    (groupsOf occurrences).keys = firstKeys occurrences := by
  induction occurrences using List.reverseRecOn with
  | nil => rfl
  | append_singleton occurrences last ih =>
      have known : last.key ∈ (groupsOf occurrences).keys ↔
          last.key ∈ occurrences.map Occurrence.key := by
        rw [ih, firstKeys, List.mem_eraseDups]
      rw [groupsOf_append_singleton, firstKeys, List.map_append, List.map_singleton,
        eraseDups_append_singleton, ← firstKeys, ← ih, addOccurrence]
      cases found : (groupsOf occurrences).find? last.node.responseKey with
      | none =>
          have fresh : last.key ∉ (groupsOf occurrences).keys :=
            Entries.find?_eq_none_iff.mp found
          rw [if_neg (mt known.mpr fresh)]
          exact Entries.keys_put_of_notMem _ fresh
      | some group =>
          have present : last.key ∈ (groupsOf occurrences).keys :=
            Entries.mem_keys_of_find? found
          rw [if_pos (known.mp present)]
          exact Entries.keys_put_of_mem _ present

private theorem distinctKeys_groupsOf (occurrences : List Occurrence) :
    (groupsOf occurrences).DistinctKeys := by
  induction occurrences using List.reverseRecOn with
  | nil => exact Entries.distinctKeys_nil
  | append_singleton occurrences last ih =>
      rw [groupsOf_append_singleton]
      exact distinctKeys_addOccurrence ih last

theorem nodup_firstKeys (occurrences : List Occurrence) : (firstKeys occurrences).Nodup := by
  rw [← keys_groupsOf]
  exact distinctKeys_groupsOf occurrences

theorem occurrences_of_mem_groupsOf {key : String} {group : Group}
    {occurrences : List Occurrence} (member : (key, group) ∈ groupsOf occurrences) :
    group.occurrences = occurrencesOf key occurrences := by
  have found := (distinctKeys_groupsOf occurrences).find?_of_mem member
  rw [find?_groupsOf] at found
  exact (Group.ofOccurrences?_eq_some.mp found).symm

end StagedResolver
