/-
First places and last values.

Entries that are written one after the other leave each key where it first came, with what
it was last written with.  Writing what has been settled so already makes no difference.
-/
import Mathlib.Data.List.Basic
import Mathlib.Data.List.Induction
import StagedResolver.Entries

namespace StagedResolver

theorem eraseDups_append_singleton (keys : List String) (last : String) :
    (keys ++ [last]).eraseDups =
      if last ∈ keys then keys.eraseDups else keys.eraseDups ++ [last] := by
  rw [List.eraseDups_append]
  by_cases known : last ∈ keys
  · have dropped : [last].removeAll keys = [] := by
      simp only [List.removeAll, List.elem_eq_mem, known, decide_true, Bool.not_true,
        List.filter_cons, List.filter_nil, Bool.false_eq_true, if_false]
    rw [dropped, if_pos known, List.eraseDups_nil, List.append_nil]
  · have kept : [last].removeAll keys = [last] := by
      simp only [List.removeAll, List.elem_eq_mem, known, decide_false, Bool.not_false,
        List.filter_cons, List.filter_nil, if_true]
    rw [kept, if_neg known]
    rfl

private theorem eraseDups_append_eraseDups (keys more : List String) :
    (keys ++ more.eraseDups).eraseDups = (keys ++ more).eraseDups := by
  induction more using List.reverseRecOn with
  | nil => rfl
  | append_singleton more last ih =>
      rw [eraseDups_append_singleton, ← List.append_assoc, eraseDups_append_singleton]
      by_cases known : last ∈ more
      · rw [if_pos known, if_pos (List.mem_append_right keys known), ih]
      · have sameMember : last ∈ keys ++ more.eraseDups ↔ last ∈ keys ++ more := by
          rw [List.mem_append, List.mem_append, List.mem_eraseDups]
        rw [if_neg known, ← List.append_assoc, eraseDups_append_singleton, ih]
        simp only [sameMember]

namespace Entries

variable {α : Type}

def firstKeys (entries : Entries α) : List String :=
  entries.keys.eraseDups

def findLast? (key : String) (entries : Entries α) : Option α :=
  find? key entries.reverse

/-- One entry for each key, where the key first comes and with what it holds last. -/
def deduplicated (entries : Entries α) : Entries α :=
  entries.firstKeys.filterMap fun key => (entries.findLast? key).map fun held => (key, held)

theorem keys_append (entries more : Entries α) :
    (entries ++ more).keys = entries.keys ++ more.keys :=
  List.map_append

private theorem findLast?_append_singleton (key : String) (entries : Entries α)
    (last : String × α) :
    findLast? key (entries ++ [last]) =
      if last.1 = key then some last.2 else findLast? key entries := by
  rw [findLast?, List.reverse_append]
  rfl

private theorem DistinctKeys.filterMap_find? {entries : Entries α}
    (distinct : DistinctKeys entries) :
    (entries.keys.filterMap fun key => (entries.find? key).map fun held => (key, held)) =
      entries := by
  induction entries with
  | nil => rfl
  | cons entry rest ih =>
      obtain ⟨first, held⟩ := entry
      obtain ⟨fresh, restDistinct⟩ := List.nodup_cons.mp distinct
      have restFinds (key : String) (member : key ∈ keys rest) :
          ((find? key ((first, held) :: rest)).map fun found => (key, found)) =
            (find? key rest).map fun found => (key, found) := by
        have different : first ≠ key := by
          rintro rfl
          exact fresh member
        simp only [find?, different, if_false]
      have firstFinds : find? first ((first, held) :: rest) = some held := by
        simp only [find?, if_true]
      show ((first :: keys rest).filterMap _) = _
      simp only [List.filterMap_cons, firstFinds, Option.map_some]
      rw [List.filterMap_congr restFinds, ih restDistinct]

/-- Entries of distinct keys are determined by their keys and by what is found under each. -/
theorem DistinctKeys.ext {entries others : Entries α} (distinct : DistinctKeys entries)
    (othersDistinct : DistinctKeys others) (sameKeys : entries.keys = others.keys)
    (sameFinds : ∀ key, entries.find? key = others.find? key) : entries = others := by
  rw [← distinct.filterMap_find?, ← othersDistinct.filterMap_find?, sameKeys]
  simp only [sameFinds]

private theorem collapse_append_singleton (entries : Entries α) (last : String × α) :
    collapse (entries ++ [last]) = put last.1 last.2 (collapse entries) := by
  rw [collapse, putAll, List.foldl_append]
  rfl

theorem keys_collapse (entries : Entries α) : (collapse entries).keys = entries.firstKeys := by
  induction entries using List.reverseRecOn with
  | nil => rfl
  | append_singleton entries last ih =>
      have sameMember : last.1 ∈ keys (collapse entries) ↔ last.1 ∈ keys entries := by
        rw [ih, firstKeys, List.mem_eraseDups]
      rw [collapse_append_singleton, firstKeys, keys_append]
      show _ = (keys entries ++ [last.1]).eraseDups
      rw [eraseDups_append_singleton, ← firstKeys, ← ih]
      by_cases known : last.1 ∈ keys entries
      · rw [if_pos known, keys_put_of_mem _ (sameMember.mpr known)]
      · rw [if_neg known, keys_put_of_notMem _ (mt sameMember.mp known)]

theorem find?_collapse (key : String) (entries : Entries α) :
    (collapse entries).find? key = entries.findLast? key := by
  induction entries using List.reverseRecOn with
  | nil => rfl
  | append_singleton entries last ih =>
      rw [collapse_append_singleton, find?_put, findLast?_append_singleton, ih]
      by_cases same : last.1 = key
      · rw [if_pos same, if_pos same.symm]
      · rw [if_neg same, if_neg fun equal => same equal.symm]

theorem mem_of_mem_collapse {entry : String × α} {entries : Entries α}
    (member : entry ∈ collapse entries) : entry ∈ entries := by
  have found := (distinctKeys_collapse entries).find?_of_mem member
  rw [find?_collapse] at found
  exact List.mem_reverse.mp (mem_of_find? found)

theorem collapse_eq_deduplicated (entries : Entries α) :
    entries.collapse = entries.deduplicated := by
  rw [← (distinctKeys_collapse entries).filterMap_find?, keys_collapse, deduplicated]
  simp only [find?_collapse]

theorem distinctKeys_deduplicated (entries : Entries α) : entries.deduplicated.DistinctKeys := by
  rw [← collapse_eq_deduplicated]
  exact distinctKeys_collapse entries

theorem collapse_append (entries more : Entries α) :
    collapse (entries ++ more) = putAll (collapse entries) more :=
  List.foldl_append

theorem putAll_collapse {entries : Entries α} (distinct : DistinctKeys entries)
    (more : Entries α) : putAll entries (collapse more) = putAll entries more := by
  have asCollapse (written : Entries α) :
      putAll entries written = collapse (entries ++ written) := by
    rw [collapse_append, distinct.collapse_eq]
  refine (distinct.putAll _).ext (distinct.putAll _) ?_ fun key => ?_
  · rw [asCollapse, asCollapse, keys_collapse, keys_collapse, firstKeys, firstKeys, keys_append,
      keys_append, keys_collapse, firstKeys, eraseDups_append_eraseDups]
  · rw [find?_putAll, find?_putAll, (distinctKeys_collapse more).collapse_eq]

end Entries

end StagedResolver
