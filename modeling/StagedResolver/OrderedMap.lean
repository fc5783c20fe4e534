/-
Tables whose keys are distinct by construction.

A table is built by writing entries only, so that every key has one entry, in
the place of its first writing and with the value of its last one.
-/
import StagedResolver.Entries

namespace StagedResolver

structure OrderedMap (α : Type) where
  entries : Entries α
  distinct : entries.DistinctKeys

namespace OrderedMap

variable {α β : Type}

def empty : OrderedMap α :=
  ⟨[], Entries.distinctKeys_nil⟩

instance : Inhabited (OrderedMap α) := ⟨empty⟩

theorem eq_of_entries {first second : OrderedMap α}
    (same : first.entries = second.entries) : first = second := by
  cases first
  cases second
  cases same
  rfl

def find? (key : String) (table : OrderedMap α) : Option α :=
  table.entries.find? key

def has (key : String) (table : OrderedMap α) : Bool :=
  table.entries.has key

def position? (key : String) (table : OrderedMap α) : Option Nat :=
  table.entries.position? key

def put (key : String) (held : α) (table : OrderedMap α) : OrderedMap α :=
  ⟨table.entries.put key held, table.distinct.put key held⟩

def putAll (table : OrderedMap α) (more : Entries α) : OrderedMap α :=
  ⟨table.entries.putAll more, table.distinct.putAll more⟩

/-- The table of a list of entries: first place, last value. -/
def ofEntries (entries : Entries α) : OrderedMap α :=
  ⟨entries.collapse, entries.distinctKeys_collapse⟩

def mapValues (change : String → α → β) (table : OrderedMap α) : OrderedMap β :=
  ⟨table.entries.mapValues change, by
    show (Entries.keys _).Nodup
    rw [Entries.keys_mapValues]
    exact table.distinct⟩

def size (table : OrderedMap α) : Nat :=
  table.entries.length

end OrderedMap

end StagedResolver
