/-!
# Tables that keep the order of their keys

A table is a list of entries with one entry for each key.  Entries stand in
the order in which their keys first came; giving a key a second time changes
its value and leaves it in its place.

`List.lookup` reads a table.  `insert` writes one entry and `ofEntries`
writes a list of them.
-/

namespace BuildFacts

/-- Entries by key, in the order in which the keys first came. -/
abbrev Table (α : Type) := List (String × α)

namespace Table

variable {α : Type}

/-- Gives `key` the value `value`, in place if the key is already there. -/
def insert (key : String) (value : α) : Table α → Table α
  | [] => [(key, value)]
  | (k, v) :: rest =>
    if k = key then (key, value) :: rest else (k, v) :: insert key value rest

/-- The table that a list of entries writes, from the first entry to the last. -/
def ofEntries (entries : List (String × α)) : Table α :=
  entries.foldl (fun table entry => table.insert entry.1 entry.2) []

/-- The keys of a table, in order. -/
def keys (table : Table α) : List String :=
  table.map Prod.fst

/-- Writing a key that is not in the table puts it at the end. -/
theorem insert_of_notMem {key : String} {table : Table α} (h : key ∉ keys table) (value : α) :
    table.insert key value = table ++ [(key, value)] := by
  induction table with
  | nil => rfl
  | cons entry rest ih =>
    obtain ⟨k, v⟩ := entry
    simp only [keys, List.map_cons, List.mem_cons, not_or] at h
    have hk : ¬k = key := fun he => h.1 he.symm
    simp [insert, hk, ih h.2]

end Table

end BuildFacts
