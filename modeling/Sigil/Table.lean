import Sigil.Text.Order

/-!
Tables keyed by text. Inserting under a known key replaces its value and keeps its place; a new key
goes to the end. A table is known through `get?`.
-/
namespace Sigil

structure Table (α : Type) where
  entries : List (Text × α)
  deriving DecidableEq, Repr

namespace Table
variable {α : Type}

def empty : Table α := ⟨[]⟩

def isEmpty (table : Table α) : Bool := table.entries.isEmpty

def lookup (key : Text) : List (Text × α) → Option α
  | [] => none
  | (name, value) :: rest => if name = key then some value else lookup key rest

def put (key : Text) (value : α) : List (Text × α) → List (Text × α)
  | [] => [(key, value)]
  | (name, old) :: rest => if name = key then (name, value) :: rest else (name, old) :: put key value rest

def get? (table : Table α) (key : Text) : Option α := lookup key table.entries

def contains (table : Table α) (key : Text) : Bool := (table.get? key).isSome

def insert (table : Table α) (key : Text) (value : α) : Table α := ⟨put key value table.entries⟩

def erase (table : Table α) (key : Text) : Table α := ⟨table.entries.filter fun entry => entry.1 != key⟩

def extend (table added : Table α) : Table α :=
  added.entries.foldl (fun table entry => table.insert entry.1 entry.2) table

def mapEntries {β : Type} (f : Text → α → β) (table : Table α) : Table β :=
  ⟨table.entries.map fun entry => (entry.1, f entry.1 entry.2)⟩

def names (table : Table α) : List Text := Text.sort (table.entries.map Prod.fst)

@[simp] theorem getEmpty (key : Text) : (empty : Table α).get? key = none := rfl

@[simp] theorem getInsert (table : Table α) (key other : Text) (value : α) :
    (table.insert key value).get? other = if key = other then some value else table.get? other := by
  obtain ⟨entries⟩ := table
  simp only [get?, insert]
  induction entries with
  | nil => simp [put, lookup]
  | cons entry rest ih =>
    obtain ⟨name, old⟩ := entry
    by_cases same : name = key
    · subst same
      simp only [put, if_true, lookup]
      split <;> rfl
    · simp only [put, if_neg same, lookup, ih]
      by_cases here : name = other
      · subst here; simp [Ne.symm same]
      · simp [here]

theorem insertGet {table : Table α} {key : Text} {value : α} (h : table.get? key = some value) :
    table.insert key value = table := by
  obtain ⟨entries⟩ := table
  simp only [get?] at h
  simp only [insert, mk.injEq]
  induction entries with
  | nil => simp [lookup] at h
  | cons entry rest ih =>
    obtain ⟨name, old⟩ := entry
    simp only [lookup] at h
    simp only [put]
    by_cases same : name = key
    · simp only [same, if_true, Option.some.injEq] at h
      simp [same, h]
    · simp only [same, if_false] at h
      simp [same, ih h]

theorem getMapEntries {β : Type} (f : Text → α → β) (table : Table α) (key : Text) :
    (table.mapEntries f).get? key = (table.get? key).map (f key) := by
  obtain ⟨entries⟩ := table
  simp only [get?, mapEntries]
  induction entries with
  | nil => rfl
  | cons entry rest ih =>
    rw [List.map_cons, lookup, lookup, ih]
    split
    · rename_i same
      rw [same]
      rfl
    · rfl

theorem mapEntriesInsert {β : Type} (f : Text → α → β) (table : Table α) (key : Text) (value : α) :
    (table.mapEntries f).insert key (f key value) = (table.insert key value).mapEntries f := by
  obtain ⟨entries⟩ := table
  simp only [insert, mapEntries, mk.injEq]
  induction entries with
  | nil => rfl
  | cons entry rest ih =>
    simp only [List.map_cons, put]
    split
    · rename_i same
      rw [same]
      rfl
    · rw [List.map_cons, ih]

end Table
end Sigil
