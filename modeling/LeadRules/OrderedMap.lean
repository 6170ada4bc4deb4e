/-! Maps that remember the order in which their keys came. Overwriting an entry keeps its
place; `putLast` moves it to the end, which is what a recency order needs. The raw operations
on lists of pairs come first, the map adds that its keys are distinct. -/
namespace LeadRules

namespace Entries

variable {κ ν : Type} [DecidableEq κ]

def get? (key : κ) (entries : List (κ × ν)) : Option ν :=
  (entries.find? (·.1 = key)).map (·.2)

def erase (key : κ) (entries : List (κ × ν)) : List (κ × ν) :=
  entries.filter (·.1 ≠ key)

/-- Overwrites the entry of a key in its place, or adds one at the end. -/
def put (key : κ) (value : ν) (entries : List (κ × ν)) : List (κ × ν) :=
  if key ∈ entries.map (·.1) then
    entries.map fun e => if e.1 = key then (key, value) else e
  else entries ++ [(key, value)]

theorem keys_put (key : κ) (value : ν) (entries : List (κ × ν)) :
    (put key value entries).map (·.1) =
      if key ∈ entries.map (·.1) then entries.map (·.1) else entries.map (·.1) ++ [key] := by
  unfold put
  split
  · rw [List.map_map]
    apply List.map_congr_left
    intro e _
    by_cases h : e.1 = key <;> simp [h]
  · simp

theorem nodup_keys_put {key : κ} {value : ν} {entries : List (κ × ν)}
    (h : (entries.map (·.1)).Nodup) : ((put key value entries).map (·.1)).Nodup := by
  rw [keys_put]
  split
  · exact h
  · next absent =>
    exact List.nodup_append.2 ⟨h, by simp, by
      intro a ha b hb
      simp only [List.mem_singleton] at hb
      exact fun e => absent (hb ▸ e ▸ ha)⟩

omit [DecidableEq κ] in
theorem nodup_keys_filter {keep : κ × ν → Bool} {entries : List (κ × ν)}
    (h : (entries.map (·.1)).Nodup) : ((entries.filter keep).map (·.1)).Nodup :=
  h.sublist (List.filter_sublist.map _)

end Entries

structure OrderedMap (κ ν : Type) [DecidableEq κ] where
  entries : List (κ × ν) := []
  distinct : (entries.map (·.1)).Nodup := by simp

namespace OrderedMap

variable {κ ν : Type} [DecidableEq κ]

theorem eq_of_entries {a b : OrderedMap κ ν} (h : a.entries = b.entries) : a = b := by
  cases a; cases b; cases h; rfl

instance [DecidableEq ν] : DecidableEq (OrderedMap κ ν) := fun a b =>
  decidable_of_iff (a.entries = b.entries) ⟨eq_of_entries, fun h => h ▸ rfl⟩

def empty : OrderedMap κ ν := {}

def keys (m : OrderedMap κ ν) : List κ := m.entries.map (·.1)
def values (m : OrderedMap κ ν) : List ν := m.entries.map (·.2)
def size (m : OrderedMap κ ν) : Nat := m.entries.length

def get? (m : OrderedMap κ ν) (key : κ) : Option ν := Entries.get? key m.entries
def contains (m : OrderedMap κ ν) (key : κ) : Bool := (m.get? key).isSome

def put (m : OrderedMap κ ν) (key : κ) (value : ν) : OrderedMap κ ν :=
  ⟨Entries.put key value m.entries, Entries.nodup_keys_put m.distinct⟩

def filter (keep : κ → ν → Bool) (m : OrderedMap κ ν) : OrderedMap κ ν :=
  ⟨m.entries.filter fun e => keep e.1 e.2, Entries.nodup_keys_filter m.distinct⟩

def erase (m : OrderedMap κ ν) (key : κ) : OrderedMap κ ν := m.filter fun k _ => k ≠ key

/-- Stores a value and makes its key the last one. -/
def putLast (m : OrderedMap κ ν) (key : κ) (value : ν) : OrderedMap κ ν :=
  (m.erase key).put key value

/-- Stores a value beside its key as it was written; a key that is there keeps its first form. -/
def putWritten {φ : Type} (m : OrderedMap κ (φ × ν)) (key : κ) (written : φ) (value : ν) :
    OrderedMap κ (φ × ν) :=
  m.put key (((m.get? key).map (·.1)).getD written, value)

/-- Stores a value like `putWritten` and makes its key the last one. -/
def putWrittenLast {φ : Type} (m : OrderedMap κ (φ × ν)) (key : κ) (written : φ) (value : ν) :
    OrderedMap κ (φ × ν) :=
  m.putLast key (((m.get? key).map (·.1)).getD written, value)

def dropOldest (m : OrderedMap κ ν) (count : Nat) : OrderedMap κ ν :=
  ⟨m.entries.drop count, by
    rw [List.map_drop]; exact m.distinct.sublist (List.drop_sublist _ _)⟩

/-- How many entries are too many under a bound. A bound below zero wants more entries dropped
than there are. -/
def excess (m : OrderedMap κ ν) (bound : Int) : Nat :=
  (m.size - bound).toNat

def boundTo (m : OrderedMap κ ν) (bound : Int) : OrderedMap κ ν :=
  m.dropOldest (m.excess bound)

/-- Later entries overwrite earlier ones of the same key in their place. -/
def ofList (entries : List (κ × ν)) : OrderedMap κ ν :=
  entries.foldl (fun m e => m.put e.1 e.2) empty

end OrderedMap
end LeadRules
