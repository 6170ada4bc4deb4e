import LeadRules.OrderedMap
import Mathlib.Data.List.Nodup

/-! Laws of ordered maps: what is found under a key after a change, and in which
order the keys then stand. -/
namespace LeadRules

namespace Entries

variable {κ ν : Type} [DecidableEq κ]

@[simp] theorem get?_nil (key : κ) : get? key ([] : List (κ × ν)) = none := rfl

theorem get?_cons (key : κ) (e : κ × ν) (entries : List (κ × ν)) :
    get? key (e :: entries) = if e.1 = key then some e.2 else get? key entries := by
  by_cases same : e.1 = key <;> simp [get?, same]

theorem get?_append (key : κ) (a b : List (κ × ν)) :
    get? key (a ++ b) = (get? key a).or (get? key b) := by
  simp only [get?, List.find?_append]
  cases a.find? (·.1 = key) <;> simp

theorem isSome_get? (key : κ) (entries : List (κ × ν)) :
    (get? key entries).isSome ↔ key ∈ entries.map (·.1) := by
  simp [get?, List.find?_isSome]

theorem get?_eq_none {key : κ} {entries : List (κ × ν)} (absent : key ∉ entries.map (·.1)) :
    get? key entries = none := by
  rw [← Option.not_isSome_iff_eq_none, isSome_get?]
  exact absent

theorem mem_of_get? {key : κ} {value : ν} {entries : List (κ × ν)}
    (found : get? key entries = some value) : (key, value) ∈ entries := by
  obtain ⟨⟨k, v⟩, first, rfl⟩ := Option.map_eq_some_iff.1 found
  have same : k = key := by simpa using List.find?_some first
  exact same ▸ List.mem_of_find?_eq_some first

theorem get?_of_mem {e : κ × ν} {entries : List (κ × ν)} (distinct : (entries.map (·.1)).Nodup)
    (member : e ∈ entries) :
    get? e.1 entries = some e.2 := by
  induction entries with
  | nil => cases member
  | cons first rest ih =>
    rw [List.map_cons, List.nodup_cons] at distinct
    rw [get?_cons]
    rcases List.mem_cons.1 member with rfl | later
    · rw [if_pos rfl]
    · have apart : first.1 ≠ e.1 := fun same => distinct.1 (same ▸ List.mem_map_of_mem later)
      rw [if_neg apart, ih distinct.2 later]

theorem put_of_absent {key : κ} {entries : List (κ × ν)}
    (absent : key ∉ entries.map (·.1)) (value : ν) :
    put key value entries = entries ++ [(key, value)] := if_neg absent

theorem mem_put {key : κ} {value : ν} {e : κ × ν} {entries : List (κ × ν)}
    (member : e ∈ put key value entries) :
    e ∈ entries ∨ e = (key, value) := by
  unfold put at member
  split at member
  · obtain ⟨old, there, rfl⟩ := List.mem_map.1 member
    split
    · exact .inr rfl
    · exact .inl there
  · simpa using member

/-- Overwriting one entry hides no other. -/
theorem get?_overwrite_of_ne {key other : κ} (apart : other ≠ key) (value : ν)
    (entries : List (κ × ν)) :
    get? other (entries.map fun e => if e.1 = key then (key, value) else e) =
      get? other entries := by
  induction entries with
  | nil => rfl
  | cons e rest ih =>
    rw [List.map_cons, get?_cons, get?_cons, ih]
    by_cases here : e.1 = key
    · rw [if_pos here, if_neg (Ne.symm apart), if_neg fun h => apart (h.symm.trans here)]
    · rw [if_neg here]

theorem get?_overwrite_self {key : κ} (value : ν) {entries : List (κ × ν)}
    (present : key ∈ entries.map (·.1)) :
    get? key (entries.map fun e => if e.1 = key then (key, value) else e) = some value := by
  induction entries with
  | nil => simp at present
  | cons e rest ih =>
    rw [List.map_cons, get?_cons]
    by_cases here : e.1 = key
    · simp [here]
    · have beyond : key ∈ rest.map (·.1) := (List.mem_cons.1 present).resolve_left (Ne.symm here)
      rw [if_neg here, if_neg here, ih beyond]

theorem get?_put (key other : κ) (value : ν) (entries : List (κ × ν)) :
    get? other (put key value entries) =
      if other = key then some value else get? other entries := by
  unfold put
  split
  next present =>
    split
    next same => rw [same, get?_overwrite_self value present]
    next apart => exact get?_overwrite_of_ne apart value entries
  next absent =>
    rw [get?_append, get?_cons, get?_nil]
    by_cases same : other = key
    · simp [same, get?_eq_none absent]
    · simp [same, Ne.symm same]

theorem get?_erase (key other : κ) (entries : List (κ × ν)) :
    get? other (erase key entries) = if other = key then none else get? other entries := by
  induction entries with
  | nil => simp [erase]
  | cons e rest ih =>
    unfold erase at ih ⊢
    by_cases here : e.1 = key
    · by_cases same : other = key
      · simpa [here, same] using ih
      · have apart : ¬ key = other := fun h => same h.symm
        simpa [here, same, apart, get?_cons] using ih
    · by_cases there : e.1 = other
      · have apart : ¬ other = key := fun h => here (there.trans h)
        simp [there, apart, get?_cons]
      · simpa [here, there, get?_cons] using ih

/-- Dropping entries by their keys hides none of the others. -/
theorem get?_filter (keep : κ → Bool) {key : κ} (kept : keep key = true) (entries : List (κ × ν)) :
    get? key (entries.filter fun e => keep e.1) = get? key entries := by
  induction entries with
  | nil => rfl
  | cons e rest ih =>
    rw [List.filter_cons]
    by_cases here : e.1 = key
    · rw [if_pos (here ▸ kept), get?_cons, get?_cons, if_pos here, if_pos here]
    · split
      · rw [get?_cons, get?_cons, if_neg here, if_neg here, ih]
      · rw [get?_cons, if_neg here, ih]

/-- Dropping entries does not hide the one that is found, unless it is dropped itself. -/
theorem get?_filter_found {keep : κ × ν → Bool} {key : κ} {entries : List (κ × ν)}
    (kept : ∀ v, get? key entries = some v → keep (key, v) = true) :
    get? key (entries.filter keep) = get? key entries := by
  induction entries with
  | nil => rfl
  | cons e rest ih =>
    rw [get?_cons] at kept ⊢
    by_cases here : e.1 = key
    · subst here
      rw [List.filter_cons_of_pos (kept e.2 (if_pos rfl)), get?_cons, if_pos rfl, if_pos rfl]
    · rw [if_neg here] at kept ⊢
      rw [List.filter_cons]
      split
      · rw [get?_cons, if_neg here, ih kept]
      · exact ih kept

end Entries

namespace OrderedMap

variable {κ ν φ : Type} [DecidableEq κ]

theorem nodup_keys (m : OrderedMap κ ν) : m.keys.Nodup := m.distinct

@[simp] theorem length_keys (m : OrderedMap κ ν) : m.keys.length = m.size := by simp [keys, size]

theorem contains_iff (m : OrderedMap κ ν) (key : κ) : m.contains key ↔ key ∈ m.keys :=
  Entries.isSome_get? key m.entries

theorem get?_put (m : OrderedMap κ ν) (key other : κ) (value : ν) :
    (m.put key value).get? other = if other = key then some value else m.get? other :=
  Entries.get?_put key other value m.entries

theorem keys_put (m : OrderedMap κ ν) (key : κ) (value : ν) :
    (m.put key value).keys = if key ∈ m.keys then m.keys else m.keys ++ [key] :=
  Entries.keys_put key value m.entries

theorem keys_putWritten (m : OrderedMap κ (φ × ν)) (key : κ) (written : φ) (value : ν) :
    (m.putWritten key written value).keys = if key ∈ m.keys then m.keys else m.keys ++ [key] :=
  keys_put ..

theorem get?_erase (m : OrderedMap κ ν) (key other : κ) :
    (m.erase key).get? other = if other = key then none else m.get? other :=
  Entries.get?_erase key other m.entries

theorem get?_putWrittenLast (m : OrderedMap κ (φ × ν)) (key other : κ) (written : φ) (value : ν) :
    (m.putWrittenLast key written value).get? other =
      if other = key then some (((m.get? key).map (·.1)).getD written, value)
      else m.get? other := by
  unfold putWrittenLast putLast
  rw [get?_put]
  split
  next => rfl
  next apart => rw [get?_erase, if_neg apart]

theorem keys_erase (m : OrderedMap κ ν)
    (key : κ) : (m.erase key).keys = m.keys.filter (· ≠ key) := by
  simp [keys, erase, filter, List.filter_map, Function.comp_def]

theorem keys_putWrittenLast (m : OrderedMap κ (φ × ν)) (key : κ) (written : φ) (value : ν) :
    (m.putWrittenLast key written value).keys = m.keys.filter (· ≠ key) ++ [key] := by
  unfold putWrittenLast putLast
  rw [keys_put, if_neg (by simp [keys_erase]), keys_erase]

theorem keys_boundTo (m : OrderedMap κ ν) (bound : Int) :
    (m.boundTo bound).keys = m.keys.drop (m.excess bound) := List.map_drop

/-- A map within its bound loses nothing. -/
theorem boundTo_of_excess {m : OrderedMap κ ν} {bound : Int} (within : m.excess bound = 0) :
    m.boundTo bound = m :=
  eq_of_entries (by simp [boundTo, dropOldest, within])

theorem mem_entries_boundTo {m : OrderedMap κ ν} {bound : Int} {e : κ × ν}
    (member : e ∈ (m.boundTo bound).entries) :
    e ∈ m.entries := List.mem_of_mem_drop member

/-- What is found under a bound was found before. -/
theorem get?_of_boundTo {m : OrderedMap κ ν} {bound : Int} {key : κ} {v : ν}
    (left : (m.boundTo bound).get? key = some v) :
    m.get? key = some v :=
      Entries.get?_of_mem m.distinct (mem_entries_boundTo (Entries.mem_of_get? left))

/-- Every entry after a value was stored is an old one or the one that was stored. -/
theorem mem_putWritten {m : OrderedMap κ (φ × ν)} {key : κ} {written : φ} {value : ν}
    {e : κ × φ × ν}
    (member : e ∈ (m.putWritten key written value).entries) :
    e ∈ m.entries ∨ e = (key, ((m.get? key).map (·.1)).getD written, value) :=
      Entries.mem_put member

theorem mem_putWrittenLast {m : OrderedMap κ (φ × ν)} {key : κ} {written : φ} {value : ν}
    {e : κ × φ × ν}
    (member : e ∈ (m.putWrittenLast key written value).entries) :
    e ∈ m.entries ∨ e = (key, ((m.get? key).map (·.1)).getD written, value) :=
  (Entries.mem_put member).imp_left fun old => (List.mem_filter.1 old).1

theorem get?_filter (keep : κ → Bool) {key : κ} (kept : keep key = true) (m : OrderedMap κ ν) :
    (m.filter fun k _ => keep k).get? key = m.get? key := Entries.get?_filter keep kept m.entries

theorem get?_filter_found {keep : κ → ν → Bool} {key : κ} {m : OrderedMap κ ν}
    (kept : ∀ v, m.get? key = some v → keep key v = true) : (m.filter keep).get? key = m.get? key :=
  Entries.get?_filter_found kept

theorem entries_putWrittenLast (m : OrderedMap κ (φ × ν)) (key : κ) (written : φ) (value : ν) :
    (m.putWrittenLast key written value).entries =
      (m.erase key).entries ++ [(key, ((m.get? key).map (·.1)).getD written, value)] := by
  have absent : key ∉ (m.erase key).keys := by simp [keys_erase]
  exact Entries.put_of_absent absent _

/-- What is stored under a key that is dropped makes no difference. -/
theorem filter_putWrittenLast_dropped (keep : κ → Bool) {key : κ} (dropped : keep key = false)
    (m : OrderedMap κ (φ × ν)) (written : φ) (value : ν) :
    ((m.putWrittenLast key written value).filter fun k _ => keep k) =
      m.filter fun k _ => keep k := by
  refine eq_of_entries ?_
  simp only [filter, entries_putWrittenLast, erase, List.filter_append, List.filter_filter,
    List.filter_cons, dropped, Bool.false_eq_true, if_false, List.filter_nil, List.append_nil]
  refine List.filter_congr fun e _ => ?_
  by_cases here : e.1 = key
  · simp [here, dropped]
  · simp [here]

/-- What is stored under a key that is kept is stored beside the others that are. -/
theorem filter_putWrittenLast_kept (keep : κ → Bool) {key : κ} (kept : keep key = true)
    (m : OrderedMap κ (φ × ν)) (written : φ) (value : ν) :
    ((m.putWrittenLast key written value).filter fun k _ => keep k) =
      (m.filter fun k _ => keep k).putWrittenLast key written value := by
  refine eq_of_entries ?_
  rw [entries_putWrittenLast, get?_filter keep kept]
  simp only [filter, entries_putWrittenLast, erase, List.filter_append, List.filter_filter,
    List.filter_cons, kept, if_true, List.filter_nil, Bool.and_comm]

/-- Entries with keys of their own make the map of just these entries. -/
theorem entries_ofList (entries : List (κ × ν)) (distinct : (entries.map (·.1)).Nodup) :
    (ofList entries).entries = entries := by
  suffices grown : ∀ (m : OrderedMap κ ν), (m.entries ++ entries).map (·.1) |>.Nodup →
      (entries.foldl (fun m e => m.put e.1 e.2) m).entries = m.entries ++ entries from
    grown empty (by simpa [empty] using distinct)
  clear distinct
  induction entries with
  | nil => intro m _; simp
  | cons e rest ih =>
    intro m distinct
    have fresh : e.1 ∉ m.entries.map (·.1) := by
      rw [List.map_append, List.nodup_append] at distinct
      exact fun h => distinct.2.2 _ h _ (by simp) rfl
    have put : (m.put e.1 e.2).entries = m.entries ++ [e] := Entries.put_of_absent fresh e.2
    rw [List.foldl_cons, ih (m.put e.1 e.2) (by simpa [put] using distinct), put]
    simp

/-- Of the entries with one key the last one counts. -/
theorem get?_ofList (entries : List (κ × ν)) (key : κ) :
    (ofList entries).get? key = (entries.reverse.find? (·.1 = key)).map (·.2) := by
  suffices grown : ∀ (m : OrderedMap κ ν), (entries.foldl (fun m e => m.put e.1 e.2) m).get? key =
      ((entries.reverse.find? (·.1 = key)).map (·.2)).or (m.get? key) from
    (grown empty).trans Option.or_none
  induction entries with
  | nil => exact fun m => rfl
  | cons e rest ih =>
    intro m
    rw [List.foldl_cons, ih, get?_put, List.reverse_cons, List.find?_append]
    cases rest.reverse.find? (·.1 = key) with
    | some found => rfl
    | none =>
      by_cases same : key = e.1
      · simp [same]
      · simp [same, Ne.symm same]

end OrderedMap
end LeadRules
