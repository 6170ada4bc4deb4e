import LeadRules.Ledger
import LeadRules.Proofs.OrderedMap

/-! The records of the ledger by their keys. A new record goes to the end, and the oldest ones leave
when there are more than the bound. -/
namespace LeadRules.Ledger

variable {l : Ledger} {key other : LedgerKey} {time : DateTime}

def keys (l : Ledger) : List (Key × Key × Key) := l.processed.keys

theorem keys_nodup (l : Ledger) : l.keys.Nodup := l.processed.nodup_keys

theorem isProcessed_iff (l : Ledger) (key : LedgerKey) : l.isProcessed key = true ↔
    key.identity ∈ l.keys :=
  l.processed.contains_iff key.identity

theorem isProcessed_false (l : Ledger) (key : LedgerKey) :
    l.isProcessed key = false ↔ key.identity ∉ l.keys := by
  rw [← isProcessed_iff, Bool.not_eq_true]

theorem keys_record (new : l.isProcessed key = false) (time : DateTime) :
    (l.record key time).keys = (l.keys ++ [key.identity]).drop
    (l.keys.length + 1 - l.maxEntries : Int).toNat := by
  have grown : (l.processed.putWritten key.identity key (.text time.isoText)).keys =
      l.keys ++ [key.identity] := by
    exact (OrderedMap.keys_putWritten ..).trans (if_neg ((isProcessed_false l key).1 new))
  have excess : (l.processed.putWritten key.identity key (.text time.isoText)).excess l.maxEntries =
      (l.keys.length + 1 - l.maxEntries : Int).toNat := by
    rw [OrderedMap.excess, ← OrderedMap.length_keys, grown]
    simp
  rw [← grown, ← excess]
  exact OrderedMap.keys_boundTo ..

/-- The newest record stays in any ledger that can hold one. -/
theorem mem_keys_record (new : l.isProcessed key = false) (holds : 0 < l.maxEntries)
    (time : DateTime) :
    key.identity ∈ (l.record key time).keys := by
  rw [keys_record new, List.drop_append_of_le_length (by omega)]
  exact List.mem_append_right _ (List.mem_singleton_self _)

theorem keys_record_of_room (new : l.isProcessed key = false)
    (room : (l.keys.length + 1 : Int) ≤ l.maxEntries)
    (time : DateTime) : (l.record key time).keys = l.keys ++ [key.identity] := by
  have none : (l.keys.length + 1 - l.maxEntries : Int).toNat = 0 := by omega
  rw [keys_record new, none, List.drop_zero]

/-- A record that makes the ledger longer stands behind all the others. -/
theorem keys_record_of_longer (new : l.isProcessed key = false)
    (longer : l.keys.length + 1 ≤ (l.record key time).keys.length) :
    (l.record key time).keys = l.keys ++ [key.identity] := by
  rw [keys_record new, List.length_drop, List.length_append, List.length_singleton] at longer
  exact keys_record_of_room new (by omega) time

/-- A ledger that can hold no delivery and lost none had none. -/
theorem keys_record_of_full (new : l.isProcessed key = false) (full : l.maxEntries < 0)
    (kept : l.keys.length ≤ (l.record key time).keys.length) :
    (l.record key time).keys = l.keys := by
  have emptied : (l.record key time).keys = [] := by
    rw [keys_record new]
    refine List.drop_eq_nil_of_le ?_
    rw [List.length_append, List.length_singleton]
    omega
  rw [emptied] at kept ⊢
  exact (List.length_eq_zero_iff.1 (Nat.le_zero.1 kept)).symm

end LeadRules.Ledger
