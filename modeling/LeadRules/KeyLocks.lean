import LeadRules.OrderedMap

/-! A lock per key, made when it is first asked for and dropped when nobody holds or awaits it.
Holding a key takes four steps, each of which happens at once: register, acquire, release and
deregister. A caller goes on with the lock that it registered for, whatever becomes of the table.
Callers of different keys share nothing but the table. -/
namespace LeadRules

structure KeyLocks (κ : Type) [DecidableEq κ] where
  /-- The lock of each key that somebody holds or awaits. -/
  table : OrderedMap κ Nat := .empty
  /-- How many callers are registered for a lock. -/
  holders : Nat → Nat := fun _ => 0
  /-- Locks made so far; the next one gets this number. -/
  made : Nat := 0
  /-- The locks that are held now. -/
  taken : List Nat := []

namespace KeyLocks

variable {κ : Type} [DecidableEq κ]

def size (s : KeyLocks κ) : Nat := s.table.size

def count (s : KeyLocks κ) (lock holders : Nat) : KeyLocks κ :=
  { s with holders := fun other => if other = lock then holders else s.holders other }

/-- Counts a caller in, making the lock of the key if there is none. -/
def register (s : KeyLocks κ) (key : κ) : KeyLocks κ × Nat :=
  match s.table.get? key with
  | some lock => (s.count lock (s.holders lock + 1), lock)
  | none => ({ s.count s.made 1 with table := s.table.put key s.made, made := s.made + 1 }, s.made)

/-- Takes a lock; `none` while another caller has it. -/
def acquire? (s : KeyLocks κ) (lock : Nat) : Option (KeyLocks κ) :=
  if lock ∈ s.taken then none else some { s with taken := lock :: s.taken }

/-- Gives a lock back; `none` when it is not held. -/
def release? (s : KeyLocks κ) (lock : Nat) : Option (KeyLocks κ) :=
  if lock ∈ s.taken then some { s with taken := s.taken.erase lock } else none

/-- Counts a caller out of the lock it registered for. With the last one the entry of the key is
dropped; `none` when there is no such entry. -/
def deregister? (s : KeyLocks κ) (key : κ) (lock : Nat) : Option (KeyLocks κ) :=
  if s.holders lock = 1 then
    if s.table.contains key then some { s.count lock 0 with table := s.table.erase key } else none
  else some (s.count lock (s.holders lock - 1))

def enter? (s : KeyLocks κ) (key : κ) : Option (KeyLocks κ) :=
  let (s, lock) := s.register key
  s.acquire? lock

def leave? (s : KeyLocks κ) (key : κ) : Option (KeyLocks κ) := do
  let lock ← s.table.get? key
  (← s.release? lock).deregister? key lock

/-- Where a caller stands, with the key that it asked for and the lock that it got. One that is
leaving knows whether its body failed. -/
inductive Caller (κ : Type) where
  | away
  | registered (key : κ) (lock : Nat)
  | inside (key : κ) (lock : Nat)
  | leaving (key : κ) (lock : Nat) (failed : Bool)

structure Shared (κ : Type) [DecidableEq κ] where
  locks : KeyLocks κ := {}
  callers : Nat → Caller κ := fun _ => .away

def Shared.place (s : Shared κ) (locks : KeyLocks κ) (caller : Nat) (c : Caller κ) : Shared κ :=
  ⟨locks, fun other => if other = caller then c else s.callers other⟩

/-- One step of one caller. The body runs while the caller is inside; whether it returns or
fails, release and deregister follow. -/
inductive Step (s : Shared κ) : Shared κ → Prop where
  | register (caller : Nat) (key : κ) : s.callers caller = .away →
      Step s (s.place (s.locks.register key).1 caller (.registered key (s.locks.register key).2))
  | acquire (caller : Nat) {lock : Nat} {key : κ} {locks : KeyLocks κ} :
      s.callers caller = .registered key lock →
      s.locks.acquire? lock = some locks → Step s (s.place locks caller (.inside key lock))
  | release (caller : Nat) (failed : Bool) {lock : Nat} {key : κ} {locks : KeyLocks κ} :
      s.callers caller = .inside key lock → s.locks.release? lock = some locks →
      Step s (s.place locks caller (.leaving key lock failed))
  | deregister (caller : Nat) {lock : Nat} {key : κ} {failed : Bool} {locks : KeyLocks κ} :
      s.callers caller = .leaving key lock failed → s.locks.deregister? key lock = some locks →
      Step s (s.place locks caller .away)

end KeyLocks
end LeadRules
