import LeadRules.KeyLocks
import LeadRules.Proofs.OrderedMap
import Mathlib.Data.Finset.Card

/-! Locks per key. In whatever order the steps of the callers come, the table has a lock for a key
as long as somebody is registered for it, and that is the lock which all of them got. So a caller
waits only while another one is inside with the same key, every caller finds what it gives back,
and nothing is left when all are away. -/
namespace LeadRules.KeyLocks

variable {κ : Type}

namespace Caller

def stake? : Caller κ → Option (κ × Nat)
  | away => none
  | registered key lock | inside key lock | leaving key lock _ => some (key, lock)

def held? : Caller κ → Option Nat
  | inside _ lock => some lock
  | _ => none

theorem held?_eq_some {c : Caller κ} {lock : Nat} : c.held? = some lock ↔
    ∃ key, c = .inside key lock := by
  cases c <;> simp [held?]

end Caller

structure Guarded (taken : List Nat) (held : Nat → Option Nat) : Prop where
  nodup : taken.Nodup
  mem_iff : ∀ lock, lock ∈ taken ↔ ∃ caller, held caller = some lock
  alone : ∀ caller other lock, held caller = some lock → held other = some lock → caller = other

namespace Guarded

variable {taken : List Nat} {held : Nat → Option Nat} {caller lock : Nat}

theorem acquire (guarded : Guarded taken held) (idle : held caller = none) (free : lock ∉ taken) :
    Guarded (lock :: taken) (Function.update held caller (some lock)) where
  nodup := List.nodup_cons.2 ⟨free, guarded.nodup⟩
  mem_iff l := by
    rw [List.mem_cons, guarded.mem_iff]
    constructor
    · rintro (rfl | ⟨c, has⟩)
      · exact ⟨caller, Function.update_self ..⟩
      · have apart : c ≠ caller := by
          rintro rfl
          cases idle.symm.trans has
        exact ⟨c, (Function.update_of_ne apart ..).trans has⟩
    · rintro ⟨c, has⟩
      rw [Function.update_apply] at has
      split at has
      · exact .inl (Option.some.inj has).symm
      · exact .inr ⟨c, has⟩
  alone c d l first second := by
    have absent {c : Nat} : held c ≠ some lock :=
      fun has => free ((guarded.mem_iff lock).2 ⟨c, has⟩)
    rw [Function.update_apply] at first second
    split at first
    · cases first
      split at second
      · simp_all
      · exact absurd second absent
    · split at second
      · cases second
        exact absurd first absent
      · exact guarded.alone c d l first second

theorem release (guarded : Guarded taken held) (has : held caller = some lock) :
    Guarded (taken.erase lock) (Function.update held caller none) where
  nodup := guarded.nodup.erase lock
  mem_iff l := by
    rw [guarded.nodup.mem_erase_iff, guarded.mem_iff]
    constructor
    · rintro ⟨other, c, has'⟩
      have apart : c ≠ caller := by
        rintro rfl
        exact other (Option.some.inj (has'.symm.trans has))
      exact ⟨c, (Function.update_of_ne apart ..).trans has'⟩
    · rintro ⟨c, has'⟩
      rw [Function.update_apply] at has'
      split at has'
      · cases has'
      next apart =>
        refine ⟨?_, c, has'⟩
        rintro rfl
        exact apart (guarded.alone c caller l has' has)
  alone c d l first second := by
    rw [Function.update_apply] at first second
    split at first
    · cases first
    · split at second
      · cases second
      · exact guarded.alone c d l first second

end Guarded

variable [DecidableEq κ] {locks : KeyLocks κ} {stakes : Nat → Option (κ × Nat)} {caller lock : Nat}
  {key : κ} {s t : Shared κ}

/-- Each lock has as many holders as there are callers registered for it. -/
def Tallied (locks : KeyLocks κ) (stakes : Nat → Option (κ × Nat)) : Prop :=
  ∀ lock, ∃ callers : Finset Nat, locks.holders lock = callers.card ∧ ∀ caller, caller ∈ callers ↔
    ∃ key, stakes caller = some (key, lock)

namespace Tallied

theorem join (tallied : Tallied locks stakes) (away : stakes caller = none) (key : κ) (lock : Nat) :
    Tallied (locks.count lock (locks.holders lock + 1))
      (Function.update stakes caller (some (key, lock))) := by
  intro l
  obtain ⟨callers, number, mem⟩ := tallied l
  have absent : caller ∉ callers := fun member => by
    obtain ⟨k, staked⟩ := (mem caller).1 member
    cases away.symm.trans staked
  by_cases same : l = lock
  · subst same
    refine ⟨insert caller callers, ?_, fun c => ?_⟩
    · rw [Finset.card_insert_of_notMem absent, ← number]
      exact if_pos rfl
    · rw [Finset.mem_insert, Function.update_apply, mem]
      split <;> simp_all
  · refine ⟨callers, (if_neg same).trans number, fun c => ?_⟩
    rw [mem, Function.update_apply]
    split
    next self => simp [self, away, Ne.symm same]
    next => rfl

theorem leave (tallied : Tallied locks stakes) (staked : stakes caller = some (key, lock)) :
    Tallied (locks.count lock (locks.holders lock - 1)) (Function.update stakes caller none) := by
  intro l
  obtain ⟨callers, number, mem⟩ := tallied l
  by_cases same : l = lock
  · subst same
    refine ⟨callers.erase caller, ?_, fun c => ?_⟩
    · rw [Finset.card_erase_of_mem ((mem caller).2 ⟨key, staked⟩), ← number]
      exact if_pos rfl
    · rw [Finset.mem_erase, Function.update_apply, mem]
      split <;> simp_all
  · refine ⟨callers, (if_neg same).trans number, fun c => ?_⟩
    rw [mem, Function.update_apply]
    split
    next self => simp [self, staked, Ne.symm same]
    next => rfl

/-- A lock with one holder is that of one caller alone. -/
theorem alone (tallied : Tallied locks stakes) (single : locks.holders lock = 1)
    (staked : stakes caller = some (key, lock))
    {other : Nat} {k : κ} (staked' : stakes other = some (k, lock)) : other = caller := by
  obtain ⟨callers, number, mem⟩ := tallied lock
  obtain ⟨c, rfl⟩ := Finset.card_eq_one.1 (number.symm.trans single)
  have first := (mem caller).2 ⟨key, staked⟩
  have second := (mem other).2 ⟨k, staked'⟩
  rw [Finset.mem_singleton] at first second
  exact second.trans first.symm

/-- A lock that has not just one holder is that of another caller, too. -/
theorem exists_other (tallied : Tallied locks stakes) (several : locks.holders lock ≠ 1)
    (staked : stakes caller = some (key, lock)) :
    ∃ other k, other ≠ caller ∧ stakes other = some (k, lock) := by
  obtain ⟨callers, number, mem⟩ := tallied lock
  have some : 0 < callers.card := Finset.card_pos.2 ⟨caller, (mem caller).2 ⟨key, staked⟩⟩
  obtain ⟨other, member, apart⟩ := Finset.exists_mem_ne (show 1 < callers.card by omega) caller
  obtain ⟨k, stays⟩ := (mem other).1 member
  exact ⟨other, k, apart, stays⟩

end Tallied

/-- The table has a lock for the keys that somebody is registered for, and for no other ones. That
is the lock which they have, and no other key has it. -/
structure Listed (table : OrderedMap κ Nat) (made : Nat)
    (stakes : Nat → Option (κ × Nat)) : Prop where
  entry : ∀ caller key lock, stakes caller = some (key, lock) → table.get? key = some lock
  live : ∀ key lock, table.get? key = some lock → ∃ caller, stakes caller = some (key, lock)
  apart : ∀ key other lock, table.get? key = some lock → table.get? other = some lock → key = other
  below : ∀ key lock, table.get? key = some lock → lock < made

namespace Listed

variable {table : OrderedMap κ Nat} {made : Nat}

theorem join (listed : Listed table made stakes) (away : stakes caller = none)
    (found : table.get? key = some lock) :
    Listed table made (Function.update stakes caller (some (key, lock))) where
  entry c k l staked := by
    rw [Function.update_apply] at staked
    split at staked
    · cases staked
      exact found
    · exact listed.entry c k l staked
  live k l there := by
    obtain ⟨c, staked⟩ := listed.live k l there
    have apart : c ≠ caller := by
      rintro rfl
      cases away.symm.trans staked
    exact ⟨c, (Function.update_of_ne apart ..).trans staked⟩
  apart := listed.apart
  below := listed.below

theorem make (listed : Listed table made stakes) (away : stakes caller = none)
    (missing : table.get? key = none) :
    Listed (table.put key made) (made + 1) (Function.update stakes caller (some (key, made))) where
  entry c k l staked := by
    rw [Function.update_apply] at staked
    rw [OrderedMap.get?_put]
    split at staked
    · cases staked
      exact if_pos rfl
    · have there := listed.entry c k l staked
      have other : k ≠ key := by
        rintro rfl
        cases missing.symm.trans there
      rw [if_neg other, there]
  live k l there := by
    rw [OrderedMap.get?_put] at there
    split at there
    next same =>
      cases there
      exact ⟨caller, by rw [Function.update_self, same]⟩
    next =>
      obtain ⟨c, staked⟩ := listed.live k l there
      have apart : c ≠ caller := by
        rintro rfl
        cases away.symm.trans staked
      exact ⟨c, (Function.update_of_ne apart ..).trans staked⟩
  apart k k' l first second := by
    rw [OrderedMap.get?_put] at first second
    split at first
    next same =>
      cases first
      split at second
      next same' => exact same.trans same'.symm
      next => exact absurd (listed.below k' made second) (Nat.lt_irrefl made)
    next =>
      split at second
      next =>
        cases second
        exact absurd (listed.below k made first) (Nat.lt_irrefl made)
      next => exact listed.apart k k' l first second
  below k l there := by
    rw [OrderedMap.get?_put] at there
    split at there
    · cases there
      exact Nat.lt_succ_self made
    · exact Nat.lt_succ_of_lt (listed.below k l there)

/-- A caller that leaves while another one stays registered for the lock. -/
theorem leave (listed : Listed table made stakes) (staked : stakes caller = some (key, lock))
    {other : Nat} {k : κ}
    (apart : other ≠ caller) (stays : stakes other = some (k, lock)) :
    Listed table made (Function.update stakes caller none) where
  entry c k l staked := by
    rw [Function.update_apply] at staked
    split at staked
    · cases staked
    · exact listed.entry c k l staked
  live k' l there := by
    obtain ⟨c, staked'⟩ := listed.live k' l there
    by_cases self : c = caller
    · rw [self, staked] at staked'
      cases staked'
      obtain rfl := listed.apart k key lock (listed.entry other k lock stays) there
      exact ⟨other, (Function.update_of_ne apart ..).trans stays⟩
    · exact ⟨c, (Function.update_of_ne self ..).trans staked'⟩
  apart := listed.apart
  below := listed.below

/-- The last caller that is registered for a lock leaves with the entry of its key. -/
theorem drop (listed : Listed table made stakes) (staked : stakes caller = some (key, lock))
    (alone : ∀ other k, stakes other = some (k, lock) → other = caller) :
    Listed (table.erase key) made (Function.update stakes caller none) where
  entry c k l staked' := by
    rw [Function.update_apply] at staked'
    split at staked'
    · cases staked'
    next apart =>
      have there := listed.entry c k l staked'
      rw [OrderedMap.get?_erase]
      split
      next same =>
        rw [same, listed.entry caller key lock staked] at there
        cases there
        exact absurd (alone c k staked') apart
      next => exact there
  live k l there := by
    rw [OrderedMap.get?_erase] at there
    split at there
    · cases there
    next other =>
      obtain ⟨c, staked'⟩ := listed.live k l there
      have apart : c ≠ caller := by
        rintro rfl
        rw [staked] at staked'
        cases staked'
        exact other rfl
      exact ⟨c, (Function.update_of_ne apart ..).trans staked'⟩
  apart k k' l first second := by
    rw [OrderedMap.get?_erase] at first second
    split at first
    · cases first
    · split at second
      · cases second
      · exact listed.apart k k' l first second
  below k l there := by
    rw [OrderedMap.get?_erase] at there
    split at there
    · cases there
    · exact listed.below k l there

end Listed

namespace Shared

def stake? (s : Shared κ) (caller : Nat) : Option (κ × Nat) := (s.callers caller).stake?

def held? (s : Shared κ) (caller : Nat) : Option Nat := (s.callers caller).held?

theorem stake?_place (s : Shared κ) (locks : KeyLocks κ) (caller : Nat) (c : Caller κ) :
    (s.place locks caller c).stake? = Function.update s.stake? caller c.stake? := by
  funext other
  rw [Function.update_apply]
  simp only [stake?, place]
  split <;> rfl

theorem held?_place (s : Shared κ) (locks : KeyLocks κ) (caller : Nat) (c : Caller κ) :
    (s.place locks caller c).held? = Function.update s.held? caller c.held? := by
  funext other
  rw [Function.update_apply]
  simp only [held?, place]
  split <;> rfl

/-- A caller that moves on with the stake that it had changes none. -/
theorem stake?_place_of (c : Caller κ) (same : c.stake? = s.stake? caller) (locks : KeyLocks κ) :
    (s.place locks caller c).stake? = s.stake? := by
  rw [stake?_place, same, Function.update_eq_self]

theorem held?_place_of (c : Caller κ) (same : c.held? = s.held? caller) (locks : KeyLocks κ) :
    (s.place locks caller c).held? = s.held? := by
  rw [held?_place, same, Function.update_eq_self]

structure Sound (s : Shared κ) : Prop where
  tallied : s.locks.Tallied s.stake?
  listed : Listed s.locks.table s.locks.made s.stake?
  guarded : Guarded s.locks.taken s.held?

namespace Sound

theorem start : Sound ({} : Shared κ) where
  tallied _ := ⟨∅, rfl, fun _ => by simp [stake?, Caller.stake?]⟩
  listed := ⟨nofun, nofun, nofun, nofun⟩
  guarded := ⟨List.nodup_nil, fun _ => by simp [held?, Caller.held?], nofun⟩

theorem register (sound : Sound s) (away : s.callers caller = .away) (key : κ) :
    Sound (s.place (s.locks.register key).1 caller (.registered key (s.locks.register key).2)) := by
  have unstaked : s.stake? caller = none := congrArg Caller.stake? away
  have idle : none = s.held? caller := (congrArg Caller.held? away).symm
  unfold KeyLocks.register
  cases found : s.locks.table.get? key with
  | some lock =>
    constructor
    · rw [stake?_place]
      exact sound.tallied.join unstaked key lock
    · rw [stake?_place]
      exact sound.listed.join unstaked found
    · rw [held?_place_of (.registered key _) idle]
      exact sound.guarded
  | none =>
    -- Nobody is registered for a lock that is made now.
    have unheld : s.locks.holders s.locks.made = 0 := by
      obtain ⟨callers, number, mem⟩ := sound.tallied s.locks.made
      rw [number, Finset.card_eq_zero, Finset.eq_empty_iff_forall_notMem]
      intro c member
      obtain ⟨k, staked⟩ := (mem c).1 member
      exact Nat.lt_irrefl _ (sound.listed.below k _ (sound.listed.entry c k _ staked))
    have joined := sound.tallied.join unstaked key s.locks.made
    rw [unheld] at joined
    constructor
    · rw [stake?_place]
      exact joined
    · rw [stake?_place]
      exact sound.listed.make unstaked found
    · rw [held?_place_of (.registered key _) idle]
      exact sound.guarded

theorem acquire (sound : Sound s) (waits : s.callers caller = .registered key lock)
    (taken : s.locks.acquire? lock = some locks) :
    Sound (s.place locks caller (.inside key lock)) := by
  have staked : some (key, lock) = s.stake? caller := (congrArg Caller.stake? waits).symm
  have idle : s.held? caller = none := congrArg Caller.held? waits
  unfold acquire? at taken
  split at taken
  · cases taken
  next free =>
    cases taken
    constructor
    · rw [stake?_place_of (.inside key lock) staked]
      exact sound.tallied
    · rw [stake?_place_of (.inside key lock) staked]
      exact sound.listed
    · rw [held?_place]
      exact sound.guarded.acquire idle free

theorem release (sound : Sound s) (inside : s.callers caller = .inside key lock)
    (given : s.locks.release? lock = some locks)
    (failed : Bool) : Sound (s.place locks caller (.leaving key lock failed)) := by
  have staked : some (key, lock) = s.stake? caller := (congrArg Caller.stake? inside).symm
  have has : s.held? caller = some lock := congrArg Caller.held? inside
  unfold release? at given
  split at given
  · cases given
    constructor
    · rw [stake?_place_of (.leaving key lock failed) staked]
      exact sound.tallied
    · rw [stake?_place_of (.leaving key lock failed) staked]
      exact sound.listed
    · rw [held?_place]
      exact sound.guarded.release has
  · cases given

/-- A caller that leaves finds the entry of its key. -/
theorem deregister (sound : Sound s) {failed : Bool}
    (leaving : s.callers caller = .leaving key lock failed) :
    ∃ locks, s.locks.deregister? key lock = some locks ∧ Sound (s.place locks caller .away) := by
  have staked : s.stake? caller = some (key, lock) := congrArg Caller.stake? leaving
  have idle : none = s.held? caller := (congrArg Caller.held? leaving).symm
  have left := sound.tallied.leave staked
  have guarded (locks : KeyLocks κ) : Guarded s.locks.taken (s.place locks caller .away).held? := by
    rw [held?_place_of .away idle]
    exact sound.guarded
  unfold deregister?
  split
  next single =>
    have there : s.locks.table.contains key = true := by
      rw [OrderedMap.contains, sound.listed.entry caller key lock staked]
      rfl
    rw [if_pos there]
    rw [single] at left
    refine ⟨_, rfl, ?_, ?_, guarded _⟩
    · rw [stake?_place]
      exact left
    · rw [stake?_place]
      exact sound.listed.drop staked fun other k staked' =>
        sound.tallied.alone single staked staked'
  next several =>
    obtain ⟨other, k, apart, stays⟩ := sound.tallied.exists_other several staked
    refine ⟨_, rfl, ?_, ?_, guarded _⟩
    · rw [stake?_place]
      exact left
    · rw [stake?_place]
      exact sound.listed.leave staked apart stays

theorem step (sound : Sound s) (step : Step s t) : Sound t := by
  cases step with
  | register caller key away => exact sound.register away key
  | acquire caller waits taken => exact sound.acquire waits taken
  | release caller failed inside given => exact sound.release inside given failed
  | deregister caller leaving given =>
    obtain ⟨locks, found, left⟩ := sound.deregister leaving
    cases found.symm.trans given
    exact left

end Sound
end Shared

inductive Reached : Shared κ → Prop
  | start : Reached {}
  | step {s t : Shared κ} (reached : Reached s) (step : Step s t) : Reached t

theorem Reached.sound (reached : Reached s) : s.Sound := by
  induction reached with
  | start => exact .start
  | step _ step ih => exact ih.step step

/-- How the locks stand whenever one looks at them. -/
structure Orderly (s : Shared κ) : Prop where
  /-- The table has an entry for a key just when somebody is registered for it; so many are
  counted, and all of them have this lock. -/
  entries : ∀ key, ∃ callers : Finset Nat,
    (∀ caller, caller ∈ callers ↔ ∃ lock, s.stake? caller = some (key, lock)) ∧
    (s.locks.table.contains key = true ↔ callers.Nonempty) ∧
    ∀ lock, s.locks.table.get? key = some lock →
      s.locks.holders lock = callers.card ∧ ∀ caller ∈ callers, s.stake? caller = some (key, lock)
  exclusive : ∀ caller other key lock lock',
    s.callers caller = .inside key lock → s.callers other = .inside key lock' → caller = other
  /-- A caller has to wait just when another one is inside with the same key. -/
  waits : ∀ caller key lock, s.callers caller = .registered key lock →
    (s.locks.acquire? lock = none ↔ ∃ other, other ≠ caller ∧ s.callers other = .inside key lock)
  releases : ∀ caller key lock, s.callers caller = .inside key lock →
    ∃ locks, s.locks.release? lock = some locks
  /-- Whether or not its body failed, a caller that leaves finds the entry that it was counted in.
  -/
  finds : ∀ caller key lock failed, s.callers caller = .leaving key lock failed →
    s.locks.table.get? key = some lock ∧ ∃ locks, s.locks.deregister? key lock = some locks
  empties : (∀ caller, s.callers caller = .away) → s.locks.table = .empty ∧ s.locks.taken = []

namespace Shared.Sound

theorem entries (sound : Sound s) (key : κ) : ∃ callers : Finset Nat,
    (∀ caller, caller ∈ callers ↔ ∃ lock, s.stake? caller = some (key, lock)) ∧
    (s.locks.table.contains key = true ↔ callers.Nonempty) ∧
    ∀ lock, s.locks.table.get? key = some lock →
      s.locks.holders lock = callers.card ∧ ∀ caller ∈ callers,
      s.stake? caller = some (key, lock) := by
  rw [OrderedMap.contains]
  cases found : s.locks.table.get? key with
  | none =>
    refine ⟨∅, fun caller => ?_, by simp, nofun⟩
    refine iff_of_false (Finset.notMem_empty caller) ?_
    rintro ⟨lock, staked⟩
    cases found.symm.trans (sound.listed.entry caller key lock staked)
  | some lock =>
    obtain ⟨callers, number, mem⟩ := sound.tallied lock
    have own (caller : Nat) : caller ∈ callers ↔ s.stake? caller = some (key, lock) := by
      refine (mem caller).trans ⟨?_, fun staked => ⟨key, staked⟩⟩
      rintro ⟨k, staked⟩
      obtain rfl := sound.listed.apart k key lock (sound.listed.entry caller k lock staked) found
      exact staked
    obtain ⟨first, staked⟩ := sound.listed.live key lock found
    refine ⟨callers, fun caller => (own caller).trans ⟨fun staked => ⟨lock, staked⟩, ?_⟩, ?_, ?_⟩
    · rintro ⟨lock', staked⟩
      cases found.symm.trans (sound.listed.entry caller key lock' staked)
      exact staked
    · exact iff_of_true rfl ⟨first, (own first).2 staked⟩
    · rintro _ ⟨⟩
      exact ⟨number, fun caller member => (own caller).1 member⟩

/-- Two callers that are registered for one key have the same lock. -/
theorem same_lock (sound : Sound s) {other lock' : Nat} (first : s.stake? caller = some (key, lock))
    (second : s.stake? other = some (key, lock')) : lock' = lock :=
  Option.some.inj
    ((sound.listed.entry other key lock' second).symm.trans
      (sound.listed.entry caller key lock first))

theorem exclusive (sound : Sound s) {other lock' : Nat}
    (first : s.callers caller = .inside key lock)
    (second : s.callers other = .inside key lock') : caller = other := by
  obtain rfl := sound.same_lock (congrArg Caller.stake? first) (congrArg Caller.stake? second)
  exact sound.guarded.alone caller other lock' (congrArg Caller.held? first)
    (congrArg Caller.held? second)

theorem waits (sound : Sound s) (waits : s.callers caller = .registered key lock) :
    s.locks.acquire? lock = none ↔ ∃ other, other ≠ caller ∧
    s.callers other = .inside key lock := by
  have taken : s.locks.acquire? lock = none ↔ lock ∈ s.locks.taken := by
    unfold acquire?
    split <;> simp_all
  rw [taken, sound.guarded.mem_iff]
  constructor
  · rintro ⟨other, has⟩
    obtain ⟨k, inside⟩ := Caller.held?_eq_some.1 has
    obtain rfl :=
      sound.listed.apart k key lock
        (sound.listed.entry other k lock (congrArg Caller.stake? inside))
      (sound.listed.entry caller key lock (congrArg Caller.stake? waits))
    refine ⟨other, ?_, inside⟩
    rintro rfl
    cases waits.symm.trans inside
  · rintro ⟨other, -, inside⟩
    exact ⟨other, congrArg Caller.held? inside⟩

theorem releases (sound : Sound s) (inside : s.callers caller = .inside key lock) :
    ∃ locks, s.locks.release? lock = some locks :=
  ⟨_, if_pos ((sound.guarded.mem_iff lock).2 ⟨caller, congrArg Caller.held? inside⟩)⟩

theorem empties (sound : Sound s) (away : ∀ caller, s.callers caller = .away) :
    s.locks.table = .empty ∧ s.locks.taken = [] := by
  constructor
  · have absent (e : κ × Nat) : e ∉ s.locks.table.entries := fun member => by
      obtain ⟨caller, staked⟩ :=
        sound.listed.live e.1 e.2 (Entries.get?_of_mem s.locks.table.distinct member)
      cases (congrArg Caller.stake? (away caller)).symm.trans staked
    exact OrderedMap.eq_of_entries (List.eq_nil_iff_forall_not_mem.2 absent)
  · refine List.eq_nil_iff_forall_not_mem.2 fun lock member => ?_
    obtain ⟨caller, has⟩ := (sound.guarded.mem_iff lock).1 member
    cases (congrArg Caller.held? (away caller)).symm.trans has

end Shared.Sound

/-- However the steps of any callers come one after the other: the table has just the keys that
somebody is registered for, with as many holders as there are and the lock that all of them got;
one caller at a time is inside with a key, and only callers of the same key wait for it; nobody
misses what it gives back; and when all are away the table is empty. -/
theorem locks_exclusive (reached : Reached s) : Orderly s where
  entries := reached.sound.entries
  exclusive _ _ _ _ _ := reached.sound.exclusive
  waits _ _ _ := reached.sound.waits
  releases _ _ _ := reached.sound.releases
  finds caller key lock failed leaving := by
    obtain ⟨locks, found, -⟩ := reached.sound.deregister leaving
    exact ⟨reached.sound.listed.entry caller key lock (congrArg Caller.stake? leaving), locks, found⟩
  empties := reached.sound.empties

/-- Two callers want one key and a third one another key. The second one waits for the first,
whose body fails; what the first one then leaves is the entry that it shares with the second. -/
theorem locks_exclusive_shared : ∃ s t : Shared Bool, Reached s ∧ Reached t ∧
    s.callers 0 = .inside true 0 ∧ s.callers 1 = .registered true 0 ∧
    s.callers 2 = .inside false 1 ∧ s.locks.acquire? 0 = none ∧
    t.callers 0 = .leaving true 0 true ∧ t.locks.table.get? true = some 0 ∧
    ∃ locks, t.locks.deregister? true 0 = some locks := by
  have first : Reached _ := .step .start (.register 0 true rfl)
  have second := Reached.step (first.step (.acquire 0 rfl rfl)) (.register 1 true rfl)
  have third := Reached.step (second.step (.register 2 false rfl)) (.acquire 2 rfl rfl)
  have failed := third.step (.release 0 true rfl rfl)
  have waits := ((locks_exclusive third).waits 1 true 0 rfl).2 ⟨0, by decide, rfl⟩
  obtain ⟨there, found⟩ := (locks_exclusive failed).finds 0 true 0 true rfl
  exact ⟨_, _, third, failed, rfl, rfl, rfl, waits, rfl, there, found⟩

end LeadRules.KeyLocks
