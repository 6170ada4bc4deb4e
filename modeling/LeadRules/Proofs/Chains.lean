import LeadRules.Proofs.Fields

/-! Chains of conditions. Every OR starts a chain anew and every AND narrows down what came before
it, so a lead meets a chain just when it does from some such start on. -/
namespace LeadRules

namespace Condition

variable {catalog : FieldCatalog} {l : Lead} {c d : Condition} {rest : List Condition} {k : Nat}

def Checkable (catalog : FieldCatalog) (l : Lead) (chain : List Condition) : Prop :=
  ∀ c ∈ chain, ∃ met, c.holds catalog l = .ok met

/-- A lead meets a chain from a place on: the condition there is the first one or joins by OR, and
it holds, as does every later one that joins by AND. -/
structure MeetsFrom (catalog : FieldCatalog) (l : Lead) (chain : List Condition)
    (k : Nat) : Prop where
  within : k < chain.length
  starts : k = 0 ∨ chain[k].logic = .or
  holds : chain[k].holds catalog l = .ok true
  narrowed : ∀ j (later : j < chain.length), k < j → chain[j].logic = .and →
    chain[j].holds catalog l = .ok true

def Narrowed (catalog : FieldCatalog) (l : Lead) (chain : List Condition) : Prop :=
  ∀ c ∈ chain, c.logic = .and → c.holds catalog l = .ok true

theorem narrowed_cons : Narrowed catalog l (c :: rest) ↔
    (c.logic = .and → c.holds catalog l = .ok true) ∧ Narrowed catalog l rest :=
      List.forall_mem_cons

theorem narrowed_iff : Narrowed catalog l rest ↔
    ∀ j (inside : j < rest.length), rest[j].logic = .and → rest[j].holds catalog l = .ok true :=
  List.forall_mem_iff_forall_getElem

theorem meetsFrom_zero : MeetsFrom catalog l (c :: rest) 0 ↔ c.holds catalog l = .ok true ∧
    Narrowed catalog l rest := by
  rw [narrowed_iff]
  constructor
  · intro meets
    exact ⟨meets.holds, fun j inside => meets.narrowed (j + 1) (Nat.succ_lt_succ inside) j.succ_pos⟩
  · rintro ⟨holds, narrowed⟩
    refine ⟨Nat.succ_pos _, .inl rfl, holds, fun j later past => ?_⟩
    obtain ⟨i, rfl⟩ := Nat.exists_eq_add_one.2 past
    exact narrowed i (Nat.lt_of_succ_lt_succ later)

/-- Behind the first condition a chain can only start with an OR. -/
theorem meetsFrom_succ : MeetsFrom catalog l (c :: rest) (k + 1) ↔
    (∀ inside : k < rest.length, rest[k].logic = .or) ∧ MeetsFrom catalog l rest k := by
  constructor
  · intro meets
    have joins : ∀ inside : k < rest.length, rest[k].logic = .or :=
      fun _ => meets.starts.resolve_left k.succ_ne_zero
    have within := Nat.lt_of_succ_lt_succ meets.within
    exact ⟨joins, within, .inr (joins within), meets.holds, fun j later past =>
      meets.narrowed (j + 1) (Nat.succ_lt_succ later) (Nat.succ_lt_succ past)⟩
  · rintro ⟨joins, meets⟩
    refine ⟨Nat.succ_lt_succ meets.within, .inr (joins meets.within), meets.holds, fun j later past => ?_⟩
    obtain ⟨i, rfl⟩ := Nat.exists_eq_add_one.2 (Nat.zero_lt_of_lt past)
    exact meets.narrowed i (Nat.lt_of_succ_lt_succ later) (Nat.lt_of_succ_lt_succ past)

/-- A chain starts anew with the next condition, if that joins by OR, or behind it. -/
theorem exists_meetsFrom_succ : (∃ k, MeetsFrom catalog l (c :: d :: rest) (k + 1)) ↔
    (d.logic = .or ∧ MeetsFrom catalog l (d :: rest) 0) ∨ ∃ k, MeetsFrom catalog l
    (d :: rest) (k + 1) := by
  have next : MeetsFrom catalog l (c :: d :: rest) (0 + 1) ↔
      d.logic = .or ∧ MeetsFrom catalog l (d :: rest) 0 := by
    rw [meetsFrom_succ]
    exact and_congr_left fun meets => ⟨fun joins => joins meets.within, fun joins _ => joins⟩
  have beyond (k : Nat) : MeetsFrom catalog l (c :: d :: rest) (k + 1 + 1) ↔
      MeetsFrom catalog l (d :: rest) (k + 1) := by
    rw [meetsFrom_succ]
    exact and_iff_right_of_imp fun meets _ => meets.starts.resolve_left k.succ_ne_zero
  rw [← Nat.or_exists_add_one, next]
  simp only [beyond]

/-- The rest of a chain is met if what comes before it is and nothing narrows it down,
or if it starts anew. -/
theorem evaluateFrom_met (checkable : Checkable catalog l rest) (c : Condition) (before : Bool) :
    ∃ met, evaluateFrom catalog l before rest = .ok met ∧
      (met = true ↔ (before = true ∧ Narrowed catalog l rest) ∨
        ∃ k, MeetsFrom catalog l (c :: rest) (k + 1)) := by
  induction rest generalizing c before with
  | nil =>
    have none : ¬∃ k, MeetsFrom catalog l [c] (k + 1) :=
      fun ⟨k, meets⟩ => by simpa using meets.within
    exact ⟨before, rfl, by simp [Narrowed, none]⟩
  | cons d rest ih =>
    obtain ⟨now, checked⟩ := checkable d List.mem_cons_self
    obtain ⟨met, evaluated, met_iff⟩ :=
      ih (fun e member => checkable e (List.mem_cons_of_mem _ member)) d (d.join before now)
    refine ⟨met, ?_, ?_⟩
    · rw [evaluateFrom, checked]
      exact evaluated
    · rw [met_iff, exists_meetsFrom_succ, meetsFrom_zero, narrowed_cons, checked, join]
      cases d.logic <;> cases before <;> cases now <;> simp

/-- A chain of conditions that can be checked is met just when it is from some place on. -/
theorem evaluate_met (checkable : Checkable catalog l (c :: rest)) :
    ∃ met, evaluate catalog l (c :: rest) = .ok met ∧
      (met = true ↔ ∃ k, MeetsFrom catalog l (c :: rest) k) := by
  obtain ⟨first, checked⟩ := checkable c List.mem_cons_self
  obtain ⟨met, evaluated, met_iff⟩ :=
    evaluateFrom_met (fun d member => checkable d (List.mem_cons_of_mem _ member)) c first
  refine ⟨met, ?_, ?_⟩
  · rw [evaluate, checked]
    exact evaluated
  · rw [met_iff, ← Nat.or_exists_add_one (p := MeetsFrom catalog l (c :: rest)), meetsFrom_zero, checked]
    simp

end Condition

namespace Segment

variable {catalog : FieldCatalog} {chain : List Condition}

@[simp] theorem evaluate_run (catalog : FieldCatalog) (l : Lead) (chain : List Condition) (h : Host) :
    evaluate catalog l chain h =
      (Condition.evaluate catalog l chain, h.noteAll .debug (Condition.notes catalog l chain)) := by
  simp [evaluate, Op.run_bind]

/-- What is noted of a reference makes no difference to the check. -/
theorem check_answer (catalog : FieldCatalog) (l : Lead) (c : Condition) (h : Host) :
    (check catalog l c h).1 = c.holds catalog l := by
  simp only [check, Condition.holds, Op.run_bind]
  cases c.field with
  | text ref =>
    obtain ⟨k, -, run⟩ := resolve_run catalog l ref h
    rw [run]
    cases resolved : catalog.resolve l ref <;>
      simp [FieldCatalog.reference, resolved, Bind.bind, Except.bind]
  | _ => rfl

theorem ofLeads_filter {keep : Lead → Bool} {leads : List Lead}
    (kept : ∀ l ∈ leads, Condition.evaluate catalog l chain = .ok (keep l)) (h : Host) :
    (ofLeads catalog chain leads h).1 = .ok (leads.filter keep) := by
  induction leads generalizing h with
  | nil => rfl
  | cons l rest ih =>
    have first := kept l List.mem_cons_self
    have others := ih (fun m member => kept m (List.mem_cons_of_mem _ member))
      (h.noteAll .debug (Condition.notes catalog l chain))
    simp only [ofLeads, Op.run_bind, evaluate_run, first]
    revert others
    rcases ofLeads catalog chain rest _ with ⟨_ | others, k⟩
    · nofun
    · rintro ⟨⟩
      cases met : keep l <;> simp [met]

/-- The logic of the first condition makes no difference. -/
theorem evaluate_first (catalog : FieldCatalog) (l : Lead) (c : Condition) (rest : List Condition)
    (logic : Logic) :
    evaluate catalog l ({ c with logic } :: rest) = evaluate catalog l (c :: rest) := by
  funext h
  rw [evaluate_run, evaluate_run]
  have met : Condition.evaluate catalog l ({ c with logic } :: rest) =
      Condition.evaluate catalog l (c :: rest) := rfl
  have notes : Condition.notes catalog l ({ c with logic } :: rest) =
      Condition.notes catalog l (c :: rest) := by
    have same : Condition.holds catalog l { c with logic } = c.holds catalog l := rfl
    unfold Condition.notes Condition.isMixed Condition.reached
    rw [same]
    cases c.holds catalog l <;> rfl
  rw [met, notes]

open Condition (Checkable MeetsFrom)

/-- Conditions that can be checked come to an answer. A lead meets their chain just when it
does from some place on, whatever the logic of the first one; and a segment is the leads
that do, in their order. -/
theorem chain_met_from_start (catalog : FieldCatalog) (c : Condition) (rest : List Condition) :
    (∀ l d h, (check catalog l d h).1 = d.holds catalog l) ∧
    (∀ l, Checkable catalog l (c :: rest) → ∀ h, ∃ met, (evaluate catalog l (c :: rest) h).1 = .ok met ∧
      (met = true ↔ ∃ k, MeetsFrom catalog l (c :: rest) k)) ∧
    (∀ l logic, evaluate catalog l ({ c with logic } :: rest) = evaluate catalog l (c :: rest)) ∧
    ∀ leads, (∀ l ∈ leads, Checkable catalog l (c :: rest)) → ∀ h, ∃ keep : Lead → Bool,
      (ofLeads catalog (c :: rest) leads h).1 = .ok (leads.filter keep) ∧
        ∀ l ∈ leads, keep l = true ↔ ∃ k, MeetsFrom catalog l (c :: rest) k := by
  refine ⟨check_answer catalog, fun l checkable h => ?_,
    fun l logic => evaluate_first catalog l c rest logic, fun leads checkable h => ?_⟩
  · obtain ⟨met, evaluated, met_iff⟩ := Condition.evaluate_met checkable
    exact ⟨met, by rw [evaluate_run, evaluated], met_iff⟩
  · refine ⟨fun l => (Condition.evaluate catalog l (c :: rest)).toOption.getD false,
      ofLeads_filter (fun l member => ?_) h, fun l member => ?_⟩
    · obtain ⟨met, evaluated, -⟩ := Condition.evaluate_met (checkable l member)
      rw [evaluated]
      rfl
    · obtain ⟨met, evaluated, met_iff⟩ := Condition.evaluate_met (checkable l member)
      simpa [evaluated, Except.toOption] using met_iff

def asksFor (field : Text) (logic : Logic) : Condition := ⟨field, .text field, .isSet, .null, logic⟩

def contactable : List Condition := [asksFor "name" .and, asksFor "email" .or, asksFor "phone" .and]

def named : Lead := { id := "L1", name := .text "Ann" }

def reachable : Lead := { id := "L2", email := .text "b@x.org", phone := .text "1" }

/-- The name alone does not do: the address is no choice between it and the address with the
number. -/
theorem chain_met_from_start_contactable :
    (ofLeads .empty contactable [named, reachable] .still).1 = .ok [reachable] := by
  have checkable : ∀ l ∈ [named, reachable], Checkable .empty l contactable := by
    simp only [Checkable, contactable, List.forall_mem_cons, List.not_mem_nil, false_imp_iff,
      implies_true, and_true]
    exact ⟨⟨⟨true, rfl⟩, ⟨false, rfl⟩, ⟨false, rfl⟩⟩, ⟨⟨false, rfl⟩, ⟨true, rfl⟩, ⟨true, rfl⟩⟩⟩
  obtain ⟨-, -, -, segments⟩ :=
    chain_met_from_start .empty (asksFor "name" .and) [asksFor "email" .or, asksFor "phone" .and]
  obtain ⟨keep, run, keep_iff⟩ := segments [named, reachable] checkable .still
  have kept : keep reachable = true :=
    (keep_iff reachable (by simp)).2 ⟨1, (by decide), .inr rfl, rfl, fun j later past _ => by
      obtain rfl : j = 2 := by simp at later; omega
      rfl⟩
  have dropped : keep named = false := by
    refine Bool.eq_false_iff.2 fun met => ?_
    obtain ⟨k, meets⟩ := (keep_iff named (by simp)).1 met
    have within := meets.within
    by_cases last : k = 2
    · subst last
      rcases meets.starts with first | joins
      · cases first
      · cases joins
    · cases meets.narrowed 2 (by decide) (by simp at within; omega) rfl
  rw [contactable, run]
  simp [kept, dropped]

end Segment
end LeadRules
