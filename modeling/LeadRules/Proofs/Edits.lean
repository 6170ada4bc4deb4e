import LeadRules.Proofs.Calls
import LeadRules.Proofs.Changes

/-! What a call does to the rules of an engine: it stores one, drops one, or leaves them. A rule
that is stored is a new one or has the trigger of the one whose place it takes, so a rule keeps
its trigger as long as it is not deleted. -/
namespace LeadRules

theorem Op.run_return {σ α β : Type} (op : Op σ α) (f : α → β) (s : σ) :
    (do return f (← op) : Op σ β) s = ((op s).1.map f, (op s).2) := by
  rw [Op.run_bind]
  rcases op s with ⟨fault | a, t⟩ <;> rfl

namespace Repository

variable {s t : Repository} {h : Host} {id : Text} {r : Rule} {c : Change}

/-- The second rules are the first ones with one stored among them, in the place of one with its
trigger if in the place of any, or they are the same. -/
def Extended (s t : Repository) : Prop :=
  t = s ∨ ∃ r, (∀ old, s.get? r.id = some old → r.trigger = old.trigger) ∧
  t = { s with rules := s.rules.put r.id r }

/-- The second rules are the first ones without one, if it was there. -/
def Reduced (id : Text) (s t : Repository) : Prop :=
  (t = s ∧ s.get? id = none) ∨ t = { s with rules := s.rules.erase id }

theorem get?_put (s : Repository) (r : Rule) (id : Text) :
    get? { s with rules := s.rules.put r.id r } id = if id = r.id then some r else s.get? id :=
      OrderedMap.get?_put ..

theorem get?_erase (s : Repository) (gone id : Text) :
    get? { s with rules := s.rules.erase gone } id = if id = gone then none else s.get? id :=
      OrderedMap.get?_erase ..

theorem get?_of_absent (absent : s.rules.contains id = false) : s.get? id = none :=
  Option.not_isSome_iff_eq_none.1 (Bool.eq_false_iff.1 absent)

/-- A rule that was stored keeps its trigger. -/
theorem Extended.get? (extended : s.Extended t) (found : s.get? id = some r) :
    ∃ r', t.get? id = some r' ∧ r'.trigger = r.trigger := by
  rcases extended with rfl | ⟨x, steady, rfl⟩
  · exact ⟨r, found, rfl⟩
  · rw [get?_put]
    by_cases same : id = x.id
    · subst same
      exact ⟨x, if_pos rfl, steady r found⟩
    · exact ⟨r, (if_neg same).trans found, rfl⟩

theorem Reduced.get? {gone : Text} (reduced : s.Reduced gone t) (apart : id ≠ gone) :
    t.get? id = s.get? id := by
  rcases reduced with ⟨rfl, -⟩ | rfl
  · rfl
  · rw [get?_erase, if_neg apart]

theorem put_state (r : Rule) (s : Repository) (h : Host) :
    (put r (s, h)).2.1 = { s with rules := s.rules.put r.id r } :=
  save_state _ h

theorem add_extended (r : Rule) (s : Repository) (h : Host) : s.Extended (add r (s, h)).2.1 := by
  rw [add, Op.run_bind, Op.run_store]
  simp only
  cases known : s.rules.contains r.id with
  | true => exact .inl rfl
  | false =>
    refine .inr ⟨r, fun old found => ?_, ?_⟩
    · rw [get?_of_absent known] at found
      cases found
    · rw [← put_state r s h, Op.run_ite, if_neg Bool.false_ne_true, Op.run_return]

theorem Plan.run_state (plan : Plan) (s : Repository) (h : Host) :
    (plan.run (s, h)).2.1 = match plan with
    | .answer _ => s
    | .edit e _ _ => e.apply s := by
  rcases run : plan.run (s, h) with ⟨x, t, k⟩
  rcases run_cases run with ⟨rfl, rfl, -⟩ | ⟨e, a, notes, rfl, rfl, -⟩ <;> rfl

theorem planUpdate_extended (keyed : s.Keyed) (now : DateTime) (u : RuleUpdate)
    (answer : Option Rule → Answer) :
    s.Extended ((planUpdate s now id u answer).run (s, h)).2.1 := by
  have planned := planned_planUpdate s now id u answer
  rw [Plan.run_state]
  generalize planUpdate s now id u answer = plan at planned ⊢
  cases planned with
  | refused asked => exact .inl rfl
  | missing absent => exact .inl rfl
  | unread found parts => exact .inl rfl
  | edited found updates =>
    refine .inr ⟨_, fun old there => ?_, rfl⟩
    rw [updates.id, (keyed.get?_iff.1 found).2, found] at there
    cases there
    exact updates.trigger

/-- What a change may make of the rules: it drops none but the one that it is to remove. -/
def Change.Allows (s t : Repository) : Change → Prop
  | remove id => s.Reduced id t
  | _ => s.Extended t

theorem carryOut_allows (keyed : s.Keyed) (fresh : Fresh c (s, h)) :
    c.Allows s (carryOut c (s, h)).2.1 := by
  rw [carryOut_plan]
  cases c with
  | create name trigger action conditions description isEnabled =>
    simp only [plan]
    split
    · refine .inr
        ⟨created h name trigger action conditions description isEnabled, fun old found => ?_,
        Plan.run_state ..⟩
      rw [show s.get? (created h name trigger action conditions description isEnabled).id = none
        from get?_of_absent fresh] at found
      cases found
    · exact .inl (Plan.run_state ..)
  | importRule v =>
    simp only [plan]
    rcases Rule.ofWire h.now v h.ids with ⟨fault | r, ids⟩
    · exact .inl (Plan.run_state ..)
    · simp only
      split
      · exact .inl (Plan.run_state ..)
      next absent =>
        refine .inr ⟨r, fun old found => ?_, Plan.run_state ..⟩
        rw [get?_of_absent (Bool.eq_false_iff.2 absent)] at found
        cases found
  | update id u => exact planUpdate_extended keyed h.now u .updated
  | setEnabled id enabled =>
    exact planUpdate_extended keyed h.now { isEnabled := some (.bool enabled) } fun r =>
      .found r.isSome
  | remove id =>
    simp only [plan, Change.Allows]
    split
    · exact .inr (Plan.run_state ..)
    next absent => exact .inl ⟨Plan.run_state .., get?_of_absent (Bool.eq_false_iff.2 absent)⟩

end Repository

namespace Engine

variable {g : Engine} {h : Host} {c : Call} {id : Text} {r : Rule}

def Fresh (c : Call) (g : Engine) (h : Host) : Prop :=
  match c with
  | .create .. => g.rules.rules.contains ((IdSource.identifier (h.ids.drawn + 1)).take 12) = false
  | _ => True

theorem after_onRules {α : Type} (op : StoreOp Repository α) (g : Engine) (h : Host) :
    ((do let _ ← onRules op : StoreOp Engine Unit) (g, h)).2.1 =
      { g with rules := (op (g.rules, h)).2.1 } := by
  rw [show (do let _ ← onRules op : StoreOp Engine Unit) = (do return (fun _ => ()) (← onRules op))
    from rfl, Op.run_return]
  rfl

theorem deleteRule_rules (id : Text) (g : Engine) (h : Host) :
    (deleteRule id (g, h)).2.1.rules = (Repository.remove id (g.rules, h)).2.1 := by
  simp only [deleteRule, Repository.delete, Op.run_bind, Op.run_onPart]
  rcases Repository.remove id (g.rules, h) with ⟨fault | _ | _, s, k⟩
  · rfl
  · rfl
  · simp only [Bool.not_true, Bool.false_eq_true, if_false, Op.run_bind, onEdges, Op.run_onPart]
    rcases EdgeStore.forget (.text id) (g.edges, k) with ⟨fault | _, t⟩ <;> rfl

def Call.Allows (s t : Repository) : Call → Prop
  | delete id => s.Reduced id t
  | _ => s.Extended t

theorem after_allows (keyed : g.rules.Keyed) (fresh : Fresh c g h) :
    c.Allows g.rules (after c g h).rules := by
  have carried (d : Repository.Change) (fresh : Repository.Fresh d (g.rules, h)) :=
    Repository.carryOut_allows keyed fresh
  cases c with
  | event e =>
    obtain ⟨x, g', k, run, delivery⟩ := onEvent_delivery e g h
    rw [after_event, run]
    exact .inl delivery.frame.1
  | create name trigger action conditions description isEnabled =>
    rw [after, call, after_onRules]
    have allowed := carried (.create name trigger action conditions description isEnabled) fresh
    rwa [Repository.carryOut, Op.run_return] at allowed
  | add r =>
    rw [after, call, after_onRules]
    exact Repository.add_extended r g.rules h
  | importRule v =>
    rw [after, call, after_onRules]
    have allowed := carried (.importRule v) trivial
    rwa [Repository.carryOut, Op.run_return] at allowed
  | update id u =>
    rw [after, call, after_onRules]
    have allowed := carried (.update id u) trivial
    rwa [Repository.carryOut, Op.run_return] at allowed
  | setEnabled id enabled =>
    rw [after, call, after_onRules]
    have allowed := carried (.setEnabled id enabled) trivial
    rwa [Repository.carryOut, Op.run_return] at allowed
  | delete id =>
    rw [after, call, Op.run_return, deleteRule_rules]
    have allowed := carried (.remove id) trivial
    rw [Repository.carryOut, Op.run_return] at allowed
    simp only [Repository.delete, Op.run_bind, Op.run_onPart] at allowed
    revert allowed
    rcases Repository.remove id (g.rules, h) with ⟨fault | _ | _, s, k⟩ <;> exact fun allowed =>
      allowed

end Engine
end LeadRules
