import LeadRules.Proofs.Edits
import LeadRules.Proofs.Sightings
import LeadRules.Proofs.Stores

/-! Whose the edge states are. Each one that an engine keeps is of a lead and of a rule that is
stored, and has only the parts that the trigger of this rule keeps; to delete a rule drops its
states, so that a rule which comes later under the same identifier starts with none. -/
namespace LeadRules

namespace EdgeState

/-- A state with no parts but those that a trigger keeps. -/
structure KeptBy (t : Trigger) (s : EdgeState) : Prop where
  firedAt : s.firedAt ≠ none → t.kind = .newLead
  idleMarker : s.idleMarker ≠ none → t.kind = .leadUntouched
  stage : s.stageFrom ≠ .null ∨ s.stage ≠ .null → t.kind = .stageChanged
  score : s.scoreFrom ≠ .null ∨ s.score ≠ .null → t.kind = .scoreReaches

theorem keptBy_fresh (t : Trigger) (lead rule : Value) : (fresh lead rule).KeptBy t := by
  constructor <;> simp [fresh]

theorem KeptBy.unchanged {t : Trigger} {s : EdgeState} (kept : s.KeptBy t) :
    (s.apply {}).KeptBy t := kept

/-- An event changes no part but the one that the trigger keeps. -/
theorem KeptBy.apply {t : Trigger} {s : EdgeState} (kept : s.KeptBy t) (e : Event) :
    (s.apply (t.matchEvent e s).2).KeptBy t := by
  have matched := t.matched e s
  generalize t.matchEvent e s = told at matched
  cases matched with
  | unmoved => exact kept.unchanged
  | created => exact { kept with firedAt := fun _ => rfl }
  | idle => exact { kept with idleMarker := fun _ => rfl }
  | stage => exact { kept with stage := fun _ => rfl }
  | completed => exact kept.unchanged
  | score => exact { kept with score := fun _ => rfl }

end EdgeState

/-- An edge state that stands under a lead and a stored rule, names both, and is one that the
trigger of the rule keeps. -/
structure Owned (rules : Repository) (x : (Key × Key) × EdgeKey × EdgeState) (lead : Text)
    (r : Rule) : Prop where
  stored : rules.get? r.id = some r
  identity : x.1 = (EdgeKey.ofTexts lead r.id).identity
  key : x.2.1 = .ofTexts lead r.id
  lead : x.2.2.lead = .text lead
  rule : x.2.2.rule = .text r.id
  kept : x.2.2.KeptBy r.trigger
  stateful : r.trigger ≠ .taskCompleted

/-- The owner of a state keeps it when rules are stored: its trigger stays the same. -/
theorem Owned.extended {s t : Repository} {x : (Key × Key) × EdgeKey × EdgeState}
    {lead : Text} {r : Rule}
    (own : Owned s x lead r) (extended : s.Extended t) (keyed : t.Keyed) :
    ∃ r', Owned t x lead r' := by
  obtain ⟨r', found, trigger⟩ := extended.get? own.stored
  obtain same : r'.id = r.id := (keyed.get?_iff.1 found).2
  exact ⟨r', { own with
    stored := same ▸ found
    identity := same ▸ own.identity
    key := same ▸ own.key
    rule := same ▸ own.rule
    kept := trigger ▸ own.kept
    stateful := trigger ▸ own.stateful }⟩

/-- A rule that was there is removed, if the others could be saved. -/
theorem Repository.remove_answer {s : Repository} {h : Host} {id : Text} {removed : Bool}
    (saved : (remove id (s, h)).1 = .ok removed) : removed = s.rules.contains id := by
  rw [remove, Op.run_bind, Op.run_store] at saved
  simp only [Op.run_ite, Op.run_bind, Op.run_setStore, Op.run_pure] at saved
  cases known : s.rules.contains id with
  | false => simpa [known] using saved.symm
  | true =>
    simp only [known, Bool.not_true, Bool.false_eq_true, if_false] at saved
    rcases run : save ({ s with rules := s.rules.erase id }, h) with ⟨fault | _, t⟩ <;> simp_all

namespace Engine

variable {e : Event} {r : Rule} {rules : List Rule} {outcomes : List RuleOutcome}
  {g g' : Engine} {h k : Host}
  {result : RuleResult} {x : (Key × Key) × EdgeKey × EdgeState}

def AllOwned (g : Engine) : Prop := ∀ x ∈ g.edges.states.entries, ∃ lead r, Owned g.rules x lead r

theorem AllOwned.textual (owned : AllOwned g) : g.edges.Textual := by
  rintro ⟨identity, key, s⟩ member
  obtain ⟨lead, r, own⟩ := owned _ member
  exact ⟨lead, r.id, own.key, own.identity, own.lead, own.rule⟩

/-- What is kept of a lead under a stored rule is kept by its trigger, if it is anything yet. -/
theorem AllOwned.get (owned : AllOwned g) (stored : g.rules.get? r.id = some r) (lead : Text) :
    (g.edges.get (.ofTexts lead r.id)).KeptBy r.trigger := by
  rcases EdgeStore.mem_of_get g.edges (.ofTexts lead r.id) with ⟨held, member⟩ | ⟨-, fresh⟩
  · obtain ⟨lead', r', own⟩ := owned _ member
    have same : r.id = r'.id := Key.text.inj (Prod.mk.inj own.identity).2
    obtain rfl := Option.some.inj (stored.symm.trans (same ▸ own.stored))
    exact own.kept
  · rw [fresh]
    exact EdgeState.keptBy_fresh ..

theorem AllOwned.same (owned : AllOwned g) (rules : g'.rules = g.rules)
    (states : g'.edges.states = g.edges.states) :
    AllOwned g' := by
  rw [AllOwned, rules, states]
  exact owned

theorem Turn.allOwned (turn : Turn e r g h result g' k) (owned : AllOwned g)
    (stored : g.rules.get? r.id = some r) :
    AllOwned g' := by
  intro x member
  rw [turn.edges, sighting] at member
  rw [turn.frame.1]
  rcases EdgeStore.mem_transition member with old | ⟨altered, rfl⟩
  · exact owned x old
  · obtain ⟨lead, rule, key, identity, leads, ruled⟩ :=
      owned.textual.transition e.lead.id r.id (r.trigger.matchEvent e) _ member
    obtain ⟨⟨⟩, ⟨⟩⟩ := identity
    refine ⟨e.lead.id, r, stored, rfl, key, leads, ruled, (owned.get stored e.lead.id).apply e,
      fun stateless => ?_⟩
    rw [stateless, Trigger.unaltered_taskCompleted] at altered
    cases altered

theorem Turns.allOwned (turns : Turns e rules g h outcomes g' k) (owned : AllOwned g)
    (stored : ∀ r ∈ rules, g.rules.get? r.id = some r) : AllOwned g' := by
  induction turns with
  | nil => exact owned
  | cons run first later ih =>
    refine ih (first.allOwned owned (stored _ List.mem_cons_self)) fun r member => ?_
    rw [first.frame.1]
    exact stored r (List.mem_cons_of_mem _ member)

theorem AllOwned.event (owned : AllOwned g) (keyed : g.rules.Keyed) (e : Event) (h : Host) :
    AllOwned (after (.event e) g h) := by
  obtain ⟨answer, g', k, run, delivery⟩ := onEvent_delivery e g h
  rw [after_event, run]
  have stored {rules : List Rule} (chosen : g.rules.rulesFor e.kind.trigger = .ok rules) (r : Rule)
    (member : r ∈ rules) :
      g.rules.get? r.id = some r :=
    keyed.get?_iff.2 ⟨(List.mem_filter.1 ((Repository.mem_rulesFor chosen).1 member)).1, rfl⟩
  cases delivery with
  | unordered chosen => exact owned
  | idle chosen noted => exact owned
  | unsaved chosen some turns flushed =>
    have written := flushed_of_flush flushed
    exact (turns.allOwned owned (stored chosen)).same written.rules written.states
  | taken chosen some turns flushed noted =>
    have written := flushed_of_flush flushed
    exact (turns.allOwned owned (stored chosen)).same written.rules written.states

/-- A deletion that could be saved leaves no state of its rule, if there was one. -/
theorem deleteRule_states {id : Text} {removed : Bool}
    (saved : (Repository.remove id (g.rules, h)).1 = .ok removed) :
    (deleteRule id (g, h)).2.1.edges.states =
      if g.rules.rules.contains id then g.edges.states.filter fun _ x =>
        !x.1.2.value.same (.text id) else g.edges.states := by
  simp only [deleteRule, Repository.delete, Op.run_bind, Op.run_onPart]
  rcases run : Repository.remove id (g.rules, h) with ⟨answer, s, k⟩
  obtain rfl : answer = .ok removed := by rw [← saved, run]
  obtain rfl := Repository.remove_answer saved
  cases g.rules.rules.contains id with
  | false => rfl
  | true =>
    have forgotten := EdgeStore.forget_states (.text id) g.edges k
    simp only [Bool.not_true, Bool.false_eq_true, if_false, if_true, Op.run_bind, onEdges, Op.run_onPart]
    rw [← forgotten]
    rcases EdgeStore.forget (.text id) (g.edges, k) with ⟨fault | _, t⟩ <;> rfl

theorem AllOwned.deleted {id : Text} (owned : AllOwned g) (keyed : g.rules.Keyed)
    (saved : (Repository.remove id (g.rules, h)).1.isOk = true) :
    AllOwned (after (.delete id) g h) := by
  intro x member
  obtain ⟨removed, answer⟩ : ∃ removed, (Repository.remove id (g.rules, h)).1 = .ok removed := by
    cases answer : (Repository.remove id (g.rules, h)).1 with
    | ok removed => exact ⟨removed, rfl⟩
    | error fault => simp [answer, Except.isOk, Except.toBool] at saved
  have reduced : g.rules.Reduced id (after (.delete id) g h).rules :=
    after_allows (c := .delete id) keyed trivial
  rw [after, call, Op.run_return, deleteRule_states answer] at member
  obtain ⟨there, apart⟩ : x ∈ g.edges.states.entries ∧ ∀ lead r, Owned g.rules x lead r →
      r.id ≠ id := by
    cases known : g.rules.rules.contains id with
    | false =>
      rw [known, if_neg Bool.false_ne_true] at member
      refine ⟨member, fun lead r own same => ?_⟩
      rw [← same] at known
      cases (Repository.get?_of_absent known).symm.trans own.stored
    | true =>
      rw [known, if_pos rfl] at member
      obtain ⟨there, other⟩ := List.mem_filter.1 member
      refine ⟨there, fun lead r own same => ?_⟩
      simp only [own.key, ← same] at other
      simp [EdgeKey.ofTexts, WrittenKey.ofText, Value.same, Value.alike] at other
  obtain ⟨lead, r, own⟩ := owned x there
  exact ⟨lead, r, { own with stored := (reduced.get? (apart lead r own)).trans own.stored }⟩

/-- Calls about the rules that store one leave the edge states alone. -/
theorem after_edges {c : Call} (edit : c.isEdit = true) (stays : ∀ id, c ≠ .delete id) :
    (after c g h).edges = g.edges := by
  cases c with
  | event e => cases edit
  | delete id => exact absurd rfl (stays id)
  | _ => rw [after, call, after_onRules]

theorem AllOwned.edited {c : Call} (owned : AllOwned g) (keyed : (after c g h).rules.Keyed)
    (edges : (after c g h).edges = g.edges)
    (extended : g.rules.Extended (after c g h).rules) : AllOwned (after c g h) := by
  intro x member
  rw [edges] at member
  obtain ⟨lead, r, own⟩ := owned x member
  obtain ⟨r', own'⟩ := own.extended extended keyed
  exact ⟨lead, r', own'⟩

/-- The engines that calls lead to from stores without entries, when each identifier that is drawn
is a new one and each deletion is saved. -/
inductive Tended : Engine → Prop
  | opened {g : Engine} (loaded : List Rule)
      (start : g.rules.rules = .ofList (loaded.map fun r => (r.id, r)))
      (empty : g.edges.states = .empty) : Tended g
  | after {g : Engine} (tended : Tended g) (c : Call) (h : Host) (fresh : Fresh c g h)
      (saved : ∀ id, c = .delete id → (Repository.remove id (g.rules, h)).1.isOk = true) :
      Tended (after c g h)

theorem Tended.reached (tended : Tended g) : Reached g := by
  induction tended with
  | opened loaded start empty => exact .opened loaded start
  | after tended c h fresh saved reached => exact reached.after c h

/-- What a call keeps. -/
theorem AllOwned.after {c : Call} (owned : AllOwned g) (reached : Reached g) (fresh : Fresh c g h)
    (saved : ∀ id, c = .delete id → (Repository.remove id (g.rules, h)).1.isOk = true) :
    AllOwned (after c g h) := by
  have keyed := (reached.after c h).keyed
  have allowed := after_allows reached.keyed fresh
  cases c with
  | event e => exact owned.event reached.keyed e h
  | delete id => exact owned.deleted reached.keyed (saved id rfl)
  | _ => exact owned.edited keyed (after_edges rfl nofun) allowed

/-- Every edge state of an engine that is tended belongs to a lead and to a rule that is stored,
and fits the trigger of the rule. -/
theorem edge_states_owned (tended : Tended g) :
    ∀ x ∈ g.edges.states.entries, ∃ lead r, Owned g.rules x lead r := by
  suffices owned : AllOwned g from owned
  induction tended with
  | opened loaded start empty =>
    intro x member
    rw [empty] at member
    cases member
  | after tended c h fresh saved owned => exact owned.after tended.reached fresh saved

def successor : Rule := { hot with trigger := .newLead }

def scored : Engine := after (.event (rise "e1")) (after (.add hot) blank .still) .still

def succeeded : Engine :=
  after (.event (Trigger.telling "e2" .leadCreated))
    (after (.add successor) (after (.delete "hot") scored .still) .still) .still

/-- What is kept of the lead under the identifier of both rules has a score first, and none later.
-/
theorem edge_states_owned_succeeded :
    Tended succeeded ∧ scored.edges.states.values.map (·.2.score) = [.float (.ofNat 85)] ∧
    succeeded.edges.states.values.map (·.2.rule) = [.text "hot"] ∧
    ∀ x ∈ succeeded.edges.states.entries, x.2.2.score = .null := by
  have start : Tended blank := .opened [] rfl rfl
  have seen : Tended scored :=
    (start.after (.add hot) .still trivial nofun).after (.event (rise "e1")) .still trivial nofun
  have deleted := seen.after (.delete "hot") .still trivial fun id same => by
    cases same
    decide +kernel
  have tended : Tended succeeded :=
    (deleted.after (.add successor) .still trivial nofun).after _ .still trivial nofun
  refine ⟨tended, by decide +kernel, by decide +kernel, fun x member => ?_⟩
  obtain ⟨lead, r, own⟩ := edge_states_owned tended x member
  have only : (succeeded.rules.rules.values.all fun r => r.trigger.kind = .newLead) = true := by
    decide +kernel
  have kind :=
    of_decide_eq_true (List.all_eq_true.1 only r (tended.reached.keyed.get?_iff.1 own.stored).1)
  refine Decidable.byContradiction fun scored => ?_
  cases kind.symm.trans (own.kept.score (.inr scored))

end Engine
end LeadRules
