import LeadRules.Proofs.View

/-! What an event does to the state that one rule keeps of one lead. Only the turn of this rule on
an event of this lead touches it, and an event gives a rule one turn at most. -/
namespace LeadRules

namespace EdgeStore

variable {s : EdgeStore} {key : EdgeKey} {step : EdgeState → Bool × EdgeChange}

/-- A store that had to drop nothing could meet its bound. -/
theorem room_of_kept (kept : (s.transition key step).dropped = []) :
    (s.transition key step).exhausted = false := by
  rw [exhausted_transition]
  cases differs : (s.get key).isAlteredBy (step (s.get key)).2 with
  | false => rfl
  | true =>
    rw [transition_altered differs] at kept
    have stored := congrArg OrderedMap.keys (states_remember kept)
    have last :
        key.identity ∈
        (s.states.putWrittenLast key.identity key
          ((s.get key).apply (step (s.get key)).2)).keys := by
      simp [OrderedMap.keys_putWrittenLast]
    simp only [remember, OrderedMap.keys_boundTo] at stored
    have length := congrArg List.length stored
    rw [List.length_drop, OrderedMap.length_keys] at length
    have some := List.length_pos_of_mem last
    rw [OrderedMap.length_keys] at some
    simp only [Bool.true_and, decide_eq_false_iff_not, Int.not_lt]
    unfold OrderedMap.excess at length
    omega

theorem find_transition_other {id : Key × Key} (apart : id ≠ key.identity)
    (kept : (s.transition key step).dropped = []) :
    (s.transition key step).store.states.get? id = s.states.get? id := by
  cases differs : (s.get key).isAlteredBy (step (s.get key)).2 with
  | true =>
    rw [transition_altered differs] at kept ⊢
    rw [states_remember kept, OrderedMap.get?_putWrittenLast, if_neg apart]
  | false => rw [transition_unaltered differs]

/-- A change that counts is stored under the key as it was first written. -/
theorem find_transition_self (kept : (s.transition key step).dropped = []) :
    (s.transition key step).store.states.get? key.identity =
      if (s.get key).isAlteredBy (step (s.get key)).2 then
        some (((s.states.get? key.identity).map (·.1)).getD key, (s.get key).apply (step (s.get key)).2)
      else s.states.get? key.identity := by
  cases differs : (s.get key).isAlteredBy (step (s.get key)).2 with
  | true =>
    rw [transition_altered differs] at kept ⊢
    rw [states_remember kept, OrderedMap.get?_putWrittenLast, if_pos rfl, if_pos rfl]
  | false =>
    rw [transition_unaltered differs]
    rfl

end EdgeStore

namespace Engine

variable {e : Event} {r : Rule} {rules : List Rule} {outcomes : List RuleOutcome}
  {g g' : Engine} {h k : Host}
  {result : RuleResult} {lead rule : Text}

def entryOf (lead rule : Text) (g : Engine) : Option (EdgeKey × EdgeState) :=
  g.edges.states.get? (EdgeKey.ofTexts lead rule).identity

theorem get_of_entry (g : Engine) (lead rule : Text) : g.edges.get (.ofTexts lead rule) =
    ((entryOf lead rule g).map (·.2)).getD (.fresh (.text lead) (.text rule)) := rfl

theorem stateFor_of_entry (g : Engine) (r : Rule) (e : Event) :
    g.stateFor r e =
      ((entryOf e.lead.id r.id g).map (·.2)).getD (.fresh (.text e.lead.id) (.text r.id)) := rfl

theorem Spared.room (spared : Spared e r g h result g' k) : (g.sighting r e).exhausted = false :=
  EdgeStore.room_of_kept spared.dropped

theorem Spared.notFired_iff (spared : Spared e r g h result g' k) :
    result = .notFired ↔ (r.trigger.matchEvent e (g.stateFor r e)).1 = false :=
      spared.turn.notFired_iff spared.room

theorem Spared.entry_other (spared : Spared e r g h result g' k)
    (apart : lead ≠ e.lead.id ∨ rule ≠ r.id) :
    entryOf lead rule g' = entryOf lead rule g := by
  rw [entryOf, entryOf, spared.turn.edges]
  refine EdgeStore.find_transition_other ?_ spared.dropped
  intro same
  obtain ⟨leads, rules⟩ := Prod.mk.inj same
  rcases apart with apart | apart
  · exact apart (Key.text.inj leads)
  · exact apart (Key.text.inj rules)

theorem Spared.entry_self (spared : Spared e r g h result g' k) :
    entryOf e.lead.id r.id g' =
      if (g.stateFor r e).isAlteredBy (r.trigger.matchEvent e (g.stateFor r e)).2 then
        some (((entryOf e.lead.id r.id g).map (·.1)).getD (.ofTexts e.lead.id r.id),
          (g.stateFor r e).apply (r.trigger.matchEvent e (g.stateFor r e)).2)
      else entryOf e.lead.id r.id g := by
  rw [entryOf, spared.turn.edges]
  exact EdgeStore.find_transition_self spared.dropped

/-- Turns of other rules, or on an event of another lead, leave the state of a rule on a lead
alone. -/
theorem Turns.entry_other (turns : Turns e rules g h outcomes g' k)
    (kept : evictsAny e rules g h = false)
    (apart : lead ≠ e.lead.id ∨ rule ∉ rules.map (·.id)) :
    entryOf lead rule g' = entryOf lead rule g := by
  induction turns with
  | nil => rfl
  | cons run first later ih =>
    obtain ⟨spared, kept⟩ := first.spared run kept
    have here : lead ≠ e.lead.id ∨ rule ≠ _ :=
      apart.imp_right fun absent => (not_or.1 (mt List.mem_cons.2 absent)).1
    rw [ih kept (apart.imp_right fun absent => (not_or.1 (mt List.mem_cons.2 absent)).2),
      spared.entry_other here]

/-- A rule that does not take its turn has no outcome. -/
theorem Turns.unnamed (turns : Turns e rules g h outcomes g' k) (absent : rule ∉ rules.map (·.id)) :
    outcomes.filter (·.rule = rule) = [] := by
  have ids := congrArg (List.map Prod.fst) turns.named
  simp only [List.map_map, Function.comp_def] at ids
  rw [← ids] at absent
  refine List.filter_eq_nil_iff.2 fun o member same => absent ?_
  exact List.mem_map.2 ⟨o, member, of_decide_eq_true same⟩

/-- Turns put no deliveries on record but their own. -/
theorem Turns.known (turns : Turns e rules g h outcomes g' k)
    (kept : evictsAny e rules g h = false) :
    ∀ key ∈ g'.ledger.keys, key ∈ g.ledger.keys ∨ ∃ b ∈ rules,
      key = (deliveryKey b e).identity := by
  induction turns with
  | nil => exact fun key member => .inl member
  | @cons b rest g g₁ g₂ h h₁ h₂ result outcomes run first later ih =>
    obtain ⟨spared, kept⟩ := first.spared run kept
    intro key member
    rcases ih kept key member with before | ⟨b', there, same⟩
    · rw [spared.keys] at before
      rcases List.mem_append.1 before with old | new
      · exact .inl old
      · cases acted : result.actionResult?.isSome with
        | false => simp [acted] at new
        | true => exact .inr ⟨b, List.mem_cons_self, by simpa [acted] using new⟩
    · exact .inr ⟨b', List.mem_cons_of_mem _ there, same⟩

/-- The turn of one of the rules that take theirs on an event: what goes before it, and how
it stands to the whole. -/
structure Visit (e : Event) (r : Rule) (rules : List Rule) (g : Engine) (h : Host)
    (outcomes : List RuleOutcome) (g' : Engine)
    (before : List Rule) (g₁ : Engine) (h₁ : Host) (result : RuleResult) : Prop where
  place : ∃ after, rules = before ++ r :: after
  earlier : ∃ os, Turns e before g h os g₁ h₁
  run : ∃ s, outcomeOf e r (g₁, h₁) = (.ok ⟨r.id, r.name, result⟩, s)
  turn : ∃ g₂ h₂, Spared e r g₁ h₁ result g₂ h₂ ∧
    entryOf e.lead.id r.id g' = entryOf e.lead.id r.id g₂
  outcome : outcomes.filter (·.rule = r.id) = [⟨r.id, r.name, result⟩]
  state : entryOf e.lead.id r.id g₁ = entryOf e.lead.id r.id g
  new : (deliveryKey r e).identity ∉ g.ledger.keys → (deliveryKey r e).identity ∉ g₁.ledger.keys

theorem Turns.visit (turns : Turns e rules g h outcomes g' k) (distinct : (rules.map (·.id)).Nodup)
    (kept : evictsAny e rules g h = false) (member : r ∈ rules) :
    ∃ before g₁ h₁ result, Visit e r rules g h outcomes g' before g₁ h₁ result := by
  induction turns with
  | nil => cases member
  | @cons b rest g g₁ g₂ h h₁ h₂ result outcomes run first later ih =>
    obtain ⟨absent, distinct⟩ := List.nodup_cons.1 distinct
    obtain ⟨spared, kept'⟩ := first.spared run kept
    rcases List.mem_cons.1 member with rfl | member
    · refine ⟨[], g, h, result, ⟨rest, rfl⟩, ⟨[], .nil⟩, ⟨_, run⟩,
        ⟨g₁, h₁, spared, later.entry_other kept' (.inr absent)⟩, ?_, rfl, id⟩
      rw [List.filter_cons_of_pos (by simp), later.unnamed absent]
    · have apart : r.id ≠ b.id := fun same => absent (List.mem_map.2 ⟨r, member, same⟩)
      obtain ⟨before, g₃, h₃, result', ⟨after, rfl⟩, ⟨os, earlier⟩, own, turn, outcome, state, new⟩ :=
        ih distinct kept' member
      refine ⟨b :: before, g₃, h₃, result', ⟨after, rfl⟩, ⟨_, .cons run first earlier⟩, own, turn, ?_, ?_,
        fun absent => new ?_⟩
      · rw [List.filter_cons_of_neg (by simpa using Ne.symm apart), outcome]
      · rw [state, spared.entry_other (.inr apart)]
      · rw [spared.keys, List.mem_append, not_or]
        refine ⟨absent, ?_⟩
        cases result.actionResult?.isSome with
        | false => simp
        | true =>
          simpa [deliveryKey, LedgerKey.ofTexts, LedgerKey.identity, WrittenKey.ofText] using apart

theorem Flushed.entry (flushed : Flushed g g') : entryOf lead rule g' = entryOf lead rule g := by
  rw [entryOf, flushed.states]
  rfl

/-- As long as its rules can be ordered and the files of its stores can be named, an engine
answers. -/
theorem onEvent_returns (orderable : g.rules.Orderable) (savable : g.Savable)
    (e : Event) (h : Host) :
    ∃ o g' k, onEvent e (g, h) = (.ok o, (g', k)) ∧ g'.rules = g.rules ∧ g'.Savable := by
  obtain ⟨x, g', k, run, delivery⟩ := onEvent_delivery e g h
  have frame := delivery.frame.1
  obtain ⟨rules, listed, -⟩ := Repository.rulesFor_orderable orderable e.kind.trigger
  cases delivery with
  | unordered chosen => rw [listed] at chosen; cases chosen
  | idle chosen noted => exact ⟨_, _, _, run, frame, savable⟩
  | unsaved chosen some turns flushed =>
    have places := turns.places
    obtain ⟨_, _, returned⟩ := flush_returns ⟨places.1 ▸ savable.edges, places.2 ▸ savable.ledger⟩ _
    rw [returned] at flushed
    cases flushed
  | taken chosen some turns flushed noted =>
    have places := turns.places
    have flushed := flushed_of_flush flushed
    refine ⟨_, _, _, run, frame, ?_, ?_⟩
    · rw [flushed.edges]
      exact places.1 ▸ savable.edges
    · rw [flushed.ledger]
      exact places.2 ▸ savable.ledger

end Engine

namespace Repository

variable {s : Repository} {kind : TriggerKind} {rules : List Rule} {r : Rule}

/-- The rules that take their turns are stored, enabled, and listen to the kind. -/
theorem mem_rulesFor (chosen : s.rulesFor kind = .ok rules) : r ∈ rules ↔ r ∈ s.due kind := by
  by_cases orderable : s.Orderable
  · obtain ⟨found, listed, turn⟩ := rulesFor_orderable orderable kind
    obtain rfl : found = rules := Except.ok.inj (listed.symm.trans chosen)
    exact turn.all.mem_iff
  · rw [rulesFor_unorderable orderable] at chosen
    cases chosen

end Repository
end LeadRules
