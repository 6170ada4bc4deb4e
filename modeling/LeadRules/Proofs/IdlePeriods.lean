import LeadRules.Proofs.Visits

/-! The idle periods of leads, as ticks see them. As the references of a lead never go back, the
marker that a rule keeps of it is the greatest one that was due, and tells whether the period of a
tick has been acted on. -/
namespace LeadRules

/-- A sweep passing a lead, and when. -/
abbrev Tick := DateTime × Lead

namespace Tick

variable {hours : Binary64} {lead : Text} {reference : DateTime}
  {done later : List Tick} {t u : Tick}

def isRipe (hours : Binary64) (t : Tick) : Bool :=
  t.2.idleReference.any fun reference => !(Trigger.idleHours t.1 reference).lt hours

def isWithin (lead : Text) (reference : DateTime) (t : Tick) : Bool :=
  t.2.id = lead && t.2.idleReference = some reference

def isDue (hours : Binary64) (lead : Text) (reference : DateTime) (t : Tick) : Bool :=
  t.isWithin lead reference && t.isRipe hours

/-- Whether a tick is the first one due in its idle period. -/
def opens (hours : Binary64) (done : List Tick) (t : Tick) : Bool :=
  t.2.idleReference.any fun reference => t.isRipe hours && !done.any (isDue hours t.2.id reference)

/-- Ticks that find no lead idle since an earlier time than before. -/
def Forward (ticks : List Tick) : Prop :=
  ticks.Pairwise fun a b => a.2.id = b.2.id → ∀ x ∈ a.2.idleReference, ∀ y ∈ b.2.idleReference,
  x.micros ≤ y.micros

theorem isDue_iff : t.isDue hours lead reference = true ↔
    t.2.id = lead ∧ t.2.idleReference = some reference ∧ t.isRipe hours = true := by
  simp [isDue, isWithin, and_assoc]

theorem opens_of_within (within : t.isWithin lead reference = true) (done : List Tick) :
    t.opens hours done =
      (t.isDue hours lead reference && !done.any (isDue hours lead reference)) := by
  rw [isDue, within, Bool.true_and]
  simp only [isWithin, Bool.and_eq_true, decide_eq_true_eq] at within
  obtain ⟨rfl, idle⟩ := within
  simp [opens, idle]

/-- What a rule has in mind of each lead after some ticks: the greatest reference that was due. -/
structure Marks (hours : Binary64) (done : List Tick) (marker : Text → Option DateTime) : Prop where
  due : ∀ lead reference, marker lead = some reference →
    done.any (isDue hours lead reference) = true
  greatest : ∀ lead reference, done.any (isDue hours lead reference) = true →
    ∃ m, marker lead = some m ∧ reference.micros ≤ m.micros

theorem Marks.nil (hours : Binary64) : Marks hours [] fun _ => none :=
  ⟨fun lead reference marked => (by cases marked), fun lead reference due => (by cases due)⟩

/-- The times that were due before the tick of a lead are not behind the one that it is idle
since. -/
theorem Forward.le (forward : Forward (done ++ [t])) (idle : t.2.idleReference = some reference)
    {earlier : DateTime}
    (due : done.any (isDue hours t.2.id earlier) = true) : earlier.micros ≤ reference.micros := by
  obtain ⟨u, member, due⟩ := List.any_eq_true.1 due
  obtain ⟨same, before, -⟩ := isDue_iff.1 due
  have ordered := (List.pairwise_append.1 forward).2.2 u member t (List.mem_singleton_self t)
  exact ordered same earlier before reference idle

/-- As references never go back, the last one marked tells whether a period has been acted on. -/
theorem Marks.marked_iff {marker : Text → Option DateTime} (marks : Marks hours done marker)
    (forward : Forward (done ++ [t]))
    (idle : t.2.idleReference = some reference) :
    marker t.2.id = some reference ↔ done.any (isDue hours t.2.id reference) = true := by
  refine ⟨marks.due t.2.id reference, fun due => ?_⟩
  obtain ⟨m, marked, reached⟩ := marks.greatest t.2.id reference due
  have behind := forward.le idle (marks.due t.2.id m marked)
  obtain ⟨micros, inRange⟩ := m
  obtain ⟨micros', inRange'⟩ := reference
  obtain rfl : micros = micros' := Nat.le_antisymm behind reached
  exact marked

/-- A tick that is ripe moves the marker of its lead, and no other. -/
theorem Marks.step {marker marker' : Text → Option DateTime} (marks : Marks hours done marker)
    (forward : Forward (done ++ [t])) (others : ∀ lead, lead ≠ t.2.id → marker' lead = marker lead)
    (own : marker' t.2.id = if t.isRipe hours then t.2.idleReference else marker t.2.id) :
    Marks hours (done ++ [t]) marker' := by
  have here (lead : Text) (reference : DateTime) :
    (done ++ [t]).any (isDue hours lead reference) = true ↔
      done.any (isDue hours lead reference) = true ∨
        t.2.id = lead ∧ t.2.idleReference = some reference ∧ t.isRipe hours = true := by
    rw [List.any_append, Bool.or_eq_true, List.any_cons, List.any_nil, Bool.or_false, isDue_iff]
  constructor
  · intro lead reference marked
    rw [here]
    by_cases same : lead = t.2.id
    · subst same
      rw [own] at marked
      split at marked
      next ripe => exact .inr ⟨rfl, marked, ripe⟩
      · exact .inl (marks.due _ reference marked)
    · rw [others lead same] at marked
      exact .inl (marks.due lead reference marked)
  · intro lead reference due
    rcases (here lead reference).1 due with before | ⟨rfl, idle, ripe⟩
    · by_cases same : lead = t.2.id
      · subst same
        rw [own]
        split
        next ripe =>
          cases idle : t.2.idleReference with
          | none => simp [isRipe, idle] at ripe
          | some now => exact ⟨now, rfl, forward.le idle before⟩
        · exact marks.greatest _ reference before
      · rw [others lead same]
        exact marks.greatest lead reference before
    · rw [own, if_pos ripe]
      exact ⟨reference, idle, Nat.le_refl _⟩

end Tick

namespace Engine

variable {e : Event} {r : Rule} {g g' : Engine} {h k : Host} {o : EventOutcome}
  {result : RuleResult} {hours : Binary64}
  {done : List Tick} {seen : List Text}

def tickOf (e : Event) : Tick := (e.occurredAt, e.lead)

theorem matchEvent_tick (tick : e.occurrence = .idleScanTick) (s : EdgeState) :
    (Trigger.leadUntouched hours).matchEvent e s =
      if (tickOf e).isRipe hours && s.idleMarker ≠ e.lead.idleReference then
        (true, { idleMarker := some e.lead.idleReference })
      else (false, {}) := by
  cases idle : e.lead.idleReference with
  | none =>
    simp only [Trigger.matchEvent, tick, Tick.isRipe, tickOf, idle, Option.any_none,
      Bool.false_and]; rfl
  | some reference =>
    by_cases short : (Trigger.idleHours e.occurredAt reference).lt hours = true
    · have ripe : (tickOf e).isRipe hours = false := by
        rw [Tick.isRipe, tickOf, idle, Option.any_some, short]
        rfl
      simp only [Trigger.matchEvent, tick, idle, if_pos short, ripe, Bool.false_and]
      rfl
    · have ripe : (tickOf e).isRipe hours = true := by
        rw [Tick.isRipe, tickOf, idle, Option.any_some, Bool.eq_false_iff.2 short]
        rfl
      simp only [Trigger.matchEvent, tick, idle, if_neg short, ripe, Bool.true_and]
      by_cases marked : s.idleMarker = some reference
      · rw [if_pos marked, marked]
        simp
      · rw [if_neg marked]
        simp [marked]

theorem idleMarker_tick (tick : e.occurrence = .idleScanTick) (s : EdgeState) :
    (s.settle ((Trigger.leadUntouched hours).matchEvent e s).2).idleMarker =
      if (tickOf e).isRipe hours then e.lead.idleReference else s.idleMarker := by
  rw [matchEvent_tick tick]
  by_cases marked : s.idleMarker = e.lead.idleReference
  · simp [marked, EdgeState.settle]
  · cases (tickOf e).isRipe hours with
    | false => simp [EdgeState.settle]
    | true =>
      have altered : s.isAlteredBy { idleMarker := some e.lead.idleReference } = true := by
        simp [EdgeState.isAlteredBy, Ne.symm marked]
      simp [marked, EdgeState.settle, altered, EdgeState.apply]

/-- Without conditions, and with room for what it has seen, a rule that fires gets to
its action right away. -/
theorem process_bare (bare : r.conditions = [] ∧ r.strays = [])
    (dropped : (g.sighting r e).dropped = [])
    (room : (g.sighting r e).exhausted = false) (fired : (g.sighting r e).fired = true) (h : Host) :
    process r e (g, h) = act r e (g.seeing r e, h) := by
  have firing : fires r e (g, h) = (.ok true, (g.seeing r e, h)) := by
    unfold sighting at dropped room fired
    simp only [fires, onEdges, EdgeStore.observe, Op.run_onPart, Op.run_bind, Op.run_store, Op.run_setStore,
      Op.run_onHost, Op.run_modify, dropped, room, fired]
    rfl
  have meeting : meets r e.lead (g.seeing r e, h) = (.ok true, (g.seeing r e, h)) := by
    simp only [meets, bare.1, bare.2]
    rfl
  rw [process, Op.run_bind, firing]
  simp only [Bool.not_true, Bool.false_eq_true, if_false, Op.run_bind, meeting]

theorem act_succeeds {answer : ActionResult} {x : Executor}
    (new : g.ledger.isProcessed (deliveryKey r e) = false)
    (bound : 0 ≤ g.ledger.maxEntries)
    (executed : Executor.execute r.action e.lead (.text r.id) (g.executor, h) = (.ok answer, (x, k)))
    (ok : answer.ok = true) : ∃ s, act r e (g, h) = (.ok (.executed answer), s) := by
  rw [act, Op.run_bind, actOnce_new new, executed]
  simp only [if_neg (Int.not_lt.2 bound), ok, if_true, Op.run_pure]
  exact ⟨_, rfl⟩

def succeedsNow (e : Event) (r : Rule) (g : Engine) (h : Host) : Bool :=
  (Executor.execute r.action e.lead (.text r.id) (g.executor, h)).1.toOption.any (·.ok)

/-- Whether the action of a rule succeeds on an event where its turn comes, if it gets to it. -/
def Succeeds (e : Event) (r : Rule) (g : Engine) (h : Host) : Prop :=
  ∀ before after outcomes g₁ h₁, g.rules.rulesFor e.kind.trigger = .ok (before ++ r :: after) →
    outcomesOf e before (g, h) = (.ok outcomes, (g₁, h₁)) → g₁.halt r e = none →
    succeedsNow e r g₁ h₁ = true

/-- A rule that fires on a new delivery is executed if its action succeeds and the
delivery can be recorded. -/
theorem Spared.executed {s : Engine × Host} (spared : Spared e r g h result g' k)
    (run : outcomeOf e r (g, h) = (.ok ⟨r.id, r.name, result⟩, s))
    (bare : r.conditions = [] ∧ r.strays = [])
    (fired : (g.sighting r e).fired = true) (new : (deliveryKey r e).identity ∉ g.ledger.keys)
    (bound : 0 ≤ g.ledger.maxEntries) (succeeds : g.halt r e = none → succeedsNow e r g h = true) :
    result.status = .executed := by
  have new := (Ledger.isProcessed_false ..).2 new
  have met : r.verdict g.catalog e.lead = .ok true := by
    rw [Rule.verdict, bare.1, bare.2]
    rfl
  have succeeds := succeeds (Cleared.halt_eq_none ⟨spared.room, fired, met⟩ new)
  rcases executed : Executor.execute r.action e.lead (.text r.id)
    (g.executor, h) with ⟨fault | answer, x, k⟩
  · simp [succeedsNow, executed, Except.toOption] at succeeds
  · have ok : answer.ok = true := by simpa [succeedsNow, executed, Except.toOption] using succeeds
    obtain ⟨s, acted⟩ := act_succeeds (g := g.seeing r e) new bound executed ok
    rw [outcomeOf, Op.run_bind, Op.run_attempt, process_bare bare spared.dropped spared.room fired,
      acted] at run
    obtain ⟨same, -⟩ := Prod.mk.inj run
    obtain ⟨-, -, rfl⟩ := RuleOutcome.mk.inj (Except.ok.inj same)
    rfl

theorem Turn.ledgerMax (turn : Turn e r g h result g' k) :
    g'.ledger.maxEntries = g.ledger.maxEntries := by
  cases turn <;> rfl

theorem Turns.ledgerMax {rules : List Rule} {outcomes : List RuleOutcome}
    (turns : Turns e rules g h outcomes g' k) :
    g'.ledger.maxEntries = g.ledger.maxEntries := by
  induction turns with
  | nil => rfl
  | cons run first later ih => exact ih.trans first.ledgerMax

structure Swept (hours : Binary64) (r : Rule) (done : List Tick) (seen : List Text)
    (g : Engine) : Prop where
  keyed : g.rules.Keyed
  due : r ∈ g.rules.due .leadUntouched
  bound : 0 ≤ g.ledger.maxEntries
  known : ∀ key ∈ g.ledger.keys, ∃ id ∈ seen, key.2.2 = .text id
  marks : Tick.Marks hours done fun lead => (g.edges.get (.ofTexts lead r.id)).idleMarker

/-- The answer to a tick: the rule is executed if the tick is the first one due in its idle
period, and does not fire else. -/
structure Answers (hours : Binary64) (r : Rule) (done : List Tick) (t : Tick)
    (o : EventOutcome) : Prop where
  lead : o.lead = t.2.id
  turn : ∃ result, o.rules.filter (·.rule = r.id) = [⟨r.id, r.name, result⟩] ∧
    if t.opens hours done then result.status = .executed else result = .notFired

/-- A rule fires on the first tick that is due in an idle period. -/
theorem Swept.fires (swept : Swept hours r done seen g)
    (forward : Tick.Forward (done ++ [tickOf e]))
    (tick : e.occurrence = .idleScanTick) :
    ((Trigger.leadUntouched hours).matchEvent e (g.stateFor r e)).1 =
      (tickOf e).opens hours done := by
  rw [matchEvent_tick tick]
  cases idle : e.lead.idleReference with
  | none =>
    have ripe : (tickOf e).isRipe hours = false := by
      rw [Tick.isRipe, tickOf, idle, Option.any_none]
    simp [ripe, Tick.opens]
  | some reference =>
    have marked : (g.stateFor r e).idleMarker = some reference ↔ _ :=
      swept.marks.marked_iff forward idle
    have opens : (tickOf e).opens hours done =
        ((tickOf e).isRipe hours && !done.any (Tick.isDue hours e.lead.id reference)) := by
      rw [Tick.opens, show (tickOf e).2.idleReference = some reference from idle, Option.any_some]
      rfl
    rw [opens]
    by_cases before : done.any (Tick.isDue hours e.lead.id reference) = true
    · simp [marked.2 before, before]
    · have apart := mt marked.1 before
      cases (tickOf e).isRipe hours <;> simp [apart, before]

/-- On record are deliveries of earlier ticks only, so that a new one is not taken for a repeated
one. -/
theorem Swept.unrecorded (swept : Swept hours r done seen g) (fresh : e.id ∉ seen) :
    (deliveryKey r e).identity ∉ g.ledger.keys := by
  intro member
  obtain ⟨id, there, same⟩ := swept.known _ member
  exact fresh (Key.text.inj same ▸ there)

theorem Swept.tick (swept : Swept hours r done seen g) (trigger : r.trigger = .leadUntouched hours)
    (bare : r.conditions = [] ∧ r.strays = []) (tick : e.occurrence = .idleScanTick)
    (kept : evictsOn e g h = false)
    (succeeds : Succeeds e r g h) (fresh : e.id ∉ seen)
    (forward : Tick.Forward (done ++ [tickOf e]))
    (run : onEvent e (g, h) = (.ok o, (g', k))) :
    Swept hours r (done ++ [tickOf e]) (seen ++ [e.id]) g' ∧ Answers hours r done (tickOf e) o := by
  have due : r ∈ g.rules.due e.kind.trigger := by
    rw [show e.kind.trigger = .leadUntouched by rw [Event.kind, tick]; rfl]
    exact swept.due
  obtain ⟨_, _, _, run', delivery⟩ := onEvent_delivery e g h
  rw [run] at run'
  cases run'
  have frame := delivery.frame.1
  cases delivery with
  | idle chosen noted => exact absurd ((Repository.mem_rulesFor chosen).2 due) List.not_mem_nil
  | @taken rules outcomes g₁ _ h₁ _ _ chosen some turns flushed noted =>
    have flushed := flushed_of_flush flushed
    rw [evictsOn_eq chosen] at kept
    obtain ⟨before, g₂, h₂, result, visit⟩ :=
      turns.visit (swept.keyed.nodup_rulesFor chosen) kept ((Repository.mem_rulesFor chosen).2 due)
    obtain ⟨g₃, h₃, spared, state⟩ := visit.turn
    obtain ⟨after, rfl⟩ := visit.place
    obtain ⟨os, earlier⟩ := visit.earlier
    obtain ⟨s, own⟩ := visit.run
    have current : g₂.stateFor r e = g.stateFor r e := by
      rw [stateFor_of_entry, visit.state, ← stateFor_of_entry]
    have fires := swept.fires forward tick
    rw [← current, ← trigger] at fires
    refine ⟨⟨frame ▸ swept.keyed, frame ▸ swept.due, ?_, ?_, ?_⟩, rfl, result, visit.outcome, ?_⟩
    · rw [flushed.maxEntries, turns.ledgerMax]
      exact swept.bound
    · intro key member
      have keys : g'.ledger.keys = g₁.ledger.keys := congrArg OrderedMap.keys flushed.processed
      rw [keys] at member
      rcases turns.known kept key member with old | ⟨b, -, rfl⟩
      · obtain ⟨id, there, same⟩ := swept.known key old
        exact ⟨id, List.mem_append_left _ there, same⟩
      · exact ⟨e.id, List.mem_append_right _ (List.mem_singleton_self _), rfl⟩
    · refine swept.marks.step forward (fun lead apart => ?_) ?_
      · rw [get_of_entry, flushed.entry, turns.entry_other kept (.inl apart), ← get_of_entry]
      · show (g'.edges.get (.ofTexts e.lead.id r.id)).idleMarker = _
        rw [get_of_entry, flushed.entry, state, ← stateFor_of_entry,
          stateFor_self spared.turn spared.dropped, trigger, idleMarker_tick tick, current]
        rfl
    · split
      next opens =>
        have fired : (g₂.sighting r e).fired = true := by rw [fired_sighting, fires, opens]
        have bound : 0 ≤ g₂.ledger.maxEntries := by
          rw [earlier.ledgerMax]
          exact swept.bound
        exact spared.executed own bare fired (visit.new (swept.unrecorded fresh)) bound
          (succeeds before after os g₂ h₂ chosen earlier.run)
      next still =>
        rw [spared.notFired_iff, fires]
        exact Bool.eq_false_iff.2 still

end Engine

end LeadRules
