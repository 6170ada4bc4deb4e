import LeadRules.Proofs.EdgeFile
import LeadRules.Proofs.Edits
import LeadRules.Proofs.Footprint
import LeadRules.Proofs.Settled
import LeadRules.Proofs.Sightings

/-! A rule on new leads fires once in the life of a lead: at the first time that it is told of the
lead's creation while it is enabled. Whatever else is asked of the engine, and whether or not its
stores are opened again from their files, it does not fire for that lead again. -/
namespace LeadRules.Engine

variable {id : Key × Key} {lead rule : Text} {e : Event} {r : Rule} {rules : List Rule}
  {outcomes : List RuleOutcome}
  {g g' : Engine} {h k : Host} {t : FileTree} {result : RuleResult}

/-- The edge states of an engine are not ahead of their file, and no other store writes there. -/
structure Trail (id : Key × Key) (g : Engine) (t : FileTree) : Prop where
  edges : g.edges.Traced id t
  rules : ∀ p, g.edges.path = some p → Misses g.rules.path p.place
  cursors : ∀ p, g.edges.path = some p → Misses g.executor.cursors.path p.place
  ledger : ∀ p, g.edges.path = some p → Misses g.ledger.path p.place

namespace Trail

theorem spares (trail : Trail id g t) {u : FileTree}
    (spares : ∀ p, g.edges.path = some p → FileTree.Spares p.place t u) :
    Trail id g u := { trail with edges := trail.edges.spares spares }

theorem relogged (trail : Trail id g h.files) (noted : h.Relogged k) : Trail id g k.files := by
  rwa [noted.files]

theorem onRules {α : Type} {op : StoreOp Repository α} (stays : Op.Stays Repository.path op) :
    Op.Keeps (fun s => Trail id s.1 s.2.files) (Engine.onRules op) := by
  rintro ⟨g, h⟩ trail
  have moved := stays (g.rules, h)
  refine ⟨trail.edges.spares fun p path => moved.2 p.place (trail.rules p path), fun p path => ?_,
    trail.cursors, trail.ledger⟩
  exact moved.1.symm ▸ trail.rules p path

theorem onLedger {α : Type} {op : StoreOp Ledger α} (stays : Op.Stays Ledger.path op) :
    Op.Keeps (fun s => Trail id s.1 s.2.files) (Engine.onLedger op) := by
  rintro ⟨g, h⟩ trail
  have moved := stays (g.ledger, h)
  refine ⟨trail.edges.spares fun p path => moved.2 p.place (trail.ledger p path), trail.rules,
    trail.cursors, fun p path => ?_⟩
  exact moved.1.symm ▸ trail.ledger p path

theorem withEdges (trail : Trail id g t) {s : EdgeStore} {u : FileTree}
    (path : s.path = g.edges.path) (traced : s.Traced id u) :
    Trail id { g with edges := s } u :=
  ⟨traced, fun p there => trail.rules p (path ▸ there), fun p there => trail.cursors p (path ▸ there),
    fun p there => trail.ledger p (path ▸ there)⟩

theorem onEdges_flush : Op.Keeps (fun s => Trail id s.1 s.2.files) (onEdges EdgeStore.flush) := by
  rintro ⟨g, h⟩ trail
  obtain ⟨x, s, k, run, flushed, traced, -⟩ := trail.edges.flush
  rw [onEdges, Op.run_onPart, run]
  exact trail.withEdges (by rw [flushed]) traced

theorem flushStore {path : Option FilePath} {op : StoreOp Engine Unit}
    (keeps : Op.Keeps (fun s => Trail id s.1 s.2.files) op) :
    Op.Keeps (fun s => Trail id s.1 s.2.files) (Engine.flushStore path op) := by
  refine .bind keeps.attempt fun answer => ?_
  split
  · exact .pure ()
  · exact fun s trail => trail
  · exact .throw _

theorem flush (id : Key × Key) : Op.Keeps (fun s => Trail id s.1 s.2.files) Engine.flush := by
  have store : Op.Keeps (fun s => Trail id s.1 s.2.files) (Op.store : StoreOp Engine Engine) :=
    fun _ trail => trail
  refine .bind store fun g => .bind (flushStore onEdges_flush) fun _ => .bind store fun g => ?_
  exact flushStore (onLedger Ledger.flush_stays)

theorem onEdges_forget (v : Value) :
    Op.Keeps (fun s => Trail id s.1 s.2.files) (onEdges (EdgeStore.forget v)) := by
  rintro ⟨g, h⟩ trail
  have within {id : Key × Key}
    (member : id ∈ (g.edges.states.filter fun _ e => !e.1.2.value.same v).keys) :
      id ∈ g.edges.states.keys := by
    obtain ⟨e, there, rfl⟩ := List.mem_map.1 member
    exact List.mem_map_of_mem (List.mem_filter.1 there).1
  have kept : Trail id { g with edges := { g.edges with
      states := g.edges.states.filter fun _ e => !e.1.2.value.same v, dirty := true } } h.files :=
    trail.withEdges rfl {
      savable := trail.edges.savable
      legible := ⟨fun e member => trail.edges.legible.textual e (List.mem_filter.1 member).1,
        fun lead rule member => trail.edges.legible.unsplit lead rule (within member)⟩
      filed := nofun }
  exact onEdges_flush (_, h) kept

/-- Calls about the rules leave the edge states no more than forgotten. -/
theorem call {c : Call} (edit : c.isEdit = true) :
    Op.Keeps (fun s => Trail id s.1 s.2.files) (Engine.call c) := by
  cases c with
  | event e => cases edit
  | create name trigger action conditions description isEnabled =>
    exact .bind
      (onRules (Repository.create_stays name trigger action conditions description isEnabled))
      fun _ => .pure _
  | add r => exact .bind (onRules (Repository.add_stays r)) fun _ => .pure _
  | importRule v => exact .bind (onRules (Repository.importRule_stays v)) fun _ => .pure _
  | update id u => exact .bind (onRules (Repository.update_stays id u)) fun _ => .pure _
  | setEnabled id enabled =>
    exact .bind (onRules (.bind (Repository.update_stays id _) fun _ => .pure _)) fun _ => .pure _
  | delete id =>
    refine .bind (.bind (onRules (Repository.remove_stays id)) fun removed => .ite (.pure _) ?_)
      fun _ => .pure _
    exact .bind (onEdges_forget _) fun _ => .bind (fun _ trail => trail) fun _ => .pure _

end Trail

def dropsAny (id : Key × Key) (e : Event) : List Rule → Engine → Host → Bool
  | [], _, _ => false
  | r :: rest, g, h =>
    let (_, g', k) := outcomeOf e r (g, h)
    (g.sighting r e).dropped.any (·.identity = id) || dropsAny id e rest g' k

theorem Turn.kept {rest : List Rule}
    (run : outcomeOf e r (g, h) = (.ok ⟨r.id, r.name, result⟩, (g', k)))
    (kept : dropsAny id e (r :: rest) g h = false) :
    (∀ key ∈ (g.sighting r e).dropped, key.identity ≠ id) ∧ dropsAny id e rest g' k = false := by
  simpa [dropsAny, run] using kept

theorem Turn.trail (turn : Turn e r g h result g' k) (trail : Trail id g h.files)
    (unsplit : e.lead.id.Unsplit ∧ r.id.Unsplit)
    (kept : ∀ key ∈ (g.sighting r e).dropped, key.identity ≠ id) : Trail id g' k.files := by
  obtain ⟨cursors, spares⟩ := turn.stays
  have path : g'.edges.path = g.edges.path := turn.places.1
  refine ⟨?_, fun p there => ?_, fun p there => ?_, fun p there => ?_⟩
  · rw [turn.edges]
    refine (trail.edges.transition unsplit kept).spares fun p there => ?_
    rw [EdgeStore.path_transition] at there
    exact spares p.place (trail.cursors p there)
  · rw [turn.frame.1]
    exact trail.rules p (path ▸ there)
  · rw [cursors]
    exact trail.cursors p (path ▸ there)
  · rw [turn.places.2]
    exact trail.ledger p (path ▸ there)

/-- A turn of another rule, or on another lead. -/
theorem Turn.firedAt_other (turn : Turn e r g h result g' k) (trail : Trail id g h.files)
    (kept : ∀ key ∈ (g.sighting r e).dropped, key.identity ≠ id)
    (apart : id ≠ (EdgeKey.ofTexts e.lead.id r.id).identity) :
    g'.edges.firedAt? id = g.edges.firedAt? id := by
  have moved := EdgeStore.firedAt_transition trail.edges.legible.textual kept
  rw [if_neg apart] at moved
  rw [turn.edges]
  exact moved

/-- A turn of a rule on new leads that is told of one. -/
theorem Turn.firedAt_self (turn : Turn e r g h result g' k)
    (trail : Trail (EdgeKey.ofTexts e.lead.id r.id).identity g h.files)
    (kept : ∀ key ∈ (g.sighting r e).dropped, key.identity ≠ (EdgeKey.ofTexts e.lead.id r.id).identity)
    (trigger : r.trigger = .newLead) (created : e.occurrence = .leadCreated) :
    (result ≠ .notFired ↔ g.edges.firedAt? (EdgeKey.ofTexts e.lead.id r.id).identity = none) ∧
    (g'.edges.firedAt? (EdgeKey.ofTexts e.lead.id r.id).identity).isSome := by
  have textual := trail.edges.legible.textual
  have moved := EdgeStore.firedAt_transition textual kept
  rw [if_pos rfl] at moved
  have before :
      (g.stateFor r e).firedAt = g.edges.firedAt? (EdgeKey.ofTexts e.lead.id r.id).identity :=
      EdgeStore.firedAt_get ..
  rw [Ne, turn.notFired_iff (EdgeStore.room_of_kept_self textual kept), turn.edges, ← before,
    show (g.sighting r e).store.firedAt? (EdgeKey.ofTexts e.lead.id r.id).identity = _
      from moved, trigger]
  rw [show g.edges.get (EdgeKey.ofTexts e.lead.id r.id) = g.stateFor r e from rfl]
  cases fired : (g.stateFor r e).firedAt with
  | some time => simp [Trigger.matchEvent, created, fired, EdgeState.settle]
  | none =>
    simp [Trigger.matchEvent, created, fired, EdgeState.settle, EdgeState.isAlteredBy,
      EdgeState.apply]

theorem Turns.trail (turns : Turns e rules g h outcomes g' k) (trail : Trail id g h.files)
    (leads : e.lead.id.Unsplit)
    (unsplit : ∀ r ∈ rules, r.id.Unsplit) (kept : dropsAny id e rules g h = false) :
    Trail id g' k.files := by
  induction turns with
  | nil => exact trail
  | cons run first later ih =>
    obtain ⟨here, kept⟩ := Turn.kept run kept
    have moved := first.trail trail ⟨leads, unsplit _ List.mem_cons_self⟩ here
    exact ih moved (fun r member => unsplit r (List.mem_cons_of_mem _ member)) kept

/-- Turns of other rules, or on another lead. -/
theorem Turns.firedAt_other (turns : Turns e rules g h outcomes g' k)
    (trail : Trail (EdgeKey.ofTexts lead rule).identity g h.files) (leads : e.lead.id.Unsplit)
    (unsplit : ∀ r ∈ rules, r.id.Unsplit)
    (kept : dropsAny (EdgeKey.ofTexts lead rule).identity e rules g h = false)
    (apart : lead ≠ e.lead.id ∨ rule ∉ rules.map (·.id)) :
    g'.edges.firedAt? (EdgeKey.ofTexts lead rule).identity =
      g.edges.firedAt? (EdgeKey.ofTexts lead rule).identity := by
  induction turns with
  | nil => rfl
  | @cons r rest g g₁ g₂ h h₁ h₂ result outcomes run first later ih =>
    obtain ⟨here, kept⟩ := Turn.kept run kept
    have moved := first.trail trail ⟨leads, unsplit _ List.mem_cons_self⟩ here
    have other :
        (EdgeKey.ofTexts lead rule).identity ≠ (EdgeKey.ofTexts e.lead.id r.id).identity := by
      intro same
      obtain ⟨leads, rules⟩ := Prod.mk.inj same
      rcases apart with apart | apart
      · exact apart (Key.text.inj leads)
      · exact apart (List.mem_map.2 ⟨r, List.mem_cons_self, (Key.text.inj rules).symm⟩)
    have beyond := ih moved (fun r member => unsplit r (List.mem_cons_of_mem _ member)) kept
      (apart.imp_right fun absent => (not_or.1 (mt List.mem_cons.2 absent)).2)
    rw [beyond, first.firedAt_other trail here other]

/-- Among the turns of some rules on a new lead, the rule on new leads fires if it has not
fired for the lead before. -/
theorem Turns.firedAt_self (turns : Turns e rules g h outcomes g' k)
    (distinct : (rules.map (·.id)).Nodup)
    (trail : Trail (EdgeKey.ofTexts e.lead.id r.id).identity g h.files) (leads : e.lead.id.Unsplit)
    (unsplit : ∀ r ∈ rules, r.id.Unsplit)
    (kept : dropsAny (EdgeKey.ofTexts e.lead.id r.id).identity e rules g h = false)
    (member : r ∈ rules) (trigger : r.trigger = .newLead) (created : e.occurrence = .leadCreated) :
    (∃ result, outcomes.filter (·.rule = r.id) = [⟨r.id, r.name, result⟩] ∧
      (result ≠ .notFired ↔ g.edges.firedAt? (EdgeKey.ofTexts e.lead.id r.id).identity = none)) ∧
    (g'.edges.firedAt? (EdgeKey.ofTexts e.lead.id r.id).identity).isSome := by
  induction turns with
  | nil => cases member
  | @cons b rest g g₁ g₂ h h₁ h₂ result outcomes run first later ih =>
    obtain ⟨absent, distinct⟩ := List.nodup_cons.1 distinct
    obtain ⟨here, kept'⟩ := Turn.kept run kept
    have moved := first.trail trail ⟨leads, unsplit _ List.mem_cons_self⟩ here
    have unsplit' : ∀ r ∈ rest, r.id.Unsplit :=
      fun r member => unsplit r (List.mem_cons_of_mem _ member)
    rcases List.mem_cons.1 member with rfl | member
    · obtain ⟨fires, marked⟩ := first.firedAt_self trail here trigger created
      refine ⟨⟨result, ?_, fires⟩, ?_⟩
      · rw [List.filter_cons_of_pos (by simp), later.unnamed absent]
      · rw [later.firedAt_other moved leads unsplit' kept' (.inr absent)]
        exact marked
    · have apart : b.id ≠ r.id := fun same => absent (List.mem_map.2 ⟨r, member, same.symm⟩)
      have other :
          (EdgeKey.ofTexts e.lead.id r.id).identity ≠ (EdgeKey.ofTexts e.lead.id b.id).identity :=
          fun same =>
        apart (Key.text.inj (Prod.mk.inj same).2).symm
      obtain ⟨⟨result', only, fires⟩, marked⟩ := ih distinct moved unsplit' kept' member
      refine ⟨⟨result', ?_, ?_⟩, marked⟩
      · rw [List.filter_cons_of_neg (by simpa using apart), only]
      · rw [fires, first.firedAt_other trail here other]

structure Showing where
  event : Event
  /-- Whether the lead is new with this event, and the rule enabled to be told of it. -/
  told : Bool
  fired : Bool

def showing (lead rule : Text) (e : Event) (g : Engine) (h : Host) : Showing where
  event := e
  told := e.lead.id = lead && e.occurrence = .leadCreated && (g.rules.get? rule).any Rule.enabled &&
    (g.rules.rulesFor e.kind.trigger).isOk
  fired := (sightings lead rule (.event e) g h).any (·.2 ≠ .notFired)

def dropsOn (id : Key × Key) (e : Event) (g : Engine) (h : Host) : Bool :=
  (g.rules.rulesFor e.kind.trigger).toOption.any fun rules => dropsAny id e rules g h

/-- An event that does not drop what is stored of a lead under a rule, all under
texts that a file keeps. -/
structure Retains (lead rule : Text) (e : Event) (g : Engine) (h : Host) : Prop where
  kept : dropsOn (EdgeKey.ofTexts lead rule).identity e g h = false
  lead : e.lead.id.Unsplit
  rules : ∀ r ∈ g.rules.rules.values, r.id.Unsplit

theorem created_iff (e : Event) : e.occurrence = .leadCreated ↔
    TriggerKind.newLead = e.kind.trigger := by
  rw [Event.kind]
  cases e.occurrence <;> simp [Occurrence.kind, EventKind.trigger]

/-- An enabled rule on new leads is told of a new lead when it takes its turn. -/
theorem told_iff (lead : Text) (stored : g.rules.get? rule = some r) (keyed : g.rules.Keyed)
    (trigger : r.trigger = .newLead)
    (chosen : g.rules.rulesFor e.kind.trigger = .ok rules) (h : Host) :
    (showing lead rule e g h).told = true ↔ lead = e.lead.id ∧ r ∈ rules := by
  obtain ⟨member, rfl⟩ := keyed.get?_iff.1 stored
  simp only [showing, stored, chosen, Repository.mem_rulesFor chosen, Repository.due,
    List.mem_filter, trigger, Trigger.kind, Except.isOk, Except.toBool, Option.any_some,
    Bool.and_eq_true, decide_eq_true_eq, created_iff, member, true_and, and_true]
  constructor
  · rintro ⟨⟨leads, kind⟩, enabled⟩
    exact ⟨leads.symm, enabled, kind⟩
  · rintro ⟨leads, enabled, kind⟩
    exact ⟨⟨leads.symm, kind⟩, enabled⟩

/-- A rule that takes no turn shares its identifier with none that does. -/
theorem unlisted_of_not_mem (stored : g.rules.get? r.id = some r) (keyed : g.rules.Keyed)
    (chosen : g.rules.rulesFor e.kind.trigger = .ok rules) (absent : r ∉ rules) :
    r.id ∉ rules.map (·.id) := by
  intro listed
  obtain ⟨x, there, same⟩ := List.mem_map.1 listed
  have due := (Repository.mem_rulesFor chosen).1 there
  have found := keyed.get?_iff.2 ⟨(List.mem_filter.1 due).1, same⟩
  obtain rfl := Option.some.inj (found.symm.trans stored)
  exact absent there

/-- What the turns of an event leave of the time at which a rule on new leads fired for a lead. -/
theorem Turns.shown (turns : Turns e rules g h outcomes g' k)
    (chosen : g.rules.rulesFor e.kind.trigger = .ok rules)
    (keyed : g.rules.Keyed) (stored : g.rules.get? rule = some r) (trigger : r.trigger = .newLead)
    (trail : Trail (EdgeKey.ofTexts lead rule).identity g h.files)
    (retains : Retains lead rule e g h) :
    Trail (EdgeKey.ofTexts lead rule).identity g' k.files ∧
    ((showing lead rule e g h).fired = true ↔
      (showing lead rule e g h).told = true ∧
      g.edges.firedAt? (EdgeKey.ofTexts lead rule).identity = none) ∧
    ((g'.edges.firedAt? (EdgeKey.ofTexts lead rule).identity).isSome ↔
      (showing lead rule e g h).told = true ∨
      (g.edges.firedAt? (EdgeKey.ofTexts lead rule).identity).isSome) := by
  have due (x : Rule) : x ∈ rules ↔ x ∈ g.rules.due e.kind.trigger := Repository.mem_rulesFor chosen
  have kept : dropsAny (EdgeKey.ofTexts lead rule).identity e rules g h = false := by
    have kept := retains.kept
    rwa [dropsOn, chosen] at kept
  have unsplit : ∀ r ∈ rules, r.id.Unsplit :=
    fun x there => retains.rules x (List.mem_filter.1 ((due x).1 there)).1
  refine ⟨turns.trail trail retains.lead unsplit kept, ?_⟩
  have told := told_iff lead stored keyed trigger chosen h
  have fired :
      (showing lead rule e g h).fired =
      (sightings lead rule (.event e) g h).any (·.2 ≠ .notFired) := rfl
  rw [sightings_taken lead rule chosen turns] at fired
  obtain ⟨-, rfl⟩ := keyed.get?_iff.1 stored
  by_cases both : lead = e.lead.id ∧ r ∈ rules
  · obtain ⟨rfl, there⟩ := both
    have created : e.occurrence = .leadCreated := by
      have listens := Bool.and_eq_true_iff.1 (List.mem_filter.1 ((due r).1 there)).2
      rw [created_iff, ← of_decide_eq_true listens.2, trigger]
      rfl
    obtain ⟨⟨result, only, fires⟩, marked⟩ :=
      turns.firedAt_self (keyed.nodup_rulesFor chosen) trail retains.lead unsplit kept there
        trigger created
    rw [if_pos rfl, only] at fired
    simp [fired, told, there, ← fires, marked]
  · have apart : lead ≠ e.lead.id ∨ r.id ∉ rules.map (·.id) :=
      (not_and_or.1 both).imp_right (unlisted_of_not_mem stored keyed chosen)
    have quiet : (showing lead r.id e g h).fired = false := by
      rw [fired]
      split
      next here =>
        rw [turns.unnamed (apart.resolve_left fun other => other here.symm)]
        rfl
      next => rfl
    have untold : (showing lead r.id e g h).told = false :=
      Bool.eq_false_iff.2 fun yes => both (told.1 yes)
    rw [turns.firedAt_other trail retains.lead unsplit kept apart, quiet, untold]
    simp

/-- What an event leaves of it. -/
theorem onEvent_shown (keyed : g.rules.Keyed) (stored : g.rules.get? rule = some r)
    (trigger : r.trigger = .newLead)
    (trail : Trail (EdgeKey.ofTexts lead rule).identity g h.files)
    (retains : Retains lead rule e g h) :
    Trail (EdgeKey.ofTexts lead rule).identity (onEvent e (g, h)).2.1 (onEvent e (g, h)).2.2.files ∧
    ((showing lead rule e g h).fired = true ↔
      (showing lead rule e g h).told = true ∧
      g.edges.firedAt? (EdgeKey.ofTexts lead rule).identity = none) ∧
    (((onEvent e (g, h)).2.1.edges.firedAt? (EdgeKey.ofTexts lead rule).identity).isSome ↔
      (showing lead rule e g h).told = true ∨
      (g.edges.firedAt? (EdgeKey.ofTexts lead rule).identity).isSome) := by
  obtain ⟨x, g', k, run, delivery⟩ := onEvent_delivery e g h
  rw [run]
  have written {g₁ g₂ : Engine} {h₁ h₂ : Host} {answer : Except Fault Unit}
    (flushed : flush (g₁, h₁) = (answer, (g₂, h₂)))
      (trail : Trail (EdgeKey.ofTexts lead rule).identity g₁ h₁.files) :
      Trail (EdgeKey.ofTexts lead rule).identity g₂ h₂.files := by
    have kept := Trail.flush (EdgeKey.ofTexts lead rule).identity (g₁, h₁)
    rw [flushed] at kept
    exact kept trail
  cases delivery with
  | unordered chosen =>
    refine ⟨trail, ?_⟩
    simp [showing, sightings, chosen, Except.isOk, Except.toBool]
  | idle chosen noted =>
    obtain ⟨trail, shown⟩ := (Turns.nil (h := h)).shown chosen keyed stored trigger trail retains
    exact ⟨trail.relogged noted, shown⟩
  | unsaved chosen some turns flushed =>
    obtain ⟨trail, fires, marked⟩ := turns.shown chosen keyed stored trigger trail retains
    rw [EdgeStore.firedAt_same (flushed_of_flush flushed).states]
    exact ⟨written flushed trail, fires, marked⟩
  | taken chosen some turns flushed noted =>
    obtain ⟨trail, fires, marked⟩ := turns.shown chosen keyed stored trigger trail retains
    rw [EdgeStore.firedAt_same (flushed_of_flush flushed).states]
    exact ⟨(written flushed trail).relogged noted, fires, marked⟩

def showings (lead rule : Text) (c : Call) (g : Engine) (h : Host) : List Showing :=
  match c with
  | .event e => [showing lead rule e g h]
  | _ => []

theorem showings_of_isEdit {c : Call} (edit : c.isEdit = true) : showings lead rule c g h = [] := by
  cases c <;> first | rfl | cases edit

/-- A call that leaves a rule in place, and what is stored of a lead under it. -/
structure Calm (lead rule : Text) (c : Call) (g : Engine) (h : Host) : Prop where
  stays : c ≠ .delete rule
  fresh : Fresh c g h
  retains : ∀ e, c = .event e → Retains lead rule e g h

/-- An engine with a rule on new leads and no edge states, neither in memory nor in a file of
their own. -/
structure Unmarked (rule : Text) (g : Engine) (t : FileTree) : Prop where
  reached : Reached g
  stored : ∃ r, g.rules.get? rule = some r ∧ r.trigger = .newLead
  empty : g.edges.states = .empty
  savable : LeadRules.Savable g.edges.path
  fileless : ∀ p, g.edges.path = some p → ∀ text, t.nodes.get? p.place ≠ some (.file text)
  own : ∀ p, g.edges.path = some p →
    Misses g.rules.path p.place ∧ Misses g.executor.cursors.path p.place ∧
    Misses g.ledger.path p.place

/-- What a rule on new leads is shown of a lead in a run of calls. Between the calls the stores
may be opened again from their files, if nothing is missing there of the edge states; nobody
else touches their file. -/
inductive Life (lead rule : Text) : List Showing → Engine → FileTree → Prop
  | opened {g : Engine} {t : FileTree} (unmarked : Unmarked rule g t) : Life lead rule [] g t
  | called {shown : List Showing} {g : Engine} {t : FileTree} (life : Life lead rule shown g t)
      (c : Call) (h : Host)
      (untouched : ∀ p, g.edges.path = some p → FileTree.Spares p.place t h.files)
        (calm : Calm lead rule c g h) :
      Life lead rule (shown ++ showings lead rule c g h) (after c g h) (call c (g, h)).2.2.files
  | reopened {shown : List Showing} {g : Engine} {t : FileTree} {h k l : Host} {p : FilePath}
      {bound records : Int}
      {edges : EdgeStore} {ledger : Ledger} (life : Life lead rule shown g t)
        (path : g.edges.path = some p)
      (written : g.edges.dirty = false) (untouched : FileTree.Spares p.place t h.files)
      (edgesRead : EdgeStore.load (some p) bound h = (.ok edges, k))
      (ledgerRead : Ledger.load g.ledger.path records k = (.ok ledger, l)) :
      Life lead rule shown { g with edges, ledger } l.files

structure Lived (lead rule : Text) (shown : List Showing) (g : Engine) (t : FileTree) : Prop where
  keyed : g.rules.Keyed
  stored : ∃ r, g.rules.get? rule = some r ∧ r.trigger = .newLead
  trail : Trail (EdgeKey.ofTexts lead rule).identity g t
  marked : (g.edges.firedAt? (EdgeKey.ofTexts lead rule).identity).isSome ↔
    ∃ x ∈ shown, x.told = true
  once : ∀ before x later, shown = before ++ x :: later →
    (x.fired = true ↔ x.told = true ∧ ∀ y ∈ before, y.told = false)

theorem Unmarked.lived (unmarked : Unmarked rule g t) (lead : Text) : Lived lead rule [] g t where
  keyed := unmarked.reached.keyed
  stored := unmarked.stored
  trail := by
    have textual : g.edges.Textual := by
      rw [EdgeStore.Textual, unmarked.empty]
      exact fun e member => absurd member List.not_mem_nil
    have absent : g.edges.firedAt? (EdgeKey.ofTexts lead rule).identity = none := by
      rw [EdgeStore.firedAt?, unmarked.empty]
      rfl
    refine ⟨⟨unmarked.savable, ⟨textual, fun lead rule member => ?_⟩, fun p path _ => ?_⟩,
      fun p path => (unmarked.own p path).1, fun p path => (unmarked.own p path).2.1,
      fun p path => (unmarked.own p path).2.2⟩
    · rw [unmarked.empty] at member
      cases member
    · rw [absent]
      exact .inr ⟨unmarked.fileless p path, rfl⟩
  marked := by
    rw [EdgeStore.firedAt?, unmarked.empty]
    simp [OrderedMap.empty, OrderedMap.get?]
  once before x later split := by cases before <;> cases split

theorem Lived.edited {shown : List Showing} {c : Call} (lived : Lived lead rule shown g h.files)
    (edit : c.isEdit = true)
    (calm : Calm lead rule c g h) :
    Lived lead rule shown (after c g h) (call c (g, h)).2.2.files where
  keyed := (call_aside edit (g, h)).keyed lived.keyed
  stored := by
    obtain ⟨r, stored, trigger⟩ := lived.stored
    have allowed := after_allows lived.keyed calm.fresh
    have kept (extended : g.rules.Extended (after c g h).rules) :
        ∃ r, (after c g h).rules.get? rule = some r ∧ r.trigger = .newLead := by
      obtain ⟨r', found, same⟩ := extended.get? stored
      exact ⟨r', found, same.trans trigger⟩
    cases c with
    | delete id =>
      exact ⟨r, (allowed.get? fun same => calm.stays (same ▸ rfl)).trans stored, trigger⟩
    | _ => exact kept allowed
  trail := Trail.call edit (g, h) lived.trail
  marked := by
    have written : ∀ y, entryOf lead rule g = some y → y.1 = .ofTexts lead rule := by
      intro y found
      obtain ⟨lead', rule', key, same, -⟩ :=
        lived.trail.edges.legible.textual _ (Entries.mem_of_get? found)
      obtain ⟨⟨⟩, ⟨⟩⟩ := same
      exact key
    have same : entryOf lead rule (after c g h) = entryOf lead rule g :=
      call_entry edit calm.stays written (g, h) rfl
    rw [← lived.marked, EdgeStore.firedAt?, EdgeStore.firedAt?]
    rw [show (after c g h).edges.states.get? (EdgeKey.ofTexts lead rule).identity = _ from same]
    rfl
  once := lived.once

theorem Lived.event {shown : List Showing} (lived : Lived lead rule shown g h.files)
    (retains : Retains lead rule e g h) :
    Lived lead rule (shown ++ [showing lead rule e g h]) (onEvent e (g, h)).2.1
      (onEvent e (g, h)).2.2.files := by
  obtain ⟨r, stored, trigger⟩ := lived.stored
  obtain ⟨trail, fires, marked⟩ := onEvent_shown lived.keyed stored trigger lived.trail retains
  have rules : (onEvent e (g, h)).2.1.rules = g.rules := by
    obtain ⟨x, g', k, run, delivery⟩ := onEvent_delivery e g h
    rw [run]
    exact delivery.frame.1
  refine ⟨rules ▸ lived.keyed, ⟨r, rules ▸ stored, trigger⟩, trail, ?_, fun before x later split => ?_⟩
  · rw [marked, lived.marked]
    simp [or_comm]
  · rcases List.eq_nil_or_concat later with rfl | ⟨later, last, rfl⟩
    · obtain ⟨rfl, here⟩ := List.append_inj' split rfl
      cases here
      rw [fires, ← Option.not_isSome_iff_eq_none, lived.marked]
      simp
    · have inside : shown = before ++ x :: later := by
        have split : shown ++ [showing lead rule e g h] = (before ++ x :: later) ++ [last] := by
          simpa using split
        exact (List.append_inj' split rfl).1
      exact lived.once before x later inside

theorem Ledger.load_path {path : Option FilePath} {bound : Int} {l : Ledger}
    (run : Ledger.load path bound h = (.ok l, k)) :
    l.path = path ∧ h.Relogged k := by
  have noted := StateFile.load_relogged path (.list []) h
  rw [Ledger.load, Op.run_bind] at run
  rcases read : StateFile.load path (.list []) h with ⟨fault | w, l'⟩
  · rw [read] at run
    cases run
  · rw [read] at run noted
    simp only [Op.run_bind, Op.run_ofExcept] at run
    rcases records : (w.iterate >>= Ledger.loadRecords .empty) with fault | m
    · rw [records] at run
      cases run
    · rw [records] at run
      cases run
      exact ⟨rfl, noted⟩

theorem Life.lived {shown : List Showing} (life : Life lead rule shown g t) :
    Lived lead rule shown g t := by
  induction life with
  | opened unmarked => exact unmarked.lived lead
  | @called shown g t life c h untouched calm lived =>
    have here : Lived lead rule shown g h.files :=
      { lived with trail := lived.trail.spares untouched }
    cases edit : c.isEdit with
    | true =>
      rw [showings_of_isEdit edit, List.append_nil]
      exact here.edited edit calm
    | false =>
      cases c with
      | event e =>
        have state : (call (.event e) (g, h)).2 = (onEvent e (g, h)).2 := by
          rw [call, Op.run_return]
        rw [after, state]
        exact here.event (calm.retains e rfl)
      | _ => cases edit
  | @reopened shown g t h k l p bound records edges ledger life path written untouched edgesRead
      ledgerRead lived =>
    have recorded := (lived.trail.edges.filed p path written).spares untouched
    obtain ⟨place, -, legible, fired, files⟩ := recorded.load edgesRead
    obtain ⟨ledgerPlace, noted⟩ := Ledger.load_path ledgerRead
    have there {q : FilePath} (found : edges.path = some q) : g.edges.path = some q :=
      path.trans (place.symm.trans found)
    refine ⟨lived.keyed, lived.stored,
      ⟨⟨?_, legible, fun q found _ => ?_⟩, fun q found => lived.trail.rules q (there found),
      fun q found => lived.trail.cursors q (there found), fun q found => ?_⟩,
      by rw [fired]; exact lived.marked, lived.once⟩
    · exact fun q found => lived.trail.edges.savable q (there found)
    · cases place.symm.trans found
      rw [fired, noted.files, files]
      exact recorded
    · rw [ledgerPlace]
      exact lived.trail.ledger q (there found)

/-- A rule on new leads fires for a lead just when it is told of it for the first time. -/
theorem new_lead_fires_once {shown before later : List Showing} {x : Showing}
    (life : Life lead rule shown g t)
    (place : shown = before ++ x :: later) : x.fired = true ↔
    x.told = true ∧ ∀ y ∈ before, y.told = false :=
  life.lived.once before x later place

def welcome : Rule := { tagging with
  id := "welcome", name := .text "welcome", trigger := .newLead
  conditions := [⟨"c1", .text "source", .equals, .text "web", .and⟩] }

def birth (id : Text) : Event := Trigger.telling id .leadCreated

def statesFile : FilePath := .ofText "edges.json"

def welcoming : Engine := { blank with
  rules := { rules := .ofList [("welcome", welcome)] }
  edges := { path := some statesFile } }

def welcomed : Engine × Host := (call (.event (birth "e1")) (welcoming, .still)).2

def met : EdgeState := { lead := .text "L1", rule := .text "welcome", firedAt := some .first }

def metStore : EdgeStore where
  path := some statesFile
  maxEntries := 10
  states := .ofList [((EdgeKey.ofTexts "L1" "welcome").identity, (.ofTexts "L1" "welcome", met))]

def restarted : Engine × Host :=
  (call (.setEnabled "welcome" false) (call (.update "welcome" { conditions := some (.inl []) })
    ({ welcomed.1 with edges := metStore, ledger := { maxEntries := 10 } }, welcomed.2)).2).2

def enabledAgain : Engine × Host :=
  (call (.setEnabled "welcome" true) (call (.event (birth "e2")) restarted).2).2

/-- The lead does not meet the conditions of its rule. They are dropped after a restart, and the
lead is reported anew, once while the rule is disabled and once while it is enabled. -/
theorem new_lead_fires_once_restarted : ∃ g t,
    Life "L1" "welcome" [showing "L1" "welcome" (birth "e1") welcoming .still,
      showing "L1" "welcome" (birth "e2") restarted.1 restarted.2,
      showing "L1" "welcome" (birth "e3") enabledAgain.1 enabledAgain.2] g t ∧
    (showing "L1" "welcome" (birth "e1") welcoming .still).fired = true ∧
    (showing "L1" "welcome" (birth "e2") restarted.1 restarted.2).fired = false ∧
    (showing "L1" "welcome" (birth "e3") enabledAgain.1 enabledAgain.2).told = true ∧
    (showing "L1" "welcome" (birth "e3") enabledAgain.1 enabledAgain.2).fired = false := by
  have unmarked : Unmarked "welcome" welcoming {} := by
    refine ⟨.opened [welcome] rfl, ⟨welcome, by decide +kernel, rfl⟩, rfl, ?_, fun _ _ _ => nofun,
      fun _ _ => ⟨nofun, nofun, nofun⟩⟩
    rintro p ⟨⟩
    exact ⟨⟨by decide, by decide⟩, by decide⟩
  have calm {e : Event} {s : Engine × Host}
    (kept : dropsOn (EdgeKey.ofTexts "L1" "welcome").identity e s.1 s.2 = false)
      (lead : decide e.lead.id.Unsplit = true)
        (rules : (s.1.rules.rules.values.all fun r => decide r.id.Unsplit) = true) :
      Calm "L1" "welcome" (.event e) s.1 s.2 :=
    ⟨nofun, trivial, fun _ same => by
      cases same
      exact ⟨kept, of_decide_eq_true lead, fun r member => of_decide_eq_true
        (List.all_eq_true.1 rules r member)⟩⟩
  have told {shown : List Showing} {s : Engine × Host}
    (life : Life "L1" "welcome" shown s.1 s.2.files) (e : Event)
      (calm : Calm "L1" "welcome" (.event e) s.1 s.2) :
      Life "L1" "welcome" (shown ++ [showing "L1" "welcome" e s.1 s.2]) (call (.event e) s).2.1
        (call (.event e) s).2.2.files :=
    life.called (.event e) s.2 (fun p _ => .refl p.place _) calm
  have changed {shown : List Showing} {s : Engine × Host}
    (life : Life "L1" "welcome" shown s.1 s.2.files) {c : Call}
      (edit : c.isEdit = true) (calm : Calm "L1" "welcome" c s.1 s.2) :
      Life "L1" "welcome" shown (call c s).2.1 (call c s).2.2.files := by
    have next := life.called c s.2 (fun p _ => .refl p.place _) calm
    rw [showings_of_isEdit edit, List.append_nil] at next
    exact next
  have first := told (s := (welcoming, .still)) (.opened unmarked) (birth "e1")
    (calm (by decide +kernel) (by decide +kernel) (by decide +kernel))
  -- The text that was written is told from the states, so that it need not be read.
  have stands :
      welcomed.2.files.find statesFile =
      .ok (statesFile.place, some (.file (Json.writeIndented metStore.toWire))) :=
    StateFile.of_toOption (by decide +kernel)
  have same : Json.reread Json.depthLimit metStore.toWire = .ok metStore.toWire :=
    StateFile.of_toOption (by decide +kernel)
  have textual : metStore.Textual := by
    rintro e member
    obtain rfl := List.mem_singleton.1 member
    exact ⟨"L1", "welcome", rfl, rfl, rfl, rfl⟩
  have edges : EdgeStore.load (some statesFile) 10 welcomed.2 = (.ok metStore, welcomed.2) := by
    rcases StateFile.load_reread stands
      (.list []) with ⟨w, again, read⟩ | ⟨refusal, fault, refused, -⟩
    · obtain rfl := Except.ok.inj (again.symm.trans same)
      exact EdgeStore.load_run read (EdgeStore.loadStates_toWire textual)
    · cases refused.symm.trans same
  have ledger : Ledger.load welcomed.1.ledger.path 10 welcomed.2 =
      (.ok { maxEntries := 10 }, welcomed.2) := by
    rw [show welcomed.1.ledger.path = none from by decide +kernel]
    rfl
  have back := first.reopened (show welcomed.1.edges.path = some statesFile from by decide +kernel)
    (by decide +kernel)
    (.refl _ _) edges ledger
  have updated :=
    changed (s := (_, welcomed.2)) back
      (c := .update "welcome" { conditions := some (.inl []) }) rfl
    ⟨nofun, trivial, nofun⟩
  have disabled := changed updated (c := .setEnabled "welcome" false) rfl ⟨nofun, trivial, nofun⟩
  have second :=
    told (s := restarted) disabled (birth "e2")
      (calm (by decide +kernel) (by decide +kernel) (by decide +kernel))
  have enabled := changed second (c := .setEnabled "welcome" true) rfl ⟨nofun, trivial, nofun⟩
  have third :=
    told (s := enabledAgain) enabled (birth "e3")
      (calm (by decide +kernel) (by decide +kernel) (by decide +kernel))
  have heard : (showing "L1" "welcome" (birth "e1") welcoming .still).told = true := by
    decide +kernel
  have unheard : (showing "L1" "welcome" (birth "e2") restarted.1 restarted.2).told = false := by
    decide +kernel
  simp only [List.nil_append, List.cons_append] at third
  have opening := new_lead_fires_once third (show [_, _, _] = [] ++ _ :: [_, _] from rfl)
  have middle := new_lead_fires_once third (show [_, _, _] = [_] ++ _ :: [_] from rfl)
  have last := new_lead_fires_once third (show [_, _, _] = [_, _] ++ _ :: [] from rfl)
  refine ⟨_, _, third, opening.2 ⟨heard, List.forall_mem_nil _⟩, ?_, by decide +kernel, ?_⟩
  · refine Bool.eq_false_iff.2 fun fired => ?_
    have new := (middle.1 fired).1
    rw [unheard] at new
    cases new
  · refine Bool.eq_false_iff.2 fun fired => ?_
    have new := (last.1 fired).2 _ List.mem_cons_self
    rw [heard] at new
    cases new

end LeadRules.Engine
