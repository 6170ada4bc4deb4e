import LeadRules.Proofs.Errors
import LeadRules.Proofs.IsoText
import LeadRules.Proofs.Reading

/-! Times with and without a zone. Differences and comparisons do not go across them, so that it
matters that no time in the engine has a zone: every way in takes it away, and matching a trigger
against an event keeps it so. Here times are what the texts say, with the zone if there is one,
and a difference across zones is none; the matcher is shown to come to a result all the same, and
to the one that the engine's matcher, which knows no zones, comes to. -/
namespace LeadRules

namespace Stamp

/-- Microseconds from an earlier time, if both have a zone or neither has. -/
def since? (s earlier : Stamp) : Option Int :=
  if s.offset.isSome = earlier.offset.isSome then some (s.instant - earlier.instant) else none

/-- Whether two times are the same instant, which one with a zone and one without never are. -/
def isSame (s other : Stamp) : Bool :=
  s.offset.isSome = other.offset.isSome && s.instant = other.instant

theorem since?_ofDateTime (t earlier : DateTime) :
    (ofDateTime t).since? (ofDateTime earlier) = some (t.since earlier) := by
  simp [since?, ofDateTime, instant, DateTime.since]

theorem isSame_ofDateTime (t other : DateTime) :
    (ofDateTime t).isSame (ofDateTime other) = decide (t = other) := by
  have same : (t.micros : Int) = other.micros ↔ t = other := by
    rw [Int.natCast_inj]
    exact ⟨fun micros => by cases t; cases other; cases micros; rfl, congrArg _⟩
  simp [isSame, ofDateTime, instant, same]

end Stamp

def Stamp.withoutZone (s : Stamp) : Except Fault Stamp :=
  if s.offset.isSome then s.toDateTime.map .ofDateTime else .ok s

theorem Stamp.withoutZone_eq (s : Stamp) : s.withoutZone = s.toDateTime.map .ofDateTime := by
  obtain ⟨wall, offset⟩ := s
  cases offset with
  | none =>
    have same : Stamp.toDateTime ⟨wall, none⟩ = .ok wall := toDateTime_ofDateTime wall
    rw [withoutZone, same]
    rfl
  | some offset => exact if_pos rfl

def Value.toZoneless? (v : Value) : Except Fault (Option Stamp) :=
  if v.isBlank then .ok none else return some (← (← Iso.readTime (spellOutZulu v.toText)).withoutZone)

theorem Value.toZoneless?_eq (v : Value) : v.toZoneless? = v.toDateTime?.map (·.map .ofDateTime) := by
  unfold toZoneless? toDateTime?
  split
  next => rfl
  next =>
    cases Iso.readTime (spellOutZulu v.toText) with
    | error fault => rfl
    | ok read =>
      simp only [bind, Except.bind, read.withoutZone_eq]
      generalize read.toDateTime = time
      cases time <;> rfl

structure EventTimes where
  lastActivityAt : Option Stamp
  createdAt : Option Stamp
  occurredAt : Stamp

namespace EventTimes

def idleReference (times : EventTimes) : Option Stamp := times.lastActivityAt <|> times.createdAt

def ofWire (now : DateTime) (v : Value) : Except Fault EventTimes := do
  let data ← v.members
  let lead ← (Value.member "lead" data).members
  let lastActivityAt ← (Value.member "lastActivityAt" lead).toZoneless?
  let createdAt ← (Value.member "createdAt" lead).toZoneless?
  let occurredAt ← (Value.member "occurredAt" data).toZoneless?
  return { lastActivityAt, createdAt, occurredAt := occurredAt.getD (.ofDateTime now) }

def Zoneless (times : EventTimes) : Prop :=
  (∀ s ∈ times.lastActivityAt, s.offset = none) ∧ (∀ s ∈ times.createdAt, s.offset = none) ∧
  times.occurredAt.offset = none

end EventTimes

structure StampedState where
  lead : Value
  rule : Value
  score : Value := .null
  scoreFrom : Value := .null
  stage : Value := .null
  stageFrom : Value := .null
  idleMarker : Option Stamp := none
  firedAt : Option Stamp := none

namespace StampedState

def ofWire (v : Value) : Except Fault StampedState := do
  let lead ← v.subscript "lead_id"
  let rule ← v.subscript "rule_id"
  let data ← v.members
  let idleMarker ← (Value.member "idle_marker" data).toZoneless?
  let firedAt ← (Value.member "fired_at" data).toZoneless?
  return {
    lead, rule, idleMarker, firedAt
    score := Value.member "last_observed_score" data
    scoreFrom := Value.member "last_observed_score_from" data
    stage := Value.member "last_observed_stage" data
    stageFrom := Value.member "last_observed_stage_from" data }

def Zoneless (s : StampedState) : Prop :=
  (∀ t ∈ s.idleMarker, t.offset = none) ∧ ∀ t ∈ s.firedAt, t.offset = none

end StampedState

def hoursOfMicros (n : Int) : Binary64 := (secondsOfMicros n).divNat 3600

/-- Whether what happened fires a trigger, and what the state becomes; nothing if a time with a
zone meets one without. -/
def Trigger.matchStamped (t : Trigger) (o : Occurrence) (times : EventTimes) (s : StampedState) :
    Option (Bool × StampedState) :=
  match t, o with
  | newLead, .leadCreated =>
    if s.firedAt.isSome then some (false, s) else some
      (true, { s with firedAt := some times.occurredAt })
  | leadUntouched hours, .idleScanTick =>
    match times.idleReference with
    | none => some (false, s)
    | some reference =>
      match times.occurredAt.since? reference with
      | none => none
      | some idle =>
        if (hoursOfMicros idle).lt hours then some (false, s)
        else if s.idleMarker.any (·.isSame reference) then some (false, s)
        else some (true, { s with idleMarker := some reference })
  | stageChanged toStage, .stageChanged old new =>
    some (new.same (.text toStage) && !old.same (.text toStage) &&
        !EdgeState.isRepeat (s.stageFrom, s.stage) (old, new),
      { s with stageFrom := old, stage := new })
  | taskCompleted, .taskCompleted _ => some (true, s)
  | scoreReaches threshold, .scoreChanged previous new =>
    some (previous.lt threshold && threshold.le new &&
        !EdgeState.isRepeat (s.scoreFrom, s.score) (.float previous, .float new),
      { s with scoreFrom := .float previous, score := .float new })
  | _, _ => some (false, s)

def Event.times (e : Event) : EventTimes where
  lastActivityAt := e.lead.lastActivityAt.map .ofDateTime
  createdAt := e.lead.createdAt.map .ofDateTime
  occurredAt := .ofDateTime e.occurredAt

def EdgeState.stamped (s : EdgeState) : StampedState where
  lead := s.lead
  rule := s.rule
  score := s.score
  scoreFrom := s.scoreFrom
  stage := s.stage
  stageFrom := s.stageFrom
  idleMarker := s.idleMarker.map .ofDateTime
  firedAt := s.firedAt.map .ofDateTime

theorem EdgeState.stamped_injective : Function.Injective stamped := by
  have wall : Function.Injective Stamp.ofDateTime := fun _ _ same => congrArg Stamp.wall same
  intro s p same
  obtain ⟨lead, rule, score, scoreFrom, stage, stageFrom, marker, fired⟩ := s
  have marker' := Option.map_injective wall (congrArg StampedState.idleMarker same)
  have fired' := Option.map_injective wall (congrArg StampedState.firedAt same)
  cases p
  cases marker'
  cases fired'
  cases same
  rfl

theorem StampedState.ofWire_eq (v : Value) :
    ofWire v = (EdgeState.ofWire v).map EdgeState.stamped := by
  unfold ofWire EdgeState.ofWire
  simp only [Value.toZoneless?_eq, bind, Except.bind]
  cases v.subscript "lead_id" with
  | error fault => rfl
  | ok lead =>
    cases v.subscript "rule_id" with
    | error fault => rfl
    | ok rule =>
      cases v.members with
      | error fault => rfl
      | ok data =>
        dsimp only
        cases (Value.member "idle_marker" data).toDateTime? with
        | error fault => rfl
        | ok idleMarker =>
          cases (Value.member "fired_at" data).toDateTime? with
          | error fault => rfl
          | ok firedAt => rfl

theorem Op.Yields.ofExcept_bind {σ α β : Type} {P : β → Prop} {x : Except Fault α}
    {next : α → Op σ β}
    (later : ∀ a, x = .ok a → Yields P (next a)) : Yields P (Op.ofExcept x >>= next) := by
  cases x with
  | error fault => exact .throw fault
  | ok a => exact later a rfl

/-- The times of a lead that was read. -/
theorem Lead.times_of_read (v : Value) : Admits (fun lead => ∃ data, v.members = .ok data ∧
    (Value.member "lastActivityAt" data).toDateTime? = .ok lead.lastActivityAt ∧
    (Value.member "createdAt" data).toDateTime? = .ok lead.createdAt) (ofWire v) := by
  refine .bind fun data members => .bind fun id _ => .bind fun tags _ =>
    .bind fun customFields _ => ?_
  refine .bind fun lastActivityAt last => .bind fun createdAt first => .ok ?_
  exact ⟨data, members, last, first⟩

/-- Every event that is read has times, and they are those of the event. -/
theorem EventTimes.ofWire_of_read (now : DateTime) (v : Value) :
    Op.Yields (fun e => ofWire now v = .ok e.times) (Event.ofWire now v) := by
  refine .ofExcept_bind fun data members => ?_
  dsimp only
  split
  · split
    · split
      next entries snapshot =>
        refine .ofExcept_bind fun lead read => .ofExcept_bind fun occurredAt time =>
          .ofExcept_bind fun occurrence _ => ?_
        obtain ⟨fields, inner, last, first⟩ := Lead.times_of_read _ lead read
        have times (id : Text) :
            ofWire now v = .ok (Event.times ⟨id, lead, occurredAt.getD now, occurrence⟩) := by
          unfold ofWire
          simp only [members, snapshot, inner, Value.toZoneless?_eq, last, first, time, bind, Except.bind]
          cases occurredAt <;> rfl
        exact .ite (fun _ => .bind fun id => .pure (times id)) fun _ => .bind fun id =>
          .pure (times id)
      · exact .throw _
    · exact .throw _
  · exact .throw _

theorem Trigger.matchStamped_eq (t : Trigger) (e : Event) (s : EdgeState) :
    t.matchStamped e.occurrence e.times s.stamped =
      some ((t.matchEvent e s).1, (s.apply (t.matchEvent e s).2).stamped) := by
  obtain ⟨id, lead, occurredAt, occurrence⟩ := e
  unfold matchStamped matchEvent
  cases t with
  | newLead =>
    cases occurrence with
    | leadCreated =>
      cases fired : s.firedAt <;> simp [EdgeState.stamped, EdgeState.apply, fired, Event.times]
    | _ => rfl
  | leadUntouched hours =>
    cases occurrence with
    | idleScanTick =>
      have reference : (Event.times ⟨id, lead, occurredAt, .idleScanTick⟩).idleReference =
          lead.idleReference.map .ofDateTime := by
        unfold EventTimes.idleReference Lead.idleReference
        cases last : lead.lastActivityAt <;> simp [Event.times, last]
      simp only [reference]
      cases lead.idleReference with
      | none => rfl
      | some reference =>
        have marked : (s.stamped.idleMarker.any fun m => m.isSame (.ofDateTime reference)) =
            decide (s.idleMarker = some reference) := by
          cases marker : s.idleMarker <;> simp [EdgeState.stamped, marker, Stamp.isSame_ofDateTime]
        have hours_eq :
            idleHours occurredAt reference = hoursOfMicros (occurredAt.since reference) := rfl
        simp only [Option.map_some, Event.times, Stamp.since?_ofDateTime, hours_eq, marked]
        -- The hours are hidden, or they would be computed.
        generalize hoursOfMicros (occurredAt.since reference) = idle
        generalize idle.lt hours = short
        cases short with
        | true => rfl
        | false =>
          by_cases same : s.idleMarker =
            some reference <;> simp [same, EdgeState.stamped, EdgeState.apply]
    | _ => rfl
  | stageChanged toStage => cases occurrence <;> rfl
  | taskCompleted => cases occurrence <;> rfl
  | scoreReaches threshold => cases occurrence <;> rfl

/-- A time that an optional one is taken for has no zone. -/
theorem DateTime.offset_of_mem_map {t? : Option DateTime} {s : Stamp}
    (mem : s ∈ t?.map .ofDateTime) : s.offset = none := by
  obtain ⟨t, -, rfl⟩ := Option.map_eq_some_iff.mp mem
  rfl

theorem EdgeState.stamped_zoneless (s : EdgeState) : s.stamped.Zoneless :=
  ⟨fun _ => DateTime.offset_of_mem_map, fun _ => DateTime.offset_of_mem_map⟩

theorem Event.times_zoneless (e : Event) : e.times.Zoneless :=
  ⟨fun _ => DateTime.offset_of_mem_map, fun _ => DateTime.offset_of_mem_map, rfl⟩

/-- The states that there are: fresh ones, those that were read, and what a match of an event that
was read makes of one. -/
inductive StampedState.Reached : StampedState → Prop
  | fresh (lead rule : Value) : Reached { lead, rule }
  | read {v : Value} {s : StampedState} (read : ofWire v = .ok s) : Reached s
  | matched {now : DateTime} {v : Value} {ids ids' : IdSource} {e : Event} {times : EventTimes}
      {t : Trigger} {s s' : StampedState}
      {fired : Bool} (reached : Reached s) (read : Event.ofWire now v ids = (.ok e, ids'))
        (told : EventTimes.ofWire now v = .ok times)
      (run : t.matchStamped e.occurrence times s = some (fired, s')) : Reached s'

/-- A reached state is one of the engine's. -/
theorem StampedState.Reached.exists_plain {s : StampedState} (reached : s.Reached) :
    ∃ p : EdgeState, p.stamped = s := by
  induction reached with
  | fresh lead rule => exact ⟨.fresh lead rule, rfl⟩
  | @read v s read =>
    rw [ofWire_eq] at read
    cases plain : EdgeState.ofWire v with
    | error fault =>
      rw [plain] at read
      cases read
    | ok p =>
      rw [plain] at read
      exact ⟨p, Except.ok.inj read⟩
  | @matched now v ids ids' e times t _ _ _ reached read told run ih =>
    obtain ⟨p, rfl⟩ := ih
    have known := EventTimes.ofWire_of_read now v ids e (congrArg Prod.fst read)
    obtain rfl := Except.ok.inj (known.symm.trans told)
    rw [Trigger.matchStamped_eq] at run
    exact ⟨_, congrArg Prod.snd (Option.some.inj run)⟩

namespace Engine

variable {e : Event} {r : Rule} {g g' : Engine} {h k : Host} {text : Text}

/-- What a rule that ends with an error failed of, once its trigger had been matched: a store that
holds less than nothing, or, if it fired, its conditions, its action or the ledger. -/
inductive LaterFault (e : Event) (r : Rule) (g : Engine) : Text → Prop
  | state (full : g.edges.maxEntries < 0) : LaterFault e r g Fault.nothingToEvict.message
  | conditions {fault : Fault} (fired : (r.trigger.matchEvent e (g.stateFor r e)).1 = true)
      (unclear : r.verdict g.catalog e.lead = .error fault) : LaterFault e r g fault.message
  | action {fault : Fault} {m : Host} (fired : (r.trigger.matchEvent e (g.stateFor r e)).1 = true)
      (raised : (Executor.execute r.action e.lead (.text r.id) (g.executor, m)).1 = .error fault) :
      LaterFault e r g fault.message
  | record (fired : (r.trigger.matchEvent e (g.stateFor r e)).1 = true)
      (full : g.ledger.maxEntries < 0) :
      LaterFault e r g Fault.nothingToEvict.message

theorem Turn.later (turn : Turn e r g h (.error text) g' k) : LaterFault e r g text := by
  generalize failure : RuleResult.error text = result at turn
  cases turn with
  | exhausted full noted =>
    cases failure
    rw [exhausted_sighting, Bool.and_eq_true, decide_eq_true_eq] at full
    exact .state full.2
  | unclear room fired unclear noted =>
    cases failure
    exact .conditions (fired_sighting .. ▸ fired) unclear
  | broken cleared new before executed noted =>
    cases failure
    exact .action (fired_sighting .. ▸ cleared.fired) (congrArg Prod.fst executed)
  | unrecorded cleared new before executed full noted =>
    cases failure
    exact .record (fired_sighting .. ▸ cleared.fired) full
  | acted cleared new before executed room noted => split at failure <;> cases failure
  | _ => cases failure

end Engine

/-- Whatever event is read, and whatever state was read or reached, no time of either has a zone,
so that every trigger is matched, with the result of the engine's matcher, and no state with a
zone comes of it. A rule that ends with an error for such an event failed after the match. -/
theorem Trigger.matchStamped_returns {now : DateTime} {v : Value} {ids ids' : IdSource} {e : Event}
    {s : StampedState}
    (read : Event.ofWire now v ids = (.ok e, ids')) (reached : s.Reached) (t : Trigger) :
    ∃ times p, EventTimes.ofWire now v = .ok times ∧ p.stamped = s ∧ times.Zoneless ∧ s.Zoneless ∧
      t.matchStamped e.occurrence times s =
        some ((t.matchEvent e p).1, (p.apply (t.matchEvent e p).2).stamped) ∧
      (p.apply (t.matchEvent e p).2).stamped.Zoneless ∧
      ∀ r g h text g' k, Engine.outcomeOf e r (g, h) = (.ok ⟨r.id, r.name, .error text⟩, (g', k)) →
        Engine.LaterFault e r g text := by
  obtain ⟨p, rfl⟩ := reached.exists_plain
  have times := EventTimes.ofWire_of_read now v ids e (congrArg Prod.fst read)
  refine ⟨e.times, p, times, rfl, e.times_zoneless, p.stamped_zoneless, t.matchStamped_eq e p,
    EdgeState.stamped_zoneless _, ?_⟩
  intro r g h text g' k failed
  obtain ⟨result, _, _, run, turn⟩ := Engine.outcomeOf_turn e r g h
  cases failed.symm.trans run
  exact turn.later

def newYearScan : Value := .record [
  ("kind", .text "IdleScanTick"),
  ("eventId", .text "scan"),
  ("lead", .record [("id", .text "L1"), ("lastActivityAt", .text "2023-01-01T05:00:00+05:00")]),
  ("occurredAt", .text "20230201T000000Z")]

def newYearMarked : Value := .record [
  ("lead_id", .text "L1"),
  ("rule_id", .text "R1"),
  ("idle_marker", .text "2023-01-01 00:00:00")]

def newYear : DateTime := ⟨63808128000000000, by decide⟩

/-- The scan is told of the same idle time as the state, whatever the spellings, and fires
no rule a second time. -/
theorem Trigger.matchStamped_returns_newYear :
    ∃ times s, EventTimes.ofWire Host.still.now newYearScan = .ok times ∧
      StampedState.ofWire newYearMarked = .ok s ∧
      s.idleMarker = some (.ofDateTime newYear) ∧ times.Zoneless ∧
      (leadUntouched (.ofNat 24)).matchStamped .idleScanTick times s = some (false, s) := by
  let e : Event :=
    ⟨"scan", { id := "L1", lastActivityAt := some newYear }, ⟨63810806400000000, by decide⟩,
      .idleScanTick⟩
  let marked : EdgeState := { lead := .text "L1", rule := .text "R1", idleMarker := some newYear }
  have read : Event.ofWire Host.still.now newYearScan {} = (.ok e, {}) :=
    Prod.ext (StateFile.of_toOption (by decide +kernel)) rfl
  have stored : EdgeState.ofWire newYearMarked = .ok marked :=
    StateFile.of_toOption (by decide +kernel)
  have reached : StampedState.ofWire newYearMarked = .ok marked.stamped := by
    rw [StampedState.ofWire_eq, stored]; rfl
  obtain ⟨times, p, told, same, zoneless, -, run, -⟩ :=
    matchStamped_returns read (.read reached) (leadUntouched (.ofNat 24))
  obtain rfl : p = marked := EdgeState.stamped_injective same
  have unchanged : (leadUntouched (.ofNat 24)).matchEvent e marked = (false, {}) := by
    decide +kernel
  rw [unchanged] at run
  exact ⟨times, marked.stamped, told, reached, rfl, zoneless, run⟩

end LeadRules
