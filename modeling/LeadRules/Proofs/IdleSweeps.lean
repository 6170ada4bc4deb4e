import LeadRules.IdleScan
import LeadRules.Proofs.IdlePeriods

/-! Idle scans that sweep again and again. A rule on untouched leads without conditions acts
once in each idle period of a lead: at the first tick that finds the lead idle for long
enough since that time. -/
namespace LeadRules

namespace IdleScan

open Engine

variable {hours : Binary64} {r : Rule} {done ticks later : List Tick} {seen : List Text}
  {os os' : List EventOutcome}
  {s s' : IdleScan} {h k : Host} {now : DateTime} {leads : List Lead}

def sweeps : List (DateTime × List Lead) → StoreOp IdleScan (List (List EventOutcome))
  | [] => return []
  | (now, leads) :: rest => do
    Op.onHost (modify fun h => { h with now })
    let outcomes ← runOnce leads
    return outcomes :: (← sweeps rest)

def ticksOf (plan : List (DateTime × List Lead)) : List Tick :=
  plan.flatMap fun (now, leads) => leads.map (now, ·)

structure Meeting where
  event : Event
  engine : Engine
  host : Host

/-- Where the ticks of a sweep find the engine, as far as the sweep gets. -/
def metIn (now : DateTime) : List Lead → Engine → Host → List Meeting
  | [], _, _ => []
  | lead :: rest, g, h =>
    match tick now lead h with
    | (.error _, _) => []
    | (.ok event, h) => ⟨event, g, h⟩ ::
      match onEvent event (g, h) with
      | (.error _, _) => []
      | (.ok _, (g, h)) => metIn now rest g h

def metAlong : List (DateTime × List Lead) → IdleScan → Host → List Meeting
  | [], _, _ => []
  | (now, leads) :: rest, s, h =>
    metIn now leads s.engine { h with now } ++
      match runOnce leads (s, { h with now }) with
      | (.error _, _) => []
      | (.ok _, (s, h)) => metAlong rest s h

/-- A tick that no store drops an entry for, and on which the action of a rule succeeds. -/
structure Meeting.Sound (r : Rule) (m : Meeting) : Prop where
  kept : evictsOn m.event m.engine m.host = false
  succeeds : Succeeds m.event r m.engine m.host

theorem tick_run (now : DateTime) (lead : Lead) (h : Host) : ∃ e k, tick now lead h = (.ok e, k) ∧
    tickOf e = (now, lead) ∧ e.occurrence = .idleScanTick := ⟨_, _, rfl, rfl, rfl⟩

theorem sweep_cons {lead : Lead} (run : sweep now (lead :: leads) (s, h) = (.ok os, (s', k))) :
    ∃ e h₁ o g₁ h₂ os', tick now lead h = (.ok e, h₁) ∧
      onEvent e (s.engine, h₁) = (.ok o, (g₁, h₂)) ∧
      sweep now leads ({ s with engine := g₁ }, h₂) = (.ok os', (s', k)) ∧ os = o :: os' := by
  obtain ⟨e, _, drawn, run⟩ := Op.ok_of_bind run
  rcases first : tick now lead h with ⟨y, h₁⟩
  rw [Op.run_onHost, first] at drawn
  cases drawn
  obtain ⟨o, _, answered, run⟩ := Op.ok_of_bind run
  obtain ⟨os', _, rest, ended⟩ := Op.ok_of_bind run
  rcases second : onEvent e (s.engine, h₁) with ⟨x, g₁, h₂⟩
  have passed : onEngine (onEvent e) (s, h₁) = (x, ({ s with engine := g₁ }, h₂)) := by
    rw [onEngine, Op.run_onPart, second]
  cases passed.symm.trans answered
  cases ended
  exact ⟨e, h₁, o, g₁, h₂, os', rfl, second, rest, rfl⟩

theorem runOnce_swept {s₁ : IdleScan} {h₁ : Host}
    (swept : sweep h.now leads (s, h) = (.ok os, (s₁, h₁))) :
    ∃ k, runOnce leads (s, h) = (.ok os, ({ s₁ with lastRun := some h.now }, k)) := by
  unfold runOnce
  simp only [Op.run_bind, Op.run_get, swept, Op.run_store, Op.run_setStore, Op.run_onHost,
    Op.run_log, Op.run_pure]
  exact ⟨_, rfl⟩

theorem runOnce_ok (run : runOnce leads (s, h) = (.ok os, (s', k))) :
    ∃ s₁ h₁, sweep h.now leads (s, h) = (.ok os, (s₁, h₁)) ∧ s'.engine = s₁.engine := by
  rcases swept : sweep h.now leads (s, h) with ⟨fault | os', s₁, h₁⟩
  · simp only [runOnce, Op.run_bind, Op.run_get, swept] at run
    cases run
  · obtain ⟨_, once⟩ := runOnce_swept swept
    cases once.symm.trans run
    exact ⟨s₁, h₁, rfl, rfl⟩

theorem sweeps_cons {plan : List (DateTime × List Lead)} {oss : List (List EventOutcome)}
    (run : sweeps ((now, leads) :: plan) (s, h) = (.ok oss, (s', k))) :
    ∃ os s₁ h₁ oss', runOnce leads (s, { h with now }) = (.ok os, (s₁, h₁)) ∧
      sweeps plan (s₁, h₁) = (.ok oss', (s', k)) ∧ oss = os :: oss' := by
  obtain ⟨_, _, set, run⟩ := Op.ok_of_bind run
  cases set
  obtain ⟨os, ⟨s₁, h₁⟩, swept, run⟩ := Op.ok_of_bind run
  obtain ⟨oss', _, rest, ended⟩ := Op.ok_of_bind run
  cases ended
  exact ⟨os, s₁, h₁, oss', swept, rest, rfl⟩

inductive Answered (hours : Binary64) (r : Rule) : List Tick → List Tick → List EventOutcome → Prop
  | nil {done : List Tick} : Answered hours r done [] []
  | cons {done ticks : List Tick} {t : Tick} {o : EventOutcome} {os : List EventOutcome}
      (first : Answers hours r done t o) (rest : Answered hours r (done ++ [t]) ticks os) :
      Answered hours r done (t :: ticks) (o :: os)

theorem Answered.append (answered : Answered hours r done ticks os)
    (rest : Answered hours r (done ++ ticks) later os') :
    Answered hours r done (ticks ++ later) (os ++ os') := by
  induction answered with
  | nil => simpa using rest
  | cons first _ ih => exact .cons first (ih (by simpa using rest))

theorem Answered.named (answered : Answered hours r done ticks os) :
    os.map (·.lead) = ticks.map (·.2.id) := by
  induction answered with
  | nil => rfl
  | cons first _ ih => simp [first.lead, ih]

theorem Answered.turns (answered : Answered hours r done ticks os) : ∀ o ∈ os, ∃ result,
    o.rules.filter (·.rule = r.id) = [⟨r.id, r.name, result⟩] ∧
    (result.status = .executed ∨ result = .notFired) := by
  induction answered with
  | nil => exact fun o member => absurd member List.not_mem_nil
  | cons first _ ih =>
    refine List.forall_mem_cons.2 ⟨?_, ih⟩
    obtain ⟨result, only, ends⟩ := first.turn
    refine ⟨result, only, ?_⟩
    split at ends
    · exact .inl ends
    · exact .inr ends

/-- A sweep that goes through answers its ticks. -/
theorem sweep_answered (trigger : r.trigger = .leadUntouched hours)
    (bare : r.conditions = [] ∧ r.strays = [])
    (swept : Swept hours r done seen s.engine) (run : sweep now leads (s, h) = (.ok os, (s', k)))
    (sound : ∀ m ∈ metIn now leads s.engine h, m.Sound r)
    (fresh : (seen ++ (metIn now leads s.engine h).map (·.event.id)).Nodup)
    (forward : Tick.Forward (done ++ leads.map (now, ·))) :
    Swept hours r (done ++ leads.map (now, ·))
      (seen ++ (metIn now leads s.engine h).map (·.event.id)) s'.engine ∧
      Answered hours r done (leads.map (now, ·)) os := by
  induction leads generalizing s h done seen os with
  | nil =>
    cases run
    exact ⟨by simpa [metIn] using swept, .nil⟩
  | cons lead leads ih =>
    obtain ⟨e, h₁, o, g₁, h₂, os', drawn, answer, onward, rfl⟩ := sweep_cons run
    obtain ⟨e', _, drawn', at_, tick⟩ := tick_run now lead h
    obtain rfl : e' = e := by
      rw [drawn] at drawn'
      exact (Except.ok.inj (Prod.mk.inj drawn').1).symm
    -- The first tick goes over from what is to come to what is done, with its event to
    -- those that were seen.
    have met :
        metIn now (lead :: leads) s.engine h = ⟨e', s.engine, h₁⟩ :: metIn now leads g₁ h₂ := by
      rw [metIn, drawn]
      simp only [answer]
    rw [met, List.map_cons] at fresh ⊢
    rw [met] at sound
    rw [List.map_cons] at forward ⊢
    rw [List.append_cons] at fresh forward ⊢
    have here := sound _ List.mem_cons_self
    have new : e'.id ∉ seen := by
      intro old
      exact (List.nodup_append.1 (List.nodup_append.1 fresh).1).2.2 _ old _
        (List.mem_singleton_self _) rfl
    rw [← at_] at forward ⊢
    have sofar := (List.pairwise_append.1 forward).1
    obtain ⟨swept, first⟩ := swept.tick trigger bare tick here.kept here.succeeds new sofar answer
    obtain ⟨swept, rest⟩ :=
      ih swept onward (fun m member => sound m (List.mem_cons_of_mem _ member)) fresh forward
    rw [List.append_cons seen]
    exact ⟨swept, .cons first rest⟩

theorem sweeps_answered {plan : List (DateTime × List Lead)} {oss : List (List EventOutcome)}
    (trigger : r.trigger = .leadUntouched hours) (bare : r.conditions = [] ∧ r.strays = [])
    (swept : Swept hours r done seen s.engine) (run : sweeps plan (s, h) = (.ok oss, (s', k)))
    (sound : ∀ m ∈ metAlong plan s h, m.Sound r)
    (fresh : (seen ++ (metAlong plan s h).map (·.event.id)).Nodup)
    (forward : Tick.Forward (done ++ ticksOf plan)) :
    oss.map (List.map (·.lead)) = plan.map (fun x => x.2.map (·.id)) ∧
      Answered hours r done (ticksOf plan) oss.flatten := by
  induction plan generalizing s h done seen oss with
  | nil =>
    cases run
    exact ⟨rfl, .nil⟩
  | cons x plan ih =>
    obtain ⟨now, leads⟩ := x
    obtain ⟨os, s₁, h₁, oss', once, onward, rfl⟩ := sweeps_cons run
    obtain ⟨s₂, h₂, through, same⟩ := runOnce_ok once
    have met : metAlong ((now, leads) :: plan) s h =
        metIn now leads s.engine { h with now } ++ metAlong plan s₁ h₁ := by
      rw [metAlong, once]
    have ticks : ticksOf ((now, leads) :: plan) = leads.map (now, ·) ++ ticksOf plan := rfl
    rw [met, List.map_append, ← List.append_assoc] at fresh
    rw [met] at sound
    rw [ticks, ← List.append_assoc] at forward
    obtain ⟨swept, first⟩ := sweep_answered trigger bare swept through
      (fun m member => sound m (List.mem_append_left _ member)) (List.nodup_append.1 fresh).1
      (List.pairwise_append.1 forward).1
    rw [← same] at swept
    obtain ⟨leads, rest⟩ :=
      ih swept onward (fun m member => sound m (List.mem_append_right _ member)) fresh forward
    refine ⟨?_, ?_⟩
    · rw [List.map_cons, List.map_cons, leads, first.named, List.map_map]
      rfl
    · rw [ticks, List.flatten_cons]
      exact first.append rest

def executes (r : Rule) (o : EventOutcome) : Bool :=
  o.rules.any fun x => x.rule = r.id && x.result.status = .executed

def executedAt (r : Rule) (lead : Text) (reference : DateTime) (ticks : List Tick)
    (os : List EventOutcome) : List Nat :=
  (ticks.zip os).findIdxs fun x => x.1.isWithin lead reference && executes r x.2

theorem executes_eq {t : Tick} {o : EventOutcome} (answers : Answers hours r done t o) :
    executes r o = t.opens hours done := by
  obtain ⟨result, only, ends⟩ := answers.turn
  rw [executes, ← List.any_filter, only, List.any_cons, List.any_nil, Bool.or_false]
  split at ends
  next opens => simp [ends, opens]
  next still => simp [ends, still, RuleResult.status]

/-- A rule is executed at no place of a period that has seen a tick due, and else at the first one
due. -/
theorem Answered.executed (answered : Answered hours r done ticks os) (lead : Text)
    (reference : DateTime) (start : Nat) :
    (ticks.zip os).findIdxs (fun x => x.1.isWithin lead reference && executes r x.2) start =
      if done.any (Tick.isDue hours lead reference) then []
      else ((ticks.findIdx? (Tick.isDue hours lead reference)).map (· + start)).toList := by
  induction answered generalizing start with
  | nil => simp
  | @cons done ticks t o os first rest ih =>
    have here : (t.isWithin lead reference && executes r o) =
        (t.isDue hours lead reference && !done.any (Tick.isDue hours lead reference)) := by
      rw [executes_eq first]
      cases within : t.isWithin lead reference with
      | false => simp [Tick.isDue, within]
      | true => rw [Bool.true_and, Tick.opens_of_within within]
    have told : (done ++ [t]).any (Tick.isDue hours lead reference) =
        (done.any (Tick.isDue hours lead reference) || t.isDue hours lead reference) := by simp
    have place (n : Nat) : n + 1 + start = n + (start + 1) := by omega
    rw [List.zip_cons_cons, List.findIdxs_cons, List.findIdx?_cons, here, ih, told]
    cases done.any (Tick.isDue hours lead reference) with
    | true => simp
    | false =>
      cases t.isDue hours lead reference with
      | true => simp
      | false => simp [Function.comp_def, place]

theorem sweep_returns (orderable : s.engine.rules.Orderable) (savable : s.engine.Savable)
    (now : DateTime)
    (leads : List Lead) (h : Host) : ∃ os s' k, sweep now leads (s, h) = (.ok os, (s', k)) ∧
      s'.engine.rules.Orderable ∧ s'.engine.Savable := by
  induction leads generalizing s h with
  | nil => exact ⟨[], s, h, rfl, orderable, savable⟩
  | cons lead leads ih =>
    obtain ⟨e, h₁, drawn, -⟩ := tick_run now lead h
    obtain ⟨o, g₁, h₂, answer, rules, savable⟩ := onEvent_returns orderable savable e h₁
    rw [← rules] at orderable
    obtain ⟨os, s', k, onward, orderable, savable⟩ :=
      ih (s := { s with engine := g₁ }) orderable savable h₂
    have passed : onEngine (onEvent e) (s, h₁) = (.ok o, ({ s with engine := g₁ }, h₂)) := by
      rw [onEngine, Op.run_onPart, answer]
    refine ⟨o :: os, s', k, ?_, orderable, savable⟩
    rw [sweep, Op.run_bind, Op.run_onHost, drawn]
    simp only [Op.run_bind, passed, onward, Op.run_pure]

theorem sweeps_returns (orderable : s.engine.rules.Orderable) (savable : s.engine.Savable)
    (plan : List (DateTime × List Lead)) (h : Host) : ∃ oss, (sweeps plan (s, h)).1 = .ok oss := by
  induction plan generalizing s h with
  | nil => exact ⟨[], rfl⟩
  | cons x plan ih =>
    obtain ⟨now, leads⟩ := x
    obtain ⟨os, s₁, h₁, swept, orderable, savable⟩ :=
      sweep_returns orderable savable now leads { h with now }
    obtain ⟨k, once⟩ := runOnce_swept (h := { h with now }) swept
    obtain ⟨oss, rest⟩ := ih (s := { s₁ with lastRun := some now }) orderable savable k
    refine ⟨os :: oss, ?_⟩
    rcases onward : sweeps plan ({ s₁ with lastRun := some now }, k) with ⟨x, t⟩
    rw [onward] at rest
    obtain rfl : x = .ok oss := rest
    simp only [sweeps, Op.run_bind, Op.run_onHost, Op.run_modify, once, onward, Op.run_pure]

/-- Sweeps from empty stores, in which one rule on untouched leads is always carried out when it
fires: it has no conditions, its action succeeds and nothing is evicted. The events have fresh
identifiers, and no lead is idle since an earlier time than before. -/
structure Rounds (hours : Binary64) (r : Rule) (plan : List (DateTime × List Lead)) (s : IdleScan)
    (h : Host) : Prop where
  keyed : s.engine.rules.Keyed
  due : r ∈ s.engine.rules.due .leadUntouched
  trigger : r.trigger = .leadUntouched hours
  bare : r.conditions = [] ∧ r.strays = []
  unseen : s.engine.edges.states = .empty
  unprocessed : s.engine.ledger.processed = .empty
  bound : 0 ≤ s.engine.ledger.maxEntries
  sound : ∀ m ∈ metAlong plan s h, m.Sound r
  fresh : ((metAlong plan s h).map (·.event.id)).Nodup
  forward : Tick.Forward (ticksOf plan)

variable {plan : List (DateTime × List Lead)}

theorem Rounds.swept (rounds : Rounds hours r plan s h) : Swept hours r [] [] s.engine := by
  refine ⟨rounds.keyed, rounds.due, rounds.bound, fun key member => ?_, ?_⟩
  · rw [Ledger.keys, rounds.unprocessed] at member
    cases member
  · have fresh (lead : Text) : (s.engine.edges.get (.ofTexts lead r.id)).idleMarker = none := by
      rw [EdgeStore.get, rounds.unseen]
      rfl
    rw [funext fresh]
    exact .nil hours

/-- Sweeps act once in each idle period of a lead, at the first tick that finds it idle for long
enough, and not at all in a period that has no such tick. They go through as long as the rules can
be ordered and the stores' files can be named. -/
theorem idle_periods_act_once (rounds : Rounds hours r plan s h) :
    (s.engine.rules.Orderable → s.engine.Savable → ∃ oss, (sweeps plan (s, h)).1 = .ok oss) ∧
    ∀ oss, (sweeps plan (s, h)).1 = .ok oss →
      oss.map (List.map (·.lead)) = plan.map (fun x => x.2.map (·.id)) ∧
      (∀ o ∈ oss.flatten, ∃ result, o.rules.filter (·.rule = r.id) = [⟨r.id, r.name, result⟩] ∧
        (result.status = .executed ∨ result = .notFired)) ∧
      ∀ lead reference, executedAt r lead reference (ticksOf plan) oss.flatten =
        ((ticksOf plan).findIdx? (Tick.isDue hours lead reference)).toList := by
  refine ⟨fun orderable savable => sweeps_returns orderable savable plan h, fun oss went => ?_⟩
  rcases run : sweeps plan (s, h) with ⟨x, s', k⟩
  rw [run] at went
  obtain rfl : x = .ok oss := went
  obtain ⟨leads, answered⟩ :=
    sweeps_answered rounds.trigger rounds.bare rounds.swept run rounds.sound rounds.fresh
      rounds.forward
  refine ⟨leads, answered.turns, fun lead reference => ?_⟩
  have places := answered.executed lead reference 0
  simpa [executedAt] using places

def waking : Rule :=
  { tagging with id := "wake", name := .text "wake", trigger := .leadUntouched (.ofNat 24) }

def hour (n : Nat) (inRange : n * 3600 * microsPerSecond < DateTime.limit) : DateTime :=
  ⟨n * 3600 * microsPerSecond, inRange⟩

def sleeper : Lead := { id := "L1", createdAt := some .first }

def woken : Lead := { sleeper with lastActivityAt := some (hour 30 (by decide)) }

def newcomer : Lead := { id := "L2", createdAt := some (hour 20 (by decide)) }

def patrol : List (DateTime × List Lead) := [
  (hour 25 (by decide), [sleeper, newcomer, sleeper]),
  (hour 26 (by decide), [sleeper]),
  (hour 60 (by decide), [woken])]

def station : IdleScan :=
  { engine := { blank with rules := { rules := .ofList [(waking.id, waking)] } } }

/-- The action of the only rule on an event succeeds if it does as things stand. -/
theorem succeeds_alone {e : Event} {g : Engine} (alone : g.rules.rulesFor e.kind.trigger = .ok [r])
    (ok : succeedsNow e r g h = true) : Succeeds e r g h := by
  intro before after outcomes g₁ h₁ chosen earlier _
  have place := Except.ok.inj (alone.symm.trans chosen)
  cases before with
  | nil =>
    cases earlier
    exact ok
  | cons b before => cases before <;> cases (List.cons.inj place).2

theorem station_rounds : Rounds (.ofNat 24) waking patrol station .still := by
  have reached : Reached station.engine := .opened [waking] rfl
  have checked : ((metAlong patrol station .still).all fun m => !evictsOn m.event m.engine m.host &&
      (m.engine.rules.rulesFor m.event.kind.trigger).toOption = some [waking] &&
      succeedsNow m.event waking m.engine m.host) = true := by
    decide +kernel
  have forward : Tick.Forward (ticksOf patrol) := by
    unfold Tick.Forward
    decide +kernel
  refine ⟨reached.keyed, by decide +kernel, rfl, ⟨rfl, rfl⟩, rfl, rfl, by decide,
    fun m member => ?_, by decide +kernel, forward⟩
  have here := List.all_eq_true.1 checked m member
  simp only [Bool.and_eq_true, Bool.not_eq_true', decide_eq_true_eq] at here
  obtain ⟨⟨kept, alone⟩, ok⟩ := here
  refine ⟨kept, succeeds_alone ?_ ok⟩
  cases chosen : m.engine.rules.rulesFor m.event.kind.trigger with
  | error fault => simp [chosen, Except.toOption] at alone
  | ok rules => simpa [chosen, Except.toOption] using alone

theorem idle_periods_act_once_patrol : ∃ oss, (sweeps patrol (station, .still)).1 = .ok oss ∧
    executedAt waking "L1" .first (ticksOf patrol) oss.flatten = [0] ∧
    executedAt waking "L1" (hour 30 (by decide)) (ticksOf patrol) oss.flatten = [4] ∧
    executedAt waking "L2" (hour 20 (by decide)) (ticksOf patrol) oss.flatten = [] := by
  obtain ⟨returns, periods⟩ := idle_periods_act_once station_rounds
  have savable : station.engine.Savable :=
    ⟨fun p place => (by cases place), fun p place => (by cases place)⟩
  obtain ⟨oss, went⟩ := returns (by decide +kernel) savable
  obtain ⟨-, -, places⟩ := periods oss went
  refine ⟨oss, went, ?_, ?_, ?_⟩
  · rw [places]
    decide +kernel
  · rw [places]
    decide +kernel
  · rw [places]
    decide +kernel

end IdleScan
end LeadRules
