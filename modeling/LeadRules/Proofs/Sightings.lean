import LeadRules.Proofs.Crossings
import LeadRules.Proofs.Visits

/-! What a rule on scores or on stages sees of a lead: the events that reach it while it is
enabled, among any other calls. It keeps the last transition that it saw, and fires on every
crossing but one between the same two values as that one. -/
namespace LeadRules

namespace Value

def isLevel : Value → Bool
  | null | text _ => true
  | float x => x.isFinite
  | _ => false

/-- What tells one level from another: the place of a number, or a text. -/
def mark : Value → Option (Int ⊕ Text)
  | float x => x.place?.map .inl
  | text t => some (.inr t)
  | _ => none

theorem alike_iff_mark {a b : Value} (first : a.isLevel = true) (second : b.isLevel = true) :
    alike a b = true ↔ a.mark = b.mark := by
  have placed {x : Binary64} (finite : x.isFinite = true) : ∃ n, x.place? = some n := by
    cases x with
    | nan origin => cases finite
    | number negative rank bounded => exact ⟨_, rfl⟩
  cases a with
  | null =>
    cases b with
    | null => simp [alike]
    | text t => simp [alike, mark]
    | float y =>
      obtain ⟨n, place⟩ := placed second
      simp [alike, mark, place]
    | _ => cases second
  | text s =>
    cases b with
    | null => simp [alike, mark]
    | text t => simp [alike, mark, eq_comm]
    | float y =>
      obtain ⟨n, place⟩ := placed second
      simp [alike, mark, place]
    | _ => cases second
  | float x =>
    obtain ⟨m, place⟩ := placed first
    cases b with
    | null => simp [alike, alikeNumber, asInt?, mark, place]
    | text t => simp [alike, alikeNumber, asInt?, mark, place]
    | float y =>
      obtain ⟨n, place'⟩ := placed second
      have named : (x = .nan .named && y = .nan .named) = false := by
        cases x with
        | nan origin => cases first
        | number negative rank bounded => simp
      simp [alike, alikeNumber, asInt?, mark, Binary64.alike, Binary64.same, Binary64.compareWith,
        place, place', named]
    | _ => cases second
  | _ => cases first

end Value

namespace EdgeState

def marks (p : Value × Value) : Option (Int ⊕ Text) × Option (Int ⊕ Text) := (p.1.mark, p.2.mark)

def arrives (p : Value × Value) : Bool := p.1.isLevel && p.2.isLevel && p.2 ≠ .null

theorem isRepeat_iff_marks {old new : Value × Value}
    (levels : old.1.isLevel = true ∧ old.2.isLevel = true)
    (arrived : arrives new = true) : isRepeat old new = true ↔ marks old = marks new := by
  simp only [arrives, Bool.and_eq_true] at arrived
  obtain ⟨⟨first, second⟩, -⟩ := arrived
  rw [isRepeat, Bool.and_eq_true, Value.alike_iff_mark first levels.1, Value.alike_iff_mark second levels.2]
  simp [marks, eq_comm]

theorem marks_ne_fresh {p : Value × Value} (arrived : arrives p = true) :
    marks p ≠ (none, none) := by
  obtain ⟨a, b⟩ := p
  simp only [arrives, Bool.and_eq_true, decide_eq_true_eq] at arrived
  obtain ⟨⟨-, level⟩, some⟩ := arrived
  intro same
  have nothing : b.mark = none := congrArg Prod.snd same
  cases b with
  | null => exact some rfl
  | text t => cases nothing
  | float x =>
    cases x with
    | nan origin => cases level
    | number negative rank bounded => cases nothing
  | _ => cases level

end EdgeState

namespace Trigger

open EdgeState (marks arrives isRepeat)

variable {t : Trigger} {e : Event} {p : Value × Value}

def isGradual : Trigger → Bool
  | scoreReaches _ | stageChanged _ => true
  | _ => false

theorem isGradual_of_transition (seen : t.transition? e.occurrence = some p) :
    t.isGradual = true := by
  obtain ⟨_, _, _, rfl, -⟩ | ⟨_, _, _, rfl, -⟩ := transition?_cases seen
  · rfl
  · rfl

/-- An event of the kind that such a trigger listens to has a transition. -/
theorem transition_of_kind (gradual : t.isGradual = true) (kind : t.kind = e.kind.trigger) :
    ∃ p, t.transition? e.occurrence = some p := by
  cases t with
  | scoreReaches threshold =>
    cases occurrence : e.occurrence with
    | scoreChanged previous new => exact ⟨_, rfl⟩
    | _ => simp [Event.kind, occurrence, Occurrence.kind, EventKind.trigger, Trigger.kind] at kind
  | stageChanged toStage =>
    cases occurrence : e.occurrence with
    | stageChanged old new => exact ⟨_, rfl⟩
    | _ => simp [Event.kind, occurrence, Occurrence.kind, EventKind.trigger, Trigger.kind] at kind
  | _ => cases gradual

theorem isAlteredBy_transition (seen : t.transition? e.occurrence = some p) (s : EdgeState) :
    s.isAlteredBy (t.matchEvent e s).2 = !isRepeat (t.lastSeen s) p := by
  obtain ⟨threshold, previous, new, rfl, told, rfl⟩ | ⟨toStage, old, new, rfl, told, rfl⟩ :=
    transition?_cases seen
  · simp [matchEvent, told, lastSeen]
  · simp [matchEvent, told, lastSeen]

structure Recalls (t : Trigger) (s : EdgeState)
    (last : Option (Int ⊕ Text) × Option (Int ⊕ Text)) : Prop where
  levels : (t.lastSeen s).1.isLevel = true ∧ (t.lastSeen s).2.isLevel = true
  last : marks (t.lastSeen s) = last

theorem recalls_fresh (t : Trigger) (lead rule : Value) :
    t.Recalls (.fresh lead rule) (none, none) := by
  constructor <;> cases t <;> simp [lastSeen, EdgeState.fresh, Value.isLevel, marks, Value.mark]

/-- After an event a state recalls its transition, whether or not it had to be stored. -/
theorem Recalls.settle {s : EdgeState} {last : Option (Int ⊕ Text) × Option (Int ⊕ Text)}
    (recalls : t.Recalls s last)
    (seen : t.transition? e.occurrence = some p) (arrived : arrives p = true) :
    t.Recalls (s.settle (t.matchEvent e s).2) (marks p) := by
  rw [EdgeState.settle, isAlteredBy_transition seen]
  cases known : isRepeat (t.lastSeen s) p with
  | true => exact ⟨recalls.levels, (EdgeState.isRepeat_iff_marks recalls.levels arrived).1 known⟩
  | false =>
    simp only [arrives, Bool.and_eq_true] at arrived
    have now := lastSeen_apply seen s
    simp only [Bool.not_false, if_true]
    exact ⟨by rw [now]; exact arrived.1, by rw [now]⟩

def storedAfter (t : Trigger) (s : EdgeState) (events : List Event) : EdgeState :=
  events.foldl (fun s e => s.settle (t.matchEvent e s).2) s

theorem storedAfter_append (t : Trigger) (s : EdgeState) (first second : List Event) :
    t.storedAfter s (first ++ second) = t.storedAfter (t.storedAfter s first) second :=
      List.foldl_append ..

end Trigger

namespace EdgeStore

/-- What is left of the states when a rule is forgotten, whether or not they could be written. -/
theorem forget_states (v : Value) (s : EdgeStore) (h : Host) :
    (forget v (s, h)).2.1.states = s.states.filter fun _ x => !x.1.2.value.same v := by
  have flushed :=
    flush_frame { s with states := s.states.filter fun _ x => !x.1.2.value.same v, dirty := true } h
  simp only [forget, Op.run_bind, Op.run_store, Op.run_setStore]
  rw [flushed]

/-- To forget a rule hides no state that was stored under the name of another one. -/
theorem find_forget {id : Key × Key} {v : Value} {s : EdgeStore}
    (apart : ∀ x, s.states.get? id = some x → x.1.2.value.same v = false) (h : Host) :
    (forget v (s, h)).2.1.states.get? id = s.states.get? id := by
  rw [forget_states]
  exact OrderedMap.get?_filter_found fun x found => by simp [apart x found]

end EdgeStore

namespace Engine

open EdgeState (marks arrives isRepeat)

variable {lead rule : Text} {t : Trigger} {e : Event} {r : Rule} {g g' : Engine} {h k : Host}
  {result : RuleResult}
  {seen before later : List (Event × RuleResult)} {p : Value × Value} {c : Call}

/-- The events of a lead that a call shows to a rule, each with what the rule made of it. -/
def sightings (lead rule : Text) (c : Call) (g : Engine) (h : Host) : List (Event × RuleResult) :=
  match c with
  | .event e =>
    if e.lead.id = lead then
      match g.rules.rulesFor e.kind.trigger with
      | .ok rules =>
        (((outcomesOf e rules (g, h)).1.toOption.getD []).filter (·.rule = rule)).map
          fun o => (e, o.result)
      | .error _ => []
    else []
  | _ => []

/-- Whether a call leaves a rule and what it keeps of a lead in place: it does not delete the
rule, and an event evicts nothing, finds the rule with its trigger, and changes a score or stage
of the lead from a level to another one. -/
def undisturbed (lead rule : Text) (t : Trigger) (c : Call) (g : Engine) (h : Host) : Bool :=
  match c with
  | .event e =>
    !evictsOn e g h && g.rules.rules.values.all (fun r => r.id ≠ rule || r.trigger = t)
      && (e.lead.id ≠ lead || (t.transition? e.occurrence).all arrives)
  | .delete id => id ≠ rule
  | _ => true

/-- What a rule saw of a lead in a run of calls, from an engine that has nothing of
the lead under the rule. -/
inductive Watch (lead rule : Text) (t : Trigger) : List (Event × RuleResult) → Engine → Prop
  | start {g : Engine} (reached : Reached g) (unseen : entryOf lead rule g = none) :
      Watch lead rule t [] g
  | called {seen : List (Event × RuleResult)} {g : Engine} (watch : Watch lead rule t seen g)
      (c : Call) (h : Host)
      (calm : undisturbed lead rule t c g h = true) :
      Watch lead rule t (seen ++ sightings lead rule c g h) (after c g h)

/-- Calls about the rules leave what is stored of a lead under a rule that they do not delete. -/
theorem call_entry (edit : c.isEdit = true) (apart : c ≠ .delete rule)
    {x : Option (EdgeKey × EdgeState)}
    (written : ∀ y, x = some y → y.1 = .ofTexts lead rule) :
    Op.Keeps (fun s => entryOf lead rule s.1 = x) (call c) := by
  have onRules {α : Type} (op : StoreOp Repository α) :
      Op.Keeps (fun s => entryOf lead rule s.1 = x) (onRules op : StoreOp Engine α) := fun _ => id
  cases c with
  | event e => cases edit
  | create name trigger action conditions description isEnabled =>
    exact .bind (onRules _) fun _ => .pure _
  | add r => exact .bind (onRules _) fun _ => .pure _
  | importRule v => exact .bind (onRules _) fun _ => .pure _
  | update id u => exact .bind (onRules _) fun _ => .pure _
  | setEnabled id enabled => exact .bind (onRules _) fun _ => .pure _
  | delete id =>
    have forgets :
        Op.Keeps (fun s => entryOf lead rule s.1 = x) (onEdges (EdgeStore.forget (.text id))) := by
      rintro ⟨g, h⟩ kept
      refine (EdgeStore.find_forget (fun y found => ?_) h).trans kept
      have here : y.1.2.value = .text rule := by rw [written y (kept ▸ found)]; rfl
      have other : rule ≠ id := fun same => apart (same ▸ rfl)
      simpa [here, Value.same, Value.alike] using Ne.symm other
    have deletes : Op.Keeps (fun s => entryOf lead rule s.1 = x) (deleteRule id) := by
      refine .bind (onRules _) fun removed => .ite (.pure _) (.bind forgets fun _ => ?_)
      have noted (text : Text) : Op.Keeps (fun s => entryOf lead rule s.1 = x)
          (Op.onHost (Op.log .info text) : StoreOp Engine Unit) := fun _ kept => kept
      exact .bind (noted _) fun _ => .pure _
    exact .bind deletes fun _ => .pure _

/-- What a rule sees of an event whose rules took their turns. -/
theorem sightings_taken {rules : List Rule} {outcomes : List RuleOutcome} (lead rule : Text)
    (chosen : g.rules.rulesFor e.kind.trigger = .ok rules)
    (turns : Turns e rules g h outcomes g' k) :
    sightings lead rule (.event e) g h =
      if e.lead.id = lead then (outcomes.filter (·.rule = rule)).map fun o =>
        (e, o.result) else [] := by
  simp only [sightings, chosen, turns.run]
  rfl

/-- What an event comes to for a rule and a lead: the rule does not see it, or it takes its turn
once. -/
theorem sightings_event (lead rule : Text) (keyed : g.rules.Keyed) (kept : evictsOn e g h = false) :
    (sightings lead rule (.event e) g h = [] ∧
      entryOf lead rule (after (.event e) g h) = entryOf lead rule g) ∨
    ∃ r ∈ g.rules.due e.kind.trigger, r.id = rule ∧ e.lead.id = lead ∧ ∃ g₁ h₁ g₂ h₂ result,
      sightings lead rule (.event e) g h = [(e, result)] ∧ Spared e r g₁ h₁ result g₂ h₂ ∧
      entryOf lead rule g₁ = entryOf lead rule g ∧
      entryOf lead rule (after (.event e) g h) = entryOf lead rule g₂ := by
  obtain ⟨x, g', k, run, delivery⟩ := onEvent_delivery e g h
  rw [after_event, run]
  -- Whether or not the stores could be written, the rules took their turns.
  have taken {rules : List Rule} {outcomes : List RuleOutcome} {g₁ : Engine} {h₁ : Host}
      (chosen : g.rules.rulesFor e.kind.trigger = .ok rules)
        (turns : Turns e rules g h outcomes g₁ h₁)
      (flushed : Flushed g₁ g') :
      (sightings lead rule (.event e) g h = [] ∧ entryOf lead rule g' = entryOf lead rule g) ∨
      ∃ r ∈ g.rules.due e.kind.trigger, r.id = rule ∧ e.lead.id = lead ∧ ∃ g₁ h₁ g₂ h₂ result,
        sightings lead rule (.event e) g h = [(e, result)] ∧ Spared e r g₁ h₁ result g₂ h₂ ∧
        entryOf lead rule g₁ = entryOf lead rule g ∧
        entryOf lead rule g' = entryOf lead rule g₂ := by
    rw [evictsOn_eq chosen] at kept
    rw [sightings_taken lead rule chosen turns, flushed.entry]
    by_cases here : e.lead.id = lead
    · rw [if_pos here]
      by_cases listed : rule ∈ rules.map (·.id)
      · obtain ⟨r, member, rfl⟩ := List.mem_map.1 listed
        obtain ⟨_, g₁, h₁, result, visit⟩ := turns.visit (keyed.nodup_rulesFor chosen) kept member
        obtain ⟨g₂, h₂, spared, state⟩ := visit.turn
        subst here
        refine .inr
          ⟨r, (Repository.mem_rulesFor chosen).1 member, rfl, rfl, g₁, h₁, g₂, h₂,
          result, ?_, spared,
          visit.state, state⟩
        rw [visit.outcome]
        rfl
      · rw [turns.unnamed listed]
        exact .inl ⟨rfl, turns.entry_other kept (.inr listed)⟩
    · rw [if_neg here]
      exact .inl ⟨rfl, turns.entry_other kept (.inl (Ne.symm here))⟩
  cases delivery with
  | unordered chosen => exact .inl ⟨by simp [sightings, chosen], rfl⟩
  | idle chosen noted => exact taken chosen .nil (.refl g)
  | unsaved chosen some turns flushed => exact taken chosen turns (flushed_of_flush flushed)
  | taken chosen some turns flushed noted => exact taken chosen turns (flushed_of_flush flushed)

/-- What a rule made of the events of a lead that it saw: it keeps of the lead what its trigger
makes of them, one after the other, and it fired just where its trigger does. -/
structure Tracks (lead rule : Text) (t : Trigger) (seen : List (Event × RuleResult))
    (g : Engine) : Prop where
  keyed : g.rules.Keyed
  written : ∀ x, entryOf lead rule g = some x → x.1 = .ofTexts lead rule
  state : g.edges.get (.ofTexts lead rule) =
    t.storedAfter (.fresh (.text lead) (.text rule)) (seen.map (·.1))
  heard : ∀ x ∈ seen, t.kind = x.1.kind.trigger ∧ (t.transition? x.1.occurrence).all arrives = true
  fired : ∀ before e result later, seen = before ++ (e, result) :: later →
    (result ≠ .notFired ↔
    (t.matchEvent e (t.storedAfter (.fresh (.text lead) (.text rule)) (before.map (·.1)))).1 = true)

theorem Tracks.nil (keyed : g.rules.Keyed) (unseen : entryOf lead rule g = none) :
    Tracks lead rule t [] g where
  keyed := keyed
  written x found := by
    rw [unseen] at found
    cases found
  state := by
    rw [get_of_entry, unseen]
    rfl
  heard x member := by cases member
  fired before e result later split := by cases before <;> cases split

theorem Tracks.same_entry (tracks : Tracks lead rule t seen g) (keyed : g'.rules.Keyed)
    (same : entryOf lead rule g' = entryOf lead rule g) : Tracks lead rule t seen g' where
  keyed := keyed
  written x found := tracks.written x (same ▸ found)
  state := by rw [get_of_entry, same, ← get_of_entry, tracks.state]
  heard := tracks.heard
  fired := tracks.fired

/-- A turn of the rule on an event of the lead. -/
theorem Tracks.turn {g₁ g₂ : Engine} {h₁ h₂ : Host}
    (tracks : Tracks e.lead.id r.id r.trigger seen g)
    (spared : Spared e r g₁ h₁ result g₂ h₂)
    (before : entryOf e.lead.id r.id g₁ = entryOf e.lead.id r.id g)
    (after : entryOf e.lead.id r.id g' = entryOf e.lead.id r.id g₂) (keyed : g'.rules.Keyed)
    (listens : r.trigger.kind = e.kind.trigger)
    (steady : (r.trigger.transition? e.occurrence).all arrives = true) :
    Tracks e.lead.id r.id r.trigger (seen ++ [(e, result)]) g' := by
  have state :
      g₁.stateFor r e =
      r.trigger.storedAfter (.fresh (.text e.lead.id) (.text r.id)) (seen.map (·.1)) := by
    rw [stateFor_of_entry, before, ← tracks.state]
    rfl
  refine ⟨keyed, fun x found => ?_, ?_, fun x member => ?_, fun before' e' result' later split => ?_⟩
  · rw [after, spared.entry_self, before] at found
    split at found
    · obtain rfl := Option.some.inj found
      cases held : entryOf e.lead.id r.id g with
      | none => rfl
      | some y => exact tracks.written y held
    · exact tracks.written x found
  · rw [get_of_entry, after, ← stateFor_of_entry, stateFor_self spared.turn spared.dropped, state,
      List.map_append, Trigger.storedAfter_append]
    rfl
  · rcases List.mem_append.1 member with old | new
    · exact tracks.heard x old
    · obtain rfl := List.mem_singleton.1 new
      exact ⟨listens, steady⟩
  · rcases List.eq_nil_or_concat later with rfl | ⟨later, last, rfl⟩
    · obtain ⟨rfl, here⟩ := List.append_inj' split rfl
      obtain ⟨rfl, rfl⟩ := Prod.mk.inj (List.cons.inj here).1
      rw [Ne, spared.notFired_iff, state, Bool.not_eq_false]
    · have inside : seen = before' ++ (e', result') :: later := by
        have split : seen ++ [(e, result)] = (before' ++ (e', result') :: later) ++ [last] := by
          simpa using split
        exact (List.append_inj' split rfl).1
      exact tracks.fired before' e' result' later inside

theorem Watch.tracks (watch : Watch lead rule t seen g) : Tracks lead rule t seen g := by
  induction watch with
  | start reached unseen => exact .nil reached.keyed unseen
  | @called seen g watch c h calm tracks =>
    cases edit : c.isEdit with
    | true =>
      have quiet : sightings lead rule c g h = [] := by cases c <;> first | rfl | cases edit
      have stays : c ≠ .delete rule := by
        rintro rfl
        simp [undisturbed] at calm
      rw [quiet, List.append_nil]
      exact tracks.same_entry ((call_aside edit (g, h)).keyed tracks.keyed)
        (call_entry edit stays tracks.written (g, h) rfl)
    | false =>
      cases c with
      | event e =>
        simp only [undisturbed, Bool.and_eq_true, Bool.not_eq_true', List.all_eq_true, Bool.or_eq_true,
          decide_eq_true_eq] at calm
        obtain ⟨⟨kept, triggers⟩, levels⟩ := calm
        have keyed : (after (.event e) g h).rules.Keyed := by
          obtain ⟨x, g', k, run, delivery⟩ := onEvent_delivery e g h
          rw [after_event, run]
          exact delivery.frame.1 ▸ tracks.keyed
        rcases sightings_event lead rule tracks.keyed kept with ⟨unseen, same⟩ |
            ⟨r, member, rfl, rfl, g₁, h₁, g₂, h₂, result, shown, spared, before, later⟩
        · rw [unseen, List.append_nil]
          exact tracks.same_entry keyed same
        · obtain ⟨stored, listens⟩ := List.mem_filter.1 member
          obtain rfl : r.trigger = t := (triggers r stored).resolve_left fun apart => apart rfl
          have kind : r.trigger.kind = e.kind.trigger :=
            of_decide_eq_true (Bool.and_eq_true_iff.1 listens).2
          rw [shown]
          exact tracks.turn spared before later keyed kind
            (levels.resolve_left fun apart => apart rfl)
      | _ => cases edit

def lastOf (t : Trigger) (seen : List (Event × RuleResult)) : Option (Value × Value) :=
  seen.getLast?.bind fun x => t.transition? x.1.occurrence

/-- What a trigger on scores or on stages has in mind after some events is the
transition of the last one. -/
theorem recalls_storedAfter (s : EdgeState) (fresh : t.Recalls s (none, none))
    (moved : ∀ x ∈ seen, ∃ p, t.transition? x.1.occurrence = some p ∧ arrives p = true) :
    t.Recalls (t.storedAfter s (seen.map (·.1))) ((lastOf t seen).elim (none, none) marks) := by
  induction seen using List.reverseRecOn with
  | nil => exact fresh
  | append_singleton seen x ih =>
    obtain ⟨p, here, arrived⟩ := moved x (List.mem_append_right _ (List.mem_singleton_self x))
    have recalls := ih fun y member => moved y (List.mem_append_left _ member)
    have latest : lastOf t (seen ++ [x]) = some p := by simp [lastOf, here]
    rw [latest, List.map_append, Trigger.storedAfter_append]
    exact recalls.settle here arrived

/-- A transition repeats what the rule has in mind just when it repeats the one that was seen
last. -/
theorem repeats_last
    (moved : ∀ x ∈ seen, ∃ p, t.transition? x.1.occurrence = some p ∧ arrives p = true)
    (arrived : arrives p = true) (lead rule : Value) :
    isRepeat (t.lastSeen (t.storedAfter (.fresh lead rule) (seen.map (·.1)))) p = false ↔
      ∀ q ∈ lastOf t seen, isRepeat q p = false := by
  have recalls := recalls_storedAfter (.fresh lead rule) (t.recalls_fresh lead rule) moved
  have known := EdgeState.isRepeat_iff_marks recalls.levels arrived
  cases last : lastOf t seen with
  | none =>
    rw [recalls.last, last] at known
    have new :
        isRepeat (t.lastSeen (t.storedAfter (.fresh lead rule) (seen.map (·.1)))) p = false := by
      rw [← Bool.not_eq_true, known]
      exact (EdgeState.marks_ne_fresh arrived).symm
    simp [new]
  | some q =>
    obtain ⟨x, latest, here⟩ := Option.bind_eq_some_iff.1 last
    obtain ⟨q', here', arrived'⟩ := moved x (List.mem_of_getLast? latest)
    obtain rfl : q = q' := Option.some.inj (here.symm.trans here')
    simp only [arrives, Bool.and_eq_true] at arrived'
    have same := EdgeState.isRepeat_iff_marks arrived'.1 arrived
    rw [recalls.last, last] at known
    have alike : isRepeat (t.lastSeen (t.storedAfter (.fresh lead rule) (seen.map (·.1)))) p =
        isRepeat q p :=
      Bool.eq_iff_iff.2 (known.trans same.symm)
    simp [alike]

/-- A rule fires on the crossings that it sees, but for one between the same two values as
what it saw just before. -/
theorem sighted_crossings_fire (watch : Watch lead rule t seen g)
    (place : seen = before ++ (e, result) :: later)
    (moved : t.transition? e.occurrence = some p) :
    result ≠ .notFired ↔ t.awaits p = true ∧ ∀ q ∈ lastOf t before, isRepeat q p = false := by
  have gradual := Trigger.isGradual_of_transition moved
  have tracks := watch.tracks
  have told : ∀ x ∈ seen, ∃ p, t.transition? x.1.occurrence = some p ∧ arrives p = true := by
    intro x member
    obtain ⟨kind, levels⟩ := tracks.heard x member
    obtain ⟨p, here⟩ := Trigger.transition_of_kind gradual kind
    exact ⟨p, here, by simpa [here] using levels⟩
  obtain ⟨p', moved', arrived⟩ := told (e, result) (by simp [place])
  obtain rfl : p' = p := Option.some.inj (moved'.symm.trans moved)
  have earlier : ∀ x ∈ before, ∃ p, t.transition? x.1.occurrence = some p ∧ arrives p = true :=
    fun x member => told x (by simp [place, member])
  rw [tracks.fired before e result later place, Trigger.matchEvent_transition moved,
    Bool.and_eq_true, Bool.not_eq_true', repeats_last earlier arrived]

def hot : Rule :=
  { tagging with id := "hot", name := .text "hot", trigger := .scoreReaches (.ofNat 80) }

def rise (id : Text) : Event := Trigger.telling id (.scoreChanged (.ofNat 70) (.ofNat 85))

def fall : Event := Trigger.telling "e2" (.scoreChanged (.ofNat 85) (.ofNat 70))

/-- A score that drops while the rule is disabled and then rises between the same two values
crosses the threshold again, but the rule does not fire. -/
theorem sighted_crossings_fire_rise : ∃ first second g,
    Watch "L1" "hot" hot.trigger [(rise "e1", first), (rise "e3", second)] g ∧
      hot.trigger.awaits (.float (.ofNat 70), .float (.ofNat 85)) = true ∧ first ≠ .notFired ∧
      second = .notFired := by
  have reached : Reached (after (.add hot) blank .still) := .after (.opened [] rfl) _ _
  obtain ⟨seen, g, watch, rfl⟩ : ∃ seen g, Watch "L1" "hot" hot.trigger seen g ∧ seen =
      [(rise "e1", .executed ⟨.addTag, "L1", .text "hot", .first, .done ⟨"L1", .first, .tagAdd "active"⟩⟩),
        (rise "e3", .notFired)] := by
    have start : Watch "L1" "hot" hot.trigger [] _ := .start reached (by decide +kernel)
    have first := start.called (.event (rise "e1")) .still (by decide +kernel)
    have disabled := first.called (.setEnabled "hot" false) .still rfl
    have dropped := disabled.called (.event fall) .still (by decide +kernel)
    have enabled := dropped.called (.setEnabled "hot" true) .still rfl
    exact ⟨_, _, enabled.called (.event (rise "e3")) .still (by decide +kernel), by decide +kernel⟩
  have crossing : hot.trigger.awaits (.float (.ofNat 70), .float (.ofNat 85)) = true := by
    decide +kernel
  have fires := sighted_crossings_fire watch (show _ = [] ++ _ :: [_] from rfl) rfl
  have quiet := sighted_crossings_fire watch (show _ = [_] ++ _ :: [] from rfl) rfl
  refine ⟨_, _, _, watch, crossing, fires.2 ⟨crossing, fun q last => by cases last⟩, ?_⟩
  refine Decidable.byContradiction fun fired => ?_
  have new := (quiet.1 fired).2 (.float (.ofNat 70), .float (.ofNat 85)) rfl
  revert new
  decide +kernel

end Engine
end LeadRules
