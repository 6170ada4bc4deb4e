import LeadRules.Proofs.Calls
import LeadRules.Proofs.EdgeStates

/-! Triggers that decide by a transition, those on scores and those on stages. Along a
history that is told step by step they fire on the crossings and on nothing else, however
often each step is told again. -/
namespace LeadRules

def steps {α : Type} : List α → List (α × α)
  | a :: b :: rest => (a, b) :: steps (b :: rest)
  | _ => []

theorem steps_map {α β : Type} (f : α → β) (history : List α) :
    steps (history.map f) = (steps history).map fun p => (f p.1, f p.2) := by
  induction history with
  | nil => rfl
  | cons a rest ih =>
    cases rest with
    | nil => rfl
    | cons b rest => simpa [steps] using ih

theorem getElem?_steps {α : Type} {history : List α} {i : Nat} {p : α × α}
    (found : (steps history)[i]? = some p) :
    history[i]? = some p.1 ∧ history[i + 1]? = some p.2 := by
  induction history generalizing i with
  | nil => simp [steps] at found
  | cons a rest ih =>
    cases rest with
    | nil => simp [steps] at found
    | cons b rest =>
      cases i with
      | zero =>
        obtain rfl : (a, b) = p := by simpa [steps] using found
        exact ⟨rfl, rfl⟩
      | succ i =>
        have later : (steps (b :: rest))[i]? = some p := by simpa [steps] using found
        simpa using ih later

theorem Value.same_text (v : Value) (t : Text) : v.same (.text t) = decide (v = .text t) := by
  cases v with
  | text s => simp [same, alike, eq_comm]
  | bool b => simp [same, alike, alikeNumber, asInt?]
  | int n => simp [same, alike, alikeNumber, asInt?]
  | float x => simp [same, alike, alikeNumber, asInt?]
  | _ => simp [same, alike]

namespace Trigger

def transition? : Trigger → Occurrence → Option (Value × Value)
  | scoreReaches _, .scoreChanged previous new => some (.float previous, .float new)
  | stageChanged _, .stageChanged old new => some (old, new)
  | _, _ => none

/-- Whether a transition is a crossing: the score reaches the threshold from below, or
the stage is entered. -/
def awaits : Trigger → Value × Value → Bool
  | scoreReaches threshold, (.float previous, .float new) =>
    previous.lt threshold && threshold.le new
  | stageChanged toStage, (old, new) => decide (old ≠ .text toStage) && decide (new = .text toStage)
  | _, _ => false

def lastSeen : Trigger → EdgeState → Value × Value
  | scoreReaches _, s => (s.scoreFrom, s.score)
  | _, s => (s.stageFrom, s.stage)

def firings (t : Trigger) : EdgeState → List Event → List Bool
  | _, [] => []
  | s, e :: rest => (t.matchEvent e s).1 :: firings t (s.apply (t.matchEvent e s).2) rest

def stateAfter (t : Trigger) : EdgeState → List Event → EdgeState
  | s, [] => s
  | s, e :: rest => stateAfter t (s.apply (t.matchEvent e s).2) rest

/-- Which events of each group a trigger fires on, one group after the other. -/
def firingsBy (t : Trigger) : EdgeState → List (List Event) → List (List Bool)
  | _, [] => []
  | s, group :: rest => t.firings s group :: firingsBy t (t.stateAfter s group) rest

variable {t : Trigger} {e : Event} {p : Value × Value} {a b : Value} {s : EdgeState}
  {events : List Event}
  {groups : List (List Event)} {history : List Value} {lead rule : Value}

/-- Only triggers on scores and on stages decide by a transition, each by that of its own events. -/
theorem transition?_cases (seen : t.transition? e.occurrence = some p) :
    (∃ threshold previous new, t = scoreReaches threshold ∧ e.occurrence = .scoreChanged previous new ∧
      p = (.float previous, .float new)) ∨
    (∃ toStage old new, t = stageChanged toStage ∧ e.occurrence = .stageChanged old new ∧
      p = (old, new)) := by
  cases t with
  | scoreReaches threshold =>
    cases occurrence : e.occurrence with
    | scoreChanged previous new =>
      rw [occurrence] at seen
      exact .inl ⟨threshold, previous, new, rfl, rfl, (Option.some.inj seen).symm⟩
    | _ => simp [transition?, occurrence] at seen
  | stageChanged toStage =>
    cases occurrence : e.occurrence with
    | stageChanged old new =>
      rw [occurrence] at seen
      exact .inr ⟨toStage, old, new, rfl, rfl, (Option.some.inj seen).symm⟩
    | _ => simp [transition?, occurrence] at seen
  | _ => simp [transition?] at seen

theorem matchEvent_transition (seen : t.transition? e.occurrence = some p) (s : EdgeState) :
    (t.matchEvent e s).1 = (t.awaits p && !EdgeState.isRepeat (t.lastSeen s) p) := by
  obtain ⟨threshold, previous, new, rfl, told, rfl⟩ | ⟨toStage, old, new, rfl, told, rfl⟩ :=
    transition?_cases seen
  · simp [matchEvent, told, awaits, lastSeen]
  · simp [matchEvent, told, awaits, lastSeen, Value.same_text, Bool.and_comm]

theorem lastSeen_apply (seen : t.transition? e.occurrence = some p) (s : EdgeState) :
    t.lastSeen (s.apply (t.matchEvent e s).2) = p := by
  obtain ⟨threshold, previous, new, rfl, told, rfl⟩ | ⟨toStage, old, new, rfl, told, rfl⟩ :=
    transition?_cases seen
  · simp [matchEvent, told, lastSeen, EdgeState.apply]
  · simp [matchEvent, told, lastSeen, EdgeState.apply]

/-- A crossing ends neither where it starts nor in nothing. -/
theorem awaits_apart (crossing : t.awaits (a, b) = true) :
    Value.alike b a = false ∧ Value.alike b .null = false := by
  cases t with
  | scoreReaches threshold =>
    cases a with
    | float previous =>
      cases b with
      | float new =>
        obtain ⟨below, reached⟩ := Bool.and_eq_true_iff.1 crossing
        obtain ⟨m, n, start, level, below⟩ := Binary64.compareWith_iff.1 below
        obtain ⟨n', k, level', stop, reached⟩ := Binary64.compareWith_iff.1 reached
        obtain rfl := Option.some.inj (level.symm.trans level')
        simp only [decide_eq_true_eq] at below reached
        have apart : ¬ k = m := by omega
        have named : previous ≠ .nan .named := by
          rintro rfl
          cases start
        refine ⟨?_, by simp [Value.alike, Value.alikeNumber, Value.asInt?]⟩
        simp [Value.alike, Value.alikeNumber, Value.asInt?, Binary64.alike, Binary64.same,
          Binary64.compareWith, start, stop, apart, named]
      | _ => simp [awaits] at crossing
    | _ => simp [awaits] at crossing
  | stageChanged toStage =>
    simp only [awaits, Bool.and_eq_true, decide_eq_true_eq] at crossing
    obtain ⟨left, rfl⟩ := crossing
    exact ⟨by simpa [Value.alike] using left, by simp [Value.alike]⟩
  | _ => simp [awaits] at crossing

/-- A state after which a crossing from a value cannot be taken for the transition seen last. -/
def Arrived (t : Trigger) (s : EdgeState) (a : Value) : Prop :=
  (t.lastSeen s).2 = .null ∨ (t.lastSeen s).2 = a

theorem Arrived.fires (arrived : t.Arrived s a) (seen : t.transition? e.occurrence = some (a, b)) :
    (t.matchEvent e s).1 = t.awaits (a, b) := by
  rw [matchEvent_transition seen]
  cases crossing : t.awaits (a, b) with
  | false => rfl
  | true =>
    obtain ⟨elsewhere, something⟩ := awaits_apart crossing
    have new : EdgeState.isRepeat (t.lastSeen s) (a, b) = false := by
      rcases arrived with nothing | here
      · simp [EdgeState.isRepeat, nothing, something]
      · simp [EdgeState.isRepeat, here, elsewhere]
    rw [new]
    rfl

/-- What a trigger has just seen does not fire it again, and it goes on having seen it. -/
theorem firings_repeats (again : ∀ e ∈ events, t.transition? e.occurrence = some p)
    (known : EdgeState.isRepeat p p = true) (last : t.lastSeen s = p) :
    t.firings s events = List.replicate events.length false ∧
    t.lastSeen (t.stateAfter s events) = p := by
  induction events generalizing s with
  | nil => exact ⟨rfl, last⟩
  | cons e rest ih =>
    have here := again e List.mem_cons_self
    have quiet : (t.matchEvent e s).1 = false := by
      rw [matchEvent_transition here, last, known]
      simp
    obtain ⟨later, still⟩ :=
      ih (fun e member => again e (List.mem_cons_of_mem _ member)) (lastSeen_apply here s)
    refine ⟨?_, still⟩
    rw [firings, quiet, later]
    rfl

def Echoed (t : Trigger) (p : Value × Value) (group : List Event) : Prop :=
  group ≠ [] ∧ ∀ e ∈ group, t.transition? e.occurrence = some p

theorem Echoed.firings (echoed : t.Echoed (a, b) events) (first : a.isPlain = true)
    (second : b.isPlain = true)
    (arrived : t.Arrived s a) :
    t.firings s events = t.awaits (a, b) :: List.replicate (events.length - 1) false ∧
      t.Arrived (t.stateAfter s events) b := by
  obtain ⟨told, all⟩ := echoed
  cases events with
  | nil => exact absurd rfl told
  | cons e rest =>
    have here := all e List.mem_cons_self
    have known := EdgeState.isRepeat_self (p := (a, b)) first second
    obtain ⟨quiet, last⟩ :=
      firings_repeats (fun e member => all e (List.mem_cons_of_mem _ member)) known
      (lastSeen_apply here s)
    refine ⟨?_, .inr (by rw [stateAfter, last])⟩
    rw [Trigger.firings, arrived.fires here, quiet]
    rfl

/-- Firings on the first event of each group that tells of a crossing, and on no other event. -/
def onFirst {α : Type} (crosses : α × α → Bool) (history : List α) (groups : List (List Event)) :
    List (List Bool) :=
  List.zipWith (fun step group => crosses step :: List.replicate (group.length - 1) false)
    (steps history) groups

/-- Between two groups with a firing a history has a value of a kind: after the step of the first
one, and no later than the step of the second one starts. -/
def Between {α : Type} (kind : α → Prop) (history : List α) (fired : List (List Bool)) : Prop :=
  ∀ i j : Nat, i < j → true ∈ fired[i]?.getD [] → true ∈ fired[j]?.getD [] →
    ∃ k v, i < k ∧ k ≤ j ∧ history[k]? = some v ∧ kind v

/-- Where each crossing starts from a value of a kind there is one between two firings. -/
theorem between_onFirst {α : Type} {crosses : α × α → Bool} {kind : α → Prop}
    (leaves : ∀ p, crosses p = true → kind p.1)
    (history : List α) (groups : List (List Event)) :
    Between kind history (onFirst crosses history groups) := by
  intro i j before _ fired
  rw [onFirst, List.getElem?_zipWith] at fired
  cases step : (steps history)[j]? with
  | none => simp [step] at fired
  | some p =>
    cases group : groups[j]? with
    | none => simp [step, group] at fired
    | some group =>
      have crossing : crosses p = true := by simpa [step, *, List.mem_replicate] using fired
      exact ⟨j, p.1, before, Nat.le_refl j, (getElem?_steps step).1, leaves p crossing⟩

/-- Each step of a history fires a trigger the first time it is told if it is a
crossing, and never again. -/
theorem firingsBy_history (plain : ∀ v ∈ history, v.isPlain = true)
    (told : List.Forall₂ t.Echoed (steps history) groups)
    (arrived : ∀ a ∈ history.head?, t.Arrived s a) :
    t.firingsBy s groups = onFirst t.awaits history groups := by
  induction history generalizing s groups with
  | nil =>
    cases told
    rfl
  | cons a rest ih =>
    cases rest with
    | nil =>
      cases told
      rfl
    | cons b rest =>
      cases told with
      | cons echoed later =>
        have first := plain a List.mem_cons_self
        have second := plain b (List.mem_cons_of_mem _ List.mem_cons_self)
        obtain ⟨fired, arrived'⟩ := echoed.firings first second (arrived a rfl)
        have fired' :=
          ih (fun v member => plain v (List.mem_cons_of_mem _ member)) later
            (by simpa using arrived')
        rw [firingsBy, fired, fired']
        rfl

theorem arrived_fresh (t : Trigger) (lead rule a : Value) : t.Arrived (.fresh lead rule) a := by
  refine .inl ?_
  cases t <;> rfl

/-- Events that tell of some occurrences in their order, each one or more times in a row. -/
def Told (occurrences : List Occurrence) (groups : List (List Event)) : Prop :=
  List.Forall₂ (fun o group => group ≠ [] ∧ ∀ e ∈ group, e.occurrence = o) occurrences groups

theorem Told.echoed {α : Type} {steps : List α} {tell : α → Occurrence}
    (told : Told (steps.map tell) groups)
    (t : Trigger) (step : α → Value × Value) (seen : ∀ x, t.transition? (tell x) = some (step x)) :
    List.Forall₂ t.Echoed (steps.map step) groups := by
  rw [List.forall₂_map_left_iff]
  refine (List.forall₂_map_left_iff.1 told).imp fun {x group} told => ⟨told.1, fun e member => ?_⟩
  rw [told.2 e member, seen x]

/-- Score and stage triggers fire on the crossings of a history and on nothing else: on each
crossing the first time it is told, so that between two firings the score was below the threshold
and the stage was another one. -/
theorem crossings_fire_once (lead rule : Value) (groups : List (List Event)) :
    (∀ (threshold : Binary64) (scores : List Binary64), (∀ s ∈ scores, s.isFinite = true) →
      Told ((steps scores).map fun s => .scoreChanged s.1 s.2) groups →
      (scoreReaches threshold).firingsBy (.fresh lead rule) groups =
        onFirst (fun s => s.1.lt threshold && threshold.le s.2) scores groups ∧
      Between (fun s => s.lt threshold = true) scores
        ((scoreReaches threshold).firingsBy (.fresh lead rule) groups)) ∧
    (∀ (toStage : Text) (stages : List Value), (∀ w ∈ stages, w.isPlain = true) →
      Told ((steps stages).map fun w => .stageChanged w.1 w.2) groups →
      (stageChanged toStage).firingsBy (.fresh lead rule) groups =
        onFirst (fun w => decide (w.1 ≠ .text toStage) && decide (w.2 = .text toStage)) stages groups ∧
      Between (fun w => w ≠ .text toStage) stages
        ((stageChanged toStage).firingsBy (.fresh lead rule) groups)) := by
  constructor
  · intro threshold scores finite told
    have plain : ∀ v ∈ scores.map Value.float, v.isPlain = true := by
      intro v member
      obtain ⟨s, there, rfl⟩ := List.mem_map.1 member
      have finite := finite s there
      cases s with
      | nan origin => cases finite
      | number => simp [Value.isPlain]
    have echoed :=
      told.echoed (scoreReaches threshold) (fun s => (.float s.1, .float s.2)) fun _ => rfl
    rw [← steps_map] at echoed
    have fired :=
      firingsBy_history plain echoed fun a _ => arrived_fresh (scoreReaches threshold) lead rule a
    rw [onFirst, steps_map, List.zipWith_map_left] at fired
    rw [fired]
    refine ⟨rfl, between_onFirst (fun p crossing => ?_) scores groups⟩
    exact (Bool.and_eq_true_iff.1 crossing).1
  · intro toStage stages plain told
    have echoed := told.echoed (stageChanged toStage) id fun _ => rfl
    rw [List.map_id] at echoed
    have fired :=
      firingsBy_history plain echoed fun a _ => arrived_fresh (stageChanged toStage) lead rule a
    rw [fired]
    refine ⟨rfl, between_onFirst (fun p crossing => ?_) stages groups⟩
    exact of_decide_eq_true (Bool.and_eq_true_iff.1 crossing).1

def ups : List Binary64 := [.ofNat 10, .ofNat 85, .ofNat 70, .ofNat 85]

def telling (id : Text) (o : Occurrence) : Event :=
  { id, lead := { id := "L1" }, occurredAt := .first, occurrence := o }

def upsTold : List (List Event) :=
  [[telling "e1" (.scoreChanged (.ofNat 10) (.ofNat 85))],
    [telling "e2" (.scoreChanged (.ofNat 85) (.ofNat 70))],
    [telling "e3" (.scoreChanged (.ofNat 70) (.ofNat 85)),
      telling "e4" (.scoreChanged (.ofNat 70) (.ofNat 85))]]

def moves : List Value := [.null, .text "won", .text "lost", .text "won"]

def movesTold : List (List Event) :=
  [[telling "e1" (.stageChanged .null (.text "won")), telling "e1" (.stageChanged .null (.text "won"))],
    [telling "e2" (.stageChanged (.text "won") (.text "lost"))],
    [telling "e3" (.stageChanged (.text "lost") (.text "won"))]]

theorem crossings_fire_once_ups_and_moves :
    ((scoreReaches (.ofNat 80)).firingsBy (.fresh .null .null) upsTold = [[true], [false], [true, false]] ∧
      Between (fun s => s.lt (.ofNat 80) = true) ups
        ((scoreReaches (.ofNat 80)).firingsBy (.fresh .null .null) upsTold)) ∧
    (stageChanged "won").firingsBy
      (.fresh .null .null) movesTold = [[true, false], [false], [true]] ∧
      Between (fun w => w ≠ .text "won") moves
        ((stageChanged "won").firingsBy (.fresh .null .null) movesTold) := by
  have finite : ∀ s ∈ ups, s.isFinite = true := by decide +kernel
  have plain : ∀ w ∈ moves, w.isPlain = true := by decide
  have told : Told ((steps ups).map fun s => .scoreChanged s.1 s.2) upsTold := by
    simp [Told, ups, upsTold, steps, telling]
  have told' : Told ((steps moves).map fun w => .stageChanged w.1 w.2) movesTold := by
    simp [Told, moves, movesTold, steps, telling]
  obtain ⟨onScores, -⟩ := crossings_fire_once .null .null upsTold
  obtain ⟨-, onStages⟩ := crossings_fire_once .null .null movesTold
  obtain ⟨fired, between⟩ := onScores (.ofNat 80) ups finite told
  obtain ⟨fired', between'⟩ := onStages "won" moves plain told'
  exact ⟨⟨fired.trans (by decide +kernel), between⟩, fired'.trans (by decide +kernel), between'⟩

end Trigger
end LeadRules
