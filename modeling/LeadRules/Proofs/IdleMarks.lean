import LeadRules.Proofs.IdlePeriods
import LeadRules.Proofs.Sightings
import Mathlib.Data.List.Destutter

/-! The times since which a lead was idle when a rule on untouched leads fired on it. The rule
keeps the last one and asks only whether a tick has another one, so that it fires again on a time
that it has fired on if one in between was earlier. -/
namespace LeadRules

theorem destutter_concat {α : Type} [DecidableEq α] (l : List α) (b : α) :
    (l ++ [b]).destutter (· ≠ ·) = l.destutter
    (· ≠ ·) ++ if l.getLast? = some b then [] else [b] := by
  cases l with
  | nil => rfl
  | cons a l =>
    rw [List.cons_append, List.destutter_cons', List.destutter_cons']
    induction l generalizing a with
    | nil => by_cases same : a = b <;> simp [same]
    | cons c l ih =>
      by_cases same : a = c
      · subst same
        have stutters : ¬(a ≠ a) := not_not.2 rfl
        rw [List.cons_append, List.destutter'_cons_neg _ stutters,
          List.destutter'_cons_neg _ stutters, ih a, List.getLast?_cons_cons]
      · rw [List.cons_append, List.destutter'_cons_pos _ same, List.destutter'_cons_pos _ same,
          ih c, List.cons_append, List.getLast?_cons_cons]

namespace DateTime

theorem micros_injective : Function.Injective micros := by
  rintro ⟨m, inRange⟩ ⟨n, inRange'⟩ rfl
  rfl

/-- Times that do not repeat in a row increase just when they do not go back to begin with. -/
theorem increasing_destutter (times : List DateTime) :
    (times.destutter (· ≠ ·)).Pairwise (fun x y => x.micros < y.micros) ↔
    times.Pairwise fun x y => x.micros ≤ y.micros := by
  constructor
  · cases times with
    | nil => exact fun _ => .nil
    | cons x times =>
      rw [List.destutter_cons']
      induction times generalizing x with
      | nil => exact fun _ => List.pairwise_singleton ..
      | cons y times ih =>
        by_cases same : x = y
        · subst same
          rw [List.destutter'_cons_neg _ (not_not.2 rfl)]
          intro increasing
          have later := ih x increasing
          exact List.pairwise_cons.2
            ⟨List.forall_mem_cons.2 ⟨Nat.le_refl _, (List.pairwise_cons.1 later).1⟩, later⟩
        · rw [List.destutter'_cons_pos _ same]
          intro increasing
          obtain ⟨first, increasing⟩ := List.pairwise_cons.1 increasing
          have later := ih y increasing
          have below := Nat.le_of_lt (first y (List.mem_destutter' ..))
          refine List.pairwise_cons.2 ⟨List.forall_mem_cons.2 ⟨below, fun z member => ?_⟩, later⟩
          exact Nat.le_trans below ((List.pairwise_cons.1 later).1 z member)
  · intro ordered
    have : IsTrans DateTime fun x y => x.micros < y.micros := ⟨fun _ _ _ => Nat.lt_trans⟩
    have apart := List.isChain_destutter (fun x y : DateTime => x ≠ y) times
    have ordered :=
      (ordered.sublist (List.destutter_sublist (fun x y : DateTime => x ≠ y) times)).isChain
    rw [← List.isChain_iff_pairwise]
    rw [List.isChain_iff_getElem] at apart ordered ⊢
    intro i bound
    exact Nat.lt_of_le_of_ne (ordered i bound) fun same => apart i bound (micros_injective same)

end DateTime

namespace Engine

variable {lead rule : Text} {hours : Binary64} {seen : List (Event × RuleResult)} {g : Engine}

/-- The times since which the lead was idle at the ticks of some events that find it
idle for so many hours. -/
def ripeTimes (hours : Binary64) (seen : List (Event × RuleResult)) : List DateTime :=
  (seen.filter fun x => (tickOf x.1).isRipe hours).filterMap (·.1.lead.idleReference)

def firedTimes (seen : List (Event × RuleResult)) : List DateTime :=
  (seen.filter (·.2 ≠ .notFired)).filterMap (·.1.lead.idleReference)

theorem ripeTimes_concat (seen : List (Event × RuleResult)) (x : Event × RuleResult) :
    ripeTimes hours (seen ++ [x]) =
      ripeTimes hours seen ++ if (tickOf x.1).isRipe hours then
        x.1.lead.idleReference.toList else [] := by
  rw [ripeTimes, List.filter_append, List.filterMap_append]
  cases ripe : (tickOf x.1).isRipe hours with
  | false => simp [ripeTimes, ripe]
  | true => cases idle : x.1.lead.idleReference <;> simp [ripeTimes, ripe, idle]

/-- What the rule has in mind of a lead after some ticks is the last time that was ripe. -/
theorem idleMarker_storedAfter (s : EdgeState) (fresh : s.idleMarker = none)
    (ticks : ∀ x ∈ seen, x.1.occurrence = .idleScanTick) :
    ((Trigger.leadUntouched hours).storedAfter s (seen.map (·.1))).idleMarker =
      (ripeTimes hours seen).getLast? := by
  induction seen using List.reverseRecOn with
  | nil => exact fresh
  | append_singleton seen x ih =>
    have before := ih fun y member => ticks y (List.mem_append_left _ member)
    have tick := ticks x (List.mem_append_right _ (List.mem_singleton_self x))
    rw [List.map_append, Trigger.storedAfter_append, ripeTimes_concat]
    refine (idleMarker_tick tick _).trans ?_
    rw [before]
    cases ripe : (tickOf x.1).isRipe hours with
    | false => simp
    | true =>
      cases idle : x.1.lead.idleReference with
      | none => simp [Tick.isRipe, tickOf, idle] at ripe
      | some reference => simp

theorem occurrence_of_kind {e : Event}
    (kind : (Trigger.leadUntouched hours).kind = e.kind.trigger) :
    e.occurrence = .idleScanTick := by
  cases occurrence : e.occurrence with
  | idleScanTick => rfl
  | _ => simp [Event.kind, occurrence, Occurrence.kind, EventKind.trigger, Trigger.kind] at kind

/-- Of the times at which a rule finds a lead idle long enough it fires on those that are other
ones than the one before. -/
theorem firedTimes_destutter
    (fires : ∀ before e result later, seen = before ++ (e, result) :: later →
      (result ≠ .notFired ↔ (tickOf e).isRipe hours = true ∧
        (ripeTimes hours before).getLast? ≠ e.lead.idleReference)) :
    firedTimes seen = (ripeTimes hours seen).destutter (· ≠ ·) := by
  induction seen using List.reverseRecOn with
  | nil => rfl
  | append_singleton seen x ih =>
    have before :=
      ih fun before e result later split => fires before e result (later ++ [x]) (by simp [split])
    have here := fires seen x.1 x.2 [] rfl
    rw [ripeTimes_concat, firedTimes, List.filter_append, List.filterMap_append, ← firedTimes, before]
    cases ripe : (tickOf x.1).isRipe hours with
    | false =>
      rw [ripe] at here
      simp [here]
    | true =>
      cases idle : x.1.lead.idleReference with
      | none => simp [Tick.isRipe, tickOf, idle] at ripe
      | some reference =>
        rw [ripe, idle] at here
        by_cases same : (ripeTimes hours seen).getLast? = some reference
        · simp [destutter_concat, same, here]
        · simp [destutter_concat, same, here, idle]

/-- A rule on untouched leads fires on the ticks that find the lead idle for long enough, but for
those of the same time as the one before of them. The times it fires on increase as long as those
of such ticks do not go back, and no longer. -/
theorem sighted_ticks_fire (watch : Watch lead rule (.leadUntouched hours) seen g) :
    (∀ before e result later, seen = before ++ (e, result) :: later →
      (result ≠ .notFired ↔ (tickOf e).isRipe hours = true ∧
        (ripeTimes hours before).getLast? ≠ e.lead.idleReference)) ∧
    ((firedTimes seen).Pairwise (fun x y => x.micros < y.micros) ↔
      (ripeTimes hours seen).Pairwise fun x y => x.micros ≤ y.micros) := by
  have tracks := watch.tracks
  have ticks : ∀ x ∈ seen, x.1.occurrence = .idleScanTick :=
    fun x member => occurrence_of_kind (tracks.heard x member).1
  have fires : ∀ before e result later, seen = before ++ (e, result) :: later →
      (result ≠ .notFired ↔ (tickOf e).isRipe hours = true ∧
        (ripeTimes hours before).getLast? ≠ e.lead.idleReference) := by
    intro before e result later split
    have earlier : ∀ x ∈ before, x.1.occurrence = .idleScanTick :=
      fun x member => ticks x (by simp [split, member])
    rw [tracks.fired before e result later split, matchEvent_tick (ticks (e, result) (by simp [split])),
      idleMarker_storedAfter _ rfl earlier]
    by_cases other : (ripeTimes hours before).getLast? = e.lead.idleReference
    · simp [other]
    · cases (tickOf e).isRipe hours <;> simp [other]
  exact ⟨fires, by rw [firedTimes_destutter fires, DateTime.increasing_destutter]⟩

def cold : Rule :=
  { tagging with id := "cold", name := .text "cold", trigger := .leadUntouched (.ofNat 1) }

def touched : DateTime := ⟨3600000000, by decide⟩

def lateTick (id : Text) (lastActivityAt : Option DateTime) : Event := {
  id, lead := { id := "L1", createdAt := some .first, lastActivityAt }
  occurredAt := ⟨86400000000, by decide⟩, occurrence := .idleScanTick }

/-- A lead whose activity is cleared for one tick and then set to what it was: the rule fires on
it three times, in the end on the time that it fired on first. -/
theorem sighted_ticks_fire_cleared : ∃ seen g,
    Watch "L1" "cold" (.leadUntouched (.ofNat 1)) seen g ∧
      seen.map (·.1) =
        [lateTick "e1" (some touched), lateTick "e2" none, lateTick "e3" (some touched)] ∧
      firedTimes seen = [touched, .first, touched] ∧ ¬(firedTimes seen).Pairwise fun x y =>
        x.micros < y.micros := by
  have reached : Reached (after (.add cold) blank .still) := .after (.opened [] rfl) _ _
  obtain ⟨seen, g, watch, told, fired⟩ :
    ∃ seen g, Watch "L1" "cold" (.leadUntouched (.ofNat 1)) seen g ∧
      seen.map (·.1) =
        [lateTick "e1" (some touched), lateTick "e2" none, lateTick "e3" (some touched)] ∧
      firedTimes seen = [touched, .first, touched] := by
    have start : Watch "L1" "cold" (.leadUntouched (.ofNat 1)) [] _ :=
      .start reached (by decide +kernel)
    have first := start.called (.event (lateTick "e1" (some touched))) .still (by decide +kernel)
    have second := first.called (.event (lateTick "e2" none)) .still (by decide +kernel)
    have third := second.called (.event (lateTick "e3" (some touched))) .still (by decide +kernel)
    exact ⟨_, _, third, by decide +kernel, by decide +kernel⟩
  have back : ¬(ripeTimes (.ofNat 1) seen).Pairwise fun x y => x.micros ≤ y.micros := by
    have ripe : ripeTimes (.ofNat 1) seen = [touched, .first, touched] := by
      have same : ripeTimes (.ofNat 1) seen =
          ((seen.map (·.1)).filter fun e => (tickOf e).isRipe (.ofNat 1)).filterMap
            (·.lead.idleReference) := by
        simp only [ripeTimes, List.filter_map, List.filterMap_map]
        rfl
      rw [same, told]
      decide +kernel
    rw [ripe]
    decide +kernel
  exact ⟨seen, g, watch, told, fired, mt (sighted_ticks_fire watch).2.1 back⟩

end Engine
end LeadRules
