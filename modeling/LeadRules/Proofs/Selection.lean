import LeadRules.Proofs.Calls
import LeadRules.Proofs.Saving

/-! Which rules an event concerns, and in which order they take their turns. Times of creation
with a zone and without one cannot be ordered; where both occur no rule gets its turn at all. -/
namespace LeadRules

namespace Repository

variable {s : Repository} {kind : TriggerKind} {rules : List Rule}

def due (s : Repository) (kind : TriggerKind) : List Rule :=
  s.rules.values.filter fun r => r.enabled && r.trigger.kind = kind

/-- Whether the enabled rules can be ordered by their times of creation. -/
def Orderable (s : Repository) : Prop := comparable (s.rules.values.filter Rule.enabled) = true

instance (s : Repository) : Decidable s.Orderable := inferInstanceAs (Decidable (_ = true))

/-- Rules by time of creation, those of one instant as they are stored. -/
structure InTurn (stored rules : List Rule) : Prop where
  all : rules.Perm stored
  sorted : rules.Pairwise fun a b => a.createdAt.instant ≤ b.createdAt.instant
  ties : ∀ t, rules.filter (·.createdAt.instant = t) = stored.filter (·.createdAt.instant = t)

theorem inTurn_mergeSort (stored : List Rule) :
    InTurn stored (stored.mergeSort fun a b => a.createdAt.instant ≤ b.createdAt.instant) := by
  have trans (a b c : Rule) : decide (a.createdAt.instant ≤ b.createdAt.instant) = true →
      decide (b.createdAt.instant ≤ c.createdAt.instant) = true →
      decide (a.createdAt.instant ≤ c.createdAt.instant) = true := by
    simp only [decide_eq_true_eq]
    exact Int.le_trans
  have total (a b : Rule) : (decide (a.createdAt.instant ≤ b.createdAt.instant) ||
      decide (b.createdAt.instant ≤ a.createdAt.instant)) = true := by
    simpa using Int.le_total ..
  have perm := List.mergeSort_perm stored fun a b => a.createdAt.instant ≤ b.createdAt.instant
  refine ⟨perm, (List.pairwise_mergeSort trans total stored).imp fun h => by simpa using h, fun t => ?_⟩
  -- The rules of one instant are sorted as they stand, so sorting keeps their order.
  have level : (stored.filter (·.createdAt.instant = t)).Pairwise fun a b =>
      decide (a.createdAt.instant ≤ b.createdAt.instant) = true := by
    refine List.pairwise_iff_forall_sublist.2 fun {a b} two => ?_
    have first := (List.mem_filter.1 (two.subset (List.mem_cons_self ..))).2
    have second :=
      (List.mem_filter.1 (two.subset (List.mem_cons_of_mem _ (List.mem_singleton_self b)))).2
    simp only [decide_eq_true_eq] at first second ⊢
    omega
  have within := (List.sublist_mergeSort trans total level List.filter_sublist).filter
    (·.createdAt.instant = t)
  rw [List.filter_filter] at within
  simp only [Bool.and_self] at within
  exact (within.eq_of_length (perm.filter _).length_eq.symm).symm

theorem InTurn.filter {stored rules : List Rule} (turn : InTurn stored rules) (keep : Rule → Bool) :
    InTurn (stored.filter keep) (rules.filter keep) where
  all := turn.all.filter keep
  sorted := turn.sorted.filter keep
  ties t := by rw [List.filter_comm, turn.ties t, List.filter_comm]

theorem rulesFor_orderable (orderable : s.Orderable) (kind : TriggerKind) :
    ∃ rules, s.rulesFor kind = .ok rules ∧ InTurn (s.due kind) rules := by
  have sorted := inTurn_mergeSort (s.rules.values.filter Rule.enabled)
  have listed : s.list true = .ok ((s.rules.values.filter Rule.enabled).mergeSort
      fun a b => a.createdAt.instant ≤ b.createdAt.instant) := if_pos orderable
  refine ⟨_, by rw [rulesFor, listed]; rfl, ?_⟩
  have due : s.due kind = (s.rules.values.filter Rule.enabled).filter (·.trigger.kind = kind) := by
    rw [due, List.filter_filter]
    simp only [Bool.and_comm]
  rw [due]
  exact sorted.filter _

/-- Rules that stand in order are taken as they are stored. -/
theorem rulesFor_sorted (orderable : s.Orderable)
    (sorted : (s.rules.values.filter Rule.enabled).Pairwise
      fun a b => a.createdAt.instant ≤ b.createdAt.instant)
    (kind : TriggerKind) : s.rulesFor kind = .ok (s.due kind) := by
  have listed : s.list true = .ok ((s.rules.values.filter Rule.enabled).mergeSort
      fun a b => a.createdAt.instant ≤ b.createdAt.instant) := if_pos orderable
  rw [List.mergeSort_of_pairwise (sorted.imp fun h => by simpa using h)] at listed
  have due : s.due kind = (s.rules.values.filter Rule.enabled).filter (·.trigger.kind = kind) := by
    rw [due, List.filter_filter]
    simp only [Bool.and_comm]
  rw [rulesFor, listed, due]
  rfl

theorem rulesFor_unorderable (unorderable : ¬ s.Orderable) (kind : TriggerKind) :
    s.rulesFor kind = .error (.misuse .mixedZones) := by
  have listed : s.list true = .error (.misuse .mixedZones) := if_neg unorderable
  rw [rulesFor, listed]
  rfl

theorem Keyed.nodup_due (keyed : s.Keyed) (kind : TriggerKind) : ((s.due kind).map (·.id)).Nodup :=
  keyed.nodup.sublist (List.filter_sublist.map _)

theorem Keyed.nodup_rulesFor (keyed : s.Keyed) (chosen : s.rulesFor kind = .ok rules) :
    (rules.map (·.id)).Nodup := by
  by_cases orderable : s.Orderable
  · obtain ⟨found, listed, turn⟩ := rulesFor_orderable orderable kind
    obtain rfl : found = rules := by rw [listed] at chosen; exact Except.ok.inj chosen
    exact (turn.all.map _).nodup_iff.2 (keyed.nodup_due kind)
  · rw [rulesFor_unorderable orderable] at chosen
    cases chosen

end Repository

namespace Engine

variable {e : Event} {g : Engine} {h : Host}

/-- An answer with one outcome for each rule that an event concerns, in the order of their turns. -/
structure Complete (g : Engine) (e : Event) (o : EventOutcome) : Prop where
  event : o.event = e.id ∧ o.lead = e.lead.id ∧ o.kind = e.kind
  turns : ∃ rules, Repository.InTurn (g.rules.due e.kind.trigger) rules ∧
    o.rules.map (fun x => (x.rule, x.name)) = rules.map fun r => (r.id, r.name)
  once : (o.rules.map (·.rule)).Nodup

theorem complete_of_turns {rules : List Rule} {outcomes : List RuleOutcome} {g' : Engine} {k : Host}
    (keyed : g.rules.Keyed) (chosen : g.rules.rulesFor e.kind.trigger = .ok rules)
    (turn : Repository.InTurn (g.rules.due e.kind.trigger) rules)
    (turns : Turns e rules g h outcomes g' k) :
    Complete g e ⟨e.id, e.lead.id, e.kind, outcomes⟩ := by
  refine ⟨⟨rfl, rfl, rfl⟩, ⟨rules, turn, turns.named⟩, ?_⟩
  have ids := congrArg (List.map Prod.fst) turns.named
  simp only [List.map_map, Function.comp_def] at ids
  rw [ids]
  exact keyed.nodup_rulesFor chosen

/-- Every rule that an event concerns gets its turn, whatever happens in the others, as long as the
enabled rules can be ordered; else none does, and the event is not answered. -/
theorem onEvent_turns (reached : Reached g) (e : Event) (h : Host) :
    ∃ x g' k, onEvent e (g, h) = (x, (g', k)) ∧
      if g.rules.Orderable then (∀ o, x = .ok o → Complete g e o) ∧ (g.Savable → ∃ o, x = .ok o)
      else x = .error (.misuse .mixedZones) ∧ g' = g ∧ k = h := by
  obtain ⟨x, g', k, run, delivery⟩ := onEvent_delivery e g h
  refine ⟨x, g', k, run, ?_⟩
  split
  next orderable =>
    obtain ⟨rules, listed, turn⟩ := Repository.rulesFor_orderable orderable e.kind.trigger
    cases delivery with
    | unordered chosen => rw [listed] at chosen; cases chosen
    | idle chosen noted =>
      cases Except.ok.inj (listed.symm.trans chosen)
      refine ⟨?_, fun _ => ⟨_, rfl⟩⟩
      rintro o ⟨⟩
      exact complete_of_turns reached.keyed listed turn (.nil (h := h))
    | unsaved chosen some turns flushed =>
      refine ⟨fun o answer => (by cases answer), fun savable => ?_⟩
      have places := turns.places
      obtain ⟨g₂, h₂, returned⟩ := flush_returns
        ⟨places.1 ▸ savable.edges, places.2 ▸ savable.ledger⟩ _
      rw [returned] at flushed
      cases flushed
    | taken chosen some turns flushed noted =>
      cases Except.ok.inj (listed.symm.trans chosen)
      refine ⟨?_, fun _ => ⟨_, rfl⟩⟩
      rintro o ⟨⟩
      exact complete_of_turns reached.keyed listed turn turns
  next unorderable =>
    have refused := Repository.rulesFor_unorderable unorderable e.kind.trigger
    cases delivery with
    | unordered chosen =>
      cases Except.error.inj (chosen.symm.trans refused)
      exact ⟨rfl, rfl, rfl⟩
    | idle chosen => rw [refused] at chosen; cases chosen
    | unsaved chosen => rw [refused] at chosen; cases chosen
    | taken chosen => rw [refused] at chosen; cases chosen

def greeting (id createdAt : Text) : Value := .record [
  ("id", .text id),
  ("name", .text "greet"),
  ("trigger", .record [("type", .text "NEW_LEAD")]),
  ("action", .record [("type", .text "ADD_TAG"), ("tag", .text "new")]),
  ("createdAt", .text createdAt)]

/-- Two imports, one of a time without a zone and one of a time with it. The second fails when the
rules are written, and its rule stays. -/
def mixedZones : Engine :=
  after (.importRule (greeting "zoned" "2024-01-02T00:00:00+00:00"))
    (after (.importRule (greeting "plain" "2024-01-01T00:00:00")) blank .still) .still

def arrival : Event :=
  { id := "e1", lead := { id := "L1" }, occurredAt := .first, occurrence := .leadCreated }

theorem onEvent_turns_mixedZones : Reached mixedZones ∧ (mixedZones.rules.due .newLead).length = 2 ∧
    onEvent arrival (mixedZones, .still) =
      (.error (.misuse .mixedZones), (mixedZones, .still)) := by
  have reached : Reached mixedZones := .after (.after (.opened [] rfl) _ _) _ _
  obtain ⟨x, g', k, run, turns⟩ := onEvent_turns reached arrival .still
  rw [if_neg (by decide +kernel)] at turns
  obtain ⟨rfl, rfl, rfl⟩ := turns
  exact ⟨reached, by decide +kernel, run⟩

end Engine
end LeadRules
