import LeadRules.Proofs.Calls
import LeadRules.Proofs.Records
import Mathlib.Data.List.DropRight

/-! The window of the ledger. Of all deliveries that were recorded it knows the latest ones, as
many as its bound; as long as a delivery is among them its action does not run again. -/
namespace LeadRules

namespace Window

variable {κ : Type} {size : Nat} {start trace w a b c : List κ} {k : κ}

def after (size : Nat) (start trace : List κ) : List κ :=
  trace.foldl (fun w k => (w ++ [k]).rtake size) start

/-- Keys each of which comes in while it is not in the window. -/
def Fresh (size : Nat) : List κ → List κ → Prop
  | _, [] => True
  | w, k :: rest => k ∉ w ∧ Fresh size ((w ++ [k]).rtake size) rest

theorem rtake_suffix (l : List κ) (n : Nat) : l.rtake n <:+ l := List.drop_suffix _ l

theorem rtake_rtake_append (l : List κ) (k : κ)
    (n : Nat) : (l.rtake n ++ [k]).rtake n = (l ++ [k]).rtake n := by
  cases n with
  | zero => simp
  | succ n =>
    rw [List.rtake_concat_succ, List.rtake_concat_succ]
    have shorter : (l.rtake (n + 1)).rtake n = l.rtake n := by
      simp only [List.rtake, List.length_drop, List.drop_drop]
      congr 1
      omega
    rw [shorter]

theorem rtake_append_of_le {l m : List κ} {n : Nat} (enough : n ≤ m.length) :
    (l ++ m).rtake n = m.rtake n := by
  simp only [List.rtake, List.length_append, List.drop_append]
  rw [List.drop_eq_nil_of_le (by omega), List.nil_append]
  congr 1
  omega

theorem mem_rtake_append {l : List κ} {n : Nat} (few : b.length < n) :
    k ∈ (l ++ k :: b).rtake n := by
  have within : (k :: b) <:+ (l ++ k :: b).rtake n := by
    refine List.suffix_of_suffix_length_le (List.suffix_append l _) (rtake_suffix _ n) ?_
    simp only [List.rtake, List.length_drop, List.length_append, List.length_cons]
    omega
  exact within.subset List.mem_cons_self

theorem after_concat (size : Nat) (start trace : List κ) (k : κ) :
    after size start (trace ++ [k]) = (after size start trace ++ [k]).rtake size := by
  rw [after, List.foldl_append]
  rfl

/-- Once a key has come in, the window is the end of all there were. -/
theorem after_eq (size : Nat) (start : List κ) (some : trace ≠ []) :
    after size start trace = (start ++ trace).rtake size := by
  induction trace using List.reverseRecOn with
  | nil => exact absurd rfl some
  | append_singleton trace k ih =>
    rw [after_concat, ← List.append_assoc]
    by_cases none : trace = []
    · simp [none, after]
    · rw [ih none, rtake_rtake_append]

theorem fresh_append {more : List κ} :
    Fresh size w (trace ++ more) ↔ Fresh size w trace ∧ Fresh size (after size w trace) more := by
  induction trace generalizing w with
  | nil => simp [Fresh, after]
  | cons k rest ih => simp [Fresh, after, ih, and_assoc]

theorem nodup_after (distinct : start.Nodup) (fresh : Fresh size start trace) :
    (after size start trace).Nodup := by
  induction trace generalizing start with
  | nil => exact distinct
  | cons k rest ih =>
    refine ih ?_ fresh.2
    have grown : (start ++ [k]).Nodup :=
      List.nodup_append.2 ⟨distinct, List.nodup_singleton k, fun x there y here same => by
        rw [List.mem_singleton.1 here] at same
        exact fresh.1 (same ▸ there)⟩
    exact grown.sublist (rtake_suffix _ _).sublist

/-- A key stays in the window until as many others have come in as the window holds. -/
theorem mem_after (seen : start ++ trace = a ++ k :: b) (few : b.length < size) :
    k ∈ after size start trace := by
  by_cases none : trace = []
  · subst none
    rw [List.append_nil] at seen
    simp [after, seen]
  · rw [after_eq size start none, seen]
    exact mem_rtake_append few

/-- Between two times that a key comes in there are as many other keys, all distinct, as the
window holds. -/
theorem between (distinct : start.Nodup) (fresh : Fresh size start trace)
    (twice : start ++ trace = a ++ k :: b ++ k :: c) :
    ∃ others, others <:+ b ∧ others.length = size ∧ others.Nodup ∧ k ∉ others := by
  obtain ⟨before, first, rfl⟩ : ∃ before, start ++ before = a ++ k :: b ∧
      trace = before ++ k :: c := by
    rcases List.append_eq_append_iff.1 twice with ⟨before, first, rest⟩ | ⟨between, first, rest⟩
    · exact ⟨before, first.symm, rest⟩
    · cases between with
      | nil => exact ⟨[], by simpa using first, by simpa using rest.symm⟩
      | cons k' between =>
        -- Both times would be in the window that was there at the start.
        obtain ⟨rfl, -⟩ := List.cons_eq_cons.1 rest
        exact absurd distinct (by simp [first, List.nodup_append])
  obtain ⟨fresh, new, -⟩ := fresh_append.1 fresh
  have enough : size ≤ b.length := Nat.le_of_not_lt fun few => new (mem_after first few)
  have some : before ≠ [] := by
    rintro rfl
    rw [List.append_nil] at first
    exact new (by simp [after, first])
  have window : after size start before = b.rtake size := by
    rw [after_eq size start some, first, List.append_cons, rtake_append_of_le enough]
  refine ⟨b.rtake size, rtake_suffix b size, ?_, window ▸ nodup_after distinct fresh, window ▸ new⟩
  simp only [List.rtake, List.length_drop]
  omega

end Window

namespace Engine

variable {e : Event} {r : Rule} {g₀ g g' : Engine} {h k : Host} {result : RuleResult}
  {rules : List Rule} {outcomes : List RuleOutcome} {trace : List (Key × Key × Key)} {size : Nat}

/-- The deliveries that the outcomes of an event put on record: those whose action was carried out,
with success or without. -/
def recordings (e : Event) (outcomes : List RuleOutcome) : List (Key × Key × Key) :=
  outcomes.filterMap fun o =>
    if o.result.actionResult?.isSome then some
      (LedgerKey.ofTexts e.lead.id o.rule e.id).identity else none

def recordedBy (c : Call) (g : Engine) (h : Host) : List (Key × Key × Key) :=
  match c with
  | .event e =>
    match g.rules.rulesFor e.kind.trigger with
    | .ok rules => recordings e ((outcomesOf e rules (g, h)).1.toOption.getD [])
    | .error _ => []
  | _ => []

inductive Course (g₀ : Engine) : List (Key × Key × Key) → Engine → Prop
  | start : Course g₀ [] g₀
  | called {trace : List (Key × Key × Key)} {g : Engine} (course : Course g₀ trace g)
      (c : Call) (h : Host) :
      Course g₀ (trace ++ recordedBy c g h) (after c g h)

/-- Where a course may stand: between two calls, or between two turns of an event. -/
inductive Stand (g₀ : Engine) : List (Key × Key × Key) → Engine → Prop
  | calls {trace : List (Key × Key × Key)} {g : Engine} (course : Course g₀ trace g) :
      Stand g₀ trace g
  | turns {trace : List (Key × Key × Key)} {g g' : Engine} {h k : Host} {e : Event}
      {rules rest : List Rule}
      {outcomes : List RuleOutcome} (course : Course g₀ trace g)
      (chosen : g.rules.rulesFor e.kind.trigger = .ok (rules ++ rest))
      (taken : outcomesOf e rules (g, h) = (.ok outcomes, (g', k))) :
      Stand g₀ (trace ++ recordings e outcomes) g'

/-- The ledger is the window of what was put on record, and nothing in the window was recorded
again. -/
structure Tracked (size : Nat) (g₀ : Engine) (trace : List (Key × Key × Key))
    (g : Engine) : Prop where
  bound : g.ledger.maxEntries = size
  keys : g.ledger.keys = Window.after size g₀.ledger.keys trace
  fresh : Window.Fresh size g₀.ledger.keys trace

theorem recordings_cons (e : Event) (o : RuleOutcome) (rest : List RuleOutcome) :
    recordings e (o :: rest) = recordings e [o] ++ recordings e rest := by
  simp only [recordings, List.filterMap_cons, List.filterMap_nil]
  split <;> rfl

theorem Tracked.same_ledger (tracked : Tracked size g₀ trace g) (same : g'.ledger = g.ledger) :
    Tracked size g₀ trace g' :=
  ⟨same ▸ tracked.bound, same ▸ tracked.keys, tracked.fresh⟩

theorem Tracked.turn (tracked : Tracked size g₀ trace g) (turn : Turn e r g h result g' k) :
    Tracked size g₀ (trace ++ recordings e [⟨r.id, r.name, result⟩]) g' := by
  cases turn with
  | unrecorded cleared new before executed full noted =>
    rw [tracked.bound] at full
    omega
  | acted cleared new before executed room noted =>
    rename_i h₁ h₂ x result
    have recorded :
      recordings e [⟨r.id, r.name, if result.ok then .executed result else .actionFailed result⟩] =
        [(deliveryKey r e).identity] := by
      cases result.ok <;> rfl
    have absent := (Ledger.isProcessed_false ..).1 new
    rw [tracked.keys] at absent
    rw [recorded]
    refine ⟨tracked.bound, ?_, Window.fresh_append.2 ⟨tracked.fresh, absent, trivial⟩⟩
    have kept : (g.ledger.keys.length + 1 - g.ledger.maxEntries : Int).toNat =
        g.ledger.keys.length + 1 - size := by
      rw [tracked.bound]
      omega
    rw [Window.after_concat, ← tracked.keys]
    show (g.ledger.record (deliveryKey r e) h₂.now).keys = _
    rw [Ledger.keys_record new, kept]
    simp [List.rtake]
  | _ =>
    rw [show recordings e [_] = [] from rfl, List.append_nil]
    exact tracked.same_ledger rfl

theorem Tracked.turns (tracked : Tracked size g₀ trace g)
    (turns : Turns e rules g h outcomes g' k) :
    Tracked size g₀ (trace ++ recordings e outcomes) g' := by
  induction turns generalizing trace with
  | nil => simpa [recordings] using tracked
  | cons run first later ih =>
    rw [recordings_cons, ← List.append_assoc]
    exact ih (tracked.turn first)

theorem Tracked.flushed (tracked : Tracked size g₀ trace g) (flushed : Flushed g g') :
    Tracked size g₀ trace g' where
  bound := flushed.maxEntries.trans tracked.bound
  keys := (congrArg OrderedMap.keys flushed.processed).trans tracked.keys
  fresh := tracked.fresh

theorem Tracked.event (tracked : Tracked size g₀ trace g) (e : Event) (h : Host) :
    Tracked size g₀ (trace ++ recordedBy (.event e) g h) (after (.event e) g h) := by
  obtain ⟨x, g', k, run, delivery⟩ := onEvent_delivery e g h
  rw [after_event, run]
  have recorded {rules : List Rule} {outcomes : List RuleOutcome} {g₁ : Engine} {h₁ : Host}
      (chosen : g.rules.rulesFor e.kind.trigger = .ok rules)
        (turns : Turns e rules g h outcomes g₁ h₁) :
      recordedBy (.event e) g h = recordings e outcomes := by
    simp only [recordedBy, chosen, turns.run]
    rfl
  cases delivery with
  | unordered chosen => simpa [recordedBy, chosen] using tracked
  | idle chosen noted => simpa [recorded chosen .nil, recordings] using tracked
  | unsaved chosen some turns flushed =>
    rw [recorded chosen turns]
    exact (tracked.turns turns).flushed (flushed_of_flush flushed)
  | taken chosen some turns flushed noted =>
    rw [recorded chosen turns]
    exact (tracked.turns turns).flushed (flushed_of_flush flushed)

theorem Course.tracked (course : Course g₀ trace g) (bound : g₀.ledger.maxEntries = size) :
    Tracked size g₀ trace g := by
  induction course with
  | start => exact ⟨bound, rfl, trivial⟩
  | @called _ g course c h tracked =>
    cases edit : c.isEdit with
    | true =>
      have quiet : recordedBy c g h = [] := by cases c <;> first | rfl | cases edit
      rw [quiet, List.append_nil]
      exact tracked.same_ledger (call_aside edit (g, h)).ledger
    | false =>
      cases c with
      | event e => exact tracked.event e h
      | _ => cases edit

theorem Stand.tracked (stand : Stand g₀ trace g) (bound : g₀.ledger.maxEntries = size) :
    Tracked size g₀ trace g := by
  cases stand with
  | calls course => exact course.tracked bound
  | @turns _ g _ h _ e rules _ _ course chosen taken =>
    obtain ⟨outcomes, g', k, run, turns⟩ := outcomesOf_turns e rules g h
    rw [taken] at run
    cases run
    exact (course.tracked bound).turns turns

/-- A rule does not act on a delivery that is on record. -/
theorem Turn.quiet_of_known (turn : Turn e r g h result g' k)
    (known : (deliveryKey r e).identity ∈ g.ledger.keys) :
    result.actionResult? = none ∧ g'.executor = g.executor := by
  have recorded := (Ledger.isProcessed_iff g.ledger (deliveryKey r e)).2 known
  cases turn with
  | broken cleared new => rw [recorded] at new; cases new
  | unrecorded cleared new => rw [recorded] at new; cases new
  | acted cleared new => rw [recorded] at new; cases new
  | _ => exact ⟨rfl, rfl⟩

/-- A delivery is recorded again only after as many others, all distinct, as the ledger holds;
until then its rule does not act on it, wherever the course stands; and the ledger holds just
the latest recordings. -/
theorem recorded_once_in_window (bound : g₀.ledger.maxEntries = size) (stand : Stand g₀ trace g) :
    (∀ a b c key, g₀.ledger.keys ++ trace = a ++ key :: b ++ key :: c →
      ∃ others, others <:+ b ∧ others.length = size ∧ others.Nodup ∧ key ∉ others) ∧
    (∀ a b r e, g₀.ledger.keys ++ trace = a ++ (deliveryKey r e).identity :: b → b.length < size →
      ∀ h, ∃ o g' k, outcomeOf e r (g, h) = (.ok o, (g', k)) ∧ o.result.actionResult? = none ∧
        g'.executor = g.executor) ∧
    (trace ≠ [] → g.ledger.keys = (g₀.ledger.keys ++ trace).rtake size ∧ g.ledger.keys.length ≤ size) := by
  have tracked := stand.tracked bound
  refine ⟨fun a b c key twice => Window.between g₀.ledger.keys_nodup tracked.fresh twice, ?_,
    fun some => ?_⟩
  · intro a b r e seen few h
    obtain ⟨result, g', k, run, turn⟩ := outcomeOf_turn e r g h
    have known := Window.mem_after seen few
    rw [← tracked.keys] at known
    exact ⟨_, g', k, run, turn.quiet_of_known known⟩
  · have latest := tracked.keys.trans (Window.after_eq size g₀.ledger.keys some)
    refine ⟨latest, ?_⟩
    rw [latest, List.rtake, List.length_drop]
    omega

def forgetful : Engine := after (.add tagging) { blank with ledger := { maxEntries := 1 } } .still

theorem recorded_once_in_window_forgetful :
    recordedBy (.event completion) forgetful .still = [(deliveryKey tagging completion).identity] ∧
      ∃ o g' k, outcomeOf completion tagging (after (.event completion) forgetful .still, .still) =
        (.ok o, (g', k)) ∧ o.result.actionResult? = none := by
  have recorded : recordedBy (.event completion) forgetful .still =
      [(deliveryKey tagging completion).identity] := by
    decide +kernel
  have stand : Stand forgetful ([] ++ [(deliveryKey tagging completion).identity])
      (after (.event completion) forgetful .still) := by
    rw [← recorded]
    exact .calls (.called .start (.event completion) .still)
  have bound : forgetful.ledger.maxEntries = (1 : Nat) := by decide +kernel
  obtain ⟨-, once, -⟩ := recorded_once_in_window bound stand
  obtain ⟨o, g', k, run, quiet, -⟩ :=
    once forgetful.ledger.keys [] tagging completion rfl (by decide) .still
  exact ⟨recorded, o, g', k, run, quiet⟩

end Engine
end LeadRules
