import LeadRules.Proofs.ActionResults
import Mathlib.Data.List.DropRight

/-! The request of an action. An action whose target is in the directory makes one request, which
goes to the handler that is there for it and to no other, whatever that answers; one whose target
is not there makes none, and moves no cursor. -/
namespace LeadRules

/-- Whether the target of an action is there: the user, the team with someone to take the
lead, the phone list. -/
def Directory.Resolves (d : Directory) : Action → Prop
  | .assignToUser user => ∃ found, d.users.get? user = some found
  | .assignToTeam team =>
    ∃ found user, d.teams.get? team = some found ∧ found.lead = some user ∧ user ≠ ""
  | .assignRoundRobin team => ∃ found, d.teams.get? team = some found ∧ found.listedMembers ≠ []
  | .addToPhoneList list => ∃ found, d.phoneLists.get? list = some found
  | .addTag _ | .sendWebhook _ | .createTask .. => True

inductive Asks (x : Executor) (now : DateTime) (lead : Lead) : Action → Effect → Prop
  | tag {tag : Text} : Asks x now lead (.addTag tag) (.tagAdd tag)
  | user {user : Text} : Asks x now lead (.assignToUser user) (.reassign user none)
  | team {team user : Text} {found : Team} (known : x.directory.teams.get? team = some found)
      (led : found.lead = some user) :
      Asks x now lead (.assignToTeam team) (.reassign user (some found.id))
  | turn {team : Text} : Asks x now lead (.assignRoundRobin team)
      (.reassign (x.cursors.upcoming x.directory team) (some team))
  | webhook {url : Text} : Asks x now lead (.sendWebhook url) (.webhook url lead.toWire)
  | task {title : Text} {days : Int} {due : DateTime}
      (ends : due.micros = now.micros + days * microsPerDay) :
      Asks x now lead (.createTask title days) (.taskCreate title due)
  | phoneList {list : Text} : Asks x now lead (.addToPhoneList list) (.phoneListAdd list)

namespace Handler

def after (r : Request) (h : Host) (v : Handler) : Handler := (handle r (v, h)).2.1

def Accepts (r : Request) (h : Host) (v : Handler) : Prop := (handle r (v, h)).1 = .ok ()

end Handler

namespace Executor

variable {a : Action} {lead : Lead} {team : Text} {x y z : Executor} {h k m : Host} {r : Request}

def responsible (x : Executor) (r : Request) : Option Handler :=
  if r.kind = .webhookDispatch then x.webhookHandler.or x.handler else x.handler

/-- A request has gone to the handler that is there for it, once, and to no other. -/
structure Routed (r : Request) (h : Host) (x y : Executor) : Prop where
  webhooks : y.webhookHandler =
    if r.kind = .webhookDispatch then x.webhookHandler.map (Handler.after r h) else x.webhookHandler
  common : y.handler =
    if r.kind = .webhookDispatch ∧ x.webhookHandler.isSome = true then x.handler
    else x.handler.map (Handler.after r h)

theorem Emission.routed {answer : Except Fault Unit} (emission : Emission r x h answer y k) :
    Routed r h x y ∧ (answer = .ok () ↔ ∀ v, x.responsible r = some v → v.Accepts r h) := by
  cases emission with
  | posted webhook own handled =>
    refine ⟨⟨?_, ?_⟩, ?_⟩
    · simp [webhook, own, Handler.after, handled]
    · simp [webhook, own]
    · simp [responsible, webhook, own, Handler.Accepts, handled]
  | handed other common handled =>
    by_cases webhook : r.kind = .webhookDispatch
    · refine ⟨⟨?_, ?_⟩, ?_⟩
      · simp [webhook, other webhook]
      · simp [webhook, other webhook, common, Handler.after, handled]
      · simp [responsible, webhook, other webhook, common, Handler.Accepts, handled]
    · refine ⟨⟨?_, ?_⟩, ?_⟩
      · simp [webhook]
      · simp [webhook, common, Handler.after, handled]
      · simp [responsible, webhook, common, Handler.Accepts, handled]
  | dropped other none noted =>
    by_cases webhook : r.kind = .webhookDispatch
    · refine ⟨⟨?_, ?_⟩, ?_⟩
      · simp [webhook, other webhook]
      · simp [webhook, other webhook, none]
      · simp [responsible, webhook, other webhook, none]
    · refine ⟨⟨?_, ?_⟩, ?_⟩
      · simp [webhook]
      · simp [webhook, none]
      · simp [responsible, webhook, none]

/-- A task falls due whole days from now. -/
theorem micros_dueAt {now due : DateTime} {days : Int} (told : dueAt now days = .ok due) :
    due.micros = now.micros + days * microsPerDay := by
  unfold dueAt at told
  split at told
  next => cases told
  split at told
  next => cases told
  split at told
  next time moved =>
    cases told
    unfold DateTime.addMicros? DateTime.ofMicros? at moved
    split at moved
    next range =>
      cases moved
      exact Int.toNat_of_nonneg range.1
    next => cases moved
  next => cases told

inductive Found (a : Action) (lead : Lead) (x : Executor) (h : Host) :
    Except ActionFailure Effect → Executor → Host → Prop
  | missing {failure : ActionFailure} (unknown : ¬x.directory.Resolves a) :
      Found a lead x h (.error failure) x h
  | asked {effect : Effect} {m : Host} (known : x.directory.Resolves a)
      (asks : Asks x h.now lead a effect) (saved : h.After (x.saves a) m) :
      Found a lead x h (.ok effect) { x with cursors := x.cursorsAfter a } m

theorem toUser_found {user : Text} :
    Found (.assignToUser user) lead x h (toUser x.directory user) x h := by
  unfold toUser OrderedMap.contains
  cases known : x.directory.users.get? user with
  | none =>
    refine .missing ?_
    rintro ⟨found, known'⟩
    cases known.symm.trans known'
  | some found => exact .asked ⟨found, known⟩ .user (.relogged (.refl h))

theorem toPhoneList_found {list : Text} :
    Found (.addToPhoneList list) lead x h (toPhoneList x.directory list) x h := by
  unfold toPhoneList OrderedMap.contains
  cases known : x.directory.phoneLists.get? list with
  | none =>
    refine .missing ?_
    rintro ⟨found, known'⟩
    cases known.symm.trans known'
  | some found => exact .asked ⟨found, known⟩ .phoneList (.relogged (.refl h))

/-- A team that is not there, or that nobody leads, is no target, and a lead without a name is
none. -/
theorem toTeamLead_found :
    Found (.assignToTeam team) lead x h (toTeamLead x.directory team) x h := by
  unfold toTeamLead
  cases known : x.directory.teams.get? team with
  | none =>
    refine .missing ?_
    rintro ⟨found, user, known', -⟩
    cases known.symm.trans known'
  | some found =>
    dsimp only
    cases led : found.lead with
    | none =>
      refine .missing ?_
      rintro ⟨found', user, known', led', -⟩
      cases known.symm.trans known'
      cases led.symm.trans led'
    | some user =>
      dsimp only
      split
      next unnamed =>
        refine .missing ?_
        rintro ⟨found', user', known', led', named⟩
        cases known.symm.trans known'
        cases led.symm.trans led'
        exact named unnamed
      next named => exact .asked ⟨found, user, known, led, named⟩ (.team known led) (.relogged (.refl h))

theorem members_ne_nil_iff {d : Directory} : d.members team ≠ [] ↔ d.Resolves (.assignRoundRobin team) := by
  unfold Directory.members Directory.Resolves
  cases known : d.teams.get? team with
  | none =>
    refine iff_of_false (fun some => some rfl) ?_
    rintro ⟨found, known', -⟩
    cases known.symm.trans known'
  | some found =>
    have first : found.members ≠ [] ↔ found.listedMembers ≠ [] := by
      unfold Team.members
      cases found.listedMembers with
      | nil => simp
      | cons user rest => simp [List.eraseDups_cons]
    refine first.trans ⟨fun some => ⟨found, known, some⟩, ?_⟩
    rintro ⟨found', known', some⟩
    cases known.symm.trans known'
    exact some

theorem nextOfTeam_found {found : Except ActionFailure Effect}
    (asked : nextOfTeam team (x, h) = (.ok found, (y, m))) :
    Found (.assignRoundRobin team) lead x h found y m := by
  by_cases filled : x.directory.members team = []
  · obtain ⟨failure, run⟩ := nextOfTeam_empty filled
    cases (run x rfl h).symm.trans asked
    exact .missing fun known => members_ne_nil_iff.2 known filled
  · rcases saved : StateFile.save x.cursors.path (x.cursors.advance x.directory team).toWire
      h with ⟨fault | _, k⟩
    · cases (nextOfTeam_refused filled saved).symm.trans asked
    · obtain ⟨l, noted, run⟩ := nextOfTeam_run filled saved
      cases run.symm.trans asked
      have turn : rotated x.directory (.assignRoundRobin team) = some team := if_neg filled
      have cursors : x.cursorsAfter (.assignRoundRobin team) =
          x.cursors.advance x.directory team := by rw [cursorsAfter, turn]
      have after : h.After (x.saves (.assignRoundRobin team)) m := by
        rw [saves, turn]
        exact .save saved noted
      rw [← cursors]
      exact .asked (members_ne_nil_iff.1 filled) .turn after

theorem resolve_found {found : Except ActionFailure Effect}
    (asked : resolve lead a (x, h) = (.ok found, (y, m))) :
    Found a lead x h found y m := by
  cases a with
  | addTag tag =>
    cases asked
    exact .asked trivial .tag (.relogged (.refl h))
  | assignToUser user =>
    have run : resolve lead (.assignToUser user) (x, h) = (.ok (toUser x.directory user), (x, h)) :=
      rfl
    cases run.symm.trans asked
    exact toUser_found
  | assignToTeam team =>
    have run : resolve lead (.assignToTeam team) (x, h) =
        (.ok (toTeamLead x.directory team), (x, h)) := rfl
    cases run.symm.trans asked
    exact toTeamLead_found
  | assignRoundRobin team => exact nextOfTeam_found asked
  | sendWebhook url =>
    cases asked
    exact .asked trivial .webhook (.relogged (.refl h))
  | createTask title days =>
    have run : resolve lead (.createTask title days) (x, h) =
        ((dueAt h.now days).map fun due => .ok (.taskCreate title due), (x, h)) := by
      simp only [resolve, Op.run_bind, Op.run_get, Op.run_ofExcept]
      cases dueAt h.now days <;> rfl
    rw [run] at asked
    cases told : dueAt h.now days with
    | error fault =>
      rw [told] at asked
      cases asked
    | ok due =>
      rw [told] at asked
      cases asked
      exact .asked trivial (.task (micros_dueAt told)) (.relogged (.refl h))
  | addToPhoneList list =>
    have run : resolve lead (.addToPhoneList list) (x, h) =
        (.ok (toPhoneList x.directory list), (x, h)) := rfl
    cases run.symm.trans asked
    exact toPhoneList_found

structure Served (a : Action) (lead : Lead) (x : Executor) (h : Host) (effect : Effect) (m : Host)
    (z : Executor) : Prop where
  asks : Asks x h.now lead a effect
  saved : h.After (x.saves a) m
  routed : Routed ⟨lead.id, h.now, effect⟩ m x z
  cursors : z.cursors = x.cursorsAfter a
  directory : z.directory = x.directory
  history : z.history = x.history ∧ z.historySize = x.historySize

theorem Found.served {effect : Effect} {answer : Except Fault Unit} {x' : Executor}
    (found : Found a lead x h (.ok effect) x' m)
    (emitted : Emission ⟨lead.id, h.now, effect⟩ x' m answer z k) :
    x.directory.Resolves a ∧ Served a lead x h effect m z ∧
      (answer = .ok () ↔ ∀ v, x.responsible ⟨lead.id, h.now, effect⟩ = some v →
        v.Accepts ⟨lead.id, h.now, effect⟩ m) := by
  cases found with
  | asked known asks saved =>
    obtain ⟨⟨webhooks, common⟩, accepted⟩ := emitted.routed
    obtain ⟨handed, -⟩ := emitted.frame
    rw [handed]
    exact ⟨known, ⟨asks, saved, ⟨webhooks, common⟩, rfl, rfl, rfl, rfl⟩, accepted⟩

theorem history_remember {z : Executor}
    (same : z.history = x.history ∧ z.historySize = x.historySize) (result : ActionResult) :
    (z.remember result).history = (x.history ++ [result]).rtake x.historySize := by
  rw [← same.1, ← same.2]
  rfl

/-- Where executing an action returns, its target decides: if it is not there, no handler and no
cursor knows of it; if it is, one request, for the lead and of that time, is handed to the handler
that is there for it, once, and to no other, and the cursor has moved whatever the handler
answers. One result is remembered. -/
theorem execute_hands_on {rule : Value} {result : ActionResult}
    (run : execute a lead rule (x, h) = (.ok result, (y, k))) :
    (result.action = a.kind ∧ result.lead = lead.id ∧ result.rule = rule) ∧
    (y.history = (x.history ++ [result]).rtake x.historySize ∧ y.directory = x.directory) ∧
    (¬x.directory.Resolves a → result.ok = false ∧ result.outcome.request? = none ∧
      y.cursors = x.cursors ∧ y.handler = x.handler ∧ y.webhookHandler = x.webhookHandler) ∧
    (x.directory.Resolves a → ∃ effect m, Asks x h.now lead a effect ∧ h.After (x.saves a) m ∧
      result.outcome.request? = some ⟨lead.id, h.now, effect⟩ ∧
      (result.ok = true ↔ ∀ v, x.responsible ⟨lead.id, h.now, effect⟩ = some v →
        v.Accepts ⟨lead.id, h.now, effect⟩ m) ∧
      Routed ⟨lead.id, h.now, effect⟩ m x y ∧ y.cursors = x.cursorsAfter a) := by
  obtain ⟨outcome, z, l, performed, performance⟩ := perform_run a lead x h
  rw [execute_run, performed] at run
  cases performance with
  | faulty asked => cases run
  | unresolved asked noted =>
    cases run
    cases resolve_found asked with
    | missing unknown =>
      exact ⟨⟨rfl, rfl, rfl⟩, ⟨rfl, rfl⟩, fun _ => ⟨rfl, rfl, rfl, rfl, rfl⟩,
        fun known => absurd known unknown⟩
  | done asked emitted =>
    cases run
    obtain ⟨known, served, accepted⟩ := (resolve_found asked).served emitted
    refine ⟨⟨rfl, rfl, rfl⟩, ⟨history_remember served.history _, served.directory⟩,
      fun unknown => absurd known unknown, fun _ => ?_⟩
    exact ⟨_, _, served.asks, served.saved, rfl, iff_of_true rfl (accepted.1 rfl),
      ⟨served.routed.webhooks, served.routed.common⟩, served.cursors⟩
  | refused asked emitted noted =>
    cases run
    obtain ⟨known, served, accepted⟩ := (resolve_found asked).served emitted
    refine ⟨⟨rfl, rfl, rfl⟩, ⟨history_remember served.history _, served.directory⟩,
      fun unknown => absurd known unknown, fun _ => ?_⟩
    exact ⟨_, _, served.asks, served.saved, rfl, iff_of_false nofun (mt accepted.2 nofun),
      ⟨served.routed.webhooks, served.routed.common⟩, served.cursors⟩

def staffed : Executor := { crew with
  handler := some (.recorder { refusal := fun _ => some (.noMember "Queue" "put") })
  webhookHandler := some (.recorder {}) }

theorem exists_result {rule : Value} (ok : (execute a lead rule (x, h)).1.isOk = true) :
    ∃ result y k, execute a lead rule (x, h) = (.ok result, (y, k)) := by
  rcases run : execute a lead rule (x, h) with ⟨fault | result, y, k⟩
  · rw [run] at ok
    cases ok
  · exact ⟨result, y, k, rfl⟩

/-- A turn is refused, but the cursor has moved and the request is told; there is no phone list to
add to, so that nothing is asked for. -/
theorem execute_hands_on_staffed :
    (∃ result y k, execute (.assignRoundRobin "crew") { id := "L1" } .null (staffed, .still) =
      (.ok result, (y, k)) ∧
      result.ok = false ∧
      result.outcome.request? = some ⟨"L1", .first, .reassign "ann" (some "crew")⟩ ∧
      y.cursors.index "crew" = 0 ∧ y.webhookHandler = staffed.webhookHandler) ∧
    ∃ result y k, execute (.addToPhoneList "gone") { id := "L1" } .null (staffed, .still) =
      (.ok result, (y, k)) ∧
      result.ok = false ∧ result.outcome.request? = none ∧ y.cursors = staffed.cursors := by
  constructor
  · obtain ⟨result, y, k, run⟩ : ∃ result y k,
        execute (.assignRoundRobin "crew") { id := "L1" } .null (staffed, .still) = _ :=
      exists_result (by decide +kernel)
    obtain ⟨-, -, -, resolved⟩ := execute_hands_on run
    have known : staffed.directory.Resolves (.assignRoundRobin "crew") :=
      ⟨_, rfl, List.cons_ne_nil _ _⟩
    obtain ⟨effect, m, asks, -, request, accepted, routed, cursors⟩ := resolved known
    cases asks
    have refuses : ∀ r, ¬Handler.Accepts r m
        (.recorder { refusal := fun _ => some (.noMember "Queue" "put") }) := fun r => nofun
    have failed : result.ok = false := Bool.eq_false_iff.2 fun ok => refuses _ (accepted.1 ok _ rfl)
    have moved : y.cursors.index "crew" = 0 := by
      rw [cursors]
      decide +kernel
    exact ⟨result, y, k, run, failed, request, moved, routed.webhooks⟩
  · obtain ⟨result, y, k, run⟩ :
        ∃ result y k, execute (.addToPhoneList "gone") { id := "L1" } .null (staffed, .still) = _ :=
      exists_result (by decide +kernel)
    obtain ⟨-, -, missing, -⟩ := execute_hands_on run
    have unknown : ¬staffed.directory.Resolves (.addToPhoneList "gone") := by
      rintro ⟨found, known⟩
      cases known
    obtain ⟨failed, nothing, cursors, -⟩ := missing unknown
    exact ⟨result, y, k, run, failed, nothing, cursors⟩

end Executor
end LeadRules
