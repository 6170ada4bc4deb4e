import LeadRules.Proofs.Audit

/-! The same action in two engines. Where handlers answer by the kind and the lead of a request
alone, it ends in the same way in both, but for the member that a round robin chooses. -/
namespace LeadRules

abbrev Answer := RequestKind → Text → Except Fault Unit

/-- A handler that answers by kind and lead alone, whatever it was handed before and wherever it
runs. -/
def Handler.Regular (answer : Answer) (v : Handler) : Prop :=
  ∃ among, Answers (fun r => answer r.kind r.lead) among ∧ among v

theorem Handler.Regular.handled {answer : Answer} {v w : Handler} {r : Request} {h k : Host}
    {x : Except Fault Unit}
    (regular : v.Regular answer) (handled : handle r (v, h) = (x, (w, k))) :
    x = answer r.kind r.lead ∧ w.Regular answer := by
  obtain ⟨among, answers, member⟩ := regular
  obtain ⟨w', k', run, member, -⟩ := answers.handle v member r h
  cases handled.symm.trans run
  exact ⟨rfl, among, answers, member⟩

/-- A recorder that refuses by kind and lead and never lapses is such a handler. -/
theorem Handler.recorder_regular (refused : RequestKind → Text → Option Fault) :
    Regular (fun kind lead => (refused kind lead).elim (.ok ()) .error)
      (.recorder { refusal := fun r => refused r.kind r.lead }) :=
  ⟨_, recorder_answers fun r => refused r.kind r.lead, [], [], rfl⟩

def Effect.masked : Effect → Effect
  | reassign _ team => reassign "" team
  | e => e

def Request.masked (r : Request) : Request := { r with effect := r.effect.masked }

namespace ActionOutcome

def masked : ActionOutcome → ActionOutcome
  | done r => done r.masked
  | refused r failure => refused r.masked failure
  | unresolved failure => unresolved failure

@[simp] theorem failure?_masked (o : ActionOutcome) : o.masked.failure? = o.failure? := by cases o <;> rfl

end ActionOutcome

namespace ActionResult

/-- A result without the member that a round robin chose. -/
def masked (r : ActionResult) : ActionResult :=
  if r.action = .assignRoundRobin then { r with outcome := r.outcome.masked } else r

@[simp] theorem ok_masked (r : ActionResult) : r.masked.ok = r.ok := by
  unfold masked ok
  split <;> simp

@[simp] theorem reason_masked (r : ActionResult) : r.masked.reason = r.reason := by
  unfold masked reason
  split <;> simp

end ActionResult

namespace RuleResult

def masked : RuleResult → RuleResult
  | executed r => executed r.masked
  | actionFailed r => actionFailed r.masked
  | r => r

@[simp] theorem status_masked (r : RuleResult) : r.masked.status = r.status := by cases r <;> rfl

@[simp] theorem problem_masked (r : RuleResult) : r.masked.problem = r.problem := by
  cases r <;> simp [masked, problem]

@[simp] theorem isSome_actionResult?_masked (r : RuleResult) :
    r.masked.actionResult?.isSome = r.actionResult?.isSome := by cases r <;> rfl

def ofAnswer (bound : Int) : Except Fault ActionResult → RuleResult
  | .error fault => error fault.message
  | .ok result => if bound < 0 then error Fault.nothingToEvict.message else ofAction result

theorem masked_ofAnswer {answer answer' : Except Fault ActionResult}
    (same : answer.map ActionResult.masked = answer'.map ActionResult.masked) (bound : Int) :
    (ofAnswer bound answer).masked = (ofAnswer bound answer').masked := by
  cases answer with
  | error fault =>
    cases answer' with
    | error fault' => rw [Except.error.inj same]
    | ok result' => cases same
  | ok result =>
    cases answer' with
    | error fault' => cases same
    | ok result' =>
      have same : result.masked = result'.masked := Except.ok.inj same
      have ok : result.ok = result'.ok := by
        rw [← ActionResult.ok_masked result, same, ActionResult.ok_masked]
      simp only [ofAnswer, ofAction, ok]
      split
      · rfl
      · split
        · exact congrArg executed same
        · exact congrArg actionFailed same

end RuleResult

structure RuleOutcome.Alike (a b : RuleOutcome) : Prop where
  rule : a.rule = b.rule
  name : a.name = b.name
  status : a.result.status = b.result.status
  problem : a.result.problem = b.result.problem
  result : a.result.masked = b.result.masked

theorem RuleOutcome.alike {rule : Text} {name : Value} {a b : RuleResult}
    (same : a.masked = b.masked) :
    Alike ⟨rule, name, a⟩ ⟨rule, name, b⟩ where
  rule := rfl
  name := rfl
  status := by simpa using congrArg RuleResult.status same
  problem := by simpa using congrArg RuleResult.problem same
  result := same

namespace Executor

variable {common own : Option Answer} {a : Action} {lead : Lead} {x x' y y' : Executor}
  {h h' k k' : Host} {r : Request}

structure Answers (common own : Option Answer) (x : Executor) : Prop where
  handler : Option.Rel (fun v answer => v.Regular answer) x.handler common
  webhookHandler : Option.Rel (fun v answer => v.Regular answer) x.webhookHandler own

theorem Answers.of_handlers (answers : x.Answers common own) (handler : y.handler = x.handler)
    (webhookHandler : y.webhookHandler = x.webhookHandler) : y.Answers common own :=
  ⟨handler ▸ answers.handler, webhookHandler ▸ answers.webhookHandler⟩

def reply (common own : Option Answer) : Answer := fun kind lead =>
  match (if kind = .webhookDispatch then own else none).or common with
  | some answer => answer kind lead
  | none => .ok ()

theorem Emission.answered {answer : Except Fault Unit} (emission : Emission r x h answer y k)
    (answers : x.Answers common own) : answer = reply common own r.kind r.lead ∧
    y.Answers common own := by
  obtain ⟨handler, webhookHandler⟩ := answers
  -- A request that the common handler has is no webhook, or there is no handler for those.
  have shared (other : r.kind = .webhookDispatch → x.webhookHandler = none) :
      (if r.kind = .webhookDispatch then own else none) = none := by
    split
    next webhook =>
      rw [other webhook] at webhookHandler
      cases webhookHandler
      rfl
    next => rfl
  cases emission with
  | posted webhook found handled =>
    rw [found] at webhookHandler
    cases webhookHandler with
    | some regular =>
      obtain ⟨rfl, regular⟩ := regular.handled handled
      exact ⟨by simp [reply, webhook], handler, .some regular⟩
  | handed other found handled =>
    have shared := shared other
    rw [found] at handler
    cases handler with
    | some regular =>
      obtain ⟨rfl, regular⟩ := regular.handled handled
      exact ⟨by simp [reply, shared], .some regular, webhookHandler⟩
  | dropped other none noted =>
    have shared := shared other
    refine ⟨?_, handler, webhookHandler⟩
    rw [none] at handler
    cases handler
    simp [reply, shared]

def settle (lead : Lead) (now : DateTime) (answer : Answer) :
    Except Fault (Except ActionFailure Effect) → Except Fault ActionOutcome
  | .error fault => .error fault
  | .ok (.error failure) => .ok (.unresolved failure)
  | .ok (.ok effect) =>
    match answer effect.kind lead.id with
    | .ok _ => .ok (.done ⟨lead.id, now, effect⟩)
    | .error fault =>
      .ok (.refused ⟨lead.id, now, effect⟩ (.notDispatched effect.kind lead.id fault.message))

theorem Performance.settled {result : Except Fault ActionOutcome}
    (performance : Performance a lead x h result y k)
    (takes : h.Takes [x.cursors.path]) (answers : x.Answers common own) :
    result = settle lead h.now (reply common own) (resolve lead a (x, h)).1 ∧
    y.Answers common own := by
  obtain ⟨found, k', run, -⟩ := resolve_run takes lead a
  have moved : Answers common own { x with cursors := x.cursorsAfter a } :=
    answers.of_handlers rfl rfl
  cases performance with
  | faulty asked =>
    rw [asked]
    cases run.symm.trans asked
    exact ⟨rfl, moved⟩
  | unresolved asked noted =>
    rw [asked]
    cases run.symm.trans asked
    exact ⟨rfl, moved⟩
  | done asked emitted =>
    rw [asked]
    cases run.symm.trans asked
    obtain ⟨answer, answers⟩ := emitted.answered moved
    simp only [Request.kind] at answer
    refine ⟨?_, answers⟩
    rw [settle, ← answer]
  | refused asked emitted noted =>
    rw [asked]
    cases run.symm.trans asked
    obtain ⟨answer, answers⟩ := emitted.answered moved
    simp only [Request.kind] at answer
    refine ⟨?_, answers⟩
    rw [settle, ← answer]

def conclude (a : Action) (lead : Lead) (rule : Value) (now : DateTime) (answer : Answer)
    (found : Except Fault (Except ActionFailure Effect)) : Except Fault ActionResult :=
  (settle lead now answer found).map fun outcome => ⟨a.kind, lead.id, rule, now, outcome⟩

theorem execute_concluded {rule : Value} {result : Except Fault ActionResult}
    (takes : h.Takes [x.cursors.path])
    (answers : x.Answers common own) (executed : execute a lead rule (x, h) = (result, (y, k))) :
    result = conclude a lead rule h.now (reply common own) (resolve lead a (x, h)).1 ∧
    y.Answers common own := by
  have now := (execute_leaves takes executed).host.now
  obtain ⟨found, x', h', run, performance⟩ := perform_run a lead x h
  obtain ⟨settled, answers⟩ := performance.settled takes answers
  rw [execute_run, run] at executed
  rw [conclude, ← settled]
  cases found with
  | error fault =>
    cases executed
    exact ⟨rfl, answers⟩
  | ok outcome =>
    cases executed
    rw [← now]
    exact ⟨rfl, answers.of_handlers rfl rfl⟩

/-- What an action asks for in two engines: the same, or the members of one team
whose turns it is there. -/
inductive Like (a : Action) :
    Except Fault (Except ActionFailure Effect) → Except Fault (Except ActionFailure Effect) → Prop
  | same {found : Except Fault (Except ActionFailure Effect)} : Like a found found
  | turned {team user user' : Text} (rotates : a = .assignRoundRobin team) :
      Like a (.ok (.ok (.reassign user (some team)))) (.ok (.ok (.reassign user' (some team))))

theorem resolve_like (takes : h.Takes [x.cursors.path]) (takes' : h'.Takes [x'.cursors.path])
    (directory : x'.directory = x.directory) (time : h'.now = h.now) (lead : Lead) (a : Action) :
    Like a (resolve lead a (x, h)).1 (resolve lead a (x', h')).1 := by
  cases rotates : rotated x.directory a with
  | none =>
    obtain ⟨found, run⟩ := resolve_still rotates lead h.now
    rw [run x rfl h rfl, run x' directory h' time]
    exact .same
  | some team =>
    have rotates' : rotated x'.directory a = some team := directory ▸ rotates
    obtain ⟨k, saved⟩ :=
      takes.save (List.mem_singleton_self _) (x.cursors.advance x.directory team).toWire
    obtain ⟨k', saved'⟩ :=
      takes'.save (List.mem_singleton_self _) (x'.cursors.advance x'.directory team).toWire
    obtain ⟨_, -, run⟩ := resolve_rotated rotates lead saved
    obtain ⟨_, -, run'⟩ := resolve_rotated rotates' lead saved'
    rw [run, run']
    exact .turned (rotated_eq_some rotates).1

theorem Like.concluded {found found' : Except Fault (Except ActionFailure Effect)}
    (like : Like a found found')
    (lead : Lead) (rule : Value) (now : DateTime) (answer : Answer) :
    (conclude a lead rule now answer found).map ActionResult.masked =
      (conclude a lead rule now answer found').map ActionResult.masked := by
  cases like with
  | same => rfl
  | turned rotates =>
    subst rotates
    simp only [conclude, settle, Effect.kind]
    cases answer .reassignLead lead.id <;> rfl

/-- An action ends alike in two engines that have the same directory and whose handlers
give the same answers. -/
theorem execute_alike {rule : Value} {result result' : Except Fault ActionResult}
    (takes : h.Takes [x.cursors.path])
    (takes' : h'.Takes [x'.cursors.path]) (answers : x.Answers common own)
    (answers' : x'.Answers common own)
    (directory : x'.directory = x.directory) (time : h'.now = h.now)
    (executed : execute a lead rule (x, h) = (result, (y, k)))
    (executed' : execute a lead rule (x', h') = (result', (y', k'))) :
    result.map ActionResult.masked = result'.map ActionResult.masked := by
  obtain ⟨rfl, -⟩ := execute_concluded takes answers executed
  obtain ⟨rfl, -⟩ := execute_concluded takes' answers' executed'
  rw [time]
  exact (resolve_like takes takes' directory time lead a).concluded lead rule h.now
    (reply common own)

end Executor
end LeadRules
