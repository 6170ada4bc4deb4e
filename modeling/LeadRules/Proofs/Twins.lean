import LeadRules.Proofs.Delivery

/-! Twins: engines that differ only in what no outcome depends on. Those are the history of the
executor, what its handlers keep for themselves, and of the host the log and the identifiers.
Whatever one is asked, the other answers the same, and they stay twins. -/
namespace LeadRules

namespace Op

variable {σ α β : Type} {R : σ → σ → Prop}

def Agree (R : σ → σ → Prop) (x y : Except Fault α × σ) : Prop := x.1 = y.1 ∧ R x.2 y.2

def Steady (R : σ → σ → Prop) (op : Op σ α) : Prop := ∀ s t, R s t → Agree R (op s) (op t)

theorem Agree.bind {op op' : Op σ α} {next next' : α → Op σ β} {s t : σ}
    (first : Agree R (op s) (op' t))
    (later : ∀ a s t, R s t → Agree R (next a s) (next' a t)) :
    Agree R ((op >>= next) s) ((op' >>= next') t) := by
  obtain ⟨result, states⟩ := first
  rw [run_bind, run_bind]
  revert result states
  rcases op s with ⟨fault | a, s'⟩ <;> rcases op' t with ⟨fault' | a', t'⟩
  · rintro ⟨⟩ states
    exact ⟨rfl, states⟩
  · rintro ⟨⟩
  · rintro ⟨⟩
  · rintro ⟨⟩ states
    exact later a _ _ states

namespace Steady

theorem pure (a : α) : Steady R (Pure.pure a : Op σ α) := fun _ _ states => ⟨rfl, states⟩

theorem throw (f : Fault) : Steady R (MonadExcept.throw f : Op σ α) :=
  fun _ _ states => ⟨rfl, states⟩

theorem ofExcept (x : Except Fault α) : Steady R (Op.ofExcept x : Op σ α) := by
  intro s t states
  rw [run_ofExcept, run_ofExcept]
  exact ⟨rfl, states⟩

theorem bind {op : Op σ α} {next : α → Op σ β} (first : Steady R op)
    (later : ∀ a, Steady R (next a)) :
    Steady R (op >>= next) := fun s t states => (first s t states).bind later

theorem attempt {op : Op σ α} (steady : Steady R op) : Steady R op.attempt := by
  intro s t states
  obtain ⟨result, states⟩ := steady s t states
  exact ⟨congrArg Except.ok result, states⟩

theorem ite {c : Prop} [Decidable c] {first second : Op σ α} (yes : Steady R first)
    (no : Steady R second) :
    Steady R (if c then first else second) := by
  split
  · exact yes
  · exact no

end Steady
end Op

namespace Host

/-- Hosts that agree in all but the log, the identifiers and the homes. -/
structure Twin (a b : Host) : Prop where
  now : b.now = a.now
  files : b.files = a.files
  refusals : b.refusals = a.refusals

theorem Twin.relogged {a b c d : Host} (twin : Twin a b) (left : a.Relogged c)
    (right : b.Relogged d) : Twin c d :=
  ⟨by rw [left.now, right.now, twin.now], by rw [left.files, right.files, twin.files],
    by rw [left.refusals, right.refusals, twin.refusals]⟩

end Host

namespace Op

open Host (Twin)

theorem log_steady (level : LogLevel) (text : Text) : Steady Twin (log level text) :=
  fun _ _ twin => ⟨rfl, twin.relogged (.note ..) (.note ..)⟩

theorem changeFiles_steady (p : FilePath) (change : FileTree → Except Fault FileTree) :
    Steady Twin (changeFiles p change) := by
  intro a b twin
  simp only [changeFiles, run_bind, run_get, run_set, twin.files, twin.refusals, run_ite]
  cases change a.files with
  | ok files => split <;> exact ⟨rfl, twin.now, rfl, rfl⟩
  | error fault => split <;> exact ⟨rfl, twin.now, rfl, rfl⟩

theorem makeFoldersTo_steady (p : FilePath) (depth : Nat) :
    Steady Twin (makeFoldersTo p depth) := by
  induction depth generalizing p with
  | zero => exact changeFiles_steady p _
  | succ depth ih =>
    refine .bind (changeFiles_steady p _).attempt fun x => ?_
    split
    · exact .pure ()
    · exact .bind (ih p.parent) fun _ => changeFiles_steady p _
    · exact .throw _

theorem save_steady (path : Option FilePath) (v : Value) : Steady Twin (StateFile.save path v) := by
  cases path with
  | none => exact .pure ()
  | some p =>
    refine .bind (makeFoldersTo_steady _ _) fun _ => .bind (.ofExcept _) fun q => ?_
    refine .bind (.bind (changeFiles_steady q _) fun _ => changeFiles_steady q _) fun _ => ?_
    exact changeFiles_steady q _

end Op

def Beside {σ : Type} (R : σ → σ → Prop) (s t : σ × Host) : Prop := R s.1 t.1 ∧ s.2.Twin t.2

namespace Op

variable {σ α : Type} {R : σ → σ → Prop}

theorem Steady.beside {op : StoreOp σ α}
    (steady : ∀ x y h k, R x y → h.Twin k → Agree (Beside R) (op (x, h)) (op (y, k))) :
    Steady (Beside R) op :=
  fun s t states => steady s.1 t.1 s.2 t.2 states.1 states.2

theorem onHost_steady {op : Op Host α} (steady : Steady Host.Twin op) :
    Steady (Beside R) (onHost op : StoreOp σ α) := by
  intro s t states
  obtain ⟨result, hosts⟩ := steady s.2 t.2 states.2
  exact ⟨result, states.1, hosts⟩

theorem setStore_steady {x y : σ} (related : R x y) (s t : σ × Host) (states : Beside R s t) :
    Agree (Beside R) (setStore x s) (setStore y t) := ⟨rfl, related, states.2⟩

end Op

open Op (Steady Agree)

/-- Where the stores are the same, what is read from them is. -/
theorem store_steady {σ α : Type} {next : σ → StoreOp σ α}
    (later : ∀ x, Steady (Beside Eq) (next x)) :
    Steady (Beside Eq) (Op.store >>= next) := by
  refine .beside ?_
  rintro x _ h k rfl hosts
  rw [Op.run_bind, Op.run_bind]
  exact later x _ _ ⟨rfl, hosts⟩

theorem CursorStore.next_steady (d : Directory) (team : Text) :
    Steady (Beside Eq) (next d team) := by
  refine .ite (.throw _) (store_steady fun s => ?_)
  refine .bind (store_steady fun s => ?_) fun _ => ?_
  · refine .bind (fun s t states => Op.setStore_steady rfl s t states) fun _ => ?_
    exact Op.onHost_steady (Op.save_steady _ _)
  · exact .bind (Op.onHost_steady (Op.log_steady _ _)) fun _ => .pure _

theorem saving_steady {σ : Type} (path : Option FilePath) (v : Value) (clean stale : σ) :
    Steady (Beside Eq) (Op.saving path v clean stale) := by
  have put (x : σ) : Steady (Beside Eq) (Op.setStore x) :=
    fun s t states => Op.setStore_steady rfl s t states
  refine .bind (put clean) fun _ =>
    .bind (Op.onHost_steady (Op.save_steady path v)).attempt fun result => ?_
  cases result with
  | ok _ => exact .pure _
  | error fault => exact .ite (.bind (put stale) fun _ => .throw fault) (.throw fault)

theorem EdgeStore.flush_steady : Steady (Beside Eq) flush :=
  store_steady fun s => .ite (.pure _) (saving_steady s.path s.toWire _ s)

theorem Ledger.flush_steady : Steady (Beside Eq) flush :=
  store_steady fun l => .ite (.pure _) (saving_steady l.path l.toWire _ l)

namespace Handler

/-- Handlers of which each answers a request as `answer` says, whatever came before, and does
nothing else to the host than note it. -/
structure Answers (answer : Request → Except Fault Unit) (among : Handler → Prop) : Prop where
  handle : ∀ x, among x → ∀ r h, ∃ y k, handle r (x, h) = (answer r, (y, k)) ∧
    among y ∧ h.Relogged k

def Twin (x y : Handler) : Prop := ∃ answer among, Answers answer among ∧ among x ∧ among y

theorem handle_steady (r : Request) : Steady (Beside Twin) (handle r) := by
  refine .beside ?_
  rintro x y h k ⟨answer, among, answers, first, second⟩ hosts
  obtain ⟨x', h', left, first, noted⟩ := answers.handle x first r h
  obtain ⟨y', k', right, second, noted'⟩ := answers.handle y second r k
  rw [left, right]
  exact ⟨rfl, ⟨answer, among, answers, first, second⟩, hosts.relogged noted noted'⟩

/-- A recorder without lapses takes or refuses a request by what it is told of that request alone.
-/
theorem recorder_answers (refusal : Request → Option Fault) :
    Answers (fun r => (refusal r).elim (.ok ()) .error)
      fun x => ∃ offered requests, x = .recorder { refusal, offered, requests } := by
  refine ⟨?_⟩
  rintro x ⟨offered, requests, rfl⟩ r h
  simp only [handle, Op.run_bind, Op.run_store, Recorder.take]
  cases refusal r with
  | none => exact ⟨_, _, rfl, ⟨_, _, rfl⟩, .refl h⟩
  | some fault => exact ⟨_, _, rfl, ⟨_, _, rfl⟩, .refl h⟩

theorem recorder_twin (refusal : Request → Option Fault) (first second : List Request) :
    Twin (.recorder { refusal, requests := first }) (.recorder { refusal, requests := second }) :=
  ⟨_, _, recorder_answers refusal, ⟨[], first, rfl⟩, ⟨[], second, rfl⟩⟩

end Handler

namespace Executor

structure Twin (x y : Executor) : Prop where
  directory : y.directory = x.directory
  cursors : y.cursors = x.cursors
  handler : Option.Rel Handler.Twin x.handler y.handler
  webhookHandler : Option.Rel Handler.Twin x.webhookHandler y.webhookHandler

theorem onCursors_steady {α : Type} {op : StoreOp CursorStore α} (steady : Steady (Beside Eq) op) :
    Steady (Beside Twin) (onCursors op) := by
  refine .beside fun x y h k twin hosts => ?_
  obtain ⟨result, cursors, hosts⟩ := steady (x.cursors, h) (y.cursors, k) ⟨twin.cursors.symm, hosts⟩
  exact ⟨result, { twin with cursors := cursors.symm }, hosts⟩

theorem nextOfTeam_steady (team : Text) : Steady (Beside Twin) (nextOfTeam team) := by
  refine .beside fun x y h k twin hosts => ?_
  rw [nextOfTeam, Op.run_bind, Op.run_bind, Op.run_store, Op.run_store]
  simp only [twin.directory]
  refine Steady.ite (.pure _) (.bind ?_ fun result => ?_) _ _ ⟨twin, hosts⟩
  · exact (onCursors_steady (CursorStore.next_steady x.directory team)).attempt
  · split
    · exact .pure _
    · exact .pure _
    · exact .throw _

theorem resolve_steady (lead : Lead) (a : Action) : Steady (Beside Twin) (resolve lead a) := by
  refine .beside fun x y h k twin hosts => ?_
  simp only [resolve, Op.run_bind, Op.run_get]
  cases a with
  | assignRoundRobin team => exact nextOfTeam_steady team _ _ ⟨twin, hosts⟩
  | createTask title dueDays =>
    simp only [hosts.now, Op.run_bind, Op.run_ofExcept]
    cases dueAt h.now dueDays <;> exact ⟨rfl, twin, hosts⟩
  | _ => exact ⟨by simp only [twin.directory, Op.run_pure], twin, hosts⟩

theorem emit_steady (r : Request) : Steady (Beside Twin) (emit r) := by
  refine .beside fun x y h k twin hosts => ?_
  have posted {v w : Handler} (own : v.Twin w) : Agree (Beside Twin)
      ((Handler.handle r).onPart (fun s => (v, s.2))
        (fun s t => ({ s.1 with webhookHandler := some t.1 }, t.2)) (x, h))
      ((Handler.handle r).onPart (fun s => (w, s.2))
        (fun s t => ({ s.1 with webhookHandler := some t.1 }, t.2))
        (y, k)) := by
    obtain ⟨result, own, hosts⟩ := Handler.handle_steady r (v, h) (w, k) ⟨own, hosts⟩
    exact ⟨result, { twin with webhookHandler := .some own }, hosts⟩
  have handed {v w : Handler} (own : v.Twin w) : Agree (Beside Twin)
      ((Handler.handle r).onPart (fun s => (v, s.2))
        (fun s t => ({ s.1 with handler := some t.1 }, t.2)) (x, h))
      ((Handler.handle r).onPart (fun s => (w, s.2))
        (fun s t => ({ s.1 with handler := some t.1 }, t.2)) (y, k)) := by
    obtain ⟨result, own, hosts⟩ := Handler.handle_steady r (v, h) (w, k) ⟨own, hosts⟩
    exact ⟨result, { twin with handler := .some own }, hosts⟩
  have dropped (text : Text) :=
    Op.onHost_steady (R := Twin) (Op.log_steady .debug text) (x, h) (y, k) ⟨twin, hosts⟩
  have handler := twin.handler
  have webhookHandler := twin.webhookHandler
  simp only [emit, Op.run_bind, Op.run_store]
  generalize x.handler = v, y.handler = w, x.webhookHandler = v',
    y.webhookHandler = w' at handler webhookHandler
  -- A webhook goes to the handler of its own if there is one, and all else to the common one.
  cases r.kind <;> cases webhookHandler <;> cases handler <;>
    first
    | exact posted ‹_›
    | exact handed ‹_›
    | exact dropped _

theorem perform_steady (a : Action) (lead : Lead) : Steady (Beside Twin) (perform a lead) := by
  refine .beside fun x y h k twin hosts => ?_
  have log (level : LogLevel) (text : Text) :
      Steady (Beside Twin) (Op.onHost (Op.log level text)) :=
    Op.onHost_steady (Op.log_steady level text)
  rw [perform, Op.run_bind, Op.run_bind, Op.run_get, Op.run_get]
  simp only [hosts.now]
  refine Steady.bind (resolve_steady lead a) (fun result => ?_) _ _ ⟨twin, hosts⟩
  cases result with
  | error failure => exact .bind (log _ _) fun _ => .pure _
  | ok effect =>
    refine .bind (emit_steady _).attempt fun result => ?_
    cases result with
    | ok _ => exact .pure _
    | error fault => exact .bind (log _ _) fun _ => .pure _

theorem execute_steady (a : Action) (lead : Lead) (rule : Value) :
    Steady (Beside Twin) (execute a lead rule) := by
  refine .bind (perform_steady a lead) fun outcome => .beside fun x y h k twin hosts => ?_
  simp only [Op.run_bind, Op.run_get, Op.run_store, Op.run_setStore, Op.run_pure, hosts.now]
  exact ⟨rfl, { twin with }, hosts⟩

end Executor

namespace Engine

structure Twin (g g' : Engine) : Prop where
  rules : g'.rules = g.rules
  executor : g.executor.Twin g'.executor
  catalog : g'.catalog = g.catalog
  edges : g'.edges = g.edges
  ledger : g'.ledger = g.ledger

theorem log_steady (level : LogLevel) (text : Text) :
    Steady (Beside Twin) (Op.onHost (Op.log level text)) :=
  Op.onHost_steady (Op.log_steady level text)

theorem fires_steady (r : Rule) (e : Event) : Steady (Beside Twin) (fires r e) := by
  refine .beside fun g g' h k twin hosts => ?_
  obtain ⟨h', noted, run⟩ := fires_run r e g h
  obtain ⟨k', noted', run'⟩ := fires_run r e g' k
  have same : g'.sighting r e = g.sighting r e := by rw [sighting, sighting, twin.edges]
  rw [run, run', same]
  exact ⟨rfl, { twin with edges := congrArg EdgeStore.Transition.store same }, hosts.relogged noted noted'⟩

theorem meets_steady (r : Rule) (lead : Lead) : Steady (Beside Twin) (meets r lead) := by
  refine .beside fun g g' h k twin hosts => ?_
  obtain ⟨h', noted, run⟩ := meets_run r lead g h
  obtain ⟨k', noted', run'⟩ := meets_run r lead g' k
  rw [run, run', twin.catalog]
  exact ⟨rfl, twin, hosts.relogged noted noted'⟩

theorem actOnce_steady (r : Rule) (e : Event) : Steady (Beside Twin) (actOnce r e) := by
  refine .beside fun g g' h k twin hosts => ?_
  cases known : g.ledger.isProcessed (deliveryKey r e) with
  | true =>
    rw [actOnce_known known, actOnce_known (twin.ledger ▸ known)]
    exact ⟨rfl, twin, hosts⟩
  | false =>
    rw [actOnce_new known, actOnce_new (twin.ledger ▸ known), twin.ledger]
    have executed :=
      Executor.execute_steady r.action e.lead (.text r.id) (g.executor, h) (g'.executor, k)
      ⟨twin.executor, hosts⟩
    revert executed
    rcases Executor.execute r.action e.lead (.text r.id) (g.executor, h) with ⟨result, x, h'⟩
    rcases Executor.execute r.action e.lead (.text r.id) (g'.executor, k) with ⟨result', x', k'⟩
    rintro ⟨same, executor, hosts⟩
    obtain rfl : result = result' := same
    have hosts : h'.Twin k' := hosts
    cases result with
    | error fault => exact ⟨rfl, { twin with executor, ledger := rfl }, hosts⟩
    | ok result =>
      have recorded := congrArg (g.ledger.record (deliveryKey r e)) hosts.now
      exact ⟨rfl, { twin with executor, ledger := recorded }, hosts⟩

theorem act_steady (r : Rule) (e : Event) : Steady (Beside Twin) (act r e) := by
  refine .bind (actOnce_steady r e) fun result => ?_
  cases result with
  | none => exact .bind (log_steady _ _) fun _ => .pure _
  | some result => exact .ite (.pure _) (.bind (log_steady _ _) fun _ => .pure _)

theorem process_steady (r : Rule) (e : Event) : Steady (Beside Twin) (process r e) := by
  refine .bind (fires_steady r e) fun fired => .ite (.pure _) ?_
  exact .bind (meets_steady r e.lead) fun met => .ite (.pure _) (act_steady r e)

theorem outcomeOf_steady (e : Event) (r : Rule) : Steady (Beside Twin) (outcomeOf e r) := by
  refine .bind (process_steady r e).attempt fun result => ?_
  cases result with
  | ok result => exact .pure _
  | error fault => exact .bind (log_steady _ _) fun _ => .pure _

theorem outcomesOf_steady (e : Event) (rules : List Rule) :
    Steady (Beside Twin) (outcomesOf e rules) := by
  induction rules with
  | nil => exact .pure []
  | cons r rest ih => exact .bind (outcomeOf_steady e r) fun _ => .bind ih fun _ => .pure _

theorem onEdges_steady {α : Type} {op : StoreOp EdgeStore α} (steady : Steady (Beside Eq) op) :
    Steady (Beside Twin) (onEdges op) := by
  refine .beside fun g g' h k twin hosts => ?_
  obtain ⟨result, edges, hosts⟩ := steady (g.edges, h) (g'.edges, k) ⟨twin.edges.symm, hosts⟩
  exact ⟨result, { twin with edges := edges.symm }, hosts⟩

theorem onLedger_steady {α : Type} {op : StoreOp Ledger α} (steady : Steady (Beside Eq) op) :
    Steady (Beside Twin) (onLedger op) := by
  refine .beside fun g g' h k twin hosts => ?_
  obtain ⟨result, ledger, hosts⟩ := steady (g.ledger, h) (g'.ledger, k) ⟨twin.ledger.symm, hosts⟩
  exact ⟨result, { twin with ledger := ledger.symm }, hosts⟩

theorem flushStore_steady {op : StoreOp Engine Unit} (path : Option FilePath)
    (steady : Steady (Beside Twin) op) :
    Steady (Beside Twin) (flushStore path op) := by
  refine .bind steady.attempt fun result => ?_
  split
  · exact .pure _
  · exact log_steady _ _
  · exact .throw _

theorem flush_steady : Steady (Beside Twin) flush := by
  have edges := onEdges_steady EdgeStore.flush_steady
  have ledger := onLedger_steady Ledger.flush_steady
  refine .beside fun g g' h k twin hosts => ?_
  rw [flush, Op.run_bind, Op.run_bind, Op.run_store, Op.run_store]
  simp only [twin.edges]
  refine (flushStore_steady g.edges.path edges _ _ ⟨twin, hosts⟩).bind fun _ => Steady.beside ?_
  intro g g' h k twin hosts
  rw [Op.run_bind, Op.run_bind, Op.run_store, Op.run_store]
  simp only [twin.ledger]
  exact flushStore_steady g.ledger.path ledger _ _ ⟨twin, hosts⟩

/-- Twins answer every event alike, and stay twins. -/
theorem onEvent_steady (e : Event) : Steady (Beside Twin) (onEvent e) := by
  have rest (rules : List Rule) : Steady (Beside Twin) (do
      let outcome : EventOutcome := { event := e.id, lead := e.lead.id, kind := e.kind }
      if rules.isEmpty then
        Op.onHost
          (Op.log .debug ("No enabled rules for " ++ e.kind.name ++ " (lead " ++ e.lead.id ++ ")"))
        return outcome
      let outcome := { outcome with rules := ← outcomesOf e rules }
      flush
      let executed := (outcome.withStatus .executed).length
      if executed ≠ 0 then
        Op.onHost (Op.log .info
          ("Event " ++ e.kind.name ++ " " ++ e.id ++ " for lead " ++ e.lead.id
            ++ s!": {executed} action(s) executed"))
      return outcome : StoreOp Engine EventOutcome) := by
    refine .ite (.bind (log_steady _ _) fun _ => .pure _) ?_
    refine .bind (outcomesOf_steady e rules) fun outcomes => .bind flush_steady fun _ => ?_
    exact .ite (.bind (log_steady _ _) fun _ => .pure _) (.pure _)
  refine .beside fun g g' h k twin hosts => ?_
  simp only [onEvent, Op.run_bind, Op.run_store, twin.rules, Op.run_ofExcept]
  cases g.rules.rulesFor e.kind.trigger with
  | error fault => exact ⟨rfl, twin, hosts⟩
  | ok rules => exact rest rules _ _ ⟨twin, hosts⟩

end Engine

end LeadRules
