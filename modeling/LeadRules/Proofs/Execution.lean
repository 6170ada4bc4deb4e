import LeadRules.Proofs.Disk

/-! How an action is carried out. To find what it asks for moves nothing but the cursor of a team
whose turn it is; the request then goes to one handler, and whatever comes of that, all but the
handlers stays as it is. -/
namespace LeadRules

namespace Op

variable {σ α β : Type}

def Notes (op : StoreOp σ α) : Prop := Within (fun s t => s.2.Relogged t.2) op

namespace Notes

theorem store : Notes (Op.store : StoreOp σ σ) := fun s => .refl s.2

theorem get : Notes (MonadState.get : StoreOp σ (σ × Host)) := fun s => .refl s.2

theorem pure (a : α) : Notes (Pure.pure a : StoreOp σ α) := fun s => .refl s.2

theorem throw (fault : Fault) : Notes (MonadExcept.throw fault : StoreOp σ α) := fun s => .refl s.2

theorem ofExcept (x : Except Fault α) : Notes (Op.ofExcept x : StoreOp σ α) := by
  intro s
  rw [run_ofExcept]

theorem setStore (x : σ) : Notes (Op.setStore x) := fun s => .refl s.2

theorem log (level : LogLevel) (text : Text) :
    Notes (onHost (Op.log level text) : StoreOp σ Unit) :=
  fun s => .note level text s.2

theorem bind {op : StoreOp σ α} {next : α → StoreOp σ β} (first : Notes op)
    (later : ∀ a, Notes (next a)) :
    Notes (op >>= next) := Within.bind Host.Relogged.trans first later

theorem ite {c : Prop} [Decidable c] {first second : StoreOp σ α} (yes : Notes first)
    (no : Notes second) :
    Notes (if c then first else second) := Within.ite yes no

end Notes
end Op

namespace Dispatcher

open Op (Notes)

theorem attemptOnce_notes (s : Settings) (p : Posting) (attempt : Nat) :
    Notes (attemptOnce s p attempt) := by
  rintro ⟨⟨d, t⟩, h⟩
  simp only [attemptOnce, Op.run_bind, Op.run_get, Op.run_set]
  cases (t.send _).1 <;> rfl

theorem attemptFrom_notes (s : Settings) (p : Posting) (attempt left : Nat) :
    Notes (attemptFrom s p attempt left) := by
  induction left generalizing attempt with
  | zero => exact .pure false
  | succ left ih =>
    refine .bind (attemptOnce_notes s p (attempt + 1)) fun delivered =>
      .ite (.pure true) (.ite ?_ (ih _))
    exact .bind (.ofExcept _) fun time => .bind (fun _ => rfl) fun _ => ih _

theorem finish_notes (p : Posting) : Notes (finish p) := by
  refine .bind .get fun s => .bind .store fun d => .bind ?_ fun delivered => .ite (.pure ()) ?_
  · intro s
    have attempts :=
      Notes.bind (.ofExcept d.settings.webhookAttempts) (attemptFrom_notes d.settings p 0)
    exact attempts ((s.1.current p _, s.1.transport), s.2)
  · exact .bind .store fun d => .bind (.log _ _) fun _ => .setStore _

theorem dispatch_notes (p : Posting) : Notes (dispatch p) := by
  refine .bind .get fun s => .bind .store fun d => .bind (.setStore _) fun _ => ?_
  have attempted : Notes (finish p).attempt := finish_notes p
  refine .bind attempted fun result => ?_
  cases result with
  | ok _ => exact .bind .store fun _ => .pure _
  | error fault =>
    exact .bind .store fun d => .ite (.bind (.throw fault) fun _ => .bind .store fun _ => .pure _)
      (.bind .store fun _ => .pure _)

end Dispatcher

theorem Handler.handle_notes (r : Request) : Op.Notes (handle r) := by
  refine .bind .store fun handler => ?_
  cases handler with
  | recorder s => exact .bind (.setStore _) fun _ => .ofExcept _
  | dispatcher d =>
    dsimp only
    cases r.posting? with
    | none => exact .throw _
    | some p => exact .bind (fun s => Dispatcher.dispatch_notes p (d, s.2)) fun _ => .pure ()

namespace CursorStore

variable {d : Directory} {team : Text} {s : CursorStore} {h k : Host}

def upcoming (s : CursorStore) (d : Directory) (team : Text) : Text :=
  (d.members team)[s.following team (d.members team).length]?.getD ""

def advance (s : CursorStore) (d : Directory) (team : Text) : CursorStore :=
  { s with cursors := s.cursors.put team (s.following team (d.members team).length) }

theorem next_empty (none : d.members team = []) (s : CursorStore) (h : Host) :
    next d team (s, h) = (.error (.emptyTeam team), (s, h)) := by
  simp [next, none]

theorem next_run (filled : d.members team ≠ [])
    (saved : StateFile.save s.path (s.advance d team).toWire h = (.ok (), k)) :
    ∃ l, k.Relogged l ∧ next d team (s, h) = (.ok (s.upcoming d team), (s.advance d team, l)) := by
  have filled : (d.members team).isEmpty = false := List.isEmpty_eq_false_iff.2 filled
  unfold advance at saved
  simp only [next, filled, Bool.false_eq_true, if_false, Op.run_bind, Op.run_store, put,
    Op.run_setStore, Op.run_onHost, saved]
  exact ⟨_, .note .., rfl⟩

end CursorStore

namespace Executor

variable {a : Action} {lead : Lead} {team : Text} {d : Directory} {x y : Executor} {h k : Host}
  {now : DateTime}

/-- The team whose next member an action assigns to, if it is one of a round robin that has
members. -/
def rotated (d : Directory) : Action → Option Text
  | .assignRoundRobin team => if d.members team = [] then none else some team
  | _ => none

def cursorsAfter (x : Executor) (a : Action) : CursorStore :=
  match rotated x.directory a with
  | some team => x.cursors.advance x.directory team
  | none => x.cursors

def saves (x : Executor) (a : Action) : List (Option FilePath × Value) :=
  match rotated x.directory a with
  | some team => [(x.cursors.path, (x.cursors.advance x.directory team).toWire)]
  | none => []

theorem path_saves (x : Executor) (a : Action) : ∀ s ∈ x.saves a, s.1 ∈ [x.cursors.path] := by
  intro s member
  unfold saves at member
  split at member
  · rw [List.mem_singleton.1 member]
    exact List.mem_singleton_self _
  · cases member

theorem rotated_eq_some (rotates : rotated d a = some team) :
    a = .assignRoundRobin team ∧ d.members team ≠ [] := by
  unfold rotated at rotates
  split at rotates
  next other =>
    split at rotates
    next => cases rotates
    next filled =>
      cases rotates
      exact ⟨rfl, filled⟩
  next => cases rotates

theorem rotated_eq_none (still : rotated d (.assignRoundRobin team) = none) :
    d.members team = [] := by
  refine Decidable.byContradiction fun filled => ?_
  rw [rotated, if_neg filled] at still
  cases still

theorem nextOfTeam_empty (none : d.members team = []) :
    ∃ failure, ∀ x : Executor, x.directory = d → ∀ h,
      nextOfTeam team (x, h) = (.ok (.error failure), (x, h)) := by
  cases known : d.teams.contains team with
  | false =>
    refine ⟨.unknownTeam team, ?_⟩
    rintro x rfl h
    simp [nextOfTeam, Op.run_bind, known]
  | true =>
    refine ⟨.emptyTeam team, ?_⟩
    rintro x rfl h
    simp [nextOfTeam, Op.run_bind, known, onCursors, CursorStore.next_empty none]

theorem contains_of_members (filled : d.members team ≠ []) : d.teams.contains team = true := by
  unfold Directory.members at filled
  rw [OrderedMap.contains]
  split at filled
  next found => rw [found]; rfl
  next => exact absurd rfl filled

theorem nextOfTeam_run (filled : x.directory.members team ≠ [])
    (saved : StateFile.save x.cursors.path (x.cursors.advance x.directory team).toWire h = (.ok (), k)) :
    ∃ l, k.Relogged l ∧ nextOfTeam team (x, h) =
      (.ok (.ok (.reassign (x.cursors.upcoming x.directory team) (some team))),
        ({ x with cursors := x.cursors.advance x.directory team }, l)) := by
  obtain ⟨l, noted, run⟩ := CursorStore.next_run filled saved
  refine ⟨l, noted, ?_⟩
  simp [nextOfTeam, Op.run_bind, contains_of_members filled, onCursors, run]

/-- What an action asks for that moves no cursor depends on the directory and the time alone. -/
theorem resolve_still (still : rotated d a = none) (lead : Lead) (now : DateTime) :
    ∃ result, ∀ x : Executor, x.directory = d → ∀ h : Host, h.now = now →
      resolve lead a (x, h) = (result, (x, h)) := by
  have plain (result : Executor → Host → Except Fault (Except ActionFailure Effect))
      (run : ∀ x h, resolve lead a (x, h) = (result x h, (x, h)))
      (same : ∀ x y h k, x.directory = y.directory → h.now = k.now → result x h = result y k) :
      ∃ result, ∀ x : Executor, x.directory = d → ∀ h : Host, h.now = now →
        resolve lead a (x, h) = (result, (x, h)) := by
    refine ⟨result { directory := d, cursors := {} } { now }, fun x directory h time => ?_⟩
    rw [run, same x { directory := d, cursors := {} } h { now } directory time]
  cases a with
  | assignRoundRobin team =>
    obtain ⟨failure, run⟩ := nextOfTeam_empty (rotated_eq_none still)
    exact ⟨_, fun x directory h _ => run x directory h⟩
  | createTask title dueDays =>
    refine plain (fun _ h => (dueAt h.now dueDays).map fun due => .ok (.taskCreate title due)) ?_ ?_
    · intro x h
      simp only [resolve, Op.run_bind, Op.run_get, Op.run_ofExcept]
      cases dueAt h.now dueDays <;> rfl
    · intro x y h k _ time
      simp only [time]
  | assignToUser user => exact plain _ (fun x h => rfl) fun x y _ _ directory _ => by rw [directory]
  | assignToTeam team => exact plain _ (fun x h => rfl) fun x y _ _ directory _ => by rw [directory]
  | addToPhoneList list =>
    exact plain _ (fun x h => rfl) fun x y _ _ directory _ => by rw [directory]
  | addTag tag => exact ⟨_, fun _ _ _ _ => rfl⟩
  | sendWebhook url => exact ⟨_, fun _ _ _ _ => rfl⟩

theorem resolve_rotated (rotates : rotated x.directory a = some team) (lead : Lead)
    (saved : StateFile.save x.cursors.path (x.cursors.advance x.directory team).toWire h = (.ok (), k)) :
    ∃ l, k.Relogged l ∧ resolve lead a (x, h) =
      (.ok (.ok (.reassign (x.cursors.upcoming x.directory team) (some team))),
        ({ x with cursors := x.cursors.advance x.directory team }, l)) := by
  obtain ⟨rfl, filled⟩ := rotated_eq_some rotates
  exact nextOfTeam_run filled saved

/-- What is asked for on a host that takes what is saved. -/
theorem resolve_run (takes : h.Takes [x.cursors.path]) (lead : Lead) (a : Action) : ∃ result k,
    resolve lead a (x, h) = (result, ({ x with cursors := x.cursorsAfter a }, k)) ∧
    h.After (x.saves a) k := by
  unfold cursorsAfter saves
  cases rotates : rotated x.directory a with
  | none =>
    obtain ⟨result, run⟩ := resolve_still rotates lead h.now
    exact ⟨result, h, run x rfl h rfl, .relogged (.refl h)⟩
  | some team =>
    obtain ⟨k, saved⟩ :=
      takes.save (List.mem_singleton_self _) (x.cursors.advance x.directory team).toWire
    obtain ⟨l, noted, run⟩ := resolve_rotated rotates lead saved
    exact ⟨_, l, run, .save saved noted⟩

inductive Emission (r : Request) (x : Executor) (h : Host) :
    Except Fault Unit → Executor → Host → Prop
  | posted {v w : Handler} {answer : Except Fault Unit} {k : Host}
      (webhook : r.kind = .webhookDispatch)
      (own : x.webhookHandler = some v) (handled : Handler.handle r (v, h) = (answer, (w, k))) :
      Emission r x h answer { x with webhookHandler := some w } k
  | handed {v w : Handler} {answer : Except Fault Unit} {k : Host}
      (other : r.kind = .webhookDispatch → x.webhookHandler = none) (common : x.handler = some v)
      (handled : Handler.handle r (v, h) = (answer, (w, k))) :
      Emission r x h answer { x with handler := some w } k
  | dropped {k : Host} (other : r.kind = .webhookDispatch → x.webhookHandler = none)
      (none : x.handler = none)
      (noted : h.Relogged k) : Emission r x h (.ok ()) x k

theorem emit_run (r : Request) (x : Executor) (h : Host) :
    ∃ answer y k, emit r (x, h) = (answer, (y, k)) ∧ Emission r x h answer y k := by
  have rest (other : r.kind = .webhookDispatch → x.webhookHandler = none) :
      ∃ answer y k, emit r (x, h) = (answer, (y, k)) ∧ Emission r x h answer y k := by
    cases common : x.handler with
    | none =>
      have run : ∃ text, emit r (x, h) = (.ok (), (x, h.note .debug text)) := by
        refine ⟨"No handler for " ++ r.kind.name ++ "; lead " ++ r.lead ++ " request dropped", ?_⟩
        cases kind : r.kind <;> simp_all [emit, Op.run_bind]
      obtain ⟨text, run⟩ := run
      exact ⟨_, _, _, run, .dropped other common (.note ..)⟩
    | some v =>
      rcases handled : Handler.handle r (v, h) with ⟨answer, w, k⟩
      refine ⟨_, _, _, ?_, .handed other common handled⟩
      cases kind : r.kind <;> simp_all [emit, Op.run_bind]
  by_cases webhook : r.kind = .webhookDispatch
  · cases own : x.webhookHandler with
    | none => exact rest fun _ => own
    | some v =>
      rcases handled : Handler.handle r (v, h) with ⟨answer, w, k⟩
      refine ⟨_, _, _, ?_, .posted webhook own handled⟩
      simp only [emit, Op.run_bind, Op.run_store, webhook, own, Op.run_onPart, handled]
  · exact rest fun kind => absurd kind webhook

/-- The second executor is the first one but for its handlers. -/
def Handed (x y : Executor) : Prop :=
  y = { x with handler := y.handler, webhookHandler := y.webhookHandler }

theorem Emission.frame {r : Request} {answer : Except Fault Unit}
    (emission : Emission r x h answer y k) :
    x.Handed y ∧ h.Relogged k := by
  have noted {v w : Handler} (handled : Handler.handle r (v, h) = (answer, (w, k))) :
      h.Relogged k := by
    simpa only [handled] using Handler.handle_notes r (v, h)
  cases emission with
  | posted webhook own handled => exact ⟨rfl, noted handled⟩
  | handed other common handled => exact ⟨rfl, noted handled⟩
  | dropped other none noted => exact ⟨rfl, noted⟩

inductive Performance (a : Action) (lead : Lead) (x : Executor) (h : Host) :
    Except Fault ActionOutcome → Executor → Host → Prop
  | faulty {fault : Fault} {y : Executor} {k : Host}
      (asked : resolve lead a (x, h) = (.error fault, (y, k))) :
      Performance a lead x h (.error fault) y k
  | unresolved {failure : ActionFailure} {y : Executor} {h' k : Host}
      (asked : resolve lead a (x, h) = (.ok (.error failure), (y, h'))) (noted : h'.Relogged k) :
      Performance a lead x h (.ok (.unresolved failure)) y k
  | done {effect : Effect} {x' y : Executor} {h' k : Host}
      (asked : resolve lead a (x, h) = (.ok (.ok effect), (x', h')))
      (emitted : Emission ⟨lead.id, h.now, effect⟩ x' h' (.ok ()) y k) :
      Performance a lead x h (.ok (.done ⟨lead.id, h.now, effect⟩)) y k
  | refused {effect : Effect} {fault : Fault} {x' y : Executor} {h' h'' k : Host}
      (asked : resolve lead a (x, h) = (.ok (.ok effect), (x', h')))
      (emitted : Emission ⟨lead.id, h.now, effect⟩ x' h' (.error fault) y h'')
        (noted : h''.Relogged k) :
      Performance a lead x h
        (.ok (.refused ⟨lead.id, h.now, effect⟩ (.notDispatched effect.kind lead.id fault.message)))
          y k

theorem perform_run (a : Action) (lead : Lead) (x : Executor) (h : Host) :
    ∃ result y k, perform a lead (x, h) = (result, (y, k)) ∧ Performance a lead x h result y k := by
  rw [perform, Op.run_bind, Op.run_get]
  simp only [Op.run_bind]
  rcases asked : resolve lead a (x, h) with ⟨fault | failure | effect, x', h'⟩
  · exact ⟨_, _, _, rfl, .faulty asked⟩
  · exact ⟨_, _, _, rfl, .unresolved asked (.note ..)⟩
  · simp only [Op.run_bind, Op.run_attempt]
    obtain ⟨answer, y, k, run, emitted⟩ := emit_run ⟨lead.id, h.now, effect⟩ x' h'
    simp only [run]
    cases answer with
    | error fault => exact ⟨_, _, _, rfl, .refused asked emitted (.note ..)⟩
    | ok _ => exact ⟨_, _, _, rfl, .done asked emitted⟩

/-- A relation that every step of an action puts a state in with what it leaves: the turn of a
team, the hand-over of a request, a line of the log. -/
structure Respected (R : Executor × Host → Executor × Host → Prop) : Prop where
  refl (s : Executor × Host) : R s s
  trans {a b c : Executor × Host} : R a b → R b c → R a c
  turn (d : Directory) (team : Text) : Op.Within R (onCursors (CursorStore.next d team))
  emit (r : Request) : Op.Within R (emit r)
  log (level : LogLevel) (text : Text) : Op.Within R (Op.onHost (Op.log level text))

namespace Respected

variable {R : Executor × Host → Executor × Host → Prop}

theorem resolve (respected : Respected R) (lead : Lead) (a : Action) :
    Op.Within R (resolve lead a) := by
  refine .bind respected.trans respected.refl fun s => ?_
  cases a with
  | assignRoundRobin team =>
    refine .bind respected.trans respected.refl fun x => .ite respected.refl ?_
    refine .bind respected.trans (respected.turn _ team) fun answer => ?_
    split <;> exact respected.refl
  | createTask title dueDays =>
    refine .bind respected.trans (fun s => ?_) fun _ => respected.refl
    rw [Op.run_ofExcept]
    exact respected.refl s
  | _ => exact respected.refl

theorem perform (respected : Respected R) (a : Action) (lead : Lead) :
    Op.Within R (perform a lead) := by
  refine .bind respected.trans respected.refl fun s =>
    .bind respected.trans (respected.resolve lead a) fun found => ?_
  split
  · exact .bind respected.trans (respected.log _ _) fun _ => respected.refl
  · refine .bind respected.trans (respected.emit _) fun answer => ?_
    split
    · exact respected.refl
    · exact .bind respected.trans (respected.log _ _) fun _ => respected.refl

end Respected

theorem execute_run (a : Action) (lead : Lead) (rule : Value) (x : Executor) (h : Host) :
    execute a lead rule (x, h) = match perform a lead (x, h) with
      | (.error fault, s) => (.error fault, s)
      | (.ok outcome, (y, k)) =>
        (.ok ⟨a.kind, lead.id, rule, k.now, outcome⟩,
          (y.remember ⟨a.kind, lead.id, rule, k.now, outcome⟩, k)) := by
  rw [execute, Op.run_bind]
  rcases perform a lead (x, h) with ⟨fault | outcome, y, k⟩ <;> rfl

structure Leaves (a : Action) (x : Executor) (h : Host) (y : Executor) (k : Host) : Prop where
  directory : y.directory = x.directory
  cursors : y.cursors = x.cursorsAfter a
  host : h.After (x.saves a) k

theorem Leaves.leads (leaves : Leaves a x h y k) : h.Leads [x.cursors.path] k :=
  ⟨_, x.path_saves a, leaves.host⟩

theorem Performance.leaves {result : Except Fault ActionOutcome}
    (performance : Performance a lead x h result y k)
    (takes : h.Takes [x.cursors.path]) : Leaves a x h y k := by
  obtain ⟨found, k', run, saved⟩ := resolve_run takes lead a
  have after {r : Request} {answer : Except Fault Unit} {h' : Host}
      (emitted : Emission r { x with cursors := x.cursorsAfter a } k' answer y h')
        (noted : h'.Relogged k) :
      Leaves a x h y k := by
    obtain ⟨handed, noted'⟩ := emitted.frame
    rw [handed]
    exact ⟨rfl, rfl, saved.noted (noted'.trans noted)⟩
  cases performance with
  | faulty asked =>
    cases run.symm.trans asked
    exact ⟨rfl, rfl, saved⟩
  | unresolved asked noted =>
    cases run.symm.trans asked
    exact ⟨rfl, rfl, saved.noted noted⟩
  | done asked emitted =>
    cases run.symm.trans asked
    exact after emitted (.refl _)
  | refused asked emitted noted =>
    cases run.symm.trans asked
    exact after emitted noted

theorem execute_leaves (takes : h.Takes [x.cursors.path]) {rule : Value}
    {result : Except Fault ActionResult}
    (executed : execute a lead rule (x, h) = (result, (y, k))) : Leaves a x h y k := by
  obtain ⟨found, x', h', run, performance⟩ := perform_run a lead x h
  have leaves := performance.leaves takes
  rw [execute_run, run] at executed
  cases found with
  | error fault =>
    cases executed
    exact leaves
  | ok outcome =>
    cases executed
    exact ⟨leaves.directory, leaves.cursors, leaves.host⟩

end Executor
end LeadRules
