import LeadRules.Proofs.Calls
import LeadRules.Proofs.Execution
import LeadRules.Proofs.Places

/-! Where an engine writes. Each of its stores writes at one path and stays there, so a file
that none of these paths touches stays as it is, whatever is asked of the engine and
whatever the disk refuses. -/
namespace LeadRules

/-- A store at a path, or in memory only, writes nothing at a place. -/
def Misses (path : Option FilePath) (place : Place) : Prop := ∀ q, path = some q → ¬q.Touches place

theorem StateFile.save_misses {path : Option FilePath} {place : Place}
    (misses : Misses path place) (v : Value) :
    Op.Spares place (save path v) := by
  cases path with
  | none => exact .still fun _ => rfl
  | some q => exact save_spares (misses q rfl) v

namespace Op

variable {σ α β : Type} {path : σ → Option FilePath}

def Stays (path : σ → Option FilePath) (op : StoreOp σ α) : Prop :=
  Within (fun s t => path t.1 = path s.1 ∧
    ∀ place, Misses (path s.1) place → FileTree.Spares place s.2.files t.2.files) op

namespace Stays

theorem trans {a b c : σ × Host}
    (first : path b.1 = path a.1 ∧ ∀ place, Misses (path a.1) place →
      FileTree.Spares place a.2.files b.2.files)
    (second : path c.1 = path b.1 ∧ ∀ place, Misses (path b.1) place →
      FileTree.Spares place b.2.files c.2.files) :
    path c.1 = path a.1 ∧ ∀ place, Misses (path a.1) place →
    FileTree.Spares place a.2.files c.2.files :=
  ⟨second.1.trans first.1, fun place misses => (first.2 place misses).trans
    (second.2 place (first.1.symm ▸ misses))⟩

theorem bind_result {op : StoreOp σ α} {next : α → StoreOp σ β} (first : Stays path op)
    (later : ∀ s a t, op s = (.ok a, t) → Stays path (next a)) : Stays path (op >>= next) :=
  Within.bind_result trans first later

theorem bind {op : StoreOp σ α} {next : α → StoreOp σ β} (first : Stays path op)
    (later : ∀ a, Stays path (next a)) :
    Stays path (op >>= next) := first.bind_result fun _ a _ _ => later a

theorem ite {c : Prop} [Decidable c] {first second : StoreOp σ α} (yes : Stays path first)
    (no : Stays path second) :
    Stays path (if c then first else second) := Within.ite yes no

/-- An operation that changes neither the path of a store nor the files. -/
theorem still {op : StoreOp σ α}
    (still : ∀ s, path (op s).2.1 = path s.1 ∧ (op s).2.2.files = s.2.files) : Stays path op := by
  intro s
  refine ⟨(still s).1, fun place _ => ?_⟩
  rw [(still s).2]
  exact .refl place s.2.files

theorem pure (a : α) : Stays path (Pure.pure a : StoreOp σ α) := .still fun _ => ⟨rfl, rfl⟩

theorem throw (fault : Fault) : Stays path (MonadExcept.throw fault : StoreOp σ α) :=
  .still fun _ => ⟨rfl, rfl⟩

theorem get : Stays path (MonadState.get : StoreOp σ (σ × Host)) := .still fun _ => ⟨rfl, rfl⟩

theorem store : Stays path (Op.store : StoreOp σ σ) := .still fun _ => ⟨rfl, rfl⟩

theorem log (level : LogLevel) (text : Text) :
    Stays path (onHost (Op.log level text) : StoreOp σ Unit) :=
  .still fun _ => ⟨rfl, rfl⟩

theorem drawing (op : Op IdSource α) : Stays path (onHost (Op.drawing op) : StoreOp σ α) :=
  .still fun _ => ⟨rfl, rfl⟩

theorem ofExcept (x : Except Fault α) : Stays path (Op.ofExcept x : StoreOp σ α) := by
  cases x with
  | error fault => exact .throw fault
  | ok a => exact .pure a

theorem attempt {op : StoreOp σ α} (stays : Stays path op) : Stays path op.attempt := stays

/-- What comes after a store was read runs on the store that was read. -/
theorem store_bind {next : σ → StoreOp σ β}
    (later : ∀ s : σ × Host, path (next s.1 s).2.1 = path s.1 ∧
      ∀ place, Misses (path s.1) place → FileTree.Spares place s.2.files (next s.1 s).2.2.files) :
    Stays path (Op.store >>= next) := later

end Stays
end Op

open Op (Stays)

theorem CursorStore.next_stays (d : Directory) (team : Text) :
    Stays CursorStore.path (next d team) := by
  have put (team : Text) (index : Int) : Stays CursorStore.path (CursorStore.put team index) :=
    .store_bind fun s => ⟨rfl, fun place misses => StateFile.save_misses misses _ s.2⟩
  exact .ite (.throw _)
    (.bind .store fun _ => .bind (put _ _) fun _ => .bind (.log _ _) fun _ => .pure _)

theorem Ledger.flush_stays : Stays Ledger.path flush := by
  rintro ⟨l, h⟩
  rw [flush_run]
  split
  · exact ⟨rfl, fun place _ => .refl place h.files⟩
  · obtain ⟨x, same, run⟩ := Op.saving_run l.path l.toWire { l with dirty := false } l (l, h)
    rw [run]
    refine ⟨?_, fun place misses => StateFile.save_misses misses l.toWire h⟩
    rcases same with rfl | rfl <;> rfl

namespace Executor

abbrev place? (x : Executor) : Option FilePath := x.cursors.path

theorem emit_stays (r : Request) : Stays place? (emit r) := by
  rintro ⟨x, h⟩
  obtain ⟨answer, y, k, run, emission⟩ := emit_run r x h
  obtain ⟨handed, noted⟩ := emission.frame
  rw [run]
  refine ⟨by rw [handed], fun place _ => ?_⟩
  rw [noted.files]
  exact .refl place h.files

theorem respected_stays : Respected fun s t => place? t.1 = place? s.1 ∧
    ∀ place, Misses (place? s.1) place → FileTree.Spares place s.2.files t.2.files where
  refl := Stays.get
  trans := Stays.trans
  turn d team s := CursorStore.next_stays d team (s.1.cursors, s.2)
  emit := emit_stays
  log := Stays.log

/-- To carry out an action writes nothing but the cursors. -/
theorem execute_stays (a : Action) (lead : Lead) (rule : Value) :
    Stays place? (execute a lead rule) := by
  have performed : Stays place? (perform a lead) := respected_stays.perform a lead
  refine .bind performed fun outcome => .bind .get fun s => .store_bind fun t => ?_
  exact ⟨rfl, fun place _ => .refl place t.2.files⟩

end Executor

namespace Repository

theorem save_stays : Stays Repository.path save := by
  refine .store_bind fun s => ?_
  rw [Op.run_bind, Op.run_ofExcept]
  cases s.1.toWire with
  | error fault => exact ⟨rfl, fun place _ => .refl place s.2.files⟩
  | ok v => exact ⟨rfl, fun place misses => StateFile.save_misses misses v s.2⟩

theorem put_stays (r : Rule) : Stays Repository.path (put r) :=
  fun s => save_stays ({ s.1 with rules := s.1.rules.put r.id r }, s.2)

theorem add_stays (r : Rule) : Stays Repository.path (add r) :=
  .bind .store fun _ => .ite (.throw _) (.bind (put_stays r) fun _ => .pure r)

theorem importRule_stays (v : Value) : Stays Repository.path (importRule v) :=
  .bind .get fun _ => .bind (.drawing _) fun r => add_stays r

theorem create_stays (name : Value) (trigger : Trigger) (action : Action)
    (conditions : List Condition)
    (description isEnabled : Value) :
    Stays Repository.path (create name trigger action conditions description isEnabled) := by
  refine .ite (.throw _) (.bind (.drawing _) fun id => .bind .get fun _ => ?_)
  exact .bind (put_stays _) fun _ => .bind (.log _ _) fun _ => .pure _

theorem update_stays (id : Text) (u : RuleUpdate) : Stays Repository.path (update id u) := by
  unfold update
  split
  · exact .throw _
  · refine .bind .store fun s => ?_
    split
    · exact .bind (.ofExcept _) fun parts => .bind .get fun _ =>
        .bind (put_stays _) fun _ => .pure _
    · exact .pure none

theorem remove_stays (id : Text) : Stays Repository.path (remove id) := by
  rintro ⟨s, h⟩
  have saved : Stays Repository.path (save >>= fun _ => Pure.pure true : StoreOp Repository Bool) :=
    .bind save_stays fun _ => .pure true
  rw [remove, Op.run_bind, Op.run_store]
  cases known : s.rules.contains id with
  | false => simpa [known] using fun place _ => FileTree.Spares.refl place h.files
  | true =>
    simp only [known, Bool.not_true, Bool.false_eq_true, if_false]
    exact saved ({ s with rules := s.rules.erase id }, h)

end Repository

namespace Engine

variable {e : Event} {r : Rule} {g g' : Engine} {h k : Host} {result : RuleResult}

/-- A turn writes nothing but the cursors. -/
theorem Turn.stays (turn : Turn e r g h result g' k) :
    g'.executor.cursors.path = g.executor.cursors.path ∧
    ∀ place, Misses g.executor.cursors.path place → FileTree.Spares place h.files k.files := by
  have quiet {h k : Host} (noted : h.Relogged k) (place : Place) :
      FileTree.Spares place h.files k.files := by
    rw [noted.files]
    exact .refl place h.files
  have executed {h₁ h₂ : Host} {x : Executor} {answer : Except Fault ActionResult}
    (before : h.Relogged h₁)
      (run : Executor.execute r.action e.lead (.text r.id) (g.executor, h₁) = (answer, (x, h₂)))
        (noted : h₂.Relogged k) :
      x.cursors.path = g.executor.cursors.path ∧
        ∀ place, Misses g.executor.cursors.path place → FileTree.Spares place h.files k.files := by
    have stays := Executor.execute_stays r.action e.lead (.text r.id) (g.executor, h₁)
    rw [run] at stays
    exact ⟨stays.1, fun place misses => ((quiet before place).trans (stays.2 place misses)).trans
      (quiet noted place)⟩
  cases turn with
  | exhausted full noted => exact ⟨rfl, fun place _ => quiet noted place⟩
  | quiet room still noted => exact ⟨rfl, fun place _ => quiet noted place⟩
  | unclear room fired unmet noted => exact ⟨rfl, fun place _ => quiet noted place⟩
  | unmet room fired unmet noted => exact ⟨rfl, fun place _ => quiet noted place⟩
  | repeated cleared known noted => exact ⟨rfl, fun place _ => quiet noted place⟩
  | broken cleared new before run noted => exact executed before run noted
  | unrecorded cleared new before run full noted => exact executed before run noted
  | acted cleared new before run room noted => exact executed before run noted

end Engine
end LeadRules
