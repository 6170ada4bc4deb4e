import LeadRules.Host

/-! What an operation comes to when it runs on a state: its result beside the state it leaves. The
host an operation leaves may differ in its log alone; `Relogged` says so. -/
namespace LeadRules

namespace Op

variable {σ τ α β : Type}

@[simp] theorem run_pure (a : α) (s : σ) : (pure a : Op σ α) s = (.ok a, s) := rfl
@[simp] theorem run_throw (f : Fault) (s : σ) : (throw f : Op σ α) s = (.error f, s) := rfl
@[simp] theorem run_get (s : σ) : (get : Op σ σ) s = (.ok s, s) := rfl
@[simp] theorem run_set (t s : σ) : (set t : Op σ PUnit) s = (.ok ⟨⟩, t) := rfl
@[simp] theorem run_modify (f : σ → σ) (s : σ) : (modify f : Op σ PUnit) s = (.ok ⟨⟩, f s) := rfl

/-- What comes after a failure does not run, and the state stays as the failure left it. -/
theorem run_bind (op : Op σ α) (next : α → Op σ β) (s : σ) :
    (op >>= next) s = match op s with
      | (.ok a, t) => next a t
      | (.error e, t) => (.error e, t) := by
  show (ExceptT.bindCont next (op s).1) (op s).2 = _
  rcases op s with ⟨_ | _, _⟩ <;> rfl

/-- Where a sequence came to a result, both of its parts did. -/
theorem ok_of_bind {op : Op σ α} {next : α → Op σ β} {s t : σ} {b : β}
    (run : (op >>= next) s = (.ok b, t)) :
    ∃ a u, op s = (.ok a, u) ∧ next a u = (.ok b, t) := by
  rw [run_bind] at run
  rcases first : op s with ⟨fault | a, u⟩
  · rw [first] at run
    cases (Prod.mk.inj run).1
  · rw [first] at run
    exact ⟨a, u, rfl, run⟩

theorem run_ite (c : Prop) [Decidable c] (first second : Op σ α) (s : σ) :
    (if c then first else second) s = if c then first s else second s := by
  split <;> rfl

@[simp] theorem run_attempt (op : Op σ α) (s : σ) : op.attempt s = (.ok (op s).1, (op s).2) := rfl

@[simp] theorem run_onPart (part : σ → τ) (put : σ → τ → σ) (op : Op τ α) (s : σ) :
    op.onPart part put s = ((op (part s)).1, put s (op (part s)).2) := rfl

@[simp] theorem run_ofExcept (x : Except Fault α) (s : σ) : (ofExcept x : Op σ α) s = (x, s) := by
  cases x <;> rfl

@[simp] theorem run_log (level : LogLevel) (text : Text) (h : Host) :
    log level text h = (.ok (), h.note level text) := rfl

@[simp] theorem run_drawing (op : Op IdSource α) (h : Host) :
    drawing op h = ((op h.ids).1, { h with ids := (op h.ids).2 }) := rfl

@[simp] theorem run_store (s : σ × Host) : (store : StoreOp σ σ) s = (.ok s.1, s) := rfl

@[simp] theorem run_setStore (x : σ) (s : σ × Host) : setStore x s = (.ok (), (x, s.2)) := rfl

@[simp] theorem run_onHost (op : Op Host α) (s : σ × Host) :
    (onHost op : StoreOp σ α) s = ((op s.2).1, (s.1, (op s.2).2)) := rfl

/-- Whatever an operation finds, what it leaves stands in a relation to it. -/
def Within (R : σ → σ → Prop) (op : Op σ α) : Prop := ∀ s, R s (op s).2

theorem Within.bind_result {R : σ → σ → Prop} {op : Op σ α} {next : α → Op σ β}
    (trans : ∀ {a b c}, R a b → R b c → R a c) (first : Within R op)
    (later : ∀ s a t, op s = (.ok a, t) → Within R (next a)) : Within R (op >>= next) := by
  intro s
  have step := first s
  rw [run_bind]
  revert step
  rcases run : op s with ⟨fault | a, t⟩
  · exact id
  · exact fun step => trans step (later s a t run t)

theorem Within.bind {R : σ → σ → Prop} {op : Op σ α} {next : α → Op σ β}
    (trans : ∀ {a b c}, R a b → R b c → R a c) (first : Within R op)
    (later : ∀ a, Within R (next a)) :
    Within R (op >>= next) := first.bind_result trans fun _ a _ _ => later a

theorem Within.ite {R : σ → σ → Prop} {c : Prop} [Decidable c] {first second : Op σ α}
    (yes : Within R first) (no : Within R second) : Within R (if c then first else second) := by
  split
  · exact yes
  · exact no

def Keeps (I : σ → Prop) (op : Op σ α) : Prop := Within (fun s t => I s → I t) op

namespace Keeps

variable {I : σ → Prop}

theorem pure (a : α) : Keeps I (Pure.pure a : Op σ α) := fun _ => id
theorem throw (f : Fault) : Keeps I (MonadExcept.throw f : Op σ α) := fun _ => id
theorem get : Keeps I (MonadState.get : Op σ σ) := fun _ => id

theorem ofExcept (x : Except Fault α) : Keeps I (Op.ofExcept x : Op σ α) := by
  intro s
  rw [run_ofExcept]
  exact id

theorem bind_result {op : Op σ α} {next : α → Op σ β} (first : Keeps I op)
    (later : ∀ s a t, op s = (.ok a, t) → Keeps I (next a)) : Keeps I (op >>= next) :=
  Within.bind_result (fun first second kept => second (first kept)) first later

theorem bind {op : Op σ α} {next : α → Op σ β} (first : Keeps I op)
    (later : ∀ a, Keeps I (next a)) :
    Keeps I (op >>= next) := first.bind_result fun _ a _ _ => later a

theorem attempt {op : Op σ α} (keeps : Keeps I op) : Keeps I op.attempt := keeps

theorem ite {c : Prop} [Decidable c] {first second : Op σ α} (yes : Keeps I first)
    (no : Keeps I second) :
    Keeps I (if c then first else second) := Within.ite yes no

end Keeps

end Op

/-- Whatever a check lets through has a property. -/
def Admits {ε α : Type} (P : α → Prop) (x : Except ε α) : Prop := ∀ a, x = .ok a → P a

namespace Admits

variable {ε α β : Type} {P : β → Prop}

theorem ok {b : β} (holds : P b) : Admits P (.ok b : Except ε β) := by
  rintro _ ⟨⟩
  exact holds

theorem error (e : ε) : Admits P (.error e : Except ε β) := by
  rintro _ ⟨⟩

theorem bind {x : Except ε α} {next : α → Except ε β} (later : ∀ a, x = .ok a → Admits P (next a)) :
    Admits P (x >>= next) := by
  cases x with
  | error e => exact .error e
  | ok a => exact later a rfl

theorem ite {c : Prop} [Decidable c] {first second : Except ε β} (yes : c → Admits P first)
    (no : ¬c → Admits P second) :
    Admits P (if c then first else second) := by
  split
  next holds => exact yes holds
  next fails => exact no fails

end Admits

def Raises {α : Type} (P : Fault → Prop) (x : Except Fault α) : Prop :=
  ∀ fault, x = .error fault → P fault

namespace Raises

variable {α β : Type} {P Q : Fault → Prop}

theorem ok (a : α) : Raises P (.ok a : Except Fault α) := nofun

theorem error {fault : Fault} (holds : P fault) : Raises P (.error fault : Except Fault α) := by
  rintro _ ⟨⟩
  exact holds

theorem bind_result {x : Except Fault α} {next : α → Except Fault β} (first : Raises P x)
    (later : ∀ a, x = .ok a → Raises P (next a)) : Raises P (x >>= next) := by
  cases x with
  | ok a => exact later a rfl
  | error fault => exact error (first fault rfl)

theorem bind {x : Except Fault α} {next : α → Except Fault β} (first : Raises P x)
    (later : ∀ a, Raises P (next a)) :
    Raises P (x >>= next) := first.bind_result fun a _ => later a

theorem ite {c : Prop} [Decidable c] {first second : Except Fault α} (yes : c → Raises P first)
    (no : ¬c → Raises P second) :
    Raises P (if c then first else second) := by
  split
  next holds => exact yes holds
  next fails => exact no fails

theorem mono {x : Except Fault α} (raises : Raises P x)
    (weaker : ∀ fault, P fault → Q fault) : Raises Q x :=
  fun fault failed => weaker fault (raises fault failed)

end Raises

def Op.Raises {σ α : Type} (P : Fault → Prop) (op : Op σ α) : Prop :=
  ∀ s, LeadRules.Raises P (op s).1

namespace Op.Raises

variable {σ α β : Type} {P : Fault → Prop}

theorem pure (a : α) : Raises P (Pure.pure a : Op σ α) := fun _ => .ok a

theorem throw {fault : Fault} (holds : P fault) : Raises P (MonadExcept.throw fault : Op σ α) :=
  fun _ => .error holds

theorem ofExcept {x : Except Fault α} (raises : LeadRules.Raises P x) :
    Raises P (Op.ofExcept x : Op σ α) := by
  intro s
  rw [run_ofExcept]
  exact raises

theorem bind_result {op : Op σ α} {next : α → Op σ β} (first : Raises P op)
    (later : ∀ s a t, op s = (.ok a, t) → Raises P (next a)) : Raises P (op >>= next) := by
  intro s
  have step := first s
  rw [run_bind]
  revert step
  rcases run : op s with ⟨fault | a, t⟩
  · exact fun step => .error (step fault rfl)
  · exact fun _ => later s a t run t

theorem bind {op : Op σ α} {next : α → Op σ β} (first : Raises P op)
    (later : ∀ a, Raises P (next a)) :
    Raises P (op >>= next) := first.bind_result fun _ a _ _ => later a

theorem ofExcept_bind {x : Except Fault α} {next : α → Op σ β} (first : LeadRules.Raises P x)
    (later : ∀ a, x = .ok a → Raises P (next a)) : Raises P (Op.ofExcept x >>= next) :=
  (ofExcept first).bind_result fun s a _ run =>
    later a (congrArg Prod.fst ((run_ofExcept x s).symm.trans run))

/-- What is attempted fails with nothing itself, but its failure may be raised again. -/
theorem attempt_bind {op : Op σ α} {next : Except Fault α → Op σ β} (first : Raises P op)
    (later : ∀ x, LeadRules.Raises P x → Raises P (next x)) : Raises P (op.attempt >>= next) := by
  intro s
  rw [run_bind, run_attempt]
  exact later (op s).1 (first s) (op s).2

theorem ite {c : Prop} [Decidable c] {first second : Op σ α} (yes : c → Raises P first)
    (no : ¬c → Raises P second) :
    Raises P (if c then first else second) := by
  split
  next holds => exact yes holds
  next fails => exact no fails

end Op.Raises

namespace Host

/-- The second host is the first one but for its log. -/
def Relogged (a b : Host) : Prop := b = { a with log := b.log }

namespace Relogged

@[refl] theorem refl (h : Host) : Relogged h h := rfl

theorem trans {a b c : Host} (first : Relogged a b) (second : Relogged b c) : Relogged a c := by
  rw [Relogged, second, first]

theorem note (level : LogLevel) (text : Text) (h : Host) : Relogged h (h.note level text) := rfl

theorem noteAll (level : LogLevel) (texts : List Text) (h : Host) :
    Relogged h (h.noteAll level texts) := by
  induction texts generalizing h with
  | nil => exact refl h
  | cons text rest ih => exact (note level text h).trans (ih (h.note level text))

theorem now {a b : Host} (h : Relogged a b) : b.now = a.now := by rw [h]
theorem ids {a b : Host} (h : Relogged a b) : b.ids = a.ids := by rw [h]
theorem files {a b : Host} (h : Relogged a b) : b.files = a.files := by rw [h]
theorem refusals {a b : Host} (h : Relogged a b) : b.refusals = a.refusals := by rw [h]

end Relogged
end Host
end LeadRules
