import LeadRules.Proofs.Turn

/-! How an event goes through an engine: its rules are chosen, take their turns, and the stores are
written. Writing changes no entry of a store, only whether the file may lack some. -/
namespace LeadRules

namespace Op

/-- Writes the file of a store, which counts as clean from then on. A store whose file is
refused stays as it was. -/
def saving {σ : Type} (path : Option FilePath) (v : Value) (clean stale : σ) : StoreOp σ Unit := do
  setStore clean
  match ← (onHost (StateFile.save path v)).attempt with
  | .ok _ => return
  | .error fault =>
    if fault matches .file _ then setStore stale
    throw fault

variable {σ : Type}

theorem saving_run (path : Option FilePath) (v : Value) (clean stale : σ) (s : σ × Host) :
    ∃ x, (x = clean ∨ x = stale) ∧
    saving path v clean stale s =
      ((StateFile.save path v s.2).1, (x, (StateFile.save path v s.2).2)) := by
  simp only [saving, run_bind, run_setStore, run_attempt, run_onHost]
  rcases StateFile.save path v s.2 with ⟨fault | _, k⟩
  · simp only [run_bind, run_ite, run_setStore, run_throw]
    split
    · exact ⟨stale, .inr rfl, rfl⟩
    · exact ⟨clean, .inl rfl, rfl⟩
  · exact ⟨clean, .inl rfl, rfl⟩

theorem saving_saved {path : Option FilePath} {v : Value} {clean stale : σ}
    {s : σ × Host} {k : Host}
    (saved : StateFile.save path v s.2 = (.ok (), k)) :
    saving path v clean stale s = (.ok (), (clean, k)) := by
  simp only [saving, run_bind, run_setStore, run_attempt, run_onHost, saved, run_pure]

theorem saving_refused {path : Option FilePath} {v : Value} {clean stale : σ} {s : σ × Host}
    {k : Host} {f : FileFault}
    (refused : StateFile.save path v s.2 = (.error (.file f), k)) :
    saving path v clean stale s = (.error (.file f), (stale, k)) := by
  simp only [saving, run_bind, run_setStore, run_attempt, run_onHost, refused, run_ite, run_throw]
  rfl

end Op

theorem EdgeStore.flush_run (s : EdgeStore) (h : Host) : flush (s, h) =
    if s.path.isNone || !s.dirty then (.ok (), (s, h))
    else Op.saving s.path s.toWire { s with dirty := false } s (s, h) := by
  rw [flush, Op.run_bind, Op.run_store]
  exact Op.run_ite ..

theorem Ledger.flush_run (l : Ledger) (h : Host) : flush (l, h) =
    if l.path.isNone || !l.dirty then (.ok (), (l, h))
    else Op.saving l.path l.toWire { l with dirty := false } l (l, h) := by
  rw [flush, Op.run_bind, Op.run_store]
  exact Op.run_ite ..

def EdgeStore.Flushed (a b : EdgeStore) : Prop := b = { a with dirty := b.dirty }

def Ledger.Flushed (a b : Ledger) : Prop := b = { a with dirty := b.dirty }

theorem EdgeStore.flush_frame (s : EdgeStore) (h : Host) : s.Flushed (flush (s, h)).2.1 := by
  rw [flush_run]
  split
  · rfl
  · obtain ⟨x, rfl | rfl, run⟩ := Op.saving_run s.path s.toWire { s with dirty := false } s (s, h)
    · rw [run]; rfl
    · rw [run]; rfl

theorem Ledger.flush_frame (l : Ledger) (h : Host) : l.Flushed (flush (l, h)).2.1 := by
  rw [flush_run]
  split
  · rfl
  · obtain ⟨x, rfl | rfl, run⟩ := Op.saving_run l.path l.toWire { l with dirty := false } l (l, h)
    · rw [run]; rfl
    · rw [run]; rfl

namespace Engine

/-- The second engine is the first one but for what the files of its stores may lack. -/
structure Flushed (a b : Engine) : Prop where
  rules : b.rules = a.rules
  executor : b.executor = a.executor
  catalog : b.catalog = a.catalog
  edges : a.edges.Flushed b.edges
  ledger : a.ledger.Flushed b.ledger

namespace Flushed

variable {a b c : Engine}

theorem refl (g : Engine) : Flushed g g := ⟨rfl, rfl, rfl, rfl, rfl⟩

theorem trans (first : Flushed a b) (second : Flushed b c) : Flushed a c where
  rules := second.rules.trans first.rules
  executor := second.executor.trans first.executor
  catalog := second.catalog.trans first.catalog
  edges := by rw [EdgeStore.Flushed, second.edges, first.edges]
  ledger := by rw [Ledger.Flushed, second.ledger, first.ledger]

theorem states (flushed : Flushed a b) : b.edges.states = a.edges.states := by rw [flushed.edges]
theorem processed (flushed : Flushed a b) : b.ledger.processed = a.ledger.processed := by
  rw [flushed.ledger]
theorem maxEntries (flushed : Flushed a b) : b.ledger.maxEntries = a.ledger.maxEntries := by
  rw [flushed.ledger]

end Flushed

theorem flushStore_state (path : Option FilePath) (op : StoreOp Engine Unit)
    (g : Engine) (h : Host) :
    (flushStore path op (g, h)).2.1 = (op (g, h)).2.1 := by
  unfold flushStore
  simp only [Op.run_bind, Op.run_attempt]
  rcases op (g, h) with ⟨fault | _, g', k⟩
  · cases fault <;> rfl
  · rfl

theorem flushStore_ok {path : Option FilePath} {op : StoreOp Engine Unit} {s t : Engine × Host}
    (done : op s = (.ok (), t)) : flushStore path op s = (.ok (), t) := by
  simp only [flushStore, Op.run_bind, Op.run_attempt, done, Op.run_pure]

theorem flush_frame : Op.Within (fun s t : Engine × Host => Flushed s.1 t.1) flush := by
  have store :
      Op.Within (fun s t : Engine × Host => Flushed s.1 t.1) (Op.store : StoreOp Engine Engine) :=
    fun s => .refl s.1
  have written (path : Option FilePath) (op : StoreOp Engine Unit)
      (within : Op.Within (fun s t : Engine × Host => Flushed s.1 t.1) op) :
      Op.Within (fun s t : Engine × Host => Flushed s.1 t.1) (flushStore path op) := by
    rintro ⟨g, h⟩
    rw [flushStore_state]
    exact within (g, h)
  have edges (path : Option FilePath) := written path (onEdges EdgeStore.flush) fun s =>
    ⟨rfl, rfl, rfl, EdgeStore.flush_frame s.1.edges s.2, rfl⟩
  have ledger (path : Option FilePath) := written path (onLedger Ledger.flush) fun s =>
    ⟨rfl, rfl, rfl, rfl, Ledger.flush_frame s.1.ledger s.2⟩
  refine .bind Flushed.trans store fun g => ?_
  refine .bind Flushed.trans (edges g.edges.path) fun _ => ?_
  exact .bind Flushed.trans store fun g => ledger g.ledger.path

theorem flushed_of_flush {g g' : Engine} {h k : Host} {x : Except Fault Unit}
    (run : flush (g, h) = (x, (g', k))) : Flushed g g' := by
  simpa only [run] using flush_frame (g, h)

inductive Delivery (e : Event) (g : Engine) (h : Host) :
    Except Fault EventOutcome → Engine → Host → Prop
  | unordered {fault : Fault} (chosen : g.rules.rulesFor e.kind.trigger = .error fault) :
      Delivery e g h (.error fault) g h
  | idle {k : Host} (chosen : g.rules.rulesFor e.kind.trigger = .ok []) (noted : h.Relogged k) :
      Delivery e g h (.ok ⟨e.id, e.lead.id, e.kind, []⟩) g k
  | unsaved {rules : List Rule} {outcomes : List RuleOutcome} {g₁ g₂ : Engine} {h₁ h₂ : Host}
      {fault : Fault}
      (chosen : g.rules.rulesFor e.kind.trigger = .ok rules) (some : rules.isEmpty = false)
      (turns : Turns e rules g h outcomes g₁ h₁)
        (flushed : flush (g₁, h₁) = (.error fault, (g₂, h₂))) :
      Delivery e g h (.error fault) g₂ h₂
  | taken {rules : List Rule} {outcomes : List RuleOutcome} {g₁ g₂ : Engine} {h₁ h₂ k : Host}
      (chosen : g.rules.rulesFor e.kind.trigger = .ok rules) (some : rules.isEmpty = false)
      (turns : Turns e rules g h outcomes g₁ h₁) (flushed : flush (g₁, h₁) = (.ok (), (g₂, h₂)))
      (noted : h₂.Relogged k) : Delivery e g h (.ok ⟨e.id, e.lead.id, e.kind, outcomes⟩) g₂ k

theorem onEvent_delivery (e : Event) (g : Engine) (h : Host) :
    ∃ x g' k, onEvent e (g, h) = (x, (g', k)) ∧ Delivery e g h x g' k := by
  unfold onEvent
  simp only [Op.run_bind, Op.run_store, Op.run_ofExcept]
  cases chosen : g.rules.rulesFor e.kind.trigger with
  | error fault => exact ⟨_, _, _, rfl, .unordered chosen⟩
  | ok rules =>
    cases rules with
    | nil => exact ⟨_, _, _, rfl, .idle chosen (.note ..)⟩
    | cons r rest =>
      obtain ⟨outcomes, g₁, h₁, run, turns⟩ := outcomesOf_turns e (r :: rest) g h
      simp only [List.isEmpty_cons, Bool.false_eq_true, if_false, Op.run_bind, run]
      rcases flushed : flush (g₁, h₁) with ⟨fault | _, g₂, h₂⟩
      · exact ⟨_, _, _, rfl, .unsaved chosen rfl turns flushed⟩
      · have taken (k : Host) (noted : h₂.Relogged k) :=
          Delivery.taken chosen rfl turns flushed noted
        simp only [Op.run_ite, Op.run_bind, Op.run_onHost, Op.run_log, Op.run_pure]
        split
        · exact ⟨_, _, _, rfl, taken _ (.note ..)⟩
        · exact ⟨_, _, _, rfl, taken _ (.refl _)⟩

end Engine
end LeadRules
