import LeadRules.Proofs.Delivery
import LeadRules.Proofs.Repositories

/-! What may be asked of an engine from outside, in any order, and what all of it keeps: a rule is
stored under its own identifier, and only events touch the executor and the ledger. -/
namespace LeadRules

theorem DateTime.limit_pos : 0 < limit := by decide

def DateTime.first : DateTime := ⟨0, limit_pos⟩

namespace Engine

inductive Call where
  | event (e : Event)
  | create (name : Value) (trigger : Trigger) (action : Action) (conditions : List Condition)
      (description isEnabled : Value)
  | add (r : Rule)
  | importRule (v : Value)
  | update (id : Text) (u : RuleUpdate)
  | setEnabled (id : Text) (enabled : Bool)
  | delete (id : Text)

def Call.isEdit : Call → Bool
  | event _ => false
  | _ => true

def call : Call → StoreOp Engine Unit
  | .event e => do let _ ← onEvent e
  | .create name trigger action conditions description isEnabled => do
    let _ ← onRules (Repository.create name trigger action conditions description isEnabled)
  | .add r => do let _ ← onRules (Repository.add r)
  | .importRule v => do let _ ← onRules (Repository.importRule v)
  | .update id u => do let _ ← onRules (Repository.update id u)
  | .setEnabled id enabled => do let _ ← onRules (Repository.setEnabled id enabled)
  | .delete id => do let _ ← deleteRule id

/-- The engine that a call leaves behind, also when it fails. -/
def after (c : Call) (g : Engine) (h : Host) : Engine := (call c (g, h)).2.1

/-- The engines that calls lead to, in any order and on any host, from rules that were loaded or
none. -/
inductive Reached : Engine → Prop
  | opened {g : Engine} (loaded : List Rule)
      (start : g.rules.rules = .ofList (loaded.map fun r => (r.id, r))) : Reached g
  | after {g : Engine} (reached : Reached g) (c : Call) (h : Host) : Reached (after c g h)

/-- What a call that is no event leaves alone, and that it keeps the rules keyed. -/
structure Aside (a b : Engine) : Prop where
  executor : b.executor = a.executor
  catalog : b.catalog = a.catalog
  ledger : b.ledger = a.ledger
  keyed : a.rules.Keyed → b.rules.Keyed

theorem Aside.refl (g : Engine) : Aside g g := ⟨rfl, rfl, rfl, id⟩

theorem Aside.trans {a b c : Engine} (first : Aside a b) (second : Aside b c) : Aside a c :=
  ⟨second.executor.trans first.executor, second.catalog.trans first.catalog,
    second.ledger.trans first.ledger, fun keyed => second.keyed (first.keyed keyed)⟩

variable {α : Type} {e : Event} {r : Rule} {g g' : Engine} {h k : Host}

theorem onRules_aside {op : StoreOp Repository α} (keeps : Repository.Keeps Repository.Keyed op) :
    Op.Within (fun s t : Engine × Host => Aside s.1 t.1) (onRules op) :=
  fun s => ⟨rfl, rfl, rfl, keeps (s.1.rules, s.2)⟩

theorem onRules_only_aside {op : StoreOp Repository α}
    (keeps : Repository.Keeps Repository.Keyed op) :
    Op.Within (fun s t : Engine × Host => Aside s.1 t.1) (do let _ ← onRules op) :=
  .bind Aside.trans (onRules_aside keeps) fun _ s => .refl s.1

theorem onEdges_aside (op : StoreOp EdgeStore α) :
    Op.Within (fun s t : Engine × Host => Aside s.1 t.1) (onEdges op) :=
      fun _ => ⟨rfl, rfl, rfl, id⟩

theorem deleteRule_aside (id : Text) :
    Op.Within (fun s t : Engine × Host => Aside s.1 t.1) (deleteRule id) := by
  refine .bind Aside.trans (onRules_aside (Repository.keyed_lasting.remove_keeps id))
    fun removed => ?_
  refine .ite (fun s => .refl s.1) (.bind Aside.trans (onEdges_aside _) fun _ => ?_)
  exact .bind Aside.trans (fun s => .refl s.1) fun _ s => .refl s.1

theorem call_aside {c : Call} (edit : c.isEdit = true) :
    Op.Within (fun s t : Engine × Host => Aside s.1 t.1) (call c) := by
  cases c with
  | event e => cases edit
  | create name trigger action conditions description isEnabled =>
    apply onRules_only_aside
    exact Repository.keyed_lasting.create_keeps
      (fun _ => trivial) name trigger action conditions description isEnabled
  | add r => exact onRules_only_aside (Repository.keyed_lasting.add_keeps (r := r) trivial)
  | importRule v =>
    exact onRules_only_aside (Repository.keyed_lasting.importRule_keeps (fun _ => trivial) v)
  | update id u => exact onRules_only_aside (Repository.keyed_lasting.update_keeps id u)
  | setEnabled id enabled =>
    apply onRules_only_aside
    exact .bind (Repository.keyed_lasting.update_keeps id _) fun _ => .pure _
  | delete id => exact .bind Aside.trans (deleteRule_aside id) fun _ s => .refl s.1

theorem Delivery.frame {x : Except Fault EventOutcome} (delivery : Delivery e g h x g' k) :
    g'.rules = g.rules ∧ g'.catalog = g.catalog := by
  cases delivery with
  | unordered chosen => exact ⟨rfl, rfl⟩
  | idle chosen noted => exact ⟨rfl, rfl⟩
  | unsaved chosen some turns flushed =>
    have written := flushed_of_flush flushed
    exact ⟨written.rules.trans turns.frame.1, written.catalog.trans turns.frame.2⟩
  | taken chosen some turns flushed noted =>
    have written := flushed_of_flush flushed
    exact ⟨written.rules.trans turns.frame.1, written.catalog.trans turns.frame.2⟩

theorem after_event (e : Event) (g : Engine) (h : Host) :
    after (.event e) g h = (onEvent e (g, h)).2.1 := by
  simp only [after, call, Op.run_bind]
  rcases onEvent e (g, h) with ⟨_ | _, s⟩ <;> rfl

theorem Reached.keyed (reached : Reached g) : g.rules.Keyed := by
  induction reached with
  | @opened g loaded start =>
    have rules :
        g.rules = { path := g.rules.path, rules := .ofList (loaded.map fun r => (r.id, r)) } := by
      rw [← start]
    rw [rules]
    exact Repository.keyed_ofList g.rules.path loaded
  | @after g reached c h keyed =>
    cases edit : c.isEdit with
    | true => exact (call_aside edit (g, h)).keyed keyed
    | false =>
      cases c with
      | event e =>
        obtain ⟨x, g', k, run, delivery⟩ := onEvent_delivery e g h
        rw [after_event, run]
        exact delivery.frame.1 ▸ keyed
      | _ => cases edit

def blank : Engine := { executor := { directory := {}, cursors := {} } }

def tagging : Rule := {
  id := "tag", name := .text "tag", trigger := .taskCompleted, action := .addTag "active"
  createdAt := .ofDateTime .first, updatedAt := .ofDateTime .first }

def completion : Event :=
  { id := "e1", lead := { id := "L1" }, occurredAt := .first, occurrence := .taskCompleted .null }

end Engine

def Host.still : Host := { now := .first }

end LeadRules
