import LeadRules.CommandLine.Run
import LeadRules.Proofs.Execution
import LeadRules.Proofs.Files
import LeadRules.Proofs.Stores
import LeadRules.Proofs.Twins
import Mathlib.Logic.Function.Basic

/-! Stores that are kept in a folder. What a file lacks of its store the store knows of, and
whatever an engine does keeps it so; once an event was taken no file lacks anything. -/
namespace LeadRules

open CommandLine (rulesFile cursorsFile edgesFile ledgerFile)

namespace StateFile

def written : List Text := [cursorsFile, edgesFile, ledgerFile]

theorem cursorsFile_mem : ↑cursorsFile ∈ written := List.mem_cons_self
theorem edgesFile_mem : ↑edgesFile ∈ written := List.mem_cons_of_mem _ List.mem_cons_self
theorem ledgerFile_mem : ↑ledgerFile ∈ written :=
  List.mem_cons_of_mem _ (List.mem_cons_of_mem _ List.mem_cons_self)

abbrev Contents := Text → Option FileNode

/-- A host at some time on which all files of a folder can be saved, and what stands there. -/
structure Shelf (p : FilePath) (d : Place) (now : DateTime) (c : Contents) (h : Host) : Prop where
  now : h.now = now
  sound : true ∉ h.refusals
  sites : ∀ name ∈ written, Site h.files p d name
  fits : (p.below rulesFile).Fits
  nodes : ∀ name ∈ ↑rulesFile :: written, h.files.nodes.get? (d.named name) = c name

theorem names_apart : ∀ name ∈ written, ∀ other ∈ ↑rulesFile :: written,
    (other ≠ name → other.bytes ≠ name.bytes) ∧ other.bytes ≠ (beside name).bytes := by
  decide +kernel

/-- What stands for a value in its file: its text, or nothing as long as the default does as well.
-/
def Backs (default : Value) (node : Option FileNode) (v : Value) : Prop :=
  node = some (.file (Json.writeIndented v)) ∨ (node = none ∧ v = default)

variable {p : FilePath} {d : Place} {now : DateTime} {c : Contents} {h k : Host}
  {name : Text} {v : Value}

namespace Shelf

theorem relogged (shelf : Shelf p d now c h) (noted : h.Relogged k) : Shelf p d now c k := by
  have files := noted.files
  have refusals := noted.refusals
  exact {
    now := noted.now.trans shelf.now
    sound := refusals ▸ shelf.sound
    sites := files ▸ shelf.sites
    fits := shelf.fits
    nodes := files ▸ shelf.nodes }

theorem find_rules (shelf : Shelf p d now c h) :
    h.files.find (p.below rulesFile) = .ok (d.named rulesFile, c rulesFile) := by
  have stands := (shelf.sites cursorsFile cursorsFile_mem).stands
  rw [FileTree.find_below stands shelf.fits ⟨by decide +kernel, by decide +kernel⟩,
    shelf.nodes _ List.mem_cons_self]

theorem save (shelf : Shelf p d now c h) (member : name ∈ written) (v : Value) :
    ∃ k, StateFile.save (some (p.below name)) v h = (.ok (), k) ∧
      Shelf p d now (Function.update c name (some (.file (Json.writeIndented v)))) k := by
  refine ⟨_, save_run (shelf.sites name member) shelf.sound v, ?_⟩
  have site := shelf.sites name member
  refine { shelf with sound := ?_, sites := ?_, nodes := ?_ }
  · intro refused
    exact shelf.sound (List.mem_of_mem_tail (List.mem_of_mem_tail
      (List.mem_of_mem_tail (List.mem_of_mem_tail refused))))
  · exact fun other there => (shelf.sites other there).saved site _
  · intro other there
    have apart := names_apart name member other there
    show (saved h.files d name _).nodes.get? _ = _
    rw [get?_saved, Function.update_apply, if_neg (Place.named_ne apart.2), shelf.nodes other there]
    by_cases same : other = name
    · rw [if_pos (congrArg d.named same), if_pos same]
    · rw [if_neg (Place.named_ne (apart.1 same)), if_neg same]

theorem saving {σ : Type} (shelf : Shelf p d now c h) (member : name ∈ written) (v : Value)
    (x clean stale : σ) :
    ∃ k, Op.saving (some (p.below name)) v clean stale (x, h) = (.ok (), (clean, k)) ∧
      Shelf p d now (Function.update c name (some (.file (Json.writeIndented v)))) k := by
  obtain ⟨k, saved, shelf⟩ := shelf.save member v
  exact ⟨k, Op.saving_saved saved, shelf⟩

/-- A flush leaves a clean store, and its file as it was or with all that the store has to write. -/
theorem flush {σ : Type} (shelf : Shelf p d now c h) (member : name ∈ written)
    {op : StoreOp σ Unit} {x clean : σ}
    {path : Option FilePath} {dirty : Bool} (place : path = some (p.below name))
    (same : dirty = false → clean = x)
    (run : op (x, h) =
      if path.isNone || !dirty then (.ok (), (x, h)) else Op.saving path v clean x (x, h)) :
    ∃ node k, op (x, h) = (.ok (), (clean, k)) ∧ Shelf p d now (Function.update c name node) k ∧
      ((node = c name ∧ dirty = false) ∨ node = some (.file (Json.writeIndented v))) := by
  subst place
  cases dirty with
  | false =>
    obtain rfl := same rfl
    refine ⟨c name, h, run, ?_, .inl ⟨rfl, rfl⟩⟩
    rwa [Function.update_eq_self]
  | true =>
    obtain ⟨k, saved, shelf⟩ := shelf.saving member v x clean x
    exact ⟨_, k, run.trans saved, shelf, .inr rfl⟩

theorem load (shelf : Shelf p d now c h) (member : name ∈ written) {default : Value}
    (backs : Backs default (c name) v) (back : ReadsBack v) :
    StateFile.load (some (p.below name)) default h = (.ok v, h) := by
  have site := shelf.sites name member
  have found := FileTree.find_below site.stands site.fits site.nameable
  rw [shelf.nodes name (List.mem_cons_of_mem _ member)] at found
  rcases backs with text | ⟨absent, rfl⟩
  · rw [text] at found
    exact load_written found back default
  · rw [absent] at found
    exact load_absent found v

end Shelf

def Shelved {σ : Type} (p : FilePath) (d : Place) (now : DateTime) (c : Contents) (name : Text)
    (Backed : Option FileNode → σ → Prop) (s : σ × Host) : Prop :=
  ∃ node, Shelf p d now (Function.update c name node) s.2 ∧ Backed node s.1

namespace Shelved

variable {σ : Type} {B : Option FileNode → σ → Prop}

theorem log_keeps (level : LogLevel) (text : Text) :
    Op.Keeps (Shelved p d now c name B) (Op.onHost (Op.log level text)) := by
  rintro s ⟨node, shelf, backed⟩
  exact ⟨node, shelf.relogged (.note level text s.2), backed⟩

end Shelved
end StateFile

open StateFile (Backs Contents ReadsBack Shelf Shelved cursorsFile_mem edgesFile_mem ledgerFile_mem)

/-! Cursors are saved with every step. -/
namespace CursorStore

structure Backed (p : FilePath) (node : Option FileNode) (s : CursorStore) : Prop where
  path : s.path = some (p.below cursorsFile)
  held : Backs (.map []) node s.toWire

variable {p : FilePath} {d : Place} {now : DateTime} {c : Contents}

theorem put_keeps (team : Text) (index : Int) :
    Op.Keeps (Shelved p d now c cursorsFile (Backed p)) (put team index) := by
  rintro ⟨s, h⟩ ⟨node, shelf, backed⟩
  let moved : CursorStore := { s with cursors := s.cursors.put team index }
  obtain ⟨k, run, shelf⟩ := shelf.save cursorsFile_mem moved.toWire
  rw [Function.update_idem] at shelf
  have state : (put team index (s, h)).2 = (moved, (StateFile.save s.path moved.toWire h).2) := rfl
  rw [state, backed.path, run]
  exact ⟨_, shelf, backed.path, .inl rfl⟩

/-- A store is opened as it was saved. -/
theorem Backed.load {s : CursorStore} {h : Host} (backed : s.Backed p (c cursorsFile))
    (shelf : Shelf p d now c h)
    (back : ReadsBack s.toWire) : CursorStore.load (some (p.below cursorsFile)) h = (.ok s, h) := by
  have read := shelf.load cursorsFile_mem backed.held back
  rw [← backed.path] at read ⊢
  exact load_toWire read

theorem next_keeps (directory : Directory) (team : Text) :
    Op.Keeps (Shelved p d now c cursorsFile (Backed p)) (next directory team) := by
  refine .ite (.throw _) (.bind (fun _ => id) fun s => .bind (put_keeps team _) fun _ => ?_)
  exact .bind (Shelved.log_keeps _ _) fun _ => .pure _

end CursorStore

/-! The other two stores know what their files lack. -/
namespace EdgeStore

structure Backed (p : FilePath) (bound : Nat) (node : Option FileNode) (s : EdgeStore) : Prop where
  path : s.path = some (p.below edgesFile)
  bound : s.maxEntries = bound
  textual : s.Textual
  held : s.dirty = false → Backs (.list []) node s.toWire

namespace Backed

variable {p : FilePath} {d : Place} {now : DateTime} {c : Contents} {bound : Nat}
  {node : Option FileNode} {s : EdgeStore}
  {h : Host}

theorem transition (backed : s.Backed p bound node) (lead rule : Text)
    (step : EdgeState → Bool × EdgeChange) :
    (s.transition (.ofTexts lead rule) step).store.Backed p bound node := by
  have textual := backed.textual.transition lead rule step
  revert textual
  unfold EdgeStore.transition
  simp only
  split
  · intro textual
    refine ⟨backed.path, backed.bound, textual, fun clean => ?_⟩
    simp [remember, backed.bound] at clean
  · exact fun _ => backed

theorem load (backed : s.Backed p bound (c edgesFile)) (shelf : Shelf p d now c h)
    (clean : s.dirty = false)
    (back : ReadsBack s.toWire) :
    EdgeStore.load (some (p.below edgesFile)) bound h = (.ok s, h) := by
  have opened : (⟨some (p.below edgesFile), bound, s.states, false⟩ : EdgeStore) = s := by
    rw [← backed.path, ← backed.bound, ← clean]
  simp only [EdgeStore.load, Op.run_bind, shelf.load edgesFile_mem (backed.held clean) back,
    loadStates_toWire backed.textual, Op.run_ofExcept, Op.run_pure, opened]

theorem flush (backed : s.Backed p bound (c edgesFile)) (shelf : Shelf p d now c h) :
    ∃ k, EdgeStore.flush (s, h) = (.ok (), ({ s with dirty := false }, k)) ∧
      Shelved p d now c edgesFile (Backed p bound) ({ s with dirty := false }, k) := by
  obtain ⟨node, k, run, shelf, file⟩ :=
    shelf.flush edgesFile_mem backed.path (fun clean => by rw [← clean]) (flush_run s h)
  refine ⟨k, run, node, shelf, backed.path, backed.bound, backed.textual, fun _ => ?_⟩
  rcases file with ⟨rfl, clean⟩ | rfl
  · exact backed.held clean
  · exact .inl rfl

end Backed
end EdgeStore

namespace Ledger

structure Backed (p : FilePath) (bound : Nat) (node : Option FileNode) (l : Ledger) : Prop where
  path : l.path = some (p.below ledgerFile)
  bound : l.maxEntries = bound
  textual : l.Textual
  held : l.dirty = false → Backs (.list []) node l.toWire

namespace Backed

variable {p : FilePath} {d : Place} {now : DateTime} {c : Contents} {bound : Nat}
  {node : Option FileNode} {l : Ledger}
  {h : Host}

theorem record (backed : l.Backed p bound node) (lead rule event : Text) (time : DateTime) :
    (l.record (.ofTexts lead rule event) time).Backed p bound node := by
  refine ⟨backed.path, backed.bound, backed.textual.record lead rule event time, fun clean => ?_⟩
  simp [Ledger.record, backed.bound] at clean

theorem load (backed : l.Backed p bound (c ledgerFile)) (shelf : Shelf p d now c h)
    (clean : l.dirty = false)
    (back : ReadsBack l.toWire) : Ledger.load (some (p.below ledgerFile)) bound h = (.ok l, h) := by
  have opened : (⟨some (p.below ledgerFile), bound, l.processed, false⟩ : Ledger) = l := by
    rw [← backed.path, ← backed.bound, ← clean]
  simp only [Ledger.load, Op.run_bind, shelf.load ledgerFile_mem (backed.held clean) back,
    loadRecords_toWire backed.textual, Op.run_ofExcept, Op.run_pure, opened]

theorem flush (backed : l.Backed p bound (c ledgerFile)) (shelf : Shelf p d now c h) :
    ∃ k, Ledger.flush (l, h) = (.ok (), ({ l with dirty := false }, k)) ∧
      Shelved p d now c ledgerFile (Backed p bound) ({ l with dirty := false }, k) := by
  obtain ⟨node, k, run, shelf, file⟩ :=
    shelf.flush ledgerFile_mem backed.path (fun clean => by rw [← clean]) (flush_run l h)
  refine ⟨k, run, node, shelf, backed.path, backed.bound, backed.textual, fun _ => ?_⟩
  rcases file with ⟨rfl, clean⟩ | rfl
  · exact backed.held clean
  · exact .inl rfl

end Backed
end Ledger

/-- What an engine is opened with: a folder for its files, what it looks things up in, how much
its stores hold, and who takes its requests. -/
structure Setup where
  folder : FilePath
  directory : Directory := {}
  catalog : FieldCatalog := .empty
  edgesMax : Nat
  ledgerMax : Nat
  handler : Option Handler := none
  webhookHandler : Option Handler := none

theorem Handler.Twin.handle {v w : Handler} (own : v.Twin w) (r : Request) (h : Host) :
    ∃ x y k, Handler.handle r (w, h) = (x, (y, k)) ∧ v.Twin y ∧ h.Relogged k := by
  obtain ⟨answer, among, answers, first, second⟩ := own
  obtain ⟨y, k, run, there, noted⟩ := answers.handle w second r h
  exact ⟨_, y, k, run, ⟨answer, among, answers, first, there⟩, noted⟩

namespace Executor

structure Backed (s : Setup) (node : Option FileNode) (x : Executor) : Prop where
  directory : x.directory = s.directory
  cursors : x.cursors.Backed s.folder node
  handler : Option.Rel Handler.Twin s.handler x.handler
  webhookHandler : Option.Rel Handler.Twin s.webhookHandler x.webhookHandler

variable {s : Setup} {d : Place} {now : DateTime} {c : Contents}

theorem onCursors_keeps {α : Type} {op : StoreOp CursorStore α}
    (keeps : Op.Keeps (Shelved s.folder d now c cursorsFile (CursorStore.Backed s.folder)) op) :
    Op.Keeps (Shelved s.folder d now c cursorsFile (Backed s)) (onCursors op) := by
  rintro ⟨x, h⟩ ⟨node, shelf, backed⟩
  obtain ⟨node, shelf, cursors⟩ := keeps (x.cursors, h) ⟨node, shelf, backed.cursors⟩
  exact ⟨node, shelf, { backed with cursors }⟩

theorem emit_keeps (r : Request) :
    Op.Keeps (Shelved s.folder d now c cursorsFile (Backed s)) (emit r) := by
  rintro ⟨x, h⟩ ⟨node, shelf, backed⟩
  have posted {v w : Handler} (own : v.Twin w) (given : some v = s.webhookHandler) :
      Shelved s.folder d now c cursorsFile (Backed s)
        ((Handler.handle r).onPart (fun s => (w, s.2))
          (fun s t => ({ s.1 with webhookHandler := some t.1 }, t.2))
          (x, h)).2 := by
    obtain ⟨_, y, k, run, own, noted⟩ := own.handle r h
    rw [Op.run_onPart, run]
    exact ⟨node, shelf.relogged noted, { backed with webhookHandler := given ▸ .some own }⟩
  have handed {v w : Handler} (own : v.Twin w) (given : some v = s.handler) :
      Shelved s.folder d now c cursorsFile (Backed s)
        ((Handler.handle r).onPart (fun s => (w, s.2)) (fun s t => ({ s.1 with handler := some t.1 }, t.2))
          (x, h)).2 := by
    obtain ⟨_, y, k, run, own, noted⟩ := own.handle r h
    rw [Op.run_onPart, run]
    exact ⟨node, shelf.relogged noted, { backed with handler := given ▸ .some own }⟩
  have dropped (text : Text) :=
    Shelved.log_keeps (B := Backed s) .debug text (x, h) ⟨node, shelf, backed⟩
  have handler := backed.handler
  have webhookHandler := backed.webhookHandler
  simp only [emit, Op.run_bind, Op.run_store]
  generalize given : s.handler = v, x.handler = w, given' : s.webhookHandler = v',
    x.webhookHandler = w' at handler webhookHandler
  cases r.kind <;> cases webhookHandler <;> cases handler <;>
    first
    | exact posted ‹_› given'.symm
    | exact handed ‹_› given.symm
    | exact dropped _

theorem respected_shelved : Respected fun x y =>
    Shelved s.folder d now c cursorsFile (Backed s) x →
    Shelved s.folder d now c cursorsFile (Backed s) y where
  refl _ := id
  trans first second := second ∘ first
  turn d team := onCursors_keeps (CursorStore.next_keeps d team)
  emit := emit_keeps
  log := Shelved.log_keeps

/-- Whatever an action comes to, the cursors are saved as they are, and nothing else is written. -/
theorem execute_keeps (a : Action) (lead : Lead) (rule : Value) :
    Op.Keeps (Shelved s.folder d now c cursorsFile (Backed s)) (execute a lead rule) := by
  refine .bind (respected_shelved.perform a lead) fun outcome => ?_
  rintro ⟨x, h⟩ ⟨node, shelf, backed⟩
  exact ⟨node, shelf, backed.directory, backed.cursors, backed.handler, backed.webhookHandler⟩

end Executor

namespace Engine

structure Backed (s : Setup) (rules : Repository) (c : Contents) (g : Engine) : Prop where
  rules : g.rules = rules
  catalog : g.catalog = s.catalog
  executor : g.executor.Backed s (c cursorsFile)
  edges : g.edges.Backed s.folder s.edgesMax (c edgesFile)
  ledger : g.ledger.Backed s.folder s.ledgerMax (c ledgerFile)

/-- An engine in step with its folder, where nothing ever writes the rules. -/
def InStep (s : Setup) (d : Place) (now : DateTime) (rules : Repository) (node : Option FileNode)
    (x : Engine × Host) : Prop :=
  ∃ c : Contents, c rulesFile = node ∧ Shelf s.folder d now c x.2 ∧ x.1.Backed s rules c

/-- No file lacks anything. -/
structure Clean (g : Engine) : Prop where
  edges : g.edges.dirty = false
  ledger : g.ledger.dirty = false

variable {s : Setup} {d : Place} {now : DateTime} {rules : Repository} {node : Option FileNode}
  {e : Event} {r : Rule}
  {g g' : Engine} {h k : Host}

namespace InStep

theorem relogged (step : InStep s d now rules node (g, h)) (noted : h.Relogged k) :
    InStep s d now rules node (g, k) := by
  obtain ⟨c, file, shelf, backed⟩ := step
  exact ⟨c, file, shelf.relogged noted, backed⟩

theorem seeing (step : InStep s d now rules node (g, h)) (r : Rule) (e : Event) :
    InStep s d now rules node (g.seeing r e, h) := by
  obtain ⟨c, file, shelf, backed⟩ := step
  exact ⟨c, file, shelf, { backed with edges := backed.edges.transition e.lead.id r.id _ }⟩

theorem executed (step : InStep s d now rules node (g, h)) {a : Action} {lead : Lead} {rule : Value}
    {x : Executor}
    {result : Except Fault ActionResult}
    (run : Executor.execute a lead rule (g.executor, h) = (result, (x, k))) :
    InStep s d now rules node ({ g with executor := x }, k) := by
  obtain ⟨c, file, shelf, backed⟩ := step
  have start : Shelved s.folder d now c cursorsFile (Executor.Backed s) (g.executor, h) := by
    refine ⟨c cursorsFile, ?_, backed.executor⟩
    rwa [Function.update_eq_self]
  have kept := Executor.execute_keeps a lead rule (g.executor, h) start
  rw [run] at kept
  obtain ⟨held, shelf, executor⟩ := kept
  refine ⟨_, ?_, shelf, backed.rules, backed.catalog, ?_, ?_, ?_⟩
  · rw [Function.update_of_ne (by decide +kernel), file]
  · rwa [Function.update_self]
  · rw [Function.update_of_ne (by decide +kernel)]
    exact backed.edges
  · rw [Function.update_of_ne (by decide +kernel)]
    exact backed.ledger

theorem recorded (step : InStep s d now rules node (g, h)) (r : Rule) (e : Event)
    (time : DateTime) :
    InStep s d now rules node ({ g with ledger := g.ledger.record (deliveryKey r e) time }, h) := by
  obtain ⟨c, file, shelf, backed⟩ := step
  exact ⟨c, file, shelf, { backed with ledger := backed.ledger.record e.lead.id r.id e.id time }⟩

theorem turn {result : RuleResult} (step : InStep s d now rules node (g, h))
    (turn : Turn e r g h result g' k) :
    InStep s d now rules node (g', k) := by
  have seen := step.seeing r e
  cases turn with
  | exhausted full noted => exact seen.relogged noted
  | quiet room still noted => exact seen.relogged noted
  | unclear room fired unmet noted => exact seen.relogged noted
  | unmet room fired unmet noted => exact seen.relogged noted
  | repeated cleared known noted => exact seen.relogged noted
  | broken cleared new before executed noted =>
    exact ((seen.relogged before).executed executed).relogged noted
  | unrecorded cleared new before executed full noted =>
    exact (((seen.relogged before).executed executed).recorded r e _).relogged noted
  | acted cleared new before executed room noted =>
    exact (((seen.relogged before).executed executed).recorded r e _).relogged noted

theorem turns {listening : List Rule} {outcomes : List RuleOutcome}
    (step : InStep s d now rules node (g, h))
    (turns : Turns e listening g h outcomes g' k) : InStep s d now rules node (g', k) := by
  induction turns with
  | nil => exact step
  | cons run first later ih => exact ih (step.turn first)

/-- Writing the stores never fails, and leaves no file behind its store. -/
theorem flush (step : InStep s d now rules node (g, h)) :
    ∃ g' k, Engine.flush (g, h) = (.ok (), (g', k)) ∧ InStep s d now rules node (g', k) ∧
      g'.Clean := by
  obtain ⟨c, file, shelf, backed⟩ := step
  obtain ⟨h₁, first, held, shelf, edges⟩ := backed.edges.flush shelf
  have ledger :
      g.ledger.Backed s.folder s.ledgerMax (Function.update c edgesFile held ledgerFile) := by
    rw [Function.update_of_ne (by decide +kernel)]
    exact backed.ledger
  obtain ⟨h₂, second, held', shelf, ledger⟩ := ledger.flush shelf
  let g₁ : Engine := { g with edges := { g.edges with dirty := false } }
  let g₂ : Engine := { g₁ with ledger := { g.ledger with dirty := false } }
  have first : onEdges EdgeStore.flush (g, h) = (.ok (), (g₁, h₁)) := by
    rw [onEdges, Op.run_onPart, first]
  have second : onLedger Ledger.flush (g₁, h₁) = (.ok (), (g₂, h₂)) := by
    rw [onLedger, Op.run_onPart, second]
  refine ⟨g₂, h₂, ?_, ⟨_, ?_, shelf, backed.rules, backed.catalog, ?_, ?_, ?_⟩, rfl, rfl⟩
  · simp only [Engine.flush, Op.run_bind, Op.run_store, flushStore_ok first, flushStore_ok second]
  · rw [Function.update_of_ne (by decide +kernel), Function.update_of_ne (by decide +kernel), file]
  · rw [Function.update_of_ne (by decide +kernel), Function.update_of_ne (by decide +kernel)]
    exact backed.executor
  · rw [Function.update_of_ne (by decide +kernel), Function.update_self]
    exact edges
  · rw [Function.update_self]
    exact ledger

end InStep

/-- After every event the files hold all that the engine knows. -/
theorem onEvent_keeps (e : Event) :
    Op.Keeps (fun x => InStep s d now rules node x ∧ x.1.Clean) (onEvent e) := by
  rintro ⟨g, h⟩ ⟨step, clean⟩
  obtain ⟨x, g', k, run, delivery⟩ := onEvent_delivery e g h
  rw [run]
  cases delivery with
  | unordered chosen => exact ⟨step, clean⟩
  | idle chosen noted => exact ⟨step.relogged noted, clean⟩
  | unsaved chosen some turns flushed =>
    obtain ⟨_, _, done, -⟩ := (step.turns turns).flush
    rw [flushed] at done
    cases done
  | taken chosen some turns flushed noted =>
    obtain ⟨_, _, done, step, clean⟩ := (step.turns turns).flush
    rw [flushed] at done
    cases done
    exact ⟨step.relogged noted, clean⟩

end Engine

end LeadRules
