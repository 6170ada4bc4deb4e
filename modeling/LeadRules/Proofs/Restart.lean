import LeadRules.Proofs.Backing
import LeadRules.Proofs.Calls
import LeadRules.Proofs.CursorFile
import LeadRules.Proofs.Reading

/-! Restarts. An engine may be dropped after any event and opened again from its files: the events
that follow come to the same, and leave the same files behind. -/
namespace LeadRules

open CommandLine (rulesFile cursorsFile edgesFile ledgerFile)
open StateFile (Contents ReadsBack Shelf)
open Op (Constant Steady)

namespace Engine

def take (v : Value) : StoreOp Engine EventOutcome := do
  let now := (← get).2.now
  onEvent (← Op.onHost (Op.drawing (Event.ofWire now v)))

def takeAll : List Value → StoreOp Engine (List (Except Fault EventOutcome))
  | [] => return []
  | v :: rest => do
    let outcome ← (take v).attempt
    return outcome :: (← takeAll rest)

def wires (g : Engine) : List Value := [g.executor.cursors.toWire, g.edges.toWire, g.ledger.toWire]

theorem take_run {v : Value} (identified : Event.Identified v) (now : DateTime) :
    ∃ x : Except Fault Event, ∀ s : Engine × Host, s.2.now = now →
      take v s = (Op.ofExcept x >>= onEvent) s := by
  obtain ⟨x, read⟩ := Event.ofWire_constant identified now
  refine ⟨x, ?_⟩
  rintro ⟨g, h⟩ rfl
  rw [take, Op.run_bind, Op.run_get]
  simp only [Op.run_bind, Op.run_onHost, Op.run_drawing, read, Op.run_ofExcept]

theorem take_steady {v : Value} (identified : Event.Identified v) :
    Steady (Beside Twin) (take v) := by
  intro s t states
  obtain ⟨x, run⟩ := take_run identified s.2.now
  rw [run s rfl, run t states.2.now]
  exact Steady.bind (.ofExcept x) onEvent_steady s t states

theorem takeAll_steady {events : List Value} (identified : ∀ v ∈ events, Event.Identified v) :
    Steady (Beside Twin) (takeAll events) := by
  induction events with
  | nil => exact .pure []
  | cons v rest ih =>
    refine .bind (take_steady (identified v List.mem_cons_self)).attempt fun _ => ?_
    exact .bind (ih fun v member => identified v (List.mem_cons_of_mem _ member)) fun _ => .pure _

theorem takeAll_append (xs ys : List Value) :
    takeAll (xs ++ ys) = (do return (← takeAll xs) ++ (← takeAll ys)) := by
  induction xs with
  | nil => simp [takeAll]
  | cons v rest ih => simp [takeAll, ih]

theorem takeAll_answers (events : List Value) (s : Engine × Host) :
    ∃ outcomes t, takeAll events s = (.ok outcomes, t) := by
  induction events generalizing s with
  | nil => exact ⟨[], s, rfl⟩
  | cons v rest ih =>
    obtain ⟨outcomes, t, run⟩ := ih (take v s).2
    refine ⟨(take v s).1 :: outcomes, t, ?_⟩
    simp only [takeAll, Op.run_bind, Op.run_attempt, run, Op.run_pure]

variable {s : Setup} {d : Place} {now : DateTime} {rules : Repository} {node : Option FileNode}

theorem take_keeps {v : Value} (identified : Event.Identified v) :
    Op.Keeps (fun x => InStep s d now rules node x ∧ x.1.Clean) (take v) := by
  rintro x ⟨step, clean⟩
  obtain ⟨y, run⟩ := take_run identified x.2.now
  rw [run x rfl]
  exact Op.Keeps.bind (.ofExcept y) onEvent_keeps x ⟨step, clean⟩

theorem takeAll_keeps {events : List Value} (identified : ∀ v ∈ events, Event.Identified v) :
    Op.Keeps (fun x => InStep s d now rules node x ∧ x.1.Clean) (takeAll events) := by
  induction events with
  | nil => exact .pure []
  | cons v rest ih =>
    refine .bind (take_keeps (identified v List.mem_cons_self)).attempt fun _ => ?_
    exact .bind (ih fun v member => identified v (List.mem_cons_of_mem _ member)) fun _ => .pure _

end Engine

namespace Setup

open Engine (takeAll)

def path (s : Setup) (name : Text) : FilePath := s.folder.join (.ofText name)

def engine (s : Setup) : Op Host Engine := do
  let cursors ← CursorStore.load (some (s.path cursorsFile))
  let rules ← Repository.load (some (s.path rulesFile))
  let edges ← EdgeStore.load (some (s.path edgesFile)) s.edgesMax
  let ledger ← Ledger.load (some (s.path ledgerFile)) s.ledgerMax
  let executor : Executor :=
    { directory := s.directory, cursors, handler := s.handler, webhookHandler := s.webhookHandler }
  return { rules, executor, catalog := s.catalog, edges, ledger }

/-- Takes events through an engine that is opened for them and dropped afterwards. -/
def serve (s : Setup) (events : List Value) : Op Host (List (Except Fault EventOutcome)) := do
  let g ← s.engine
  (takeAll events).onPart (fun h => (g, h)) fun _ after => after.2

/-- Takes events through one engine, and more of them through another. -/
def restarting (s : Setup) (xs ys : List Value) : Op Host (List (Except Fault EventOutcome)) :=
  return (← s.serve xs) ++ (← s.serve ys)

def wires (s : Setup) (events : List Value) (h : Host) : List Value :=
  match s.engine h with
  | (.ok g, k) => (takeAll events (g, k)).2.1.wires
  | (.error _, _) => []

/-- A host on which an engine starts anew: a repository wrote its rules, its stores have no files
so far, and the disk takes all that they write. Who takes the requests answers each by itself. -/
structure Ready (s : Setup) (h : Host) : Prop where
  stands : ∃ d, h.files.find s.folder = .ok (d, some .folder)
  rules : ∃ r v place, Repository.Kept r ∧ r.toWire = .ok v ∧ ReadsBack v ∧
    h.files.find (s.path rulesFile) = .ok (place, some (.file (Json.writeIndented v)))
  absent : ∀ name ∈ StateFile.written, ∃ place, h.files.find (s.path name) = .ok (place, none)
  clear : ∀ name ∈ StateFile.written, ∃ place node,
    h.files.find (s.path (StateFile.beside name)) = .ok (place, node) ∧ node ≠ some .folder
  sound : true ∉ h.refusals
  handler : Option.Rel Handler.Twin s.handler s.handler
  webhookHandler : Option.Rel Handler.Twin s.webhookHandler s.webhookHandler

variable {s : Setup} {d : Place} {now : DateTime} {c : Contents} {h k : Host}

theorem path_below (s : Setup) : ∀ name ∈ ↑rulesFile :: StateFile.written,
    s.path name = s.folder.below name ∧
      s.path (StateFile.beside name) = s.folder.below (StateFile.beside name) ∧
      Nameable name ∧ Nameable (StateFile.beside name) := by
  have plain : ∀ name ∈ ↑rulesFile :: StateFile.written,
      FilePath.ofText name = { parts := [name] } ∧
      FilePath.ofText (StateFile.beside name) = { parts := [StateFile.beside name] } ∧
      (name.bytes.length ≤ FilePath.nameLimit ∧ name ≠ FilePath.up) ∧
      (StateFile.beside name).bytes.length ≤ FilePath.nameLimit ∧
      StateFile.beside name ≠ FilePath.up := by
    decide +kernel
  intro name member
  obtain ⟨path, beside, ⟨short, apart⟩, short', apart'⟩ := plain name member
  exact ⟨by rw [Setup.path, path]; rfl, by rw [Setup.path, beside]; rfl, ⟨short, apart⟩, ⟨short', apart'⟩⟩

def fresh (s : Setup) (rules : Repository) : Engine where
  rules := rules
  executor := {
    directory := s.directory
    cursors := { path := some (s.folder.below cursorsFile) }
    handler := s.handler
    webhookHandler := s.webhookHandler }
  catalog := s.catalog
  edges := { path := some (s.folder.below edgesFile), maxEntries := s.edgesMax }
  ledger := { path := some (s.folder.below ledgerFile), maxEntries := s.ledgerMax }

def reopened (s : Setup) (g : Engine) (rules : Repository) : Engine where
  rules := rules
  executor := {
    directory := s.directory
    cursors := g.executor.cursors
    handler := s.handler
    webhookHandler := s.webhookHandler }
  catalog := s.catalog
  edges := g.edges
  ledger := g.ledger

theorem engine_run {g : Engine} {rules : Repository} (shelf : Shelf s.folder d now c h)
    (backed : g.Backed s rules c)
    (clean : g.Clean) (back : ∀ v ∈ g.wires, ReadsBack v) {x : Except Fault Repository}
    (loaded : Repository.load (some (s.path rulesFile)) h = (x, k)) (noted : h.Relogged k) :
    s.engine h = (x.map (s.reopened g), k) := by
  have place {name : Text} (member : name ∈ StateFile.written) :
      s.path name = s.folder.below name :=
    (s.path_below name (List.mem_cons_of_mem _ member)).1
  have cursors := backed.executor.cursors.load shelf (back _ List.mem_cons_self)
  have shelf := shelf.relogged noted
  have edges :=
    backed.edges.load shelf clean.edges (back _ (List.mem_cons_of_mem _ List.mem_cons_self))
  have ledger := backed.ledger.load shelf clean.ledger (back _ (by simp [Engine.wires]))
  simp only [engine, place StateFile.cursorsFile_mem, place StateFile.edgesFile_mem,
    place StateFile.ledgerFile_mem, Op.run_bind, cursors, loaded]
  cases x with
  | error fault => rfl
  | ok rules =>
    simp only [edges, ledger, Op.run_pure]
    rfl

/-- An engine opened on the files of another is its twin. -/
theorem reopened_twin {g : Engine} {rules : Repository} (backed : g.Backed s rules c) :
    (s.reopened g rules).Twin g where
  rules := backed.rules
  executor := {
    directory := backed.executor.directory
    cursors := rfl
    handler := backed.executor.handler
    webhookHandler := backed.executor.webhookHandler }
  catalog := backed.catalog
  edges := rfl
  ledger := rfl

/-- An engine in step with its folder is opened again from the files as its twin. -/
theorem engine_reopened {g : Engine} {rules : Repository} {text : String}
    (step : Engine.InStep s d now rules (some (.file text)) (g, h)) (clean : g.Clean)
    (back : ∀ v ∈ g.wires, ReadsBack v)
    (load : ∀ h : Host, h.now = now →
      h.files.find (s.path rulesFile) = .ok (d.named rulesFile, some (.file text)) →
      ∃ k, Repository.load (some (s.path rulesFile)) h = (.ok rules, k) ∧ h.Relogged k) :
    ∃ k, s.engine h = (.ok (s.reopened g rules), k) ∧
      Beside Engine.Twin (s.reopened g rules, k) (g, h) := by
  obtain ⟨c, file, shelf, backed⟩ := step
  have found : h.files.find (s.path rulesFile) = .ok (d.named rulesFile, some (.file text)) := by
    rw [(s.path_below rulesFile List.mem_cons_self).1, shelf.find_rules, file]
  obtain ⟨k, loaded, noted⟩ := load h shelf.now found
  exact ⟨k, engine_run shelf backed clean back loaded noted, reopened_twin backed, noted.now.symm,
    noted.files.symm, noted.refusals.symm⟩

theorem fresh_backed (handler : Option.Rel Handler.Twin s.handler s.handler)
    (webhookHandler : Option.Rel Handler.Twin s.webhookHandler s.webhookHandler)
    (absent : ∀ name ∈ StateFile.written, c name = none) (rules : Repository) :
    (s.fresh rules).Backed s rules c where
  rules := rfl
  executor := {
    directory := rfl
    cursors := ⟨rfl, .inr ⟨absent _ StateFile.cursorsFile_mem, rfl⟩⟩
    handler := handler
    webhookHandler := webhookHandler }
  catalog := rfl
  edges := ⟨rfl, rfl, fun _ member => absurd member List.not_mem_nil,
    fun _ => .inr ⟨absent _ StateFile.edgesFile_mem, rfl⟩⟩
  ledger := ⟨rfl, rfl, fun _ member => absurd member List.not_mem_nil,
    fun _ => .inr ⟨absent _ StateFile.ledgerFile_mem, rfl⟩⟩

theorem fresh_readsBack (s : Setup) (rules : Repository) :
    ∀ v ∈ (s.fresh rules).wires, ReadsBack v := by
  have map : ReadsBack (.map []) := rfl
  have list : ReadsBack (.list []) := rfl
  intro v member
  simp only [Engine.wires, List.mem_cons, List.not_mem_nil, or_false] at member
  rcases member with rfl | rfl | rfl
  · exact map
  · exact list
  · exact list

def contents (h : Host) (d : Place) : Contents := fun name => h.files.nodes.get? (d.named name)

theorem Ready.shelf (ready : s.Ready h) : ∃ d, Shelf s.folder d h.now (contents h d) h ∧
    ∀ name ∈ StateFile.written, contents h d name = none := by
  obtain ⟨d, stands⟩ := ready.stands
  have free (name : Text) (member : name ∈ StateFile.written) :
      (s.folder.below name).Fits ∧ contents h d name = none := by
    obtain ⟨path, -, nameable, -⟩ := s.path_below name (List.mem_cons_of_mem _ member)
    obtain ⟨place, absent⟩ := ready.absent name member
    rw [path] at absent
    have fits := (FileTree.find_ok absent).1
    have found := FileTree.find_below stands fits nameable
    rw [absent] at found
    exact ⟨fits, (congrArg Prod.snd (Except.ok.inj found)).symm⟩
  refine ⟨d, ⟨rfl, ready.sound, fun name member => ?_, ?_, fun _ _ => rfl⟩,
    fun name member => (free name member).2⟩
  · obtain ⟨-, path, nameable, nameable'⟩ := s.path_below name (List.mem_cons_of_mem _ member)
    obtain ⟨place, node, clear, apart⟩ := ready.clear name member
    rw [path] at clear
    have fits := (FileTree.find_ok clear).1
    have found := FileTree.find_below stands fits nameable'
    rw [clear] at found
    obtain ⟨-, rfl⟩ := Prod.mk.inj (Except.ok.inj found)
    refine ⟨stands, nameable, (free name member).1, ?_, nameable', fits, apart⟩
    intro folder
    exact absurd ((free name member).2.symm.trans folder) (by simp)
  · obtain ⟨_, _, place, -, -, -, found⟩ := ready.rules
    rw [(s.path_below _ List.mem_cons_self).1] at found
    exact (FileTree.find_ok found).1

theorem serve_run {g : Engine} (opened : s.engine h = (.ok g, k)) (events : List Value) :
    s.serve events h = ((takeAll events (g, k)).1, (takeAll events (g, k)).2.2) := by
  rw [serve, Op.run_bind, opened]
  rfl

/-- Events come to the same, and leave the same files behind, whether or not the engine is dropped
in between and opened again from its files, as long as what it wrote is read as it was. -/
theorem serve_append (ready : s.Ready h) {xs ys : List Value}
    (identified : ∀ v ∈ xs ++ ys, Event.Identified v)
    (back : ∀ v ∈ s.wires xs h, ReadsBack v) :
    (s.serve (xs ++ ys) h).1 = (s.restarting xs ys h).1 ∧
      (s.serve (xs ++ ys) h).2.files = (s.restarting xs ys h).2.files := by
  obtain ⟨d, shelf, absent⟩ := ready.shelf
  obtain ⟨r, v, place, kept, wrote, readsBack, found⟩ := ready.rules
  obtain ⟨x, load⟩ := kept.load_settled wrote readsBack (s.path rulesFile) h.now
  obtain ⟨k₀, loaded, noted⟩ := load h place rfl found
  have fresh := fresh_backed ready.handler ready.webhookHandler absent
  have opened := engine_run shelf (fresh {}) ⟨rfl, rfl⟩ (s.fresh_readsBack {}) loaded noted
  cases x with
  | error fault =>
    have failed (events : List Value) : s.serve events h = (.error fault, k₀) := by
      rw [serve, Op.run_bind, opened]
      rfl
    rw [restarting, Op.run_bind, failed, failed]
    exact ⟨rfl, rfl⟩
  | ok rules =>
    have opened : s.engine h = (.ok (s.fresh rules), k₀) := opened
    have file : contents h d rulesFile = some (.file (Json.writeIndented v)) := by
      rw [(s.path_below rulesFile List.mem_cons_self).1, shelf.find_rules] at found
      exact congrArg Prod.snd (Except.ok.inj found)
    obtain ⟨first, ⟨g, k⟩, ran⟩ := Engine.takeAll_answers xs (s.fresh rules, k₀)
    have start :
        Engine.InStep s d h.now rules (some (.file (Json.writeIndented v))) (s.fresh rules, k₀) :=
      ⟨contents h d, file, shelf.relogged noted, fresh rules⟩
    have step := Engine.takeAll_keeps (fun w member => identified w (List.mem_append_left _ member))
      (s.fresh rules, k₀) ⟨start, ⟨rfl, rfl⟩⟩
    rw [ran] at step
    -- The files now hold all of the engine, and the rules are read as they were the first time.
    obtain ⟨k', reopened, twins⟩ :=
      engine_reopened step.1 step.2 (by simpa only [wires, opened, ran] using back)
      fun k now found => load k (d.named rulesFile) now found
    obtain ⟨answers, after⟩ :=
      Engine.takeAll_steady (fun w member => identified w (List.mem_append_right _ member))
      _ _ twins
    obtain ⟨second, t, ran'⟩ := Engine.takeAll_answers ys (g, k)
    rw [ran'] at answers after
    have whole : s.serve (xs ++ ys) h = (.ok (first ++ second), t.2) := by
      rw [serve_run opened, Engine.takeAll_append]
      simp only [Op.run_bind, ran, ran', Op.run_pure]
    have parts :
        s.restarting xs ys h =
        (.ok (first ++ second), (takeAll ys (s.reopened g rules, k')).2.2) := by
      simp only [restarting, Op.run_bind, serve_run opened, ran, serve_run reopened, answers, Op.run_pure]
    rw [whole, parts]
    exact ⟨rfl, after.2.files⟩

def handing : Rule :=
  { Engine.tagging with trigger := .newLead, action := .assignRoundRobin "sales" }

def handingItem : Value := .record [
  ("id", .text "tag"), ("name", .text "tag"), ("description", .text ""), ("isEnabled", .bool true),
  ("trigger", .record [("type", .text "NEW_LEAD")]), ("conditions", .list []),
  ("action", .record [("type", .text "ASSIGN_ROUND_ROBIN"), ("teamId", .text "sales")]),
  ("createdAt", .text "0001-01-01T00:00:00"), ("updatedAt", .text "0001-01-01T00:00:00")]

def desk : Setup where
  folder := .ofText "data"
  directory := { teams := .ofList [("sales", ⟨"sales", .text "Sales", none, ["ann", "bob"]⟩)] }
  edgesMax := 1
  ledgerMax := 1
  handler := some (.recorder {})

def office : Host := { Host.still with files := ⟨.ofList [
  ({ names := [Text.bytes "data"] }, .folder),
  ({ names := [Text.bytes "data", Text.bytes rulesFile] },
    .file (Json.writeIndented (.list [handingItem])))]⟩ }

def arrival (lead : Text) : Value := .record [
  ("kind", .text "LeadCreated"), ("eventId", .text "e1"), ("lead", .record [("id", .text lead)])]

def arrivalWires : List Value := [
  .record [("sales", .int 0)],
  .list [.record [("lead_id", .text "L1"), ("rule_id", .text "tag"), ("last_observed_score", .null),
    ("last_observed_score_from", .null), ("last_observed_stage", .null),
    ("last_observed_stage_from", .null),
    ("idle_marker", .null), ("fired_at", .text "0001-01-01T00:00:00")]],
  .list [.record [("lead_id", .text "L1"), ("rule_id", .text "tag"), ("event_id", .text "e1"),
    ("processed_at", .text "0001-01-01T00:00:00")]]]

theorem arrivalWires_readBack : ∀ v ∈ .list [handingItem] :: arrivalWires, ReadsBack v := by
  have same : ∀ v ∈ .list [handingItem] :: arrivalWires, (Json.reread Json.depthLimit v).toOption =
      some v := by decide +kernel
  exact fun v member => Json.readsBack_of_reread (StateFile.of_toOption (same v member))

theorem office_rules : ∃ r place, Repository.Kept r ∧ r.toWire = .ok (.list [handingItem]) ∧
    office.files.find (desk.path rulesFile) =
      .ok (place, some (.file (Json.writeIndented (.list [handingItem])))) := by
  have wrote :
      (Repository.add handing ({}, .still)).2.1.toWire.toOption = some (.list [handingItem]) := by
    decide +kernel
  have found : (office.files.find (desk.path rulesFile)).toOption =
      some ({ names := [Text.bytes "data", Text.bytes rulesFile] },
        some (.file (Json.writeIndented (.list [handingItem])))) := by decide +kernel
  have empty : Repository.Kept {} := .opened (show Repository.load none Host.still = _ from rfl)
  exact ⟨_, _, .add empty .still handing (by decide +kernel), StateFile.of_toOption wrote,
    StateFile.of_toOption found⟩

theorem desk_ready : desk.Ready office where
  stands := ⟨{ names := [Text.bytes "data"] }, StateFile.of_toOption (by decide +kernel)⟩
  rules := by
    obtain ⟨r, place, kept, wrote, found⟩ := office_rules
    exact ⟨r, _, place, kept, wrote, arrivalWires_readBack _ List.mem_cons_self, found⟩
  absent := by
    have found : ∀ name ∈ StateFile.written, (office.files.find (desk.path name)).toOption =
        some ({ names := [Text.bytes "data", name.bytes] }, none) := by decide +kernel
    exact fun name member => ⟨_, StateFile.of_toOption (found name member)⟩
  clear := by
    have found :
      ∀ name ∈ StateFile.written, (office.files.find (desk.path (StateFile.beside name))).toOption =
        some ({ names := [Text.bytes "data", (StateFile.beside name).bytes] }, none) := by
          decide +kernel
    exact fun name member => ⟨_, none, StateFile.of_toOption (found name member), by simp⟩
  sound := by decide +kernel
  handler := .some (Handler.recorder_twin _ _ _)
  webhookHandler := .none

theorem desk_wires : desk.wires [arrival "L1"] office = arrivalWires := by
  obtain ⟨r, place, kept, wrote, found⟩ := office_rules
  have back := arrivalWires_readBack _ List.mem_cons_self
  obtain ⟨x, load⟩ := kept.load_settled wrote back (desk.path rulesFile) office.now
  obtain ⟨k, loaded, noted⟩ := load office place rfl found
  obtain ⟨d, shelf, absent⟩ := desk_ready.shelf
  have fresh := fresh_backed desk_ready.handler desk_ready.webhookHandler absent
  have opened := engine_run shelf (fresh {}) ⟨rfl, rfl⟩ (desk.fresh_readsBack {}) loaded noted
  have taken : (match Repository.loadItems (some (desk.path rulesFile)) [handingItem] office with
      | (.ok rules, k) => (takeAll [arrival "L1"] (desk.fresh rules, k)).2.1.wires
      | (.error _, _) => []) = arrivalWires := by decide +kernel
  rw [← Repository.load_items found back, loaded] at taken
  rw [wires, opened]
  cases x with
  | error fault => cases taken
  | ok rules => exact taken

theorem serve_append_desk : desk.wires [arrival "L1"] office = arrivalWires ∧
    (desk.serve ([arrival "L1"] ++ [arrival "L1", arrival "L2"]) office).1 =
      (desk.restarting [arrival "L1"] [arrival "L1", arrival "L2"] office).1 ∧
    (desk.serve ([arrival "L1"] ++ [arrival "L1", arrival "L2"]) office).2.files =
      (desk.restarting [arrival "L1"] [arrival "L1", arrival "L2"] office).2.files := by
  have identified : ∀ v ∈ [arrival "L1"] ++ [arrival "L1", arrival "L2"], Event.Identified v := by
    intro v member data members
    simp only [List.cons_append, List.nil_append, List.mem_cons, List.not_mem_nil, or_false] at member
    rcases member with rfl | rfl | rfl <;> cases members <;> decide +kernel
  refine ⟨desk_wires, serve_append desk_ready identified ?_⟩
  rw [desk_wires]
  exact fun v member => arrivalWires_readBack v (List.mem_cons_of_mem _ member)

end Setup

end LeadRules
