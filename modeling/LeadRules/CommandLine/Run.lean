import LeadRules.CommandLine.Command
import LeadRules.CommandLine.Console
import LeadRules.DirectoryFile
import LeadRules.Engine
import LeadRules.Summary

/-! Running commands. What a command has printed, written and posted before it stops stays. -/
namespace LeadRules.CommandLine

inductive Stop where
  | refusal (r : Refusal)
  /-- What the user is told in plain words. -/
  | complaint (text : Text)
  | fault (f : Fault)

structure Session where
  host : Host
  transport : Transport := {}
  /-- What was printed, oldest first. -/
  console : List ConsoleItem := []

abbrev Run (α : Type) := ExceptT Stop (StateM Session) α

namespace Run

def ofExcept {α : Type} : Except Fault α → Run α
  | .ok a => pure a
  | .error f => throw (.fault f)

def onHost {α : Type} (op : Op Host α) : Run α := do
  let (result, host) := op (← get).host
  modify fun s => { s with host }
  ofExcept result

/-- Runs an operation on a store that the command holds; its faults are left to the command. -/
def onStore {σ α : Type} (s : σ) (op : StoreOp σ α) : Run (Except Fault α × σ) := do
  let (result, (s, host)) := op (s, (← get).host)
  modify fun session => { session with host }
  return (result, s)

def print (item : ConsoleItem) : Run Unit := modify fun s => { s with console := s.console ++ [item] }

def complaining {α : Type} (run : Run α) : Run α := tryCatch run fun
  | .fault f =>
    match f with
    | .malformed _ | .missingKey _ | .badValue _ => throw (.complaint f.message)
    | f => throw (.fault f)
  | stop => throw stop

end Run

open Run

/-! Input files -/

def readInput (path : Text) : Run Value := do
  match StateFile.parse (.ofText path) (← get).host.files with
  | .ok v => return v
  | .error (.json e) => throw (.complaint (path ++ " is not valid JSON: " ++ e.message))
  | .error (.file f) => throw (.fault (.file { f with path }))
  | .error f => throw (.fault f)

/-- The items of an input file, in which one alone needs no list. -/
def readItems (path : Text) : Run (List Value) := do
  match ← readInput path with
  | .list items => return items
  | v => return [v]

def readCatalog : Option Text → Run FieldCatalog
  | none => return .empty
  | some path => do
    let definitions ← ofExcept ((← readItems path).mapM FieldDefinition.ofWire)
    return .ofDefinitions definitions

/-! State -/

def statePath (s : Settings) (name : String) : Run FilePath := do
  ofExcept (s.pathFor (← get).host name)

def rulesFile : String := "rules.json"
def cursorsFile : String := "round_robin.json"
def edgesFile : String := "edge_state.json"
def ledgerFile : String := "ledger.json"
def directoryFile : String := "directory.json"

def stateFiles : List String := [rulesFile, cursorsFile, edgesFile, ledgerFile, directoryFile]

def openRules (s : Settings) : Run Repository := do
  let path ← statePath s rulesFile
  onHost (Repository.load (some path))

/-- The directory at a path, else the one beside the state; there may be none. -/
def openDirectory (s : Settings) (given : Option Text) : Run Directory := do
  let path ← match given with
    | some path => pure (FilePath.ofText path)
    | none => statePath s directoryFile
  if ← ofExcept ((← get).host.files.contains path) then onHost (Directory.load path) else return .empty

def bound (v : Value) : Run Int :=
  match v.asInt? with
  | some n => return n
  | none => throw (.fault (.misuse (.notComparable v.shape)))

/-! Cells -/

def escaped : Value → Run Text
  | .text s => return Markup.escape s
  | v => throw (.fault (.misuse (.textExpected v.shape)))

def orEmpty (v : Value) : Value := if v.truthy then v else .text ""

def number : Value → Text
  | .null => ""
  | v => v.toText

def joined (vs : List Value) : Run Text := do
  let texts ← vs.mapM fun
    | .text s => pure s
    | v => throw (.fault (.misuse (.textExpected v.shape)))
  return Text.intercalate ", " texts

/-! Rules -/

def ruleMissing (id : Text) : Stop := .complaint ("Rule " ++ id ++ " not found")

def ruleRow (d : Directory) (r : Rule) : Run (List Value) := do
  let name ← escaped r.name
  return [.text r.id, .text name, .text (r.trigger.summary r.hasConditions), .text (r.action.summary d),
    .text (if r.enabled then "[green]yes[/green]" else "[dim]no[/dim]")]

def listRules (s : Settings) (directory : Option Text) : Run Unit := do
  let repository ← openRules s
  let d ← openDirectory s directory
  let rules ← ofExcept (repository.list false)
  if rules.isEmpty then
    print (.line "[yellow]No automation rules defined.[/yellow]")
  else
    let rows ← rules.mapM (ruleRow d)
    print (.table s!"Automation Rules ({rules.length})" ["ID", "Name", "When", "Then", "Enabled"] rows)

def showRule (s : Settings) (id : Text) : Run Unit := do
  match (← openRules s).get? id with
  | some r => print (.json (Json.write (← ofExcept r.toWire)))
  | none => throw (ruleMissing id)

/-- Adds rules one by one and counts them. A malformed one is reported and left out. -/
def addAll : List Value → Repository → Run Nat
  | [], _ => return 0
  | item :: rest, repository => do
    match ← onStore repository (Repository.importRule item) with
    | (.error (.malformed cause), repository) =>
      print (.line ("[red]Error:[/red] " ++ Markup.escape cause.message))
      addAll rest repository
    | (.error fault, _) => throw (.fault fault)
    | (.ok r, repository) =>
      let name ← escaped r.name
      print (.line ("[green]Added[/green] " ++ r.id ++ " " ++ name))
      return (← addAll rest repository) + 1

def addRules (s : Settings) (file : Text) : Run Unit := do
  let repository ← openRules s
  let added ← addAll (← readItems file) repository
  if added = 0 then throw (.complaint "No rules added")

def enableRule (s : Settings) (enabled : Bool) (id : Text) : Run Unit := do
  let (found, _) ← onStore (← openRules s) (Repository.setEnabled id enabled)
  if !(← ofExcept found) then throw (ruleMissing id)
  print (.line ((if enabled then "[green]Enabled[/green] " else "[yellow]Disabled[/yellow] ") ++ id))

def deleteRule (s : Settings) (id : Text) : Run Unit := do
  let repository ← openRules s
  let path ← statePath s edgesFile
  let edges ← onHost (EdgeStore.load (some path) ({} : EdgeStore).maxEntries)
  let forget : StoreOp (Repository × EdgeStore) Unit := (EdgeStore.forget (.text id)).onPart
    (fun ((_, edges), h) => (edges, h)) fun ((repository, _), _) (edges, h) => ((repository, edges), h)
  let (removed, _) ← onStore (repository, edges)
    (Repository.delete (·.1) (fun stores repository => (repository, stores.2)) id forget)
  if !(← ofExcept removed) then throw (ruleMissing id)
  print (.line ("[red]Deleted[/red] " ++ id))

/-! Segments -/

def leadRow (l : Lead) : Run (List Value) := do
  let name ← escaped (orEmpty l.name)
  let tags ← joined l.tags
  return [.text l.id, .text name, orEmpty l.stage, orEmpty l.source, .text (number l.dealValue),
    .text (number l.score), .text (Markup.escape tags)]

def segment (leads conditions : Text) (fields : Option Text) : Run Unit := do
  let (leads, conditions) ← complaining do
    let leads ← ofExcept ((← readItems leads).mapM Lead.ofWire)
    let conditions ← readItems conditions
    return (leads, ← onHost (Op.drawing (conditions.mapM Condition.ofWire)))
  let catalog ← readCatalog fields
  let met ← onHost (Segment.ofLeads catalog conditions leads)
  let rows ← met.mapM leadRow
  print (.table s!"Segment: {met.length} of {leads.length} leads"
    ["ID", "Name", "Stage", "Source", "Deal Value", "Score", "Tags"] rows)

/-! Simulations -/

def statusStyle : RuleStatus → String
  | .executed => "green"
  | .actionFailed => "red"
  | .error => "bold red"
  | .duplicate => "yellow"
  | .conditionsNotMet | .notFired => "dim"

def statusCell (status : RuleStatus) : String :=
  let style := statusStyle status
  "[" ++ style ++ "]" ++ status.name ++ "[/" ++ style ++ "]"

def detailLimit : Nat := 200

def detail (result : RuleResult) : Text :=
  let text : Text := match result.request? with
    | some request => Json.write request.toWire
    | none => result.problem
  Markup.escape (text.take detailLimit)

def outcomeRows (o : EventOutcome) : List (List Value) :=
  o.rules.map fun r =>
    [.text o.kind.name, .text o.lead, r.name, .text (statusCell r.result.status), .text (detail r.result)]

/-- An engine on the state of the data folder. Webhooks are recorded like other requests unless
they are to be sent. -/
def openEngine (s : Settings) (d : Directory) (fields : Option Text) (sendWebhooks : Bool) : Run Engine := do
  let cursorsPath ← statePath s cursorsFile
  let cursors ← onHost (CursorStore.load (some cursorsPath))
  let rules ← openRules s
  let catalog ← readCatalog fields
  let edgesPath ← statePath s edgesFile
  let edges ← onHost (EdgeStore.load (some edgesPath) (← bound s.edgeStateMaxEntries))
  let ledgerPath ← statePath s ledgerFile
  let ledger ← onHost (Ledger.load (some ledgerPath) (← bound s.ledgerMaxEntries))
  let transport := (← get).transport
  let webhookHandler := if sendWebhooks then some (.dispatcher { settings := s, transport }) else none
  let executor : Executor := { directory := d, cursors, handler := some (.recorder {}), webhookHandler }
  return { rules, executor, catalog, edges, ledger }

/-- What the other side of the webhooks saw stays with the session. -/
def keepTransport (x : Executor) : Run Unit :=
  match x.webhookHandler with
  | some (.dispatcher d) => modify fun s => { s with transport := d.transport }
  | _ => return

def recordedCount (x : Executor) : Nat :=
  match x.handler with
  | some (.recorder r) => r.requests.length
  | _ => 0

/-- Takes events through an engine one after the other: the rows of the rules that listened and how
many actions were executed. -/
def takeEvents : List Event → Engine → Run (List (List Value) × Nat × Engine)
  | [], engine => return ([], 0, engine)
  | e :: rest, engine => do
    let (result, engine) ← onStore engine (Engine.onEvent e)
    keepTransport engine.executor
    let outcome ← ofExcept result
    let (others, executed, engine) ← takeEvents rest engine
    return (outcomeRows outcome ++ others, (outcome.withStatus .executed).length + executed, engine)

def simulate (s : Settings) (events : Text) (directory fields : Option Text) (sendWebhooks : Bool) :
    Run Unit := do
  let now := (← get).host.now
  let events ← complaining do
    let items ← readItems events
    onHost (Op.drawing (items.mapM (Event.ofWire now)))
  let d ← openDirectory s directory
  let engine ← openEngine s d fields sendWebhooks
  let (rows, executed, engine) ← takeEvents events engine
  print (.table s!"Simulation ({events.length} events)"
    ["Event", "Lead", "Rule", "Result", "Request / Reason"] rows)
  print (.panel "Summary"
    s!"Events: {events.length}\nActions executed: {executed}\nRequests recorded: {recordedCount engine.executor}")

/-! The whole run -/

/-- Settings from their file and the environment. A level for the log is asked for only when the
log is not verbose anyway. -/
def openSettings (environment : Settings.Environment) (i : Invocation) : Run Settings := do
  let path := Settings.defaultPath (← get).host.home
  let s ← onHost (Settings.load path environment)
  let s := if i.dataDir = "" then s else { s with dataDir := .text i.dataDir }
  match i.verbose, s.logLevel with
  | true, _ | false, .text _ => return s
  | false, v => throw (.fault (.noMember v.shape "upper"))

def ofRefusable {α : Type} : Except Refusal α → Run α
  | .ok a => pure a
  | .error r => throw (.refusal r)

def runCommand (s : Settings) : Command → Run Unit
  | .listRules directory => listRules s directory
  | .showRule id => showRule s id
  | .addRules file => addRules s file
  | .enableRule id => enableRule s true id
  | .disableRule id => enableRule s false id
  | .deleteRule id => deleteRule s id
  | .segment leads conditions fields => segment leads conditions fields
  | .simulate events directory fields sendWebhooks => simulate s events directory fields sendWebhooks

/-- Runs the program on its arguments. The settings are read before the command's own arguments. -/
def run (environment : Settings.Environment) (args : List Text) : Run Unit := do
  let i ← ofRefusable (Invocation.ofArguments args)
  let s ← openSettings environment i
  let command ← ofRefusable (Command.ofSection (← get).host.files i.chosen i.rest)
  runCommand s command

end LeadRules.CommandLine
