import LeadRules.CommandLine.Run
import Std.Time.DateTime.Timestamp

/-! The command line program. It looks up the clock, the environment and the files that a command
may need, runs the command on them and writes back the files that changed. No connection is made
from here, so every webhook that is to be sent fails. -/
namespace LeadRules.Main

open CommandLine

def timeOf (micros : Int) : DateTime :=
  (DateTime.ofMicros? ((DateTime.epoch * microsPerSecond : Nat) + micros)).getD ⟨0, by decide⟩

def clock : IO DateTime := do
  let now ← Std.Time.Timestamp.now
  return timeOf (now.toNanosecondsSinceUnixEpoch.toInt / 1000)

def environment : IO Settings.Environment := do
  let found ← Settings.overrides.mapM fun (name, _) => do
    return (← IO.getEnv name).map fun value => (name, (value : Text))
  return found.filterMap id

/-- The paths that an argument may hold: the whole of it, or a value attached to an option. -/
def pathsIn (arg : Text) : List Text := [arg, arg.drop 2] ++ (splitValue arg).2.toList

/-- Puts a folder or file in its place, unless something is in its way. -/
def place (path : FilePath) : FileNode → Op Host Unit
  | .folder => Op.makeFolders path
  | .file text => do
    Op.makeFolders path.parent
    Op.writeFile path text

def lookUp (h : Host) (path : Text) : IO Host := do
  let .ok name := path.toString? | return h
  if name = "" then return h
  try
    let node : FileNode ← if ← (← IO.FS.realPath name).isDir then pure .folder
      else pure (.file (← IO.FS.readFile name))
    return (place (.ofText path) node h).2
  catch _ => return h

def writeBack (before after : FileTree) : IO Unit :=
  after.nodes.entries.forM fun (place, node) => do
    let .file text := node | return
    if before.node? place = some node then return
    let path := place.toPath
    let name ← IO.ofExcept (path.toText.toString?.mapError Unencodable.message)
    let folder ← IO.ofExcept (path.parent.toText.toString?.mapError Unencodable.message)
    IO.FS.createDirAll folder
    IO.FS.writeFile name text

def preview (environment : Settings.Environment) (args : List Text) (s : Session) :
    Option (Settings × Bool) :=
  match Invocation.ofArguments args with
  | .ok i =>
    match (openSettings environment i).run.run s with
    | (.ok settings, _) => some (settings, i.verbose)
    | _ => none
  | _ => none

def threshold (settings : Settings) (verbose : Bool) : LogLevel :=
  if verbose then .debug
  else
    match settings.logLevel with
    | .text name => (LogLevel.ofName? (name.mapChars Char.toUpper)).getD .info
    | _ => .info

/-- What a stop says, where it says it and with which exit code. -/
def report : Stop → IO UInt32
  | .refusal (.answer text) => do
    IO.print text
    return 0
  | .refusal (.problem p) => do
    IO.eprintln (if p matches .nothingGiven _ then p.message else "Error: " ++ p.message).displayed
    return 2
  | .complaint text => do
    IO.eprintln ("Error: " ++ text.displayed)
    return 1
  | .fault f => do
    IO.eprintln ("Error: " ++ f.message.displayed)
    return 1

end LeadRules.Main

open LeadRules LeadRules.CommandLine in
def main (arguments : List String) : IO UInt32 := do
  let args := arguments.map Text.ofString
  let home := FilePath.ofText ((← IO.getEnv "HOME").getD ".")
  let now ← Main.clock
  let environment ← Main.environment
  let seed ← IO.rand 0 0xffffffff
  let known ← Main.lookUp { now, home, ids := { drawn := seed } } (Settings.defaultPath home).toText
  let found := Main.preview environment args { host := known }
  let folder := match found with
    | some (settings, _) => stateFiles.filterMap fun (name : String) =>
      ((settings.pathFor known name).map (·.toText)).toOption
    | none => []
  let host ← (folder ++ args.flatMap Main.pathsIn).foldlM Main.lookUp known
  let (result, s) :=
    (run environment args).run.run { host, transport := { script := [.refused "no connection"] } }
  Main.writeBack host.files s.host.files
  if let some (settings, verbose) := found then
    for record in s.host.log do
      if (Main.threshold settings verbose).severity ≤ record.level.severity then
        IO.eprintln (record.level.name ++ ": " ++ record.text.displayed)
  for item in s.console do
    for line in item.lines do IO.println line.displayed
  match result with
  | .ok _ => return 0
  | .error stop => Main.report stop
