import LeadRules.StateFile
import LeadRules.Wire

/-! Settings: where the state lives, how webhooks are sent and how much is kept. They are read
from a file and then from the environment. Each is kept as it was set, whatever its shape; who
uses one says what shape it needs. -/
namespace LeadRules

structure Settings where
  dataDir : Value
  logLevel : Value := .text "INFO"
  webhookTimeout : Value := .float (.ofNat 10)
  webhookRetries : Value := .int 3
  /-- Seconds before the second attempt, doubled for each one after it. -/
  webhookBackoff : Value := .float (.ofNat 2)
  userAgent : Value := .text "crm-automation/1.0"
  idleScanMinutes : Value := .int 15
  ledgerMaxEntries : Value := .int 10000
  edgeStateMaxEntries : Value := .int 100000
  updatedAt : DateTime
deriving DecidableEq

namespace Settings

def folder (home : FilePath) : FilePath := home.join (.ofText ".crm-automation")

def defaultPath (home : FilePath) : FilePath := (folder home).join (.ofText "config.json")

def initial (home : FilePath) (now : DateTime) : Settings :=
  { dataDir := .text ((folder home).join (.ofText "data")).toText, updatedAt := now }

/-- The path of a state file: in the data folder, unless its name is a path with a root. -/
def pathFor (s : Settings) (h : Host) (name : Text) : Except Fault FilePath :=
  match s.dataDir with
  | .text folder => return (← FilePath.expandHome h.home h.users (.ofText folder)).join (.ofText name)
  | v => .error (.misuse (.textExpected v.shape))

def toWire (s : Settings) : Value := .record [
  ("data_dir", s.dataDir),
  ("log_level", s.logLevel),
  ("webhook_timeout", s.webhookTimeout),
  ("webhook_retries", s.webhookRetries),
  ("webhook_backoff", s.webhookBackoff),
  ("user_agent", s.userAgent),
  ("idle_scan_minutes", s.idleScanMinutes),
  ("ledger_max_entries", s.ledgerMaxEntries),
  ("edge_state_max_entries", s.edgeStateMaxEntries),
  ("updated_at", .text s.updatedAt.isoText)]

/-- Replaces a setting by its name, unconverted; other names are ignored. -/
def put (name : String) (v : Value) (s : Settings) : Settings :=
  match name with
  | "data_dir" => { s with dataDir := v }
  | "log_level" => { s with logLevel := v }
  | "webhook_timeout" => { s with webhookTimeout := v }
  | "webhook_retries" => { s with webhookRetries := v }
  | "webhook_backoff" => { s with webhookBackoff := v }
  | "user_agent" => { s with userAgent := v }
  | "idle_scan_minutes" => { s with idleScanMinutes := v }
  | "ledger_max_entries" => { s with ledgerMaxEntries := v }
  | "edge_state_max_entries" => { s with edgeStateMaxEntries := v }
  | _ => s

/-- The settings of an object. Numbers are converted in order, and the first that cannot be is
the fault; what is left out keeps its default. -/
def ofWire (home : FilePath) (now : DateTime) (v : Value) : Except Fault Settings := do
  let data ← v.members
  let start := initial home now
  let webhookTimeout ← (Value.memberOr "webhook_timeout" start.webhookTimeout data).toFloating
  let webhookRetries ← (Value.memberOr "webhook_retries" start.webhookRetries data).toWhole
  let webhookBackoff ← (Value.memberOr "webhook_backoff" start.webhookBackoff data).toFloating
  let idleScanMinutes ← (Value.memberOr "idle_scan_minutes" start.idleScanMinutes data).toWhole
  let ledgerMaxEntries ← (Value.memberOr "ledger_max_entries" start.ledgerMaxEntries data).toWhole
  let edgeStateMaxEntries ←
    (Value.memberOr "edge_state_max_entries" start.edgeStateMaxEntries data).toWhole
  return {
    dataDir := Value.memberOr "data_dir" start.dataDir data
    logLevel := Value.memberOr "log_level" start.logLevel data
    webhookTimeout := .float webhookTimeout
    webhookRetries := .int webhookRetries
    webhookBackoff := .float webhookBackoff
    userAgent := Value.memberOr "user_agent" start.userAgent data
    idleScanMinutes := .int idleScanMinutes
    ledgerMaxEntries := .int ledgerMaxEntries
    edgeStateMaxEntries := .int edgeStateMaxEntries
    updatedAt := now }

/-- Whether a settings file that fails this way counts as unreadable, so that the defaults
stand in for it. -/
def isUnreadable : Fault → Bool
  | .file _ | .json _ | .badValue _ | .misuse _ => true
  | _ => false

def loadFile (path : FilePath) : Op Host Settings := do
  let h ← get
  if !(← Op.ofExcept (h.files.contains path)) then return initial h.home h.now
  match StateFile.parse path h.files >>= ofWire h.home h.now with
  | .ok s => return s
  | .error fault =>
    if !isUnreadable fault then throw fault
    Op.log .error ("Error loading engine config: " ++ fault.message)
    return initial h.home h.now

/-- Settings that a variable of the environment overrides: the variable, the setting and how the
text is converted. -/
def overrides : List (String × String × (Text → Except Fault Value)) := [
  ("CRM_AUTOMATION_DATA_DIR", "data_dir", fun s => .ok (.text s)),
  ("CRM_AUTOMATION_LOG_LEVEL", "log_level", fun s => .ok (.text s)),
  ("CRM_AUTOMATION_WEBHOOK_TIMEOUT", "webhook_timeout", fun s => Value.float <$> (Value.text s).toFloating),
  ("CRM_AUTOMATION_WEBHOOK_RETRIES", "webhook_retries", fun s => Value.int <$> (Value.text s).toWhole),
  ("CRM_AUTOMATION_IDLE_SCAN_MINUTES", "idle_scan_minutes", fun s => Value.int <$> (Value.text s).toWhole)]

abbrev Environment := List (String × Text)

/-- Applies one override. An empty variable counts as none, and one that does not convert is
noted and ignored. -/
def applyOverride (environment : Environment) (s : Settings)
    (entry : String × String × (Text → Except Fault Value)) : Op Host Settings := do
  let (source, name, convert) := entry
  let some given := environment.lookup source | return s
  if given = "" then return s
  match convert given with
  | .ok v => return s.put name v
  | .error (.badValue _) =>
    Op.log .warning ("Ignoring invalid " ++ source ++ "=" ++ quoted given)
    return s
  | .error fault => throw fault

/-- The defaults, then the file, then the environment. -/
def load (path : FilePath) (environment : Environment) : Op Host Settings := do
  overrides.foldlM (applyOverride environment) (← loadFile path)

def save (path : FilePath) (s : Settings) : Op Host Settings := do
  Op.makeFolders path.parent
  let s := { s with updatedAt := (← get).now }
  Op.writeFile path (Json.writeIndented s.toWire)
  return s

def setDataDir (path : FilePath) (folder : Value) (s : Settings) : Op Host Settings :=
  save path { s with dataDir := folder }

end Settings
end LeadRules
