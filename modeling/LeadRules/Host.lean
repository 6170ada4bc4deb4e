import LeadRules.Files
import LeadRules.Operation

/-! What the program finds around it: the clock, a source of identifiers, files, the home folder
and a log. -/
namespace LeadRules

inductive LogLevel where
  | debug
  | info
  | warning
  | error
deriving DecidableEq

namespace LogLevel

def name : LogLevel → String
  | debug => "DEBUG"
  | info => "INFO"
  | warning => "WARNING"
  | error => "ERROR"

def severity : LogLevel → Nat
  | debug => 10
  | info => 20
  | warning => 30
  | error => 40

def all : List LogLevel := [debug, info, warning, error]
def ofName? (name : Text) : Option LogLevel := all.find? fun level => level.name = name

end LogLevel

structure LogRecord where
  level : LogLevel
  text : Text
deriving DecidableEq

structure Host where
  now : DateTime
  ids : IdSource := {}
  files : FileTree := {}
  /-- Which of the coming changes of files the disk refuses; it refuses none beyond them. -/
  refusals : List Bool := []
  home : FilePath := {}
  /-- The homes of other users by their names. -/
  users : List (Text × FilePath) := [("root", .ofText "/root")]
  log : Array LogRecord := #[]

namespace Host

def note (level : LogLevel) (text : Text) (h : Host) : Host :=
  { h with log := h.log.push { level, text } }

def noteAll (level : LogLevel) (texts : List Text) (h : Host) : Host :=
  texts.foldl (fun h text => h.note level text) h

end Host

namespace Op

def log (level : LogLevel) (text : Text) : Op Host Unit := modify (Host.note level text)

def drawing {α : Type} (op : Op IdSource α) : Op Host α := op.onPart Host.ids fun h ids => { h with ids }

/-- Changes the files, or leaves them when the disk or what stands at the path refuses. -/
def changeFiles (path : FilePath) (change : FileTree → Except Fault FileTree) : Op Host Unit := do
  let h ← get
  set { h with refusals := h.refusals.tail }
  if h.refusals.head?.getD false then throw (.file { problem := .deviceFailed, path := path.toText })
  match change h.files with
  | .ok files => modify fun h => { h with files }
  | .error fault => throw fault

/-- Makes a folder and, where they are missing, up to `depth` folders above it. What was made stays
when a later one is refused. -/
def makeFoldersTo (path : FilePath) : Nat → Op Host Unit
  | 0 => changeFiles path (·.makeFolder path)
  | depth + 1 => do
    match ← (changeFiles path (·.makeFolder path)).attempt with
    | .ok _ => return
    | .error (.file { problem := .missing, .. }) =>
      makeFoldersTo path.parent depth
      changeFiles path (·.makeFolder path)
    | .error fault => throw fault

def makeFolders (path : FilePath) : Op Host Unit := makeFoldersTo path path.parts.length

/-- Writes a file: it is emptied first, so a refused write leaves it empty. -/
def writeFile (path : FilePath) (text : String) : Op Host Unit := do
  changeFiles path (·.write path "")
  changeFiles path (·.write path text)

def replaceFile (source target : FilePath) : Op Host Unit := changeFiles source (·.replace source target)

end Op

/-- Operations on a store beside the host that it lives on. -/
abbrev StoreOp (σ α : Type) := Op (σ × Host) α

namespace Op

def onHost {σ α : Type} (op : Op Host α) : StoreOp σ α := op.onPart (·.2) fun s h => (s.1, h)

def store {σ : Type} : StoreOp σ σ := return (← get).1

def setStore {σ : Type} (s : σ) : StoreOp σ Unit := modify fun (_, h) => (s, h)

end Op
end LeadRules
