import LeadRules.Host
import LeadRules.Json.Writer

/-! JSON state files. A store without a path lives in memory only. A write goes to a temporary
file that then takes the place of the old one, so a refused write leaves the old file whole. -/
namespace LeadRules.StateFile

/-- Every kind of line end as a line feed, as texts are read. -/
def normalLines : List Char → List Char
  | '\r' :: '\n' :: rest => '\n' :: normalLines rest
  | '\r' :: rest => '\n' :: normalLines rest
  | c :: rest => c :: normalLines rest
  | [] => []

def text (p : FilePath) (files : FileTree) : Except Fault String :=
  (files.read p).map fun s => String.ofList (normalLines s.toList)

def parse (p : FilePath) (files : FileTree) : Except Fault Value := do
  (Json.read (← text p files)).mapError .ofReadProblem

/-- Whether a state file that fails this way counts as unreadable, so that the default stands in
for it. -/
def isUnreadable : Fault → Bool
  | .file _ | .json _ => true
  | _ => false

/-- The value in a file; the default when there is none or it cannot be read. -/
def load (path : Option FilePath) (default : Value) : Op Host Value := do
  let some p := path | return default
  let files := (← get).files
  if !(← Op.ofExcept (files.contains p)) then return default
  match parse p files with
  | .ok v => return v
  | .error fault =>
    if !isUnreadable fault then throw fault
    Op.log .error ("Error loading state file " ++ p.toText ++ ": " ++ fault.message)
    return default

def save (path : Option FilePath) (v : Value) : Op Host Unit := do
  let some p := path | return
  Op.makeFolders p.parent
  let temporary ← Op.ofExcept p.temporary
  Op.writeFile temporary (Json.writeIndented v)
  Op.replaceFile temporary p

end LeadRules.StateFile
