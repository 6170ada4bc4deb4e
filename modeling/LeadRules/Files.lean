import LeadRules.Fault
import LeadRules.OrderedMap

/-! A tree of folders and text files, and the operations on it that may be refused. -/
namespace LeadRules

/-- A path as its components, below the working folder unless it has a root. -/
structure FilePath where
  root : String := ""
  parts : List Text := []
deriving DecidableEq

namespace FilePath

/-- Empty components and single dots add nothing. Two leading slashes are a root of their own. -/
def ofText (t : Text) : FilePath :=
  let slashes := (t.points.takeWhile (· = .char '/')).length
  { root := if slashes = 0 then "" else if slashes = 2 then "//" else "/"
    parts := (t.splitOn '/').filter fun part => part ≠ "" && part ≠ "." }

def toText (p : FilePath) : Text :=
  if p.parts.isEmpty then (if p.root = "" then "." else p.root)
  else p.root ++ Text.intercalate "/" p.parts

/-- A path below another; one with a root stands alone. -/
def join (p q : FilePath) : FilePath := if q.root = "" then { p with parts := p.parts ++ q.parts } else q

def parent (p : FilePath) : FilePath := { p with parts := p.parts.dropLast }

def up : Text := ".."

def nameLimit : Nat := 255
def pathLimit : Nat := 4095

def bytesOf (t : Text) : Except PathProblem (List UInt8) :=
  match t.nameBytes? with
  | .ok bytes => if bytes.contains 0 then .error .null else .ok bytes
  | .error problem => .error (.unencodable problem)

/-- Replaces a leading tilde by the home folder, and one with the name of a user by the home of
that user. -/
def expandHome (home : FilePath) (users : List (Text × FilePath)) (p : FilePath) : Except Fault FilePath :=
  match p.root, p.parts with
  | "", first :: rest =>
    if first = "~" then .ok (home.join ⟨"", rest⟩)
    else if first.startsWith "~" then
      match bytesOf (first.drop 1), users.lookup (first.drop 1) with
      | .error problem, _ => .error (.badValue (.unusablePath problem))
      | .ok _, some folder => .ok (folder.join ⟨"", rest⟩)
      | .ok _, none => .error .homeUnknown
    else .ok p
  | _, _ => .ok p

/-- Whether a text asks for a folder: it ends where another name could follow. -/
def asksForFolder (t : Text) : Bool :=
  t ≠ "" && (t.splitOn '/').getLast?.any fun (last : Text) => last = "" ∨ last = "."

def temporary (p : FilePath) : Except Fault FilePath :=
  match p.parts.getLast? with
  | some name => .ok { p with parts := p.parts.dropLast ++ [name ++ ".tmp"] }
  | none => .error (.badValue (.emptyFileName p.toText))

end FilePath

/-- Where a place is counted from: so many folders above the working folder, or the root. -/
inductive Anchor where
  | above (levels : Nat)
  | root
deriving DecidableEq

/-- A place in the tree: the names that lead there. -/
structure Place where
  anchor : Anchor := .above 0
  names : List (List UInt8) := []
deriving DecidableEq

namespace Place

def below (p : Place) (name : List UInt8) : Place := { p with names := p.names ++ [name] }

def up (p : Place) : Place :=
  match p.anchor, p.names with
  | .above levels, [] => { anchor := .above (levels + 1) }
  | _, names => { p with names := names.dropLast }

def toPath (p : Place) : FilePath :=
  let names := p.names.map Bytes.toText
  match p.anchor with
  | .above levels => { parts := List.replicate levels FilePath.up ++ names }
  | .root => { root := "/", parts := names }

end Place

inductive FileNode where
  | folder
  | file (text : String)
deriving DecidableEq

/-- The folders and files that are known. Those that places are counted from are always there. -/
structure FileTree where
  nodes : OrderedMap Place FileNode := .empty

namespace FileTree

def node? (t : FileTree) (place : Place) : Option FileNode :=
  if place.names.isEmpty then some .folder else t.nodes.get? place

/-- Follows components from a folder to a place and what stands there. The last one may be
missing; two dots lead back up. -/
def follow (t : FileTree) (here : Place) : List Text → Except FileProblem (Place × Option FileNode)
  | [] => .ok (here, some .folder)
  | part :: rest =>
    if part = FilePath.up then follow t here.up rest
    else
      let name := part.points.flatMap Point.nameBytes
      if FilePath.nameLimit < name.length then .error .nameTooLong
      else match t.node? (here.below name) with
      | some .folder => follow t (here.below name) rest
      | some file => if rest.isEmpty then .ok (here.below name, some file) else .error .notFolder
      | none => if rest.isEmpty then .ok (here.below name, none) else .error .missing

def refuse {α : Type} (problem : FileProblem) (p : FilePath) : Except Fault α :=
  .error (.file { problem, path := p.toText })

/-- The place that a path leads to and what stands there. A path must have bytes, and not too
many of them. -/
def find (t : FileTree) (p : FilePath) : Except Fault (Place × Option FileNode) :=
  match FilePath.bytesOf p.toText with
  | .error problem => .error (.badValue (.unusablePath problem))
  | .ok bytes =>
    if FilePath.pathLimit < bytes.length then refuse .nameTooLong p
    else
      match t.follow { anchor := if p.root = "" then .above 0 else .root } p.parts with
      | .ok found => .ok found
      | .error problem => refuse problem p

/-- Whether something stands at a path. That cannot be told of one with a name too long. -/
def contains (t : FileTree) (p : FilePath) : Except Fault Bool :=
  match t.find p with
  | .ok (_, node) => .ok node.isSome
  | .error fault@(.file { problem := .nameTooLong, .. }) => .error fault
  | .error _ => .ok false

def read (t : FileTree) (p : FilePath) : Except Fault String := do
  match ← t.find p with
  | (_, some (.file text)) => return text
  | (_, some .folder) => refuse .isFolder p
  | (_, none) => refuse .missing p

def write (t : FileTree) (p : FilePath) (text : String) : Except Fault FileTree := do
  match ← t.find p with
  | (_, some .folder) => refuse .isFolder p
  | (place, _) => return ⟨t.nodes.put place (.file text)⟩

/-- Makes one folder, content with one that is there. -/
def makeFolder (t : FileTree) (p : FilePath) : Except Fault FileTree := do
  match ← t.find p with
  | (_, some .folder) => return t
  | (_, some (.file _)) => refuse .alreadyThere p
  | (place, none) => return ⟨t.nodes.put place .folder⟩

/-- Moves a file onto a place that is free or holds a file. The target must be named in its
folder. -/
def replace (t : FileTree) (source target : FilePath) : Except Fault FileTree := do
  let refuseMove (problem : FileProblem) : Except Fault FileTree :=
    .error (.file { problem, path := source.toText, target := some target.toText })
  match ← t.find source, ← t.find target with
  | (place, some (.file text)), (goal, node) =>
    if target.parts.getLast? = some FilePath.up then refuseMove .busy
    else if node = some .folder then refuseMove .isFolder
    else return ⟨(t.nodes.erase place).put goal (.file text)⟩
  | _, _ => refuseMove .missing

/-- The paths of the files below the working folder, in the order of their texts. -/
def listing (t : FileTree) : List Text :=
  Text.sorted (t.nodes.entries.filterMap fun (place, node) =>
    match node with
    | .file _ => if place.anchor = .above 0 then some place.toPath.toText else none
    | .folder => none)

end FileTree
end LeadRules
