import LeadRules.Wire

/-! The directory: the teams, users and phone lists that actions refer to. -/
namespace LeadRules

structure User where
  id : Text
  name : Value
  role : UserRole
  team : Text

/-- A sales team. Its lead is a member only when listed as one. -/
structure Team where
  id : Text
  name : Value
  lead : Option Text
  listedMembers : List Text

structure PhoneList where
  id : Text
  name : Value

structure Directory where
  teams : OrderedMap Text Team := .empty
  users : OrderedMap Text User := .empty
  phoneLists : OrderedMap Text PhoneList := .empty

def UserRole.ofWire (v : Value) : Except Fault UserRole :=
  match v with
  | .text s =>
    match UserRole.ofName? s with
    | some r => .ok r
    | none => .error (.badValue (.notUserRole v))
  | v => .error (.badValue (.notUserRole v))

namespace Team

/-- The members in their order, each once. -/
def members (t : Team) : List Text := t.listedMembers.eraseDups

def ofWire (v : Value) : Except Fault Team := do
  let id ← v.subscript "id"
  let data ← v.members
  let members ← (Value.memberOr "memberUserIds" (.list []) data).iterate
  return {
    id := id.toText
    name := Value.memberOr "name" (.text "") data
    lead := match Value.member "leadUserId" data with
      | .null => none
      | lead => some lead.toText
    listedMembers := members.map Value.toText }

end Team

namespace User

def ofWire (v : Value) : Except Fault User := do
  let id ← v.subscript "id"
  let data ← v.members
  let role ← UserRole.ofWire (Value.memberOr "role" (.text UserRole.salesRep.name) data)
  let team := Value.member "teamId" data
  return {
    id := id.toText, name := Value.memberOr "name" (.text "") data, role,
    team := if team.truthy then team.toText else "" }

end User

namespace PhoneList

def ofWire (v : Value) : Except Fault PhoneList := do
  let id ← v.subscript "id"
  let data ← v.members
  return { id := id.toText, name := Value.memberOr "name" (.text "") data }

end PhoneList

namespace Directory

def empty : Directory := {}

/-- The entries of a directory are read group by group; of two with one identifier the later
counts. -/
def ofWire (v : Value) : Except Fault Directory := do
  let data ← v.members
  let items (key : Text) := (Value.memberOr key (.list []) data).iterate
  let teams ← (← items "teams").mapM Team.ofWire
  let users ← (← items "users").mapM User.ofWire
  let phoneLists ← (← items "phoneLists").mapM PhoneList.ofWire
  return {
    teams := .ofList (teams.map fun t => (t.id, t))
    users := .ofList (users.map fun u => (u.id, u))
    phoneLists := .ofList (phoneLists.map fun p => (p.id, p)) }

/-- The members of a team that take turns; an unknown team has none. -/
def members (d : Directory) (team : Text) : List Text :=
  match d.teams.get? team with
  | some t => t.members
  | none => []

end Directory
end LeadRules
