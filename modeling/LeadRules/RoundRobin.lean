import LeadRules.Directory
import LeadRules.Action
import LeadRules.EdgeStore

/-! Round-robin assignment: the members of a team take turns. A cursor keeps the place of the
member who was last; it is saved with every step. -/
namespace LeadRules

/-- Cursors by team; a team without one starts before its first member. -/
structure CursorStore where
  path : Option FilePath := none
  cursors : OrderedMap Text Int := .empty

namespace CursorStore

def loadCursors : List (Value × Value) → Except Fault (List (Text × Int))
  | [] => .ok []
  | (team, index) :: rest => return (team.toText, ← index.toWhole) :: (← loadCursors rest)

def load (path : Option FilePath) : Op Host CursorStore := do
  match ← StateFile.load path (.map []) with
  | .map entries => return { path, cursors := .ofList (← Op.ofExcept (loadCursors entries)) }
  | v => throw (.noMember v.shape "items")

def index (s : CursorStore) (team : Text) : Int := (s.cursors.get? team).getD (-1)

def toWire (s : CursorStore) : Value := .record (s.cursors.entries.map fun (team, n) => (team, .int n))

/-- Moves a cursor and saves all of them; memory keeps the move when the write is refused. -/
def put (team : Text) (index : Int) : StoreOp CursorStore Unit := do
  let s ← Op.store
  let s := { s with cursors := s.cursors.put team index }
  Op.setStore s
  Op.onHost (StateFile.save s.path s.toWire)

/-- The place of the member after the cursor, going round. -/
def following (s : CursorStore) (team : Text) (size : Nat) : Nat := ((s.index team + 1) % size).toNat

def next (d : Directory) (team : Text) : StoreOp CursorStore Text := do
  let members := d.members team
  if members.isEmpty then throw (.emptyTeam team)
  let place := (← Op.store).following team members.length
  put team place
  let member := members[place]?.getD ""
  Op.onHost (Op.log .debug ("Round-robin for team " ++ team ++ s!": member {place} -> " ++ member))
  return member

end CursorStore
end LeadRules
