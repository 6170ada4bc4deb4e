import LeadRules.EdgeState
import LeadRules.StateFile

/-! The edge states of all leads and rules. Transitions only touch memory; `flush` writes the
file when something changed since the last one. Beyond the bound the states whose last change
is longest ago are dropped. -/
namespace LeadRules

abbrev EdgeKey := WrittenKey × WrittenKey

namespace EdgeKey

def ofTexts (lead rule : Text) : EdgeKey := (.ofText lead, .ofText rule)

/-- What tells one key from another. -/
def identity (k : EdgeKey) : Key × Key := (k.1.key, k.2.key)

def values (k : EdgeKey) : List Value := [k.1.value, k.2.value]

end EdgeKey

structure EdgeStore where
  path : Option FilePath := none
  maxEntries : Int := 100000
  /-- The states beside their keys, the one changed last at the end. -/
  states : OrderedMap (Key × Key) (EdgeKey × EdgeState) := .empty
  /-- Whether memory holds changes that the file may lack. -/
  dirty : Bool := false

namespace EdgeStore

/-- The states of a file in their order; of two with one key the later counts. -/
def loadStates (states : OrderedMap (Key × Key) (EdgeKey × EdgeState)) :
    List Value → Except Fault (OrderedMap (Key × Key) (EdgeKey × EdgeState))
  | [] => .ok states
  | v :: rest => do
    let s ← EdgeState.ofWire v
    let key : EdgeKey := (← s.lead.asKey, ← s.rule.asKey)
    loadStates (states.putWritten key.identity key s) rest

/-- A store with the states of its file, which may be more than its bound. -/
def load (path : Option FilePath) (maxEntries : Int) : Op Host EdgeStore := do
  let v ← StateFile.load path (.list [])
  return { path, maxEntries, states := ← Op.ofExcept (v.iterate >>= loadStates .empty) }

def get (s : EdgeStore) (key : EdgeKey) : EdgeState :=
  ((s.states.get? key.identity).map (·.2)).getD (.fresh key.1.value key.2.value)

def keys (s : EdgeStore) : List EdgeKey := s.states.values.map (·.1)

/-- What a transition comes to: whether its step fired, the store after it, and the keys whose
states were dropped for the bound. A store that cannot meet its bound is `exhausted`. -/
structure Transition where
  fired : Bool
  store : EdgeStore
  dropped : List EdgeKey := []
  exhausted : Bool := false

/-- Stores a changed state as the latest one and drops what the bound has no room for. -/
def remember (s : EdgeStore) (key : EdgeKey) (state : EdgeState) (fired : Bool) : Transition :=
  let states := s.states.putWrittenLast key.identity key state
  { fired
    store := { s with states := states.boundTo s.maxEntries, dirty := s.dirty || 0 ≤ s.maxEntries }
    dropped := (states.values.map (·.1)).take (states.excess s.maxEntries)
    exhausted := s.maxEntries < 0 }

/-- Applies a step to the state of a key. Only a change that makes the state differ is stored;
whether the step fired is passed on in any case. -/
def transition (s : EdgeStore) (key : EdgeKey) (step : EdgeState → Bool × EdgeChange) : Transition :=
  let current := s.get key
  let (fired, change) := step current
  if current.isAlteredBy change then s.remember key (current.apply change) fired
  else { fired, store := s }

/-- A transition with its dropped keys in the log; an exhausted store is a fault. -/
def observe (key : EdgeKey) (step : EdgeState → Bool × EdgeChange) : StoreOp EdgeStore Bool := do
  let t := (← Op.store).transition key step
  Op.setStore t.store
  Op.onHost (modify (Host.noteAll .debug
    (t.dropped.map fun k => "Evicted edge state " ++ Value.tupleLiteral k.values)))
  if t.exhausted then throw .nothingToEvict
  return t.fired

def toWire (s : EdgeStore) : Value := .list (s.states.values.map (·.2.toWire))

/-- Writes the states if anything changed since the last write. A refused write leaves the store
as changed as it was. -/
def flush : StoreOp EdgeStore Unit := do
  let s ← Op.store
  if s.path.isNone || !s.dirty then return
  Op.setStore { s with dirty := false }
  match ← (Op.onHost (StateFile.save s.path s.toWire)).attempt with
  | .ok _ => return
  | .error fault =>
    if fault matches .file _ then Op.setStore s
    throw fault

def forget (rule : Value) : StoreOp EdgeStore Unit := do
  let s ← Op.store
  Op.setStore { s with states := s.states.filter fun _ e => !e.1.2.value.same rule, dirty := true }
  flush

end EdgeStore
end LeadRules
