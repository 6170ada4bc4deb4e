import LeadRules.EdgeStore
import LeadRules.Rule

/-! The rules of an organisation, kept in a file. Every change is made in memory and then saved
whole, so a refused write, or rules that cannot be ordered, leave the change in memory. -/
namespace LeadRules

structure Repository where
  path : Option FilePath := none
  rules : OrderedMap Text Rule := .empty

/-- The parts of a rule to replace. The trigger of a rule never changes. -/
structure RuleUpdate where
  name : Option Value := none
  description : Option Value := none
  action : Option Action := none
  /-- Conditions, or a value that was not read as such. -/
  conditions : Option (List Condition ⊕ Value) := none
  isEnabled : Option Value := none
  /-- Names of parts that cannot be replaced. -/
  others : List Text := []
  hasTrigger : Bool := false

namespace Repository

/-- The rules of a file. Entries that are malformed are skipped and noted. -/
def loadRules (path : Option FilePath) : List Value → Op Host (List Rule)
  | [] => return []
  | v :: rest => do
    let now := (← get).now
    match ← (Op.drawing (Rule.ofWire now v)).attempt with
    | .ok r => return r :: (← loadRules path rest)
    | .error (.malformed cause) =>
      let id := Value.member "id" (v.members.toOption.getD [])
      Op.log .error ("Skipping invalid stored rule " ++ id.toText ++ ": " ++ cause.message)
      loadRules path rest
    | .error fault => throw fault

def load (path : Option FilePath) : Op Host Repository := do
  let v ← StateFile.load path (.list [])
  let loaded ← loadRules path (← Op.ofExcept v.iterate)
  let rules := OrderedMap.ofList (loaded.map fun r => (r.id, r))
  if rules.size ≠ 0 then Op.log .info s!"Loaded {rules.size} automation rules"
  return { path, rules }

/-- Whether no two of the times are one with a zone and one without. -/
def comparable (rules : List Rule) : Bool :=
  rules.all (·.createdAt.offset.isSome) || rules.all (·.createdAt.offset.isNone)

/-- Rules by time of creation, those of one instant in their order. -/
def inOrder (rules : List Rule) : Except Fault (List Rule) :=
  if comparable rules then .ok (rules.mergeSort fun a b => a.createdAt.instant ≤ b.createdAt.instant)
  else .error (.misuse .mixedZones)

def list (s : Repository) (enabledOnly : Bool) : Except Fault (List Rule) :=
  inOrder (if enabledOnly then s.rules.values.filter Rule.enabled else s.rules.values)

def rulesFor (s : Repository) (kind : TriggerKind) : Except Fault (List Rule) :=
  return (← s.list true).filter (·.trigger.kind = kind)

def get? (s : Repository) (id : Text) : Option Rule := s.rules.get? id

def toWire (s : Repository) : Except Fault Value := do
  return .list (← (← s.list false).mapM Rule.toWire)

def save : StoreOp Repository Unit := do
  let s ← Op.store
  let v ← Op.ofExcept s.toWire
  Op.onHost (StateFile.save s.path v)

def put (r : Rule) : StoreOp Repository Unit := do
  let s ← Op.store
  Op.setStore { s with rules := s.rules.put r.id r }
  save

/-- Makes and stores a rule. Its identifier is the first twelve characters of a fresh one. -/
def create (name : Value) (trigger : Trigger) (action : Action) (conditions : List Condition)
    (description isEnabled : Value) : StoreOp Repository Rule := do
  if !name.truthy then throw (.malformed .ruleWithoutName)
  let id ← Op.onHost (Op.drawing (IdSource.drawShort 12))
  let now := Stamp.ofDateTime (← get).2.now
  let r : Rule :=
    { id, name, trigger, action, conditions, description, isEnabled, createdAt := now, updatedAt := now }
  put r
  Op.onHost (Op.log .info
    ("Created rule '" ++ name.toText ++ "' (" ++ id ++ "): " ++ trigger.kind.name ++ " -> " ++
      action.kind.name))
  return r

def add (r : Rule) : StoreOp Repository Rule := do
  if (← Op.store).rules.contains r.id then throw (.malformed (.ruleExists r.id))
  put r
  return r

def importRule (v : Value) : StoreOp Repository Rule := do
  let now := (← get).2.now
  add (← Op.onHost (Op.drawing (Rule.ofWire now v)))

/-- The conditions that an update leaves behind: those given, or the items of a value that was
not read as conditions. -/
def replacedConditions (r : Rule) :
    Option (List Condition ⊕ Value) → Except Fault (List Condition × List Text)
  | none => .ok (r.conditions, r.strays)
  | some (.inl conditions) => .ok (conditions, [])
  | some (.inr v) => return ([], (← v.itemsOrNone).map Value.toText)

/-- What an update may not ask for, whether or not the rule exists. -/
def refusal? (u : RuleUpdate) : Option Malformed :=
  if u.hasTrigger then some .triggerFixed
  else if !u.others.isEmpty then some (.fieldsNotUpdatable (Text.sorted u.others))
  else if u.name.any fun name => !name.truthy then some .ruleWithoutName
  else none

/-- Replaces parts of a rule and sets its time of update; `none` when there is no such rule. -/
def update (id : Text) (u : RuleUpdate) : StoreOp Repository (Option Rule) := do
  if let some cause := refusal? u then throw (.malformed cause)
  let some r := (← Op.store).get? id | return none
  let (conditions, strays) ← Op.ofExcept (replacedConditions r u.conditions)
  let now := (← get).2.now
  let r := { r with
    name := u.name.getD r.name
    description := u.description.getD r.description
    action := u.action.getD r.action
    isEnabled := u.isEnabled.getD r.isEnabled
    conditions, strays
    updatedAt := .ofDateTime now }
  put r
  return some r

def setEnabled (id : Text) (enabled : Bool) : StoreOp Repository Bool :=
  return (← update id { isEnabled := some (.bool enabled) }).isSome

def remove (id : Text) : StoreOp Repository Bool := do
  let s ← Op.store
  if !s.rules.contains id then return false
  Op.setStore { s with rules := s.rules.erase id }
  save
  return true

def delete {σ : Type} (rules : σ → Repository) (setRules : σ → Repository → σ) (id : Text)
    (forget : StoreOp σ Unit) : StoreOp σ Bool := do
  let removed ← (remove id).onPart (fun s => (rules s.1, s.2)) fun s part => (setRules s.1 part.1, part.2)
  if !removed then return false
  forget
  Op.onHost (Op.log .info ("Deleted rule " ++ id))
  return true

end Repository
end LeadRules
