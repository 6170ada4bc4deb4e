import LeadRules.Rule

/-! Definitions built directly from named values. The values are taken as they are, of any
shape; only the rules that every definition obeys are checked. -/
namespace LeadRules.Definition

/-- The parts of a kind of definition: the argument's name, the wire name, and the default of
one that may be left out. -/
abbrev Parts := List (Text × Text × Option Value)

def Parts.ofTrigger : TriggerKind → Parts
  | .newLead | .taskCompleted => []
  | .leadUntouched => [("hours", "hours", none)]
  | .stageChanged => [("to_stage", "toStage", none)]
  | .scoreReaches => [("score", "score", none)]

def Parts.ofAction : ActionKind → Parts
  | .addTag => [("tag", "tag", none)]
  | .assignToUser => [("user_id", "userId", none)]
  | .assignToTeam | .assignRoundRobin => [("team_id", "teamId", none)]
  | .sendWebhook => [("url", "url", none)]
  | .createTask => [("title", "title", none), ("due_days", "dueDays", some (.int 1))]
  | .addToPhoneList => [("phone_list_id", "phoneListId", none)]

def conditionParts : Parts :=
  [("field", "field", none), ("operator", "operator", none), ("value", "value", some .null),
    ("logic", "logic", some (.text Logic.and.name)), ("id", "id", some .null)]

/-- The values of the parts under their wire names. Every argument must belong to a part, and
every part without a default needs one. -/
def arrange (parts : Parts) (arguments : List (Value × Value)) : Except Fault (List (Text × Value)) := do
  if arguments.any fun (k, _) => !parts.any fun part => k = .text part.1 then
    throw (.misuse .arguments)
  parts.mapM fun (name, wireName, default) =>
    match Value.lookup name arguments <|> default with
    | some v => .ok (wireName, v)
    | none => .error (.misuse .arguments)

/-- Whether a number is below zero; other shapes do not compare with it. -/
def isNegative (v : Value) : Except Fault Bool :=
  match v.asInt?, v with
  | some n, _ => .ok (n < 0)
  | none, .float x => .ok (x.lt .zero)
  | none, v => .error (.misuse (.notComparable v.shape))

def part (name : Text) (values : List (Text × Value)) : Value :=
  ((values.find? (·.1 = name)).map (·.2)).getD .null

def refuseUnless (holds : Bool) (cause : Malformed) : Except Fault Unit :=
  if holds then .ok () else .error (.malformed cause)

def trigger (kind : TriggerKind) (arguments : List (Value × Value)) : Except Fault Value := do
  let values ← arrange (.ofTrigger kind) arguments
  match kind with
  | .leadUntouched => refuseUnless (!(← isNegative (part "hours" values))) .negativeHours
  | .stageChanged => refuseUnless (part "toStage" values).truthy .stageMissing
  | _ => pure ()
  return .record (("type", .text kind.name) :: values)

def checkUrl : Value → Except Fault Unit
  | .text url => refuseUnless (Action.isHttp url) (.urlNotHttp url)
  | v => .error (.noMember v.shape "startswith")

def action (kind : ActionKind) (arguments : List (Value × Value)) : Except Fault Value := do
  let values ← arrange (.ofAction kind) arguments
  match kind with
  | .addTag => refuseUnless (part "tag" values).truthy .tagMissing
  | .sendWebhook => checkUrl (part "url" values)
  | .createTask =>
    refuseUnless (part "title" values).truthy .titleMissing
    refuseUnless (!(← isNegative (part "dueDays" values))) .negativeDueDays
  | _ => pure ()
  return .record (("type", .text kind.name) :: values)

def operator (v : Value) : Except Fault Operator :=
  match v with
  | .text s =>
    match Operator.ofName? s with
    | some op => .ok op
    | none => .error (.badValue (.notOperator v))
  | v => .error (.badValue (.notOperator v))

def logic (v : Value) : Except Fault Logic :=
  match v with
  | .text s =>
    match Logic.ofName? s with
    | some l => .ok l
    | none => .error (.badValue (.notLogic v))
  | v => .error (.badValue (.notLogic v))

/-- Operator and logic by their exact names; an identifier is drawn when none is given. -/
def condition (arguments : List (Value × Value)) : Op IdSource Value := do
  let operator ← match Value.lookup "operator" arguments with
    | some v => Op.ofExcept (operator v)
    | none => throw (.missingKey "operator")
  let logic ← Op.ofExcept (logic (Value.memberOr "logic" (.text Logic.and.name) arguments))
  let values ← Op.ofExcept (arrange conditionParts arguments)
  let id ← match Value.lookup "id" arguments with
    | some v => pure v
    | none => Value.text <$> IdSource.drawShort 8
  let c ← Op.ofExcept (Condition.check
    { id := id.toText, field := part "field" values, operator, value := part "value" values, logic })
  return .record [
    ("id", id), ("field", c.field), ("operator", .text operator.name),
    ("value", if operator.takesValue then c.value else .null), ("logic", .text logic.name)]

end LeadRules.Definition
