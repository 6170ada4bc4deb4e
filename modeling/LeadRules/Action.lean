import LeadRules.Trigger

/-! Actions: the side effect that a rule asks for. -/
namespace LeadRules

inductive Action where
  | addTag (tag : Text)
  | assignToUser (user : Text)
  | assignToTeam (team : Text)
  | assignRoundRobin (team : Text)
  | sendWebhook (url : Text)
  | createTask (title : Text) (dueDays : Int)
  | addToPhoneList (phoneList : Text)
deriving DecidableEq

namespace Action

def kind : Action → ActionKind
  | addTag _ => .addTag
  | assignToUser _ => .assignToUser
  | assignToTeam _ => .assignToTeam
  | assignRoundRobin _ => .assignRoundRobin
  | sendWebhook _ => .sendWebhook
  | createTask .. => .createTask
  | addToPhoneList _ => .addToPhoneList

def isHttp (url : Text) : Bool :=
  url.startsWith "http://" || url.startsWith "https://"

/-- A tag and a title are not empty, a URL is one of the web, and a task is not due in the past. -/
def check (a : Action) : Except Fault Action :=
  match a with
  | addTag tag => if tag = "" then .error (.malformed .tagMissing) else .ok a
  | sendWebhook url => if isHttp url then .ok a else .error (.malformed (.urlNotHttp url))
  | createTask title dueDays =>
    if title = "" then .error (.malformed .titleMissing)
    else if dueDays < 0 then .error (.malformed .negativeDueDays)
    else .ok a
  | a => .ok a

def ofWire (v : Value) : Except Fault Action := do
  let .map data := v | throw (.malformed .actionNotObject)
  let given := Value.member "type" data
  let .text name := given | throw (.malformed (.unknownAction given))
  let some kind := ActionKind.ofName? name | throw (.malformed (.unknownAction given))
  let filled (key : String) : Except Fault Text :=
    return (← Value.filled kind.name key data).toText
  match kind with
  | .addTag => check (addTag (← filled "tag"))
  | .assignToUser => return assignToUser (← filled "userId")
  | .assignToTeam => return assignToTeam (← filled "teamId")
  | .assignRoundRobin => return assignRoundRobin (← filled "teamId")
  | .sendWebhook => check (sendWebhook (← filled "url"))
  | .createTask =>
    let title ← filled "title"
    let days ← (Value.memberOr "dueDays" (.int 1) data).numeric "dueDays"
    check (createTask title (← days.toWhole))
  | .addToPhoneList => return addToPhoneList (← filled "phoneListId")

def toWire (a : Action) : Value := .record (("type", .text a.kind.name) ::
  match a with
  | addTag tag => [("tag", .text tag)]
  | assignToUser user => [("userId", .text user)]
  | assignToTeam team | assignRoundRobin team => [("teamId", .text team)]
  | sendWebhook url => [("url", .text url)]
  | createTask title dueDays => [("title", .text title), ("dueDays", .int dueDays)]
  | addToPhoneList phoneList => [("phoneListId", .text phoneList)])

end Action
end LeadRules
