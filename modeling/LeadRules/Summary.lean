import LeadRules.Directory
import LeadRules.Rule

/-! One line about a rule, for listings. -/
namespace LeadRules

def Binary64.summary (x : Binary64) : Text :=
  if x.isIntegral then
    match x.truncate? with
    | some n => toString n
    | none => x.toText
  else x.toText

def Trigger.summary (t : Trigger) (hasConditions : Bool) : Text :=
  let text := match t with
    | newLead => "A new lead is created"
    | leadUntouched hours => "A lead is untouched for " ++ hours.summary ++ " hours"
    | stageChanged toStage => "A lead's stage is changed to " ++ toStage
    | taskCompleted => "A task is completed"
    | scoreReaches score => "Lead score reaches " ++ score.summary
  if hasConditions then text ++ " that matches conditions..." else text

/-- Users, teams and lists are named as the directory names them. -/
def Action.summary (a : Action) (d : Directory) : Text :=
  match a with
  | addTag tag => "Add tag: \"" ++ tag ++ "\""
  | assignToUser user => "Assign to " ++ named ((d.users.get? user).map (·.name)) "Unknown User"
  | assignToTeam team => "Assign to Team: " ++ named ((d.teams.get? team).map (·.name)) "Unknown"
  | assignRoundRobin team => "Round-Robin in Team: " ++ named ((d.teams.get? team).map (·.name)) "Unknown"
  | sendWebhook _ => "Send webhook to URL"
  | createTask title _ => "Create task: \"" ++ title ++ "\""
  | addToPhoneList list =>
    "Add to Phone List: " ++ named ((d.phoneLists.get? list).map (·.name)) "Unknown List"
where
  named (name : Option Value) (unknown : Text) : Text :=
    match name with
    | some v => v.toText
    | none => unknown

def Rule.summary (r : Rule) (d : Directory) : Text :=
  "WHEN " ++ r.trigger.summary r.hasConditions ++ " THEN " ++ r.action.summary d

end LeadRules
