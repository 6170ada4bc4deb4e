import LeadRules.Text.Basic

/-! The fixed words of the wire formats. Each kind of word lists its members, and a text
denotes the member of that name. -/
namespace LeadRules

inductive Operator where
  | equals
  | notEquals
  | contains
  | greater
  | less
  | isSet
  | isNotSet
deriving DecidableEq

namespace Operator

def name : Operator → String
  | equals => "equals"
  | notEquals => "not_equals"
  | contains => "contains"
  | greater => "gt"
  | less => "lt"
  | isSet => "is_set"
  | isNotSet => "is_not_set"

def all : List Operator := [equals, notEquals, contains, greater, less, isSet, isNotSet]
def ofName? (name : Text) : Option Operator := all.find? fun member => member.name = name

/-- The operators that ask for presence compare with nothing. -/
def takesValue : Operator → Bool
  | isSet | isNotSet => false
  | _ => true

end Operator

/-- How a condition combines with the result of those before it. -/
inductive Logic where
  | and
  | or
deriving DecidableEq

namespace Logic

def name : Logic → String
  | and => "AND"
  | or => "OR"

def all : List Logic := [and, or]
def ofName? (name : Text) : Option Logic := all.find? fun member => member.name = name

end Logic

inductive TriggerKind where
  | newLead
  | leadUntouched
  | stageChanged
  | taskCompleted
  | scoreReaches
deriving DecidableEq

namespace TriggerKind

def name : TriggerKind → String
  | newLead => "NEW_LEAD"
  | leadUntouched => "LEAD_UNTOUCHED"
  | stageChanged => "STAGE_CHANGED"
  | taskCompleted => "TASK_COMPLETED"
  | scoreReaches => "LEAD_SCORE_REACHES"

def all : List TriggerKind := [newLead, leadUntouched, stageChanged, taskCompleted, scoreReaches]
def ofName? (name : Text) : Option TriggerKind := all.find? fun member => member.name = name

end TriggerKind

inductive ActionKind where
  | addTag
  | assignToUser
  | assignToTeam
  | assignRoundRobin
  | sendWebhook
  | createTask
  | addToPhoneList
deriving DecidableEq

namespace ActionKind

def name : ActionKind → String
  | addTag => "ADD_TAG"
  | assignToUser => "ASSIGN_TO_USER"
  | assignToTeam => "ASSIGN_TO_TEAM"
  | assignRoundRobin => "ASSIGN_ROUND_ROBIN"
  | sendWebhook => "SEND_WEBHOOK"
  | createTask => "CREATE_TASK"
  | addToPhoneList => "ADD_TO_PHONE_LIST"

def all : List ActionKind :=
  [addTag, assignToUser, assignToTeam, assignRoundRobin, sendWebhook, createTask, addToPhoneList]
def ofName? (name : Text) : Option ActionKind := all.find? fun member => member.name = name

end ActionKind

inductive EventKind where
  | leadCreated
  | stageChanged
  | taskCompleted
  | scoreChanged
  | idleScanTick
deriving DecidableEq

namespace EventKind

def name : EventKind → String
  | leadCreated => "LeadCreated"
  | stageChanged => "StageChanged"
  | taskCompleted => "TaskCompleted"
  | scoreChanged => "ScoreChanged"
  | idleScanTick => "IdleScanTick"

def all : List EventKind := [leadCreated, stageChanged, taskCompleted, scoreChanged, idleScanTick]
def ofName? (name : Text) : Option EventKind := all.find? fun member => member.name = name

def trigger : EventKind → TriggerKind
  | leadCreated => .newLead
  | stageChanged => .stageChanged
  | taskCompleted => .taskCompleted
  | scoreChanged => .scoreReaches
  | idleScanTick => .leadUntouched

end EventKind

inductive FieldType where
  | text
  | number
  | date
  | dropdown
  | list
deriving DecidableEq

namespace FieldType

def name : FieldType → String
  | text => "text"
  | number => "number"
  | date => "date"
  | dropdown => "dropdown"
  | list => "list"

def all : List FieldType := [text, number, date, dropdown, list]
def ofName? (name : Text) : Option FieldType := all.find? fun member => member.name = name

def isNumeric : FieldType → Bool
  | number | date => true
  | _ => false

end FieldType

inductive UserRole where
  | superAdmin
  | admin
  | manager
  | salesRep
deriving DecidableEq

namespace UserRole

def name : UserRole → String
  | superAdmin => "Super Admin"
  | admin => "Admin"
  | manager => "Manager"
  | salesRep => "Sales Rep"

def all : List UserRole := [superAdmin, admin, manager, salesRep]
def ofName? (name : Text) : Option UserRole := all.find? fun member => member.name = name

end UserRole

inductive RequestKind where
  | tagAdd
  | reassignLead
  | webhookDispatch
  | taskCreate
  | phoneListAdd
deriving DecidableEq

namespace RequestKind

def name : RequestKind → String
  | tagAdd => "TagAdd"
  | reassignLead => "ReassignLead"
  | webhookDispatch => "WebhookDispatch"
  | taskCreate => "TaskCreate"
  | phoneListAdd => "PhoneListMembershipAdd"

def all : List RequestKind := [tagAdd, reassignLead, webhookDispatch, taskCreate, phoneListAdd]
def ofName? (name : Text) : Option RequestKind := all.find? fun member => member.name = name

end RequestKind

inductive RuleStatus where
  | notFired
  | conditionsNotMet
  | duplicate
  | executed
  | actionFailed
  | error
deriving DecidableEq

namespace RuleStatus

def name : RuleStatus → String
  | notFired => "not_fired"
  | conditionsNotMet => "conditions_not_met"
  | duplicate => "duplicate"
  | executed => "executed"
  | actionFailed => "action_failed"
  | error => "error"

def all : List RuleStatus := [notFired, conditionsNotMet, duplicate, executed, actionFailed, error]

end RuleStatus
end LeadRules
