import LeadRules.DateTime.Iso
import LeadRules.Json.Reader
import LeadRules.Text.Bytes
import LeadRules.Value.Text
import LeadRules.Vocabulary

/-! Why an operation fails. Faults are causes; their wording is in the `message` functions
here and nowhere else. -/
namespace LeadRules

inductive Malformed where
  | conditionWithoutField
  | valueNotTaken (operator : Operator) (value : Value)
  | unknownOperator (given : Value)
  | unknownLogic (given : Value)
  | triggerNotObject
  | unknownTrigger (given : Value)
  | negativeHours
  | stageMissing
  | actionNotObject
  | unknownAction (given : Value)
  | tagMissing
  | urlNotHttp (url : Text)
  | titleMissing
  | negativeDueDays
  | required (type key : String)
  | notNumeric (key : String) (given : Value)
  | ruleWithoutName
  | conditionsNotList
  | ruleExists (id : Text)
  | triggerFixed
  | fieldsNotUpdatable (names : List Text)
  | unknownEvent (given : Value)
  | eventWithoutLead (kind : EventKind)
  | eventRequires (kind : EventKind) (key : String)

def Malformed.message : Malformed → Text
  | conditionWithoutField => "Condition field is required"
  | valueNotTaken op v => s!"Operator '{op.name}' does not take a value (got {v.toLiteral})"
  | unknownOperator v => "Unknown operator: " ++ v.toLiteral
  | unknownLogic v => "Unknown logic: " ++ v.toLiteral
  | triggerNotObject => "Trigger must be an object"
  | unknownTrigger v => "Unknown trigger type: " ++ v.toLiteral
  | negativeHours => "LEAD_UNTOUCHED hours must be >= 0"
  | stageMissing => "STAGE_CHANGED requires toStage"
  | actionNotObject => "Action must be an object"
  | unknownAction v => "Unknown action type: " ++ v.toLiteral
  | tagMissing => "ADD_TAG requires a tag"
  | urlNotHttp url => "SEND_WEBHOOK url must be http(s): " ++ quoted url
  | titleMissing => "CREATE_TASK requires a title"
  | negativeDueDays => "CREATE_TASK dueDays must be >= 0"
  | required type key => s!"{type} requires '{key}'"
  | notNumeric key v => s!"'{key}' must be numeric, got {v.toLiteral}"
  | ruleWithoutName => "Rule name is required"
  | conditionsNotList => "Rule conditions must be a list"
  | ruleExists id => "Rule " ++ id ++ " already exists"
  | triggerFixed => "A rule's trigger cannot be changed; create a new rule instead"
  | fieldsNotUpdatable names => "Cannot update rule fields: " ++ (Value.texts names).toLiteral
  | unknownEvent v => "Unknown event kind: " ++ v.toLiteral
  | eventWithoutLead kind => kind.name ++ " event requires a lead snapshot"
  | eventRequires kind key => s!"{kind.name} event requires '{key}'"

inductive PathProblem where
  | null
  | unencodable (problem : Unencodable)
deriving DecidableEq

def Unencodable.message (u : Unencodable) : String :=
  "'utf-8' codec can't encode " ++
    (if u.count = 1 then s!"character '{unitEscape u.first.code}' in position {u.start}"
      else s!"characters in position {u.start}-{u.start + u.count - 1}") ++ ": surrogates not allowed"

def PathProblem.message : PathProblem → String
  | null => "embedded null byte"
  | unencodable problem => problem.message

inductive BadValue where
  | time (fault : TimeFault)
  | notFieldType (given : Value)
  | notUserRole (given : Value)
  | notOperator (given : Value)
  | notLogic (given : Value)
  | notPair (index length : Nat)
  | notDouble (given : Text)
  | notWhole (given : Text)
  | tooManyDigits (count : Nat)
  | nanToWhole
  | emptyFileName (path : Text)
  | unusablePath (problem : PathProblem)
  | negativeBound

def BadValue.literalLimit : Nat := 200

def BadValue.message : BadValue → Text
  | time fault => fault.message
  | notFieldType v => v.toLiteral ++ " is not a valid FieldType"
  | notUserRole v => v.toLiteral ++ " is not a valid UserRole"
  | notOperator v => v.toLiteral ++ " is not a valid Operator"
  | notLogic v => v.toLiteral ++ " is not a valid Logic"
  | notPair index length =>
    s!"dictionary update sequence element #{index} has length {length}; 2 is required"
  | notDouble given => "could not convert string to float: " ++ quoted given
  | notWhole given =>
    "invalid literal for int() with base 10: " ++ String.ofList ((quoted given).toList.take literalLimit)
  | tooManyDigits count =>
    s!"Exceeds the limit ({Numeral.digitLimit} digits) for integer string conversion: value has {count} digits; "
      ++ "use sys.set_int_max_str_digits() to increase the limit"
  | nanToWhole => "cannot convert float NaN to integer"
  | emptyFileName path => s!"PosixPath({quoted path}) has an empty name"
  | unusablePath problem => problem.message
  | negativeBound => "maxlen must be non-negative"

inductive Overflow where
  | wholeToDouble
  | infinityToWhole
  | date
  | days
  | repetition
  | word
  | dayMagnitude (days : Int)

def Overflow.message : Overflow → String
  | wholeToDouble => "int too large to convert to float"
  | infinityToWhole => "cannot convert float infinity to integer"
  | date => "date value out of range"
  | days => "Python int too large to convert to C int"
  | repetition => "cannot fit 'int' into an index-sized integer"
  | word => "Python int too large to convert to C ssize_t"
  | dayMagnitude n => s!"days={n}; must have magnitude <= 999999999"

/-- A wire value used where its shape does not fit. -/
inductive Misuse where
  | unhashable (shape : String)
  | notIterable (shape : String)
  | notSubscriptable (shape : String)
  | notSequence (index : Nat)
  | notComparable (shape : String)
  | notConvertibleToDouble (shape : String)
  | notConvertibleToWhole (shape : String)
  | mixedZones
  | textExpected (shape : String)
  | arguments

def Misuse.message : Misuse → String
  | unhashable shape => s!"unhashable type: '{shape}'"
  | notIterable shape => s!"'{shape}' object is not iterable"
  | notSubscriptable shape => s!"'{shape}' object is not subscriptable"
  | notSequence index => s!"cannot convert dictionary update sequence element #{index} to a sequence"
  | notComparable shape => s!"'<' not supported between instances of '{shape}' and 'int'"
  | notConvertibleToDouble shape => s!"float() argument must be a string or a real number, not '{shape}'"
  | notConvertibleToWhole shape =>
    s!"int() argument must be a string, a bytes-like object or a real number, not '{shape}'"
  | mixedZones => "can't compare offset-naive and offset-aware datetimes"
  | textExpected shape => s!"expected string or bytes-like object, got '{shape}'"
  | arguments => "missing or unexpected arguments"

inductive FileProblem where
  /-- The disk failed, whatever stands at the path. -/
  | deviceFailed
  | missing
  | alreadyThere
  | notFolder
  | isFolder
  | nameTooLong
  | busy
deriving DecidableEq

def FileProblem.number : FileProblem → Nat
  | deviceFailed => 5
  | missing => 2
  | alreadyThere => 17
  | notFolder => 20
  | isFolder => 21
  | nameTooLong => 36
  | busy => 16

def FileProblem.message : FileProblem → String
  | deviceFailed => "Input/output error"
  | missing => "No such file or directory"
  | alreadyThere => "File exists"
  | notFolder => "Not a directory"
  | isFolder => "Is a directory"
  | nameTooLong => "File name too long"
  | busy => "Device or resource busy"

/-- A refusal with the path it is about, and the second path of a renaming. -/
structure FileFault where
  problem : FileProblem
  path : Text
  target : Option Text := none
deriving DecidableEq

def FileFault.message (f : FileFault) : String :=
  s!"[Errno {f.problem.number}] {f.problem.message}: {quoted f.path}"
    ++ (match f.target with | none => "" | some t => " -> " ++ quoted t)

inductive Fault where
  | malformed (cause : Malformed)
  | badValue (cause : BadValue)
  | overflow (cause : Overflow)
  | misuse (cause : Misuse)
  /-- A wire value was asked for a member that its shape does not have. -/
  | noMember (shape member : String)
  | missingKey (key : Text)
  /-- The oldest entry of an empty store was to be dropped. -/
  | nothingToEvict
  | file (cause : FileFault)
  | json (cause : Json.SyntaxError)
  /-- A JSON text opens too many lists and objects at once. -/
  | tooDeep (container : Json.Container)
  | homeUnknown
  | emptyTeam (team : Text)
  /-- A collaborator failed; its kind and text are passed on. -/
  | collaborator (kind : String) (text : Text)

def Fault.message : Fault → Text
  | malformed c => c.message
  | badValue c => c.message
  | overflow c => c.message
  | misuse c => c.message
  | noMember shape member => s!"'{shape}' object has no attribute '{member}'"
  | missingKey key => quoted key
  | nothingToEvict => quoted "dictionary is empty"
  | file c => c.message
  | json c => c.message
  | tooDeep container =>
    "maximum recursion depth exceeded while decoding a JSON " ++ container.name ++ " from a unicode string"
  | homeUnknown => "Could not determine home directory."
  | emptyTeam team => "Team '" ++ team ++ "' has no members eligible for round-robin"
  | collaborator _ text => text

def Fault.ofReadProblem : Json.ReadProblem → Fault
  | .malformed e => .json e
  | .tooManyDigits count => .badValue (.tooManyDigits count)
  | .tooDeep container => .tooDeep container

end LeadRules
