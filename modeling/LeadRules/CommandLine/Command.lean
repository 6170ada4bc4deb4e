import LeadRules.CommandLine.Options

/-! The commands of the program and how they are read from arguments. The name of the command is
settled first, its own arguments are read later. -/
namespace LeadRules.CommandLine

def programName : String := "crm-automation"
def version : String := "1.0.0"

inductive Refusal where
  | problem (p : UsageProblem)
  /-- A text was asked for instead. -/
  | answer (text : String)
deriving DecidableEq

inductive Section where
  | rules
  | segment
  | simulate
deriving DecidableEq

namespace Section

def all : List Section := [rules, segment, simulate]

def name : Section → String
  | rules => "rules"
  | segment => "segment"
  | simulate => "simulate"

end Section

inductive RulesVerb where
  | list
  | inspect
  | add
  | enable
  | disable
  | delete
deriving DecidableEq

namespace RulesVerb

def all : List RulesVerb := [list, inspect, add, enable, disable, delete]

def name : RulesVerb → String
  | list => "list"
  | inspect => "show"
  | add => "add"
  | enable => "enable"
  | disable => "disable"
  | delete => "delete"

end RulesVerb

/-- A command with its arguments; paths are as they were given. -/
inductive Command where
  | listRules (directory : Option Text)
  | showRule (id : Text)
  | addRules (file : Text)
  | enableRule (id : Text)
  | disableRule (id : Text)
  | deleteRule (id : Text)
  | segment (leads conditions : Text) (fields : Option Text)
  | simulate (events : Text) (directory fields : Option Text) (sendWebhooks : Bool)
deriving DecidableEq

def helpOption : OptionDecl := { long := "--help", kind := .flag }
def versionOption : OptionDecl := { long := "--version", kind := .flag }
def dataDirOption : OptionDecl := { long := "--data-dir", kind := .text }
def verboseOption : OptionDecl := { long := "--verbose", short := some 'v', kind := .flag }
def directoryOption : OptionDecl := { long := "--directory", kind := .path }
def fieldsOption : OptionDecl := { long := "--fields", kind := .path }
def fileOption : OptionDecl := { long := "--file", short := some 'f', kind := .path, required := true }
def leadsOption : OptionDecl := { long := "--leads", short := some 'l', kind := .path, required := true }
def conditionsOption : OptionDecl :=
  { long := "--conditions", short := some 'c', kind := .path, required := true }
def eventsOption : OptionDecl := { long := "--events", short := some 'e', kind := .path, required := true }
def webhooksOption : OptionDecl := { long := "--send-webhooks", kind := .flag }

def help (call : List String) (options : List OptionDecl) (rest : String) : String :=
  let usage := "Usage: " ++ " ".intercalate (programName :: call) ++ " [OPTIONS]" ++ rest
  "\n".intercalate (usage :: options.map fun o => "  " ++ o.label)

def askedText? (s : Scanned) (help : String) : Option String :=
  s.uses.findSome? fun (o, _) =>
    if o = helpOption then some (help ++ "\n")
    else if o = versionOption then some (programName ++ ", version " ++ version ++ "\n")
    else none

def scanFor (call : List String) (options : List OptionDecl) (rest : String) (mixed : Bool)
    (args : List Text) : Except Refusal Scanned := do
  let s ← (scan options mixed args).mapError .problem
  match askedText? s (help call options rest) with
  | some text => throw (.answer text)
  | none => return s

/-- The command of a group and its arguments. A name that is none is read once more as an option,
which is then what is wrong with it. -/
def choose {α : Type} (call : List String) (options : List OptionDecl) (commands : List α)
    (name : α → String) (args : List Text) : Except Refusal (Scanned × α × List Text) := do
  let rest := " COMMAND [ARGS]..."
  if args.isEmpty then throw (.problem (.nothingGiven (help call options rest)))
  let s ← scanFor call options rest false args
  match s.positionals with
  | [] => throw (.problem .commandMissing)
  | given :: others =>
    match commands.find? fun c => (name c : Text) = given with
    | some chosen => return (s, chosen, others)
    | none =>
      let _ ← scanFor call options rest false (given :: others)
      throw (.problem (.noSuchCommand given (Similarity.suggestions given (commands.map name))))

structure Invocation where
  /-- Empty when it was not given. -/
  dataDir : Text
  verbose : Bool
  chosen : Section
  rest : List Text
deriving DecidableEq

def Invocation.ofArguments (args : List Text) : Except Refusal Invocation := do
  let options := [versionOption, dataDirOption, verboseOption, helpOption]
  let (s, chosen, rest) ← choose [] options Section.all Section.name args
  return { dataDir := (s.value? dataDirOption).getD "", verbose := s.isUsed verboseOption, chosen, rest }

namespace Command

def readOptions (call : List String) (files : FileTree) (options : List OptionDecl) (args : List Text) :
    Except Refusal Scanned := do
  let s ← scanFor call options "" true args
  (s.check files options).mapError .problem
  return s

def readId (call : List String) (files : FileTree) (args : List Text) : Except Refusal Text := do
  let s ← scanFor call [helpOption] " RULE_ID" true args
  (s.single "RULE_ID" files [helpOption]).mapError .problem

def ofRulesVerb (files : FileTree) (verb : RulesVerb) (args : List Text) : Except Refusal Command :=
  let call := [Section.rules.name, verb.name]
  match verb with
  | .list => do
    let s ← readOptions call files [directoryOption, helpOption] args
    return listRules (s.value? directoryOption)
  | .add => do
    let s ← readOptions call files [fileOption, helpOption] args
    return addRules ((s.value? fileOption).getD "")
  | .inspect => showRule <$> readId call files args
  | .enable => enableRule <$> readId call files args
  | .disable => disableRule <$> readId call files args
  | .delete => deleteRule <$> readId call files args

def ofSection (files : FileTree) (chosen : Section) (args : List Text) : Except Refusal Command :=
  let call := [chosen.name]
  match chosen with
  | .rules => do
    let (_, verb, rest) ← choose call [helpOption] RulesVerb.all RulesVerb.name args
    ofRulesVerb files verb rest
  | .segment => do
    let s ← readOptions call files [leadsOption, conditionsOption, fieldsOption, helpOption] args
    return segment ((s.value? leadsOption).getD "") ((s.value? conditionsOption).getD "")
      (s.value? fieldsOption)
  | .simulate => do
    let s ← readOptions call files
      [eventsOption, directoryOption, fieldsOption, webhooksOption, helpOption] args
    return simulate ((s.value? eventsOption).getD "") (s.value? directoryOption) (s.value? fieldsOption)
      (s.isUsed webhooksOption)

end Command
end LeadRules.CommandLine
