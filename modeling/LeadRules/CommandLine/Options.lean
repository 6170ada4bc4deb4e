import LeadRules.Files
import LeadRules.Text.Quoted
import LeadRules.Text.Similarity

/-! Options of a command: how arguments are split into uses of options and positional ones, and
what can be wrong with them. -/
namespace LeadRules.CommandLine

inductive OptionKind where
  | flag
  | text
  /-- The path of something that is there. -/
  | path
deriving DecidableEq

structure OptionDecl where
  long : String
  short : Option Char := none
  kind : OptionKind
  required : Bool := false
deriving DecidableEq

namespace OptionDecl

def takesValue (o : OptionDecl) : Bool := o.kind ≠ .flag

def shortName (c : Char) : String := String.ofList ['-', c]

def label (o : OptionDecl) : String :=
  match o.short with
  | some c => "'" ++ o.long ++ "' / '" ++ shortName c ++ "'"
  | none => "'" ++ o.long ++ "'"

end OptionDecl

/-- What is wrong with the arguments of a command. Unknown names come with those like them. -/
inductive UsageProblem where
  | noSuchOption (name : Text) (similar : List String)
  | valueMissing (option : Text)
  | valueNotTaken (option : Text)
  | pathMissing (option : String) (path : Text)
  | unusablePath (problem : PathProblem)
  | optionMissing (option : String)
  | argumentMissing (name : String)
  | extraArguments (arguments : List Text)
  | noSuchCommand (name : Text) (similar : List String)
  | commandMissing
  /-- A group was given nothing at all and explains itself. -/
  | nothingGiven (help : String)
deriving DecidableEq

def suggestion : List String → String
  | [] => ""
  | [name] => s!" Did you mean {quoted name}?"
  | names =>
    " (Did you mean one of: " ++ ", ".intercalate (names.map fun (name : String) => quoted name) ++
      "?)"

def UsageProblem.message : UsageProblem → Text
  | noSuchOption name similar => s!"No such option {quoted name}." ++ suggestion similar
  | valueMissing option => s!"Option {quoted option} requires an argument."
  | valueNotTaken option => s!"Option {quoted option} does not take a value."
  | pathMissing option path => s!"Invalid value for {option}: Path {quoted path} does not exist."
  | unusablePath problem => problem.message
  | optionMissing option => s!"Missing option {option}."
  | argumentMissing name => s!"Missing argument '{name}'."
  | extraArguments arguments =>
    (if arguments.length = 1 then "Got unexpected extra argument (" else "Got unexpected extra arguments (")
      ++ Text.intercalate " " arguments ++ ")"
  | noSuchCommand name similar => s!"No such command {quoted name}." ++ suggestion similar
  | commandMissing => "Missing command."
  | nothingGiven help => help

/-- Uses of options in their order, flags with an empty value, and the other arguments. -/
structure Scanned where
  uses : List (OptionDecl × Text) := []
  positionals : List Text := []
deriving DecidableEq

/-- Reads the short options of one argument. One that takes a value takes what is left of the
argument, or the next argument; whether it did the latter is returned. -/
def readShort (options : List OptionDecl) (next? : Option Text) :
    List Point → Except UsageProblem (List (OptionDecl × Text) × Bool)
  | [] => .ok ([], false)
  | p :: rest =>
    match options.find? fun o => o.short.map Point.char = some p with
    | none => .error (.noSuchOption ⟨[.char '-', p]⟩ [])
    | some o =>
      if o.takesValue then
        match rest, next? with
        | [], none => .error (.valueMissing ⟨[.char '-', p]⟩)
        | [], some value => .ok ([(o, value)], true)
        | rest, _ => .ok ([(o, ⟨rest⟩)], false)
      else do
        let (uses, tookNext) ← readShort options next? rest
        return ((o, "") :: uses, tookNext)

def splitValue (arg : Text) : Text × Option Text :=
  match arg.points.dropWhile (· ≠ .char '=') with
  | [] => (arg, none)
  | _ :: value => (⟨arg.points.takeWhile (· ≠ .char '=')⟩, some ⟨value⟩)

/-- Reads an argument that starts with a dash, and whether it takes the next one as a value. -/
def readOption (options : List OptionDecl) (arg : Text) (next? : Option Text) :
    Except UsageProblem (List (OptionDecl × Text) × Bool) :=
  let (name, attached) := splitValue arg
  match options.find? fun o => (o.long : Text) = name, attached, next? with
  | none, _, _ =>
    if arg.startsWith "--" then
      .error (.noSuchOption name (Similarity.suggestions name (options.map (·.long))))
    else readShort options next? (arg.points.drop 1)
  | some o, some value, _ => if o.takesValue then .ok ([(o, value)], false) else .error (.valueNotTaken name)
  | some o, none, next? =>
    if !o.takesValue then .ok ([(o, "")], false)
    else
      match next? with
      | some value => .ok ([(o, value)], true)
      | none => .error (.valueMissing name)

/-- Whether an argument can only be an option; a lone dash is none. -/
def isOption (arg : Text) : Bool := arg.startsWith "-" && 1 < arg.length

/-- Splits arguments. Two dashes end the options; so does the first positional argument, unless
the two may be `mixed`. -/
def scan (options : List OptionDecl) (mixed : Bool) : List Text → Except UsageProblem Scanned
  | [] => .ok {}
  | arg :: rest =>
    if arg = "--" then .ok { positionals := rest }
    else if isOption arg then
      match readOption options arg rest.head?, rest with
      | .error problem, _ => .error problem
      | .ok (uses, true), _ :: rest => (scan options mixed rest).map (addUses uses)
      | .ok (uses, _), rest => (scan options mixed rest).map (addUses uses)
    else if mixed then
      (scan options mixed rest).map fun s => { s with positionals := arg :: s.positionals }
    else .ok { positionals := arg :: rest }
where
  addUses (uses : List (OptionDecl × Text)) (s : Scanned) : Scanned := { s with uses := uses ++ s.uses }

namespace Scanned

def isUsed (s : Scanned) (o : OptionDecl) : Bool := s.uses.any (·.1 = o)

/-- The value of an option; of several uses the last counts. -/
def value? (s : Scanned) (o : OptionDecl) : Option Text := s.uses.reverse.lookup o

/-- Checks that a path as it was given leads to something, and to a folder if it asks for one. No
text leads nowhere, and too long a one neither. -/
def checkPath (files : FileTree) (o : OptionDecl) (path : Text) : Except UsageProblem Unit :=
  match FilePath.bytesOf path with
  | .error problem => .error (.unusablePath problem)
  | .ok bytes =>
    let missing : UsageProblem := .pathMissing o.label (Bytes.toDisplay bytes)
    if bytes.isEmpty ∨ FilePath.pathLimit < bytes.length then .error missing
    else
      match files.find (.ofText path) with
      | .ok (_, some (.file _)) => if FilePath.asksForFolder path then .error missing else .ok ()
      | .ok (_, some .folder) => .ok ()
      | .ok (_, none) | .error _ => .error missing

def checkGiven (s : Scanned) (files : FileTree) : Except UsageProblem Unit :=
  (s.uses.map (·.1)).eraseDups.forM fun o =>
    if o.kind = .path then checkPath files o ((s.value? o).getD "") else .ok ()

def checkRequired (s : Scanned) (options : List OptionDecl) : Except UsageProblem Unit :=
  options.forM fun o => if o.required && !s.isUsed o then .error (.optionMissing o.label) else .ok ()

def check (s : Scanned) (files : FileTree) (options : List OptionDecl) : Except UsageProblem Unit := do
  s.checkGiven files
  s.checkRequired options
  if !s.positionals.isEmpty then throw (.extraArguments s.positionals)

def single (s : Scanned) (name : String) (files : FileTree) (options : List OptionDecl) :
    Except UsageProblem Text := do
  s.checkGiven files
  match s.positionals with
  | [] => throw (.argumentMissing name)
  | value :: rest =>
    s.checkRequired options
    if !rest.isEmpty then throw (.extraArguments rest)
    return value

end Scanned
end LeadRules.CommandLine
