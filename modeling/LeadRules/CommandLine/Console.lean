import LeadRules.Text.Markup
import LeadRules.Value.Text

/-! What a command prints. -/
namespace LeadRules.CommandLine

inductive ConsoleItem where
  /-- A line of markup. -/
  | line (markup : Text)
  /-- A table whose cells are markup where they are texts, and may be any values. -/
  | table (title : String) (columns : List String) (rows : List (List Value))
  | panel (title text : String)
  | json (text : String)
deriving DecidableEq

def cellText : Value → Text
  | .text markup => Markup.shown markup
  | v => v.toText

def ConsoleItem.lines : ConsoleItem → List Text
  | line markup => [Markup.shown markup]
  | table title columns rows =>
    title :: " | ".intercalate columns :: rows.map fun row => Text.intercalate " | " (row.map cellText)
  | panel title text => title :: Text.splitOn '\n' text
  | json text => [text]

end LeadRules.CommandLine
