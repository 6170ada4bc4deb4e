import LeadRules.Decimal.Shortest
import LeadRules.Text.Quoted
import LeadRules.Value.Basic

/-! Values as texts. `toText` is the bare form that comparisons and names use; `toLiteral` is
the form messages show, with texts quoted. Inside a container every item is a literal. -/
namespace LeadRules.Value

mutual
/-- Whole numbers are written in full. The bound of `Numeral.digitLimit` digits, which reading
checks, holds of writing as well: to write a longer one is refused, which this leaves out, as no
JSON text gives such a number. -/
def toLiteral : Value → String
  | null => "None"
  | bool true => "True"
  | bool false => "False"
  | int n => toString n
  | float x => x.toText
  | text t => quoted t
  | list items => "[" ++ itemLiterals "" items ++ "]"
  | map entries => "\x7b" ++ entryLiterals "" entries ++ "\x7d"
/-- The items with commas between them; `lead` comes before the first. -/
def itemLiterals (lead : String) : List Value → String
  | [] => ""
  | v :: rest => lead ++ toLiteral v ++ itemLiterals ", " rest
def entryLiterals (lead : String) : List (Value × Value) → String
  | [] => ""
  | (k, v) :: rest => lead ++ toLiteral k ++ ": " ++ toLiteral v ++ entryLiterals ", " rest
end

/-- The same is left out here: the text of a whole number with more than `Numeral.digitLimit`
digits, which no JSON text gives. -/
def toText : Value → Text
  | text t => t
  | v => toLiteral v

def tupleLiteral (items : List Value) : String := "(" ++ itemLiterals "" items ++ ")"

end LeadRules.Value
