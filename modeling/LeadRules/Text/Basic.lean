/-! Texts. A text written in units of 16 bits may hold half of a surrogate pair alone, which is no
character. A text is therefore a list of points, each of them a character or such a half. -/
namespace LeadRules

structure Half where
  code : Nat
  inRange : 0xD800 ≤ code ∧ code ≤ 0xDFFF
deriving DecidableEq

inductive Point where
  | char (c : Char)
  | half (h : Half)
deriving DecidableEq

namespace Point

def code : Point → Nat
  | char c => c.toNat
  | half h => h.code

def isHalf : Point → Bool
  | char _ => false
  | half _ => true

def charOr (substitute : Char) : Point → Char
  | char c => c
  | half _ => substitute

end Point

structure Text where
  points : List Point
deriving DecidableEq

namespace Text

def ofChars (cs : List Char) : Text := ⟨cs.map .char⟩
def ofString (s : String) : Text := ofChars s.toList

instance : Coe String Text := ⟨ofString⟩
instance : Append Text := ⟨fun a b => ⟨a.points ++ b.points⟩⟩

def length (t : Text) : Nat := t.points.length
def take (n : Nat) (t : Text) : Text := ⟨t.points.take n⟩
def drop (n : Nat) (t : Text) : Text := ⟨t.points.drop n⟩

def startsWith (t beginning : Text) : Bool := beginning.points.isPrefixOf t.points

def intercalate (separator : Text) : List Text → Text
  | [] => ""
  | [t] => t
  | t :: rest => t ++ separator ++ intercalate separator rest

def splitOn (c : Char) (t : Text) : List Text :=
  t.points.foldr (fun p pieces =>
    match pieces with
    | [] => [⟨[p]⟩]
    | piece :: rest => if p = .char c then ⟨[]⟩ :: piece :: rest else ⟨p :: piece.points⟩ :: rest) [⟨[]⟩]

def mapChars (f : Char → Char) (t : Text) : Text :=
  ⟨t.points.map fun
    | .char c => .char (f c)
    | p => p⟩

def charsOr (substitute : Char) (t : Text) : List Char := t.points.map (·.charOr substitute)

/-- What a display that knows no halves shows. -/
def displayed (t : Text) : String := String.ofList (t.charsOr '\uFFFD')

/-- The order of texts is that of their code points. -/
def lt (a b : Text) : Bool := a.points.map Point.code < b.points.map Point.code

def sorted (texts : List Text) : List Text := texts.mergeSort fun a b => !b.lt a

theorem points_append (a b : Text) : (a ++ b).points = a.points ++ b.points := rfl

end Text
end LeadRules
