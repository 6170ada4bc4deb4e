import LeadRules.Text.Basic

/-! Console markup: a tag in square brackets styles the text after it, and a backslash before a
bracket takes its meaning away. -/
namespace LeadRules.Markup

/-- Whether a bracket before these points opens a tag: the first of them begins one, and it closes
before another opens. -/
def opensTag : List Point → Bool
  | [] | .half _ :: _ => false
  | .char c :: rest =>
    (c.isLower || c = '#' || c = '/' || c = '@')
      && rest.find? (fun p => p = .char '[' || p = .char ']') = some (.char ']')

def backslashes (n : Nat) : List Point := List.replicate n (.char '\\')

/-- Copies points after `pending` backslashes. Before a bracket that would open a tag the
backslashes are doubled and one more is written. -/
def escapeAfter (pending : Nat) : List Point → List Point
  | [] => backslashes pending
  | .char '\\' :: rest => escapeAfter (pending + 1) rest
  | .char '[' :: rest =>
    backslashes (if opensTag rest then 2 * pending + 1 else pending) ++ .char '[' :: escapeAfter 0 rest
  | p :: rest => backslashes pending ++ p :: escapeAfter 0 rest

/-- A single backslash at the end is doubled, so that it does not reach what is put behind it. -/
def closeEnd (ps : List Point) : List Point :=
  match ps.reverse with
  | .char '\\' :: .char '\\' :: _ => ps
  | .char '\\' :: _ => ps ++ backslashes 1
  | _ => ps

def escape (t : Text) : Text := ⟨closeEnd (escapeAfter 0 t.points)⟩

/-- What markup shows after `pending` backslashes: tags are dropped, and a bracket after an odd
number of backslashes stands for itself. -/
def shownAfter (pending : Nat) (ps : List Point) : List Point :=
  match ps with
  | [] => backslashes pending
  | .char '\\' :: rest => shownAfter (pending + 1) rest
  | .char '[' :: rest =>
    if opensTag rest then
      backslashes (pending / 2) ++
        if pending % 2 = 1 then .char '[' :: shownAfter 0 rest
        else shownAfter 0 ((rest.dropWhile (· ≠ .char ']')).drop 1)
    else backslashes pending ++ .char '[' :: shownAfter 0 rest
  | p :: rest => backslashes pending ++ p :: shownAfter 0 rest
termination_by ps.length
decreasing_by
  all_goals simp only [List.length_cons, List.length_drop]
  all_goals have := (List.dropWhile_suffix (l := rest) (fun p => decide (p ≠ .char ']'))).length_le
  all_goals omega

def shown (t : Text) : Text := ⟨shownAfter 0 t.points⟩

end LeadRules.Markup
