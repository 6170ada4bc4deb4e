import LeadRules.Text.Basic

/-! How alike two texts are. The longest run of characters that both have is matched, then what
lies before it and what lies behind it in both; of two runs of one length the earlier counts. -/
namespace LeadRules.Similarity

structure Block where
  first : Nat
  second : Nat
  size : Nat
deriving DecidableEq

def sharedStart : List Point → List Point → Nat
  | a :: as, b :: bs => if a = b then sharedStart as bs + 1 else 0
  | _, _ => 0

/-- The longest block, the earliest in the first text and then in the second one. -/
def longestBlock (a b : List Point) : Block :=
  let blocks := (List.range a.length).flatMap fun first =>
    (List.range b.length).map fun second => ⟨first, second, sharedStart (a.drop first) (b.drop second)⟩
  blocks.foldl (fun best block => if best.size < block.size then block else best) ⟨0, 0, 0⟩

def matched (a b : List Point) : Nat :=
  match longestBlock a b with
  | ⟨first, second, size⟩ =>
    if _inside : 0 < size ∧ first + size ≤ a.length then
      matched (a.take first) (b.take second) + size
        + matched (a.drop (first + size)) (b.drop (second + size))
    else 0
termination_by a.length
decreasing_by
  · simp only [List.length_take]
    omega
  · simp only [List.length_drop]
    omega

/-- The share of the characters of two texts that is matched, as numerator and denominator. -/
def ratio (a b : List Point) : Nat × Nat := (2 * matched a b, a.length + b.length)

/-- What the share is at most: no more than the shorter text can be matched. -/
def greatestRatio (a b : List Point) : Nat × Nat := (2 * min a.length b.length, a.length + b.length)

/-- Three fifths of the characters make two texts alike. -/
def isAlike (r : Nat × Nat) : Bool := 3 * r.2 ≤ 5 * r.1

/-- The candidate that is more like a word comes first, of two equally like the greater text. -/
def comesFirst (a b : String × Nat × Nat) : Bool :=
  let (left, right) := (a.2.1 * b.2.2, b.2.1 * a.2.2)
  right < left || (left = right && !(a.1 < b.1))

def suggestionLimit : Nat := 3

def suggestions (word : Text) (candidates : List String) : List String :=
  let points (candidate : String) := (Text.ofString candidate).points
  let possible := candidates.filter fun c => isAlike (greatestRatio (points c) word.points)
  let rated := possible.map fun c => (c, ratio (points c) word.points)
  let best := ((rated.filter fun c => isAlike c.2).mergeSort comesFirst).take suggestionLimit
  (best.map (·.1)).mergeSort fun a b => !(b < a)

end LeadRules.Similarity
