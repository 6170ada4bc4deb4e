import LeadRules.Text.Basic

/-! Points as units of 16 bits. A character beyond the basic plane takes two units, the halves of a
pair; every other point is one unit. -/
namespace LeadRules

def Half.isHigh (h : Half) : Bool := h.code ≤ 0xDBFF

def Half.join (high low : Half) : Char :=
  Char.ofNat (0x10000 + (high.code - 0xD800) * 0x400 + (low.code - 0xDC00))

namespace Point

/-- Whether another half may follow that makes a pair. -/
def opensPair : Point → Bool
  | char _ => false
  | half h => h.isHigh

def pair? : Point → Point → Option Char
  | half high, half low => if high.isHigh && !low.isHigh then some (high.join low) else none
  | _, _ => none

def ofUnit (n : Nat) : Point :=
  if h : 0xD800 ≤ n ∧ n ≤ 0xDFFF then half ⟨n, h⟩ else char (Char.ofNat n)

def units (p : Point) : List Nat :=
  if p.code ≤ 0xFFFF then [p.code]
  else [0xD800 + (p.code - 0x10000) / 0x400, 0xDC00 + (p.code - 0x10000) % 0x400]

theorem code_half_le (h : Half) : (half h).code ≤ 0xFFFF := by
  have := h.inRange
  simp only [code]
  omega

/-- A half is written as itself. -/
theorem units_half (h : Half) : units (half h) = [h.code] := by
  rw [units, if_pos (code_half_le h), code]

end Point
end LeadRules
