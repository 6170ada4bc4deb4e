import LeadRules.Text.Basic

/-! Texts as bytes. Characters have their UTF-8 bytes, halves of surrogate pairs have none. The names
of files are bytes of any kind: a byte that belongs to no character is shown as a half of its own,
from which it is found again. -/
namespace LeadRules

/-- The first halves in a text that cannot be written as bytes, and their place in it. -/
structure Unencodable where
  first : Half
  start : Nat
  count : Nat
deriving DecidableEq

namespace Half

def firstByte : Nat := 0xDC80
def lastByte : Nat := 0xDCFF

def byte? (h : Half) : Option UInt8 :=
  if firstByte ≤ h.code ∧ h.code ≤ lastByte then some (UInt8.ofNat (h.code - 0xDC00)) else none

def ofByte (b : UInt8) : Half := ⟨0xDC00 + b.toNat, by have := b.toNat_lt; omega⟩

end Half

namespace Point

def nameBytes : Point → List UInt8
  | char c => String.utf8EncodeChar c
  | half h => h.byte?.toList

def isNameable : Point → Bool
  | char _ => true
  | half h => h.byte?.isSome

end Point

namespace Text

/-- What keeps a text from having bytes when these of its points have some. -/
def unencodable? (encodes : Point → Bool) (t : Text) : Option Unencodable :=
  let rest := t.points.dropWhile encodes
  match rest with
  | .half first :: _ =>
    some { first, start := t.length - rest.length, count := (rest.takeWhile Point.isHalf).length }
  | _ => none

def toString? (t : Text) : Except Unencodable String :=
  match t.unencodable? (!·.isHalf) with
  | some problem => .error problem
  | none => .ok t.displayed

def nameBytes? (t : Text) : Except Unencodable (List UInt8) :=
  match t.unencodable? Point.isNameable with
  | some problem => .error problem
  | none => .ok (t.points.flatMap Point.nameBytes)

end Text

namespace Bytes

def codeOf : List UInt8 → Nat
  | [a] => a.toNat
  | [a, b] => a.toNat % 32 * 64 + b.toNat % 64
  | [a, b, c] => a.toNat % 16 * 4096 + b.toNat % 64 * 64 + c.toNat % 64
  | [a, b, c, d] => a.toNat % 8 * 262144 + b.toNat % 64 * 4096 + c.toNat % 64 * 64 + d.toNat % 64
  | _ => 0

/-- The character whose bytes come first, and how many they are. -/
def firstChar? (bytes : List UInt8) : Option (Char × Nat) :=
  [1, 2, 3, 4].findSome? fun size =>
    let c := Char.ofNat (codeOf (bytes.take size))
    if String.utf8EncodeChar c = bytes.take size then some (c, size) else none

/-- How many bytes follow a first byte of a character, and the bounds of the next one. -/
def followers (b : UInt8) : Nat × UInt8 × UInt8 :=
  if b < 0xC2 ∨ 0xF4 < b then (0, 0, 0)
  else if b < 0xE0 then (1, 0x80, 0xBF)
  else if b < 0xF0 then (2, if b = 0xE0 then 0xA0 else 0x80, if b = 0xED then 0x9F else 0xBF)
  else (3, if b = 0xF0 then 0x90 else 0x80, if b = 0xF4 then 0x8F else 0xBF)

/-- How many of the bytes began a character that breaks off, or one byte that begins none. -/
def brokenSize : List UInt8 → Nat
  | first :: second :: rest =>
    let (count, low, high) := followers first
    if 0 < count ∧ low ≤ second ∧ second ≤ high then
      2 + ((rest.take (count - 1)).takeWhile fun b => 0x80 ≤ b && b ≤ 0xBF).length
    else 1
  | _ => 1

/-- The points of some bytes. What is no character is replaced: `broken` says by which points, and
how many bytes they stand for beyond the first. -/
def decode (broken : UInt8 → List UInt8 → List Point × Nat) (bytes : List UInt8) : List Point :=
  match bytes with
  | [] => []
  | b :: rest =>
    match firstChar? (b :: rest) with
    | some (c, size) => .char c :: decode broken (rest.drop (size - 1))
    | none =>
      let (points, more) := broken b rest
      points ++ decode broken (rest.drop more)
termination_by bytes.length
decreasing_by
  all_goals simp only [List.length_drop, List.length_cons]
  all_goals omega

def toText (bytes : List UInt8) : Text := ⟨decode (fun b _ => ([.half (.ofByte b)], 0)) bytes⟩

/-- The text of a name for display: what breaks off is shown by one mark. -/
def toDisplay (bytes : List UInt8) : Text :=
  ⟨decode (fun b rest => ([.char '\uFFFD'], brokenSize (b :: rest) - 1)) bytes⟩

end Bytes
end LeadRules
