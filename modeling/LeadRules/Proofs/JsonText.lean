import LeadRules.Json.Reader
import LeadRules.Json.Writer
import Mathlib.Data.List.Chain
import Mathlib.Tactic.SplitIfs

/-! Texts in JSON. A text is read back from its written form so long as no two halves of a
surrogate pair stand side by side in it, for these two are read as the character they make. -/
namespace LeadRules

namespace Point

theorem ofUnit_code {p : Point} (single : p.code ≤ 0xFFFF) : ofUnit p.code = p := by
  cases p with
  | half h => exact dif_pos h.inRange
  | char c =>
    have valid := c.valid
    have apart : ¬ (0xD800 ≤ (char c).code ∧ (char c).code ≤ 0xDFFF) := by
      simp only [code, Char.toNat, UInt32.isValidChar, Nat.isValidChar] at valid ⊢
      omega
    rw [ofUnit, dif_neg apart, code, Char.ofNat_toNat]

/-- A character beyond the basic plane is the pair of its two units, and its first unit ends no
pair. -/
theorem pair?_units {c : Char} (beyond : 0xFFFF < c.toNat) :
    ∃ high low, high ≤ 0xFFFF ∧ low ≤ 0xFFFF ∧
    units (char c) = [high, low] ∧ (ofUnit high).opensPair = true ∧
    (ofUnit high).pair? (ofUnit low) = some c ∧
    ∀ p : Point, p.pair? (ofUnit high) = none := by
  have valid : c.toNat < 0x110000 := by
    have valid := c.valid
    simp only [Char.toNat, UInt32.isValidChar, Nat.isValidChar] at valid ⊢
    omega
  let high := 0xD800 + (c.toNat - 0x10000) / 0x400
  let low := 0xDC00 + (c.toNat - 0x10000) % 0x400
  have high_le : 0xD800 ≤ high ∧ high ≤ 0xDBFF := by omega
  have low_le : 0xDC00 ≤ low ∧ low ≤ 0xDFFF := by omega
  have first : ofUnit high = half ⟨high, by omega⟩ := dif_pos ⟨by omega, by omega⟩
  have second : ofUnit low = half ⟨low, by omega⟩ := dif_pos ⟨by omega, by omega⟩
  have opens : Half.isHigh ⟨high, by omega⟩ = true := by simp [Half.isHigh, high_le]
  have closes : Half.isHigh ⟨low, by omega⟩ = false := by
    simp only [Half.isHigh, decide_eq_false_iff_not]
    omega
  have joined : Half.join ⟨high, by omega⟩ ⟨low, by omega⟩ = c := by
    have sum : 0x10000 + (high - 0xD800) * 0x400 + (low - 0xDC00) = c.toNat := by omega
    rw [Half.join, sum, Char.ofNat_toNat]
  refine ⟨high, low, by omega, by omega, if_neg (by simp only [code]; omega), ?_, ?_, fun p => ?_⟩
  · rw [first]
    exact opens
  · rw [first, second]
    simp [pair?, opens, closes, joined]
  · rw [first]
    cases p with
    | char c => rfl
    | half h => simp [pair?, opens]

end Point

def Point.joinPairs : List Point → List Point
  | p :: q :: rest =>
    match p.pair? q with
    | some c => .char c :: joinPairs rest
    | none => p :: joinPairs (q :: rest)
  | points => points

def Text.joined (t : Text) : Text := ⟨Point.joinPairs t.points⟩

/-- Whether no two halves of a pair stand side by side. -/
def Text.Unsplit (t : Text) : Prop := t.points.IsChain fun p q => p.pair? q = none

theorem Text.joined_of_unsplit {t : Text} (unsplit : t.Unsplit) : t.joined = t := by
  suffices same : ∀ points : List Point, points.IsChain (fun p q => p.pair? q = none) →
    Point.joinPairs points = points from
    congrArg Text.mk (same t.points unsplit)
  intro points chain
  fun_induction Point.joinPairs points with
  | case1 p q rest c pair ih =>
    rw [(List.isChain_cons_cons.1 chain).1] at pair
    cases pair
  | case2 p q rest none ih => rw [ih (List.isChain_cons_cons.1 chain).2]
  | case3 points short => rfl

namespace Json

variable {start rest : List Char} {done : List Point} {n : Nat}

def hexChars (width n : Nat) : List Char :=
  List.replicate (width - (Nat.toDigits 16 n).length) '0' ++ Nat.toDigits 16 n

theorem hexChars_one (small : n < 16) : hexChars 1 n = [n.digitChar] := by
  simp [hexChars, Nat.toDigits_of_lt_base small]

theorem hexChars_succ (width n : Nat) :
    hexChars (width + 2) n = hexChars (width + 1) (n / 16) ++ [(n % 16).digitChar] := by
  by_cases small : n < 16
  · rw [hexChars, hexChars, Nat.toDigits_of_lt_base small, Nat.div_eq_of_lt small, Nat.mod_eq_of_lt small]
    simp [List.replicate_succ']
  · rw [hexChars, hexChars, Nat.toDigits_of_base_le (by decide) (by omega)]
    simp

theorem toList_unitEscape (n : Nat) : (unitEscape n).toList = '\\' :: 'u' :: hexChars 4 n := by
  simp [unitEscape, hexDigits, hexChars, String.length_ofList]

theorem hexValue?_digitChar : ∀ d < 16, hexValue? d.digitChar = some d := by decide

theorem unitPoint?_hexChars (fits : n ≤ 0xFFFF) :
    ∃ a b c d, hexChars 4 n = [a, b, c, d] ∧ unitPoint? a b c d = some (.ofUnit n) := by
  refine ⟨(n / 16 / 16 / 16).digitChar, (n / 16 / 16 % 16).digitChar, (n / 16 % 16).digitChar,
    (n % 16).digitChar, ?_, ?_⟩
  · rw [hexChars_succ, hexChars_succ, hexChars_succ, hexChars_one (by omega)]
    rfl
  · have value :
        n / 16 / 16 / 16 * 4096 + n / 16 / 16 % 16 * 256 + n / 16 % 16 * 16 + n % 16 = n := by omega
    simp [unitPoint?, hexValue4?, hexValue?_digitChar, Nat.mod_lt, value,
      show n / 16 / 16 / 16 < 16 by omega]

/-- A point of a string and the characters that it is written as: one that stands for itself, a
short escape, or the escapes of its units. -/
inductive Escaped : Point → List Char → Prop
  | plain {c : Char} (quote : c ≠ '"') (slash : c ≠ '\\') (printable : ¬ c.toNat < 0x20) :
      Escaped (.char c) [c]
  | short {c letter : Char} (long : letter ≠ 'u') (stands : escapedChar? letter = some c) :
      Escaped (.char c) ['\\', letter]
  | unit {n : Nat} (fits : n ≤ 0xFFFF) : Escaped (.ofUnit n) ('\\' :: 'u' :: hexChars 4 n)
  | pair {c : Char} {high low : Nat} (first : high ≤ 0xFFFF) (second : low ≤ 0xFFFF)
      (opens : (Point.ofUnit high).opensPair = true)
        (pair : (Point.ofUnit high).pair? (.ofUnit low) = some c)
      (new : ∀ p : Point, p.pair? (.ofUnit high) = none) :
      Escaped (.char c) ('\\' :: 'u' :: hexChars 4 high ++ '\\' :: 'u' :: hexChars 4 low)

theorem escapeUnits_escaped (p : Point) : Escaped p (escapeUnits p).toList := by
  by_cases single : p.code ≤ 0xFFFF
  · have written : (escapeUnits p).toList = '\\' :: 'u' :: hexChars 4 p.code := by
      simp [escapeUnits, Point.units, single, String.join, toList_unitEscape]
    rw [written]
    have escaped := Escaped.unit single
    rwa [Point.ofUnit_code single] at escaped
  · cases p with
    | half h => exact absurd (Point.code_half_le h) single
    | char c =>
      obtain ⟨high, low, first, second, units, opens, pair, new⟩ :=
        Point.pair?_units (Nat.not_le.1 single)
      have written :
          (escapeUnits (.char c)).toList =
          '\\' :: 'u' :: hexChars 4 high ++ '\\' :: 'u' :: hexChars 4 low := by
        simp [escapeUnits, units, String.join, toList_unitEscape]
      rw [written]
      exact .pair first second opens pair new

theorem escapeChar_escaped (c : Char) : Escaped (.char c) (escapeChar c).toList := by
  have coded {n : Nat} (code : c.toNat = n) : c = Char.ofNat n := by rw [← code, Char.ofNat_toNat]
  have stands {c : Char} (letter : Char) (long : letter ≠ 'u')
    (stands : escapedChar? letter = some c) :
      Escaped (.char c) ['\\', letter] := .short long stands
  unfold escapeChar
  split_ifs with quote slash feed carriage tab back form printable
  · exact quote ▸ stands '"' (by decide) rfl
  · exact slash ▸ stands '\\' (by decide) rfl
  · exact feed ▸ stands 'n' (by decide) rfl
  · exact carriage ▸ stands 'r' (by decide) rfl
  · exact tab ▸ stands 't' (by decide) rfl
  · exact coded back ▸ stands 'b' (by decide) rfl
  · exact coded form ▸ stands 'f' (by decide) rfl
  · have written : c.toString.toList = [c] := by simp [Char.toString]
    rw [written]
    exact .plain quote slash (Nat.not_lt.2 printable.1)
  · exact escapeUnits_escaped _

theorem escapePoint_escaped (p : Point) : Escaped p (escapePoint p).toList := by
  cases p with
  | half h => exact escapeUnits_escaped _
  | char c => exact escapeChar_escaped c

/-- What is written has no carriage return in it. -/
theorem Escaped.no_return {p : Point} {cs : List Char} (escaped : Escaped p cs) : '\r' ∉ cs := by
  have digits {n : Nat} (fits : n ≤ 0xFFFF) : '\r' ∉ hexChars 4 n := by
    obtain ⟨a, b, c, d, digits, unit⟩ := unitPoint?_hexChars fits
    rw [digits]
    intro member
    simp only [List.mem_cons, List.not_mem_nil, or_false] at member
    have none : hexValue? '\r' = none := by decide
    rcases member with rfl | rfl | rfl | rfl <;> simp [unitPoint?, hexValue4?, none] at unit
  cases escaped with
  | plain quote slash printable =>
    intro member
    rw [List.mem_singleton] at member
    exact printable (member ▸ by decide)
  | short long stands =>
    intro member
    simp only [List.mem_cons, List.not_mem_nil, or_false] at member
    rcases member with same | rfl
    · exact absurd same (by decide)
    · cases stands
  | unit fits => simpa using digits fits
  | pair first second opens pair new => simpa using ⟨digits first, digits second⟩

/-- Characters of which none can make a pair with an escape before them: an escape that opens
them, whole and with more behind it, is that of a point which ends no pair with this one. -/
def Apart (p : Point) (rest : List Char) : Prop :=
  rest ≠ [] ∧ ∀ e f g h next more, rest = '\\' :: 'u' :: e :: f :: g :: h :: next :: more →
    ∃ q, unitPoint? e f g h = some q ∧ p.pair? q = none

theorem readString_unit (fits : n ≤ 0xFFFF) (apart : Apart (.ofUnit n) rest) :
    readString start done ('\\' :: 'u' :: hexChars 4 n ++ rest) =
      readString start (.ofUnit n :: done) rest := by
  obtain ⟨a, b, c, d, digits, unit⟩ := unitPoint?_hexChars fits
  obtain ⟨some, apart⟩ := apart
  obtain ⟨next, more, rfl⟩ := List.exists_cons_of_ne_nil some
  rw [digits]
  show readString start done ('\\' :: 'u' :: a :: b :: c :: d :: next :: more) = _
  by_cases escape : ∃ e f g h next' more', next = '\\' ∧
    more = 'u' :: e :: f :: g :: h :: next' :: more'
  · obtain ⟨e, f, g, h, next', more', rfl, rfl⟩ := escape
    obtain ⟨q, unit', other⟩ := apart e f g h next' more' rfl
    rw [readString.eq_4]
    simp only [unit, unit', other, ite_self]
  · rw [readString.eq_5]
    · simp only [unit]
    · exact fun e f g h next' more' slash rest => escape ⟨e, f, g, h, next', more', slash, rest⟩

theorem readString_pair {c : Char} {high low : Nat} (first : high ≤ 0xFFFF) (second : low ≤ 0xFFFF)
    (opens : (Point.ofUnit high).opensPair = true)
    (pair : (Point.ofUnit high).pair? (.ofUnit low) = some c)
    (some : rest ≠ []) :
    readString start done (('\\' :: 'u' :: hexChars 4 high ++ '\\' :: 'u' :: hexChars 4 low) ++ rest) =
      readString start (.char c :: done) rest := by
  obtain ⟨a, b, c, d, digits, unit⟩ := unitPoint?_hexChars first
  obtain ⟨e, f, g, h, digits', unit'⟩ := unitPoint?_hexChars second
  obtain ⟨next, more, rfl⟩ := List.exists_cons_of_ne_nil some
  rw [digits, digits']
  show readString start done
    ('\\' :: 'u' :: a :: b :: c :: d :: '\\' :: 'u' :: e :: f :: g :: h :: next :: more) = _
  rw [readString.eq_4]
  simp only [unit, unit', opens, pair, if_true]

theorem readString_escaped {p : Point} {cs : List Char} (escaped : Escaped p cs)
    (apart : Apart p rest) :
    readString start done (cs ++ rest) = readString start (p :: done) rest := by
  cases escaped with
  | @plain c quote slash printable =>
    show readString start done (c :: rest) = _
    rw [readString.eq_8] <;> simp_all
  | @short c letter long stands =>
    show readString start done ('\\' :: letter :: rest) = _
    rw [readString.eq_7] <;> simp_all
  | unit fits => exact readString_unit fits apart
  | pair first second opens pair new => exact readString_pair first second opens pair apart.1

/-- What follows a point in a written text stands apart from it. -/
theorem Escaped.apart {p q : Point} {cs : List Char} (escaped : Escaped q cs)
    (other : p.pair? q = none)
    (rest : List Char) : Apart p (cs ++ rest) := by
  have digits (n : Nat) (fits : n ≤ 0xFFFF) (tail : List Char) (e f g h next : Char)
    (more : List Char)
      (same : '\\' :: 'u' :: hexChars 4 n ++ tail = '\\' :: 'u' :: e :: f :: g :: h :: next :: more) :
      unitPoint? e f g h = some (.ofUnit n) := by
    obtain ⟨a, b, c, d, digits, unit⟩ := unitPoint?_hexChars fits
    rw [digits] at same
    cases same
    exact unit
  cases escaped with
  | plain quote slash printable =>
    refine ⟨List.cons_ne_nil _ _, ?_⟩
    rintro e f g h next more same
    exact absurd (List.cons.inj same).1 slash
  | short long stands =>
    refine ⟨List.cons_ne_nil _ _, ?_⟩
    rintro e f g h next more same
    exact absurd (List.cons.inj (List.cons.inj same).2).1 long
  | unit fits =>
    exact ⟨List.cons_ne_nil _ _,
      fun e f g h next more same => ⟨_, digits _ fits _ e f g h next more same, other⟩⟩
  | @pair c high low first second opens pair new =>
    refine ⟨List.cons_ne_nil _ _, ?_⟩
    rintro e f g h next more same
    rw [List.append_assoc] at same
    exact ⟨_, digits high first _ e f g h next more same, new p⟩

theorem apart_quote (p : Point) (rest : List Char) : Apart p ('"' :: rest) :=
  ⟨List.cons_ne_nil _ _, fun _ _ _ _ _ _ same => absurd (List.cons.inj same).1 (by decide)⟩

/-- Two halves of a pair are read as the character that they make. -/
theorem readString_halves {p q : Point} {c : Char} (pair : p.pair? q = some c) (some : rest ≠ []) :
    readString start done ((escapePoint p).toList ++ ((escapePoint q).toList ++ rest)) =
      readString start (.char c :: done) rest := by
  cases p with
  | char c => cases pair
  | half high =>
    cases q with
    | char c => cases pair
    | half low =>
      have unit (h : Half) : (escapePoint (.half h)).toList = '\\' :: 'u' :: hexChars 4 h.code ∧
          .ofUnit h.code = Point.half h := by
        refine ⟨?_, Point.ofUnit_code (Point.code_half_le h)⟩
        simp [escapePoint, escapeUnits, Point.units_half, String.join, toList_unitEscape]
      have opens : (Point.half high).opensPair = true := by
        by_contra closes
        simp only [Point.opensPair, Bool.not_eq_true] at closes
        simp [Point.pair?, closes] at pair
      rw [(unit high).1, (unit low).1, ← List.append_assoc]
      exact readString_pair (Point.code_half_le high) (Point.code_half_le low)
        ((unit high).2 ▸ opens)
        (by rw [(unit high).2, (unit low).2, pair]) some

/-- The points of a written string are read back, after the ones before them. -/
theorem readString_points (start rest : List Char) (points done : List Point) :
    readString start done (points.flatMap (fun p => (escapePoint p).toList) ++ '"' :: rest) =
      .ok (⟨done.reverse ++ Point.joinPairs points⟩, rest) := by
  fun_induction Point.joinPairs points generalizing done with
  | case1 p q later c pair ih =>
    rw [List.flatMap_cons, List.flatMap_cons, List.append_assoc, List.append_assoc,
      readString_halves pair (List.append_ne_nil_of_right_ne_nil _ (List.cons_ne_nil _ _)), ih]
    simp
  | case2 p q later none ih =>
    have apart :
        Apart p ((q :: later).flatMap (fun p => (escapePoint p).toList) ++ '"' :: rest) := by
      rw [List.flatMap_cons, List.append_assoc]
      exact (escapePoint_escaped q).apart none _
    rw [List.flatMap_cons, List.append_assoc, readString_escaped (escapePoint_escaped p) apart, ih]
    simp
  | case3 points short =>
    match points, short with
    | [], _ => simp [readString]
    | [p], _ =>
      rw [List.flatMap_singleton, readString_escaped (escapePoint_escaped p) (apart_quote p rest)]
      simp [readString]
    | p :: q :: later, short => exact (short p q later rfl).elim

theorem toList_writeString (t : Text) :
    (writeString t).toList =
      '"' :: (t.points.flatMap fun p => (escapePoint p).toList) ++ ['"'] := by
  simp [writeString, String.toList_join, List.flatMap_map]

theorem writeString_no_return (t : Text) : '\r' ∉ (writeString t).toList := by
  have points : ∀ p ∈ t.points, '\r' ∉ (escapePoint p).toList :=
    fun p _ => (escapePoint_escaped p).no_return
  simpa [toList_writeString] using points

end Json
end LeadRules
