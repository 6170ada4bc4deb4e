import LeadRules.Proofs.Instants
import LeadRules.Proofs.JsonNumbers

/-! Texts that start with digits. They are numbers only if they go on like one, and digits alone
are the number that they write, so long as a double is exact about it. -/
namespace LeadRules

section Blank

variable {a b cs : List Char} {c : Char}

theorem digit_bounds (digit : c.isDigit = true) : '0'.toNat ≤ c.toNat ∧ c.toNat ≤ '9'.toNat := by
  rw [Char.isDigit, Bool.and_eq_true, decide_eq_true_eq, decide_eq_true_eq] at digit
  exact ⟨UInt32.le_iff_toNat_le.1 digit.1, UInt32.le_iff_toNat_le.1 digit.2⟩

theorem isBlank_of_isDigit (digit : c.isDigit = true) : isBlank c = false := by
  have bounds := digit_bounds digit
  simp [isBlank, blanks] at bounds ⊢
  omega

/-- Blanks are dropped from the end only, if the text does not start with one, and none
before what is not blank. -/
theorem trimBlanks_append (starts : ∃ d rest, a = d :: rest ∧ isBlank d = false)
    (visible : ∃ x ∈ b, isBlank x = false) :
    ∃ c rest rest', b = c :: rest ∧ trimBlanks (a ++ b) = a ++ c :: rest' := by
  obtain ⟨d, front, rfl, plain⟩ := starts
  obtain ⟨x, member, shown⟩ := visible
  have kept : b.reverse.dropWhile isBlank ≠ [] := by
    rw [Ne, List.dropWhile_eq_nil_iff]
    intro blank
    rw [blank x (List.mem_reverse.2 member)] at shown
    cases shown
  have first : (b.reverse.dropWhile isBlank).reverse <+: b := by
    have suffix := List.dropWhile_suffix (l := b.reverse) isBlank
    rw [← List.reverse_prefix, List.reverse_reverse] at suffix
    exact suffix
  have trimmed :
      trimBlanks (d :: front ++ b) = d :: front ++ (b.reverse.dropWhile isBlank).reverse := by
    have whole : (d :: front ++ b).dropWhile isBlank = d :: front ++ b := by simp [plain]
    rw [trimBlanks, whole, List.reverse_append, List.dropWhile_append, if_neg (by simpa using kept),
      List.reverse_append, List.reverse_reverse]
  cases shape : (b.reverse.dropWhile isBlank).reverse with
  | nil => exact absurd (List.reverse_eq_nil_iff.1 shape) kept
  | cons c rest' =>
    rw [shape] at first trimmed
    obtain ⟨rest, rfl⟩ := first
    exact ⟨c, rest' ++ rest, rest', rfl, trimmed⟩

theorem trimBlanks_digits (digits : ∀ c ∈ cs, c.isDigit = true) : trimBlanks cs = cs := by
  have kept : ∀ cs : List Char, (∀ c ∈ cs, c.isDigit = true) → cs.dropWhile isBlank = cs := by
    intro cs digits
    cases cs with
    | nil => rfl
    | cons c rest => simp [isBlank_of_isDigit (digits c List.mem_cons_self)]
  rw [trimBlanks, kept cs digits, kept cs.reverse fun c member => digits c
    (List.mem_reverse.1 member), List.reverse_reverse]

end Blank

namespace Numeral

variable {t : Text} {ds cs more rest : List Char} {c d previous : Char}

def plainDigit (c : Char) : Char :=
  match digitValue? c with
  | some d => Char.ofNat ('0'.toNat + d)
  | none => c

theorem normalize_eq (t : Text) : normalize t = trimBlanks ((t.charsOr '\uFFFD').map plainDigit) :=
  rfl

theorem digitValue?_of_isDigit (digit : c.isDigit = true) :
    digitValue? c = some (c.toNat - '0'.toNat) := by
  obtain ⟨low, high⟩ := digit_bounds digit
  have inside : ((0x30 : Nat) ≤ c.toNat && c.toNat < 0x30 + 10) = true := by
    simp at low high ⊢
    omega
  obtain ⟨others, rows⟩ : ∃ others, zeroDigits = 0x30 :: others := ⟨_, rfl⟩
  have first :
      (0x30 :: others).find? (fun first => first ≤ c.toNat && c.toNat < first + 10) = some 0x30 :=
    List.find?_cons_of_pos inside
  rw [digitValue?, rows, first]
  rfl

theorem plainDigit_of_isDigit (digit : c.isDigit = true) : plainDigit c = c := by
  rw [plainDigit, digitValue?_of_isDigit digit]
  show Char.ofNat ('0'.toNat + (c.toNat - '0'.toNat)) = c
  rw [Nat.add_sub_cancel' (digit_bounds digit).1, Char.ofNat_toNat]

theorem map_plainDigit (digits : ∀ c ∈ ds, c.isDigit = true) : ds.map plainDigit = ds :=
  (List.map_congr_left fun c member => plainDigit_of_isDigit (digits c member)).trans
    (List.map_id ds)

/-- Whether a number that has started with digits may go on with a character: a digit of any
script, an underscore, a point, or the letter of an exponent. -/
def continues (c : Char) : Bool := (digitValue? c).isSome || c = '_' || c = '.' || c.toLower = 'e'

theorem plain_of_stops (stops : continues c = false) :
    plainDigit c = c ∧ c.isDigit = false ∧ c ≠ '_' ∧ c ≠ '.' ∧ c.toLower ≠ 'e' := by
  simp only [continues, Bool.or_eq_false_iff, decide_eq_false_iff_not, Option.isSome_eq_false_iff,
    Option.isNone_iff_eq_none] at stops
  obtain ⟨⟨⟨none, underscore⟩, point⟩, exponent⟩ := stops
  refine ⟨by rw [plainDigit, none], ?_, underscore, point, exponent⟩
  cases digit : c.isDigit with
  | false => rfl
  | true =>
    rw [digitValue?_of_isDigit digit] at none
    cases none

theorem dropUnderscores_cons (other : c ≠ '_') : dropUnderscores previous (c :: rest) =
    if previous = '_' ∧ !c.isDigit then none else (dropUnderscores c rest).map (c :: ·) := by
  rw [dropUnderscores]
  exact other

theorem ne_underscore (digit : c.isDigit = true) : c ≠ '_' := by
  rintro rfl
  cases digit

/-- Dropping underscores keeps the digits at the start and what stops them. -/
theorem dropUnderscores_append (digits : ∀ c ∈ ds, c.isDigit = true) (other : c ≠ '_')
    (dropped : dropUnderscores previous (ds ++ c :: rest) = some cs) :
    ∃ more, cs = ds ++ c :: more := by
  induction ds generalizing previous cs with
  | nil =>
    rw [List.nil_append, dropUnderscores_cons other] at dropped
    split at dropped
    · cases dropped
    · obtain ⟨more, -, rfl⟩ := Option.map_eq_some_iff.1 dropped
      exact ⟨more, rfl⟩
  | cons d ds ih =>
    obtain ⟨digit, digits⟩ := List.forall_mem_cons.1 digits
    rw [List.cons_append, dropUnderscores_cons (ne_underscore digit)] at dropped
    split at dropped
    · cases dropped
    · obtain ⟨kept, dropped', rfl⟩ := Option.map_eq_some_iff.1 dropped
      obtain ⟨more, rfl⟩ := ih digits dropped'
      exact ⟨more, rfl⟩

theorem dropUnderscores_digits (digits : ∀ c ∈ ds, c.isDigit = true) (other : previous ≠ '_') :
    dropUnderscores previous ds = some ds := by
  induction ds generalizing previous with
  | nil => simp [dropUnderscores, other]
  | cons d ds ih =>
    obtain ⟨digit, digits⟩ := List.forall_mem_cons.1 digits
    have plain := ne_underscore digit
    rw [dropUnderscores_cons plain, ih digits plain, if_neg fun ⟨same, _⟩ => other same]
    rfl

/-- What starts with a digit has no sign and is no word. -/
theorem readDouble?_of_digit (characters : characters? t = some (d :: cs))
    (digit : d.isDigit = true) :
    readDouble? t = readDecimal? false (d :: cs) := by
  have bounds := digit_bounds digit
  have unsigned : signed (d :: cs) = (false, d :: cs) := by
    unfold signed
    split
    next same => exact absurd ((List.cons.inj same).1 ▸ digit) (by decide)
    next same => exact absurd ((List.cons.inj same).1 ▸ digit) (by decide)
    · rfl
  have lower : d.toLower = d := by
    unfold Char.toLower
    rw [dif_neg]
    rintro ⟨above, -⟩
    have above := UInt32.le_iff_toNat_le.1 above
    simp at bounds above
    omega
  have word (word : String) (letter : Char) (more : List Char)
    (spelled : word.toList = letter :: more) (other : letter.isDigit = false) :
      String.ofList ((d :: cs).map Char.toLower) ≠ word := by
    rintro rfl
    rw [String.toList_ofList, List.map_cons, lower] at spelled
    rw [← (List.cons.inj spelled).1, digit] at other
    cases other
  simp only [readDouble?, characters, Option.bind_eq_bind, Option.bind_some, unsigned]
  split
  next same => exact absurd same (word "nan" 'n' _ rfl rfl)
  next same => exact absurd same (word "inf" 'i' _ rfl rfl)
  next same => exact absurd same (word "infinity" 'i' _ rfl rfl)
  · rfl

/-- Digits with something behind them that is neither an underscore, a point nor an exponent. -/
theorem readDecimal?_stopped (digits : ∀ c ∈ ds, c.isDigit = true) (stops : continues c = false) :
    readDecimal? false (ds ++ c :: rest) = none := by
  obtain ⟨-, other, -, point, exponent⟩ := plain_of_stops stops
  have ends : Json.NoDigit (c :: rest) := by
    rintro c ⟨⟩
    exact other
  obtain ⟨whole, after⟩ := Json.span_digits digits ends
  have none : readExponent? (c :: rest) = none := by simp [readExponent?, exponent]
  simp only [readDecimal?, whole, after]
  split
  next same => exact absurd (List.cons.inj same).1 point
  · rw [none]
    rfl

/-- Digits that are followed by what no number goes on with are no number, unless all of that is
blank. -/
theorem readDouble?_stopped (characters : t.charsOr '\uFFFD' = ds ++ c :: rest)
    (digits : ∀ c ∈ ds, c.isDigit = true)
    (some : ds ≠ []) (stops : continues c = false)
    (visible : ∃ x ∈ c :: rest, isBlank (plainDigit x) = false) :
    readDouble? t = none := by
  obtain ⟨plain, -, underscore, -⟩ := plain_of_stops stops
  obtain ⟨d, front, rfl⟩ := List.exists_cons_of_ne_nil some
  have digit := digits d List.mem_cons_self
  obtain ⟨c', rest', rest'', same, trimmed⟩ :=
    trimBlanks_append (a := d :: front) (b := (c :: rest).map plainDigit)
    ⟨d, front, rfl, isBlank_of_isDigit digit⟩ (by simpa using visible)
  obtain ⟨rfl, -⟩ := List.cons.inj (same.symm.trans (List.map_cons ..))
  rw [plain] at trimmed
  have normalized : normalize t = d :: front ++ c :: rest'' := by
    rw [normalize_eq, characters, List.map_append, map_plainDigit digits, trimmed]
  cases read : characters? t with
  | none => simp [readDouble?, read]
  | some cs =>
    rw [characters?, normalized] at read
    obtain ⟨more, rfl⟩ := dropUnderscores_append digits underscore read
    rw [← normalized] at read
    rw [readDouble?_of_digit read digit]
    exact readDecimal?_stopped digits stops

/-- A whole number of at most fifteen digits is read as it is. -/
theorem sameInt_nearest {n : Nat} (short : n < 10 ^ 15) : (nearest false n 0).sameInt n = true := by
  have few : Decimal.digitCount n ≤ 15 :=
    (Nat.length_toDigits_le_iff (by decide) (by decide)).2 short
  have size : n < 2 * Binary64.blockSize := Nat.lt_trans short (by decide)
  have exact := Binary64.sameInt_ofRatio size Nat.one_pos false
  by_cases zero : n = 0
  · have room : 0 < Binary64.infinityRank := by decide
    have units : Binary64.zero.signedUnits? = some 0 := by
      simp [Binary64.zero, Binary64.signedUnits?, Binary64.units_zero, room]
    have least : nearest false 0 0 = .zero := by
      simp only [nearest, true_or, if_true, Binary64.zero]
    rw [zero, least, Binary64.sameInt, units, Int.natCast_zero, Int.zero_mul]
    rfl
  · simp only [nearest]
    rw [if_neg (by omega), if_neg (by omega)]
    exact exact

/-- Digits alone are the number that they write. -/
theorem readDouble?_digits (digits : ∀ c ∈ ds, c.isDigit = true) (some : ds ≠ [])
    (short : ds.length ≤ 15) :
    ∃ x, readDouble? (.ofChars ds) = .some x ∧ x.sameInt (digitsValue ds) = true := by
  have whole : (Text.ofChars ds).charsOr '\uFFFD' = ds := by
    simp only [Text.charsOr, Text.ofChars, List.map_map]
    exact List.map_id ds
  have characters : characters? (.ofChars ds) = .some ds := by
    rw [characters?, normalize_eq, whole, map_plainDigit digits, trimBlanks_digits digits,
      dropUnderscores_digits digits (by decide)]
  have ends : Json.NoDigit [] := by rintro c ⟨⟩
  have span := Json.span_digits digits ends
  rw [List.append_nil] at span
  refine ⟨nearest false (digitsValue ds) 0, ?_, ?_⟩
  · obtain ⟨d, front, rfl⟩ := List.exists_cons_of_ne_nil some
    rw [readDouble?_of_digit characters (digits d List.mem_cons_self)]
    simp [readDecimal?, span.1, span.2, readExponent?]
  · exact sameInt_nearest
      (Nat.lt_of_lt_of_le (digitsValue_lt digits) (Nat.pow_le_pow_right (by decide) short))

end Numeral
end LeadRules
