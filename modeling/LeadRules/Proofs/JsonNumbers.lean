import LeadRules.Json.Reader
import LeadRules.Json.Writer
import LeadRules.Proofs.Digits
import Mathlib.Data.List.Induction

/-! Numbers in JSON. Whole numbers and doubles are read back from what is written of them, so long
as a whole number has no more digits than may be read. -/
namespace LeadRules

namespace Numeral

theorem digitsValue_append (a b : List Char) :
    digitsValue (a ++ b) = digitsValue a * 10 ^ b.length + digitsValue b := by
  induction b using List.reverseRecOn with
  | nil => simp [digitsValue]
  | append_singleton b c ih =>
    have step (cs : List Char) :
        digitsValue (cs ++ [c]) = digitsValue cs * 10 + (c.toNat - '0'.toNat) := by
      simp [digitsValue]
    rw [← List.append_assoc, step, step, ih, List.length_append, List.length_singleton]
    ring

theorem digitsValue_zeros (n : Nat) : digitsValue (List.replicate n '0') = 0 := by
  induction n with
  | zero => rfl
  | succ n ih =>
    rw [List.replicate_succ', digitsValue_append, ih]
    rfl

theorem digitsValue_toDigits (n : Nat) : digitsValue (Nat.toDigits 10 n) = n := by
  have value : digitsValue (Nat.toDigits 10 n) = Nat.ofDigitChars 10 (Nat.toDigits 10 n) 0 := by
    rw [Nat.ofDigitChars_eq_foldl, digitsValue]
    congr 1
    funext n c
    rw [Nat.mul_comm]
  rw [value, Nat.ofDigitChars_ten_toDigits]

theorem digitsValue_lt {cs : List Char} (digits : ∀ c ∈ cs, c.isDigit = true) :
    digitsValue cs < 10 ^ cs.length := by
  induction cs using List.reverseRecOn with
  | nil => simp [digitsValue]
  | append_singleton cs c ih =>
    have before := ih fun d member => digits d (List.mem_append_left _ member)
    have last : c.toNat - '0'.toNat ≤ 9 := by
      have digit := digits c (List.mem_append_right _ (List.mem_singleton_self c))
      simp only [Char.isDigit, Bool.and_eq_true, decide_eq_true_eq] at digit
      have upper : c.toNat ≤ '9'.toNat := digit.2
      have nine : '9'.toNat = 57 := rfl
      have zero : '0'.toNat = 48 := rfl
      omega
    have value : digitsValue (cs ++ [c]) = digitsValue cs * 10 + (c.toNat - '0'.toNat) := by
      simp [digitsValue]
    rw [value, List.length_append, List.length_singleton, Nat.pow_succ]
    omega

end Numeral

namespace Json

open Numeral (digitsValue digitsValue_append digitsValue_zeros digitsValue_toDigits nearest)

variable {rest : List Char} {n : Nat}

theorem isDigit_toDigits {c : Char} (member : c ∈ Nat.toDigits 10 n) : c.isDigit = true :=
  Nat.isDigit_of_mem_toDigits (by decide) (by decide) member

/-- The digits of a number start with a zero only if it is zero. -/
theorem toDigits_head (n : Nat) : ∃ c cs, Nat.toDigits 10 n = c :: cs ∧ (c = '0' → n = 0) := by
  induction n using Nat.strongRecOn with
  | ind n ih =>
    by_cases small : n < 10
    · have leads : ∀ d < 10, d.digitChar = '0' → d = 0 := by decide
      exact ⟨n.digitChar, [], Nat.toDigits_of_lt_base small, leads n small⟩
    · obtain ⟨c, cs, digits, leads⟩ := ih (n / 10) (by omega)
      refine ⟨c, cs ++ [(n % 10).digitChar], ?_, fun zero => ?_⟩
      · rw [Nat.toDigits_of_base_le (by decide) (by omega), digits]
        rfl
      · have := leads zero
        omega

def NoDigit (rest : List Char) : Prop := ∀ c ∈ rest.head?, c.isDigit = false

/-- What may stand behind a value: the end of the text, a blank, or a mark that ends the value. -/
def Ends (rest : List Char) : Prop :=
  ∀ c ∈ rest.head?, c ∈ [',', ']', '\x7d', ' ', '\t', '\n', '\r']

theorem Ends.noDigit (ends : Ends rest) : NoDigit rest := by
  have marks : ∀ c ∈ [',', ']', '\x7d', ' ', '\t', '\n', '\r'], c.isDigit = false := by simp
  exact fun c first => marks c (ends c first)

theorem Ends.noFraction (ends : Ends rest) : readFraction? rest = none := by
  unfold readFraction?
  split
  · exact absurd (ends '.' rfl) (by decide)
  · rfl

theorem Ends.noExponent (ends : Ends rest) : readExponent? rest = none := by
  have marks : ∀ c ∈ [',', ']', '\x7d', ' ', '\t', '\n', '\r'], ¬(c = 'e' ∨ c = 'E') := by simp
  unfold readExponent?
  split
  next c more => rw [if_neg (marks c (ends c rfl))]
  · rfl

section Parts

variable {digits : List Char}

theorem span_digits (all : ∀ c ∈ digits, c.isDigit = true) (stops : NoDigit rest) :
    (digits ++ rest).takeWhile Char.isDigit = digits ∧
    (digits ++ rest).dropWhile Char.isDigit = rest := by
  rw [List.takeWhile_append_of_pos all, List.dropWhile_append_of_pos all]
  cases rest with
  | nil => simp
  | cons c more =>
    have ends : ¬c.isDigit = true := by simp [stops c rfl]
    simp [ends]

/-- The digits before the point, which start with no zero unless it stands alone. -/
theorem readWhole?_append (all : ∀ c ∈ digits, c.isDigit = true)
    (leads : ∃ c cs, digits = c :: cs ∧ (c = '0' → cs = []))
    (stops : NoDigit rest) : readWhole? (digits ++ rest) = some (digits, rest) := by
  obtain ⟨c, cs, rfl, alone⟩ := leads
  by_cases zero : c = '0'
  · rw [alone zero, zero]
    rfl
  · obtain ⟨taken, left⟩ := span_digits all stops
    rw [List.cons_append] at taken left ⊢
    rw [readWhole?.eq_2 _ _ zero, if_pos (all c List.mem_cons_self), taken, left]

theorem readFraction?_append (all : ∀ c ∈ digits, c.isDigit = true) (some : digits ≠ [])
    (stops : NoDigit rest) :
    readFraction? ('.' :: (digits ++ rest)) = Option.some (digits, rest) := by
  obtain ⟨c, cs, rfl⟩ := List.exists_cons_of_ne_nil some
  obtain ⟨taken, left⟩ := span_digits all stops
  rw [List.cons_append] at taken left ⊢
  rw [readFraction?, if_pos (all c List.mem_cons_self), taken, left]

/-- The exponent as it is written: at least two digits behind a sign. -/
theorem readExponent?_append (all : ∀ c ∈ digits, c.isDigit = true) (some : digits ≠ [])
    (stops : NoDigit rest)
    (negative : Bool) : readExponent? ('e' :: (if negative then '-' else '+') :: (digits ++ rest)) =
      Option.some (if negative then -(digitsValue digits : Int) else digitsValue digits, rest) := by
  obtain ⟨taken, left⟩ := span_digits all stops
  have full : digits.isEmpty = false := by simpa using some
  cases negative <;> simp [readExponent?, Numeral.signed, taken, left, full]

/-- The sign of a number and the parts that it is read in. -/
theorem readNumber?_signed (negative : Bool) {cs whole afterWhole : List Char}
    (read : readWhole? cs = some (whole, afterWhole)) :
    readNumber? ((if negative then ['-'] else []) ++ cs) =
      match (readFraction? afterWhole).getD ([], afterWhole) with
      | (fraction, afterFraction) =>
        match fraction, readExponent? afterFraction with
        | [], none => some (readInteger negative whole afterFraction)
        | _, some (power, rest) =>
          some (.ok
            (.float (nearest negative (digitsValue (whole ++ fraction)) (power - fraction.length)),
              rest))
        | _, none =>
          some (.ok
            (.float (nearest negative (digitsValue (whole ++ fraction)) (0 - fraction.length)),
              afterFraction)) := by
  cases negative with
  | true =>
    rw [if_pos rfl, List.singleton_append, readNumber?, Option.bind_eq_bind, read]
    rfl
  | false =>
    unfold readNumber?
    split
    next sign body signed =>
      split at signed
      next unsigned =>
        rw [show cs = _ from unsigned] at read
        cases read
      next =>
        cases signed
        rw [if_neg Bool.false_ne_true, List.nil_append, Option.bind_eq_bind, read]
        rfl

/-- A number with a point in it. -/
theorem readNumber?_point (negative : Bool) {fraction : List Char}
    (all : ∀ c ∈ digits, c.isDigit = true)
    (leads : ∃ c cs, digits = c :: cs ∧ (c = '0' → cs = []))
    (parts : ∀ c ∈ fraction, c.isDigit = true)
    (some : fraction ≠ []) (ends : Ends rest) :
    readNumber? ((if negative then ['-'] else []) ++ (digits ++ '.' :: (fraction ++ rest))) =
      Option.some
        (.ok (.float (nearest negative (digitsValue (digits ++ fraction)) (0 - fraction.length)),
          rest)) := by
  obtain ⟨c, cs, rfl⟩ := List.exists_cons_of_ne_nil some
  have stops : NoDigit ('.' :: (c :: cs ++ rest)) := by
    rintro _ ⟨⟩
    rfl
  rw [readNumber?_signed negative (readWhole?_append all leads stops),
    readFraction?_append parts some ends.noDigit]
  simp only [Option.getD_some, ends.noExponent]

/-- A number with an exponent behind it. -/
theorem readNumber?_exponent (negative down : Bool) {fraction power : List Char}
    (all : ∀ c ∈ digits, c.isDigit = true)
    (leads : ∃ c cs, digits = c :: cs ∧ (c = '0' → cs = []))
    (parts : ∀ c ∈ fraction, c.isDigit = true)
    (powers : ∀ c ∈ power, c.isDigit = true) (some : power ≠ []) (ends : Ends rest) :
    readNumber?
        ((if negative then ['-'] else []) ++
          (digits ++ ((if fraction = [] then [] else '.' :: fraction) ++
            'e' :: (if down then '-' else '+') :: (power ++ rest)))) =
      Option.some (.ok (.float (nearest negative (digitsValue (digits ++ fraction))
        ((if down then -(digitsValue power : Int) else digitsValue power) - fraction.length)),
        rest)) := by
  have exponent := readExponent?_append powers some ends.noDigit down
  have stops (tail : List Char) : NoDigit ('e' :: tail) := by
    rintro _ ⟨⟩
    rfl
  cases fraction with
  | nil =>
    rw [if_pos rfl, List.nil_append, readNumber?_signed negative (readWhole?_append all leads (stops _))]
    have none (tail : List Char) : readFraction? ('e' :: tail) = Option.none := rfl
    simp only [none, Option.getD_none, exponent]
  | cons c cs =>
    have point :
        NoDigit ('.' :: (c :: cs ++ 'e' :: (if down then '-' else '+') :: (power ++ rest))) := by
      rintro _ ⟨⟩
      rfl
    rw [if_neg (List.cons_ne_nil c cs), List.cons_append, readNumber?_signed negative
      (readWhole?_append all leads point),
      readFraction?_append parts (List.cons_ne_nil c cs) (stops _)]
    simp only [Option.getD_some, exponent]

end Parts

section Decimals

theorem toList_positional (digits : List Char) (point : Int) :
    (Decimal.positional digits point).toList =
    if point ≤ 0 then ['0'] ++ '.' :: (List.replicate (-point).toNat '0' ++ digits)
    else if (digits.length : Int) ≤ point then
      digits ++ List.replicate (point - digits.length).toNat '0' ++ ['.', '0']
    else digits.take point.toNat ++ '.' :: digits.drop point.toNat := by
  unfold Decimal.positional
  split
  · show ("0." ++ String.ofList (List.replicate _ '0') ++ String.ofList digits).toList = _
    simp
  · split
    · show (String.ofList digits ++ String.ofList (List.replicate _ '0') ++ ".0").toList = _
      simp
    · simp

def powerChars (power : Int) : List Char :=
  (if (Nat.toDigits 10 power.natAbs).length < 2 then ['0'] else []) ++ Nat.toDigits 10 power.natAbs

theorem toList_scientific (c : Char) (cs : List Char) (power : Int) :
    (Decimal.scientific (c :: cs) power).toList =
    [c] ++ ((if cs = [] then [] else '.' :: cs) ++ 'e' :: (if power < 0 then '-' else '+') ::
      powerChars power) := by
  have size : power.natAbs.repr.toList = Nat.toDigits 10 power.natAbs := Nat.toList_repr
  have count : power.natAbs.repr.length = (Nat.toDigits 10 power.natAbs).length := by
    rw [← size, String.length_toList]
  unfold Decimal.scientific powerChars
  by_cases down : power < 0 <;> by_cases few : (Nat.toDigits 10 power.natAbs).length <
    2 <;> cases cs <;>
    simp [down, few, count, size]

theorem digitsValue_powerChars (power : Int) : digitsValue (powerChars power) = power.natAbs := by
  rw [powerChars, digitsValue_append, digitsValue_toDigits]
  split <;> simp [digitsValue]

theorem isDigit_powerChars {power : Int} {c : Char} (member : c ∈ powerChars power) :
    c.isDigit = true := by
  rw [powerChars, List.mem_append] at member
  rcases member with zero | digit
  · split at zero
    · rw [List.mem_singleton.1 zero]
      rfl
    · cases zero
  · exact isDigit_toDigits digit

section Digits

variable {c : Char} {cs : List Char}

theorem readNumber?_scientific (all : ∀ c' ∈ c :: cs, c'.isDigit = true) (negative : Bool)
    (power : Int) (ends : Ends rest) :
    readNumber?
      ((if negative then ['-'] else []) ++ ((Decimal.scientific (c :: cs) power).toList ++ rest)) =
      some (.ok (.float (nearest negative (digitsValue (c :: cs)) (power - cs.length)), rest)) := by
  have first : ∀ c' ∈ [c], c'.isDigit = true := by simpa using all c List.mem_cons_self
  have some : powerChars power ≠ [] := by simp [powerChars]
  have read := readNumber?_exponent negative (decide (power < 0)) first ⟨c, [], rfl, fun _ => rfl⟩
    (fun c' member => all c' (List.mem_cons_of_mem _ member))
    (fun c' => isDigit_powerChars) some ends
  have exponent : (if decide (power < 0) then -(power.natAbs : Int) else power.natAbs) = power := by
    simp only [decide_eq_true_eq]
    split <;> omega
  rw [digitsValue_powerChars, exponent] at read
  rw [toList_scientific]
  simpa using read

theorem readNumber?_positional (all : ∀ c' ∈ c :: cs, c'.isDigit = true) (leads : c ≠ '0')
    (negative : Bool) (point : Int)
    (ends : Ends rest) :
    ∃ k : Nat,
      readNumber?
      ((if negative then ['-'] else []) ++ ((Decimal.positional (c :: cs) point).toList ++ rest)) =
      some (.ok
        (.float (nearest negative (digitsValue (c :: cs) * 10 ^ k) (point - (c :: cs).length - k)),
          rest)) := by
  have zeros (n : Nat) : ∀ c' ∈ List.replicate n '0', c'.isDigit = true :=
    fun c' member => List.eq_of_mem_replicate member ▸ rfl
  rw [toList_positional]
  by_cases small : point ≤ 0
  · have parts : ∀ c' ∈ List.replicate (-point).toNat '0' ++ c :: cs, c'.isDigit = true :=
      fun c' member =>
      (List.mem_append.1 member).elim (zeros _ c') (all c')
    have read :=
      readNumber?_point negative (by simp) ⟨'0', [], rfl, fun _ => rfl⟩ parts (by simp) ends
    have value : digitsValue (['0'] ++ (List.replicate (-point).toNat '0' ++ c :: cs)) =
        digitsValue (c :: cs) * 10 ^ 0 := by
      rw [digitsValue_append, digitsValue_append, digitsValue_zeros]
      simp [digitsValue]
    have exponent : (0 : Int) - (List.replicate (-point).toNat '0' ++ c :: cs).length =
        point - (c :: cs).length - (0 : Nat) := by
      rw [List.length_append, List.length_replicate]
      omega
    refine ⟨0, ?_⟩
    rw [if_pos small, ← value, ← exponent, ← read]
    simp
  · by_cases large : ((c :: cs).length : Int) ≤ point
    · have whole : ∀ c' ∈ c :: cs ++ List.replicate (point - (c :: cs).length).toNat '0',
          c'.isDigit = true := fun c' member =>
        (List.mem_append.1 member).elim (all c') (zeros _ c')
      have read :=
        readNumber?_point negative whole ⟨c, _, List.cons_append, fun zero => absurd zero leads⟩
        (show ∀ c' ∈ ['0'], c'.isDigit = true by simp) (by simp) ends
      have value :
        digitsValue (c :: cs ++ List.replicate (point - (c :: cs).length).toNat '0' ++ ['0']) =
          digitsValue (c :: cs) * 10 ^ ((point - (c :: cs).length).toNat + 1) := by
        rw [digitsValue_append, digitsValue_append, digitsValue_zeros, List.length_replicate, Nat.pow_succ]
        simp [digitsValue, Nat.mul_assoc]
      have exponent : (0 : Int) - ['0'].length =
          point - (c :: cs).length - ((point - (c :: cs).length).toNat + 1 : Nat) := by
        rw [List.length_singleton]
        omega
      refine ⟨(point - (c :: cs).length).toNat + 1, ?_⟩
      rw [if_neg small, if_pos large, ← value, ← exponent, ← read]
      simp
    · obtain ⟨split, place⟩ : ∃ split : Nat, point = (split + 1 : Nat) :=
        ⟨point.toNat - 1, by omega⟩
      have whole : ∀ c' ∈ (c :: cs).take (split + 1), c'.isDigit = true :=
        fun c' member => all c' (List.mem_of_mem_take member)
      have parts : ∀ c' ∈ (c :: cs).drop (split + 1), c'.isDigit = true :=
        fun c' member => all c' (List.mem_of_mem_drop member)
      have some : (c :: cs).drop (split + 1) ≠ [] := by
        rw [Ne, List.drop_eq_nil_iff]
        omega
      have read :=
        readNumber?_point negative whole
          ⟨c, _, List.take_succ_cons, fun zero => absurd zero leads⟩ parts some ends
      rw [List.take_append_drop] at read
      have exponent : (0 : Int) - ((c :: cs).drop (split + 1)).length =
          point - (c :: cs).length - (0 : Nat) := by
        rw [List.length_drop]
        omega
      refine ⟨0, ?_⟩
      rw [if_neg small, if_neg large, Nat.pow_zero, Nat.mul_one, ← exponent, ← read, place]
      simp

end Digits

/-- A double is read back from the digits that are written of it. -/
theorem readNumber?_write {d : Decimal} (zero : d.digits = 0 → d.exponent = 0) (negative : Bool)
    (ends : Ends rest) :
    ∃ k : Nat,
      readNumber? ((if negative then ['-'] else []) ++ ((d.write .standard).toList ++ rest)) =
      some (.ok (.float (nearest negative (d.digits * 10 ^ k) (d.exponent - k)), rest)) := by
  by_cases none : d.digits = 0
  · have read := readNumber?_point negative (show ∀ c ∈ ['0'], c.isDigit = true by simp)
      ⟨'0', [], rfl, fun _ => rfl⟩
      (show ∀ c ∈ ['0'], c.isDigit = true by simp) (List.cons_ne_nil '0' []) ends
    have text : (d.write .standard).toList = ['0', '.', '0'] := by
      simp [Decimal.write, none]
    refine ⟨1, ?_⟩
    rw [text, none, zero none]
    exact read
  · obtain ⟨c, cs, digits, leads⟩ := toDigits_head d.digits
    have all : ∀ c' ∈ c :: cs, c'.isDigit = true :=
      fun c' member => isDigit_toDigits (digits ▸ member)
    have value : digitsValue (c :: cs) = d.digits := by rw [← digits, digitsValue_toDigits]
    have text :
      d.write .standard = Decimal.positional (c :: cs) (d.exponent + (c :: cs).length - 1 + 1) ∨
        d.write .standard = Decimal.scientific (c :: cs) (d.exponent + (c :: cs).length - 1) := by
      simp only [Decimal.write, digits, none, if_false]
      split
      · exact .inl rfl
      · exact .inr rfl
    rw [← value]
    rcases text with text | text <;> rw [text]
    · obtain ⟨k, read⟩ := readNumber?_positional all (fun zero => none (leads zero)) negative
        (d.exponent + (c :: cs).length - 1 + 1) ends
      refine ⟨k, ?_⟩
      rw [read]
      congr 6
      omega
    · have read := readNumber?_scientific all negative (d.exponent + (c :: cs).length - 1) ends
      refine ⟨0, ?_⟩
      rw [read, Nat.pow_zero, Nat.mul_one]
      congr 5
      rw [List.length_cons]
      omega

end Decimals

/-- A finite double is read back from its text. -/
theorem readNumber?_toText {x : Binary64} (finite : x.isFinite = true) (ends : Ends rest) :
    readNumber? (x.toText.toList ++ rest) = some (.ok (.float x, rest)) := by
  cases x with
  | nan => cases finite
  | number negative rank bounded =>
    have finite : rank < Binary64.infinityRank := of_decide_eq_true finite
    have zero : (Decimal.shortest rank).digits = 0 → (Decimal.shortest rank).exponent = 0 := by
      rcases Nat.eq_zero_or_pos rank with rfl | positive
      · exact fun _ => rfl
      · exact fun none =>
          absurd none (Decimal.size_within positive finite (Decimal.shortest_within positive)).1
    obtain ⟨k, read⟩ := readNumber?_write zero negative ends
    rw [Numeral.nearest_shortest finite] at read
    rw [← read, Binary64.toText]
    simp only [finite, if_true]
    cases negative <;> simp

theorem toList_negSucc
    (n : Nat) : (toString (Int.negSucc n)).toList = '-' :: Nat.toDigits 10 (n + 1) :=
  String.toList_append.trans (congrArg _ Nat.toList_repr)

/-- A whole number is read back from its digits, if these are not too many. -/
theorem readNumber?_int (n : Int) (ends : Ends rest) : readNumber? ((toString n).toList ++ rest) =
    some (if Numeral.digitLimit < Decimal.digitCount n.natAbs then
      .error (.tooManyDigits (Decimal.digitCount n.natAbs))
      else .ok (.int n, rest)) := by
  have signed (negative : Bool) (m : Nat) (value : n = if negative then -(m : Int) else m) :
      readNumber? ((if negative then ['-'] else []) ++ (Nat.toDigits 10 m ++ rest)) =
        some (if Numeral.digitLimit < Decimal.digitCount m then
          .error (.tooManyDigits (Decimal.digitCount m))
          else .ok (.int n, rest)) := by
    obtain ⟨c, cs, digits, leads⟩ := toDigits_head m
    have all : ∀ c ∈ Nat.toDigits 10 m, c.isDigit = true := fun _ => isDigit_toDigits
    have whole := readWhole?_append all ⟨c, cs, digits, fun zero => by
      rw [leads zero] at digits
      exact (List.cons.inj digits).2.symm⟩ ends.noDigit
    rw [readNumber?_signed negative whole, ends.noFraction]
    simp only [Option.getD_none, ends.noExponent, readInteger, digitsValue_toDigits, ← value]
    rfl
  cases n with
  | ofNat n =>
    exact (congrArg (fun cs => readNumber? (cs ++ rest)) Nat.toList_repr).trans (signed false n rfl)
  | negSucc n =>
    rw [toList_negSucc]
    exact signed true (n + 1) rfl

theorem toString_int_no_return (n : Int) : '\r' ∉ (toString n).toList := by
  have digits (n : Nat) : '\r' ∉ Nat.toDigits 10 n :=
    fun member => absurd (isDigit_toDigits member) (by decide)
  cases n with
  | ofNat n =>
    rw [show (toString (Int.ofNat n)).toList = Nat.toDigits 10 n from Nat.toList_repr]
    exact digits n
  | negSucc n =>
    rw [toList_negSucc]
    simpa using digits (n + 1)

theorem positional_no_return {c : Char} {cs : List Char} (all : '\r' ∉ c :: cs) (point : Int) :
    '\r' ∉ (Decimal.positional (c :: cs) point).toList := by
  rw [toList_positional]
  split
  · simpa [List.mem_replicate] using all
  · split
    · simpa [List.mem_replicate] using all
    · have first : '\r' ∉ (c :: cs).take point.toNat :=
        fun member => all (List.mem_of_mem_take member)
      have last : '\r' ∉ (c :: cs).drop point.toNat :=
        fun member => all (List.mem_of_mem_drop member)
      simp only [List.mem_append, List.mem_cons, not_or]
      exact ⟨first, by decide, last⟩

theorem scientific_no_return {c : Char} {cs : List Char} (all : '\r' ∉ c :: cs) (power : Int) :
    '\r' ∉ (Decimal.scientific (c :: cs) power).toList := by
  have digits : '\r' ∉ powerChars power :=
    fun member => absurd (isDigit_powerChars member) (by decide)
  have sign (down : Prop) [Decidable down] : '\r' ≠ if down then '-' else '+' := by split <;> decide
  have fraction : '\r' ∉ if cs = [] then [] else '.' :: cs := by
    split
    · decide
    · simpa using List.not_mem_of_not_mem_cons all
  rw [toList_scientific]
  simp only [List.mem_append, List.mem_cons, List.not_mem_nil, or_false, not_or]
  exact ⟨List.ne_of_not_mem_cons all, fraction, by decide, sign _, digits⟩

theorem write_no_return (d : Decimal) : '\r' ∉ (d.write .standard).toList := by
  obtain ⟨c, cs, text, -⟩ := toDigits_head d.digits
  have all : '\r' ∉ c :: cs := fun member => absurd (isDigit_toDigits (text ▸ member)) (by decide)
  simp only [Decimal.write, text]
  split
  · decide
  · split
    · exact positional_no_return all _
    · exact scientific_no_return all _

theorem toText_no_return (x : Binary64) : '\r' ∉ x.toText.toList := by
  have infinite : '\r' ∉ ("inf" : String).toList := by decide
  cases x with
  | nan origin => exact (by decide : '\r' ∉ ("nan" : String).toList)
  | number negative rank bounded =>
    rw [Binary64.toText]
    cases negative
    · simp only [Bool.false_eq_true, if_false]
      split
      · exact write_no_return _
      · exact infinite
    · simp only [if_true]
      split
      · simpa using write_no_return _
      · simp

section Starts

variable {cs : List Char} {x : Reading Value}

theorem readWhole?_head {parts : List Char × List Char} (whole : readWhole? cs = some parts) :
    ∃ c more, cs = c :: more ∧ c.isDigit = true := by
  unfold readWhole? at whole
  split at whole
  · exact ⟨'0', _, rfl, rfl⟩
  next c more _ =>
    split at whole
    next digit => exact ⟨c, more, rfl, digit⟩
    · cases whole
  · cases whole

/-- A number starts with a digit, or with its sign and a digit. -/
theorem number_head (number : readNumber? cs = some x) :
    ∃ c more, c.isDigit = true ∧ (cs = c :: more ∨ cs = '-' :: c :: more) := by
  unfold readNumber? at number
  split at number
  next negative unsigned signed =>
    cases whole : readWhole? unsigned with
    | none => simp [whole, bind, Option.bind] at number
    | some parts =>
      obtain ⟨c, more, rfl, digit⟩ := readWhole?_head whole
      refine ⟨c, more, digit, ?_⟩
      split at signed
      · exact .inr (by rw [(Prod.mk.inj signed).2])
      · exact .inl (Prod.mk.inj signed).2

/-- No word stands where a number starts. -/
theorem readScalar_number (number : readNumber? cs = some x) : readScalar cs = x := by
  obtain ⟨c, more, digit, start⟩ := number_head number
  have apart {d : Char} (other : d.isDigit = false) : c ≠ d := by
    rintro rfl
    rw [digit] at other
    cases other
  rw [readScalar.eq_7, number]
  · rfl
  all_goals
    intro tail same
    rw [same] at start
  case x_6 =>
    rcases start with start | start
    · exact apart rfl (List.cons.inj start).1.symm
    · exact apart rfl (List.cons.inj (List.cons.inj start).2).1.symm
  all_goals
    rcases start with start | start
    · exact apart rfl (List.cons.inj start).1.symm
    · exact absurd (List.cons.inj start).1 (by decide)

theorem readValue_number (number : readNumber? cs = some x) (room fuel : Nat) :
    readValue room (fuel + 1) cs = x := by
  obtain ⟨c, more, digit, start⟩ := number_head number
  have apart {d : Char} (other : d.isDigit = false) : c ≠ d := by
    rintro rfl
    rw [digit] at other
    cases other
  rw [readValue, readScalar_number number]
  all_goals
    intro tail same
    rw [same] at start
    rcases start with start | start
    · exact apart rfl (List.cons.inj start).1.symm
    · exact absurd (List.cons.inj start).1 (by decide)

end Starts

end Json
end LeadRules
