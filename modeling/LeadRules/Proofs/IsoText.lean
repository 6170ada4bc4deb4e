import LeadRules.Proofs.Calendar
import LeadRules.Wire
import Mathlib.Data.List.Basic
import Mathlib.Data.List.TakeWhile

/-! Times and their texts. A time is read back from the text that it is written as. -/
namespace LeadRules.Iso

theorem toList_padded (width n : Nat) :
    (padded width n).toList =
      List.replicate (width - (Nat.toDigits 10 n).length) '0' ++ Nat.toDigits 10 n := by
  have written : toString n = n.repr := rfl
  simp only [padded, String.toList_append, String.toList_ofList, written, Nat.toList_repr,
    ← String.length_toList]

section Digits

variable {width n : Nat}

/-- A number that fits a width is padded to just that many characters. -/
theorem length_padded (positive : 0 < width) (fits : n < 10 ^ width) :
    (padded width n).toList.length = width := by
  have short := (Nat.length_toDigits_le_iff (b := 10) (by decide) positive).2 fits
  rw [toList_padded, List.length_append, List.length_replicate]
  omega

theorem isDigit_padded {c : Char} (member : c ∈ (padded width n).toList) : c.isDigit = true := by
  rw [toList_padded, List.mem_append] at member
  rcases member with zero | digit
  · rw [List.eq_of_mem_replicate zero]
    rfl
  · exact Nat.isDigit_of_mem_toDigits (by decide) (by decide) digit

theorem value_padded (width n : Nat) :
    (padded width n).toList.foldl (fun n c => n * 10 + (c.toNat - '0'.toNat)) 0 = n := by
  have value : ∀ (cs : List Char) (start : Nat),
      cs.foldl (fun n c => n * 10 + (c.toNat - '0'.toNat)) start =
        Nat.ofDigitChars 10 cs start := by
    intro cs start
    rw [Nat.ofDigitChars_eq_foldl]
    congr 1
    funext n c
    rw [Nat.mul_comm]
  rw [value, toList_padded, Nat.ofDigitChars_append, Nat.ofDigitChars_replicate_zero, Nat.mul_zero,
    Nat.ofDigitChars_ten_toDigits]

theorem takeDigits?_padded (positive : 0 < width) (fits : n < 10 ^ width) (rest : List Char) :
    takeDigits? width ((padded width n).toList ++ rest) = some (n, rest) := by
  have length := length_padded positive fits
  have digits : (padded width n).toList.all Char.isDigit = true :=
    List.all_eq_true.2 fun c member => isDigit_padded member
  simp only [takeDigits?, List.take_left' length, List.drop_left' length, length, digits, value_padded,
    and_self, if_true]

end Digits

def dateChars (d : Calendar.Date) : List Char :=
  (padded 4 d.year).toList ++ '-' :: ((padded 2 d.month).toList ++ '-' :: (padded 2 d.day).toList)

def clockChars (hour minute second : Nat) (fraction : List Char) : List Char :=
  (padded 2 hour).toList ++ ':' ::
  ((padded 2 minute).toList ++ ':' :: ((padded 2 second).toList ++ fraction))

theorem toList_isoText (t : DateTime) :
    t.isoText.toList =
      dateChars t.date ++ 'T' :: clockChars (t.secondOfDay / 3600) (t.secondOfDay / 60 % 60)
      (t.secondOfDay % 60) (fractionText t.microsecond).toList := by
  simp [DateTime.isoText, clockText, dateChars, clockChars, String.toList_append]

section Date

variable {d : Calendar.Date}

theorem daysInMonth_lt (year month : Nat) : Calendar.daysInMonth year month < 100 := by
  unfold Calendar.daysInMonth Calendar.monthLengths
  rcases month - 1 with _ | _ | _ | _ | _ | _ | _ | _ | _ | _ | _ | _ | _ <;> simp
  split <;> omega

/-- The parts of a date fit the widths that they are written with. -/
theorem widths (valid : d.Valid) : d.year < 10 ^ 4 ∧ d.month < 10 ^ 2 ∧ d.day < 10 ^ 2 := by
  have year := valid.year.2
  have month := valid.month.2
  have day := valid.day.2
  have short := daysInMonth_lt d.year d.month
  omega

/-- What stands in the place of a week's letter is a digit. -/
theorem monthChars (fits : d.month < 10 ^ 2) :
    ∃ a b, (padded 2 d.month).toList = [a, b] ∧ a ≠ 'W' := by
  obtain ⟨a, b, both⟩ := List.length_eq_two.1 (length_padded (by decide) fits)
  have digit : a.isDigit = true := isDigit_padded (both ▸ List.mem_cons_self)
  refine ⟨a, b, both, ?_⟩
  rintro rfl
  cases digit

theorem length_dateChars (valid : d.Valid) : (dateChars d).length = 10 := by
  obtain ⟨year, month, day⟩ := widths valid
  simp only [dateChars, List.length_append, List.length_cons, length_padded (by decide) year,
    length_padded (by decide) month, length_padded (by decide) day]

theorem dateLength?_dateChars (valid : d.Valid) (rest : List Char) :
    dateLength? (dateChars d ++ 'T' :: rest) = some 10 := by
  obtain ⟨year, month, -⟩ := widths valid
  have year := length_padded (by decide) year
  have length := length_dateChars valid
  obtain ⟨a, b, both, plain⟩ := monthChars month
  have fifth : (dateChars d ++ 'T' :: rest)[4]? = some '-' := by
    simp [dateChars, year]
  have sixth : (dateChars d ++ 'T' :: rest)[5]? = some a := by
    simp [dateChars, List.getElem?_append, year, both]
  have other : ¬ (dateChars d ++ 'T' :: rest).length = 7 := by
    rw [List.length_append, length]
    omega
  simp only [dateLength?, other, fifth, sixth, Option.some.injEq, plain, if_false, if_true]

theorem readDate?_dateChars (valid : d.Valid) :
    readDate? (dateChars d) = some (.ofMonth d.year d.month d.day) := by
  obtain ⟨year, month, day⟩ := widths valid
  obtain ⟨a, b, both, plain⟩ := monthChars month
  have first := takeDigits?_padded (by decide) year
    ('-' :: ((padded 2 d.month).toList ++ '-' :: (padded 2 d.day).toList))
  have second := takeDigits?_padded (by decide) month ('-' :: (padded 2 d.day).toList)
  have third := takeDigits?_padded (by decide) day []
  rw [both] at first second
  rw [List.append_nil] at third
  simp only [readDate?, dateChars, both, first, Option.bind_eq_bind, Option.bind_some,
    List.head?_cons, if_true, List.drop_one, List.tail_cons]
  split
  next head => exact absurd (List.cons.inj head).1 plain
  next =>
    rw [second]
    simp [third]

end Date

section Clock

variable {hour minute second : Nat}

/-- A fraction as it is written: nothing, or a point and six digits. -/
theorem fractionChars (micros : Nat) : (fractionText micros).toList =
    if micros = 0 then [] else '.' :: (padded 6 micros).toList := by
  unfold fractionText
  split <;> simp [String.toList_append]

/-- The fraction behind the seconds, with what is left of the limit there. What follows does
not start with a digit. -/
theorem readFields?_second (hours : List Nat) (fits : second < 100) {micros : Nat}
    (short : micros < 1000000)
    (tail : List Char) (stops : tail.dropWhile Char.isDigit = tail) :
    readFields? (some true) hours
      ((padded 2 second).toList ++ ((fractionText micros).toList ++ tail))
        (2 + (fractionText micros).toList.length) 1 =
      some ⟨hours ++ [second], micros, isEnd tail⟩ := by
  have taken := takeDigits?_padded (by decide : 0 < 2) fits ((fractionText micros).toList ++ tail)
  rw [readFields?, taken]
  rw [fractionChars]
  by_cases whole : micros = 0
  · simp [whole]
  · have length := length_padded (by decide : 0 < 6) short
    have digits := takeDigits?_padded (by decide : 0 < 6) short tail
    simp [whole, length, readFraction?, digits, stops]

theorem readClock?_clockChars (hours : hour < 100) (minutes : minute < 100) (seconds : second < 100)
    {micros : Nat}
    (short : micros < 1000000) (tail : List Char) (stops : tail.dropWhile Char.isDigit = tail) :
    readClock? (clockChars hour minute second (fractionText micros).toList ++ tail)
        (clockChars hour minute second (fractionText micros).toList).length =
      some ⟨[hour, minute, second], micros, isEnd tail⟩ := by
  have length : (clockChars hour minute second (fractionText micros).toList).length =
      8 + (fractionText micros).toList.length := by
    simp only [clockChars, List.length_append, List.length_cons, length_padded (by decide : 0 < 2) hours,
      length_padded (by decide : 0 < 2) minutes, length_padded (by decide : 0 < 2) seconds]
    omega
  rw [length]
  have first := takeDigits?_padded (by decide : 0 < 2) hours
    (':' :: ((padded 2 minute).toList ++ ':' ::
      ((padded 2 second).toList ++ ((fractionText micros).toList ++ tail))))
  have next := takeDigits?_padded (by decide : 0 < 2) minutes
    (':' :: ((padded 2 second).toList ++ ((fractionText micros).toList ++ tail)))
  have last := readFields?_second [hour, minute] seconds short tail stops
  have limits : 8 + (fractionText micros).toList.length - 3 - 3 =
      2 + (fractionText micros).toList.length := by omega
  have whole :
    clockChars hour minute second (fractionText micros).toList ++ tail = (padded 2 hour).toList ++
      ':' :: ((padded 2 minute).toList ++ ':' ::
        ((padded 2 second).toList ++ ((fractionText micros).toList ++ tail))) := by
    simp [clockChars]
  rw [readClock?, whole, readFields?, first]
  have more : ¬ 8 + (fractionText micros).toList.length ≤ 3 := by omega
  have still : ¬ 8 + (fractionText micros).toList.length - 3 ≤ 3 := by omega
  simp only [Option.bind_eq_bind, Option.bind_some, List.head?_cons, Option.getD_none, decide_true,
    more, if_false, and_self, if_true, List.drop_one, List.tail_cons]
  rw [readFields?, next]
  simp only [Option.bind_eq_bind, Option.bind_some, List.head?_cons, Option.getD_some, still, if_false,
    and_self, if_true, List.drop_one, List.tail_cons, limits]
  exact last

/-- A character of a time of day is a digit or one of its marks. -/
theorem mem_clockChars {fraction : List Char} {c : Char}
    (member : c ∈ clockChars hour minute second fraction) :
    c.isDigit = true ∨ c = ':' ∨ c ∈ fraction := by
  simp only [clockChars, List.mem_append, List.mem_cons] at member
  rcases member with digit | colon | digit | colon | digit | rest
  · exact .inl (isDigit_padded digit)
  · exact .inr (.inl colon)
  · exact .inl (isDigit_padded digit)
  · exact .inr (.inl colon)
  · exact .inl (isDigit_padded digit)
  · exact .inr (.inr rest)

theorem mem_fraction {micros : Nat} {c : Char} (member : c ∈ (fractionText micros).toList) :
    c.isDigit = true ∨ c = '.' := by
  rw [fractionChars] at member
  split at member
  · cases member
  · rcases List.mem_cons.1 member with point | digit
    · exact .inr point
    · exact .inl (isDigit_padded digit)

/-- Digits and the marks of a time of day have one byte each and start no zone. -/
theorem plain_of_isDigit {c : Char} (plain : c.isDigit = true ∨ c = ':' ∨ c = '.') :
    c.utf8Size = 1 ∧ isZoneMark c = false := by
  rcases plain with digit | rfl | rfl
  · rw [Char.isDigit, Bool.and_eq_true, decide_eq_true_eq, decide_eq_true_eq] at digit
    obtain ⟨low, high⟩ := digit
    have small : c.val ≤ 127 := UInt32.le_trans high (by decide)
    refine ⟨Char.utf8Size_eq_one_iff.2 small, ?_⟩
    simp only [isZoneMark, Bool.or_eq_false_iff, decide_eq_false_iff_not]
    refine ⟨⟨?_, ?_⟩, ?_⟩ <;> rintro rfl <;> revert low high <;> decide
  · decide
  · decide

theorem byBytes_plain {cs : List Char} (single : ∀ c ∈ cs, c.utf8Size = 1) : byBytes cs = cs := by
  induction cs with
  | nil => rfl
  | cons c rest ih =>
    have here := single c List.mem_cons_self
    have later := ih fun c member => single c (List.mem_cons_of_mem _ member)
    rw [byBytes] at later ⊢
    rw [List.flatMap_cons, here, later]
    rfl

/-- The characters of a time of day are single bytes that start no zone. -/
theorem plain_clockChars {micros : Nat} {c : Char}
    (member : c ∈ clockChars hour minute second (fractionText micros).toList) :
    c.utf8Size = 1 ∧ isZoneMark c = false := by
  refine plain_of_isDigit ?_
  rcases mem_clockChars member with digit | colon | fraction
  · exact .inl digit
  · exact .inr (.inl colon)
  · exact (mem_fraction fraction).imp_right .inr

theorem readTime?_clockChars (hours : hour < 100) (minutes : minute < 100) (seconds : second < 100)
    {micros : Nat}
    (short : micros < 1000000) :
    readTime? (byBytes (clockChars hour minute second (fractionText micros).toList)) =
      some (⟨[hour, minute, second], micros, true⟩, none) := by
  have all :
    (clockChars hour minute second (fractionText micros).toList).takeWhile (!isZoneMark ·) =
      clockChars hour minute second (fractionText micros).toList :=
    List.takeWhile_eq_self_iff.2 fun c member => by simp [(plain_clockChars member).2]
  have read := readClock?_clockChars hours minutes seconds short [] rfl
  rw [List.append_nil] at read
  rw [byBytes_plain fun c member => (plain_clockChars member).1, readTime?, all, List.drop_length, read]
  rfl

end Clock

/-- A text of characters alone is read as it stands. -/
theorem plainSeparator_ofString (s : String) :
    plainSeparator (Text.ofString s).points = (Text.ofString s).points := by
  have whole (place : Nat) : (Text.ofString s).points[place]?.any Point.isHalf = false := by
    simp only [Text.ofString, Text.ofChars, List.getElem?_map]
    cases s.toList[place]? <;> rfl
  simp [plainSeparator, whole]

theorem charsOr_ofString (c : Char) (s : String) :
    Text.charsOr c ⟨(Text.ofString s).points⟩ = s.toList := by
  simp only [Text.charsOr, Text.ofString, Text.ofChars, List.map_map]
  exact List.map_id s.toList

theorem noHalf_ofString (s : String) : (Text.ofString s).points.any Point.isHalf = false := by
  simp [Text.ofString, Text.ofChars, Point.isHalf]

end LeadRules.Iso

namespace LeadRules

open Iso

theorem DateTime.date_valid (t : DateTime) :
    t.date.Valid ∧ t.date.dayNumber = t.micros / microsPerDay := by
  apply Calendar.ofDayNumber_spec
  have range := t.inRange
  unfold DateTime.limit at range
  exact Nat.div_lt_of_lt_mul (Nat.mul_comm .. ▸ range)

/-- Days, seconds of the day and microseconds make up a time. -/
theorem DateTime.micros_eq (t : DateTime) :
    t.micros / microsPerDay * microsPerDay + t.secondOfDay * microsPerSecond + t.microsecond =
      t.micros := by
  have parts : t.micros % microsPerDay % microsPerSecond = t.micros % microsPerSecond :=
    Nat.mod_mod_of_dvd t.micros ⟨86400, Nat.mul_comm ..⟩
  have day := Nat.div_add_mod' t.micros microsPerDay
  have second := Nat.div_add_mod' (t.micros % microsPerDay) microsPerSecond
  rw [parts] at second
  rw [secondOfDay, microsecond, Nat.add_assoc, second, day]

theorem DateTime.secondOfDay_lt (t : DateTime) : t.secondOfDay < 86400 :=
  Nat.div_lt_of_lt_mul (Nat.mod_lt t.micros (by decide))

theorem readWritten?_of_chars {s : String} {d : Calendar.Date} {time : List Char}
    {clock : WrittenClock}
    {offset : Option Int} (valid : d.Valid) (written : s.toList = dateChars d ++ 'T' :: time)
    (read : readTime? (byBytes time) = some (clock, offset)) :
    readWritten? s = some ⟨.ofMonth d.year d.month d.day, clock, offset⟩ := by
  have length := length_dateChars valid
  have long : ¬ s.toList.length < 7 := by
    rw [written, List.length_append, length]
    omega
  rw [readWritten?, plainSeparator_ofString]
  simp only [noHalf_ofString, charsOr_ofString, long, Bool.false_eq_true, or_self, if_false]
  simp only [written, dateLength?_dateChars valid, Option.bind_eq_bind, Option.bind_some,
    List.take_left' length, List.drop_left' length, readDate?_dateChars valid, read]
  rfl

/-- The time of day of a time as it is written, complete unless an offset follows. -/
def DateTime.clock (t : DateTime) (complete : Bool) : WrittenClock :=
  ⟨[t.secondOfDay / 3600, t.secondOfDay / 60 % 60, t.secondOfDay % 60], t.microsecond, complete⟩

theorem readWritten?_isoText (t : DateTime) : readWritten? t.isoText =
    some ⟨.ofMonth t.date.year t.date.month t.date.day, t.clock true, none⟩ := by
  have second := t.secondOfDay_lt
  have short : t.microsecond < 1000000 := Nat.mod_lt t.micros (by decide)
  exact readWritten?_of_chars t.date_valid.1 (toList_isoText t)
    (readTime?_clockChars (by omega) (by omega) (by omega) short)

theorem dayNumber_ofMonth {d : Calendar.Date} (valid : d.Valid) (malformed : TimeFault) :
    WrittenDate.dayNumber malformed (.ofMonth d.year d.month d.day) = .ok d.dayNumber := by
  have year : ¬ d.year = 0 := by have := valid.year; omega
  have month : ¬ (d.month = 0 ∨ 12 < d.month) := by have := valid.month; omega
  have day : ¬ (d.day = 0 ∨ Calendar.daysInMonth d.year d.month < d.day) := by
    have := valid.day; omega
  simp only [WrittenDate.dayNumber, if_neg year, if_neg month, if_neg day]
  rfl

theorem DateTime.ofMicros?_micros (t : DateTime) : DateTime.ofMicros? t.micros = some t := by
  have within : (0 : Int) ≤ t.micros ∧ (t.micros : Int) < DateTime.limit :=
    ⟨Int.natCast_nonneg _, Int.ofNat_lt.2 t.inRange⟩
  rw [DateTime.ofMicros?, dif_pos within]
  rfl

/-- What is read of a text that was taken apart into parts which are all in order. The parts stay
a variable: the kernel must not compute with numbers of this size. -/
theorem read_of_written {text : Text} {w : Written} {days : Nat} {t : DateTime}
    (written : readWritten? text = some w)
    (zone : ∀ micros ∈ w.offset, micros.natAbs < microsPerDay)
    (day : ∀ malformed, w.date.dayNumber malformed = .ok days)
    (hours : w.clock.field 0 ≤ 23) (minutes : w.clock.field 1 ≤ 59) (seconds : w.clock.field 2 ≤ 59)
    (whole : days * microsPerDay + w.clock.seconds * microsPerSecond + w.clock.micros = t.micros) :
    Iso.read text = .ok ⟨t, w.offset⟩ := by
  have formed : w.date.isMalformed = false := by simp only [WrittenDate.isMalformed, day]
  have wall := t.ofMicros?_micros
  rw [← whole] at wall
  unfold Iso.read
  rw [written]
  cases offset : w.offset with
  | none =>
    simp only [formed, Bool.false_eq_true, if_false, offset, day, Nat.not_lt.2 hours, Nat.not_lt.2 minutes,
      Nat.not_lt.2 seconds, Except.bind, bind, wall]
    rfl
  | some micros =>
    have inside : ¬(microsPerDay : Int) ≤ micros.natAbs := by
      have := zone micros offset
      omega
    simp only [formed, Bool.false_eq_true, if_false, offset, inside, day, Nat.not_lt.2 hours,
      Nat.not_lt.2 minutes, Nat.not_lt.2 seconds, Except.bind, bind, wall]
    rfl

/-- A text with the date and the clock of a time is read as that time. -/
theorem read_of_clock {text : Text} {t : DateTime} {complete : Bool} {offset : Option Int}
    (written : readWritten? text =
      some ⟨.ofMonth t.date.year t.date.month t.date.day, t.clock complete, offset⟩)
    (zone : ∀ micros ∈ offset, micros.natAbs < microsPerDay) : Iso.read text = .ok ⟨t, offset⟩ := by
  obtain ⟨valid, day⟩ := t.date_valid
  have range := t.secondOfDay_lt
  have clock : t.secondOfDay / 3600 * 3600 + t.secondOfDay / 60 % 60 * 60 + t.secondOfDay % 60 =
      t.secondOfDay := by
    omega
  have number := dayNumber_ofMonth valid
  rw [day] at number
  have hour : t.secondOfDay / 3600 ≤ 23 := by omega
  have minute : t.secondOfDay / 60 % 60 ≤ 59 := by omega
  have second : t.secondOfDay % 60 ≤ 59 := by omega
  refine read_of_written written zone number hour minute second ?_
  show t.micros / microsPerDay * microsPerDay + (t.secondOfDay / 3600 * 3600 + t.secondOfDay / 60 % 60 * 60
    + t.secondOfDay % 60) * microsPerSecond + t.microsecond = t.micros
  rw [clock, t.micros_eq]

/-- Reading undoes writing. -/
theorem read_isoText (t : DateTime) : Iso.read t.isoText = .ok (.ofDateTime t) :=
  read_of_clock (readWritten?_isoText t) fun _ none => by cases none

theorem mem_isoText {t : DateTime} {c : Char} (member : c ∈ t.isoText.toList) :
    c.isDigit = true ∨ c ∈ ['-', 'T', ':', '.'] := by
  rw [toList_isoText, List.mem_append, List.mem_cons] at member
  rcases member with date | mark | clock
  · simp only [dateChars, List.mem_append, List.mem_cons] at date
    rcases date with digit | mark | digit | mark | digit
    · exact .inl (isDigit_padded digit)
    · exact .inr (by simp [mark])
    · exact .inl (isDigit_padded digit)
    · exact .inr (by simp [mark])
    · exact .inl (isDigit_padded digit)
  · exact .inr (by simp [mark])
  · rcases mem_clockChars clock with digit | mark | fraction
    · exact .inl digit
    · exact .inr (by simp [mark])
    · exact (mem_fraction fraction).imp_right fun mark => by simp [mark]

theorem spellOutZulu_of_plain {s : String} (plain : ∀ c ∈ s.toList, c ≠ 'Z') :
    spellOutZulu s = s := by
  have same (cs : List Char) (plain : ∀ c ∈ cs, c ≠ 'Z') :
      (cs.map Point.char).flatMap (fun p => if p = .char 'Z' then ("+00:00" : Text).points else [p]) =
        cs.map Point.char := by
    induction cs with
    | nil => rfl
    | cons c rest ih =>
      have here : Point.char c ≠ .char 'Z' :=
        fun same => plain c List.mem_cons_self (Point.char.inj same)
      rw [List.map_cons, List.flatMap_cons, if_neg here, ih fun c member => plain c
        (List.mem_cons_of_mem _ member)]
      rfl
  exact congrArg Text.mk (same s.toList plain)

theorem isoText_ne_nil (t : DateTime) : t.isoText.toList ≠ [] := by
  have length := length_dateChars t.date_valid.1
  rw [toList_isoText]
  intro none
  have none := (List.append_eq_nil_iff.1 none).1
  rw [none] at length
  cases length

/-- A time of day on the wire keeps its wall clock. -/
theorem toDateTime_ofDateTime (t : DateTime) : (Stamp.ofDateTime t).toDateTime = .ok t := by
  have wall : (Stamp.ofDateTime t).toDateTime? = some t := by
    have instant : (Stamp.ofDateTime t).instant = t.micros := by
      simp [Stamp.instant, Stamp.ofDateTime]
    rw [Stamp.toDateTime?, instant, t.ofMicros?_micros]
  rw [Stamp.toDateTime, wall]

theorem toDateTime?_text {s : String} {x : Stamp} {t : DateTime} (filled : s.toList ≠ [])
    (plain : ∀ c ∈ s.toList, c ≠ 'Z') (time : Iso.read s = .ok x) (wall : x.toDateTime = .ok t) :
    (Value.text s).toDateTime? = .ok (some t) := by
  have points : Text.ofString s ≠ "" :=
    fun none => filled (List.map_eq_nil_iff.1 (congrArg Text.points none))
  have some : ¬ (Value.text s).isBlank = true := by simp [Value.isBlank, points]
  have read : Iso.readTime (spellOutZulu (Value.text s).toText) = .ok x := by
    show Iso.readTime (spellOutZulu s) = _
    rw [spellOutZulu_of_plain plain, Iso.readTime, time]
    rfl
  rw [Value.toDateTime?, if_neg some, read]
  simp only [bind, Except.bind, wall]
  rfl

/-- A time on the wire, or none, is read as it was written. -/
theorem toDateTime?_ofDateTime? (x : Option DateTime) :
    (Value.ofDateTime? x).toDateTime? = .ok x := by
  cases x with
  | none => rfl
  | some t =>
    refine toDateTime?_text (isoText_ne_nil t) (fun c member => ?_) (read_isoText t)
      (toDateTime_ofDateTime t)
    rcases mem_isoText member with digit | mark
    · rintro rfl
      exact absurd digit (by decide)
    · rintro rfl
      exact absurd mark (by decide)

end LeadRules
