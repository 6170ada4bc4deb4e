import LeadRules.Proofs.IsoText
import LeadRules.Proofs.Operation

/-! Times with the offset of a zone, and their texts. Offsets that are read are zero or at least a
second, and less than a day: those are read back from the texts that they are written as. -/
namespace LeadRules.Iso

def shiftChars (seconds micros : Nat) : List Char :=
  (padded 2 (seconds / 3600)).toList ++ ':' :: ((padded 2 (seconds / 60 % 60)).toList ++
    if seconds % 60 = 0 ∧ micros = 0 then []
    else ':' :: ((padded 2 (seconds % 60)).toList ++ (fractionText micros).toList))

def zoneSign (micros : Int) : Char := if micros < 0 then '-' else '+'

theorem zoneSign_marks (micros : Int) : isZoneMark (zoneSign micros) = true ∧
    (zoneSign micros).isDigit = false ∧
    zoneSign micros ≠ 'Z' ∧ (zoneSign micros).utf8Size = 1 ∧ (zoneSign micros).toNat ≠ 0 := by
  unfold zoneSign
  split <;> decide

/-- The sign gives an offset back from its size. -/
theorem signed_natAbs (micros : Int) :
    (if zoneSign micros = '-' then -(micros.natAbs : Int) else micros.natAbs) = micros := by
  unfold zoneSign
  by_cases below : micros < 0
  · rw [if_pos below, if_pos rfl]
    omega
  · rw [if_neg below, if_neg (by decide)]
    omega

theorem toList_offsetText (micros : Int) : (offsetText micros).toList =
    zoneSign micros :: shiftChars (micros.natAbs / microsPerSecond)
      (micros.natAbs % microsPerSecond) := by
  have sign : (if micros < 0 then "-" else "+" : String).toList = [zoneSign micros] := by
    unfold zoneSign
    split <;> rfl
  have rest (empty : Prop) [Decidable empty] (a b : String) :
    (if empty then "" else ":" ++ a ++ b).toList =
      if empty then [] else ':' :: (a.toList ++ b.toList) := by
    split <;> simp
  have colon : ":".toList = [':'] := rfl
  simp only [offsetText, String.toList_append, sign, colon, shiftChars, rest, List.append_assoc,
    List.cons_append, List.nil_append]

variable {hour minute second seconds micros : Nat}

/-- Hours and minutes alone. -/
theorem readClock?_minutes (hours : hour < 100) (minutes : minute < 100) :
    readClock? ((padded 2 hour).toList ++ ':' :: (padded 2 minute).toList)
      ((padded 2 hour).toList ++ ':' :: (padded 2 minute).toList).length =
        some ⟨[hour, minute], 0, true⟩ := by
  have length : ((padded 2 hour).toList ++ ':' :: (padded 2 minute).toList).length = 5 := by
    simp only [List.length_append, List.length_cons, length_padded (by decide : 0 < 2) hours,
      length_padded (by decide : 0 < 2) minutes]
  have first := takeDigits?_padded (by decide : 0 < 2) hours (':' :: (padded 2 minute).toList)
  have next := takeDigits?_padded (by decide : 0 < 2) minutes []
  rw [List.append_nil] at next
  rw [length, readClock?, readFields?, first]
  simp [readFields?, next, isEnd]

/-- An offset is read as it was written. -/
theorem readClock?_shiftChars (day : seconds < 86400) (short : micros < 1000000) :
    ∃ clock,
      readClock? (shiftChars seconds micros) (shiftChars seconds micros).length = some clock ∧
      clock.complete = true ∧ clock.seconds = seconds ∧ clock.micros = micros := by
  have hours : seconds / 3600 < 100 := by omega
  have minutes : seconds / 60 % 60 < 100 := by omega
  by_cases whole : seconds % 60 = 0 ∧ micros = 0
  · refine ⟨⟨[seconds / 3600, seconds / 60 % 60], 0, true⟩, ?_, rfl, ?_, whole.2.symm⟩
    · rw [shiftChars, if_pos whole, List.append_nil]
      exact readClock?_minutes hours minutes
    · show seconds / 3600 * 3600 + seconds / 60 % 60 * 60 + 0 = seconds
      omega
  · refine ⟨⟨[seconds / 3600, seconds / 60 % 60, seconds % 60], micros, true⟩, ?_, rfl, ?_, rfl⟩
    · have read :=
        readClock?_clockChars hours minutes (show seconds % 60 < 100 by omega) short [] rfl
      rw [List.append_nil] at read
      rw [shiftChars, if_neg whole]
      exact read
    · show seconds / 3600 * 3600 + seconds / 60 % 60 * 60 + seconds % 60 = seconds
      omega

/-- The characters of an offset behind its sign are single bytes. -/
theorem mem_shiftChars {c : Char} (member : c ∈ shiftChars seconds micros) :
    c.isDigit = true ∨ c = ':' ∨ c = '.' := by
  simp only [shiftChars, List.mem_append, List.mem_cons] at member
  rcases member with digit | colon | digit | rest
  · exact .inl (isDigit_padded digit)
  · exact .inr (.inl colon)
  · exact .inl (isDigit_padded digit)
  · split at rest
    · cases rest
    · rcases List.mem_cons.1 rest with colon | rest
      · exact .inr (.inl colon)
      · rcases List.mem_append.1 rest with digit | fraction
        · exact .inl (isDigit_padded digit)
        · exact (mem_fraction fraction).imp_right .inr

theorem plain_shiftChars {c : Char} (member : c ∈ shiftChars seconds micros) : c.utf8Size = 1 :=
  (plain_of_isDigit (mem_shiftChars member)).1

/-- The offsets that are read: none, zero, or a second or more and less than a day. -/
def IsOffset (micros : Int) : Prop :=
  micros.natAbs < microsPerDay ∧ (micros = 0 ∨ microsPerSecond ≤ micros.natAbs)

theorem readTime?_zoned {offset : Int} (isOffset : IsOffset offset) (hours : hour < 100)
    (minutes : minute < 100)
    (seconds : second < 100) (short : micros < 1000000) :
    readTime?
      (byBytes
      (clockChars hour minute second (fractionText micros).toList ++ (offsetText offset).toList)) =
      some (⟨[hour, minute, second], micros, false⟩, some offset) := by
  obtain ⟨inside, size⟩ := isOffset
  have day : offset.natAbs / microsPerSecond < 86400 :=
    Nat.div_lt_of_lt_mul (by rw [Nat.mul_comm]; exact inside)
  have fraction : offset.natAbs % microsPerSecond < 1000000 := Nat.mod_lt _ (by decide)
  obtain ⟨shift, read, complete, whole, rest⟩ := readClock?_shiftChars day fraction
  obtain ⟨zoned, stops, other, single, printed⟩ := zoneSign_marks offset
  have signed :
    (if zoneSign offset = '-' then -((shift.seconds * microsPerSecond + shift.micros : Nat) : Int)
      else ((shift.seconds * microsPerSecond + shift.micros : Nat) : Int)) = offset := by
    rw [whole, rest, Nat.div_add_mod']
    exact signed_natAbs offset
  rw [toList_offsetText]
  generalize zoneSign offset = mark at *
  generalize tailIs : shiftChars (offset.natAbs / microsPerSecond)
    (offset.natAbs % microsPerSecond) = tail at *
  have single' : ∀ c ∈ clockChars hour minute second (fractionText micros).toList ++ mark :: tail,
      c.utf8Size = 1 := by
    intro c member
    rcases List.mem_append.1 member with clock | rest
    · exact (plain_clockChars clock).1
    · rcases List.mem_cons.1 rest with rfl | digit
      · exact single
      · exact plain_shiftChars (tailIs ▸ digit)
  have start :
    (clockChars hour minute second (fractionText micros).toList ++ mark :: tail).takeWhile
    (!isZoneMark ·) =
      clockChars hour minute second (fractionText micros).toList := by
    rw [List.takeWhile_append_of_pos fun c member => by simp [(plain_clockChars member).2]]
    simp [zoned]
  have clock := readClock?_clockChars hours minutes seconds short (mark :: tail) (by simp [stops])
  have still : isEnd (mark :: tail) = false := by simp [isEnd, printed]
  rw [byBytes_plain single', readTime?, start, clock, List.drop_left]
  simp only [Option.bind_eq_bind, Option.bind_some, still, read, complete, Bool.not_true,
    Bool.false_eq_true, if_false]
  by_cases zero : shift.seconds = 0
  · rw [if_pos zero]
    have : offset.natAbs < microsPerSecond := by
      rw [zero] at whole
      exact (Nat.div_eq_zero_iff_lt (by decide)).1 whole.symm
    obtain rfl : offset = 0 := size.resolve_right (by omega)
    rfl
  · rw [if_neg zero]
    push_cast at signed
    exact congrArg (fun o => some (_, some o)) signed

end LeadRules.Iso

namespace LeadRules

open Iso

def Stamp.IsRead (s : Stamp) : Prop := ∀ micros ∈ s.offset, IsOffset micros

/-- Reading undoes writing, also of a time with an offset. -/
theorem read_stampText {s : Stamp} (isRead : s.IsRead) : Iso.read s.isoText = .ok s := by
  obtain ⟨t, offset⟩ := s
  cases offset with
  | none =>
    have text : (⟨t, none⟩ : Stamp).isoText = t.isoText := String.append_empty
    rw [text]
    exact read_isoText t
  | some offset =>
    have isOffset := isRead offset rfl
    have second := t.secondOfDay_lt
    have short : t.microsecond < 1000000 := Nat.mod_lt t.micros (by decide)
    have hour : t.secondOfDay / 3600 < 100 := by omega
    have minute : t.secondOfDay / 60 % 60 < 100 := by omega
    have second : t.secondOfDay % 60 < 100 := by omega
    have read := readTime?_zoned isOffset hour minute second short
    refine read_of_clock (readWritten?_of_chars t.date_valid.1 ?_ read) fun micros member => ?_
    · show (t.isoText ++ offsetText offset).toList = _
      rw [String.toList_append, toList_isoText, List.append_assoc, List.cons_append]
    · obtain rfl := Option.some.inj member
      exact isOffset.1

/-- The offset of a time that was taken apart is none below a second. -/
theorem offset_of_readTime? {cs : List Char} {clock : WrittenClock} {micros : Int}
    (read : readTime? cs = some (clock, some micros)) :
    micros = 0 ∨ microsPerSecond ≤ micros.natAbs := by
  unfold readTime? at read
  obtain ⟨first, -, read⟩ := Option.bind_eq_some_iff.1 read
  split at read
  · split at read <;> cases read
  · split at read
    · cases read
      exact .inl rfl
    · cases read
  · obtain ⟨shift, -, read⟩ := Option.bind_eq_some_iff.1 read
    split at read
    · cases read
    · split at read
      · cases read
        exact .inl rfl
      next some =>
        cases read
        refine .inr ?_
        have whole := Nat.le_mul_of_pos_left microsPerSecond (Nat.pos_of_ne_zero some)
        split <;> omega

theorem offset_of_readWritten? {text : Text} {w : Written} (written : readWritten? text = some w)
    {micros : Int}
    (offset : w.offset = some micros) : micros = 0 ∨ microsPerSecond ≤ micros.natAbs := by
  unfold readWritten? at written
  simp only [Option.bind_eq_bind] at written
  split at written
  · cases written
  · obtain ⟨size, -, written⟩ := Option.bind_eq_some_iff.1 written
    obtain ⟨date, -, written⟩ := Option.bind_eq_some_iff.1 written
    split at written
    · cases written
      cases offset
    · obtain ⟨⟨clock, zone⟩, read, written⟩ := Option.bind_eq_some_iff.1 written
      cases written
      obtain rfl : zone = some micros := offset
      exact offset_of_readTime? read

/-- What is read has the offset that was written, and one of less than a day. -/
theorem read_offset {text : Text} {w : Written} (written : readWritten? text = some w) :
    Admits (fun s : Stamp => s.offset = w.offset ∧ ∀ micros ∈ w.offset,
      micros.natAbs < microsPerDay) (Iso.read text) := by
  unfold Iso.read
  rw [written]
  refine .ite (fun _ => .error _) fun _ => ?_
  rcases offset : w.offset with _ | micros
  on_goal 2 => refine .ite (fun _ => .error _) fun inside => ?_
  all_goals
    refine .bind fun days _ => ?_
    refine .ite (fun _ => .error _) fun _ => .ite (fun _ => .error _) fun _ =>
      .ite (fun _ => .error _) fun _ => ?_
    generalize DateTime.ofMicros? _ = wall
    cases wall with
    | none => exact .error _
    | some wall => exact .ok ⟨rfl, fun micros same => by cases same <;> omega⟩

theorem isRead_of_read {text : Text} {s : Stamp} (read : Iso.read text = .ok s) : s.IsRead := by
  cases written : readWritten? text with
  | none =>
    unfold Iso.read at read
    simp [written] at read
  | some w =>
    obtain ⟨kept, inside⟩ := read_offset written s read
    intro micros member
    rw [kept] at member
    exact ⟨inside micros member, offset_of_readWritten? written member⟩

end LeadRules
