import LeadRules.Proofs.Comparisons
import LeadRules.Proofs.Spellings

/-! Comparing a date with another one. Times are compared by their instants, in whatever way they
are written, but a text that is a number is that number: so is a date in eight digits, though the
same date with hyphens is a time. -/
namespace LeadRules

namespace FieldCatalog

variable {catalog : FieldCatalog} {l : Lead} {ref a b u : Text} {c : Condition} {v w : Value}
  {s t : Stamp} {p q x y : Binary64}

/-- What is found as a date is compared as what it reads as. -/
theorem check_date {holds : Binary64 → Binary64 → Bool} (finds : catalog.Finds l ref v .date)
    (asks : c.field = .text ref)
    (left : v.Reads .date p) (right : c.value.Reads .date q)
    (compares : c.operator.compares? = some holds) (h : Host) :
    (Segment.check catalog l c h).1 = .ok (holds p q) := by
  have resolved := (resolve_ending finds rfl).of_reads left
  have operand : TypedValue.operand .date c.value = .ok (some q) :=
    (Value.toTimestamp_ending c.value).of_reads right
  have reference : FieldCatalog.reference (.text ref) = .ok ref := rfl
  rw [Segment.check_answer]
  simp only [Condition.holds, asks, reference, bind, Except.bind, resolved]
  exact holdsFor_float rfl operand compares

/-- A text that is no number is, as a date, the time that it tells. -/
theorem reads_time (plain : Numeral.readDouble? u = none) (read : Iso.read (spellOutZulu u) = .ok s)
    (placed : s.timestamp? = some x) : (Value.text u).Reads .date x := by
  refine .time (by rintro ⟨n, ⟨⟩, -⟩) (fun y number => ?_) read placed
  obtain - | - | ⟨number⟩ := number
  rw [plain] at number
  cases number

theorem compact_of_read (read : Iso.read (spellOutZulu u) = .ok s)
    (number : Numeral.readDouble? u = some p) : u.IsCompact := by
  cases written : Iso.readWritten? (spellOutZulu u) with
  | none =>
    unfold Iso.read at read
    rw [written] at read
    cases read
  | some w => exact Numeral.compact_of_numeral written number

/-- The dates of a lead are compared with another one as what both read as. So two times
with whole seconds are compared by their instants, if neither text is a number. Of the
texts that tell a time only such are numbers as start with a date in eight digits, and all
that have nothing else. -/
theorem dates_compare (finds : catalog.Finds l ref (.text a) .date) (asks : c.field = .text ref)
    (against : c.value = .text b)
    (first : Iso.read (spellOutZulu a) = .ok s) (second : Iso.read (spellOutZulu b) = .ok t)
    (whole : s.IsWhole) (whole' : t.IsWhole) (placed : s.timestamp? = some x)
    (placed' : t.timestamp? = some y) :
    (Numeral.readDouble? a = none → Numeral.readDouble? b = none → ∀ h,
      (Segment.check catalog l { c with operator := .greater } h).1 =
        .ok (decide (t.instant < s.instant)) ∧
      (Segment.check catalog l { c with operator := .less } h).1 =
        .ok (decide (s.instant < t.instant)) ∧
      (Segment.check catalog l { c with operator := .equals } h).1 =
        .ok (decide (s.instant = t.instant))) ∧
    (∀ p q, (Value.text a).Reads .date p → (Value.text b).Reads .date q → ∀ h,
      (Segment.check catalog l { c with operator := .greater } h).1 = .ok (q.lt p) ∧
      (Segment.check catalog l { c with operator := .less } h).1 = .ok (p.lt q) ∧
      (Segment.check catalog l { c with operator := .equals } h).1 = .ok (p.same q)) ∧
    (∀ u ∈ [a, b], ∀ p, Numeral.readDouble? u = some p → u.IsCompact) ∧
    ∀ ds : List Char, ds.length = 8 → (∀ d ∈ ds, d.isDigit = true) →
      ∃ p, (Value.text (.ofChars ds)).Reads .date p ∧
        p.sameInt (Numeral.digitsValue ds) = true := by
  have compared (p q : Binary64) (left : (Value.text a).Reads .date p)
    (right : (Value.text b).Reads .date q) (h : Host) :
      (Segment.check catalog l { c with operator := .greater } h).1 = .ok (q.lt p) ∧
      (Segment.check catalog l { c with operator := .less } h).1 = .ok (p.lt q) ∧
      (Segment.check catalog l { c with operator := .equals } h).1 = .ok (p.same q) := by
    rw [← against] at right
    exact ⟨check_date (c := { c with operator := .greater }) finds asks left right rfl h,
      check_date (c := { c with operator := .less }) finds asks left right rfl h,
      check_date (c := { c with operator := .equals }) finds asks left right rfl h⟩
  refine ⟨fun plain plain' h => ?_, compared, fun u member p number => ?_, fun ds date digits => ?_⟩
  · obtain ⟨above, below, same⟩ :=
      compared x y (reads_time plain first placed) (reads_time plain' second placed') h
    obtain ⟨earlier, equal⟩ :=
      Stamp.order_of_timestamps (isRead_of_read first)
        (isRead_of_read second) whole whole' placed placed'
    obtain ⟨later, -⟩ :=
      Stamp.order_of_timestamps (isRead_of_read second)
        (isRead_of_read first) whole' whole placed' placed
    rw [above, below, same, earlier, later, equal]
    exact ⟨rfl, rfl, rfl⟩
  · simp only [List.mem_cons, List.not_mem_nil, or_false] at member
    rcases member with rfl | rfl
    · exact compact_of_read first number
    · exact compact_of_read second number
  · have some : ds ≠ [] := by
      rintro rfl
      cases date
    obtain ⟨p, number, exact⟩ := Numeral.readDouble?_digits digits some (by omega)
    exact ⟨p, .number (.numeral number), exact⟩

def movingIn (day : String) : Lead :=
  { id := "L1", customFields := .ofList [(.ofText "moveIn", .text day)] }

def movesIn (day : String) (operator : Operator) : Condition :=
  ⟨"day", .text "moveIn", operator, .text day, .and⟩

theorem finds_movingIn (day : String) :
    household.Finds (movingIn day) "moveIn" (.text day) .date := by
  have other : ∀ f : StandardField, (f.reference : Text) ≠ "moveIn" := by
    intro f
    cases f <;> decide +kernel
  exact .custom (d := ⟨"moveIn", .text "Move-in", .date, []⟩) other rfl rfl

def june : Stamp := ⟨⟨63852840000000000, by decide⟩, some 7200000000⟩

def juneZulu : Stamp := ⟨⟨63852832800000000, by decide⟩, some 0⟩

def january : Stamp := ⟨⟨63839664000000000, by decide⟩, none⟩

/-- The same instant is equal in two zones, once with hyphens and once without. The same date with
hyphens and without is not. -/
theorem dates_compare_moveIn :
    (Segment.check household (movingIn "2024-06-01T12:00:00+02:00")
      (movesIn "20240601T100000Z" .equals) .still).1 = .ok true ∧
    (Segment.check household (movingIn "20240101") (movesIn "2024-01-01" .equals) .still).1 =
      .ok false := by
  have readJune : Iso.read (spellOutZulu "2024-06-01T12:00:00+02:00") = .ok june :=
    StateFile.of_toOption (by decide +kernel)
  have readZulu : Iso.read (spellOutZulu "20240601T100000Z") = .ok juneZulu :=
    StateFile.of_toOption (by decide +kernel)
  have readCompact : Iso.read (spellOutZulu "20240101") = .ok january :=
    StateFile.of_toOption (by decide +kernel)
  have readJanuary : Iso.read (spellOutZulu "2024-01-01") = .ok january :=
    StateFile.of_toOption (by decide +kernel)
  have placed : january.timestamp? = some (.ofNat 1704067200) := by decide +kernel
  constructor
  · obtain ⟨instants, -⟩ := dates_compare (c := movesIn "20240601T100000Z" .equals)
      (finds_movingIn _) rfl rfl readJune readZulu
      (by decide) (by decide) rfl rfl
    exact (instants (by decide +kernel) (by decide +kernel) .still).2.2
  · obtain ⟨-, compared, -⟩ :=
      dates_compare (c := movesIn "2024-01-01" .equals)
        (finds_movingIn _) rfl rfl readCompact readJanuary
      (by decide) (by decide) placed placed
    have number : Numeral.readDouble? "20240101" = some (.ofNat 20240101) := by decide +kernel
    have answer :=
      (compared _ _ (.number (.numeral number))
        (reads_time (by decide +kernel) readJanuary placed) .still).2.2
    have differ : (Binary64.ofNat 20240101).same (.ofNat 1704067200) = false := by decide +kernel
    rw [differ] at answer
    exact answer

end FieldCatalog
end LeadRules
