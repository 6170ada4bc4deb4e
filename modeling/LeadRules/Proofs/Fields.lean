import LeadRules.Proofs.Loading

/-! References resolved on leads. A value of a numeric type is a number, or the text of a time, or
else absent. The exception is a whole number that no double stands for: it overflows. -/
namespace LeadRules

namespace Value

variable {v : Value} {x y : Binary64} {type : FieldType}

theorem isHuge_iff : v.IsHuge ↔ ∃ n, v = .int n ∧ Binary64.wholeLimit ≤ n.natAbs :=
  exists_congr fun _ => and_congr_right fun _ => Binary64.ofInt?_eq_none

/-- The number that a value is; truth values are none. -/
inductive IsNumber : Value → Binary64 → Prop
  | whole {n : Int} {x : Binary64} (rounded : Binary64.ofInt? n = some x) : IsNumber (.int n) x
  | double (x : Binary64) : IsNumber (.float x) x
  | numeral {t : Text} {x : Binary64} (read : Numeral.readDouble? t = some x) : IsNumber (.text t) x

/-- The double that a value is as one of a numeric type. As a date, what is no number is the time
that its text tells, in seconds since 1970. -/
inductive Reads : FieldType → Value → Binary64 → Prop
  | number {type : FieldType} {v : Value} {x : Binary64} (number : v.IsNumber x) : Reads type v x
  | time {v : Value} {s : Stamp} {x : Binary64} (fits : ¬v.IsHuge) (none : ∀ y, ¬v.IsNumber y)
      (read : Iso.read (spellOutZulu v.toText) = .ok s) (placed : s.timestamp? = some x) :
      Reads .date v x

theorem IsNumber.functional (first : v.IsNumber x) (second : v.IsNumber y) : x = y := by
  cases first with
  | whole rounded =>
    obtain ⟨again⟩ := second
    exact Option.some.inj (rounded.symm.trans again)
  | double =>
    cases second
    rfl
  | numeral read =>
    obtain - | - | ⟨again⟩ := second
    exact Option.some.inj (read.symm.trans again)

theorem IsNumber.fits (number : v.IsNumber x) : ¬v.IsHuge := by
  rintro ⟨n, rfl, huge⟩
  obtain ⟨rounded⟩ := number
  rw [huge] at rounded
  cases rounded

theorem Reads.functional (first : v.Reads type x) (second : v.Reads type y) : x = y := by
  cases first with
  | number number =>
    cases second with
    | number again => exact number.functional again
    | time _ none => exact absurd number (none _)
  | time fits none read placed =>
    cases second with
    | number number => exact absurd number (none _)
    | time _ _ again placed' =>
      rw [Except.ok.inj (read.symm.trans again)] at placed
      exact Option.some.inj (placed.symm.trans placed')

theorem Reads.fits (reads : v.Reads type x) : ¬v.IsHuge := by
  cases reads with
  | number number => exact number.fits
  | time fits => exact fits

inductive Ending {α : Type} (type : FieldType) (v : Value) (found : Binary64 → α) (absent : α) :
    Except Fault α → Prop
  | overflow (huge : v.IsHuge) : Ending type v found absent (.error (.overflow .wholeToDouble))
  | double {x : Binary64} (reads : v.Reads type x) : Ending type v found absent (.ok (found x))
  | nothing (fits : ¬v.IsHuge) (unread : ∀ x, ¬v.Reads type x) :
      Ending type v found absent (.ok absent)

theorem Ending.map {α β : Type} {found : Binary64 → α} {absent : α} {result : Except Fault α}
    (ending : Ending type v found absent result) (f : α → β) :
    Ending type v (f ∘ found) (f absent) (f <$> result) := by
  cases ending with
  | overflow huge => exact .overflow huge
  | double reads => exact .double reads
  | nothing fits unread => exact .nothing fits unread

theorem Ending.error_iff {α : Type} {found : Binary64 → α} {absent : α} {result : Except Fault α}
    (ending : Ending type v found absent result) (fault : Fault) :
    result = .error fault ↔ fault = .overflow .wholeToDouble ∧ v.IsHuge := by
  cases ending with
  | overflow huge =>
    exact ⟨fun same => ⟨(Except.error.inj same).symm, huge⟩, fun ⟨same, _⟩ => same ▸ rfl⟩
  | double reads => exact iff_of_false nofun fun ⟨_, huge⟩ => reads.fits huge
  | nothing fits => exact iff_of_false nofun fun ⟨_, huge⟩ => fits huge

theorem Ending.of_reads {α : Type} {found : Binary64 → α} {absent : α} {result : Except Fault α}
    (ending : Ending type v found absent result) (reads : v.Reads type x) :
    result = .ok (found x) := by
  cases ending with
  | overflow huge => exact absurd huge reads.fits
  | double again => rw [reads.functional again]
  | nothing _ unread => exact absurd reads (unread x)

theorem Ending.of_option {read : Option Binary64} (fits : ¬v.IsHuge)
    (reads_iff : ∀ x, v.Reads type x ↔ read = some x) :
    Ending type v some none (.ok read) := by
  cases read with
  | some x => exact .double ((reads_iff x).2 rfl)
  | none => exact .nothing fits fun x reads => nomatch (reads_iff x).1 reads

theorem reads_number : v.Reads .number x ↔ v.IsNumber x := by
  refine ⟨fun reads => ?_, .number⟩
  cases reads with
  | number number => exact number

/-- What is no number is, as a date, the time that its text tells. -/
theorem reads_date (fits : ¬v.IsHuge) (none : ∀ y, ¬v.IsNumber y) :
    v.Reads .date x ↔ ∃ s, Iso.read (spellOutZulu v.toText) = .ok s ∧ s.timestamp? = some x := by
  refine ⟨fun reads => ?_, fun ⟨s, read, placed⟩ => .time fits none read placed⟩
  cases reads with
  | number number => exact absurd number (none x)
  | time _ _ read placed => exact ⟨_, read, placed⟩

theorem toNumber_ending (v : Value) : Ending .number v some none v.toNumber := by
  fun_cases toNumber v with
  | case1 n x rounded => exact .double (.number (.whole rounded))
  | case2 n huge => exact .overflow ⟨n, rfl, huge⟩
  | case3 x => exact .double (.number (.double x))
  | case4 t =>
    refine .of_option (by rintro ⟨_, ⟨⟩, _⟩) fun x =>
      reads_number.trans ⟨fun number => ?_, .numeral⟩
    cases number with
    | numeral read => exact read
  | case5 w notInt notFloat notText =>
    have fits : ¬v.IsHuge := by
      rintro ⟨n, same, -⟩
      exact notInt n same
    refine .nothing fits fun x reads => ?_
    cases reads_number.1 reads with
    | whole => exact notInt _ rfl
    | double => exact notFloat _ rfl
    | numeral => exact notText _ rfl

theorem toTimestamp_ending (v : Value) : Ending .date v some none v.toTimestamp := by
  have number := toNumber_ending v
  unfold toTimestamp
  revert number
  generalize v.toNumber = result
  rintro (huge | reads | ⟨fits, unread⟩)
  · exact .overflow huge
  · exact .double (.number (reads_number.1 reads))
  · have none (y : Binary64) : ¬v.IsNumber y := fun number => unread y (.number number)
    have reads_iff (x : Binary64) := reads_date (x := x) fits none
    simp only [bind, Except.bind]
    cases told : Iso.read (spellOutZulu v.toText) with
    | error fault => exact .nothing fits fun x reads => by simpa [told] using (reads_iff x).1 reads
    | ok s => exact .of_option fits fun x => by simpa [told] using reads_iff x

/-- What is blank is no double of any type. -/
theorem unread_of_blank (type : FieldType) (blank : v.isBlank = true) :
    ¬v.IsHuge ∧ ∀ x, ¬v.Reads type x := by
  have unread {v : Value} (fits : ¬v.IsHuge) (number : ∀ x, ¬v.IsNumber x)
      (untimed : (Iso.read (spellOutZulu v.toText)).toOption = none) :
      ¬v.IsHuge ∧ ∀ x, ¬v.Reads type x := by
    refine ⟨fits, fun x reads => ?_⟩
    cases reads with
    | number number' => exact number x number'
    | time _ _ read =>
      rw [read] at untimed
      cases untimed
  rcases of_decide_eq_true blank with rfl | rfl
  · exact unread (by rintro ⟨_, ⟨⟩, _⟩) (by rintro _ ⟨⟩) (by decide +kernel)
  · refine unread (by rintro ⟨_, ⟨⟩, _⟩) (fun x number => ?_) (by decide +kernel)
    have empty : Numeral.readDouble? "" = none := by decide +kernel
    obtain - | - | ⟨read⟩ := number
    rw [empty] at read
    cases read

end Value

theorem FieldType.coerce_plain {type : FieldType} (plain : type.isNumeric = false) (v : Value) :
    type.coerce v = .ok ⟨.text v.toText, type⟩ := by
  cases type with
  | number => cases plain
  | date => cases plain
  | _ => rfl

theorem FieldType.coerce_ending {type : FieldType} (numeric : type.isNumeric = true) (v : Value) :
    Value.Ending type v (fun x => ⟨.float x, type⟩) TypedValue.absent (type.coerce v) := by
  cases type with
  | number => exact (Value.toNumber_ending v).map (TypedValue.ofDouble? .number)
  | date => exact (Value.toTimestamp_ending v).map (TypedValue.ofDouble? .date)
  | _ => cases numeric

namespace Value.Ending

variable {type : FieldType} {v : Value} {result : Except Fault TypedValue}

theorem double_iff (ending : Ending type v (fun x => ⟨.float x, type⟩) TypedValue.absent result)
    (x : Binary64) :
    result = .ok ⟨.float x, type⟩ ↔ v.Reads type x := by
  refine ⟨fun same => ?_, ending.of_reads⟩
  cases ending with
  | overflow huge => cases same
  | double reads =>
    injection same with same
    injection same with same
    injection same with same
    exact same ▸ reads
  | nothing => cases same

theorem absent_iff (ending : Ending type v (fun x => ⟨.float x, type⟩) TypedValue.absent result) :
    result = .ok .absent ↔ ¬v.IsHuge ∧ ∀ x, ¬v.Reads type x := by
  cases ending with
  | overflow huge => exact iff_of_false nofun fun ⟨fits, _⟩ => fits huge
  | double reads => exact iff_of_false nofun fun ⟨_, unread⟩ => unread _ reads
  | nothing fits unread => exact iff_of_true rfl ⟨fits, unread⟩

end Value.Ending

namespace FieldCatalog

variable {catalog : FieldCatalog} {l : Lead} {ref : Text} {raw : Value} {type : FieldType}

/-- The value that a reference finds on a lead, with its declared type: that of a standard field,
or else of one that the catalog defines. -/
inductive Finds (catalog : FieldCatalog) (l : Lead) (ref : Text) : Value → FieldType → Prop
  | standard {f : StandardField} (named : (f.reference : Text) = ref) :
      Finds catalog l ref (f.valueOf l) f.type
  | custom {d : FieldDefinition} {raw : Value}
      (other : ∀ f : StandardField, (f.reference : Text) ≠ ref)
      (defined : catalog.get? (customId ref) = some d)
        (held : l.customFields.lookup (customId ref) = some raw) :
      Finds catalog l ref raw d.type

theorem ofReference?_eq_some {f : StandardField} : StandardField.ofReference? ref = some f ↔
    (f.reference : Text) = ref := by
  constructor
  · exact fun found => by simpa using List.find?_some found
  · rintro rfl
    cases f <;> decide +kernel

theorem ofReference?_eq_none : StandardField.ofReference? ref = none ↔
    ∀ f : StandardField, (f.reference : Text) ≠ ref := by
  rw [Option.eq_none_iff_forall_ne_some]
  exact forall_congr' fun f => not_congr ofReference?_eq_some

theorem resolve_ending (finds : catalog.Finds l ref raw type) (numeric : type.isNumeric = true) :
    Value.Ending type raw
      (fun x => ⟨.float x, type⟩) TypedValue.absent (catalog.resolve l ref) := by
  cases finds with
  | @standard f named =>
    have untagged : f ≠ .tags := by
      rintro rfl
      cases numeric
    have coerced := FieldType.coerce_ending numeric (f.valueOf l)
    rw [resolve, ofReference?_eq_some.2 named]
    simp only [StandardField.resolve, if_neg untagged]
    split
    next none =>
      obtain ⟨fits, unread⟩ := Value.unread_of_blank (v := f.valueOf l) f.type (by rw [none]; rfl)
      exact .nothing fits unread
    · exact coerced
  | @custom d raw other defined held =>
    rw [resolve, ofReference?_eq_none.2 other]
    simp only [resolveCustom, defined, held]
    split
    next blank =>
      obtain ⟨fits, unread⟩ := Value.unread_of_blank d.type blank
      exact .nothing fits unread
    · exact FieldType.coerce_ending numeric raw

theorem resolve_plain (finds : catalog.Finds l ref raw type) (plain : type.isNumeric = false) :
    ∃ typed, catalog.resolve l ref = .ok typed := by
  cases finds with
  | @standard f named =>
    rw [resolve, ofReference?_eq_some.2 named]
    simp only [StandardField.resolve, FieldType.coerce_plain plain]
    split
    · exact ⟨_, rfl⟩
    · split
      · exact ⟨_, rfl⟩
      · exact ⟨_, rfl⟩
  | @custom d raw other defined held =>
    rw [resolve, ofReference?_eq_none.2 other]
    simp only [resolveCustom, defined, held, FieldType.coerce_plain plain]
    split
    · exact ⟨_, rfl⟩
    · exact ⟨_, rfl⟩

theorem resolve_unfound (unfound : ∀ raw type, ¬catalog.Finds l ref raw type) :
    catalog.resolve l ref = .ok .absent := by
  cases known : StandardField.ofReference? ref with
  | some f => exact absurd (.standard (ofReference?_eq_some.1 known)) (unfound _ _)
  | none =>
    simp only [resolve, known, resolveCustom]
    cases defined : catalog.get? (customId ref) with
    | none => rfl
    | some d =>
      cases held : l.customFields.lookup (customId ref) with
      | none => rfl
      | some raw => exact absurd (.custom (ofReference?_eq_none.1 known) defined held) (unfound _ _)

end FieldCatalog

/-- Noting a reference that no field answers to makes no difference. -/
theorem Segment.resolve_run (catalog : FieldCatalog) (l : Lead) (ref : Text) (h : Host) :
    ∃ k, h.Relogged k ∧ resolve catalog l (.text ref) h = (catalog.resolve l ref, k) := by
  have known : FieldCatalog.reference (.text ref) = .ok ref := rfl
  by_cases unmapped : catalog.isUnmapped ref
  · refine ⟨h.note .debug ("Unmapped field reference '" ++ ref ++ "' resolved to null"),
      .note .debug _ h, ?_⟩
    simp only [resolve, known, Op.run_bind, Op.run_ofExcept, if_pos unmapped, Op.run_log]
  · refine ⟨h, .refl h, ?_⟩
    simp only [resolve, known, Op.run_bind, Op.run_ofExcept, if_neg unmapped]

namespace FieldCatalog

/-- A reference resolves to a typed value but where it finds a whole number that no double stands
for under a numeric type, which overflows. Other values of a numeric type are the double that they
read as, or absent if they read as none. -/
theorem resolve_overflows_iff (catalog : FieldCatalog) (l : Lead) (ref : Text) :
    (∀ h, ∃ k, h.Relogged k ∧ Segment.resolve catalog l (.text ref) h = (catalog.resolve l ref, k)) ∧
    (∀ fault, catalog.resolve l ref = .error fault ↔ fault = .overflow .wholeToDouble ∧
      ∃ n type, catalog.Finds l ref (.int n) type ∧ type.isNumeric = true ∧
        Binary64.wholeLimit ≤ n.natAbs) ∧
    (∀ raw type, catalog.Finds l ref raw type → type.isNumeric = true →
      (∀ x, catalog.resolve l ref = .ok ⟨.float x, type⟩ ↔ raw.Reads type x) ∧
      (catalog.resolve l ref = .ok .absent ↔ ¬raw.IsHuge ∧ ∀ x, ¬raw.Reads type x)) ∧
    ((∀ raw type, ¬catalog.Finds l ref raw type) → catalog.resolve l ref = .ok .absent) := by
  refine ⟨Segment.resolve_run catalog l ref, fun fault => ⟨fun failed => ?_, ?_⟩,
    fun raw type finds numeric => ?_, resolve_unfound⟩
  · by_cases found : ∃ raw type, catalog.Finds l ref raw type
    · obtain ⟨raw, type, finds⟩ := found
      cases numeric : type.isNumeric with
      | true =>
        obtain ⟨same, huge⟩ := ((resolve_ending finds numeric).error_iff fault).1 failed
        obtain ⟨n, rfl, beyond⟩ := Value.isHuge_iff.1 huge
        exact ⟨same, n, type, finds, numeric, beyond⟩
      | false =>
        obtain ⟨typed, resolved⟩ := resolve_plain finds numeric
        rw [resolved] at failed
        cases failed
    · rw [resolve_unfound fun raw type finds => found ⟨raw, type, finds⟩] at failed
      cases failed
  · rintro ⟨same, n, type, finds, numeric, beyond⟩
    exact ((resolve_ending finds numeric).error_iff fault).2
      ⟨same, Value.isHuge_iff.2 ⟨n, rfl, beyond⟩⟩
  · exact ⟨(resolve_ending finds numeric).double_iff, (resolve_ending finds numeric).absent_iff⟩

def dealing (n : Int) : Lead := { id := "L1", dealValue := .int n }

def dealingWire (n : Int) : Value := .record [("id", .text "L1"), ("dealValue", .int n)]

theorem ofWire_dealing (n : Int) : Lead.ofWire (dealingWire n) = .ok (dealing n) := rfl

def enormous : Int := (Nat.pow 10 400 : Nat)

theorem resolve_overflows_enormous : Lead.ofWire (dealingWire enormous) = .ok (dealing enormous) ∧
    resolve .empty (dealing enormous) "dealValue" = .error (.overflow .wholeToDouble) := by
  have beyond : Binary64.wholeLimit ≤ enormous.natAbs := by decide +kernel
  obtain ⟨-, overflows, -⟩ := resolve_overflows_iff .empty (dealing enormous) "dealValue"
  exact ⟨ofWire_dealing enormous,
    (overflows _).2 ⟨rfl, enormous, .number, .standard (f := .dealValue) rfl, rfl, beyond⟩⟩

end FieldCatalog
end LeadRules
