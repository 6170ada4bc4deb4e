import LeadRules.Proofs.JsonNumbers
import LeadRules.Proofs.JsonText
import LeadRules.StateFile

/-! Values in JSON. What is read of a written value is said for every value: it comes back as
`reread` has it, or is refused for being too deep or having too many digits. -/
namespace LeadRules

/-- A double as it is read when it was written: the NaN that is read is the named one. -/
def Binary64.reread : Binary64 → Binary64
  | nan _ => nan .named
  | x => x

namespace Json

mutual
/-- What is read of a written value. A NaN is the named one, and halves of a pair that stand side
by side are one character; keys are read by their names, and of two members with one name the
later value counts. -/
def reread (room : Nat) : Value → Except Refusal Value
  | .int n =>
    if Numeral.digitLimit < Decimal.digitCount n.natAbs then
      .error (.tooManyDigits (Decimal.digitCount n.natAbs))
    else .ok (.int n)
  | .float x => .ok (.float x.reread)
  | .text t => .ok (.text t.joined)
  | .list items => do
    let room ← enter room .list
    return .list (← rereadItems room items)
  | .map entries => do
    let room ← enter room .object
    return .map (← rereadMembers room [] entries)
  | .null => .ok .null
  | .bool b => .ok (.bool b)
def rereadItems (room : Nat) : List Value → Except Refusal (List Value)
  | [] => return []
  | v :: rest => return (← reread room v) :: (← rereadItems room rest)
def rereadMembers (room : Nat) (done : List (Value × Value)) :
    List (Value × Value) → Except Refusal (List (Value × Value))
  | [] => return done
  | (k, v) :: rest => do
    let v ← reread room v
    rereadMembers room (Entries.put (.text (keyName k).joined) v done) rest
end

section Blanks

variable {gap rest : List Char}

theorem skipSpace_append (blank : ∀ c ∈ gap, isSpace c = true) (rest : List Char) :
    skipSpace (gap ++ rest) = skipSpace rest := by
  rw [skipSpace, List.dropWhile_append_of_pos blank]
  rfl

theorem skipSpace_cons {c : Char} (printed : isSpace c = false) (cs : List Char) :
    skipSpace (c :: cs) = c :: cs := by
  simp [skipSpace, printed]

theorem lineBreak_blank (depth : Nat) : ∀ c ∈ (lineBreak depth).toList, isSpace c = true := by
  intro c member
  simp only [lineBreak, String.toList_append, String.toList_ofList, List.mem_append] at member
  rcases member with feed | blank
  · rw [List.mem_singleton.1 feed]
    rfl
  · rw [List.eq_of_mem_replicate blank]
    rfl

theorem Layout.edge_blank (layout : Layout) : ∀ c ∈ layout.edge.toList, isSpace c = true := by
  cases layout with
  | oneLine => exact nofun
  | indented depth => exact lineBreak_blank depth

theorem Layout.separator_blank (layout : Layout) :
    ∃ gap, layout.separator.toList = ',' :: gap ∧ ∀ c ∈ gap, isSpace c = true := by
  cases layout with
  | oneLine => exact ⟨[' '], rfl, by simp [isSpace]⟩
  | indented depth => exact ⟨_, String.toList_append, lineBreak_blank depth⟩

/-- Blanks before a mark end a value as the mark does. -/
theorem ends_append {c : Char} (blank : ∀ c ∈ gap, isSpace c = true) (mark : c ∈ [',', ']', '\x7d'])
    (rest : List Char) :
    Ends (gap ++ c :: rest) := by
  cases gap with
  | nil =>
    rintro _ ⟨⟩
    exact List.mem_append_left [' ', '\t', '\n', '\r'] mark
  | cons space gap =>
    rintro _ ⟨⟩
    have printed := blank space List.mem_cons_self
    simp only [isSpace, Bool.or_eq_true, decide_eq_true_eq] at printed
    rcases printed with ((rfl | rfl) | rfl) | rfl <;> decide

end Blanks

end Json

theorem StateFile.normalLines_eq {cs : List Char} (none : '\r' ∉ cs) : normalLines cs = cs := by
  induction cs with
  | nil => rfl
  | cons c rest ih =>
    rw [List.mem_cons, not_or] at none
    rw [normalLines, ih none.2]
    · exact fun _ same _ => none.1 same.symm
    · exact fun same => none.1 same.symm

namespace Json

theorem readString_writeString (t : Text) (rest : List Char) :
    ∃ quoted, (writeString t).toList ++ rest = '"' :: quoted ∧
      ∀ start, readString start [] quoted = .ok (t.joined, rest) := by
  have written : (writeString t).toList ++ rest =
      '"' :: ((t.points.flatMap fun p => (escapePoint p).toList) ++ '"' :: rest) := by
    simp [toList_writeString]
  exact ⟨_, written, fun start => readString_points start rest t.points []⟩

section Scalars

def words : List (String × Value) := [("null", .null), ("true", .bool true), ("false", .bool false),
  ("NaN", .float (.nan .named)), ("Infinity", .float (.infinity false)),
  ("-Infinity", .float (.infinity true))]

/-- Whether a text is a word or a number, and what it is read as. -/
def Plain (text : String) (x : Except Refusal Value) : Prop :=
  (∃ v, x = .ok v ∧ (text, v) ∈ words) ∨ ∀ rest, Ends rest →
  readNumber? (text.toList ++ rest) = some (x.map (·, rest))

variable {text : String} {x : Except Refusal Value}

theorem Plain.readValue (plain : Plain text x) (room fuel : Nat) {rest : List Char}
    (ends : Ends rest) :
    readValue room (fuel + 1) (text.toList ++ rest) = x.map (·, rest) := by
  rcases plain with ⟨v, rfl, word⟩ | number
  · simp only [words, List.mem_cons, List.not_mem_nil, or_false, Prod.mk.injEq] at word
    rcases word with ⟨rfl, rfl⟩ | ⟨rfl, rfl⟩ | ⟨rfl, rfl⟩ | ⟨rfl, rfl⟩ | ⟨rfl, rfl⟩ | ⟨rfl, rfl⟩ <;>
      simp [Json.readValue, readScalar, Except.map]
  · exact readValue_number (number rest ends) room fuel

def strays : List Char := [']', Char.ofNat 0xFEFF, ' ', '\t', '\n', '\r']

def Leads (cs : List Char) : Prop := ∃ c more, cs = c :: more ∧ c ∉ strays

theorem Plain.leads (plain : Plain text x) : Leads text.toList := by
  rcases plain with ⟨v, -, word⟩ | number
  · have all : ∀ word ∈ words, ∃ c, word.1.toList.head? = some c ∧ c ∉ strays := by
      simp [words, strays]
    obtain ⟨c, head, leads⟩ := all _ word
    obtain ⟨more, start⟩ := List.head?_eq_some_iff.1 head
    exact ⟨c, more, start, leads⟩
  · have read := number [] nofun
    rw [List.append_nil] at read
    obtain ⟨c, more, digit, start | start⟩ := number_head read
    · have none : ∀ c ∈ strays, ¬c.isDigit = true := by simp [strays]
      exact ⟨c, more, start, fun stray => none c stray digit⟩
    · exact ⟨'-', _, start, by decide⟩

theorem plain_double (y : Binary64) : Plain (writeDouble y) (.ok (.float y.reread)) := by
  cases y with
  | nan origin => exact .inl ⟨_, rfl, by simp [words, writeDouble, Binary64.isNan, Binary64.reread]⟩
  | number negative rank bounded =>
    by_cases finite : (Binary64.number negative rank bounded).isFinite = true
    · have text : writeDouble (.number negative rank bounded) =
          (Binary64.number negative rank bounded).toText := by
        simp [writeDouble, finite, Binary64.isNan]
      rw [text]
      exact .inr fun rest ends => readNumber?_toText finite ends
    · have last : rank = Binary64.infinityRank := by
        simp only [Binary64.isFinite, decide_eq_true_eq] at finite
        omega
      subst last
      refine .inl ⟨_, rfl, ?_⟩
      cases negative <;>
        simp [words, writeDouble, finite, Binary64.isNan, Binary64.isNegative, Binary64.reread,
          Binary64.infinity]

theorem plain_int (n : Int) : Plain (toString n) (reread 0 (.int n)) := by
  refine .inr fun rest ends => ?_
  rw [readNumber?_int n ends, reread]
  split <;> rfl

end Scalars

theorem readValue_list (room fuel : Nat) {cs inside : List Char} (start : skipSpace cs = inside)
    (some : ∀ rest, inside ≠ ']' :: rest) : readValue room (fuel + 1) ('[' :: cs) =
      (enter room .list).bind fun room => (readItems room fuel [] inside).map fun (items, rest) =>
        (.list items, rest) := by
  rw [readValue, start]
  cases enter room .list with
  | error refusal => rfl
  | ok room =>
    dsimp only
    split
    next refused => cases refused
    · exact absurd rfl (some _)
    next entered _ =>
      cases entered
      rfl

theorem readValue_object (room fuel : Nat) {cs inside : List Char} (start : skipSpace cs = inside)
    (some : ∀ rest, inside ≠ '\x7d' :: rest) : readValue room (fuel + 1) ('\x7b' :: cs) =
      (enter room .object).bind fun room =>
        (readMembers room fuel [] inside).map fun (entries, rest) => (.map entries, rest) := by
  rw [readValue, start]
  cases enter room .object with
  | error refusal => rfl
  | ok room =>
    dsimp only
    split
    next refused => cases refused
    · exact absurd rfl (some _)
    next entered _ =>
      cases entered
      rfl

def itemsAfter (room fuel : Nat) (done : List Value) (cs : List Char) : Reading (List Value) :=
  match skipSpace cs with
  | ']' :: rest => .ok (done, rest)
  | ',' :: rest => readItems room fuel done (skipSpace rest)
  | rest => malformed .expectingComma rest

theorem readItems_succ (room fuel : Nat) (done : List Value) (cs : List Char) :
    readItems room (fuel + 1) done cs =
    (readValue room fuel cs).bind fun (item, rest) => itemsAfter room fuel
    (done ++ [item]) rest := by
  rw [readItems]
  cases readValue room fuel cs <;> rfl

def membersAfter (room fuel : Nat) (done : List (Value × Value)) (cs : List Char) :
    Reading (List (Value × Value)) :=
  match skipSpace cs with
  | '\x7d' :: rest => .ok (done, rest)
  | ',' :: rest => readMembers room fuel done (skipSpace rest)
  | rest => malformed .expectingComma rest

/-- A member is its name, a colon and a value. -/
theorem readMembers_name (room fuel : Nat) (done : List (Value × Value)) (name : Text)
    (cs : List Char) :
    readMembers room (fuel + 1) done ((writeString name).toList ++ (':' :: ' ' :: cs)) =
      (readValue room fuel (skipSpace cs)).bind fun (value, rest) =>
        membersAfter room fuel (Entries.put (.text name.joined) value done) rest := by
  obtain ⟨quoted, written, read⟩ := readString_writeString name (':' :: ' ' :: cs)
  have colon : skipSpace (':' :: ' ' :: cs) = ':' :: ' ' :: cs := skipSpace_cons rfl _
  have blank : skipSpace (' ' :: cs) = skipSpace cs :=
    skipSpace_append (show ∀ c ∈ [' '], isSpace c = true by simp [isSpace]) cs
  rw [written, readMembers]
  simp only [read, colon, blank]
  cases readValue room fuel (skipSpace cs) <;> rfl

theorem toList_writeList (layout : Layout) (v : Value) (items : List Value) :
    (writeIn layout (.list (v :: items))).toList =
    '[' :: (layout.deeper.edge.toList ++
      ((writeIn layout.deeper v).toList ++ ((writeItems layout.deeper items).toList ++
        (layout.edge.toList ++ [']'])))) := by
  rw [writeIn]
  simp

def memberChars (layout : Layout) (k v : Value) : List Char :=
  (writeString (keyName k)).toList ++ ':' :: ' ' :: (writeIn layout v).toList

theorem toList_writeMap (layout : Layout) (k v : Value) (entries : List (Value × Value)) :
    (writeIn layout (.map ((k, v) :: entries))).toList = '\x7b' :: (layout.deeper.edge.toList ++
      (memberChars layout.deeper k v ++
        ((writeMembers layout.deeper entries).toList ++ (layout.edge.toList ++ ['\x7d'])))) := by
  rw [writeIn]
  simp [memberChars]

theorem memberChars_leads (layout : Layout) (k v : Value) :
    ∃ more, memberChars layout k v = '"' :: more := by
  rw [memberChars, toList_writeString]
  exact ⟨_, rfl⟩

theorem writeIn_leads (layout : Layout) (v : Value) : Leads (writeIn layout v).toList := by
  match v with
  | .null =>
    exact Plain.leads (x := .ok .null) (.inl ⟨_, rfl, by simp [words, writeIn, writeScalar]⟩)
  | .bool b =>
    exact Plain.leads (x := .ok (.bool b))
      (.inl ⟨_, rfl, by cases b <;> simp [words, writeIn, writeScalar]⟩)
  | .int n =>
    rw [writeIn]
    exact (plain_int n).leads
  | .float x =>
    rw [writeIn]
    exact (plain_double x).leads
  | .text t =>
    rw [writeIn, toList_writeString]
    exact ⟨'"', _, rfl, by decide⟩
  | .list [] =>
    rw [writeIn]
    exact ⟨'[', [']'], rfl, by decide⟩
  | .list (v :: items) =>
    rw [toList_writeList]
    exact ⟨'[', _, rfl, by decide⟩
  | .map [] =>
    rw [writeIn]
    exact ⟨'\x7b', ['\x7d'], rfl, by decide⟩
  | .map ((k, v) :: entries) =>
    rw [toList_writeMap]
    exact ⟨'\x7b', _, rfl, by decide⟩

/-- Blanks before a value are skipped. -/
theorem skipSpace_leads {gap cs : List Char} (blank : ∀ c ∈ gap, isSpace c = true)
    (leads : Leads cs) (rest : List Char) :
    skipSpace (gap ++ (cs ++ rest)) = cs ++ rest := by
  obtain ⟨c, more, rfl, lead⟩ := leads
  have printed : isSpace c = false := by
    simp only [strays, List.mem_cons, not_or] at lead
    simp [isSpace, lead]
  rw [skipSpace_append blank]
  exact skipSpace_cons printed _

theorem skipSpace_start {cs : List Char} (leads : Leads cs) (rest : List Char) :
    skipSpace (cs ++ rest) = cs ++ rest := by
  have none : ∀ c ∈ [], isSpace c = true := nofun
  exact skipSpace_leads none leads rest

/-- What stands behind a value of a list or an object: a comma, or blanks and the mark that ends
it. -/
theorem ends_items (layout : Layout) (items : List Value) {gap : List Char}
    (blank : ∀ c ∈ gap, isSpace c = true)
    (rest : List Char) : Ends ((writeItems layout items).toList ++ (gap ++ ']' :: rest)) := by
  cases items with
  | nil => exact ends_append blank (by decide) rest
  | cons v items =>
    obtain ⟨space, comma, -⟩ := layout.separator_blank
    rw [writeItems]
    simp only [String.toList_append, comma]
    rintro _ ⟨⟩
    decide

theorem ends_members (layout : Layout) (entries : List (Value × Value)) {gap : List Char}
    (blank : ∀ c ∈ gap, isSpace c = true)
    (rest : List Char) :
    Ends ((writeMembers layout entries).toList ++ (gap ++ '\x7d' :: rest)) := by
  cases entries with
  | nil => exact ends_append blank (by decide) rest
  | cons e entries =>
    obtain ⟨k, v⟩ := e
    obtain ⟨space, comma, -⟩ := layout.separator_blank
    rw [writeMembers]
    simp only [String.toList_append, comma]
    rintro _ ⟨⟩
    decide

theorem readValue_noItems (layout : Layout) (room fuel : Nat) (rest : List Char) :
    readValue room (fuel + 1) ((writeIn layout (.list [])).toList ++ rest) =
      (reread room (.list [])).map (·, rest) := by
  have text : (writeIn layout (.list [])).toList = ['[', ']'] := by
    rw [writeIn]
    rfl
  rw [text, reread]
  show readValue room (fuel + 1) ('[' :: ']' :: rest) = _
  rw [readValue]
  cases enter room .list <;> rfl

theorem readValue_noMembers (layout : Layout) (room fuel : Nat) (rest : List Char) :
    readValue room (fuel + 1) ((writeIn layout (.map [])).toList ++ rest) =
      (reread room (.map [])).map (·, rest) := by
  have text : (writeIn layout (.map [])).toList = ['\x7b', '\x7d'] := by
    rw [writeIn]
    rfl
  rw [text, reread]
  show readValue room (fuel + 1) ('\x7b' :: '\x7d' :: rest) = _
  rw [readValue]
  cases enter room .object <;> rfl

/-- A list is read as it was written if its first item and those behind it are. -/
theorem readValue_someItems {layout : Layout} {room fuel : Nat} {v : Value} {items : List Value}
    {rest : List Char}
    (first : ∀ room, readValue room fuel ((writeIn layout.deeper v).toList ++
      ((writeItems layout.deeper items).toList ++ (layout.edge.toList ++ ']' :: rest))) =
        (reread room v).map
        (·, (writeItems layout.deeper items).toList ++ (layout.edge.toList ++ ']' :: rest)))
    (later : ∀ room w,
      itemsAfter room fuel [w]
      ((writeItems layout.deeper items).toList ++ (layout.edge.toList ++ ']' :: rest)) =
      (rereadItems room items).map fun ws => ([w] ++ ws, rest)) :
    readValue room (fuel + 2) ((writeIn layout (.list (v :: items))).toList ++ rest) =
      (reread room (.list (v :: items))).map (·, rest) := by
  have start := skipSpace_leads layout.deeper.edge_blank (writeIn_leads layout.deeper v)
    ((writeItems layout.deeper items).toList ++ (layout.edge.toList ++ ']' :: rest))
  have some (more : List Char) : (writeIn layout.deeper v).toList ++
      ((writeItems layout.deeper items).toList ++ (layout.edge.toList ++ ']' :: rest)) ≠
      ']' :: more := by
    obtain ⟨c, cs, text, lead⟩ := writeIn_leads layout.deeper v
    rw [text]
    exact fun same => lead ((List.cons.inj same).1 ▸ List.mem_cons_self)
  rw [toList_writeList]
  simp only [List.cons_append, List.append_assoc, List.nil_append]
  rw [readValue_list room (fuel + 1) start some, reread]
  cases enter room .list with
  | error refusal => rfl
  | ok room =>
    simp only [Except.bind, readItems_succ, first, rereadItems, bind]
    cases reread room v with
    | error refusal => rfl
    | ok w =>
      simp only [Except.map, List.nil_append, later]
      cases rereadItems room items <;> rfl

/-- An object is read as it was written if the value of its first member and the
members behind it are. -/
theorem readValue_someMembers {layout : Layout} {room fuel : Nat} {k v : Value}
    {entries : List (Value × Value)} {rest : List Char}
    (first : ∀ room, readValue room fuel ((writeIn layout.deeper v).toList ++
      ((writeMembers layout.deeper entries).toList ++ (layout.edge.toList ++ '\x7d' :: rest))) =
        (reread room v).map
        (·, (writeMembers layout.deeper entries).toList ++ (layout.edge.toList ++ '\x7d' :: rest)))
    (later : ∀ room done, membersAfter room fuel done
      ((writeMembers layout.deeper entries).toList ++ (layout.edge.toList ++ '\x7d' :: rest)) =
        (rereadMembers room done entries).map (·, rest)) :
    readValue room (fuel + 2) ((writeIn layout (.map ((k, v) :: entries))).toList ++ rest) =
      (reread room (.map ((k, v) :: entries))).map (·, rest) := by
  obtain ⟨name, quote⟩ := memberChars_leads layout.deeper k v
  have start := skipSpace_leads layout.deeper.edge_blank ⟨'"', name, quote, by decide⟩
    ((writeMembers layout.deeper entries).toList ++ (layout.edge.toList ++ '\x7d' :: rest))
  have some (more : List Char) : memberChars layout.deeper k v ++
      ((writeMembers layout.deeper entries).toList ++ (layout.edge.toList ++ '\x7d' :: rest)) ≠
      '\x7d' :: more := by
    rw [quote]
    exact fun same => absurd (List.cons.inj same).1 (by decide)
  have value := skipSpace_start (writeIn_leads layout.deeper v)
    ((writeMembers layout.deeper entries).toList ++ (layout.edge.toList ++ '\x7d' :: rest))
  rw [toList_writeMap]
  simp only [List.cons_append, List.append_assoc, List.nil_append]
  rw [readValue_object room (fuel + 1) start some, reread]
  cases enter room .object with
  | error refusal => rfl
  | ok room =>
    simp only [Except.bind, memberChars, List.append_assoc, List.cons_append, readMembers_name,
      value, first, rereadMembers, bind]
    cases reread room v with
    | error refusal => rfl
    | ok w =>
      simp only [Except.map, later]
      cases rereadMembers room _ entries <;> rfl

mutual
/-- A written value is read as `reread` has it. -/
theorem readValue_writeIn (layout : Layout) (room : Nat) (v : Value) (fuel : Nat)
    (enough : 2 * (writeIn layout v).toList.length ≤ fuel) {rest : List Char} (ends : Ends rest) :
    readValue room fuel ((writeIn layout v).toList ++ rest) = (reread room v).map (·, rest) := by
  obtain ⟨fuel, rfl⟩ : ∃ n, fuel = n + 1 := by
    obtain ⟨c, more, start, -⟩ := writeIn_leads layout v
    rw [start, List.length_cons] at enough
    exact Nat.exists_eq_succ_of_ne_zero (by omega)
  match v with
  | .null =>
    have plain : Plain (writeIn layout .null) (.ok .null) :=
      .inl ⟨_, rfl, by simp [words, writeIn, writeScalar]⟩
    rw [plain.readValue room fuel ends, reread]
  | .bool b =>
    have plain : Plain (writeIn layout (.bool b)) (.ok (.bool b)) :=
      .inl ⟨_, rfl, by cases b <;> simp [words, writeIn, writeScalar]⟩
    rw [plain.readValue room fuel ends, reread]
  | .int n =>
    rw [writeIn, writeScalar, (plain_int n).readValue room fuel ends, reread, reread]
  | .float x =>
    rw [writeIn, writeScalar, (plain_double x).readValue room fuel ends, reread]
  | .text t =>
    obtain ⟨quoted, written, read⟩ := readString_writeString t rest
    rw [writeIn, written, readValue, read, reread]
    rfl
  | .list [] => exact readValue_noItems layout room fuel rest
  | .list (v :: items) =>
    rw [toList_writeList] at enough
    simp only [List.length_cons, List.length_append] at enough
    obtain ⟨fuel, rfl⟩ : ∃ n, fuel = n + 1 := Nat.exists_eq_succ_of_ne_zero (by omega)
    have blank := layout.edge_blank
    exact readValue_someItems
      (fun room => readValue_writeIn layout.deeper room v fuel (by omega)
        (ends_items layout.deeper items blank rest))
      fun room w => itemsAfter_writeItems layout.deeper room items fuel (by omega) blank [w] rest
  | .map [] => exact readValue_noMembers layout room fuel rest
  | .map ((k, v) :: entries) =>
    rw [toList_writeMap] at enough
    simp only [List.length_cons, List.length_append, memberChars] at enough
    obtain ⟨fuel, rfl⟩ : ∃ n, fuel = n + 1 := Nat.exists_eq_succ_of_ne_zero (by omega)
    have blank := layout.edge_blank
    exact readValue_someMembers
      (fun room => readValue_writeIn layout.deeper room v fuel (by omega)
        (ends_members layout.deeper entries blank rest))
      fun room done =>
        membersAfter_writeMembers layout.deeper room entries fuel (by omega) blank done rest
theorem itemsAfter_writeItems (layout : Layout) (room : Nat) (items : List Value) (fuel : Nat)
    (enough : 2 * (writeItems layout items).toList.length ≤ fuel) {gap : List Char}
    (blank : ∀ c ∈ gap, isSpace c = true)
    (done : List Value) (rest : List Char) :
    itemsAfter room fuel done ((writeItems layout items).toList ++ (gap ++ ']' :: rest)) =
      (rereadItems room items).map fun later => (done ++ later, rest) := by
  match items with
  | [] =>
    have ends : skipSpace (gap ++ ']' :: rest) = ']' :: rest :=
      (skipSpace_append blank _).trans (skipSpace_cons rfl _)
    rw [writeItems, rereadItems, itemsAfter]
    simp [ends, Except.map, pure, Except.pure]
  | v :: items =>
    obtain ⟨space, comma, gaps⟩ := layout.separator_blank
    rw [writeItems] at enough ⊢
    simp only [String.toList_append, comma, List.length_append, List.length_cons] at enough
    obtain ⟨fuel, rfl⟩ : ∃ n, fuel = n + 1 := Nat.exists_eq_succ_of_ne_zero (by omega)
    have leads :=
      skipSpace_leads gaps (writeIn_leads layout v)
        ((writeItems layout items).toList ++ (gap ++ ']' :: rest))
    have first :=
      readValue_writeIn layout room v fuel (by omega) (ends_items layout items blank rest)
    have later := itemsAfter_writeItems layout room items fuel (by omega) blank
    have start :
      skipSpace
      (((layout.separator ++ writeIn layout v) ++ writeItems layout items).toList ++
        (gap ++ ']' :: rest)) =
        ',' :: (space ++
          ((writeIn layout v).toList ++
            ((writeItems layout items).toList ++ (gap ++ ']' :: rest)))) := by
      simp only [String.toList_append, comma, List.cons_append, List.append_assoc]
      exact skipSpace_cons rfl _
    rw [itemsAfter, start]
    show readItems room (fuel + 1) done (skipSpace _) = _
    rw [leads, readItems_succ, first, rereadItems]
    cases reread room v with
    | error refusal => rfl
    | ok w =>
      show itemsAfter room fuel (done ++ [w]) _ = _
      rw [later (done ++ [w]) rest]
      cases rereadItems room items with
      | error refusal => rfl
      | ok ws => simp [Except.map, bind, Except.bind, pure, Except.pure]
theorem membersAfter_writeMembers (layout : Layout) (room : Nat)
    (entries : List (Value × Value)) (fuel : Nat)
    (enough : 2 * (writeMembers layout entries).toList.length ≤ fuel) {gap : List Char}
    (blank : ∀ c ∈ gap, isSpace c = true)
    (done : List (Value × Value)) (rest : List Char) :
    membersAfter room fuel done ((writeMembers layout entries).toList ++ (gap ++ '\x7d' :: rest)) =
      (rereadMembers room done entries).map (·, rest) := by
  match entries with
  | [] =>
    have ends : skipSpace (gap ++ '\x7d' :: rest) = '\x7d' :: rest :=
      (skipSpace_append blank _).trans (skipSpace_cons rfl _)
    rw [writeMembers, rereadMembers, membersAfter]
    simp [ends, Except.map, pure, Except.pure]
  | (k, v) :: entries =>
    obtain ⟨space, comma, gaps⟩ := layout.separator_blank
    rw [writeMembers] at enough ⊢
    simp only [String.toList_append, comma, List.length_append, List.length_cons] at enough
    obtain ⟨fuel, rfl⟩ : ∃ n, fuel = n + 1 := Nat.exists_eq_succ_of_ne_zero (by omega)
    have name := memberChars_leads layout k v
    have leads := skipSpace_leads gaps ⟨'"', name.choose, name.choose_spec, by decide⟩
      ((writeMembers layout entries).toList ++ (gap ++ '\x7d' :: rest))
    have value :=
      skipSpace_start (writeIn_leads layout v)
        ((writeMembers layout entries).toList ++ (gap ++ '\x7d' :: rest))
    have first :=
      readValue_writeIn layout room v fuel (by omega) (ends_members layout entries blank rest)
    have later := membersAfter_writeMembers layout room entries fuel (by omega) blank
    have start :
      skipSpace ((((layout.separator ++ writeString (keyName k)) ++ ": ") ++ writeIn layout v ++
        writeMembers layout entries).toList ++ (gap ++ '\x7d' :: rest)) =
        ',' :: (space ++
          (memberChars layout k v ++
            ((writeMembers layout entries).toList ++ (gap ++ '\x7d' :: rest)))) := by
      have colon : (": " : String).toList = [':', ' '] := rfl
      simp only [String.toList_append, comma, List.cons_append, List.append_assoc, memberChars,
        colon, List.nil_append]
      exact skipSpace_cons rfl _
    rw [membersAfter, start]
    show readMembers room (fuel + 1) done (skipSpace _) = _
    rw [leads, memberChars, List.append_assoc, List.cons_append, List.cons_append, readMembers_name,
      value, first, rereadMembers]
    cases reread room v with
    | error refusal => rfl
    | ok w => exact later _ rest
end

/-- A written text is read as `reread` has its value. -/
theorem readCharacters_writeIn (layout : Layout) (v : Value) :
    readCharacters (writeIn layout v).toList = reread depthLimit v := by
  obtain ⟨c, more, start, lead⟩ := writeIn_leads layout v
  have mark : ¬(writeIn layout v).toList.head? = some (Char.ofNat 0xFEFF) := by
    rw [start]
    exact fun same => lead (Option.some.inj same ▸ by decide)
  have top := skipSpace_start ⟨c, more, start, lead⟩ []
  have read := readValue_writeIn layout depthLimit v _ (Nat.le_succ _) (show Ends [] from nofun)
  rw [List.append_nil] at top read
  rw [readCharacters, if_neg mark, top, read]
  cases reread depthLimit v <;> rfl

theorem lineBreak_no_return (depth : Nat) : '\r' ∉ (lineBreak depth).toList := by
  simp [lineBreak, List.mem_replicate]

theorem Layout.edge_no_return (layout : Layout) : '\r' ∉ layout.edge.toList := by
  cases layout with
  | oneLine => decide
  | indented depth => exact lineBreak_no_return depth

theorem Layout.separator_no_return (layout : Layout) : '\r' ∉ layout.separator.toList := by
  cases layout with
  | oneLine => decide
  | indented depth => simpa [separator] using lineBreak_no_return depth

theorem writeScalar_no_return (v : Value) : '\r' ∉ (writeScalar v).toList := by
  cases v with
  | bool b => cases b <;> decide
  | int n => exact toString_int_no_return n
  | float x =>
    rw [writeScalar, writeDouble]
    repeat' split
    · decide
    · exact toText_no_return x
    · decide
    · decide
  | _ => simp [writeScalar]

mutual
/-- What is written has no carriage return in it, so that its lines are read as they are. -/
theorem writeIn_no_return (layout : Layout) (v : Value) : '\r' ∉ (writeIn layout v).toList := by
  match v with
  | .null | .bool _ | .int _ | .float _ =>
    rw [writeIn]
    exact writeScalar_no_return _
  | .text t =>
    rw [writeIn]
    exact writeString_no_return t
  | .list [] | .map [] =>
    rw [writeIn]
    decide
  | .list (v :: items) =>
    rw [toList_writeList]
    simpa using ⟨layout.deeper.edge_no_return, writeIn_no_return layout.deeper v,
      writeItems_no_return layout.deeper items,
      layout.edge_no_return⟩
  | .map ((k, v) :: entries) =>
    rw [toList_writeMap, memberChars]
    simpa using ⟨layout.deeper.edge_no_return, writeString_no_return (keyName k),
      writeIn_no_return layout.deeper v,
      writeMembers_no_return layout.deeper entries, layout.edge_no_return⟩
theorem writeItems_no_return (layout : Layout) (items : List Value) :
    '\r' ∉ (writeItems layout items).toList := by
  match items with
  | [] =>
    rw [writeItems]
    decide
  | v :: items =>
    rw [writeItems]
    simpa using ⟨layout.separator_no_return, writeIn_no_return layout v, writeItems_no_return layout items⟩
theorem writeMembers_no_return (layout : Layout) (entries : List (Value × Value)) :
    '\r' ∉ (writeMembers layout entries).toList := by
  match entries with
  | [] =>
    rw [writeMembers]
    decide
  | (k, v) :: entries =>
    rw [writeMembers]
    simpa using ⟨layout.separator_no_return, writeString_no_return (keyName k), writeIn_no_return layout v,
      writeMembers_no_return layout entries⟩
end

/-- A written value is refused only for being too deep or having too many digits. -/
def Refusal.isBound : Refusal → Bool
  | .malformed .. => false
  | .tooManyDigits _ | .tooDeep _ => true

section Refusals

def Bounded {α : Type} (x : Except Refusal α) : Prop :=
  ∀ refusal, x = .error refusal → refusal.isBound = true

theorem Bounded.ok {α : Type} (a : α) : Bounded (.ok a) := nofun

theorem Bounded.bind {α β : Type} {x : Except Refusal α} {next : α → Except Refusal β}
    (first : Bounded x)
    (later : ∀ a, Bounded (next a)) : Bounded (x >>= next) := by
  cases x with
  | error refusal =>
    rintro _ ⟨⟩
    exact first refusal rfl
  | ok a => exact later a

theorem bounded_enter (room : Nat) (container : Container) : Bounded (enter room container) := by
  cases room with
  | zero =>
    rintro _ ⟨⟩
    rfl
  | succ room => exact .ok room

mutual
theorem bounded_reread (room : Nat) (v : Value) : Bounded (reread room v) := by
  match v with
  | .null | .bool _ | .float _ | .text _ =>
    rw [reread]
    exact .ok _
  | .int n =>
    rw [reread]
    split
    · rintro _ ⟨⟩
      rfl
    · exact .ok _
  | .list items =>
    rw [reread]
    exact (bounded_enter room _).bind fun room =>
      (bounded_rereadItems room items).bind fun _ => .ok _
  | .map entries =>
    rw [reread]
    exact (bounded_enter room _).bind fun room =>
      (bounded_rereadMembers room [] entries).bind fun _ => .ok _
theorem bounded_rereadItems (room : Nat) (items : List Value) :
    Bounded (rereadItems room items) := by
  match items with
  | [] => exact .ok _
  | v :: items =>
    rw [rereadItems]
    exact (bounded_reread room v).bind fun _ => (bounded_rereadItems room items).bind fun _ => .ok _
theorem bounded_rereadMembers (room : Nat) (done entries : List (Value × Value)) :
    Bounded (rereadMembers room done entries) := by
  match entries with
  | [] => exact .ok _
  | (k, v) :: entries =>
    rw [rereadMembers]
    exact (bounded_reread room v).bind fun _ => bounded_rereadMembers room _ entries
end

end Refusals

/-- What the lines of a written value are read as. -/
theorem read_writeIndented (v : Value) :
    (∃ w, reread depthLimit v = .ok w ∧
      read (String.ofList (StateFile.normalLines (writeIndented v).toList)) = .ok w) ∨
    ∃ refusal problem, reread depthLimit v = .error refusal ∧
      read (String.ofList (StateFile.normalLines (writeIndented v).toList)) = .error problem ∧
      ∀ e, problem ≠ .malformed e := by
  have lines : StateFile.normalLines (writeIndented v).toList = (writeIndented v).toList :=
    StateFile.normalLines_eq (writeIn_no_return _ v)
  have characters : readCharacters (writeIndented v).toList = reread depthLimit v :=
    readCharacters_writeIn (.indented 0) v
  have bounded := bounded_reread depthLimit v
  rw [lines, read, String.toList_ofList, characters]
  cases again : reread depthLimit v with
  | ok w => exact .inl ⟨w, rfl, rfl⟩
  | error refusal =>
    refine .inr ?_
    cases refusal with
    | malformed problem remaining => cases bounded _ again
    | tooManyDigits count => exact ⟨_, .tooManyDigits count, rfl, rfl, nofun⟩
    | tooDeep container => exact ⟨_, .tooDeep container, rfl, rfl, nofun⟩

end Json
end LeadRules
