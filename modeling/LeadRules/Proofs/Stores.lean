import LeadRules.Engine
import LeadRules.Proofs.IsoText
import LeadRules.Proofs.Operation
import LeadRules.Proofs.OrderedMap

/-! The wire forms of the stores. A store is read from its wire form with the same entries in the
same order, so long as its keys are texts, as those of an engine are. -/
namespace LeadRules

theorem Text.ofString_inj {a b : String} : Text.ofString a = Text.ofString b ↔ a = b := by
  refine ⟨fun same => ?_, congrArg _⟩
  have points : a.toList.map Point.char = b.toList.map Point.char := congrArg Text.points same
  exact String.toList_inj.1 (List.map_injective_iff.2 (fun _ _ => Point.char.inj) points)

namespace Value

theorem lookup_record (key : Text) (entries : List (Text × Value)) :
    lookup key (entries.map fun (k, v) => (text k, v)) = Entries.get? key entries := by
  induction entries with
  | nil => rfl
  | cons e rest ih =>
    rw [Entries.get?_cons, ← ih]
    by_cases same : e.1 = key <;> simp [lookup, same]

theorem member_record (key : Text) (fields : List (Text × Value)) :
    member key (fields.map fun (k, v) => (text k, v)) = (Entries.get? key fields).getD null := by
  rw [member, lookup_record]

theorem subscript_record {key : Text} {fields : List (Text × Value)} {v : Value}
    (found : Entries.get? key fields = some v) : (record fields).subscript key = .ok v := by
  simp only [record, subscript, required, lookup_record, found]

@[simp] theorem asKey_text (t : Text) : (text t).asKey = .ok (.ofText t) := rfl

end Value

theorem EdgeState.ofWire_toWire (s : EdgeState) : ofWire s.toWire = .ok s := by
  let fields : List (Text × Value) := [
    ("lead_id", s.lead), ("rule_id", s.rule), ("last_observed_score", s.score),
    ("last_observed_score_from", s.scoreFrom), ("last_observed_stage", s.stage),
    ("last_observed_stage_from", s.stageFrom), ("idle_marker", .ofDateTime? s.idleMarker),
    ("fired_at", .ofDateTime? s.firedAt)]
  have data : s.toWire.members = .ok (fields.map fun (k, v) => (.text k, v)) := rfl
  have lead : s.toWire.subscript "lead_id" = .ok s.lead :=
    Value.subscript_record (show Entries.get? _ fields = _ by simp [fields, Entries.get?_cons])
  have rule : s.toWire.subscript "rule_id" = .ok s.rule :=
    Value.subscript_record
      (show Entries.get? _ fields = _ by simp [fields, Entries.get?_cons, Text.ofString_inj])
  simp only [ofWire, lead, rule, data, Value.member_record, bind, Except.bind]
  simp [fields, Entries.get?_cons, Text.ofString_inj, toDateTime?_ofDateTime?]
  rfl

/-- Storing the entries of a map one after the other makes the map again. -/
theorem OrderedMap.foldl_putWritten {κ φ ν : Type} [DecidableEq κ] (m : OrderedMap κ (φ × ν)) :
    m.entries.foldl (fun k e => k.putWritten e.1 e.2.1 e.2.2) .empty = m := by
  suffices rest : ∀ (entries : List (κ × φ × ν)) (k : OrderedMap κ (φ × ν)),
    k.entries ++ entries = m.entries →
      entries.foldl (fun k e => k.putWritten e.1 e.2.1 e.2.2) k = m from rest m.entries .empty rfl
  intro entries
  induction entries with
  | nil =>
    intro k whole
    rw [List.append_nil] at whole
    exact eq_of_entries whole
  | cons e rest ih =>
    intro k whole
    have fresh : e.1 ∉ k.keys := by
      have distinct := m.distinct
      rw [← whole, List.map_append, List.nodup_append] at distinct
      exact fun member => distinct.2.2 _ member _ (List.mem_map_of_mem List.mem_cons_self) rfl
    have none : k.get? e.1 = none := Entries.get?_eq_none fresh
    have put : (k.putWritten e.1 e.2.1 e.2.2).entries = k.entries ++ [e] := by
      rw [putWritten, none]
      exact Entries.put_of_absent fresh _
    exact ih _ (by rw [put, List.append_assoc, List.singleton_append, whole])

/-- Reading entry by entry rebuilds a map, when reading one adds it under its own key. -/
theorem OrderedMap.rebuild {κ φ ν : Type} [DecidableEq κ]
    (read : OrderedMap κ (φ × ν) → List Value → Except Fault (OrderedMap κ (φ × ν)))
    {write : κ × φ × ν → Value}
    {P : κ × φ × ν → Prop} (done : ∀ m, read m [] = .ok m)
    (next : ∀ m e rest, P e → read m (write e :: rest) = read (m.putWritten e.1 e.2.1 e.2.2) rest)
    {m : OrderedMap κ (φ × ν)} (regular : ∀ e ∈ m.entries, P e) :
    read .empty (m.entries.map write) = .ok m := by
  have each (entries : List (κ × φ × ν)) (regular : ∀ e ∈ entries, P e) (k : OrderedMap κ (φ × ν)) :
      read k (entries.map write) =
        .ok (entries.foldl (fun k e => k.putWritten e.1 e.2.1 e.2.2) k) := by
    induction entries generalizing k with
    | nil => exact done k
    | cons e rest ih =>
      rw [List.map_cons, next k e _ (regular e List.mem_cons_self),
        ih fun e member => regular e (List.mem_cons_of_mem _ member)]
      rfl
  rw [each m.entries regular, foldl_putWritten]

namespace EdgeStore

def IsTextual : (Key × Key) × EdgeKey × EdgeState → Prop
  | (identity, key, s) => ∃ lead rule : Text, key = .ofTexts lead rule ∧
    identity = (EdgeKey.ofTexts lead rule).identity ∧ s.lead = .text lead ∧ s.rule = .text rule

/-- Whether all states stand under texts. -/
def Textual (s : EdgeStore) : Prop := ∀ e ∈ s.states.entries, IsTextual e

theorem loadStates_toWire {s : EdgeStore} (textual : s.Textual) :
    (s.toWire.iterate >>= loadStates .empty) = .ok s.states := by
  have wire : s.toWire = .list (s.states.entries.map fun e => e.2.2.toWire) := by
    simp [toWire, OrderedMap.values, Function.comp_def]
  rw [wire]
  refine OrderedMap.rebuild loadStates (P := IsTextual) (fun _ => rfl) ?_ textual
  rintro m ⟨identity, key, state⟩ rest ⟨lead, rule, rfl, rfl, leads, rules⟩
  simp only [loadStates, EdgeState.ofWire_toWire, bind, Except.bind, leads, rules, Value.asKey_text]
  rfl

theorem mem_of_get (s : EdgeStore) (key : EdgeKey) :
    (∃ held, (key.identity, held, s.get key) ∈ s.states.entries) ∨
    (s.states.get? key.identity = none ∧ s.get key = .fresh key.1.value key.2.value) := by
  unfold EdgeStore.get
  cases found : s.states.get? key.identity with
  | none => exact .inr ⟨rfl, rfl⟩
  | some held => exact .inl ⟨held.1, Entries.mem_of_get? found⟩

/-- The state of texts names them, also where there was none before. -/
theorem Textual.named_get {s : EdgeStore} (textual : s.Textual) (lead rule : Text) :
    (s.get (.ofTexts lead rule)).lead = .text lead ∧
    (s.get (.ofTexts lead rule)).rule = .text rule := by
  rcases mem_of_get s (.ofTexts lead rule) with ⟨held, member⟩ | ⟨-, fresh⟩
  · obtain ⟨lead', rule', -, same, leads, rules⟩ := textual _ member
    obtain ⟨⟨⟩, ⟨⟩⟩ := same
    exact ⟨leads, rules⟩
  · rw [fresh]
    exact ⟨rfl, rfl⟩

/-- A state that is stored under the texts it names stands among textual ones. -/
theorem Textual.put {s : EdgeStore} (textual : s.Textual) {lead rule : Text} {state : EdgeState}
    (named : state.lead = .text lead ∧ state.rule = .text rule)
    {e : (Key × Key) × EdgeKey × EdgeState}
    (member :
      e ∈ (s.states.putWrittenLast (EdgeKey.ofTexts lead rule).identity
        (.ofTexts lead rule) state).entries) :
    IsTextual e := by
  rcases OrderedMap.mem_putWrittenLast member with old | rfl
  · exact textual e old
  · refine ⟨lead, rule, ?_, rfl, named⟩
    cases found : s.states.get? (EdgeKey.ofTexts lead rule).identity with
    | none => rfl
    | some held =>
      obtain ⟨lead', rule', key, same, -⟩ := textual _ (Entries.mem_of_get? found)
      obtain ⟨⟨⟩, ⟨⟩⟩ := same
      exact key

/-- A step that keeps lead and rule keeps the states textual. -/
theorem Textual.transition {s : EdgeStore} (textual : s.Textual) (lead rule : Text)
    (step : EdgeState → Bool × EdgeChange) :
    (s.transition (.ofTexts lead rule) step).store.Textual := by
  have named (c : EdgeChange) : ((s.get (.ofTexts lead rule)).apply c).lead = .text lead ∧
      ((s.get (.ofTexts lead rule)).apply c).rule = .text rule := textual.named_get lead rule
  unfold EdgeStore.transition
  simp only
  split
  · exact fun e member => textual.put (named _) (OrderedMap.mem_entries_boundTo member)
  · exact textual

end EdgeStore

namespace Ledger

def IsTextual : (Key × Key × Key) × LedgerKey × Value → Prop
  | (identity, key, _) => ∃ lead rule event : Text, key = .ofTexts lead rule event ∧
    identity = (LedgerKey.ofTexts lead rule event).identity

def Textual (l : Ledger) : Prop := ∀ e ∈ l.processed.entries, IsTextual e

theorem loadRecords_toWire {l : Ledger} (textual : l.Textual) :
    (l.toWire.iterate >>= loadRecords .empty) = .ok l.processed := by
  let write (e : (Key × Key × Key) × LedgerKey × Value) : Value := .record [
    ("lead_id", e.2.1.1.value), ("rule_id", e.2.1.2.1.value), ("event_id", e.2.1.2.2.value),
    ("processed_at", e.2.2)]
  have wire : l.toWire = .list (l.processed.entries.map write) := by
    simp [toWire, OrderedMap.values, Function.comp_def, write]
  rw [wire]
  refine OrderedMap.rebuild loadRecords (P := IsTextual) (fun _ => rfl) ?_ textual
  rintro m ⟨identity, key, time⟩ rest ⟨lead, rule, event, rfl, rfl⟩
  let fields : List (Text × Value) := [
    ("lead_id", .text lead), ("rule_id", .text rule), ("event_id", .text event),
    ("processed_at", time)]
  have record :
    write ((LedgerKey.ofTexts lead rule event).identity, .ofTexts lead rule event, time) =
      .record fields := rfl
  have leads : (Value.record fields).subscript "lead_id" = .ok (.text lead) :=
    Value.subscript_record (by simp [fields, Entries.get?_cons])
  have rules : (Value.record fields).subscript "rule_id" = .ok (.text rule) :=
    Value.subscript_record (by simp [fields, Entries.get?_cons, Text.ofString_inj])
  have events : (Value.record fields).subscript "event_id" = .ok (.text event) :=
    Value.subscript_record (by simp [fields, Entries.get?_cons, Text.ofString_inj])
  have times : (Value.record fields).subscript "processed_at" = .ok time :=
    Value.subscript_record (by simp [fields, Entries.get?_cons, Text.ofString_inj])
  rw [record, loadRecords, leads, rules, events, times]
  rfl

theorem Textual.record {l : Ledger} (textual : l.Textual) (lead rule event : Text)
    (time : DateTime) :
    (l.record (.ofTexts lead rule event) time).Textual := by
  intro e member
  rcases OrderedMap.mem_putWritten (OrderedMap.mem_entries_boundTo member) with old | rfl
  · exact textual e old
  · refine ⟨lead, rule, event, ?_, rfl⟩
    cases found : l.processed.get? (LedgerKey.ofTexts lead rule event).identity with
    | none => rfl
    | some held =>
      obtain ⟨lead', rule', event', key, same⟩ := textual _ (Entries.mem_of_get? found)
      obtain ⟨⟨⟩, ⟨⟩, ⟨⟩⟩ := same
      exact key

end Ledger

namespace CursorStore

theorem loadCursors_toWire (entries : List (Text × Int)) :
    loadCursors (entries.map fun (team, n) => (.text team, .int n)) = .ok entries := by
  induction entries with
  | nil => rfl
  | cons e rest ih =>
    rw [List.map_cons, loadCursors, ih]
    rfl

/-- A store is opened from its wire form as it was. -/
theorem load_toWire {s : CursorStore} {h k : Host}
    (read : StateFile.load s.path (.map []) h = (.ok s.toWire, k)) :
    load s.path h = (.ok s, k) := by
  have entries : OrderedMap.ofList s.cursors.entries = s.cursors :=
    OrderedMap.eq_of_entries (OrderedMap.entries_ofList s.cursors.entries s.cursors.distinct)
  simp only [load, Op.run_bind, read]
  simp only [toWire, Value.record, List.map_map, Function.comp_def, loadCursors_toWire, Op.run_bind,
    Op.run_ofExcept, Op.run_pure, entries]

end CursorStore
end LeadRules
