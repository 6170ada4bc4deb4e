import LeadRules.Proofs.Execution
import LeadRules.Proofs.Files
import LeadRules.Proofs.Stores
import LeadRules.Proofs.ZonedText
import LeadRules.Segment

/-! Snapshots of leads on the wire. Reading makes each part of a lead into a form that it reads as
it stands, so that the payload of a webhook is read as the lead that it was made of. Of a time its
instant is kept, in whatever way that was written. -/
namespace LeadRules

theorem Value.asKey_key {v : Value} {key : WrittenKey} (given : v.asKey = .ok key) :
    Key.ofValue? key.value = some key.key := by
  unfold asKey at given
  split at given
  next found =>
    cases given
    exact found
  · cases given

/-- What is read of each item has a property if it has it of any value. -/
theorem Admits.mapM {ε α β : Type} {P : β → Prop} {read : α → Except ε β}
    (each : ∀ a, Admits P (read a)) (items : List α) :
    Admits (fun l => ∀ b ∈ l, P b) (items.mapM read) := by
  induction items with
  | nil =>
    rintro _ ⟨⟩
    exact nofun
  | cons a rest ih =>
    rw [List.mapM_cons]
    exact .bind fun b first => .bind fun l later =>
      .ok (List.forall_mem_cons.2 ⟨each a b first, ih l later⟩)

theorem mapM_map {ε α β γ : Type} {item : α → β} {read : β → Except ε γ} {made : α → γ}
    {items : List α}
    (each : ∀ a ∈ items, read (item a) = .ok (made a)) :
    (items.map item).mapM read = .ok (items.map made) := by
  induction items with
  | nil => rfl
  | cons a rest ih =>
    rw [List.map_cons, List.mapM_cons, each a List.mem_cons_self,
      ih fun a member => each a (List.mem_cons_of_mem _ member)]
    rfl

namespace Mapping

/-- A mapping each of whose keys is the key that its written form makes. -/
def Written (m : Mapping) : Prop := ∀ e ∈ m.entries, Key.ofValue? e.2.1 = some e.1

theorem Written.put {m : Mapping} (written : m.Written) {key : WrittenKey}
    (own : Key.ofValue? key.value = some key.key) (v : Value) :
    Written (m.putWritten key.key key.value v) := by
  intro e member
  rcases OrderedMap.mem_putWritten member with old | rfl
  · exact written e old
  · cases found : m.get? key.key with
    | none => exact own
    | some held =>
      show Key.ofValue? held.1 = some key.key
      have there : (key.key, held) ∈ m.entries := Entries.mem_of_get? found
      exact written (key.key, held) there

theorem written_ofList {entries : List (WrittenKey × Value)}
    (own : ∀ e ∈ entries, Key.ofValue? e.1.value = some e.1.key) :
    Written (ofList entries) := by
  suffices grown : ∀ m : Mapping, m.Written →
    Written (entries.foldl (fun m e => m.putWritten e.1.key e.1.value e.2) m) from
    grown .empty fun _ member => absurd member List.not_mem_nil
  induction entries with
  | nil => exact fun _ => id
  | cons e rest ih =>
    intro m written
    exact ih (fun e member => own e (List.mem_cons_of_mem _ member)) _
      (written.put (own e List.mem_cons_self) e.2)

end Mapping

namespace Value

theorem asPair_own (index : Nat) (v : Value) :
    Admits (fun e => Key.ofValue? e.1.value = some e.1.key) (v.asPair index) := by
  unfold asPair
  split
  · exact .bind fun key given => .ok (asKey_key given)
  · exact .error _
  · exact .error _

theorem asPairs_own (index : Nat) (items : List Value) :
    Admits (fun l => ∀ e ∈ l, Key.ofValue? e.1.value = some e.1.key) (asPairs index items) := by
  induction items generalizing index with
  | nil => exact .ok nofun
  | cons v rest ih =>
    exact .bind fun e first => .bind fun l later =>
      .ok (List.forall_mem_cons.2 ⟨asPair_own index v e first, ih (index + 1) l later⟩)

theorem asMapping_written (v : Value) : Admits Mapping.Written v.asMapping := by
  unfold asMapping
  split
  · refine .bind fun entries read => .ok (Mapping.written_ofList ?_)
    have own (e : Value × Value) :
      Admits (fun e : WrittenKey × Value => Key.ofValue? e.1.value = some e.1.key)
        (do return (← e.1.asKey, e.2)) := .bind fun key given => .ok (asKey_key given)
    exact Admits.mapM own _ entries read
  · exact .bind fun items _ => .bind fun entries read =>
      .ok (Mapping.written_ofList (asPairs_own 0 items entries read))

/-- A mapping is made of its wire form. -/
theorem asMapping_toWire {m : Mapping} (written : m.Written) : m.toWire.asMapping = .ok m := by
  have read :
    (m.entries.map (·.2)).mapM
    (fun e => (do return (← e.1.asKey, e.2) : Except Fault (WrittenKey × Value))) =
      .ok (m.entries.map fun e => (⟨e.1, e.2.1⟩, e.2.2)) :=
    mapM_map fun e member => by rw [asKey, written e member]; rfl
  show ((m.entries.map (·.2)).mapM _ >>= _) = _
  rw [read]
  show Except.ok (Mapping.ofList _) = _
  rw [Mapping.ofList, List.foldl_map]
  exact congrArg _ (OrderedMap.foldl_putWritten m)

theorem itemsOrNone_list (items : List Value) : (list items).itemsOrNone = .ok items := by
  cases items <;> rfl

end Value

namespace Lead

theorem ofWire_written (v : Value) : Admits (fun l => l.customFields.Written) (ofWire v) := by
  refine .bind fun data _ => .bind fun id _ => .bind fun tags _ =>
    .bind fun customFields given => ?_
  refine .bind fun lastActivityAt _ => .bind fun createdAt _ => .ok ?_
  exact Value.asMapping_written _ customFields given

/-- A lead is read of its wire form as it is. -/
theorem ofWire_toWire {l : Lead} (written : l.customFields.Written) : ofWire l.toWire = .ok l := by
  let fields : List (Text × Value) := [
    ("id", .text l.id), ("name", l.name), ("email", l.email), ("phone", l.phone), ("city", l.city),
    ("course", l.course), ("company", l.company), ("source", l.source), ("stage", l.stage),
    ("score", l.score), ("dealValue", l.dealValue), ("campaign", l.campaign),
    ("tags", .list l.tags), ("assignedToId", .ofText? l.assignedTo),
    ("followUpStatus", l.followUpStatus), ("customFields", l.customFields.toWire),
    ("lastActivityAt", .ofDateTime? l.lastActivityAt), ("createdAt", .ofDateTime? l.createdAt)]
  show ofWire (.record fields) = .ok l
  simp only [ofWire, Value.record, Value.members, Value.required, Value.lookup_record,
    Value.member_record, bind, Except.bind]
  simp [fields, Entries.get?_cons, Text.ofString_inj, toDateTime?_ofDateTime?,
    Value.itemsOrNone_list, Value.asMapping_toWire written]
  refine congrArg (fun assignedTo => (.ok { l with assignedTo } : Except Fault Lead)) ?_
  cases l.assignedTo <;> rfl

end Lead

theorem Text.ofString_append (a b : String) :
    Text.ofString (a ++ b) = Text.ofString a ++ Text.ofString b := by
  refine congrArg Text.mk ?_
  rw [String.toList_append, List.map_append]
  rfl

theorem spellOutZulu_concat (a b : Text) :
    spellOutZulu (a ++ b) = spellOutZulu a ++ spellOutZulu b :=
  congrArg Text.mk List.flatMap_append

/-- A time is decoded by its instant. -/
theorem Stamp.toDateTime_of_instant {s : Stamp} {t : DateTime} (same : s.instant = t.micros) :
    s.toDateTime = .ok t := by
  rw [toDateTime, toDateTime?, same, t.ofMicros?_micros]

theorem Value.toDateTime?_of_read {v : Value} {s : Stamp}
    (read : Iso.read (spellOutZulu v.toText) = .ok s) :
    v.toDateTime? = s.toDateTime.map some := by
  have given : v.isBlank = false := by
    refine Bool.eq_false_iff.2 fun blank => ?_
    have none : (Iso.read (spellOutZulu v.toText)).toOption = none := by
      rcases of_decide_eq_true blank with rfl | rfl <;> decide +kernel
    rw [read] at none
    cases none
  simp only [toDateTime?, given, Iso.readTime, read, Except.mapError, bind, Except.bind]
  cases s.toDateTime <;> rfl

/-- No letter but that between date and time stands in the text of a time. -/
theorem Stamp.zulu_notMem_isoText (s : Stamp) : ∀ c ∈ s.isoText.toList, c ≠ 'Z' := by
  have plain {c : Char} {marks : List Char} (known : c.isDigit = true ∨ c ∈ marks)
      (others : 'Z' ∉ marks) : c ≠ 'Z' := by
    rintro rfl
    exact known.elim (absurd · (by decide)) others
  intro c member
  obtain ⟨wall, offset⟩ := s
  rw [isoText, String.toList_append, List.mem_append] at member
  rcases member with wall | zone
  · exact plain (mem_isoText wall) (by decide)
  · cases offset with
    | none => cases zone
    | some offset =>
      rw [Iso.toList_offsetText, List.mem_cons] at zone
      rcases zone with rfl | shift
      · exact (Iso.zoneSign_marks offset).2.2.1
      · have marks : c.isDigit = true ∨ c ∈ [':', '.'] := by simpa using Iso.mem_shiftChars shift
        exact plain marks (by decide)

/-- The text of a time with an offset is decoded as that instant. -/
theorem Value.toDateTime?_isoText {s : Stamp} {t : DateTime} (isRead : s.IsRead)
    (same : s.instant = t.micros) :
    (text s.isoText).toDateTime? = .ok (some t) := by
  have filled : s.isoText.toList ≠ [] := by
    rw [Stamp.isoText, String.toList_append]
    exact List.append_ne_nil_of_left_ne_nil (isoText_ne_nil s.wall) _
  exact toDateTime?_text filled s.zulu_notMem_isoText (read_stampText isRead)
    (Stamp.toDateTime_of_instant same)

/-- So is one with the letter for no offset behind it. -/
theorem Value.toDateTime?_zulu (t : DateTime) :
    (text (t.isoText ++ "Z" : String)).toDateTime? = .ok (some t) := by
  have zone : Stamp.isoText ⟨t, some 0⟩ = t.isoText ++ "+00:00" :=
    congrArg (t.isoText ++ ·) (by decide : Iso.offsetText 0 = "+00:00")
  have spelled : spellOutZulu (t.isoText ++ "Z" : String) = (t.isoText ++ "+00:00" : String) := by
    have plain : ∀ c ∈ t.isoText.toList, c ≠ 'Z' := by
      rw [← (String.append_empty : t.isoText ++ "" = t.isoText)]
      exact Stamp.zulu_notMem_isoText ⟨t, none⟩
    have letter : spellOutZulu "Z" = "+00:00" := by decide
    rw [Text.ofString_append, spellOutZulu_concat, spellOutZulu_of_plain plain, letter,
      ← Text.ofString_append]
  have read :
      Iso.read (spellOutZulu (text (t.isoText ++ "Z" : String)).toText) = .ok ⟨t, some 0⟩ := by
    refine (congrArg Iso.read (spelled.trans (congrArg _ zone.symm))).trans (read_stampText ?_)
    rintro _ ⟨⟩
    exact ⟨by decide, .inl rfl⟩
  rw [toDateTime?_of_read read, Stamp.toDateTime_of_instant (t := t) (by simp [Stamp.instant])]
  rfl

namespace Executor

/-- A webhook on a lead returns, with a request that carries the lead's wire form. -/
theorem execute_webhook (url : Text) (lead : Lead) (rule : Value) (x : Executor) (h : Host) :
    ∃ result s request,
    execute (.sendWebhook url) lead rule (x, h) = (.ok result, s) ∧
      result.outcome.request? = some request ∧
      request.effect = .webhook url lead.toWire := by
  have asked :
      resolve lead (.sendWebhook url) (x, h) = (.ok (.ok (.webhook url lead.toWire)), (x, h)) := rfl
  obtain ⟨outcome, y, k, performed, performance⟩ := perform_run (.sendWebhook url) lead x h
  rw [execute_run, performed]
  cases performance with
  | faulty asked' => cases asked.symm.trans asked'
  | unresolved asked' => cases asked.symm.trans asked'
  | done asked' =>
    cases asked.symm.trans asked'
    exact ⟨_, _, _, rfl, rfl, rfl⟩
  | refused asked' =>
    cases asked.symm.trans asked'
    exact ⟨_, _, _, rfl, rfl, rfl⟩

end Executor

/-- A lead that was read comes back from its wire form as it is, so that it does from the
payload of any webhook, and what is decoded there has the same idle reference and meets the
same conditions. Its times are decoded by their instants: two texts of the same instant
come to the same time or the same fault, and every offset, as well as the letter for none,
is a way to write it. -/
theorem Lead.snapshot_survives {v : Value} {l : Lead} (read : ofWire v = .ok l) :
    ofWire l.toWire = .ok l ∧
    (∀ url rule x h, ∃ result s request payload, Executor.execute (.sendWebhook url) l rule (x, h) =
      (.ok result, s) ∧
      result.outcome.request? = some request ∧ request.effect = .webhook url payload ∧
      ofWire payload = .ok l) ∧
    (∀ decoded, ofWire l.toWire = .ok decoded → decoded.idleReference = l.idleReference ∧
      ∀ catalog c h, Segment.check catalog decoded c h = Segment.check catalog l c h) ∧
    (∀ (v w : Value) (a b : Stamp), Iso.read (spellOutZulu v.toText) = .ok a →
      Iso.read (spellOutZulu w.toText) = .ok b →
      a.instant = b.instant → v.toDateTime? = w.toDateTime?) ∧
    ∀ (t : DateTime) (s : Stamp), s.IsRead → s.instant = t.micros →
      (Value.text s.isoText).toDateTime? = .ok (some t) ∧
      (Value.text (t.isoText ++ "Z" : String)).toDateTime? = .ok (some t) := by
  have survives : ofWire l.toWire = .ok l := ofWire_toWire (ofWire_written v l read)
  refine ⟨survives, fun url rule x h => ?_, fun decoded again => ?_,
    fun v w a b first second same => ?_, fun t s isRead same => ?_⟩
  · obtain ⟨result, s, request, run, asked, effect⟩ := Executor.execute_webhook url l rule x h
    exact ⟨result, s, request, l.toWire, run, asked, effect, survives⟩
  · obtain rfl := Except.ok.inj (survives.symm.trans again)
    exact ⟨rfl, fun _ _ _ => rfl⟩
  · rw [Value.toDateTime?_of_read first, Value.toDateTime?_of_read second, Stamp.toDateTime,
      Stamp.toDateTime, Stamp.toDateTime?, Stamp.toDateTime?, same]
  · exact ⟨Value.toDateTime?_isoText isRead same, Value.toDateTime?_zulu t⟩

def oddlySent : Value := .record [
  ("id", .int 7), ("assignedToId", .float (.ofNat 1)), ("tags", .record [("vip", .null)]),
  ("customFields", .list [.list [.int 1, .text "x"], .list [.bool true, .text "y"], .text "ab"]),
  ("lastActivityAt", .text "20240601T100000Z"), ("createdAt", .text "2024-06-01T12:00:00+02:00")]

theorem morning_lt : 63852832800000000 < DateTime.limit := by decide

def morning : DateTime := ⟨63852832800000000, morning_lt⟩

def oddLead : Lead where
  id := "7"
  tags := [.text "vip"]
  assignedTo := some "1.0"
  customFields := .ofList [(⟨.whole 1, .int 1⟩, .text "y"), (⟨.text "a", .text "a"⟩, .text "b")]
  lastActivityAt := some morning
  createdAt := some morning

theorem Lead.snapshot_survives_oddlySent :
    ofWire oddlySent = .ok oddLead ∧ ofWire oddLead.toWire = .ok oddLead ∧
    (Value.text "20240601T100000Z").toDateTime? =
      (Value.text "2024-06-01T12:00:00+02:00").toDateTime? ∧
    (Value.text (morning.isoText ++ "Z" : String)).toDateTime? = .ok (some morning) := by
  have read : ofWire oddlySent = .ok oddLead := StateFile.of_toOption (by decide +kernel)
  obtain ⟨survives, -, -, same, spelled⟩ := snapshot_survives read
  have zulu :
      Iso.read (spellOutZulu (Value.text "20240601T100000Z").toText) = .ok ⟨morning, some 0⟩ :=
    StateFile.of_toOption (by decide +kernel)
  have zoned : Iso.read (spellOutZulu (Value.text "2024-06-01T12:00:00+02:00").toText) =
      .ok ⟨⟨63852840000000000, by decide⟩, some 7200000000⟩ :=
        StateFile.of_toOption (by decide +kernel)
  exact ⟨read, survives, same _ _ _ _ zulu zoned (by decide), (spelled morning ⟨morning, none⟩ nofun rfl).2⟩

end LeadRules
