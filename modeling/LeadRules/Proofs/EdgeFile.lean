import LeadRules.Proofs.CursorFile
import LeadRules.Proofs.EdgeStates
import LeadRules.Proofs.Places
import LeadRules.Proofs.Stores

/-! The edge states and their file. A file tells when a rule fired for a lead, and as long as
a store keeps that it is not ahead of its file: what it has changed is either written or
known to be missing there. -/
namespace LeadRules

theorem Text.unsplit_ofString (s : String) : (Text.ofString s).Unsplit := by
  show List.IsChain _ (s.toList.map Point.char)
  rw [List.isChain_map]
  exact (List.pairwise_of_forall fun _ _ => rfl).isChain

theorem OrderedMap.get?_boundTo {κ ν : Type} [DecidableEq κ] {m : OrderedMap κ ν}
    {bound : Int} {key : κ}
    (kept : key ∉ m.keys.take (m.excess bound)) : (m.boundTo bound).get? key = m.get? key := by
  have absent : Entries.get? key (m.entries.take (m.excess bound)) = none :=
    Entries.get?_eq_none (by rwa [List.map_take])
  have whole :
    Entries.get? key (m.entries.take (m.excess bound) ++ m.entries.drop (m.excess bound)) =
      Entries.get? key (m.entries.drop (m.excess bound)) := by
    rw [Entries.get?_append, absent, Option.none_or]
  rw [List.take_append_drop] at whole
  exact whole.symm

namespace Json

variable {room : Nat} {w : Value} {fields done : List (Text × Value)}
  {members : List (Value × Value)}

def FieldRead (room : Nat) (f f' : Text × Value) : Prop := f'.1 = f.1 ∧ reread room f.2 = .ok f'.2

theorem rereadMembers_record (distinct : ((done ++ fields).map (·.1)).Nodup)
    (unsplit : ∀ f ∈ fields, f.1.Unsplit)
    (again : rereadMembers room (done.map fun f => (.text f.1, f.2))
      (fields.map fun f => (.text f.1, f.2)) = .ok members) :
    ∃ fields', members = (done ++ fields').map (fun f => (.text f.1, f.2)) ∧
      List.Forall₂ (FieldRead room) fields fields' := by
  induction fields generalizing done with
  | nil =>
    rw [List.map_nil, rereadMembers] at again
    cases again
    exact ⟨[], by rw [List.append_nil], .nil⟩
  | cons f rest ih =>
    obtain ⟨name, v⟩ := f
    have key : (keyName (.text name)).joined = name :=
      Text.joined_of_unsplit (unsplit _ List.mem_cons_self)
    have fresh : Value.text name ∉ (done.map fun f => (Value.text f.1, f.2)).map (·.1) := by
      intro member
      rw [List.map_map, List.mem_map] at member
      obtain ⟨f, there, same⟩ := member
      rw [List.map_append, List.nodup_append] at distinct
      exact distinct.2.2 _ (List.mem_map_of_mem there) _ List.mem_cons_self (Value.text.inj same)
    rw [List.map_cons, rereadMembers] at again
    cases value : reread room v with
    | error refusal =>
      rw [value] at again
      cases again
    | ok v' =>
      rw [value] at again
      replace again : rereadMembers room (Entries.put _ _ _) _ = _ := again
      rw [key, Entries.put_of_absent fresh] at again
      have grown : (done.map fun f => (Value.text f.1, f.2)) ++ [(.text name, v')] =
          (done ++ [(name, v')]).map fun f => (.text f.1, f.2) := by simp
      rw [grown] at again
      obtain ⟨fields', rfl, read⟩ :=
        ih (by simpa using distinct)
          (fun f member => unsplit f (List.mem_cons_of_mem _ member)) again
      exact ⟨(name, v') :: fields', by simp, .cons ⟨rfl, value⟩ read⟩

/-- A record is read field by field. -/
theorem reread_record (fields : List (Text × Value)) (distinct : (fields.map (·.1)).Nodup)
    (unsplit : ∀ f ∈ fields, f.1.Unsplit)
    (again : reread room (.record fields) = .ok w) :
    ∃ inner fields', w = .record fields' ∧ List.Forall₂ (FieldRead inner) fields fields' := by
  rw [Value.record, reread] at again
  rcases entered : enter room .object with refusal | inner <;> rw [entered] at again
  · cases again
  replace again : (rereadMembers inner [] (fields.map _) >>= _) = _ := again
  rcases read : rereadMembers inner []
    (fields.map fun f => (.text f.1, f.2)) with refusal | members <;> rw [read] at again
  · cases again
  cases again
  obtain ⟨fields', rfl, each⟩ := rereadMembers_record (by rwa [List.nil_append]) unsplit read
  exact ⟨inner, fields', rfl, each⟩

theorem get?_read {fields' : List (Text × Value)} {v : Value} (key : Text)
    (each : List.Forall₂ (FieldRead room) fields fields')
    (found : Entries.get? key fields = some v) :
    ∃ v', reread room v = .ok v' ∧ Entries.get? key fields' = some v' := by
  induction each with
  | nil => cases found
  | @cons f f' rest rest' first later ih =>
    rw [Entries.get?_cons] at found ⊢
    rw [first.1]
    split at found
    next here =>
      cases found
      exact ⟨f'.2, first.2, if_pos here⟩
    next apart =>
      obtain ⟨v', read, there⟩ := ih found
      exact ⟨v', read, (if_neg apart).trans there⟩

/-- A field of a value that is read as it was written. -/
theorem get?_kept {fields' : List (Text × Value)} {v : Value} (key : Text)
    (each : List.Forall₂ (FieldRead room) fields fields')
    (kept : reread room v = .ok v) (found : Entries.get? key fields = some v) :
    Entries.get? key fields' = some v := by
  obtain ⟨v', read, there⟩ := get?_read key each found
  cases kept.symm.trans read
  exact there

theorem reread_text {t : Text} (unsplit : t.Unsplit) : reread room (.text t) = .ok (.text t) := by
  rw [reread, Text.joined_of_unsplit unsplit]

theorem reread_ofDateTime? (t : Option DateTime) :
    reread room (.ofDateTime? t) = .ok (.ofDateTime? t) := by
  cases t with
  | none => rfl
  | some t => exact reread_text (Text.unsplit_ofString t.isoText)

end Json

namespace EdgeState

structure Told (s s' : EdgeState) : Prop where
  lead : s'.lead = s.lead
  rule : s'.rule = s.rule
  firedAt : s'.firedAt = s.firedAt

/-- A state that was written and is read again. -/
theorem ofWire_reread {s : EdgeState} {lead rule : Text} {room : Nat} {w : Value}
    (named : s.lead = .text lead ∧ s.rule = .text rule)
    (unsplit : lead.Unsplit ∧ rule.Unsplit) (again : Json.reread room s.toWire = .ok w) :
    ∃ s', ofWire w = .ok s' ∧ s.Told s' := by
  let fields : List (Text × Value) := [
    ("lead_id", s.lead), ("rule_id", s.rule), ("last_observed_score", s.score),
    ("last_observed_score_from", s.scoreFrom), ("last_observed_stage", s.stage),
    ("last_observed_stage_from", s.stageFrom), ("idle_marker", .ofDateTime? s.idleMarker),
    ("fired_at", .ofDateTime? s.firedAt)]
  obtain ⟨inner, fields', rfl, each⟩ :=
    Json.reread_record fields (by simp [fields, Text.ofString_inj])
    (by simp [fields, Text.unsplit_ofString]) again
  have leads := Json.get?_kept "lead_id" each (Json.reread_text unsplit.1)
    (by simp [fields, Entries.get?_cons, named])
  have rules := Json.get?_kept "rule_id" each (Json.reread_text unsplit.2)
    (by simp [fields, Entries.get?_cons, Text.ofString_inj, named])
  have idles := Json.get?_kept "idle_marker" each (Json.reread_ofDateTime? s.idleMarker)
    (by simp [fields, Entries.get?_cons, Text.ofString_inj])
  have fires := Json.get?_kept "fired_at" each (Json.reread_ofDateTime? s.firedAt)
    (by simp [fields, Entries.get?_cons, Text.ofString_inj])
  have data : (Value.record fields').members = .ok (fields'.map fun f => (.text f.1, f.2)) := rfl
  have member (key : Text) : Value.member key (fields'.map fun f => (.text f.1, f.2)) =
      (Entries.get? key fields').getD .null :=
    Value.member_record key fields'
  let part (key : Text) : Value := (Entries.get? key fields').getD .null
  refine ⟨{
    lead := .text lead, rule := .text rule, idleMarker := s.idleMarker, firedAt := s.firedAt
    score := part "last_observed_score", scoreFrom := part "last_observed_score_from"
    stage := part "last_observed_stage", stageFrom := part "last_observed_stage_from" }, ?_,
      named.1.symm, named.2.symm, rfl⟩
  simp only [ofWire, Value.subscript_record leads, Value.subscript_record rules, data, member,
    idles, fires, Option.getD_some, toDateTime?_ofDateTime?, bind, Except.bind]
  rfl

end EdgeState

namespace EdgeStore

variable {id : Key × Key} {s u : EdgeStore} {key : EdgeKey} {step : EdgeState → Bool × EdgeChange}
  {p : FilePath} {h k : Host}
  {fired : Option DateTime} {t : FileTree}

def firedAt? (s : EdgeStore) (id : Key × Key) : Option DateTime :=
  (s.states.get? id).bind (·.2.firedAt)

theorem firedAt_get (s : EdgeStore) (key : EdgeKey) :
    (s.get key).firedAt = s.firedAt? key.identity := by
  unfold get firedAt?
  cases s.states.get? key.identity <;> rfl

structure Legible (s : EdgeStore) : Prop where
  textual : s.Textual
  unsplit : ∀ lead rule : Text, (EdgeKey.ofTexts lead rule).identity ∈ s.states.keys →
    lead.Unsplit ∧ rule.Unsplit

theorem Legible.named (legible : s.Legible) : ∀ e ∈ s.states.entries, ∃ lead rule : Text,
    (e.2.2.lead = .text lead ∧ e.2.2.rule = .text rule) ∧ lead.Unsplit ∧ rule.Unsplit := by
  intro e member
  obtain ⟨lead, rule, -, identity, named⟩ := legible.textual e member
  exact ⟨lead, rule, named, legible.unsplit lead rule (identity ▸ List.mem_map_of_mem member)⟩

section Reading

variable {entries entries' : List ((Key × Key) × EdgeKey × EdgeState)}
  {m : OrderedMap (Key × Key) (EdgeKey × EdgeState)}

def Again (e e' : (Key × Key) × EdgeKey × EdgeState) : Prop :=
  e'.1 = e.1 ∧ e'.2.1 = e.2.1 ∧ e.2.2.Told e'.2.2

theorem keys_again (each : List.Forall₂ Again entries entries') :
    entries'.map (·.1) = entries.map (·.1) := by
  induction each with
  | nil => rfl
  | cons first later ih => rw [List.map_cons, List.map_cons, first.1, ih]

theorem firedAt_again (each : List.Forall₂ Again entries entries') (id : Key × Key) :
    (Entries.get? id entries').bind (·.2.firedAt) =
      (Entries.get? id entries).bind (·.2.firedAt) := by
  induction each with
  | nil => rfl
  | cons first later ih =>
    rw [Entries.get?_cons, Entries.get?_cons, first.1]
    split
    · exact first.2.2.firedAt
    · exact ih

theorem textual_again (each : List.Forall₂ Again entries entries')
    (textual : ∀ e ∈ entries, IsTextual e) :
    ∀ e ∈ entries', IsTextual e := by
  induction each with
  | nil => exact fun e member => absurd member List.not_mem_nil
  | cons first later ih =>
    intro e member
    rcases List.mem_cons.1 member with rfl | member
    · obtain ⟨lead, rule, key, identity, leads, rules⟩ := textual _ List.mem_cons_self
      exact ⟨lead, rule, first.2.1.trans key, first.1.trans identity, first.2.2.lead.trans leads,
        first.2.2.rule.trans rules⟩
    · exact ih (fun e there => textual e (List.mem_cons_of_mem _ there)) e member

/-- States are loaded one by one, each under its key. -/
theorem loadStates_again {items : List Value}
    (each : List.Forall₂ (fun e v => ∃ s', EdgeState.ofWire v = .ok s' ∧ e.2.2.Told s') entries items)
    (textual : ∀ e ∈ entries, IsTextual e) (distinct : ((m.entries ++ entries).map (·.1)).Nodup) :
    ∃ m' entries', loadStates m items = .ok m' ∧ m'.entries = m.entries ++ entries' ∧
      List.Forall₂ Again entries entries' := by
  induction each generalizing m with
  | nil => exact ⟨m, [], rfl, (List.append_nil _).symm, .nil⟩
  | @cons e v rest items first later ih =>
    obtain ⟨s', read, told⟩ := first
    obtain ⟨lead, rule, key, identity, leads, rules⟩ := textual e List.mem_cons_self
    have fresh : e.1 ∉ m.keys := by
      intro member
      rw [List.map_append, List.nodup_append] at distinct
      exact distinct.2.2 _ member _ List.mem_cons_self rfl
    have put : (m.putWritten e.1 e.2.1 s').entries = m.entries ++ [(e.1, e.2.1, s')] := by
      have none : m.get? e.1 = none := Entries.get?_eq_none fresh
      rw [OrderedMap.putWritten, none]
      exact Entries.put_of_absent fresh _
    obtain ⟨m', entries', loaded, whole, again⟩ := ih (m := m.putWritten e.1 e.2.1 s')
      (fun e there => textual e (List.mem_cons_of_mem _ there)) (by simpa [put] using distinct)
    refine ⟨m', (e.1, e.2.1, s') :: entries', ?_, ?_, .cons ⟨rfl, rfl, told⟩ again⟩
    · rw [← loaded, identity, key]
      simp only [loadStates, read, told.lead, told.rule, leads, rules, Value.asKey_text, bind, Except.bind]
      rfl
    · rw [whole, put, List.append_assoc, List.singleton_append]

theorem rereadItems_each {room : Nat} {items items' : List Value}
    (read : Json.rereadItems room items = .ok items') :
    List.Forall₂ (fun v v' => Json.reread room v = .ok v') items items' := by
  induction items generalizing items' with
  | nil =>
    rw [Json.rereadItems] at read
    cases read
    exact .nil
  | cons v rest ih =>
    rw [Json.rereadItems] at read
    rcases first : Json.reread room v with refusal | v' <;> rw [first] at read
    · cases read
    rcases later : Json.rereadItems room rest with refusal | rest' <;> rw [later] at read
    · cases read
    cases read
    exact .cons first (ih later)

/-- States that were written in texts that a file keeps are loaded under the same
keys, and tell the same. -/
theorem loadStates_reread {room : Nat} {w : Value} (legible : s.Legible)
    (again : Json.reread room s.toWire = .ok w) :
    ∃ m, (w.iterate >>= loadStates .empty) = .ok m ∧
      List.Forall₂ Again s.states.entries m.entries := by
  have wire : s.toWire = .list (s.states.entries.map fun e => e.2.2.toWire) := by
    simp [toWire, OrderedMap.values, Function.comp_def]
  rw [wire, Json.reread] at again
  rcases entered : Json.enter room .list with refusal | inner <;> rw [entered] at again
  · cases again
  replace again : (Json.rereadItems inner _ >>= _) = _ := again
  rcases read : Json.rereadItems inner
    (s.states.entries.map fun e => e.2.2.toWire) with refusal | items <;> rw [read] at again
  · cases again
  cases again
  have each :
      List.Forall₂
      (fun e v => ∃ s', EdgeState.ofWire v = .ok s' ∧ e.2.2.Told s') s.states.entries items := by
    have both := (List.forall₂_and_left s.states.entries items).2
      ⟨legible.named, List.forall₂_map_left_iff.1 (rereadItems_each read)⟩
    refine both.imp ?_
    rintro e v ⟨⟨lead, rule, named, unsplit⟩, read⟩
    exact EdgeState.ofWire_reread named unsplit read
  obtain ⟨m, entries, loaded, whole, again⟩ :=
    loadStates_again (m := .empty) each legible.textual s.states.distinct
  rw [show (OrderedMap.empty : OrderedMap (Key × Key) (EdgeKey × EdgeState)).entries = [] from rfl,
    List.nil_append] at whole
  exact ⟨m, loaded, whole ▸ again⟩

end Reading

/-- What the file at a path tells of when a rule fired for a lead: it has the states of a
store, or there is no file. -/
def Recorded (p : FilePath) (id : Key × Key) (fired : Option DateTime) (t : FileTree) : Prop :=
  (∃ u : EdgeStore, u.Legible ∧
    t.find p = .ok (p.place, some (.file (Json.writeIndented u.toWire))) ∧ u.firedAt? id = fired) ∨
  ((∀ text, t.nodes.get? p.place ≠ some (.file text)) ∧ fired = none)

theorem Recorded.spares (recorded : Recorded p id fired t) {t' : FileTree}
    (spares : FileTree.Spares p.place t t') :
    Recorded p id fired t' := by
  rcases recorded with ⟨u, legible, found, told⟩ | ⟨none, never⟩
  · exact .inl ⟨u, legible, spares.find found, told⟩
  · exact .inr ⟨fun text there => none text ((spares.file text).1 there), never⟩

theorem load_run {bound : Int} {w : Value} {m : OrderedMap (Key × Key) (EdgeKey × EdgeState)}
    (read : StateFile.load (some p) (.list []) h = (.ok w, k))
    (states : (w.iterate >>= loadStates .empty) = .ok m) :
    load (some p) bound h = (.ok { path := some p, maxEntries := bound, states := m }, k) := by
  rw [EdgeStore.load, Op.run_bind, read]
  simp only [states, Op.run_bind, Op.run_ofExcept, Op.run_pure]

/-- A store that is loaded knows what its file tells. -/
theorem Recorded.load {bound : Int} (recorded : Recorded p id fired h.files)
    (run : load (some p) bound h = (.ok s, k)) :
    s.path = some p ∧ s.dirty = false ∧ s.Legible ∧ s.firedAt? id = fired ∧ k.files = h.files := by
  have noted := StateFile.load_relogged (some p) (.list []) h
  have built {w : Value} {l : Host} {m : OrderedMap (Key × Key) (EdgeKey × EdgeState)}
      (read : StateFile.load (some p) (.list []) h = (.ok w, l))
        (states : (w.iterate >>= loadStates .empty) = .ok m) :
      s = { path := some p, maxEntries := bound, states := m } ∧ k = l := by
    obtain ⟨store, host⟩ := Prod.mk.inj ((load_run read states).symm.trans run)
    exact ⟨(Except.ok.inj store).symm, host.symm⟩
  rcases recorded with ⟨u, legible, found, told⟩ | ⟨none, rfl⟩
  · rcases StateFile.load_reread found (.list []) with ⟨w, again, read⟩ | ⟨refusal, fault, -, read⟩
    · obtain ⟨m, states, each⟩ := loadStates_reread legible again
      obtain ⟨rfl, rfl⟩ := built read states
      have keys : m.keys = u.states.keys := keys_again each
      exact ⟨rfl, rfl,
        ⟨textual_again each legible.textual, fun lead rule member => legible.unsplit lead rule
        (keys ▸ member)⟩,
        (firedAt_again each id).trans told, rfl⟩
    · rw [EdgeStore.load, Op.run_bind, read] at run
      cases run
  · rcases read : StateFile.load (some p) (.list []) h with ⟨fault | w, l⟩
    · rw [EdgeStore.load, Op.run_bind, read] at run
      cases run
    · obtain rfl := StateFile.load_default none (congrArg Prod.fst read)
      obtain ⟨rfl, rfl⟩ := built read (m := .empty) rfl
      rw [read] at noted
      have legible : EdgeStore.Legible { path := some p, maxEntries := bound, states := .empty } :=
        ⟨List.forall_mem_nil _, fun lead rule member => absurd member List.not_mem_nil⟩
      exact ⟨rfl, rfl, legible, rfl, noted.files⟩

/-- A store and its files: where nothing is missing in its file, the file tells what the store
does. -/
structure Traced (id : Key × Key) (s : EdgeStore) (t : FileTree) : Prop where
  savable : Savable s.path
  legible : s.Legible
  filed : ∀ p, s.path = some p → s.dirty = false → Recorded p id (s.firedAt? id) t

theorem Traced.spares (traced : s.Traced id t) {t' : FileTree}
    (spares : ∀ p, s.path = some p → FileTree.Spares p.place t t') :
    s.Traced id t' :=
  ⟨traced.savable, traced.legible, fun p path clean => (traced.filed p path clean).spares (spares p path)⟩

theorem firedAt_same {s s' : EdgeStore} (same : s'.states = s.states) (id : Key × Key) :
    s'.firedAt? id = s.firedAt? id := by
  rw [firedAt?, same]
  rfl

/-- Whatever comes of writing a store, it is not ahead of its file; and once it is written,
nothing is missing there. -/
theorem Traced.flush (traced : s.Traced id h.files) :
    ∃ x s' k, EdgeStore.flush (s, h) = (x, (s', k)) ∧ s.Flushed s' ∧
    s'.Traced id k.files ∧ ∀ p, s.path = some p → x = .ok () → s'.dirty = false := by
  rcases place : s.path with _ | p
  · refine ⟨.ok (), s, h, ?_, rfl, traced, nofun⟩
    rw [flush_run, place]
    rfl
  · have outcome := StateFile.outcome_of_run place (flush_run s h) (flush_refuses traced.savable h)
    revert outcome
    rcases EdgeStore.flush (s, h) with ⟨x, s', k⟩
    intro outcome
    cases outcome with
    | idle settled => exact ⟨_, _, _, rfl, rfl, traced, fun _ _ _ => settled⟩
    | written changed holds =>
      have legible : Legible { s with dirty := false } :=
        ⟨traced.legible.textual, traced.legible.unsplit⟩
      refine ⟨_, _, _, rfl, rfl, ⟨traced.savable, legible, fun q same _ => ?_⟩, fun _ _ _ => rfl⟩
      cases place.symm.trans same
      exact .inl ⟨s, traced.legible, holds, rfl⟩
    | refused changed spares =>
      refine ⟨_, _, _, rfl, rfl, traced.spares fun q same => ?_, nofun⟩
      cases place.symm.trans same
      exact spares

/-- A transition that does not drop a key leaves what is stored under it, or stores there what
its step makes of it. -/
theorem find_transition_kept {lead rule : Text} (textual : s.Textual)
    (kept : ∀ k ∈ (s.transition (.ofTexts lead rule) step).dropped, k.identity ≠ id) :
    (s.transition (.ofTexts lead rule) step).store.states.get? id =
      if id = (EdgeKey.ofTexts lead rule).identity ∧
          (s.get (.ofTexts lead rule)).isAlteredBy (step (s.get (.ofTexts lead rule))).2 then
        some (((s.states.get? id).map (·.1)).getD (.ofTexts lead rule),
          (s.get (.ofTexts lead rule)).apply (step (s.get (.ofTexts lead rule))).2)
      else s.states.get? id := by
  cases differs : (s.get (.ofTexts lead rule)).isAlteredBy
    (step (s.get (.ofTexts lead rule))).2 with
  | false => rw [transition_unaltered differs, if_neg fun both => Bool.false_ne_true both.2]
  | true =>
    rw [transition_altered differs] at kept ⊢
    have named :
      ((s.get (.ofTexts lead rule)).apply (step (s.get (.ofTexts lead rule))).2).lead = .text lead ∧
        ((s.get (.ofTexts lead rule)).apply (step (s.get (.ofTexts lead rule))).2).rule =
          .text rule :=
      textual.named_get lead rule
    -- The entries that are dropped stand under the keys that are named as dropped.
    have beyond :
      id ∉ (s.states.putWrittenLast (EdgeKey.ofTexts lead rule).identity (.ofTexts lead rule)
        ((s.get (.ofTexts lead rule)).apply (step (s.get (.ofTexts lead rule))).2)).keys.take
          ((s.states.putWrittenLast (EdgeKey.ofTexts lead rule).identity (.ofTexts lead rule)
            ((s.get (.ofTexts lead rule)).apply (step (s.get (.ofTexts lead rule))).2)).excess
              s.maxEntries) := by
      rw [OrderedMap.keys, ← List.map_take, List.mem_map]
      rintro ⟨e, member, rfl⟩
      obtain ⟨lead', rule', key, identity, -⟩ := textual.put named (List.mem_of_mem_take member)
      refine kept e.2.1 ?_ (by rw [key, identity])
      rw [remember, OrderedMap.values, List.map_map, ← List.map_take]
      exact List.mem_map_of_mem member
    have found := (OrderedMap.get?_boundTo beyond).trans (OrderedMap.get?_putWrittenLast ..)
    rw [show (s.remember _ _ _).store.states.get? id = _ from found]
    by_cases same : id = (EdgeKey.ofTexts lead rule).identity
    · rw [if_pos same, if_pos ⟨same, rfl⟩, same]
    · rw [if_neg same, if_neg fun both => same both.1]

theorem path_transition (s : EdgeStore) (key : EdgeKey) (step : EdgeState → Bool × EdgeChange) :
    (s.transition key step).store.path = s.path := by
  unfold EdgeStore.transition
  simp only
  split <;> rfl

/-- A transition stores nothing under other keys than its own. -/
theorem keys_transition (member : id ∈ (s.transition key step).store.states.keys) :
    id ∈ s.states.keys ∨ id = key.identity := by
  obtain ⟨e, there, rfl⟩ := List.mem_map.1 member
  rcases mem_transition there with old | ⟨-, rfl⟩
  · exact .inl (List.mem_map_of_mem old)
  · exact .inr rfl

theorem Legible.transition {lead rule : Text} (legible : s.Legible)
    (unsplit : lead.Unsplit ∧ rule.Unsplit) :
    (s.transition (.ofTexts lead rule) step).store.Legible where
  textual := legible.textual.transition lead rule step
  unsplit lead' rule' member := by
    rcases keys_transition member with old | same
    · exact legible.unsplit lead' rule' old
    · obtain ⟨leads, rules⟩ := Prod.mk.inj same
      cases leads
      cases rules
      exact unsplit

/-- A store that cannot meet its bound has dropped all it had. -/
theorem empty_of_exhausted (full : (s.transition key step).exhausted = true) :
    (s.transition key step).store.states.entries = [] := by
  rw [exhausted_transition, Bool.and_eq_true, decide_eq_true_eq] at full
  rw [transition_altered full.1]
  refine List.drop_eq_nil_of_le ?_
  have below := full.2
  simp only [OrderedMap.excess, OrderedMap.size]
  omega

/-- A changed state makes a store dirty, unless the store cannot hold any. -/
theorem clean_transition (clean : (s.transition key step).store.dirty = false) : s.dirty = false ∧
    ((s.get key).isAlteredBy (step (s.get key)).2 = true → (s.transition key step).exhausted = true) := by
  cases differs : (s.get key).isAlteredBy (step (s.get key)).2 with
  | false =>
    rw [transition_unaltered differs] at clean
    exact ⟨clean, nofun⟩
  | true =>
    rw [transition_altered differs] at clean ⊢
    simp only [remember, Bool.or_eq_false_iff, decide_eq_false_iff_not, Int.not_le] at clean
    exact ⟨clean.1, fun _ => decide_eq_true clean.2⟩

/-- A store that keeps what is stored under a key has room for it. -/
theorem room_of_kept_self {lead rule : Text} (textual : s.Textual)
    (kept : ∀ k ∈ (s.transition (.ofTexts lead rule) step).dropped,
      k.identity ≠ (EdgeKey.ofTexts lead rule).identity) :
    (s.transition (.ofTexts lead rule) step).exhausted = false := by
  refine Bool.eq_false_iff.2 fun full => ?_
  have altered :
      (s.get (.ofTexts lead rule)).isAlteredBy (step (s.get (.ofTexts lead rule))).2 = true := by
    rw [exhausted_transition, Bool.and_eq_true] at full
    exact full.1
  have found := find_transition_kept textual kept
  rw [if_pos ⟨rfl, altered⟩, OrderedMap.get?, empty_of_exhausted full] at found
  cases found

/-- A transition moves the time of firing under its own key as its step does, and no other that it
keeps. -/
theorem firedAt_transition {lead rule : Text} (textual : s.Textual)
    (kept : ∀ k ∈ (s.transition (.ofTexts lead rule) step).dropped, k.identity ≠ id) :
    (s.transition (.ofTexts lead rule) step).store.firedAt? id =
      if id = (EdgeKey.ofTexts lead rule).identity then
        ((s.get (.ofTexts lead rule)).settle (step (s.get (.ofTexts lead rule))).2).firedAt
      else s.firedAt? id := by
  rw [firedAt?, find_transition_kept textual kept]
  by_cases same : id = (EdgeKey.ofTexts lead rule).identity
  · subst same
    rw [if_pos rfl, EdgeState.settle]
    cases altered : (s.get (.ofTexts lead rule)).isAlteredBy
      (step (s.get (.ofTexts lead rule))).2 with
    | true =>
      rw [if_pos ⟨rfl, rfl⟩]
      rfl
    | false =>
      rw [if_neg fun both => Bool.false_ne_true both.2, if_neg Bool.false_ne_true, firedAt_get]
      rfl
  · rw [if_neg same, if_neg fun both => same both.1]
    rfl

/-- A transition that keeps the state of a key is not ahead of the file. -/
theorem Traced.transition {lead rule : Text} (traced : s.Traced id t)
    (unsplit : lead.Unsplit ∧ rule.Unsplit)
    (kept : ∀ k ∈ (s.transition (.ofTexts lead rule) step).dropped, k.identity ≠ id) :
    (s.transition (.ofTexts lead rule) step).store.Traced id t := by
  refine ⟨?_, traced.legible.transition unsplit, fun p path clean => ?_⟩
  · rw [path_transition]
    exact traced.savable
  · obtain ⟨before, full⟩ := clean_transition clean
    have moved := firedAt_transition traced.legible.textual kept
    have same : (s.transition (.ofTexts lead rule) step).store.firedAt? id = s.firedAt? id := by
      rw [moved]
      split
      next here =>
        subst here
        have unaltered :
            (s.get (.ofTexts lead rule)).isAlteredBy (step (s.get (.ofTexts lead rule))).2 =
            false := by
          refine Bool.eq_false_iff.2 fun altered => Bool.false_ne_true ?_
          rw [← full altered, room_of_kept_self traced.legible.textual kept]
        rw [EdgeState.settle, unaltered, if_neg Bool.false_ne_true, firedAt_get]
      next => rfl
    rw [same]
    rw [path_transition] at path
    exact traced.filed p path before

end EdgeStore
end LeadRules
