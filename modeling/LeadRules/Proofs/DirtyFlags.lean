import LeadRules.Proofs.Crossings
import LeadRules.Proofs.EdgeFile
import LeadRules.Proofs.JsonReading

/-! The dirty flags of the stores. Whatever is done with a store, and whichever of its writes are
refused: when it is not dirty, its file has what it has, and a refused write leaves the file as it
was and the store dirty. -/
namespace LeadRules

/-- How many containers may be opened in a member of an object that is an item of a list. -/
def Json.memberRoom : Nat := depthLimit - 2

namespace Value

variable {room : Nat} {v w : Value} {key : Text}

theorem lasts_record {fields : List (Text × Value)} (distinct : (fields.map (·.1)).Nodup)
    (each : ∀ f ∈ fields, f.1.Unsplit ∧ f.2.Lasts room) : (record fields).Lasts (room + 1) := by
  refine lasts_map ⟨?_, fun e member => ?_⟩
  · have keys : (fields.map fun f => (text f.1, f.2)).map (·.1) = (fields.map (·.1)).map text := by
      simp only [List.map_map]
      rfl
    rw [keys]
    exact distinct.map fun _ _ => text.inj
  · obtain ⟨f, there, rfl⟩ := List.mem_map.1 member
    exact ⟨f.1, rfl, each f there⟩

theorem lasts_of_lookup {entries : List (Value × Value)} (lasts : (map entries).Lasts (room + 1))
    (found : lookup key entries = some v) : v.Lasts room := by
  obtain ⟨e, there, rfl⟩ := Option.map_eq_some_iff.1 found
  obtain ⟨_, -, -, last⟩ := lasts.entriesLast.each e (List.mem_of_find?_eq_some there)
  exact last

theorem lasts_member {entries : List (Value × Value)} (lasts : (map entries).Lasts (room + 1))
    (key : Text) :
    (member key entries).Lasts room := by
  rw [member]
  cases found : lookup key entries with
  | none => exact lasts_null room
  | some v => exact lasts_of_lookup lasts found

theorem lasts_of_subscript (lasts : v.Lasts (room + 1)) (found : v.subscript key = .ok w) :
    w.Lasts room := by
  cases v with
  | map entries =>
    rw [subscript, required] at found
    cases there : lookup key entries with
    | none =>
      rw [there] at found
      cases found
    | some u =>
      rw [there] at found
      cases found
      exact lasts_of_lookup lasts there
  | _ => cases found

theorem lasts_of_iterate {items : List Value} (lasts : v.Lasts (room + 1))
    (given : v.iterate = .ok items) :
    ∀ w ∈ items, w.Lasts room := by
  intro w member
  cases v with
  | list _ =>
    cases given
    exact lasts.item member
  | text t =>
    cases given
    obtain ⟨p, -, rfl⟩ := List.mem_map.1 member
    exact lasts_text room (List.isChain_singleton p)
  | map entries =>
    cases given
    obtain ⟨e, there, rfl⟩ := List.mem_map.1 member
    obtain ⟨t, key, unsplit, -⟩ := lasts.entriesLast.each e there
    rw [key]
    exact lasts_text room unsplit
  | _ => cases given

theorem lasts_ofDateTime? (room : Nat) (t : Option DateTime) : (ofDateTime? t).Lasts room := by
  cases t with
  | none => exact lasts_null room
  | some t => exact lasts_text room (Text.unsplit_ofString t.isoText)

end Value

namespace StateFile

variable {p : FilePath} {h k : Host} {v : Value}

/-- Whatever is loaded lasts. -/
theorem load_lasts {w default : Value} (lasts : default.Lasts Json.depthLimit)
    (loaded : (load (some p) default h).1 = .ok w) :
    w.Lasts Json.depthLimit := by
  simp only [load, Op.run_bind, Op.run_get, Op.run_ofExcept] at loaded
  rcases there : h.files.contains p with fault | _ | _ <;> rw [there] at loaded
  · cases loaded
  · cases loaded
    exact lasts
  · rcases parsed : parse p h.files with fault | v <;> rw [parsed] at loaded
    · simp only [Bool.not_true, Bool.false_eq_true, if_false] at loaded
      cases unreadable : isUnreadable fault <;> rw [unreadable] at loaded <;> cases loaded
      exact lasts
    · cases loaded
      rcases given : text p h.files with fault | s <;> rw [parse, given] at parsed
      · cases parsed
      · rcases read : Json.read s with problem | u
        · replace parsed : (Json.read s).mapError Fault.ofReadProblem = .ok w := parsed
          rw [read] at parsed
          cases parsed
        · replace parsed : (Json.read s).mapError Fault.ofReadProblem = .ok w := parsed
          rw [read] at parsed
          cases parsed
          exact Json.read_lasts read

section Tells

variable {α σ : Type} {read : Value → Except Fault α} {build : α → σ} {a : α} {x : σ}

/-- What is read of the file at a path, or of the empty list that stands in for it. -/
def Tells (p : FilePath) (read : Value → Except Fault α) (a : α) (h : Host) : Prop :=
  ∃ w, (load (some p) (.list []) h).1 = .ok w ∧ read w = .ok a

theorem Tells.node (tells : Tells p read a h) (same : k.node p = h.node p) : Tells p read a k := by
  obtain ⟨w, loaded, given⟩ := tells
  exact ⟨w, (load_node same _).trans loaded, given⟩

theorem tells_written (holds : h.files.Holds p (Json.writeIndented v))
    (lasts : v.Lasts Json.depthLimit) (given : read v = .ok a) :
    Tells p read a h :=
  ⟨v, by rw [load_written holds (Json.readsBack_of_reread lasts.reread)], given⟩

def openAs (p : FilePath) (read : Value → Except Fault α) (build : α → σ) : Op Host σ := do
  let v ← load (some p) (.list [])
  return build (← Op.ofExcept (read v))

theorem openAs_of_tells (tells : Tells p read a h) (build : α → σ) :
    ∃ k, openAs p read build h = (.ok (build a), k) := by
  obtain ⟨w, loaded, given⟩ := tells
  rcases run : load (some p) (.list []) h with ⟨y, k⟩
  obtain rfl : y = .ok w := by rw [← loaded, run]
  refine ⟨k, ?_⟩
  simp only [openAs, Op.run_bind, run, given, Op.run_ofExcept, Op.run_pure]

/-- A store that was opened is built of what its file tells, and still does. -/
theorem tells_of_openAs (run : openAs p read build h = (.ok x, k)) :
    ∃ a, x = build a ∧ Tells p read a h ∧ Tells p read a k := by
  have noted := load_relogged (some p) (.list []) h
  rcases loaded : load (some p) (.list []) h with ⟨fault | w, l⟩ <;> rw [loaded] at noted <;>
    simp only [openAs, Op.run_bind, loaded] at run
  · cases run
  · rcases given : read w with fault | a <;> simp only [given, Op.run_ofExcept] at run <;> cases run
    have tells : Tells p read a h := ⟨w, by rw [loaded], given⟩
    exact ⟨a, rfl, tells, tells.node (by rw [Host.node, Host.node, noted.files])⟩

end Tells

/-- A store whose file told all that it has, or that was dirty, is left so. -/
theorem Outcome.tells {σ α : Type} {read : Value → Except Fault α} {a : α} {dirty : Bool}
    {clean : σ} {x : σ × Host}
    {y : Except Fault Unit × σ × Host} (outcome : Outcome p v dirty clean x y)
    (held : dirty = false → Tells p read a x.2)
    (lasts : v.Lasts Json.depthLimit) (given : read v = .ok a) :
    (y.2.1 = clean ∧ Tells p read a y.2.2) ∨
    (y.2.1 = x.1 ∧ (dirty = false → Tells p read a y.2.2)) := by
  cases outcome with
  | idle settled => exact .inr ⟨rfl, held⟩
  | written changed holds => exact .inl ⟨rfl, tells_written holds lasts given⟩
  | refused changed =>
    refine .inr ⟨rfl, fun clean => ?_⟩
    rw [clean] at changed
    cases changed

end StateFile

open StateFile (Outcome Tells)

namespace EdgeState

def components (s : EdgeState) : List Value :=
  [s.lead, s.rule, s.score, s.scoreFrom, s.stage, s.stageFrom]

def Lasting (s : EdgeState) : Prop := ∀ v ∈ s.components, v.Lasts Json.memberRoom

end EdgeState

namespace EdgeChange

def components (c : EdgeChange) : List Value :=
  (c.score.toList ++ c.stage.toList).flatMap fun p => [p.1, p.2]

def Lasting (c : EdgeChange) : Prop := ∀ v ∈ c.components, v.Lasts Json.memberRoom

end EdgeChange

namespace EdgeState

variable {s : EdgeState} {c : EdgeChange} {v : Value}

theorem mem_components_apply (member : v ∈ (s.apply c).components) :
    v ∈ s.components ∨ v ∈ c.components := by
  obtain ⟨score, stage, idleMarker, firedAt⟩ := c
  cases score <;> cases stage <;> simp [components, EdgeChange.components, apply] at member ⊢ <;> tauto

theorem Lasting.apply (lasting : s.Lasting) (changed : c.Lasting) : (s.apply c).Lasting :=
  fun v member =>
  (mem_components_apply member).elim (lasting v) (changed v)

theorem lasting_fresh {lead rule : Text} (leads : lead.Unsplit) (rules : rule.Unsplit) :
    (fresh (.text lead) (.text rule)).Lasting := by
  simp [Lasting, components, fresh, Value.lasts_text _ leads, Value.lasts_text _ rules, Value.lasts_null]

theorem Lasting.toWire (lasting : s.Lasting) : s.toWire.Lasts (Json.memberRoom + 1) := by
  simp only [Lasting, components, List.forall_mem_cons] at lasting
  refine Value.lasts_record (by simp [Text.ofString_inj]) ?_
  simp [Text.unsplit_ofString, Value.lasts_ofDateTime?, lasting]

theorem lasting_ofWire (lasts : v.Lasts (Json.memberRoom + 1)) : Admits Lasting (ofWire v) := by
  refine .bind fun lead leads => .bind fun rule rules => .bind fun data members =>
    .bind fun idleMarker _ =>
    .bind fun firedAt _ => .ok ?_
  obtain rfl : v = .map data := by
    cases v <;> cases members
    rfl
  simp [Lasting, components, Value.lasts_of_subscript lasts leads,
    Value.lasts_of_subscript lasts rules, Value.lasts_member lasts]

end EdgeState

theorem Binary64.reread_of_finite {x : Binary64} (finite : x.isFinite = true) : x.reread = x := by
  cases x with
  | nan => cases finite
  | number => rfl

/-- Whether a file keeps what an event tells: its scores are finite, and its stages last. -/
def Occurrence.Lasting : Occurrence → Prop
  | stageChanged old new => old.Lasts Json.memberRoom ∧ new.Lasts Json.memberRoom
  | scoreChanged previous new => previous.isFinite = true ∧ new.isFinite = true
  | _ => True

/-- What a trigger makes of such an event is kept. -/
theorem Trigger.matchEvent_lasting (t : Trigger) {e : Event} (lasting : e.occurrence.Lasting)
    (s : EdgeState) :
    (t.matchEvent e s).2.Lasting := by
  have nothing (idle fired : Option (Option DateTime)) :
      EdgeChange.Lasting { idleMarker := idle, firedAt := fired } :=
    List.forall_mem_nil _
  have pair {p : Value × Value} (first : p.1.Lasts Json.memberRoom)
    (second : p.2.Lasts Json.memberRoom) :
      EdgeChange.Lasting { score := some p } ∧ EdgeChange.Lasting { stage := some p } := by
    simp [EdgeChange.Lasting, EdgeChange.components, first, second]
  have matched := t.matched e s
  generalize t.matchEvent e s = told at matched
  cases matched with
  | unmoved | created | idle | completed => exact nothing _ _
  | stage occurrence =>
    rw [occurrence] at lasting
    exact (pair lasting.1 lasting.2).2
  | score occurrence =>
    rw [occurrence] at lasting
    exact (pair (Value.lasts_float _ (Binary64.reread_of_finite lasting.1))
      (Value.lasts_float _ (Binary64.reread_of_finite lasting.2))).1

namespace EdgeStore

variable {p : FilePath} {s : EdgeStore} {h k : Host}
  {m : OrderedMap (Key × Key) (EdgeKey × EdgeState)}

structure Lasting (s : EdgeStore) : Prop where
  textual : s.Textual
  each : ∀ e ∈ s.states.entries, e.2.2.Lasting

def readStates (v : Value) : Except Fault (OrderedMap (Key × Key) (EdgeKey × EdgeState)) :=
  v.iterate >>= loadStates .empty

theorem load_eq (p : FilePath) (bound : Int) :
    load (some p) bound = StateFile.openAs p readStates fun states =>
      { path := some p, maxEntries := bound, states } := rfl

theorem Lasting.toWire (lasting : s.Lasting) : s.toWire.Lasts Json.depthLimit := by
  show Value.Lasts (Json.memberRoom + 2) _
  refine Value.lasts_list fun v member => ?_
  rw [OrderedMap.values, List.map_map] at member
  obtain ⟨e, there, rfl⟩ := List.mem_map.1 member
  exact (lasting.each e there).toWire

theorem loadStates_lasting {items : List Value} (lasts : ∀ v ∈ items, v.Lasts (Json.memberRoom + 1))
    (before : ∀ e ∈ m.entries, e.2.2.Lasting) :
    Admits (fun m => ∀ e ∈ m.entries, e.2.2.Lasting) (loadStates m items) := by
  induction items generalizing m with
  | nil => exact .ok before
  | cons v rest ih =>
    refine .bind fun s read => .bind fun lead _ => .bind fun rule _ =>
      ih (fun w member => lasts w (List.mem_cons_of_mem _ member)) ?_
    intro e member
    rcases OrderedMap.mem_putWritten member with old | rfl
    · exact before e old
    · exact EdgeState.lasting_ofWire (lasts v List.mem_cons_self) s read

theorem lasting_of_tells (tells : Tells p readStates m h) : ∀ e ∈ m.entries, e.2.2.Lasting := by
  obtain ⟨w, loaded, read⟩ := tells
  have lasts : w.Lasts Json.depthLimit :=
    StateFile.load_lasts (Value.lasts_list (List.forall_mem_nil _)) loaded
  refine Admits.bind (P := fun m => ∀ e ∈ m.entries, e.2.2.Lasting) (fun items given => ?_) m read
  exact loadStates_lasting (Value.lasts_of_iterate lasts given) (List.forall_mem_nil _)

theorem Lasting.transition {step : EdgeState → Bool × EdgeChange} {lead rule : Text}
    (lasting : s.Lasting)
    (leads : lead.Unsplit) (rules : rule.Unsplit)
    (changed : (step (s.get (.ofTexts lead rule))).2.Lasting) :
    (s.transition (.ofTexts lead rule) step).store.Lasting where
  textual := lasting.textual.transition lead rule step
  each e member := by
    rcases mem_transition member with old | ⟨-, rfl⟩
    · exact lasting.each e old
    · refine EdgeState.Lasting.apply ?_ changed
      rcases mem_of_get s (.ofTexts lead rule) with ⟨held, there⟩ | ⟨-, fresh⟩
      · exact lasting.each _ there
      · rw [fresh]
        exact EdgeState.lasting_fresh leads rules

def without (s : EdgeStore) (rule : Value) : EdgeStore :=
  { s with states := s.states.filter fun _ e => !e.1.2.value.same rule, dirty := true }

/-- A store that is kept in a file, beside its host: it was opened there with room for some
states, and then observed leads and rules, forgot rules and was written, while others left the
file alone. Each write succeeds or is refused by the disk. -/
inductive Kept (p : FilePath) : EdgeStore × Host → Prop
  | opened {s : EdgeStore} {h k : Host} (bound : Int) (room : 0 ≤ bound) (textual : s.Textual)
      (run : load (some p) bound h = (.ok s, k)) : Kept p (s, k)
  | elsewhere {s : EdgeStore} {h k : Host} (kept : Kept p (s, h))
      (same : k.node p = h.node p) : Kept p (s, k)
  | observed {x : EdgeStore × Host} {lead rule : Text} {step : EdgeState → Bool × EdgeChange}
      (kept : Kept p x)
      (leads : lead.Unsplit) (rules : rule.Unsplit)
        (lasting : (step (x.1.get (.ofTexts lead rule))).2.Lasting) :
      Kept p (observe (.ofTexts lead rule) step x).2
  | forgot {x : EdgeStore × Host} (rule : Value) (kept : Kept p x)
      (refuses : RefusesOnly (forget rule x).1) :
      Kept p (forget rule x).2
  | flushed {x : EdgeStore × Host} (kept : Kept p x) (refuses : RefusesOnly (flush x).1) :
      Kept p (flush x).2

structure Filed (p : FilePath) (x : EdgeStore × Host) : Prop where
  path : x.1.path = some p
  room : 0 ≤ x.1.maxEntries
  lasting : x.1.Lasting
  held : x.1.dirty = false → Tells p readStates x.1.states x.2

namespace Filed

variable {x : EdgeStore × Host}

theorem opened {bound : Int} (room : 0 ≤ bound) (textual : s.Textual)
    (run : load (some p) bound h = (.ok s, k)) :
    Filed p (s, k) := by
  rw [load_eq] at run
  obtain ⟨m, rfl, tells, held⟩ := StateFile.tells_of_openAs run
  exact ⟨rfl, room, ⟨textual, lasting_of_tells tells⟩, fun _ => held⟩

theorem elsewhere (filed : Filed p (s, h)) (same : k.node p = h.node p) : Filed p (s, k) :=
  ⟨filed.path, filed.room, filed.lasting, fun clean => (filed.held clean).node same⟩

theorem observed {lead rule : Text} {step : EdgeState → Bool × EdgeChange} (filed : Filed p x)
    (leads : lead.Unsplit)
    (rules : rule.Unsplit) (lasting : (step (x.1.get (.ofTexts lead rule))).2.Lasting) :
    Filed p (observe (.ofTexts lead rule) step x).2 := by
  obtain ⟨s, h⟩ := x
  obtain ⟨k, noted, run⟩ := observe_run (.ofTexts lead rule) step s h
  have node : k.node p = h.node p := by rw [Host.node, Host.node, noted.files]
  rw [run]
  refine ⟨(path_transition ..).trans filed.path, ?_, filed.lasting.transition leads rules lasting,
    fun clean => ?_⟩
  · rw [maxEntries_transition]
    exact filed.room
  · obtain ⟨before, full⟩ := clean_transition clean
    have unaltered :
        (s.get (.ofTexts lead rule)).isAlteredBy (step (s.get (.ofTexts lead rule))).2 = false := by
      refine Bool.eq_false_iff.2 fun altered => ?_
      have exhausted := full altered
      rw [exhausted_transition, altered, Bool.true_and, decide_eq_true_eq] at exhausted
      exact Int.not_lt.2 filed.room exhausted
    rw [transition_unaltered unaltered]
    exact (filed.held before).node node

/-- Whatever comes of writing a store. -/
theorem outcome (filed : Filed p x) (refuses : RefusesOnly (flush x).1) :
    Outcome p x.1.toWire x.1.dirty { x.1 with dirty := false } x (flush x) :=
  StateFile.outcome_of_run filed.path (flush_run x.1 x.2) refuses

theorem flushed (filed : Filed p x) (refuses : RefusesOnly (flush x).1) : Filed p (flush x).2 := by
  have left := (filed.outcome refuses).tells filed.held filed.lasting.toWire
    (loadStates_toWire filed.lasting.textual)
  revert left
  rcases flush x with ⟨r, y, k⟩
  rintro (⟨rfl, tells⟩ | ⟨rfl, tells⟩)
  · exact ⟨filed.path, filed.room, ⟨filed.lasting.textual, filed.lasting.each⟩, fun _ => tells⟩
  · exact ⟨filed.path, filed.room, filed.lasting, tells⟩

theorem without (filed : Filed p x) (rule : Value) : Filed p (x.1.without rule, x.2) := by
  have among : ∀ e ∈ (x.1.without rule).states.entries, e ∈ x.1.states.entries :=
    fun e member => List.mem_of_mem_filter member
  exact ⟨filed.path, filed.room, ⟨fun e member => filed.lasting.textual e (among e member),
    fun e member => filed.lasting.each e (among e member)⟩, nofun⟩

end Filed

theorem Kept.filed {x : EdgeStore × Host} (kept : Kept p x) : Filed p x := by
  induction kept with
  | opened _ room textual run => exact .opened room textual run
  | elsewhere _ same filed => exact filed.elsewhere same
  | observed _ leads rules lasting filed => exact filed.observed leads rules lasting
  | forgot rule _ refuses filed => exact (filed.without rule).flushed refuses
  | flushed _ refuses filed => exact filed.flushed refuses

/-- On a path of clean names a write is never refused but as files are. -/
theorem Kept.refuses {x : EdgeStore × Host} (kept : Kept p x) (savable : Savable (some p)) :
    RefusesOnly (flush x).1 :=
  flush_refuses (kept.filed.path ▸ savable) x.2

/-- What the dirty flag of a store says: without it, a store that is opened on the file has the
same states in the same order; and when a write is refused, also that after a rule was forgotten,
the file is as it was and the flag stays. -/
structure Honest (p : FilePath) (x : EdgeStore × Host) : Prop where
  reopens : x.1.dirty = false → ∀ bound : Int, ∃ k, load (some p) bound x.2 =
    (.ok { path := some p, maxEntries := bound, states := x.1.states }, k)
  flush : RefusesOnly (flush x).1 →
    Outcome p x.1.toWire x.1.dirty { x.1 with dirty := false } x (flush x)
  forget (rule : Value) : RefusesOnly (forget rule x).1 → Outcome p (x.1.without rule).toWire true
    { x.1.without rule with dirty := false } (x.1.without rule, x.2) (forget rule x)

theorem Kept.honest {x : EdgeStore × Host} (kept : Kept p x) : Honest p x where
  reopens clean _ := StateFile.openAs_of_tells (kept.filed.held clean) _
  flush := kept.filed.outcome
  forget rule := (kept.filed.without rule).outcome

end EdgeStore

namespace Ledger

variable {p : FilePath} {l : Ledger} {h k : Host}
  {m : OrderedMap (Key × Key × Key) (LedgerKey × Value)}

def RecordLasts (e : (Key × Key × Key) × LedgerKey × Value) : Prop :=
  ∀ v ∈ e.2.2 :: e.2.1.values, v.Lasts Json.memberRoom

structure Lasting (l : Ledger) : Prop where
  textual : l.Textual
  each : ∀ e ∈ l.processed.entries, RecordLasts e

def readRecords (v : Value) : Except Fault (OrderedMap (Key × Key × Key) (LedgerKey × Value)) :=
  v.iterate >>= loadRecords .empty

theorem load_eq (p : FilePath) (bound : Int) :
    load (some p) bound = StateFile.openAs p readRecords fun processed =>
      { path := some p, maxEntries := bound, processed } := rfl

theorem Lasting.toWire (lasting : l.Lasting) : l.toWire.Lasts Json.depthLimit := by
  show Value.Lasts (Json.memberRoom + 2) _
  refine Value.lasts_list fun v member => ?_
  rw [OrderedMap.values, List.map_map] at member
  obtain ⟨⟨identity, ⟨lead, rule, event⟩, time⟩, there, rfl⟩ := List.mem_map.1 member
  have lasts := lasting.each _ there
  simp only [RecordLasts, LedgerKey.values, List.forall_mem_cons] at lasts
  refine Value.lasts_record (by simp [Text.ofString_inj]) ?_
  simp [Text.unsplit_ofString, lasts]

/-- A record that is put lasts, also where its key keeps the form that it was first written in. -/
theorem recordLasts_put {identity : Key × Key × Key} {key : LedgerKey} {time : Value}
    {e : (Key × Key × Key) × LedgerKey × Value}
    (before : ∀ e ∈ m.entries, RecordLasts e) (lasts : RecordLasts (identity, key, time))
    (member : e ∈ (m.putWritten identity key time).entries) : RecordLasts e := by
  rcases OrderedMap.mem_putWritten member with old | rfl
  · exact before e old
  · cases found : m.get? identity with
    | none => exact lasts
    | some held =>
      have there := before _ (Entries.mem_of_get? found)
      simp only [RecordLasts, List.forall_mem_cons] at lasts there ⊢
      exact ⟨lasts.1, there.2⟩

theorem asKey_value {v : Value} {key : WrittenKey} (given : v.asKey = .ok key) : key.value = v := by
  unfold Value.asKey at given
  split at given <;> cases given
  rfl

theorem loadRecords_lasting {items : List Value}
    (lasts : ∀ v ∈ items, v.Lasts (Json.memberRoom + 1))
    (before : ∀ e ∈ m.entries, RecordLasts e) :
    Admits (fun m => ∀ e ∈ m.entries, RecordLasts e) (loadRecords m items) := by
  induction items generalizing m with
  | nil => exact .ok before
  | cons v rest ih =>
    have here := lasts v List.mem_cons_self
    refine .bind fun lead leads => .bind fun rule rules => .bind fun event events =>
      .bind fun time times =>
      .bind fun leadKey leadKeys => .bind fun ruleKey ruleKeys => .bind fun eventKey eventKeys =>
        ih (fun w member => lasts w (List.mem_cons_of_mem _ member)) fun e member =>
          recordLasts_put before ?_ member
    simp [RecordLasts, LedgerKey.values, asKey_value leadKeys, asKey_value ruleKeys,
      asKey_value eventKeys, Value.lasts_of_subscript here leads,
      Value.lasts_of_subscript here rules, Value.lasts_of_subscript here events,
      Value.lasts_of_subscript here times]

theorem lasting_of_tells (tells : Tells p readRecords m h) : ∀ e ∈ m.entries, RecordLasts e := by
  obtain ⟨w, loaded, read⟩ := tells
  have lasts : w.Lasts Json.depthLimit :=
    StateFile.load_lasts (Value.lasts_list (List.forall_mem_nil _)) loaded
  refine Admits.bind (P := fun m => ∀ e ∈ m.entries, RecordLasts e) (fun items given => ?_) m read
  exact loadRecords_lasting (Value.lasts_of_iterate lasts given) (List.forall_mem_nil _)

abbrev once {α : Type} (key : LedgerKey) (action : StoreOp Ledger α) : StoreOp Ledger (Option α) :=
  runOnce (·.1) (fun x l => (l, x.2)) (·.2.now) key action

/-- What an action that runs once leaves behind: nothing new when its delivery was processed, what
it did when it failed, and else its record as well. -/
theorem once_state {α : Type} (key : LedgerKey) (action : StoreOp Ledger α) (x : Ledger × Host) :
    (once key action x).2 = if x.1.isProcessed key then x else
      match action x with
      | (.error _, y) => y
      | (.ok _, y) => (y.1.record key y.2.now, y.2) := by
  cases known : x.1.isProcessed key with
  | true => simp [once, runOnce, Op.run_bind, known]
  | false =>
    simp only [once, runOnce, Op.run_bind, Op.run_get, known, Bool.false_eq_true, if_false]
    rcases action x with ⟨fault | a, y⟩
    · rfl
    · simp only [Op.run_bind, Op.run_modify, Op.run_ite, Op.run_throw, Op.run_pure]
      split <;> rfl

/-- A ledger that is kept in a file, beside its host: it was opened there with room for some
records, and then ran actions once and was written, while others left the file alone. Each write
succeeds or is refused by the disk. -/
inductive Kept (p : FilePath) : Ledger × Host → Prop
  | opened {l : Ledger} {h k : Host} (bound : Int) (room : 0 ≤ bound) (textual : l.Textual)
      (run : load (some p) bound h = (.ok l, k)) : Kept p (l, k)
  | elsewhere {l : Ledger} {h k : Host} (kept : Kept p (l, h))
      (same : k.node p = h.node p) : Kept p (l, k)
  | ran {α : Type} {x : Ledger × Host} {lead rule event : Text} {action : StoreOp Ledger α}
      (kept : Kept p x)
      (leads : lead.Unsplit) (rules : rule.Unsplit) (events : event.Unsplit)
        (acted : Kept p (action x).2) :
      Kept p (once (.ofTexts lead rule event) action x).2
  | flushed {x : Ledger × Host} (kept : Kept p x) (refuses : RefusesOnly (flush x).1) :
      Kept p (flush x).2

structure Filed (p : FilePath) (x : Ledger × Host) : Prop where
  path : x.1.path = some p
  room : 0 ≤ x.1.maxEntries
  lasting : x.1.Lasting
  held : x.1.dirty = false → Tells p readRecords x.1.processed x.2

namespace Filed

variable {x : Ledger × Host}

theorem opened {bound : Int} (room : 0 ≤ bound) (textual : l.Textual)
    (run : load (some p) bound h = (.ok l, k)) :
    Filed p (l, k) := by
  rw [load_eq] at run
  obtain ⟨m, rfl, tells, held⟩ := StateFile.tells_of_openAs run
  exact ⟨rfl, room, ⟨textual, lasting_of_tells tells⟩, fun _ => held⟩

theorem elsewhere (filed : Filed p (l, h)) (same : k.node p = h.node p) : Filed p (l, k) :=
  ⟨filed.path, filed.room, filed.lasting, fun clean => (filed.held clean).node same⟩

theorem recorded {lead rule event : Text} (filed : Filed p x) (leads : lead.Unsplit)
    (rules : rule.Unsplit)
    (events : event.Unsplit) (time : DateTime) :
    Filed p (x.1.record (.ofTexts lead rule event) time, x.2) := by
  have lasts :
      RecordLasts
      ((LedgerKey.ofTexts lead rule event).identity, .ofTexts lead rule event,
        .text time.isoText) := by
    simp [RecordLasts, LedgerKey.values, LedgerKey.ofTexts, WrittenKey.ofText,
      Value.lasts_text _ leads, Value.lasts_text _ rules, Value.lasts_text _ events,
      Value.lasts_text _ (Text.unsplit_ofString time.isoText)]
  refine ⟨filed.path, filed.room,
    ⟨filed.lasting.textual.record lead rule event time, fun e member => ?_⟩, fun clean => ?_⟩
  · exact recordLasts_put filed.lasting.each lasts (OrderedMap.mem_entries_boundTo member)
  · simp [record, filed.room] at clean

theorem ran {α : Type} {lead rule event : Text} {action : StoreOp Ledger α} (filed : Filed p x)
    (leads : lead.Unsplit)
    (rules : rule.Unsplit) (events : event.Unsplit) (acted : Filed p (action x).2) :
    Filed p (once (.ofTexts lead rule event) action x).2 := by
  rw [once_state]
  split
  · exact filed
  · revert acted
    rcases action x with ⟨fault | a, y⟩
    · exact id
    · exact fun acted => acted.recorded leads rules events y.2.now

/-- Whatever comes of writing a ledger. -/
theorem outcome (filed : Filed p x) (refuses : RefusesOnly (flush x).1) :
    Outcome p x.1.toWire x.1.dirty { x.1 with dirty := false } x (flush x) :=
  StateFile.outcome_of_run filed.path (flush_run x.1 x.2) refuses

theorem flushed (filed : Filed p x) (refuses : RefusesOnly (flush x).1) : Filed p (flush x).2 := by
  have left := (filed.outcome refuses).tells filed.held filed.lasting.toWire
    (loadRecords_toWire filed.lasting.textual)
  revert left
  rcases flush x with ⟨r, y, k⟩
  rintro (⟨rfl, tells⟩ | ⟨rfl, tells⟩)
  · exact ⟨filed.path, filed.room, ⟨filed.lasting.textual, filed.lasting.each⟩, fun _ => tells⟩
  · exact ⟨filed.path, filed.room, filed.lasting, tells⟩

end Filed

theorem Kept.filed {x : Ledger × Host} (kept : Kept p x) : Filed p x := by
  induction kept with
  | opened _ room textual run => exact .opened room textual run
  | elsewhere _ same filed => exact filed.elsewhere same
  | ran _ leads rules events _ filed acted => exact filed.ran leads rules events acted
  | flushed _ refuses filed => exact filed.flushed refuses

/-- On a path of clean names a write is never refused but as files are. -/
theorem Kept.refuses {x : Ledger × Host} (kept : Kept p x) (savable : Savable (some p)) :
    RefusesOnly (flush x).1 :=
  flush_refuses (kept.filed.path ▸ savable) x.2

/-- What the dirty flag of a ledger says: without it, a ledger that is opened on the file
has the same records in the same order; and when a write is refused, the file is as it
was and the flag stays. -/
structure Honest (p : FilePath) (x : Ledger × Host) : Prop where
  reopens : x.1.dirty = false → ∀ bound : Int, ∃ k, load (some p) bound x.2 =
    (.ok { path := some p, maxEntries := bound, processed := x.1.processed }, k)
  flush : RefusesOnly (flush x).1 →
    Outcome p x.1.toWire x.1.dirty { x.1 with dirty := false } x (flush x)

theorem Kept.honest {x : Ledger × Host} (kept : Kept p x) : Honest p x :=
  ⟨fun clean _ => StateFile.openAs_of_tells (kept.filed.held clean) _, kept.filed.outcome⟩

end Ledger

/-- The dirty flags of edge states and ledger tell what their files lack, however often they were
changed and written and whichever writes were refused. An engine whose edge states are refused
goes on to its ledger, and raises nothing. -/
theorem dirty_flags_tell (p q : FilePath) :
    (∀ x, EdgeStore.Kept p x → EdgeStore.Honest p x) ∧ (∀ x, Ledger.Kept q x → Ledger.Honest q x) ∧
    ∀ (g : Engine) (h : Host), RefusesOnly (EdgeStore.flush (g.edges, h)).1 →
      (∀ k, RefusesOnly (Ledger.flush (g.ledger, k)).1) → g.WritesBoth h :=
  ⟨fun _ kept => kept.honest, fun _ kept => kept.honest, fun _ _ => Engine.writesBoth_of_refuses⟩

namespace EdgeStore

def drawer : FilePath := .ofText "edge_states.json"
def tray : FilePath := .ofText "ledger.json"

theorem drawer_savable : Savable (some drawer) := by
  rintro p ⟨⟩
  exact ⟨⟨by decide +kernel, by decide +kernel⟩, by decide +kernel⟩

theorem tray_savable : Savable (some tray) := by
  rintro p ⟨⟩
  exact ⟨⟨by decide +kernel, by decide +kernel⟩, by decide +kernel⟩

def jam : Host := { Host.still with refusals := [false, false, true] }

def scored : EdgeStore × Host :=
  (observe (.ofTexts "L1" "hot") ((Trigger.scoreReaches (.ofNat 80)).matchEvent
    (Trigger.telling "e1" (.scoreChanged (.ofNat 70) (.ofNat 85))))
      ({ path := some drawer, maxEntries := 10 }, jam)).2

theorem scored_kept : Kept drawer scored := by
  have opened : Kept drawer ({ path := some drawer, maxEntries := 10 }, jam) :=
    .opened (h := jam) 10 (by decide) (List.forall_mem_nil _) rfl
  refine opened.observed (Text.unsplit_ofString _) (Text.unsplit_ofString _)
    (Trigger.matchEvent_lasting _ ?_ _)
  exact ⟨by decide +kernel, by decide +kernel⟩

def delivered : Ledger × Host :=
  (Ledger.once (.ofTexts "L1" "hot" "e1") (pure ()) ({ path := some tray, maxEntries := 10 }, jam)).2

theorem delivered_kept : Ledger.Kept tray delivered := by
  have opened : Ledger.Kept tray ({ path := some tray, maxEntries := 10 }, jam) :=
    .opened (h := jam) 10 (by decide) (List.forall_mem_nil _) rfl
  exact opened.ran (Text.unsplit_ofString _) (Text.unsplit_ofString _)
    (Text.unsplit_ofString _) opened

/-- Both stores are refused once and keep their flags; the next write takes all, and the stores
that are opened then have it. -/
theorem dirty_flags_tell_jammed :
    (∃ f k, flush scored = (.error (.file f), (scored.1, k)) ∧ scored.1.dirty = true) ∧
    (∃ s k l, flush (flush scored).2 = (.ok (), (s, k)) ∧ s.states.size = 1 ∧
      load (some drawer) 10 k =
        (.ok { path := some drawer, maxEntries := 10, states := s.states }, l)) ∧
    (∃ f k, Ledger.flush delivered = (.error (.file f), (delivered.1, k)) ∧ delivered.1.dirty = true) ∧
    (∃ t k l, Ledger.flush (Ledger.flush delivered).2 = (.ok (), (t, k)) ∧ t.processed.size = 1 ∧
      Ledger.load (some tray) 10 k =
        (.ok { path := some tray, maxEntries := 10, processed := t.processed }, l)) ∧
    Engine.WritesBoth { Engine.blank with edges := scored.1, ledger := delivered.1 } jam := by
  obtain ⟨edges, ledger, engine⟩ := dirty_flags_tell drawer tray
  have first := scored_kept.refuses drawer_savable
  have second := (scored_kept.flushed first).refuses drawer_savable
  have first' := delivered_kept.refuses tray_savable
  have second' := (delivered_kept.flushed first').refuses tray_savable
  have both := engine { Engine.blank with edges := scored.1, ledger := delivered.1 } jam
    (flush_refuses drawer_savable jam)
    (Ledger.flush_refuses tray_savable)
  refine ⟨?_, ?_, ?_, ?_, both⟩
  · obtain ⟨dirty, f, k, run, -⟩ := ((edges _ scored_kept).flush first).failed (by decide +kernel)
    exact ⟨f, k, run, dirty⟩
  · obtain ⟨l, reopened⟩ :=
      (edges _ ((scored_kept.flushed first).flushed second)).reopens (by decide +kernel) 10
    refine ⟨_, _, l, Prod.ext ?_ rfl, by decide +kernel, reopened⟩
    exact StateFile.of_toOption (by decide +kernel)
  · obtain ⟨dirty, f, k, run, -⟩ :=
      ((ledger _ delivered_kept).flush first').failed (by decide +kernel)
    exact ⟨f, k, run, dirty⟩
  · obtain ⟨l, reopened⟩ :=
      (ledger _ ((delivered_kept.flushed first').flushed second')).reopens (by decide +kernel) 10
    refine ⟨_, _, l, Prod.ext ?_ rfl, by decide +kernel, reopened⟩
    exact StateFile.of_toOption (by decide +kernel)

end EdgeStore
end LeadRules
