import LeadRules.Proofs.Saving
import LeadRules.Proofs.WellFormed
import LeadRules.Settings

/-! Settings that are loaded. A setting is what its variable of the environment says, if that is
not empty and converts; else what the file says of it, if all of the file converts; else the
default. Few files keep settings from being loaded: one that holds no object, one nested too
deeply, one with a number that does not fit. -/
namespace LeadRules

inductive Setting where
  | dataDir
  | logLevel
  | webhookTimeout
  | webhookRetries
  | webhookBackoff
  | userAgent
  | idleScanMinutes
  | ledgerMaxEntries
  | edgeStateMaxEntries
deriving DecidableEq

inductive Setting.Form where
  | asGiven
  | double
  | whole

namespace Setting

namespace Form

variable {form : Form} {v : Value} {fault : Fault}

def convert : Form → Value → Except Fault Value
  | asGiven, v => .ok v
  | double, v => Value.float <$> v.toFloating
  | whole, v => Value.int <$> v.toWhole

inductive Overflows : Form → Value → Fault → Prop
  | huge {v : Value} (huge : v.IsHuge) : Overflows double v (.overflow .wholeToDouble)
  | infinite (negative : Bool) :
      Overflows whole (.float (.infinity negative)) (.overflow .infinityToWhole)

theorem Overflows.raised (overflows : form.Overflows v fault) : form.convert v = .error fault := by
  cases overflows with
  | huge huge =>
    show Value.float <$> v.toFloating = _
    rw [Value.toFloating, Value.toDouble_of_huge huge]
    rfl
  | infinite negative => rfl

theorem Overflows.grave (overflows : form.Overflows v fault) :
    Settings.isUnreadable fault = false := by
  cases overflows <;> rfl

theorem toWhole_raises (v : Value) :
    Raises (fun fault => Settings.isUnreadable fault = true ∨ whole.Overflows v fault)
      v.toWhole := by
  fun_cases Value.toWhole v with
  | case3 x =>
    rw [Binary64.toWhole]
    split
    · exact .ok _
    next uncut =>
      cases x with
      | nan origin => exact .error (.inl rfl)
      | number negative rank bounded =>
        -- Only infinity has no whole part.
        have infinite : rank = Binary64.infinityRank := by
          by_contra finite
          rw [Binary64.truncate?_number (Nat.lt_of_le_of_ne bounded finite)] at uncut
          cases uncut
        subst infinite
        exact .error (.inr (.infinite negative))
  | case1 | case2 | case4 => exact .ok _
  | _ => exact .error (.inl rfl)

theorem toFloating_raises (v : Value) :
    Raises (fun fault => Settings.isUnreadable fault = true ∨ double.Overflows v fault)
      v.toFloating := by
  refine .bind ((Value.toDouble_raises v).mono fun fault ⟨huge, same⟩ => .inr (same ▸ .huge huge))
    fun read => ?_
  split
  · exact .ok _
  · exact .error (.inl rfl)
  · exact .error (.inl rfl)

/-- A value that does not convert is unreadable or does not fit. -/
theorem convert_raises (form : Form) (v : Value) :
    Raises (fun fault => Settings.isUnreadable fault = true ∨ form.Overflows v fault)
      (form.convert v) := by
  cases form with
  | asGiven => exact .ok v
  | double => exact .bind (toFloating_raises v) fun _ => .ok _
  | whole => exact .bind (toWhole_raises v) fun _ => .ok _

/-- A text that does not convert is a bad value. -/
theorem convert_text_raises (form : Form) (t : Text) :
    Raises (fun fault => ∃ cause, fault = .badValue cause) (form.convert (.text t)) := by
  cases form with
  | asGiven => exact .ok _
  | double =>
    refine .bind ?_ fun _ => .ok _
    refine .bind (.ok (Numeral.readDouble? t)) fun read => ?_
    split
    · exact .ok _
    · exact .error ⟨_, rfl⟩
    next untold => exact absurd rfl (untold t)
  | whole =>
    refine .bind ?_ fun _ => .ok _
    rw [Value.toWhole]
    split
    · exact .ok _
    · exact .error ⟨_, rfl⟩
    · exact .error ⟨_, rfl⟩

end Form

open Settings (isUnreadable)

variable {k key : Setting} {ks : List Setting} {data : List (Value × Value)} {s t : Settings}
  {fault : Fault}

def all : List Setting :=
  [dataDir, logLevel, webhookTimeout, webhookRetries, webhookBackoff, userAgent, idleScanMinutes,
    ledgerMaxEntries, edgeStateMaxEntries]

theorem mem_all (k : Setting) : k ∈ all := by cases k <;> decide

theorem nodup_all : all.Nodup := by decide

def name : Setting → String
  | dataDir => "data_dir"
  | logLevel => "log_level"
  | webhookTimeout => "webhook_timeout"
  | webhookRetries => "webhook_retries"
  | webhookBackoff => "webhook_backoff"
  | userAgent => "user_agent"
  | idleScanMinutes => "idle_scan_minutes"
  | ledgerMaxEntries => "ledger_max_entries"
  | edgeStateMaxEntries => "edge_state_max_entries"

def source? : Setting → Option String
  | dataDir => some "CRM_AUTOMATION_DATA_DIR"
  | logLevel => some "CRM_AUTOMATION_LOG_LEVEL"
  | webhookTimeout => some "CRM_AUTOMATION_WEBHOOK_TIMEOUT"
  | webhookRetries => some "CRM_AUTOMATION_WEBHOOK_RETRIES"
  | idleScanMinutes => some "CRM_AUTOMATION_IDLE_SCAN_MINUTES"
  | _ => none

def form : Setting → Form
  | dataDir | logLevel | userAgent => .asGiven
  | webhookTimeout | webhookBackoff => .double
  | webhookRetries | idleScanMinutes | ledgerMaxEntries | edgeStateMaxEntries => .whole

def of : Setting → Settings → Value
  | dataDir, s => s.dataDir
  | logLevel, s => s.logLevel
  | webhookTimeout, s => s.webhookTimeout
  | webhookRetries, s => s.webhookRetries
  | webhookBackoff, s => s.webhookBackoff
  | userAgent, s => s.userAgent
  | idleScanMinutes, s => s.idleScanMinutes
  | ledgerMaxEntries, s => s.ledgerMaxEntries
  | edgeStateMaxEntries, s => s.edgeStateMaxEntries

theorem of_put (k key : Setting) (v : Value) (s : Settings) :
    key.of (s.put k.name v) = if key = k then v else key.of s := by
  cases k <;> cases key <;> rfl

theorem updatedAt_put (k : Setting) (v : Value) (s : Settings) :
    (s.put k.name v).updatedAt = s.updatedAt := by
  cases k <;> rfl

def set? (k : Setting) (said : Option Value) (s : Settings) : Settings :=
  said.elim s fun v => s.put k.name v

theorem of_set? (k key : Setting) (said : Option Value) (s : Settings) :
    key.of (k.set? said s) = if key = k then said.getD (key.of s) else key.of s := by
  cases said with
  | none => exact (ite_self _).symm
  | some v => exact of_put k key v s

theorem updatedAt_set? (k : Setting) (said : Option Value) (s : Settings) :
    (k.set? said s).updatedAt = s.updatedAt := by
  cases said with
  | none => rfl
  | some v => exact updatedAt_put k v s

/-- Every default is of its own form. -/
theorem convert_initial (k : Setting) (home : FilePath) (now : DateTime) :
    k.form.convert (k.of (.initial home now)) = .ok (k.of (.initial home now)) := by
  cases k <;> rfl

def said? (data : List (Value × Value)) (k : Setting) : Option (Except Fault Value) :=
  (Value.lookup k.name data).map k.form.convert

/-- Whether an object leaves a setting out or has a value of it that converts. -/
def converts (data : List (Value × Value)) (k : Setting) : Bool := (k.said? data).all Except.isOk

/-- What an object tells of a setting, the default where it says nothing. -/
def told (start : Settings) (data : List (Value × Value)) (k : Setting) : Except Fault Value :=
  (k.said? data).getD (.ok (k.of start))

theorem told_eq (k : Setting) (home : FilePath) (now : DateTime) (data : List (Value × Value)) :
    k.told (.initial home now) data =
      k.form.convert (Value.memberOr k.name (k.of (.initial home now)) data) := by
  rw [told, said?, Value.memberOr]
  cases Value.lookup k.name data with
  | none => exact (convert_initial k home now).symm
  | some v => rfl

/-- Settings are read from an object one by one. -/
theorem ofWire_map (home : FilePath) (now : DateTime) (data : List (Value × Value)) :
    Settings.ofWire home now (.map data) =
      all.foldlM
        (fun s k => s.put k.name <$> k.told (.initial home now) data) (.initial home now) := by
  simp only [all, List.foldlM, told_eq, name, of, form, Form.convert, Settings.ofWire,
    Value.members, map_eq_pure_bind, bind_assoc, pure_bind]
  rfl

/-- Where all settings were read, each is what was told of it, and the others are as they were. -/
theorem of_foldlM_put {told : Setting → Except Fault Value} (apart : ks.Nodup)
    (run : ks.foldlM (fun s k => s.put k.name <$> told k) s = .ok t) :
    t.updatedAt = s.updatedAt ∧ (∀ k ∈ ks, told k = .ok (k.of t)) ∧ ∀ k ∉ ks, k.of t = k.of s := by
  induction ks generalizing s with
  | nil =>
    cases run
    exact ⟨rfl, nofun, fun _ _ => rfl⟩
  | cons k rest ih =>
    obtain ⟨apart, later⟩ := List.nodup_cons.1 apart
    rw [List.foldlM_cons] at run
    rcases said : told k with fault | v
    · rw [said] at run
      cases run
    · rw [said] at run
      obtain ⟨time, inside, outside⟩ := ih later run
      refine ⟨time.trans (updatedAt_put k v s), fun key member => ?_, fun key absent => ?_⟩
      · rcases List.mem_cons.1 member with rfl | member
        · rw [said, outside _ apart, of_put, if_pos rfl]
        · exact inside key member
      · obtain ⟨other, absent⟩ := not_or.1 (List.mem_cons.not.1 absent)
        rw [outside key absent, of_put, if_neg other]

/-- Reading settings fails as the first of them does that fails. -/
theorem foldlM_put_error_iff {told : Setting → Except Fault Value} :
    ks.foldlM (fun s k => s.put k.name <$> told k) s = .error fault ↔
      ∃ before k after, ks = before ++ k :: after ∧ (∀ j ∈ before, (told j).isOk = true) ∧
        told k = .error fault := by
  induction ks generalizing s with
  | nil => exact iff_of_false nofun fun ⟨before, k, after, empty, _⟩ => by simp at empty
  | cons k rest ih =>
    rw [List.foldlM_cons]
    rcases said : told k with first | v
    · show (.error first : Except Fault Settings) = .error fault ↔ _
      rw [Except.error.injEq]
      refine ⟨fun same => ⟨[], k, rest, rfl, nofun, same ▸ said⟩, ?_⟩
      rintro ⟨_ | ⟨j, before⟩, key, after, order, fine, failed⟩
      · obtain ⟨rfl, -⟩ := List.cons.inj order
        exact Except.error.inj (said.symm.trans failed)
      · obtain ⟨rfl, -⟩ := List.cons.inj order
        have := fine k List.mem_cons_self
        rw [said] at this
        cases this
    · refine (ih (s := s.put k.name v)).trans ⟨?_, ?_⟩
      · rintro ⟨before, key, after, rfl, fine, failed⟩
        exact ⟨k :: before, key, after, rfl, List.forall_mem_cons.2 ⟨by rw [said]; rfl, fine⟩, failed⟩
      · rintro ⟨_ | ⟨j, before⟩, key, after, order, fine, failed⟩
        · obtain ⟨rfl, -⟩ := List.cons.inj order
          cases said.symm.trans failed
        · obtain ⟨rfl, rfl⟩ := List.cons.inj order
          exact ⟨before, key, after, rfl, (List.forall_mem_cons.1 fine).2, failed⟩

theorem isOk_told (start : Settings) (data : List (Value × Value)) (k : Setting) :
    (k.told start data).isOk = k.converts data := by
  rw [told, converts]
  cases k.said? data <;> rfl

theorem given_of_told {start : Settings} (failed : k.told start data = .error fault) :
    ∃ v, Value.lookup k.name data = some v ∧ k.form.convert v = .error fault := by
  rw [told, said?] at failed
  cases given : Value.lookup k.name data with
  | none =>
    rw [given] at failed
    cases failed
  | some v =>
    rw [given] at failed
    exact ⟨v, rfl, failed⟩

theorem of_told {start : Settings} {v : Value} (told : k.told start data = .ok v) :
    v = ((k.said? data).bind Except.toOption).getD (k.of start) := by
  rw [Setting.told] at told
  cases given : k.said? data with
  | none =>
    rw [given] at told
    exact (Except.ok.inj told).symm
  | some x =>
    rw [given] at told
    rw [show x = .ok v from told]
    rfl

def ofText? (t : String) (k : Setting) : Option Value :=
  match Json.read t with
  | .ok (.map data) => if all.all (converts data) then (k.said? data).bind Except.toOption else none
  | _ => none

def ofFile? (path : FilePath) (files : FileTree) (k : Setting) : Option Value :=
  (StateFile.text path files).toOption.bind k.ofText?

/-- What the environment says of a setting: something if its variable is not empty and converts. -/
def ofEnvironment? (environment : Settings.Environment) (k : Setting) : Option Value := do
  let given ← environment.lookup (← k.source?)
  if given = "" then none else (k.form.convert (.text given)).toOption

def override? (k : Setting) : Option (String × String × (Text → Except Fault Value)) :=
  k.source?.map fun source => (source, k.name, fun given => k.form.convert (.text given))

theorem overrides_eq : Settings.overrides = all.filterMap override? := rfl

end Setting

namespace Settings

open Setting (all)

variable {path : FilePath} {environment : Environment} {h : Host} {s : Settings}
  {fault : Fault} {t : String}

/-- Texts of a settings file that keep it from being loaded, and the faults they come to. -/
inductive Breaks (t : String) : Fault → Prop
  | deep {container : Json.Container} (deep : Json.read t = .error (.tooDeep container)) :
      Breaks t (.tooDeep container)
  | shapeless {v : Value} (read : Json.read t = .ok v) (shapeless : ∀ data, v ≠ .map data) :
      Breaks t (.noMember v.shape "get")
  /-- The first setting that does not convert is a number that does not fit. -/
  | overflow {data : List (Value × Value)} {before after : List Setting} {k : Setting} {v : Value}
      {fault : Fault}
      (read : Json.read t = .ok (.map data)) (order : all = before ++ k :: after)
      (convert : ∀ j ∈ before, j.converts data = true) (given : Value.lookup k.name data = some v)
      (overflows : k.form.Overflows v fault) : Breaks t fault

def ofText (home : FilePath) (now : DateTime) (t : String) : Except Fault Settings :=
  (Json.read t).mapError .ofReadProblem >>= ofWire home now

structure Follows (said : Setting → Option Value) (home : FilePath) (now : DateTime)
    (s : Settings) : Prop where
  time : s.updatedAt = now
  setting (k : Setting) : k.of s = (said k).getD (k.of (initial home now))

inductive Ending (home : FilePath) (now : DateTime) (t : String) : Except Fault Settings → Prop
  | breaks {fault : Fault} (breaks : Breaks t fault) : Ending home now t (.error fault)
  | follows {s : Settings} (follows : Follows (·.ofText? t) home now s) : Ending home now t (.ok s)
  | unreadable {fault : Fault} (unreadable : isUnreadable fault = true)
      (silent : ∀ k : Setting, k.ofText? t = none) :
      Ending home now t (.error fault)

theorem Breaks.raised (breaks : Breaks t fault) (home : FilePath) (now : DateTime) :
    ofText home now t = .error fault := by
  cases breaks with
  | deep deep =>
    rw [ofText, deep]
    rfl
  | @shapeless v read shapeless =>
    rw [ofText, read]
    cases v with
    | map data => exact absurd rfl (shapeless data)
    | _ => rfl
  | @overflow data before after k v _ read order convert given overflows =>
    rw [ofText, read]
    show ofWire home now (.map data) = _
    rw [Setting.ofWire_map, Setting.foldlM_put_error_iff]
    refine ⟨before, k, after, order, fun j member => (Setting.isOk_told _ _ _).trans (convert j member), ?_⟩
    rw [Setting.told, Setting.said?, given]
    exact overflows.raised

theorem Breaks.grave (breaks : Breaks t fault) : isUnreadable fault = false := by
  cases breaks with
  | deep | shapeless => rfl
  | overflow _ _ _ _ overflows => exact overflows.grave

/-- An object is read setting by setting: the first that does not convert decides, and where all
do each is as it is told. -/
theorem ofText_object {data : List (Value × Value)} (read : Json.read t = .ok (.map data))
    (home : FilePath) (now : DateTime) :
    Ending home now t (ofText home now t) := by
  have whole :
      ofText home now t = all.foldlM (fun s k => s.put k.name <$> k.told (.initial home now) data)
      (.initial home now) := by
    rw [ofText, read, ← Setting.ofWire_map]
    rfl
  have spoken (k : Setting) : k.ofText? t = if all.all (Setting.converts data) then
      (k.said? data).bind Except.toOption else none := by
    rw [Setting.ofText?, read]
  rcases result : ofText home now t with fault | s
  · obtain ⟨before, k, after, order, fine, failed⟩ :=
      Setting.foldlM_put_error_iff.1 (whole.symm.trans result)
    obtain ⟨v, given, unconverted⟩ := Setting.given_of_told failed
    rcases k.form.convert_raises v fault unconverted with unreadable | overflows
    · have bad : all.all (Setting.converts data) = false := by
        rw [List.all_eq_false]
        refine ⟨k, k.mem_all, ?_⟩
        rw [← Setting.isOk_told (.initial home now), failed]
        exact Bool.false_ne_true
      exact .unreadable unreadable fun key => by rw [spoken, bad, if_neg Bool.false_ne_true]
    · exact .breaks
        (.overflow read order (fun j member => Setting.isOk_told _ _ j ▸ fine j member)
          given overflows)
  · obtain ⟨time, told, -⟩ := Setting.of_foldlM_put Setting.nodup_all (whole.symm.trans result)
    have fine : all.all (Setting.converts data) = true := by
      refine List.all_eq_true.2 fun k member => ?_
      rw [← Setting.isOk_told (.initial home now), told k member]
      rfl
    refine .follows ⟨time, fun k => ?_⟩
    rw [spoken, fine, if_pos rfl]
    exact Setting.of_told (told k k.mem_all)

theorem ofText_ending (home : FilePath) (now : DateTime) (t : String) :
    Ending home now t (ofText home now t) := by
  rcases read : Json.read t with problem | v
  · have silent (k : Setting) : k.ofText? t = none := by rw [Setting.ofText?, read]
    rw [ofText, read]
    cases problem with
    | tooDeep container => exact .breaks (.deep read)
    | malformed | tooManyDigits => exact .unreadable rfl silent
  · by_cases shapeless : ∀ data, v ≠ .map data
    · have breaks := Breaks.shapeless read shapeless
      rw [breaks.raised]
      exact .breaks breaks
    · obtain ⟨data, rfl⟩ := not_forall_not.1 shapeless
      exact ofText_object read home now

/-- An override comes to what the environment says of its setting, and changes
nothing else but the log. -/
theorem applyOverride_run {k : Setting} {entry : String × String × (Text → Except Fault Value)}
    (found : k.override? = some entry)
    (environment : Environment) (s : Settings) (h : Host) :
    ∃ h', applyOverride environment s entry h =
      (.ok (k.set? (k.ofEnvironment? environment) s), h') ∧ h.Relogged h' := by
  obtain ⟨source, has, rfl⟩ := Option.map_eq_some_iff.1 found
  simp only [applyOverride, Setting.ofEnvironment?, has, Option.bind_eq_bind, Option.bind_some]
  cases environment.lookup source with
  | none => exact ⟨h, rfl, .refl h⟩
  | some given =>
    simp only [Option.bind_some]
    by_cases empty : given = ""
    · rw [if_pos empty, if_pos empty]
      exact ⟨h, rfl, .refl h⟩
    · rw [if_neg empty, if_neg empty]
      rcases converted : k.form.convert (.text given) with fault | v
      · obtain ⟨cause, rfl⟩ := k.form.convert_text_raises given fault converted
        exact ⟨_, rfl, .note .warning _ h⟩
      · exact ⟨h, rfl, .refl h⟩

/-- Overrides of different settings. What comes after one leaves its setting alone. -/
theorem applyOverrides_run (environment : Environment) {ks : List Setting} (apart : ks.Nodup)
    (s : Settings) (h : Host) :
    ∃ s' h', (ks.filterMap Setting.override?).foldlM (applyOverride environment) s h =
      (.ok s', h') ∧ h.Relogged h' ∧
      s'.updatedAt = s.updatedAt ∧ ∀ k : Setting,
      k.of s' = if k ∈ ks then (k.ofEnvironment? environment).getD (k.of s) else k.of s := by
  induction ks generalizing s h with
  | nil => exact ⟨s, h, rfl, .refl h, rfl, fun _ => rfl⟩
  | cons k rest ih =>
    obtain ⟨apart, later⟩ := List.nodup_cons.1 apart
    obtain ⟨g, run, relogged⟩ :
      ∃ g, ((k :: rest).filterMap Setting.override?).foldlM (applyOverride environment) s h =
        (rest.filterMap Setting.override?).foldlM (applyOverride environment)
          (k.set? (k.ofEnvironment? environment) s) g ∧
          h.Relogged g := by
      rcases found : k.override? with _ | entry
      · have free : k.source? = none := Option.map_eq_none_iff.1 found
        rw [List.filterMap_cons_none found, Setting.ofEnvironment?, free]
        exact ⟨h, rfl, .refl h⟩
      · obtain ⟨g, run, relogged⟩ := applyOverride_run found environment s h
        exact ⟨g, by rw [List.filterMap_cons_some found, List.foldlM_cons, Op.run_bind, run], relogged⟩
    obtain ⟨s', h', runs, relogged', time, settings⟩ :=
      ih later (k.set? (k.ofEnvironment? environment) s) g
    refine ⟨s', h', run.trans runs, relogged.trans relogged',
      time.trans (Setting.updatedAt_set? _ _ _), fun key => ?_⟩
    rw [settings, Setting.of_set?]
    by_cases same : key = k
    · subst same
      simp [apart]
    · simp [same]

/-- The environment is applied to any settings there are, and never fails. -/
theorem overrides_run (environment : Environment) (s : Settings) (h : Host) :
    ∃ s' h', overrides.foldlM (applyOverride environment) s h = (.ok s', h') ∧ h.Relogged h' ∧
      s'.updatedAt = s.updatedAt ∧
      ∀ k : Setting, k.of s' = (k.ofEnvironment? environment).getD (k.of s) := by
  obtain ⟨s', h', run, relogged, time, settings⟩ :=
    applyOverrides_run environment Setting.nodup_all s h
  exact ⟨s', h', Setting.overrides_eq ▸ run, relogged, time, fun k => (settings k).trans (if_pos k.mem_all)⟩

/-- A file that keeps settings from being loaded: it cannot even be told whether there is one, or
its text breaks the program. -/
inductive Stops (path : FilePath) (files : FileTree) : Fault → Prop
  | untold {fault : Fault} (untold : files.contains path = .error fault) : Stops path files fault
  | breaks {t : String} {fault : Fault} (text : StateFile.text path files = .ok t)
      (breaks : Breaks t fault) : Stops path files fault

theorem loadFile_run (path : FilePath) (h : Host) :
    loadFile path h = (match h.files.contains path with
    | .error fault => (.error fault, h)
    | .ok false => (.ok (initial h.home h.now), h)
    | .ok true => match StateFile.text path h.files >>= ofText h.home h.now with
      | .ok s => (.ok s, h)
      | .error fault =>
        if isUnreadable fault then
          (.ok (initial h.home h.now),
            h.note .error ("Error loading engine config: " ++ fault.message))
        else (.error fault, h)) := by
  have read : StateFile.parse path h.files >>= ofWire h.home h.now =
      StateFile.text path h.files >>= ofText h.home h.now := by
    rw [StateFile.parse, bind_assoc]
    rfl
  simp only [loadFile, Op.run_bind, Op.run_get, Op.run_ofExcept, read]
  rcases h.files.contains path with fault | _ | _
  · rfl
  · rfl
  · rcases StateFile.text path h.files >>= ofText h.home h.now with fault | s
    · simp only [Bool.not_true, Bool.false_eq_true, if_false, Op.run_bind, Op.run_ite, Op.run_throw,
        Op.run_log, Op.run_pure]
      cases isUnreadable fault <;> rfl
    · rfl

/-- What makes a text of a file unreadable is no reason to stop. -/
theorem text_raises (path : FilePath) (files : FileTree) :
    Raises (fun fault => isUnreadable fault = true) (StateFile.text path files) := by
  have read : Raises (fun fault => isUnreadable fault = true) (files.read path) :=
    (FailsAs.anyPath (fun _ => rfl) fun _ => rfl).read trivial files
  intro fault failed
  rw [StateFile.text] at failed
  rcases given : files.read path with cause | s <;> rw [given] at failed <;> cases failed
  exact read fault given

/-- Where a text is read there is a file. -/
theorem contains_of_text {files : FileTree} (text : StateFile.text path files = .ok t) :
    files.contains path = .ok true := by
  rw [StateFile.text, FileTree.read] at text
  rw [FileTree.contains]
  rcases found : files.find path with fault | ⟨place, _ | node⟩
  · rw [found] at text
    cases text
  · rw [found] at text
    cases text
  · rfl

theorem Stops.raised (stops : Stops path h.files fault) : loadFile path h = (.error fault, h) := by
  cases stops with
  | untold untold => rw [loadFile_run, untold]
  | breaks text breaks =>
    have read : StateFile.text path h.files >>= ofText h.home h.now = .error fault := by
      rw [text]
      exact breaks.raised h.home h.now
    simp only [loadFile_run, contains_of_text text, read, breaks.grave, Bool.false_eq_true, if_false]

theorem loadFile_unreadable (there : h.files.contains path = .ok true)
    (failed : StateFile.text path h.files >>= ofText h.home h.now = .error fault)
    (unreadable : isUnreadable fault = true) :
    ∃ h', loadFile path h = (.ok (initial h.home h.now), h') ∧ h.Relogged h' := by
  refine ⟨_, ?_, .note .error ("Error loading engine config: " ++ fault.message) h⟩
  simp only [loadFile_run, there, failed, unreadable, if_true]

/-- A file stops the program, or each setting is as the file says, and by default where it says
nothing or cannot be read. -/
theorem loadFile_settles (path : FilePath) (h : Host) :
    (∃ fault, Stops path h.files fault) ∨
      ∃ s h', loadFile path h = (.ok s, h') ∧ h.Relogged h' ∧
        Follows (·.ofFile? path h.files) h.home h.now s := by
  have unsaid (silent : ∀ k : Setting, k.ofFile? path h.files = none) :
      Follows (·.ofFile? path h.files) h.home h.now (initial h.home h.now) :=
    ⟨rfl, fun k => by rw [silent, Option.getD_none]⟩
  rcases given : StateFile.text path h.files with cause | t
  · have silent (k : Setting) : k.ofFile? path h.files = none := by
      rw [Setting.ofFile?, given]
      rfl
    rcases there : h.files.contains path with fault | _ | _
    · exact .inl ⟨fault, .untold there⟩
    · exact .inr ⟨_, h, by rw [loadFile_run, there], .refl h, unsaid silent⟩
    · have failed : StateFile.text path h.files >>= ofText h.home h.now = .error cause := by
        rw [given]
        rfl
      obtain ⟨h', run, relogged⟩ :=
        loadFile_unreadable there failed (text_raises path h.files cause given)
      exact .inr ⟨_, h', run, relogged, unsaid silent⟩
  · have there := contains_of_text given
    have spoken (k : Setting) : k.ofFile? path h.files = k.ofText? t := by
      rw [Setting.ofFile?, given]
      rfl
    have read : StateFile.text path h.files >>= ofText h.home h.now = ofText h.home h.now t := by
      rw [given]
      rfl
    have ending := ofText_ending h.home h.now t
    rw [← read] at ending
    rcases result : StateFile.text path h.files >>= ofText h.home h.now with fault | s <;>
      rw [result] at ending
    · cases ending with
      | breaks breaks => exact .inl ⟨fault, .breaks given breaks⟩
      | unreadable unreadable silent =>
        obtain ⟨h', run, relogged⟩ := loadFile_unreadable there result unreadable
        exact .inr ⟨_, h', run, relogged, unsaid fun k => (spoken k).trans (silent k)⟩
    · cases ending with
      | follows follows =>
        exact .inr
          ⟨s, h, by simp only [loadFile_run, there, result], .refl h, follows.time,
            fun k => by rw [spoken, follows.setting]⟩

/-- Loading settings stops just for a file that stops it. Otherwise each setting is what the
environment says of it, else what the file says, else the default. -/
theorem load_settles (path : FilePath) (environment : Environment) (h : Host) :
    (∀ fault, (load path environment h).1 = .error fault ↔ Stops path h.files fault) ∧
    ((∃ fault, Stops path h.files fault) ∨
      ∃ s h', load path environment h = (.ok s, h') ∧ h.Relogged h' ∧
        Follows (fun k => (k.ofEnvironment? environment).or (k.ofFile? path h.files)) h.home
          h.now s) := by
  have stopped {fault : Fault} (stops : Stops path h.files fault) :
      load path environment h = (.error fault, h) := by
    rw [load, Op.run_bind, stops.raised]
  rcases loadFile_settles path h with ⟨first, stops⟩ | ⟨s, g, run, relogged, follows⟩
  · refine ⟨fun fault => ⟨fun failed => ?_, fun stops => congrArg Prod.fst (stopped stops)⟩,
      .inl ⟨first, stops⟩⟩
    rw [stopped stops] at failed
    exact Except.error.inj failed ▸ stops
  · obtain ⟨s', h', overridden, relogged', time, settings⟩ := overrides_run environment s g
    have loaded : load path environment h = (.ok s', h') := by
      rw [load, Op.run_bind, run]
      exact overridden
    refine ⟨fun fault => ⟨fun failed => ?_, fun stops => congrArg Prod.fst (stopped stops)⟩,
      .inr ⟨s', h', loaded,
        relogged.trans relogged', time.trans follows.time, fun k => ?_⟩⟩
    · rw [loaded] at failed
      cases failed
    · rw [settings, follows.setting]
      cases k.ofEnvironment? environment <;> rfl

def endless : Host where
  now := .first
  files :=
    ⟨.ofList
      [({ names := [Text.bytes "config.json"] },
        .file "\x7b\"log_level\": \"DEBUG\", \"webhook_retries\": 1e400\x7d")]⟩

/-- Infinity for a whole number stops the program; without the file only what the environment
says is not by default. -/
theorem load_settles_endless :
    (load (.ofText "config.json") [("CRM_AUTOMATION_WEBHOOK_RETRIES", "5")] endless).1 = .error
    (.overflow .infinityToWhole) ∧
    ∃ s h', load (.ofText "config.json") [("CRM_AUTOMATION_WEBHOOK_RETRIES", "5")]
      { endless with files := {} } = (.ok s, h') ∧
      s.webhookRetries = .int 5 ∧ s.webhookTimeout = .float (.ofNat 10) := by
  have text : StateFile.text (.ofText "config.json") endless.files =
      .ok "\x7b\"log_level\": \"DEBUG\", \"webhook_retries\": 1e400\x7d" :=
        StateFile.of_toOption (by decide +kernel)
  have read : Json.read "\x7b\"log_level\": \"DEBUG\", \"webhook_retries\": 1e400\x7d" =
      .ok (.map
        [(.text "log_level", .text "DEBUG"),
          (.text "webhook_retries", .float (.infinity false))]) :=
    StateFile.of_toOption (by decide +kernel)
  have order :
    all = [.dataDir, .logLevel, .webhookTimeout] ++ .webhookRetries ::
    [.webhookBackoff, .userAgent, .idleScanMinutes,
      .ledgerMaxEntries, .edgeStateMaxEntries] := rfl
  have absent : FileTree.contains {} (.ofText "config.json") = .ok false :=
    StateFile.of_toOption (by decide +kernel)
  constructor
  · exact ((load_settles _ _ endless).1 _).2
      (.breaks text (.overflow read order (by decide +kernel) rfl (.infinite false)))
  · obtain ⟨fault, untold | ⟨text, -⟩⟩ | ⟨s, h', run, -, follows⟩ :=
      (load_settles (.ofText "config.json")
        [("CRM_AUTOMATION_WEBHOOK_RETRIES", "5")] { endless with files := {} }).2
    · cases absent.symm.trans untold
    · cases absent.symm.trans (contains_of_text text)
    · exact ⟨s, h', run, (follows.setting .webhookRetries).trans (by decide +kernel),
        (follows.setting .webhookTimeout).trans (by decide +kernel)⟩

end Settings
end LeadRules
