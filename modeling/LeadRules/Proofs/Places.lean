import LeadRules.Proofs.Disk
import LeadRules.Proofs.Files
import LeadRules.Proofs.JsonValues
import LeadRules.Proofs.Saving

/-! Where paths lead. Whatever stands there, a path leads to one place only, so a path still tells
what it told while files are saved at other places, and when saving at its own place fails. So
there are three things that can come of writing a store. -/
namespace LeadRules

def Place.enter (here : Place) (part : Text) : Place :=
  if part = FilePath.up then here.up else here.named part

theorem Place.up_ne_named (d : Place) (name : Text) : d.up ≠ d.named name := by
  intro same
  have names := congrArg (fun place : Place => place.names.length) same
  have longer : (d.named name).names.length = d.names.length + 1 := by simp [named, below]
  have shorter : d.up.names.length ≤ d.names.length := by
    unfold up
    split
    · exact Nat.zero_le _
    · simp
  simp only [longer] at names
  omega

namespace FilePath

def place (p : FilePath) : Place := p.parts.foldl Place.enter p.start

/-- A path that has to do with a place: it leads there, or a file is first written there. -/
def Touches (q : FilePath) (place : Place) : Prop :=
  q.place = place ∨ ∃ r, q.temporary = .ok r ∧ r.place = place

theorem beside_ne_up (name : Text) : StateFile.beside name ≠ up := by
  intro same
  have sizes := congrArg (fun t : Text => t.points.length) same
  have longer : (StateFile.beside name).points.length = name.points.length + 4 := by
    rw [StateFile.beside, Text.points_append, List.length_append]
    rfl
  have two : up.points.length = 2 := rfl
  simp only [longer, two] at sizes
  omega

/-- A file is first written beside its place. -/
theorem temporary_place {p q : FilePath} (temporary : p.temporary = .ok q) : q.place ≠ p.place := by
  unfold FilePath.temporary at temporary
  cases last : p.parts.getLast? with
  | none =>
    rw [last] at temporary
    cases temporary
  | some name =>
    rw [last] at temporary
    obtain rfl := Except.ok.inj temporary
    obtain ⟨folders, parts⟩ := List.getLast?_eq_some_iff.1 last
    let d := folders.foldl Place.enter p.start
    have here : p.place = d.enter name := by simp [place, parts, d]
    have there : place { p with parts := p.parts.dropLast ++ [name ++ ".tmp"] } =
        d.named (StateFile.beside name) := by
      have start : start { p with parts := p.parts.dropLast ++ [name ++ ".tmp"] } = p.start := rfl
      rw [place, start]
      simp only [parts, List.dropLast_concat, List.foldl_append, List.foldl_cons, List.foldl_nil]
      exact if_neg (beside_ne_up name)
    rw [here, there, Place.enter]
    split
    · exact (Place.up_ne_named d _).symm
    · exact (StateFile.named_ne_beside d name).symm

end FilePath

namespace FileTree

variable {t u w : FileTree} {p q : FilePath} {here d place : Place} {parts : List Text}
  {node : Option FileNode}

theorem follow_place (found : t.follow here parts = .ok (d, node)) :
    d = parts.foldl Place.enter here ∧ (node ≠ some .folder → t.nodes.get? d = node) := by
  induction parts generalizing here with
  | nil =>
    cases found
    exact ⟨rfl, fun none => absurd rfl none⟩
  | cons part rest ih =>
    by_cases up : part = FilePath.up
    · subst up
      rw [follow_up] at found
      exact ih found
    · have enter : here.enter part = here.named part := if_neg up
      by_cases short : part.bytes.length ≤ FilePath.nameLimit
      · have inside : t.node? (here.named part) = t.nodes.get? (here.named part) := by
          simp [node?, Place.named, Place.below]
        rw [follow_named ⟨short, up⟩] at found
        rw [List.foldl_cons, enter]
        split at found
        next => exact ih found
        next file _ there =>
          split at found
          next last =>
            cases found
            rw [List.isEmpty_iff.1 last]
            exact ⟨rfl, fun _ => inside.symm.trans there⟩
          next => cases found
        next there =>
          split at found
          next last =>
            cases found
            rw [List.isEmpty_iff.1 last]
            exact ⟨rfl, fun _ => inside.symm.trans there⟩
          next => cases found
      · have long : FilePath.nameLimit < (part.points.flatMap Point.nameBytes).length :=
          Nat.not_le.1 short
        rw [follow, if_neg up] at found
        simp only [long, if_true] at found
        cases found

theorem file_ne_folder (s : String) : some (FileNode.file s) ≠ some .folder := nofun

theorem find_place (found : t.find p = .ok (d, node)) :
    d = p.place ∧ (node ≠ some .folder → t.nodes.get? d = node) :=
  follow_place (find_ok found).2

/-- A file that now stands where a path leads is what the path leads to. -/
theorem follow_file (keeps : t.KeepsFolders u) (found : t.follow here parts = .ok (d, node))
    (free : node ≠ some .folder)
    {s : String} (stands : u.nodes.get? d = some (.file s)) :
    u.follow here parts = .ok (d, some (.file s)) := by
  induction parts generalizing here with
  | nil =>
    cases found
    exact absurd rfl free
  | cons part rest ih =>
    by_cases up : part = FilePath.up
    · subst up
      rw [follow_up] at found ⊢
      exact ih found
    · by_cases short : part.bytes.length ≤ FilePath.nameLimit
      · have inside : u.node? (here.named part) = u.nodes.get? (here.named part) := by
          simp [node?, Place.named, Place.below]
        rw [follow_named ⟨short, up⟩] at found ⊢
        split at found
        next folder =>
          rw [keeps _ folder]
          exact ih found
        all_goals
          split at found
          next last =>
            cases found
            rw [inside, stands]
            simp [last]
          next => cases found
      · have long : FilePath.nameLimit < (part.points.flatMap Point.nameBytes).length :=
          Nat.not_le.1 short
        rw [follow, if_neg up] at found
        simp only [long, if_true] at found
        cases found

theorem find_file (keeps : t.KeepsFolders u) (found : t.find p = .ok (d, node))
    (free : node ≠ some .folder) {s : String}
    (stands : u.nodes.get? d = some (.file s)) : u.find p = .ok (d, some (.file s)) := by
  obtain ⟨fits, followed⟩ := find_ok found
  rw [find_of_fits fits, follow_file keeps followed free stands]

/-- The second tree has all folders of the first and, at a place, the same file or none. -/
structure Spares (place : Place) (t u : FileTree) : Prop where
  folders : t.KeepsFolders u
  file : ∀ s, u.nodes.get? place = some (.file s) ↔ t.nodes.get? place = some (.file s)

namespace Spares

theorem refl (place : Place) (t : FileTree) : Spares place t t := ⟨fun _ => id, fun _ => Iff.rfl⟩

theorem trans (first : Spares place t u) (second : Spares place u w) : Spares place t w :=
  ⟨fun there folder => second.folders there (first.folders there folder),
    fun s => (second.file s).trans (first.file s)⟩

theorem find {s : String} (spares : Spares p.place t u)
    (found : t.find p = .ok (d, some (.file s))) :
    u.find p = .ok (d, some (.file s)) := by
  obtain ⟨rfl, stands⟩ := find_place found
  exact find_file spares.folders found (file_ne_folder s)
    ((spares.file s).2 (stands (file_ne_folder s)))

end Spares

theorem put_spares {s : String} (free : t.nodes.get? d ≠ some .folder) (apart : d ≠ place) :
    Spares place t ⟨t.nodes.put d (.file s)⟩ :=
  ⟨put_keeps free _, fun r => by rw [OrderedMap.get?_put, if_neg apart.symm]⟩

theorem makeFolder_spares (place : Place) (made : t.makeFolder q = .ok u) : Spares place t u := by
  unfold makeFolder at made
  rcases found : t.find q with fault | ⟨d, _ | _ | s⟩ <;> rw [found] at made
  · cases made
  · cases made
    have free := (find_place found).2 nofun
    refine ⟨put_keeps (by simp [free]) _, fun s => ?_⟩
    rw [OrderedMap.get?_put]
    split
    next same => simp [same, free]
    next => rfl
  · cases made
    exact .refl place t
  · cases made

theorem write_ok {s : String} (written : t.write q s = .ok u) :
    ∃ node, t.find q = .ok (q.place, node) ∧
    node ≠ some .folder ∧ t.nodes.get? q.place ≠ some .folder ∧
    u = ⟨t.nodes.put q.place (.file s)⟩ := by
  have finish {d : Place} {node : Option FileNode} (found : t.find q = .ok (d, node))
    (free : node ≠ some .folder)
      (same : (⟨t.nodes.put d (.file s)⟩ : FileTree) = u) : ∃ node, t.find q = .ok (q.place, node) ∧
        node ≠ some .folder ∧ t.nodes.get? q.place ≠ some .folder ∧
        u = ⟨t.nodes.put q.place (.file s)⟩ := by
    obtain ⟨rfl, stands⟩ := find_place found
    exact ⟨node, found, free, stands free ▸ free, same.symm⟩
  unfold write at written
  rcases found : t.find q with fault | ⟨d, _ | _ | _⟩ <;> rw [found] at written finish
  · cases written
  · exact finish rfl nofun (Except.ok.inj written)
  · cases written
  · exact finish rfl nofun (Except.ok.inj written)

theorem replace_ok (moved : t.replace q p = .ok u) :
    ∃ s node, t.find q = .ok (q.place, some (.file s)) ∧
    t.find p = .ok (p.place, node) ∧ node ≠ some .folder ∧
    u = ⟨(t.nodes.erase q.place).put p.place (.file s)⟩ := by
  unfold replace at moved
  rcases source : t.find q with fault | ⟨d, _ | _ | s⟩ <;>
    rcases target : t.find p with fault' | ⟨goal, node⟩ <;>
    rw [source, target] at moved <;> try cases moved
  simp only [bind, Except.bind] at moved
  split at moved
  · cases moved
  · split at moved
    · cases moved
    next free =>
      obtain rfl := (find_place source).1
      obtain rfl := (find_place target).1
      exact ⟨s, node, rfl, rfl, free, (Except.ok.inj moved).symm⟩

theorem replace_keeps (moved : t.replace q p = .ok u) : t.KeepsFolders u := by
  obtain ⟨s, node, source, target, free, rfl⟩ := replace_ok moved
  have held := (find_place source).2 (file_ne_folder s)
  have open_ := (find_place target).2 free
  intro there folder
  unfold node? at folder ⊢
  split at folder
  next top => simp [top]
  next below =>
    have apart : there ≠ p.place := by
      rintro rfl
      exact free (open_.symm.trans folder)
    have apart' : there ≠ q.place := by
      rintro rfl
      cases held.symm.trans folder
    rw [if_neg below, OrderedMap.get?_put, if_neg apart, OrderedMap.get?_erase, if_neg apart', folder]

theorem replace_spares (moved : t.replace q p = .ok u) (source : q.place ≠ place)
    (target : p.place ≠ place) :
    Spares place t u := by
  have keeps := replace_keeps moved
  obtain ⟨s, node, -, -, -, rfl⟩ := replace_ok moved
  refine ⟨keeps, fun r => ?_⟩
  rw [OrderedMap.get?_put, if_neg target.symm, OrderedMap.get?_erase, if_neg source.symm]

end FileTree

namespace Op

open FileTree (Spares)

variable {α β : Type} {place : Place} {p q : FilePath}

def Spares (place : Place) (op : Op Host α) : Prop :=
  Within (fun h k => FileTree.Spares place h.files k.files) op

namespace Spares

theorem bind {op : Op Host α} {next : α → Op Host β} (first : Spares place op)
    (later : ∀ a, Spares place (next a)) :
    Spares place (op >>= next) := Within.bind .trans first later

theorem ofExcept_bind {x : Except Fault α} {next : α → Op Host β}
    (later : ∀ a, x = .ok a → Spares place (next a)) :
    Spares place (Op.ofExcept x >>= next) := by
  cases x with
  | error fault => exact fun h => .refl place h.files
  | ok a => exact later a rfl

theorem still {op : Op Host α} (still : ∀ h, (op h).2.files = h.files) : Spares place op := by
  intro h
  show FileTree.Spares place h.files (op h).2.files
  rw [still h]
  exact .refl place h.files

end Spares

theorem changeFiles_files (path : FilePath) (change : FileTree → Except Fault FileTree) (h : Host) :
    (∃ files, change h.files = .ok files ∧
      changeFiles path change h = (.ok (), { h with files, refusals := h.refusals.tail })) ∨
    ∃ fault,
      changeFiles path change h = (.error fault, { h with refusals := h.refusals.tail }) := by
  simp only [changeFiles, run_bind, run_get, run_set, run_ite, run_throw]
  split
  · exact .inr ⟨_, rfl⟩
  · cases change h.files with
    | ok files => exact .inl ⟨files, rfl, rfl⟩
    | error fault => exact .inr ⟨fault, rfl⟩

theorem changeFiles_spares {path : FilePath} {change : FileTree → Except Fault FileTree}
    (spares : ∀ {t u}, change t = .ok u → FileTree.Spares place t u) :
    Spares place (changeFiles path change) := by
  intro h
  rcases changeFiles_files path change h with ⟨files, changed, run⟩ | ⟨fault, run⟩ <;> rw [run]
  · exact spares changed
  · exact .refl place h.files

theorem makeFoldersTo_spares (place : Place) (p : FilePath) (depth : Nat) :
    Spares place (makeFoldersTo p depth) := by
  induction depth generalizing p with
  | zero => exact changeFiles_spares (FileTree.makeFolder_spares place)
  | succ depth ih =>
    have here : Spares place (changeFiles p (·.makeFolder p)) :=
      changeFiles_spares (FileTree.makeFolder_spares place)
    have attempted : Spares place (changeFiles p (·.makeFolder p)).attempt := here
    refine attempted.bind fun x => ?_
    split
    · exact .still fun _ => rfl
    · exact (ih p.parent).bind fun _ => here
    · exact .still fun _ => rfl

theorem writeFile_spares (apart : q.place ≠ place) (text : String) :
    Spares place (writeFile q text) := by
  have each (text : String) : Spares place (changeFiles q (·.write q text)) := by
    refine changeFiles_spares fun written => ?_
    obtain ⟨node, -, -, free, rfl⟩ := FileTree.write_ok written
    exact FileTree.put_spares free apart
  exact (each "").bind fun _ => each text

theorem replaceFile_spares (source : q.place ≠ place) (target : p.place ≠ place) :
    Spares place (replaceFile q p) :=
  changeFiles_spares fun moved => FileTree.replace_spares moved source target

/-- A file that was written stands there. -/
theorem writeFile_place (q : FilePath) (text : String) (h : Host) :
    (∃ k, writeFile q text h = (.ok (), k) ∧ k.files.nodes.get? q.place = some (.file text)) ∨
    ∃ fault k, writeFile q text h = (.error fault, k) := by
  simp only [writeFile, run_bind]
  rcases changeFiles_files q (·.write q "") h with ⟨t, -, run⟩ | ⟨fault, run⟩ <;> rw [run]
  · rcases changeFiles_files q
      (·.write q text) { h with files := t, refusals := h.refusals.tail } with
      ⟨u, written, run⟩ | ⟨fault, run⟩
    · obtain ⟨_, -, -, -, rfl⟩ := FileTree.write_ok written
      exact .inl ⟨_, run, by simp [OrderedMap.get?_put]⟩
    · exact .inr ⟨fault, _, run⟩
  · exact .inr ⟨fault, _, rfl⟩

end Op

def FileTree.Holds (t : FileTree) (p : FilePath) (text : String) : Prop :=
  t.find p = .ok (p.place, some (.file text))

namespace StateFile

open FileTree (Spares)

variable {p q : FilePath} {v : Value} {h k : Host} {place : Place}

/-- Whatever comes of it, saving elsewhere leaves a file as it is. -/
theorem save_spares (apart : ¬q.Touches place) (v : Value) : Op.Spares place (save (some q) v) := by
  rw [FilePath.Touches, not_or] at apart
  refine .bind (Op.makeFoldersTo_spares place _ _) fun _ => .ofExcept_bind fun r temporary => ?_
  have beside : r.place ≠ place := fun same => apart.2 ⟨r, temporary, same⟩
  exact .bind (Op.writeFile_spares beside _) fun _ => Op.replaceFile_spares beside apart.1

/-- What saving a value at a path comes to: the value stands there, or the file that stood there
does. -/
theorem save_place (p : FilePath) (v : Value) (h : Host) :
    (∃ k, save (some p) v h = (.ok (), k) ∧ h.files.KeepsFolders k.files ∧
      k.files.find p = .ok (p.place, some (.file (Json.writeIndented v)))) ∨
    ∃ fault k, save (some p) v h = (.error fault, k) ∧ Spares p.place h.files k.files := by
  have folders := Op.makeFoldersTo_spares p.place p.parent p.parent.parts.length h
  rw [save]
  simp only [Op.run_bind, Op.makeFolders]
  revert folders
  rcases Op.makeFoldersTo p.parent p.parent.parts.length h with ⟨fault | _, h₁⟩
  · exact fun folders => .inr ⟨fault, h₁, rfl, folders⟩
  intro folders
  simp only [Op.run_ofExcept]
  cases temporary : p.temporary with
  | error fault => exact .inr ⟨fault, h₁, rfl, folders⟩
  | ok q =>
    have written :=
      Op.writeFile_spares (FilePath.temporary_place temporary) (Json.writeIndented v) h₁
    simp only
    rcases Op.writeFile_place q (Json.writeIndented v) h₁ with ⟨h₂, run, stands⟩ | ⟨fault, h₂, run⟩ <;>
      rw [run] at written ⊢
    · rcases Op.changeFiles_files q (·.replace q p) h₂ with ⟨u, moved, run⟩ | ⟨fault, run⟩ <;>
        simp only [Op.replaceFile, run]
      · have keeps := FileTree.replace_keeps moved
        obtain ⟨s, node, source, target, free, rfl⟩ := FileTree.replace_ok moved
        cases ((FileTree.find_place source).2 (FileTree.file_ne_folder s)).symm.trans stands
        refine .inl
          ⟨_, rfl, fun there folder => keeps _
          (written.folders _ (folders.folders there folder)), ?_⟩
        exact FileTree.find_file keeps target free (by simp [OrderedMap.get?_put])
      · exact .inr ⟨fault, _, rfl, folders.trans written⟩
    · exact .inr ⟨fault, h₂, rfl, folders.trans written⟩

/-- What comes of writing a store with this wire form: there is nothing to write; all of it is
written, and it counts as clean; or the disk refuses, and it stays as dirty as it was beside a
file that is as it was. -/
inductive Outcome {σ : Type} (p : FilePath) (v : Value) (dirty : Bool) (clean : σ) (x : σ × Host) :
    Except Fault Unit × σ × Host → Prop
  | idle (settled : dirty = false) : Outcome p v dirty clean x (.ok (), x)
  | written {k : Host} (changed : dirty = true) (holds : k.files.Holds p (Json.writeIndented v)) :
      Outcome p v dirty clean x (.ok (), (clean, k))
  | refused {f : FileFault} {k : Host} (changed : dirty = true)
      (spares : FileTree.Spares p.place x.2.files k.files)
      (stays : ∀ text, x.2.files.Holds p text → k.files.Holds p text) :
      Outcome p v dirty clean x (.error (.file f), (x.1, k))

theorem outcome_of_run {σ : Type} {op : StoreOp σ Unit} {s clean : σ} {path : Option FilePath}
    {dirty : Bool} (place : path = some p)
    (run : op (s, h) = if path.isNone || !dirty then (.ok (), (s, h)) else Op.saving path v clean s (s, h))
    (refuses : RefusesOnly (op (s, h)).1) : Outcome p v dirty clean (s, h) (op (s, h)) := by
  subst place
  cases dirty with
  | false =>
    rw [run]
    exact .idle rfl
  | true =>
    replace run : op (s, h) = Op.saving (some p) v clean s (s, h) := run
    rw [run] at refuses ⊢
    rcases save_place p v h with ⟨k, saved, -, found⟩ | ⟨fault, k, refused, spares⟩
    · rw [Op.saving_saved saved]
      exact .written rfl found
    · obtain ⟨x, -, ran⟩ := Op.saving_run (some p) v clean s (s, h)
      have failed : (Op.saving (some p) v clean s (s, h)).1 = .error fault := by rw [ran, refused]
      obtain ⟨f, rfl⟩ := refuses fault failed
      rw [Op.saving_refused refused]
      exact .refused rfl spares fun text => spares.find

/-- A write that fails was refused by the disk: a dirty store is left as it was, beside the
file that stood there. -/
theorem Outcome.failed {σ : Type} {dirty : Bool} {clean : σ} {x : σ × Host}
    {y : Except Fault Unit × σ × Host}
    (outcome : Outcome p v dirty clean x y) (raised : y.1.isOk = false) :
      dirty = true ∧ ∃ f k, y = (.error (.file f), (x.1, k)) ∧
      ∀ text, x.2.files.Holds p text → k.files.Holds p text := by
  cases outcome with
  | idle | written => cases raised
  | @refused f k changed spares stays => exact ⟨changed, f, k, rfl, stays⟩

/-- A value that was saved is loaded as `reread` has it, or loading fails. -/
theorem load_reread {d : Place}
    (found : h.files.find p = .ok (d, some (.file (Json.writeIndented v)))) (default : Value) :
    (∃ w, Json.reread Json.depthLimit v = .ok w ∧ load (some p) default h = (.ok w, h)) ∨
    ∃ refusal fault, Json.reread Json.depthLimit v = .error refusal ∧
      load (some p) default h = (.error fault, h) := by
  rw [load_text found]
  rcases Json.read_writeIndented v with ⟨w, again, read⟩ | ⟨refusal, problem, again, read,
    bound⟩ <;> rw [read]
  · exact .inl ⟨w, again, rfl⟩
  · refine .inr ⟨refusal, .ofReadProblem problem, again, ?_⟩
    cases problem with
    | malformed e => exact absurd rfl (bound e)
    | tooManyDigits count => rfl
    | tooDeep container => rfl

/-- Where no file stands, the default is loaded, if anything is. -/
theorem load_default {default w : Value} (none : ∀ s, h.files.nodes.get? p.place ≠ some (.file s))
    (loaded : (load (some p) default h).1 = .ok w) : w = default := by
  unfold load at loaded
  simp only [Op.run_bind, Op.run_get, Op.run_ofExcept] at loaded
  cases contains : h.files.contains p with
  | error fault =>
    rw [contains] at loaded
    cases loaded
  | ok there =>
    rw [contains] at loaded
    cases there with
    | false => exact (Except.ok.inj loaded).symm
    | true =>
      have unread : ∃ problem, parse p h.files = .error (.file problem) := by
        unfold FileTree.contains at contains
        rcases found : h.files.find p with fault | ⟨d, _ | _ | s⟩ <;> rw [found] at contains
        · split at contains <;> first | cases contains | simp_all
        · cases contains
        · exact ⟨{ problem := .isFolder, path := p.toText },
            by simp only [parse, text, FileTree.read, found]; rfl⟩
        · obtain ⟨rfl, stands⟩ := FileTree.find_place found
          exact absurd (stands (FileTree.file_ne_folder s)) (none s)
      obtain ⟨problem, unread⟩ := unread
      simp only [Bool.not_true, Bool.false_eq_true, if_false, unread] at loaded
      exact (Except.ok.inj loaded).symm

end StateFile
end LeadRules
