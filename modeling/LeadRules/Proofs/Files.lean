import LeadRules.Proofs.Operation
import LeadRules.Proofs.OrderedMap
import LeadRules.StateFile

/-! Files in a folder that stands. A state file is saved there beside all others, and the next one
to load it finds what was saved. -/
namespace LeadRules

def FilePath.below (p : FilePath) (name : Text) : FilePath := { p with parts := p.parts ++ [name] }

def FilePath.Fits (p : FilePath) : Prop :=
  ∃ bytes, bytesOf p.toText = .ok bytes ∧ bytes.length ≤ pathLimit

def FilePath.start (p : FilePath) : Place := { anchor := if p.root = "" then .above 0 else .root }

def Text.bytes (name : Text) : List UInt8 := name.points.flatMap Point.nameBytes

def Place.named (d : Place) (name : Text) : Place := d.below name.bytes

theorem Place.named_ne {d : Place} {a b : Text} (apart : a.bytes ≠ b.bytes) :
    d.named a ≠ d.named b := by
  intro same
  have names := List.append_cancel_left (congrArg Place.names same)
  exact apart (List.cons.inj names).1

structure Nameable (name : Text) : Prop where
  short : name.bytes.length ≤ FilePath.nameLimit
  plain : name ≠ FilePath.up

namespace FileTree

variable {t u : FileTree} {p : FilePath} {here d : Place} {name : Text} {rest : List Text}

theorem follow_named (nameable : Nameable name) : t.follow here (name :: rest) =
    match t.node? (here.named name) with
    | some .folder => follow t (here.named name) rest
    | some file => if rest.isEmpty then .ok (here.named name, some file) else .error .notFolder
    | none => if rest.isEmpty then .ok (here.named name, none) else .error .missing := by
  have short : ¬ FilePath.nameLimit < (name.points.flatMap Point.nameBytes).length :=
    Nat.not_lt.2 nameable.short
  rw [follow, if_neg nameable.plain]
  simp only [short, if_false]
  rfl

theorem follow_up : t.follow here (FilePath.up :: rest) = t.follow here.up rest := by
  rw [follow, if_pos rfl]

/-- A path that ends at a folder passes through folders only. -/
theorem follow_cons_folder (found : t.follow here (name :: rest) = .ok (d, some .folder)) :
    (name = FilePath.up ∧ t.follow here.up rest = .ok (d, some .folder)) ∨
    (Nameable name ∧ t.node? (here.named name) = some .folder ∧
      t.follow (here.named name) rest = .ok (d, some .folder)) := by
  by_cases up : name = FilePath.up
  · subst up
    exact .inl ⟨rfl, follow_up.symm.trans found⟩
  · by_cases short : name.bytes.length ≤ FilePath.nameLimit
    · rw [follow_named ⟨short, up⟩] at found
      split at found
      next folder => exact .inr ⟨⟨short, up⟩, folder, found⟩
      next file other _ =>
        split at found
        · cases found
          exact absurd rfl other
        · cases found
      next =>
        split at found <;> cases found
    · have long : FilePath.nameLimit < (name.points.flatMap Point.nameBytes).length :=
        Nat.not_le.1 short
      rw [follow, if_neg up] at found
      simp only [long, if_true] at found
      cases found

def KeepsFolders (t u : FileTree) : Prop :=
  ∀ place, t.node? place = some .folder → u.node? place = some .folder

theorem follow_keeps (keeps : t.KeepsFolders u) {parts : List Text}
    (found : t.follow here parts = .ok (d, some .folder)) :
    u.follow here parts = .ok (d, some .folder) := by
  induction parts generalizing here with
  | nil => simpa only [follow] using found
  | cons part rest ih =>
    rcases follow_cons_folder found with ⟨rfl, later⟩ | ⟨nameable, folder, later⟩
    · rw [follow_up]
      exact ih later
    · rw [follow_named nameable, keeps _ folder]
      exact ih later

theorem follow_append {parts : List Text} (found : t.follow here parts = .ok (d, some .folder))
    (more : List Text) :
    t.follow here (parts ++ more) = t.follow d more := by
  induction parts generalizing here with
  | nil =>
    cases found
    rfl
  | cons part rest ih =>
    rw [List.cons_append]
    rcases follow_cons_folder found with ⟨rfl, later⟩ | ⟨nameable, folder, later⟩
    · rw [follow_up]
      exact ih later
    · rw [follow_named nameable, folder]
      exact ih later

theorem find_of_fits (fits : p.Fits) (t : FileTree) : t.find p =
    match t.follow p.start p.parts with
    | .ok found => .ok found
    | .error problem => refuse problem p := by
  obtain ⟨bytes, encoded, short⟩ := fits
  simp only [find, encoded, Nat.not_lt.2 short, if_false]
  rfl

theorem find_ok {found : Place × Option FileNode} (there : t.find p = .ok found) :
    p.Fits ∧ t.follow p.start p.parts = .ok found := by
  unfold find at there
  split at there
  next => cases there
  next bytes encoded =>
    split at there
    next => cases there
    next short =>
      have fits : p.Fits := ⟨bytes, encoded, Nat.not_lt.1 short⟩
      split at there
      next place followed =>
        cases there
        exact ⟨fits, followed⟩
      next => cases there

theorem find_keeps (keeps : t.KeepsFolders u) (stands : t.find p = .ok (d, some .folder)) :
    u.find p = .ok (d, some .folder) := by
  obtain ⟨fits, followed⟩ := find_ok stands
  rw [find_of_fits fits, follow_keeps keeps followed]

theorem find_below (stands : t.find p = .ok (d, some .folder)) (fits : (p.below name).Fits)
    (nameable : Nameable name) :
    t.find (p.below name) = .ok (d.named name, t.nodes.get? (d.named name)) := by
  obtain ⟨-, followed⟩ := find_ok stands
  have inside : t.node? (d.named name) = t.nodes.get? (d.named name) := by
    simp [node?, Place.named, Place.below]
  have last : t.follow d [name] = .ok (d.named name, t.nodes.get? (d.named name)) := by
    rw [follow_named nameable, inside]
    split
    next folder => rw [folder, follow]
    next file _ found => rw [found]; rfl
    next found => rw [found]; rfl
  have whole : t.follow (p.below name).start (p.below name).parts =
      .ok (d.named name, t.nodes.get? (d.named name)) :=
    (follow_append followed [name]).trans last
  rw [find_of_fits fits, whole]

theorem write_below (stands : t.find p = .ok (d, some .folder)) (fits : (p.below name).Fits)
    (nameable : Nameable name)
    (free : t.nodes.get? (d.named name) ≠ some .folder) (text : String) :
    t.write (p.below name) text = .ok ⟨t.nodes.put (d.named name) (.file text)⟩ := by
  simp only [write, find_below stands fits nameable]
  revert free
  rcases t.nodes.get? (d.named name) with _ | _ | _
  · exact fun _ => rfl
  · exact fun free => absurd rfl free
  · exact fun _ => rfl

theorem replace_below {source : Text} {text : String} (stands : t.find p = .ok (d, some .folder))
    (fits : (p.below source).Fits) (nameable : Nameable source)
    (held : t.nodes.get? (d.named source) = some (.file text)) (fits' : (p.below name).Fits)
    (nameable' : Nameable name) (free : t.nodes.get? (d.named name) ≠ some .folder) :
    t.replace (p.below source) (p.below name) =
      .ok ⟨(t.nodes.erase (d.named source)).put (d.named name) (.file text)⟩ := by
  have last : ¬ (p.below name).parts.getLast? = some FilePath.up := by
    simpa [FilePath.below] using nameable'.plain
  simp only [replace, find_below stands fits nameable, find_below stands fits' nameable', held]
  show (if _ then _ else if _ then _ else _) = _
  rw [if_neg last, if_neg free]
  rfl

theorem put_keeps {place : Place} (free : t.nodes.get? place ≠ some .folder) (node : FileNode) :
    t.KeepsFolders ⟨t.nodes.put place node⟩ := by
  intro other folder
  unfold node? at folder ⊢
  split at folder
  next top => simp [top]
  next below =>
    have apart : other ≠ place := by
      rintro rfl
      exact free folder
    simp [below, OrderedMap.get?_put, apart, folder]

end FileTree

namespace Op

variable {h : Host} {p : FilePath} {d : Place}

/-- A disk that refuses nothing carries out a change that the tree allows. -/
theorem changeFiles_ok {change : FileTree → Except Fault FileTree} {files : FileTree}
    (sound : true ∉ h.refusals)
    (changed : change h.files = .ok files) :
    changeFiles p change h = (.ok (), { h with files, refusals := h.refusals.tail }) := by
  have willing : h.refusals.head?.getD false = false := by
    cases refusals : h.refusals with
    | nil => rfl
    | cons first rest =>
      rw [refusals] at sound
      cases first with
      | false => rfl
      | true => exact absurd List.mem_cons_self sound
  simp only [changeFiles, run_bind, run_get, run_set, willing, Bool.false_eq_true, if_false,
    changed, run_modify]

theorem makeFolders_standing (sound : true ∉ h.refusals)
    (stands : h.files.find p = .ok (d, some .folder)) :
    makeFolders p h = (.ok (), { h with refusals := h.refusals.tail }) := by
  have made :
      changeFiles p (·.makeFolder p) h = (.ok (), { h with refusals := h.refusals.tail }) := by
    refine changeFiles_ok sound ?_
    simp only [FileTree.makeFolder, stands]
    rfl
  unfold makeFolders
  cases p.parts.length with
  | zero => exact made
  | succ depth => simp only [makeFoldersTo, run_bind, run_attempt, made, run_pure]

end Op

namespace StateFile

/-- The name that a file is first written under. -/
def beside (name : Text) : Text := name ++ ".tmp"

/-- Where a state file can be saved: in a folder that stands, with no other folder in its way or
in that of the file beside it. -/
structure Site (t : FileTree) (p : FilePath) (d : Place) (name : Text) : Prop where
  stands : t.find p = .ok (d, some .folder)
  nameable : Nameable name
  fits : (p.below name).Fits
  free : t.nodes.get? (d.named name) ≠ some .folder
  nameableBeside : Nameable (beside name)
  fitsBeside : (p.below (beside name)).Fits
  freeBeside : t.nodes.get? (d.named (beside name)) ≠ some .folder

def saved (t : FileTree) (d : Place) (name : Text) (text : String) : FileTree :=
  let written :=
    (t.nodes.put (d.named (beside name)) (.file "")).put (d.named (beside name)) (.file text)
  ⟨(written.erase (d.named (beside name))).put (d.named name) (.file text)⟩

variable {h : Host} {t : FileTree} {p : FilePath} {d : Place} {name : Text}

theorem named_ne_beside (d : Place) (name : Text) : d.named name ≠ d.named (beside name) := by
  refine Place.named_ne fun same => ?_
  have longer : (beside name).bytes = name.bytes ++ [46, 116, 109, 112] := by
    rw [Text.bytes, beside, Text.points_append, List.flatMap_append]
    rfl
  have sizes := congrArg List.length same
  rw [longer, List.length_append] at sizes
  exact absurd sizes (by simp)

theorem get?_saved (t : FileTree) (d : Place) (name : Text) (text : String) (place : Place) :
    (saved t d name text).nodes.get? place =
      if place = d.named name then some (.file text)
      else if place = d.named (beside name) then none
      else t.nodes.get? place := by
  simp only [saved, OrderedMap.get?_put, OrderedMap.get?_erase]
  split
  · rfl
  · split
    · rfl
    · rfl

/-- Saving leaves every folder and every other file as it was. -/
theorem saved_keeps (site : Site t p d name) (text : String) :
    t.KeepsFolders (saved t d name text) := by
  intro place folder
  unfold FileTree.node? at folder ⊢
  split at folder
  next top => simp [top]
  next below =>
    rw [if_neg below, get?_saved]
    have apart : place ≠ d.named name := by
      rintro rfl
      exact site.free folder
    have apartBeside : place ≠ d.named (beside name) := by
      rintro rfl
      exact site.freeBeside folder
    rw [if_neg apart, if_neg apartBeside, folder]

theorem save_run (site : Site h.files p d name) (sound : true ∉ h.refusals) (v : Value) :
    save (some (p.below name)) v h = (.ok (), { h with
      files := saved h.files d name (Json.writeIndented v)
      refusals := h.refusals.tail.tail.tail.tail }) := by
  have left {r : List Bool} (sound : true ∉ r) : true ∉ r.tail :=
    fun member => sound (List.mem_of_mem_tail member)
  have up : (p.below name).parent = p := by simp [FilePath.parent, FilePath.below]
  have temporary : (p.below name).temporary = .ok (p.below (beside name)) := by
    simp [FilePath.temporary, FilePath.below, beside]
  let emptied : FileTree := ⟨h.files.nodes.put (d.named (beside name)) (.file "")⟩
  let written : FileTree :=
    ⟨emptied.nodes.put (d.named (beside name)) (.file (Json.writeIndented v))⟩
  have keeps : h.files.KeepsFolders emptied := FileTree.put_keeps site.freeBeside _
  have here : emptied.nodes.get? (d.named (beside name)) = some (.file "") := by
    simp [emptied, OrderedMap.get?_put]
  have keeps' : emptied.KeepsFolders written := FileTree.put_keeps (by simp [here]) _
  have stands := FileTree.find_keeps keeps site.stands
  have stands' := FileTree.find_keeps keeps' stands
  have emptying : h.files.write (p.below (beside name)) "" = .ok emptied :=
    FileTree.write_below site.stands site.fitsBeside site.nameableBeside site.freeBeside ""
  have writing : emptied.write (p.below (beside name)) (Json.writeIndented v) = .ok written :=
    FileTree.write_below stands site.fitsBeside site.nameableBeside (by simp [here]) _
  have there :
      written.nodes.get? (d.named (beside name)) = some (.file (Json.writeIndented v)) := by
    simp [written, OrderedMap.get?_put]
  have free : written.nodes.get? (d.named name) ≠ some .folder := by
    simpa [written, emptied, OrderedMap.get?_put, named_ne_beside d name] using site.free
  have moving : written.replace (p.below (beside name)) (p.below name) =
      .ok (saved h.files d name (Json.writeIndented v)) :=
    FileTree.replace_below stands' site.fitsBeside site.nameableBeside there site.fits
      site.nameable free
  rw [save]
  simp only [up, temporary, Op.run_bind, Op.run_ofExcept, Op.makeFolders_standing sound site.stands,
    Op.writeFile, Op.replaceFile]
  rw [Op.changeFiles_ok (left sound) emptying]
  simp only []
  rw [Op.changeFiles_ok (left (left sound)) writing]
  simp only []
  rw [Op.changeFiles_ok (left (left (left sound))) moving]

/-- Saving one state file leaves room for all others in the folder. -/
theorem Site.saved {other : Text} (site : Site t p d other) (written : Site t p d name)
    (text : String) :
    Site (saved t d name text) p d other := by
  have free {place : Place} (free : t.nodes.get? place ≠ some .folder) :
      (StateFile.saved t d name text).nodes.get? place ≠ some .folder := by
    rw [get?_saved]
    split
    · simp
    · split
      · simp
      · exact free
  exact { site with
    stands := FileTree.find_keeps (saved_keeps written text) site.stands
    free := free site.free
    freeBeside := free site.freeBeside }

def ReadsBack (v : Value) : Prop :=
  Json.read (String.ofList (normalLines (Json.writeIndented v).toList)) = .ok v

theorem of_toOption {ε α : Type} {x : Except ε α} {a : α} (read : x.toOption = some a) :
    x = .ok a := by
  cases x with
  | error fault => cases read
  | ok b => rw [Option.some.inj read]

theorem load_absent {place : Place} (found : h.files.find p = .ok (place, none)) (default : Value) :
    load (some p) default h = (.ok default, h) := by
  have missing : h.files.contains p = .ok false := by simp [FileTree.contains, found]
  simp only [load, Op.run_bind, Op.run_get, missing, Op.run_ofExcept]
  rfl

/-- A file is loaded as its text is read; the default stands in for a text that is no JSON. -/
theorem load_text {place : Place} {s : String}
    (found : h.files.find p = .ok (place, some (.file s))) (default : Value) :
    load (some p) default h = match Json.read (String.ofList (normalLines s.toList)) with
      | .ok v => (.ok v, h)
      | .error problem =>
        if isUnreadable (.ofReadProblem problem) then
          (.ok default,
            h.note .error
            ("Error loading state file " ++ p.toText ++ ": " ++
              (Fault.ofReadProblem problem).message))
        else (.error (.ofReadProblem problem), h) := by
  have there : h.files.contains p = .ok true := by simp [FileTree.contains, found]
  have read : text p h.files = .ok (String.ofList (normalLines s.toList)) := by
    rw [text, FileTree.read, found]
    rfl
  have parsed :
      parse p h.files =
      (Json.read (String.ofList (normalLines s.toList))).mapError .ofReadProblem := by
    rw [parse, read]
    rfl
  simp only [load, Op.run_bind, Op.run_get, there, Op.run_ofExcept, parsed]
  cases Json.read (String.ofList (normalLines s.toList)) with
  | ok v => rfl
  | error problem =>
    simp only [Bool.not_true, Bool.false_eq_true, if_false, Except.mapError, Op.run_bind,
      Op.run_ite, Op.run_throw, Op.run_log, Op.run_pure]
    cases isUnreadable (.ofReadProblem problem) <;> rfl

theorem load_written {place : Place} {v : Value}
    (found : h.files.find p = .ok (place, some (.file (Json.writeIndented v))))
    (back : ReadsBack v) (default : Value) : load (some p) default h = (.ok v, h) := by
  rw [load_text found, back]

end StateFile
end LeadRules
