import LeadRules.Proofs.Settled

/-! Values read from JSON. Whatever a text holds, the value that is read of it lasts: it is read
again as it is when it has been written. -/
namespace LeadRules

namespace Value

variable {room : Nat} {v : Value} {items : List Value} {entries : List (Value × Value)}

/-- A value that is read as it is when it was written, where so many containers may be opened. -/
structure Lasts (room : Nat) (v : Value) : Prop where
  kept : v.keeps room = true
  named : v.named = v

theorem Lasts.reread (lasts : v.Lasts room) : Json.reread room v = .ok v := by
  rw [Json.reread_keeps v lasts.kept, lasts.named]

theorem lasts_null (room : Nat) : Lasts room null := ⟨by rw [keeps], named_null⟩

theorem lasts_bool (room : Nat) (b : Bool) : Lasts room (bool b) := ⟨by rw [keeps], named_bool b⟩

theorem lasts_text (room : Nat) {t : Text} (unsplit : t.Unsplit) : Lasts room (text t) :=
  ⟨by rw [keeps, decide_eq_true unsplit], named_text t⟩

theorem lasts_float (room : Nat) {x : Binary64} (plain : x.reread = x) : Lasts room (float x) :=
  ⟨by rw [keeps], by rw [named_float, plain]⟩

theorem lasts_int (room : Nat) {n : Int}
    (short : Decimal.digitCount n.natAbs ≤ Numeral.digitLimit) : Lasts room (int n) :=
  ⟨by rw [keeps, decide_eq_true short], named_int n⟩

theorem lasts_list (each : ∀ v ∈ items, v.Lasts room) : Lasts (room + 1) (list items) where
  kept := by
    rw [keeps, Nat.add_sub_cancel, keepsItems_iff.2 fun v member => (each v member).kept]
    simp
  named := by
    rw [named_list, List.map_congr_left fun v member => (each v member).named, List.map_id']

theorem Lasts.item {w : Value} (lasts : Lasts (room + 1) (list items)) (member : w ∈ items) :
    w.Lasts room where
  kept := by
    have kept := lasts.kept
    rw [keeps, Nat.add_sub_cancel, Bool.and_eq_true] at kept
    exact keepsItems_iff.1 kept.2 w member
  named := by
    have named := lasts.named
    rw [named_list, list.injEq] at named
    exact List.map_inj_left.1 (named.trans (List.map_id _).symm) w member

structure EntriesLast (room : Nat) (entries : List (Value × Value)) : Prop where
  distinct : (entries.map (·.1)).Nodup
  each : ∀ e ∈ entries, ∃ t : Text, e.1 = text t ∧ t.Unsplit ∧ e.2.Lasts room

theorem EntriesLast.nil (room : Nat) : EntriesLast room [] :=
  ⟨List.nodup_nil, List.forall_mem_nil _⟩

theorem keepsEntries_iff : keepsEntries room entries = true ↔
    ∀ e ∈ entries, ∃ t : Text, e.1 = text t ∧ t.Unsplit ∧ e.2.keeps room = true := by
  induction entries with
  | nil => simp [keepsEntries]
  | cons e rest ih =>
    obtain ⟨k, v⟩ := e
    rw [List.forall_mem_cons, ← ih]
    cases k <;> simp [keepsEntries, and_assoc]

theorem lasts_map (last : EntriesLast room entries) : Lasts (room + 1) (map entries) where
  kept := by
    have each : keepsEntries room entries = true := keepsEntries_iff.2 fun e member => by
      obtain ⟨t, key, unsplit, lasts⟩ := last.each e member
      exact ⟨t, key, unsplit, lasts.kept⟩
    rw [keeps, Nat.add_sub_cancel, each, decide_eq_true last.distinct]
    simp
  named := by
    have each : entries.map (fun e => (e.1, e.2.named)) = entries.map id :=
      List.map_congr_left fun e member => by
      obtain ⟨t, -, -, lasts⟩ := last.each e member
      rw [lasts.named, id]
    rw [named, namedEntries_eq, each, List.map_id]

theorem Lasts.entriesLast (lasts : Lasts (room + 1) (map entries)) : EntriesLast room entries := by
  have kept := lasts.kept
  have named := lasts.named
  rw [keeps, Nat.add_sub_cancel, Bool.and_eq_true, Bool.and_eq_true, decide_eq_true_eq,
    decide_eq_true_eq] at kept
  rw [Value.named, namedEntries_eq, map.injEq] at named
  refine ⟨kept.1.2, fun e member => ?_⟩
  obtain ⟨t, key, unsplit, held⟩ := keepsEntries_iff.1 kept.2 e member
  exact ⟨t, key, unsplit, held,
    congrArg Prod.snd (List.map_inj_left.1 (named.trans (List.map_id _).symm) e member)⟩

theorem EntriesLast.put {t : Text} (last : EntriesLast room entries) (unsplit : t.Unsplit)
    (lasts : v.Lasts room) :
    EntriesLast room (Entries.put (text t) v entries) where
  distinct := Entries.nodup_keys_put last.distinct
  each e member := by
    rcases Entries.mem_put member with old | rfl
    · exact last.each e old
    · exact ⟨t, rfl, unsplit, lasts⟩

end Value

theorem Numeral.reread_nearest (negative : Bool) (digits : Nat) (exponent : Int) :
    (nearest negative digits exponent).reread = nearest negative digits exponent := by
  unfold nearest
  simp only
  split
  · rfl
  · split <;> rfl

namespace Json

open Value (Lasts EntriesLast)

section Texts

variable {p q : Point} {start cs rest : List Char} {done : List Point} {t : Text}

/-- Characters of which none makes a pair with a half before them: an escape that opens them, with
more behind it, is that of a point which ends no pair with this one. -/
def Parted (p : Point) (cs : List Char) : Prop :=
  ∀ e f g h next more q, cs = '\\' :: 'u' :: e :: f :: g :: h :: next :: more →
    unitPoint? e f g h = some q → p.pair? q = none

theorem parted_char (c : Char) (cs : List Char) : Parted (.char c) cs :=
  fun _ _ _ _ _ _ _ _ _ => rfl

theorem pair?_of_closed (closed : p.opensPair = false) (q : Point) : p.pair? q = none := by
  cases p with
  | char c => rfl
  | half h =>
    have low : h.isHigh = false := closed
    cases q <;> simp [Point.pair?, low]

/-- The points that were read, last one first, with what stands behind them: no two of them are
halves of a pair side by side, and none is made with the point that comes next. -/
structure Unpaired (done : List Point) (cs : List Char) : Prop where
  chain : done.IsChain fun q p => p.pair? q = none
  parted : ∀ p ∈ done.head?, Parted p cs

theorem Unpaired.push (unpaired : Unpaired done cs) (apart : ∀ p ∈ done.head?, p.pair? q = none)
    (parted : Parted q rest) :
    Unpaired (q :: done) rest where
  chain := List.isChain_cons.2 ⟨apart, unpaired.chain⟩
  parted p member := by
    cases Option.mem_some.1 member
    exact parted

theorem Unpaired.char (unpaired : Unpaired done cs) (c : Char) (rest : List Char) :
    Unpaired (.char c :: done) rest := by
  refine unpaired.push (fun p _ => ?_) (parted_char c rest)
  cases p <;> rfl

/-- Of a text that is read no two halves of a pair stand side by side. -/
theorem readString_unsplit (unpaired : Unpaired done cs)
    (read : readString start done cs = .ok (t, rest)) : t.Unsplit := by
  fun_induction readString start done cs with
  | case1 | case3 | case4 | case5 | case9 | case11 | case13 | case14 => cases read
  | case2 done more =>
    cases read
    rw [Text.Unsplit, List.isChain_reverse]
    exact unpaired.chain
  | case6 done a b c d e f g h next more p escape opens q escape' pair joins ih =>
    exact ih (unpaired.char pair _) read
  | case7 done a b c d e f g h next more p escape opens q escape' apart ih =>
    refine ih
      (unpaired.push (fun o member => unpaired.parted o member a b c d _ _ p rfl escape) ?_) read
    intro _ _ _ _ _ _ q' same escaped
    cases same
    cases escape'.symm.trans escaped
    exact apart
  | case8 done a b c d e f g h next more p escape closed ih =>
    refine ih
      (unpaired.push (fun o member => unpaired.parted o member a b c d _ _ p rfl escape) ?_) read
    exact fun _ _ _ _ _ _ q' _ _ => pair?_of_closed (Bool.eq_false_iff.2 closed) q'
  | case10 done a b c d next more alone p escape ih =>
    refine ih
      (unpaired.push (fun o member => unpaired.parted o member a b c d _ _ p rfl escape) ?_) read
    intro e f g h next' more' _ same _
    cases same
    exact (alone e f g h next' more' rfl rfl).elim
  | case12 done c more _ _ _ e _ ih => exact ih (unpaired.char e _) read
  | case15 done c more _ _ _ _ _ _ _ ih => exact ih (unpaired.char c _) read

theorem readString_lasts (room : Nat) (read : readString start [] cs = .ok (t, rest)) :
    Lasts room (.text t) :=
  Value.lasts_text room (readString_unsplit ⟨.nil, nofun⟩ read)

end Texts

section Numbers

variable {cs rest : List Char} {v : Value} {x : Reading Value}

theorem readWhole?_digits {whole : List Char} (read : readWhole? cs = some (whole, rest)) :
    ∀ c ∈ whole, c.isDigit = true := by
  unfold readWhole? at read
  split at read
  · cases read
    simp
  · split at read
    · cases read
      exact fun c member => (List.mem_takeWhile_imp member)
    · cases read
  · cases read

theorem readInteger_lasts (room : Nat) {negative : Bool} {digits after : List Char}
    (all : ∀ c ∈ digits, c.isDigit = true)
    (read : readInteger negative digits after = .ok (v, rest)) : v.Lasts room := by
  unfold readInteger at read
  simp only at read
  split at read
  · cases read
  next few =>
    cases read
    refine Value.lasts_int room ?_
    have size : (if negative = true then -(Numeral.digitsValue digits : Int)
        else Numeral.digitsValue digits).natAbs = Numeral.digitsValue digits := by
      split <;> simp
    rw [size]
    have short : Decimal.digitCount (Numeral.digitsValue digits) ≤ max digits.length 1 :=
      (Nat.length_toDigits_le_iff (by decide) (by omega)).2
        ((Numeral.digitsValue_lt all).trans_le (Nat.pow_le_pow_right (by decide) (Nat.le_max_left ..)))
    have limit : 1 ≤ Numeral.digitLimit := by decide
    omega

theorem readNumber?_lasts (room : Nat) (number : readNumber? cs = some (.ok (v, rest))) :
    v.Lasts room := by
  unfold readNumber? at number
  simp only [bind, Option.bind] at number
  split at number
  next => cases number
  next parts read =>
    simp only at number
    split at number
    next => exact readInteger_lasts room (readWhole?_digits read) (Option.some.inj number)
    all_goals
      cases number
      exact Value.lasts_float room (Numeral.reread_nearest ..)

theorem readScalar_lasts (room : Nat) (read : readScalar cs = .ok (v, rest)) : v.Lasts room := by
  unfold readScalar at read
  split at read
  · cases read
    exact Value.lasts_null room
  · cases read
    exact Value.lasts_bool room true
  · cases read
    exact Value.lasts_bool room false
  · cases read
    exact Value.lasts_float room rfl
  · cases read
    exact Value.lasts_float room rfl
  · cases read
    exact Value.lasts_float room rfl
  · cases number : readNumber? cs with
    | none =>
      rw [number] at read
      cases read
    | some x =>
      rw [number] at read
      exact readNumber?_lasts room (number.trans (congrArg some read))

end Numbers

mutual
/-- A value that is read lasts, as deep as it may lie. -/
theorem readValue_lasts {room fuel : Nat} {cs rest : List Char} {v : Value}
    (read : readValue room fuel cs = .ok (v, rest)) :
    v.Lasts room := by
  match fuel with
  | 0 => cases read
  | fuel + 1 =>
    unfold readValue at read
    split at read
    next more =>
      rcases text : readString ('"' :: more) [] more with refusal | ⟨t, rest'⟩ <;> rw [text] at read
      · cases read
      · cases read
        exact readString_lasts room text
    next more =>
      rcases room with _ | room
      · cases read
      · split at read
        next => cases read
        next =>
          cases read
          exact Value.lasts_list (List.forall_mem_nil _)
        next inner entered _ =>
          obtain rfl : room = inner := Except.ok.inj entered
          rcases items : readItems room fuel [] (skipSpace more) with refusal | ⟨items, rest'⟩ <;>
            rw [items] at read
          · cases read
          · cases read
            exact Value.lasts_list (readItems_last (List.forall_mem_nil _) items)
    next more =>
      rcases room with _ | room
      · cases read
      · split at read
        next => cases read
        next =>
          cases read
          exact Value.lasts_map (.nil room)
        next inner entered _ =>
          obtain rfl : room = inner := Except.ok.inj entered
          rcases entries : readMembers room fuel []
            (skipSpace more) with refusal | ⟨entries, rest'⟩ <;> rw [entries] at read
          · cases read
          · cases read
            exact Value.lasts_map (readMembers_last (.nil room) entries)
    next => exact readScalar_lasts room read
theorem readItems_last {room fuel : Nat} {cs rest : List Char} {done items : List Value}
    (before : ∀ v ∈ done, v.Lasts room)
    (read : readItems room fuel done cs = .ok (items, rest)) : ∀ v ∈ items, v.Lasts room := by
  match fuel with
  | 0 => cases read
  | fuel + 1 =>
    unfold readItems at read
    rcases first : readValue room fuel cs with refusal | ⟨item, after⟩ <;> rw [first] at read
    · cases read
    have grown : ∀ v ∈ done ++ [item], v.Lasts room := by
      intro v member
      rcases List.mem_append.1 member with old | new
      · exact before v old
      · rw [List.mem_singleton.1 new]
        exact readValue_lasts first
    simp only at read
    split at read
    · cases read
      exact grown
    · exact readItems_last grown read
    · cases read
theorem readMembers_last {room fuel : Nat} {cs rest : List Char}
    {done entries : List (Value × Value)}
    (before : EntriesLast room done) (read : readMembers room fuel done cs = .ok (entries, rest)) :
    EntriesLast room entries := by
  match fuel with
  | 0 => cases read
  | fuel + 1 =>
    unfold readMembers at read
    split at read
    next afterQuote =>
      rcases text : readString ('"' :: afterQuote) [] afterQuote with refusal | ⟨name, after⟩ <;>
        rw [text] at read
      · cases read
      have unsplit : name.Unsplit := readString_unsplit ⟨.nil, nofun⟩ text
      simp only at read
      split at read
      next afterColon _ =>
        rcases first : readValue room fuel (skipSpace afterColon) with refusal | ⟨v, after⟩ <;>
          rw [first] at read
        · cases read
        have grown : EntriesLast room (Entries.put (.text name) v done) :=
          before.put unsplit (readValue_lasts first)
        simp only at read
        split at read
        · cases read
          exact grown
        · exact readMembers_last grown read
        · cases read
      next => cases read
    next => cases read
end

/-- Whatever is read of a text lasts. -/
theorem read_lasts {text : String} {v : Value} (given : read text = .ok v) :
    v.Lasts depthLimit := by
  unfold read at given
  have value : readCharacters text.toList = .ok v := by
    rcases characters : readCharacters text.toList with refusal | w <;>
      rw [characters] at given <;> cases given
    rfl
  unfold readCharacters at value
  split at value
  · cases value
  · split at value
    next => cases value
    next w rest first =>
      split at value
      · cases value
        exact readValue_lasts first
      · cases value

end Json
end LeadRules
