import ManifestSync.Tree.Read
import ManifestSync.Tree.Written

namespace ManifestSync

namespace Tree

theorem hexValue?_digitChar : ∀ d < 16, hexValue? (Nat.digitChar d) = some d := by decide

theorem hexNumber?_of_control {n : Nat} (h : n < 0x20) :
    hexNumber? ['0', '0', Nat.digitChar (n / 16), Nat.digitChar (n % 16)] = some n := by
  have hzero : hexValue? '0' = some 0 := rfl
  have hhigh : hexValue? (Nat.digitChar (n / 16)) = some (n / 16) := hexValue?_digitChar _ (by omega)
  have hlow : hexValue? (Nat.digitChar (n % 16)) = some (n % 16) := hexValue?_digitChar _ (by omega)
  simp only [hexNumber?, List.foldlM_cons, hzero, hhigh, hlow, Option.map_some]
  exact congrArg some (by omega)

def marks : List (Char × Char) :=
  [('"', '"'), ('\\', '\\'), ('\n', 'n'), ('\r', 'r'), ('\t', 't'), ('\x08', 'b'), ('\x0c', 'f')]

theorem escape_of_mem_marks : ∀ m ∈ marks,
    m.2 ≠ 'u' ∧ escaped? m.2 = some m.1 ∧ escape m.1 = ['\\', m.2] := by decide

theorem escape_of_unmarked {c : Char} (h : ∀ m ∈ marks, c ≠ m.1) :
    escape c = if c.toNat < 0x20 then
      ['\\', 'u', '0', '0', Nat.digitChar (c.toNat / 16), Nat.digitChar (c.toNat % 16)] else [c] := by
  simp only [marks, List.forall_mem_cons] at h
  obtain ⟨hquote, hback, hn, hr, ht, hb, hf, -⟩ := h
  simp only [escape, hquote, hback, hn, hr, ht, hb, hf, ↓reduceIte]

theorem textUnits?_letter {c e : Char} (hu : e ≠ 'u') (he : escaped? e = some c) (rest : List Char) :
    textUnits? ('\\' :: e :: rest) = (textUnits? rest).map fun (us, t) => (.inl c :: us, t) := by
  rw [textUnits?, he]
  · rfl
  · exact fun _ _ _ _ _ h => absurd h hu

theorem textUnits?_numbered {a b c d : Char} {n : Nat} (h : hexNumber? [a, b, c, d] = some n)
    (rest : List Char) : textUnits? ('\\' :: 'u' :: a :: b :: c :: d :: rest) =
      (textUnits? rest).map fun (us, t) => (.inr n :: us, t) := by
  rw [textUnits?, h]
  rfl

theorem textUnits?_plain {c : Char} (hc : ¬ c.toNat < 0x20) (hq : c ≠ '"') (hb : c ≠ '\\')
    (rest : List Char) :
    textUnits? (c :: rest) = (textUnits? rest).map fun (us, t) => (.inl c :: us, t) := by
  have hread : ¬ (decide (c.toNat < 0x20) || decide (c = '\\')) = true := by simp [hc, hb]
  rw [textUnits?, if_neg hread]
  · exact hq
  · exact fun _ _ _ _ _ h => absurd h hb
  · exact fun _ _ h => absurd h hb

/-- The number of a control is no half of a character, so what follows it does not matter. -/
theorem joinUnits?_of_control {n : Nat} (h : n < 0x20) (us : List TextUnit) :
    joinUnits? (.inr n :: us) = (joinUnits? us).map (Char.ofNat n :: ·) := by
  have hhigh : isHighSurrogate n = false := by simp [isHighSurrogate]; omega
  have hlow : isLowSurrogate n = false := by simp [isLowSurrogate]; omega
  cases us with
  | nil => simp [joinUnits?, hhigh, hlow]
  | cons u us => cases u <;> simp [joinUnits?, hhigh, hlow]

/-- Each character is read as one unit, which makes that character again. -/
theorem exists_unit (c : Char) : ∃ u, (∀ us, joinUnits? (u :: us) = (joinUnits? us).map (c :: ·)) ∧
    ∀ rest, textUnits? (escape c ++ rest) = (textUnits? rest).map fun (us, t) => (u :: us, t) := by
  by_cases hm : ∃ m ∈ marks, c = m.1
  · obtain ⟨m, hm, rfl⟩ := hm
    obtain ⟨hu, he, h⟩ := escape_of_mem_marks m hm
    refine ⟨.inl m.1, fun _ => rfl, fun rest => ?_⟩
    rw [h]
    exact textUnits?_letter hu he rest
  · have hn : ∀ m ∈ marks, c ≠ m.1 := fun m h he => hm ⟨m, h, he⟩
    by_cases hc : c.toNat < 0x20
    · refine ⟨.inr c.toNat, fun us => ?_, fun rest => ?_⟩
      · rw [joinUnits?_of_control hc, Char.ofNat_toNat]
      · rw [escape_of_unmarked hn, if_pos hc]
        exact textUnits?_numbered (hexNumber?_of_control hc) rest
    · refine ⟨.inl c, fun _ => rfl, fun rest => ?_⟩
      rw [escape_of_unmarked hn, if_neg hc]
      exact textUnits?_plain hc (hn ('"', '"') (by decide)) (hn ('\\', '\\') (by decide)) rest

theorem exists_units (cs rest : List Char) : ∃ us, joinUnits? us = some cs ∧
    textUnits? (cs.flatMap escape ++ '"' :: rest) = some (us, rest) := by
  induction cs with
  | nil => exact ⟨[], rfl, rfl⟩
  | cons c cs ih =>
    obtain ⟨us, hj, ht⟩ := ih
    obtain ⟨u, hju, htu⟩ := exists_unit c
    refine ⟨u :: us, ?_, ?_⟩
    · rw [hju, hj, Option.map_some]
    · rw [List.flatMap_cons, List.append_assoc, htu, ht, Option.map_some]

theorem writeText_append (s : String) (rest : List Char) :
    writeText s ++ rest = '"' :: (s.toList.flatMap escape ++ '"' :: rest) := by
  simp [writeText]

theorem quotedText?_escaped (s : String) (rest : List Char) :
    quotedText? (s.toList.flatMap escape ++ '"' :: rest) = some (some s, rest) := by
  obtain ⟨us, hj, ht⟩ := exists_units s.toList rest
  rw [quotedText?, ht, Option.map_some]
  simp only [hj, Option.map_some, String.ofList_toList]

/-- A tree without numbers that has no more than so many collections around each other. -/
inductive Plain : Nat → Tree → Prop
  | null (room : Nat) : Plain room .null
  | bool (room : Nat) (b : Bool) : Plain room (.bool b)
  | text (room : Nat) (s : String) : Plain room (.text s)
  | list {room : Nat} {ts : List Tree} (h : ∀ t ∈ ts, Plain room t) : Plain (room + 1) (.list ts)
  | object {room : Nat} {ms : Members} (h : ∀ m ∈ ms, Plain room m.2) : Plain (room + 1) (.object ms)

theorem skipSpace_cons {c : Char} (h : isSpace c = false) (cs : List Char) :
    skipSpace (c :: cs) = c :: cs := by
  rw [skipSpace, List.dropWhile_cons, if_neg (by simp [h])]

theorem skipSpace_writeText (s : String) (rest : List Char) :
    skipSpace (writeText s ++ rest) = writeText s ++ rest := skipSpace_cons rfl _

theorem Plain.write_eq {room : Nat} {t : Tree} (h : Plain room t) :
    ∃ c cs, t.write = c :: cs ∧ isSpace c = false ∧ c ≠ ']' := by
  cases h with
  | null => exact ⟨'n', _, rfl, rfl, by decide⟩
  | bool room b => cases b <;> exact ⟨_, _, rfl, rfl, by decide⟩
  | text room s => exact ⟨'"', _, rfl, rfl, by decide⟩
  | @list room ts => cases ts <;> exact ⟨'[', _, rfl, rfl, by decide⟩
  | @object room ms => cases ms <;> exact ⟨'\x7b', _, rfl, rfl, by decide⟩

theorem Plain.length_write_pos {room : Nat} {t : Tree} (h : Plain room t) : 0 < t.write.length := by
  obtain ⟨c, cs, hw, -⟩ := h.write_eq
  simp [hw]

theorem Plain.skipSpace_write {room : Nat} {t : Tree} (h : Plain room t) (rest : List Char) :
    skipSpace (t.write ++ rest) = t.write ++ rest := by
  obtain ⟨c, cs, hw, hc, -⟩ := h.write_eq
  rw [hw]
  exact skipSpace_cons hc _

end Tree

namespace Draft

open ManifestSync.Tree

theorem ofItems_eq_map (ts : List Tree) : ofItems ts = ts.map ofTree := by
  induction ts with
  | nil => rfl
  | cons t ts ih => rw [ofItems, ih, List.map_cons]

theorem ofMembers_eq_map (ms : ManifestSync.Members) :
    ofMembers ms = ms.map fun m => (some m.1, ofTree m.2) := by
  induction ms with
  | nil => rfl
  | cons m ms ih => rw [ofMembers, ih, List.map_cons]

/-- The text of the tree is read as its draft, whatever comes after it. -/
def ReadsBack (room : Nat) (t : Tree) : Prop :=
  ∀ fuel rest, t.write.length ≤ fuel → value? fuel room (t.write ++ rest) = some (ofTree t, rest)

variable {room fuel : Nat} {t : Tree}

theorem ReadsBack.of_succ (hp : Plain room t) (h : ∀ fuel rest, t.write.length ≤ fuel + 1 →
    value? (fuel + 1) room (t.write ++ rest) = some (ofTree t, rest)) : ReadsBack room t := by
  intro fuel rest hf
  cases fuel with
  | zero =>
    have hpos := hp.length_write_pos
    omega
  | succ fuel => exact h fuel rest hf

theorem items?_succ (h : ReadsBack room t) (hf : t.write.length ≤ fuel) (rest : List Char) :
    items? (fuel + 1) room (t.write ++ rest) = match skipSpace rest with
      | ']' :: s => some ([ofTree t], s)
      | ',' :: s => (items? fuel room (skipSpace s)).map fun (vs, u) => (ofTree t :: vs, u)
      | _ => none := by
  rw [items?, h fuel rest hf]
  rfl

theorem membersFrom?_succ (hp : Plain room t) (h : ReadsBack room t) (hf : t.write.length ≤ fuel)
    (key : String) (rest : List Char) :
    membersFrom? (fuel + 1) room (writeText key ++ ':' :: (t.write ++ rest)) =
      match skipSpace rest with
      | '\x7d' :: s => some ([(some key, ofTree t)], s)
      | ',' :: s =>
        (membersFrom? fuel room (skipSpace s)).map fun (ms, u) => ((some key, ofTree t) :: ms, u)
      | _ => none := by
  have hcolon : skipSpace (':' :: (t.write ++ rest)) = ':' :: (t.write ++ rest) := skipSpace_cons rfl _
  rw [writeText_append, membersFrom?, quotedText?_escaped, Option.bind_some]
  simp only [hcolon, hp.skipSpace_write, h fuel rest hf]
  rfl

theorem items?_written {ts : List Tree} (hp : ∀ u ∈ t :: ts, Plain room u)
    (h : ∀ u ∈ t :: ts, ReadsBack room u) (hf : t.write.length + (writeItems ts).length ≤ fuel)
    (rest : List Char) :
    items? fuel room (t.write ++ (writeItems ts ++ rest)) = some (ofItems (t :: ts), rest) := by
  -- On the fuel, as the reader goes: an item takes one, and what is left is enough for shorter text.
  induction fuel generalizing t ts with
  | zero =>
    have hpos := (hp t List.mem_cons_self).length_write_pos
    omega
  | succ fuel ih =>
    obtain ⟨-, hp⟩ := List.forall_mem_cons.mp hp
    obtain ⟨ht, h⟩ := List.forall_mem_cons.mp h
    cases ts with
    | nil =>
      simp only [writeItems, List.length_singleton] at hf
      rw [items?_succ ht (by omega)]
      rfl
    | cons u ts =>
      simp only [writeItems, List.length_append, List.length_cons] at hf
      have hs := (hp u List.mem_cons_self).skipSpace_write (writeItems ts ++ rest)
      have hi := ih hp h (by omega)
      rw [items?_succ ht (by omega), writeItems, List.cons_append, List.append_assoc,
        skipSpace_cons rfl]
      simp only [hs, hi, Option.map_some]
      rfl

theorem membersFrom?_written (key : String) {ms : ManifestSync.Members} (hp : Plain room t)
    (hps : ∀ m ∈ ms, Plain room m.2) (h : ReadsBack room t) (hs : ∀ m ∈ ms, ReadsBack room m.2)
    (hf : t.write.length + (writeMembers ms).length ≤ fuel) (rest : List Char) :
    membersFrom? fuel room (writeText key ++ ':' :: (t.write ++ (writeMembers ms ++ rest))) =
      some (ofMembers ((key, t) :: ms), rest) := by
  induction fuel generalizing key t ms with
  | zero =>
    have hpos := hp.length_write_pos
    omega
  | succ fuel ih =>
    cases ms with
    | nil =>
      simp only [writeMembers, List.length_singleton] at hf
      rw [membersFrom?_succ hp h (by omega)]
      rfl
    | cons m ms =>
      obtain ⟨hpm, hps⟩ := List.forall_mem_cons.mp hps
      obtain ⟨hm, hs⟩ := List.forall_mem_cons.mp hs
      simp only [writeMembers, List.length_append, List.length_cons] at hf
      have hi := ih m.1 hpm hps hm hs (by omega)
      rw [membersFrom?_succ hp h (by omega), writeMembers, List.cons_append, skipSpace_cons rfl]
      simp only [List.append_assoc, List.cons_append, skipSpace_writeText, hi, Option.map_some]
      rfl

theorem readsBack_list {ts : List Tree} (hp : ∀ t ∈ ts, Plain room t)
    (h : ∀ t ∈ ts, ReadsBack room t) : ReadsBack (room + 1) (.list ts) := by
  refine .of_succ (.list hp) fun fuel rest hf => ?_
  cases ts with
  | nil => rfl
  | cons t ts =>
    simp only [write, List.length_cons, List.length_append] at hf
    have hi := items?_written hp h (show _ ≤ fuel by omega) rest
    have hs := (hp t List.mem_cons_self).skipSpace_write (writeItems ts ++ rest)
    obtain ⟨c, cs, hw, -, hc⟩ := (hp t List.mem_cons_self).write_eq
    rw [write, List.cons_append, List.append_assoc, value?]
    simp only [hs]
    -- The first item does not begin with the bracket that would make the list empty.
    split
    · next heq =>
      rw [hw] at heq
      exact absurd (List.cons.inj heq).1 hc
    · rw [Nat.add_sub_cancel, hi]
      rfl

theorem readsBack_object {ms : ManifestSync.Members} (hp : ∀ m ∈ ms, Plain room m.2)
    (h : ∀ m ∈ ms, ReadsBack room m.2) : ReadsBack (room + 1) (.object ms) := by
  refine .of_succ (.object hp) fun fuel rest hf => ?_
  cases ms with
  | nil => rfl
  | cons m ms =>
    obtain ⟨hpm, hps⟩ := List.forall_mem_cons.mp hp
    obtain ⟨hm, hs⟩ := List.forall_mem_cons.mp h
    simp only [write, List.length_cons, List.length_append] at hf
    have hi := membersFrom?_written m.1 hpm hps hm hs (show _ ≤ fuel by omega) rest
    rw [write, List.cons_append, List.append_assoc, List.cons_append, List.append_assoc, value?]
    simp only [skipSpace_writeText]
    split
    · next heq => cases heq
    · rw [Nat.add_sub_cancel, hi]
      rfl

theorem readsBack (h : Plain room t) : ReadsBack room t := by
  induction h with
  | null room => exact .of_succ (.null room) fun _ _ _ => rfl
  | bool room b => exact .of_succ (.bool room b) fun _ _ _ => by cases b <;> rfl
  | text room s =>
    refine .of_succ (.text room s) fun fuel rest _ => ?_
    rw [write, writeText_append, value?]
    simp only [quotedText?_escaped]
    rfl
  | list h ih => exact readsBack_list h ih
  | object h ih => exact readsBack_object h ih

theorem read?_written (h : Plain depthLimit t) : read? t.written = some (ofTree t) := by
  have hw : t.written.toList = t.write := String.toList_ofList
  have hs := h.skipSpace_write []
  have hv := readsBack h (t.write.length + 1) [] (Nat.le_succ _)
  rw [List.append_nil] at hs hv
  simp only [read?, hw, hs, hv, Option.bind_some]
  rfl

end Draft

end ManifestSync
