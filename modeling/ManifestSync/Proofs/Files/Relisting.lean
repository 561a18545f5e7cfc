import ManifestSync.Proofs.Files.Paths

namespace ManifestSync.Files

namespace Node

/-- The other tree is the same but for the order in which folders list their entries. -/
inductive Relisted : Node → Node → Prop where
  | refl (t : Node) : Relisted t t
  | permuted {entries entries' : List (Name × Node)} (h : entries.Perm entries') :
      Relisted (.folder entries) (.folder entries')
  | inside {t t' : Node} (before : List (Name × Node)) (n : Name) (after : List (Name × Node))
      (h : Relisted t t') :
      Relisted (.folder (before ++ (n, t) :: after)) (.folder (before ++ (n, t') :: after))
  | trans {t u v : Node} (h : Relisted t u) (h' : Relisted u v) : Relisted t v

def bare : Node → Node
  | .folder _ => .folder []
  | t => t

/-- The same names lead to nodes of the same look. -/
def Alike (t t' : Node) : Prop := ∀ names, (t.at? names).map bare = (t'.at? names).map bare

variable {t t' u v : Node} {names : List Name}

theorem bare_eq_bare (h : t.bare = t'.bare) :
    t = t' ∨ ∃ entries entries', t = .folder entries ∧ t' = .folder entries' := by
  cases t with
  | folder entries =>
    cases t' with
    | folder entries' => exact .inr ⟨entries, entries', rfl, rfl⟩
    | _ => cases h
  | _ =>
    cases t' with
    | folder entries' => cases h
    | _ => exact .inl h

namespace Alike

theorem bare_eq (h : Alike t t') : t.bare = t'.bare := Option.some.inj (h [])

theorem trans (h : Alike t u) (h' : Alike u v) : Alike t v := fun names => (h names).trans (h' names)

theorem symm (h : Alike t t') : Alike t' t := fun names => (h names).symm

theorem at? (h : Alike t t') (hu : t.at? names = some u) :
    ∃ u', t'.at? names = some u' ∧ Alike u u' := by
  have hn := h names
  rw [hu] at hn
  obtain ⟨u', hu', _⟩ := Option.map_eq_some_iff.mp hn.symm
  refine ⟨u', hu', fun rest => ?_⟩
  have hr := h (names ++ rest)
  rwa [at?_append, at?_append, hu, hu'] at hr

theorem at?_eq_none (h : Alike t t') (hu : t.at? names = none) : t'.at? names = none := by
  have hn := h names
  rw [hu] at hn
  exact Option.map_eq_none_iff.mp hn.symm

theorem isSome_at? (h : Alike t t') (names : List Name) :
    (t.at? names).isSome = (t'.at? names).isSome := by
  rw [← Option.isSome_map, h names, Option.isSome_map]

theorem folder {entries entries' : List (Name × Node)}
    (h : ∀ n rest, ((Table.find? n entries).bind (·.at? rest)).map bare =
      ((Table.find? n entries').bind (·.at? rest)).map bare) :
    Alike (.folder entries) (.folder entries') := by
  intro names
  cases names with
  | nil => rfl
  | cons n names => exact h n names

end Alike

theorem WellFormed.relisted (h : t.WellFormed) (hr : Relisted t t') : t'.WellFormed ∧ Alike t t' := by
  induction hr with
  | refl t => exact ⟨h, fun _ => rfl⟩
  | permuted hp =>
    cases h with
    | folder nodup valid children =>
      have hk := hp.map Prod.fst
      refine ⟨.folder (hk.nodup_iff.mp nodup) (fun n hn => valid n (hk.mem_iff.mpr hn))
        (fun p hm => children p (hp.mem_iff.mpr hm)), .folder fun n rest => ?_⟩
      rw [Table.find?_perm hp nodup]
  | @inside t t' before n after hr ih =>
    cases h with
    | folder nodup valid children =>
      have hkeys : Table.keys (before ++ (n, t') :: after) =
          Table.keys (before ++ (n, t) :: after) := by simp [Table.keys]
      obtain ⟨ht, hl⟩ := ih (children (n, t) (by simp))
      refine ⟨.folder (hkeys ▸ nodup) (hkeys ▸ valid) fun p hp => ?_, .folder fun m rest => ?_⟩
      · obtain hp | hp := List.mem_append.mp hp
        · exact children p (List.mem_append_left _ hp)
        · obtain rfl | hp := List.mem_cons.mp hp
          · exact ht
          · exact children p (List.mem_append_right _ (List.mem_cons_of_mem _ hp))
      · rw [Table.find?_append, Table.find?_append]
        cases Table.find? m before with
        | some v => rfl
        | none =>
          simp only [Option.none_or, Table.find?]
          split
          · exact hl rest
          · rfl
  | trans hr hr' ih ih' =>
    obtain ⟨hu, hl⟩ := ih h
    obtain ⟨hv, hl'⟩ := ih' hu
    exact ⟨hv, hl.trans hl'⟩

def look (p : List Name × Node) : List Name × Node := (p.1, p.2.bare)

theorem Alike.inOrder (h : Alike t t') (ht : t.WellFormed) (ht' : t'.WellFormed) :
    t.inOrder.map look = t'.inOrder.map look := by
  have hasc : ∀ {v : Node}, v.WellFormed → (v.inOrder.map look).Pairwise (·.1 < ·.1) :=
    fun hv => List.pairwise_map.mpr (ascending_inOrder hv)
  have hnodup : ∀ {v : Node}, v.WellFormed → (v.inOrder.map look).Nodup := fun hv =>
    (hasc hv).imp fun hlt => ne_of_apply_ne Prod.fst fun he => List.lt_irrefl _ (he ▸ hlt)
  have hmem : ∀ {v v' : Node}, Alike v v' → v.WellFormed → v'.WellFormed → ∀ p,
      p ∈ v.inOrder.map look → p ∈ v'.inOrder.map look := by
    intro v v' hl hv hv' p hp
    obtain ⟨⟨names, u⟩, hu, rfl⟩ := List.mem_map.mp hp
    obtain ⟨u', hu', hlu⟩ := hl.at? ((mem_inOrder hv).mp hu)
    have hlook : look (names, u') = look (names, u) := congrArg (Prod.mk names) hlu.bare_eq.symm
    exact hlook ▸ List.mem_map_of_mem ((mem_inOrder hv').mpr hu')
  have hp : (t.inOrder.map look).Perm (t'.inOrder.map look) :=
    (List.perm_ext_iff_of_nodup (hnodup ht) (hnodup ht')).mpr fun p =>
      ⟨hmem h ht ht' p, hmem h.symm ht' ht p⟩
  refine hp.eq_of_pairwise (fun a b _ _ hab hba => ?_) (hasc ht) (hasc ht')
  exact absurd (List.lt_trans hab hba) (List.lt_irrefl _)

end Node

section Following

variable {root root' : Node}

theorem advance_of_alike (h : root.Alike root') (links : Nat) (place : List Name) (step : Step) :
    advance root' links place step = advance root links place step := by
  cases hu : root.at? place with
  | none => simp only [advance, hu, h.at?_eq_none hu]
  | some u =>
    obtain ⟨u', hu', hl⟩ := h.at? hu
    obtain rfl | ⟨entries, entries', rfl, rfl⟩ := Node.bare_eq_bare hl.bare_eq
    · simp only [advance, hu, hu']
    · cases step with
      | stay | up => simp only [advance, hu, hu']
      | enter n =>
        have hn := hl [n]
        simp only [advance, hu, hu']
        simp only [Node.at?, Node.entries] at hn
        cases hv : Table.find? n entries with
        | none =>
          cases hv' : Table.find? n entries' with
          | none => rfl
          | some v' =>
            rw [hv, hv'] at hn
            cases hn
        | some v =>
          cases hv' : Table.find? n entries' with
          | none =>
            rw [hv, hv'] at hn
            cases hn
          | some v' =>
            rw [hv, hv'] at hn
            obtain rfl | ⟨_, _, rfl, rfl⟩ := Node.bare_eq_bare (Option.some.inj hn)
            · rfl
            · rfl

theorem follow_of_alike (h : root.Alike root') (links : Nat) (place : List Name)
    (path : List Step) : follow root' links place path = follow root links place path := by
  fun_induction follow root links place path with
  | case1 links place hp =>
    rw [follow, if_pos]
    exact h.isSome_at? place ▸ hp
  | case2 links place hp =>
    rw [follow, if_neg]
    exact h.isSome_at? place ▸ hp
  | case3 links place step rest e he => rw [follow_cons, advance_of_alike h, he]
  | case4 links place step rest l p detour ha ih =>
    rw [follow_cons, advance_of_alike h, ha]
    exact ih

end Following

namespace Disk

variable {top top' : Node} {home : List Name}

/-- Every path leads to nodes that are alike, or nowhere for the same reason. -/
theorem find_of_alike (h : top.Alike top') (path : PathText) :
    (∃ e, find ⟨top, home⟩ path = .error e ∧ find ⟨top', home⟩ path = .error e) ∨
      ∃ t t', find ⟨top, home⟩ path = .ok t ∧ find ⟨top', home⟩ path = .ok t' ∧ t.Alike t' := by
  unfold find
  split
  · exact .inl ⟨_, rfl, rfl⟩
  split
  · exact .inl ⟨_, rfl, rfl⟩
  cases route? home path with
  | none => exact .inl ⟨_, rfl, rfl⟩
  | some route =>
    obtain ⟨start, steps⟩ := route
    simp only [follow_of_alike h]
    cases follow top linkLimit start steps with
    | error e => exact .inl ⟨e, rfl, rfl⟩
    | ok place =>
      simp only [bind, Except.bind]
      cases hp : top.at? place with
      | none =>
        rw [h.at?_eq_none hp]
        exact .inl ⟨_, rfl, rfl⟩
      | some t =>
        obtain ⟨t', ht', hl⟩ := h.at? hp
        rw [ht']
        exact .inr ⟨t, t', rfl, rfl, hl⟩

theorem read_of_alike (h : top.Alike top') (path : PathText) :
    read ⟨top', home⟩ path = read ⟨top, home⟩ path := by
  unfold read
  obtain ⟨e, he, he'⟩ | ⟨t, t', ht, ht', hl⟩ := find_of_alike h path
  · rw [he, he']
  · rw [ht, ht']
    obtain rfl | ⟨_, _, rfl, rfl⟩ := Node.bare_eq_bare hl.bare_eq
    · rfl
    · rfl

theorem isFileAt_of_alike (h : top.Alike top') (path : PathText) :
    isFileAt ⟨top', home⟩ path = isFileAt ⟨top, home⟩ path := by
  unfold isFileAt
  obtain ⟨e, he, he'⟩ | ⟨t, t', ht, ht', hl⟩ := find_of_alike h path
  · rw [he, he']
  · rw [ht, ht']
    obtain rfl | ⟨_, _, rfl, rfl⟩ := Node.bare_eq_bare hl.bare_eq
    · rfl
    · rfl

theorem counts_look (d : Disk) (directory : PathText) :
    d.counts directory ∘ Node.look = d.counts directory := by
  funext ⟨names, t⟩
  cases t <;> rfl

theorem isShut_look (directory : PathText) : isShut directory ∘ Node.look = isShut directory := by
  funext ⟨names, t⟩
  cases t <;> rfl

theorem counts_of_alike (h : top.Alike top') (directory : PathText) :
    counts ⟨top', home⟩ directory = counts ⟨top, home⟩ directory := by
  funext ⟨names, t⟩
  cases t with
  | link target => exact isFileAt_of_alike h (extend directory names)
  | _ => rfl

theorem filesAmong_look (d : Disk) (directory : PathText) (met : List (List Name × Node)) :
    d.filesAmong directory (met.map Node.look) = d.filesAmong directory met := by
  unfold filesAmong
  rw [List.find?_map, isShut_look, List.filter_map, counts_look, List.map_map]
  cases met.find? (isShut directory) <;> rfl

theorem filesBelow_of_alike (h : top.Alike top') (ht : top.WellFormed) (ht' : top'.WellFormed)
    (directory : PathText) :
    filesBelow ⟨top', home⟩ directory = filesBelow ⟨top, home⟩ directory := by
  unfold filesBelow
  obtain ⟨e, he, he'⟩ | ⟨t, t', hf, hf', hl⟩ := find_of_alike h directory
  · rw [he, he']
    rfl
  · have hmet : t.inOrder.map Node.look = t'.inOrder.map Node.look :=
      hl.inOrder (wellFormed_of_find ht hf) (wellFormed_of_find ht' hf')
    have hfiles : filesAmong ⟨top', home⟩ directory t'.inOrder =
        filesAmong ⟨top, home⟩ directory t.inOrder := by
      rw [← filesAmong_look, ← hmet, filesAmong, counts_of_alike h, ← filesAmong, filesAmong_look]
    rw [hf, hf']
    exact hfiles

end Disk

end ManifestSync.Files
