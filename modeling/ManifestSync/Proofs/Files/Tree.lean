import ManifestSync.Files.Walk

namespace ManifestSync.Files

structure ValidName (n : Name) : Prop where
  ne_empty : n ≠ []
  ne_dot : n ≠ dot
  ne_dotDot : n ≠ dotDot
  slash_notMem : slash ∉ n
  zero_notMem : 0 ∉ n
  length_le : n.length ≤ nameLimit

instance (n : Name) : Decidable (ValidName n) :=
  decidable_of_iff (n ≠ [] ∧ n ≠ dot ∧ n ≠ dotDot ∧ slash ∉ n ∧ 0 ∉ n ∧ n.length ≤ nameLimit)
    ⟨fun ⟨h₁, h₂, h₃, h₄, h₅, h₆⟩ => ⟨h₁, h₂, h₃, h₄, h₅, h₆⟩,
      fun ⟨h₁, h₂, h₃, h₄, h₅, h₆⟩ => ⟨h₁, h₂, h₃, h₄, h₅, h₆⟩⟩

namespace Node

/-- Every folder of the tree lists valid names, none of them twice. -/
inductive WellFormed : Node → Prop where
  | file content : WellFormed (.file content)
  | sealed : WellFormed .sealed
  | link target : WellFormed (.link target)
  | folder {entries : List (Name × Node)} (nodup : (Table.keys entries).Nodup)
      (valid : ∀ n ∈ Table.keys entries, ValidName n)
      (children : ∀ p ∈ entries, p.2.WellFormed) : WellFormed (.folder entries)

def isLink : Node → Bool
  | .link _ => true
  | _ => false

variable {t u : Node} {names rest : List Name} {n : Name} {entries : List (Name × Node)}

theorem at?_append (t : Node) (names rest : List Name) :
    t.at? (names ++ rest) = (t.at? names).bind (·.at? rest) := by
  induction names generalizing t with
  | nil => rfl
  | cons n names ih =>
    simp only [List.cons_append, at?]
    cases Table.find? n t.entries with
    | none => rfl
    | some v => exact ih v

theorem at?_cons_eq_some : t.at? (n :: rest) = some u ↔
    ∃ entries v, t = .folder entries ∧ Table.find? n entries = some v ∧ v.at? rest = some u := by
  constructor
  · intro h
    obtain ⟨v, hv, hu⟩ := Option.bind_eq_some_iff.mp h
    cases t with
    | folder entries => exact ⟨entries, v, rfl, hv, hu⟩
    | _ => cases hv
  · rintro ⟨entries, v, rfl, hv, hu⟩
    exact Option.bind_eq_some_iff.mpr ⟨v, hv, hu⟩

namespace WellFormed

theorem of_find? (h : WellFormed (.folder entries)) (hv : Table.find? n entries = some t) :
    ValidName n ∧ t.WellFormed := by
  have hm := Table.mem_of_find? hv
  cases h with
  | folder nodup valid children => exact ⟨valid n (List.mem_map_of_mem hm), children _ hm⟩

theorem at? (h : t.WellFormed) (hu : t.at? names = some u) :
    u.WellFormed ∧ ∀ n ∈ names, ValidName n := by
  induction names generalizing t with
  | nil =>
    cases hu
    exact ⟨h, nofun⟩
  | cons n names ih =>
    obtain ⟨entries, v, rfl, hv, hu⟩ := at?_cons_eq_some.mp hu
    obtain ⟨hn, hw⟩ := h.of_find? hv
    obtain ⟨hwu, hnames⟩ := ih hw hu
    exact ⟨hwu, List.forall_mem_cons.mpr ⟨hn, hnames⟩⟩

end WellFormed

theorem mem_walkEntries {p : List Name × Node} :
    p ∈ walkEntries entries ↔
      ∃ n t rest, (n, t) ∈ entries ∧ p.1 = n :: rest ∧ (rest, p.2) ∈ t.walk := by
  induction entries with
  | nil => simp [walkEntries]
  | cons q entries ih =>
    obtain ⟨m, v⟩ := q
    simp only [walkEntries, List.mem_append, List.mem_map, ih]
    constructor
    · rintro (⟨⟨rest, w⟩, hw, rfl⟩ | ⟨n, t, rest, ht, hp, hw⟩)
      · exact ⟨m, v, rest, List.mem_cons_self, rfl, hw⟩
      · exact ⟨n, t, rest, List.mem_cons_of_mem _ ht, hp, hw⟩
    · rintro ⟨n, t, rest, ht, hp, hw⟩
      obtain heq | ht := List.mem_cons.mp ht
      · cases heq
        exact .inl ⟨(rest, p.2), hw, by rw [← hp]⟩
      · exact .inr ⟨n, t, rest, ht, hp, hw⟩

theorem mem_walk (h : t.WellFormed) : (names, u) ∈ t.walk ↔ t.at? names = some u := by
  induction names generalizing t with
  | nil =>
    cases t with
    | folder entries =>
      simp only [walk, List.mem_cons, mem_walkEntries, at?, Option.some.injEq]
      constructor
      · rintro (heq | ⟨_, _, _, _, hp, _⟩)
        · exact (congrArg Prod.snd heq).symm
        · cases hp
      · rintro rfl
        exact .inl rfl
    | _ => simp [walk, at?, eq_comm]
  | cons n rest ih =>
    cases h with
    | @folder entries nodup valid children =>
      simp only [walk, List.mem_cons, mem_walkEntries]
      constructor
      · rintro (heq | ⟨m, v, rest', hv, hp, hw⟩)
        · cases heq
        · cases hp
          have hf := (Table.find?_eq_some_iff nodup).mpr hv
          exact at?_cons_eq_some.mpr ⟨entries, v, rfl, hf, (ih (children _ hv)).mp hw⟩
      · intro hu
        obtain ⟨_, v, heq, hf, hu⟩ := at?_cons_eq_some.mp hu
        cases heq
        have hv := Table.mem_of_find? hf
        exact .inr ⟨n, v, rest, hv, rfl, (ih (children _ hv)).mpr hu⟩
    | _ => simp [walk, at?, Node.entries]

theorem nodup_walkEntries (hn : (Table.keys entries).Nodup)
    (h : ∀ p ∈ entries, (p.2.walk.map Prod.fst).Nodup) :
    ((walkEntries entries).map Prod.fst).Nodup := by
  induction entries with
  | nil => exact List.nodup_nil
  | cons p entries ih =>
    obtain ⟨n, t⟩ := p
    obtain ⟨hfresh, hrest⟩ := List.nodup_cons.mp hn
    obtain ⟨ht, hchildren⟩ := List.forall_mem_cons.mp h
    rw [walkEntries, List.map_append, List.nodup_append]
    refine ⟨?_, ih hrest hchildren, ?_⟩
    · have hmap : (t.walk.map fun p => (n :: p.1, p.2)).map Prod.fst =
          (t.walk.map Prod.fst).map (n :: ·) := by
        rw [List.map_map, List.map_map]
        rfl
      rw [hmap]
      exact List.pairwise_map.mpr (ht.imp fun hne he => hne (List.cons.inj he).2)
    · intro a ha b hb hab
      obtain ⟨q, hq, rfl⟩ := List.mem_map.mp ha
      obtain ⟨q', _, rfl⟩ := List.mem_map.mp hq
      obtain ⟨r, hr, rfl⟩ := List.mem_map.mp hb
      obtain ⟨m, v, rest, hv, hp, _⟩ := mem_walkEntries.mp hr
      have hnm : n = m := (List.cons.inj (hab.trans hp)).1
      have hm : m ∈ Table.keys entries := List.mem_map_of_mem hv
      exact hfresh (hnm ▸ hm)

theorem nodup_walk (h : t.WellFormed) : (t.walk.map Prod.fst).Nodup := by
  induction h with
  | folder nodup valid children ih =>
    rw [walk, List.map_cons, List.nodup_cons]
    refine ⟨fun hm => ?_, nodup_walkEntries nodup ih⟩
    obtain ⟨p, hp, hnil⟩ := List.mem_map.mp hm
    obtain ⟨n, v, rest, _, hcons, _⟩ := mem_walkEntries.mp hp
    exact nomatch hnil.symm.trans hcons
  | _ => exact List.pairwise_singleton ..

theorem mem_inOrder (h : t.WellFormed) : (names, u) ∈ t.inOrder ↔ t.at? names = some u := by
  rw [inOrder, List.mem_mergeSort, mem_walk h]

theorem ascending_inOrder (h : t.WellFormed) : t.inOrder.Pairwise (·.1 < ·.1) := by
  have hle : t.inOrder.Pairwise fun a b => ¬ b.1 < a.1 := by
    refine (@List.pairwise_mergeSort _ (fun a b => !decide (b.1 < a.1)) ?_ ?_ t.walk).imp ?_
    · intro a b c hab hbc
      simp only [Bool.not_eq_true', decide_eq_false_iff_not] at hab hbc ⊢
      exact List.le_trans hab hbc
    · intro a b
      simpa using List.le_total a.1 b.1
    · intro a b hab
      simpa using hab
  have hne : t.inOrder.Pairwise fun a b => a.1 ≠ b.1 := by
    have hp : (t.inOrder.map Prod.fst).Perm (t.walk.map Prod.fst) :=
      (List.mergeSort_perm t.walk _).map Prod.fst
    exact List.pairwise_map.mp (hp.nodup_iff.mpr (nodup_walk h))
  refine (hle.and hne).imp ?_
  rintro a b ⟨hab, hne⟩
  refine Decidable.byContradiction fun hba => hne ?_
  exact List.le_antisymm hab hba

end Node

end ManifestSync.Files
