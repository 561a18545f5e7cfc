import ManifestSync.Proofs.Files.Tree

namespace ManifestSync.Files

theorem pieces_ne_nil (p : PathText) : pieces p ≠ [] := by
  cases p with
  | nil => exact List.cons_ne_nil _ _
  | cons b p =>
    rw [pieces]
    split
    · exact List.cons_ne_nil _ _
    · cases pieces p <;> exact List.cons_ne_nil _ _

theorem pieces_append_slash (p q : PathText) : pieces (p ++ slash :: q) = pieces p ++ pieces q := by
  induction p with
  | nil => rfl
  | cons b p ih =>
    simp only [List.cons_append, pieces, ih]
    split
    · rfl
    · obtain ⟨n, ns, hp⟩ := List.exists_cons_of_ne_nil (pieces_ne_nil p)
      rw [hp]
      rfl

theorem pieces_of_slash_notMem {n : Name} (h : slash ∉ n) : pieces n = [n] := by
  induction n with
  | nil => rfl
  | cons b n ih =>
    obtain ⟨hb, hn⟩ := not_or.mp (mt List.mem_cons.mpr h)
    rw [pieces, if_neg (Ne.symm hb), ih hn]

namespace ValidName

variable {n : Name}

theorem pieces_eq (h : ValidName n) : pieces n = [n] := pieces_of_slash_notMem h.slash_notMem

theorem ofName_eq (h : ValidName n) : Step.ofName n = .enter n := by
  rw [Step.ofName, if_neg (not_or.mpr ⟨h.ne_empty, h.ne_dot⟩), if_neg h.ne_dotDot]

theorem getLast?_append_ne (h : ValidName n) (p : PathText) :
    (p ++ slash :: n).getLast? ≠ some slash := by
  intro hl
  rw [List.getLast?_append, List.getLast?_cons] at hl
  have hm : n.getLast?.getD slash = slash := Option.some.inj hl
  cases hn : n.getLast? with
  | none => exact h.ne_empty (List.getLast?_eq_none_iff.mp hn)
  | some b =>
    rw [hn] at hm
    obtain rfl : b = slash := hm
    exact h.slash_notMem (List.mem_of_getLast? hn)

end ValidName

theorem pieces_extend_of_ne_slash {p : PathText} {names : List Name}
    (hp : p.getLast? ≠ some slash) (hn : ∀ n ∈ names, ValidName n) :
    pieces (extend p names) = pieces p ++ names := by
  induction names generalizing p with
  | nil => exact (List.append_nil _).symm
  | cons n names ih =>
    obtain ⟨hv, hrest⟩ := List.forall_mem_cons.mp hn
    have he : extend p (n :: names) = extend (p ++ slash :: n) names := by
      simp only [extend, List.foldl_cons, if_neg hp]
    rw [he, ih (hv.getLast?_append_ne p) hrest, pieces_append_slash, hv.pieces_eq,
      List.append_assoc, List.singleton_append]

/-- The pieces of an extended path: a slash at the end of the path does not count. -/
theorem pieces_extend (p : PathText) : ∃ front, (pieces p = front ∨ pieces p = front ++ [[]]) ∧
    ∀ n names, (∀ m ∈ n :: names, ValidName m) →
      pieces (extend p (n :: names)) = front ++ n :: names := by
  by_cases hp : p.getLast? = some slash
  · obtain ⟨q, rfl⟩ := List.getLast?_eq_some_iff.mp hp
    refine ⟨pieces q, .inr (pieces_append_slash q []), fun n names hn => ?_⟩
    obtain ⟨hv, hrest⟩ := List.forall_mem_cons.mp hn
    have he : extend (q ++ [slash]) (n :: names) = extend (q ++ slash :: n) names := by
      simp only [extend, List.foldl_cons, if_pos hp, List.append_assoc, List.singleton_append]
    rw [he, pieces_extend_of_ne_slash (hv.getLast?_append_ne q) hrest, pieces_append_slash,
      hv.pieces_eq, List.append_assoc, List.singleton_append]
  · exact ⟨pieces p, .inl rfl, fun n names hn => pieces_extend_of_ne_slash hp hn⟩

theorem extend_eq_append (p : PathText) (names : List Name) : ∃ q, extend p names = p ++ q ∧
    ∀ b ∈ q, b = slash ∨ ∃ n ∈ names, b ∈ n := by
  induction names generalizing p with
  | nil => exact ⟨[], (List.append_nil p).symm, nofun⟩
  | cons n names ih =>
    have hone : ∃ q, extend p (n :: names) = extend (p ++ q) names ∧
        ∀ b ∈ q, b = slash ∨ b ∈ n := by
      by_cases hp : p.getLast? = some slash
      · exact ⟨n, by simp only [extend, List.foldl_cons, if_pos hp], fun b hb => .inr hb⟩
      · exact ⟨slash :: n, by simp only [extend, List.foldl_cons, if_neg hp],
          fun b hb => List.mem_cons.mp hb⟩
    obtain ⟨q, hq, hb⟩ := hone
    obtain ⟨r, hr, hb'⟩ := ih (p ++ q)
    refine ⟨q ++ r, by rw [hq, hr, List.append_assoc], fun b hm => ?_⟩
    obtain hm | hm := List.mem_append.mp hm
    · exact (hb b hm).imp_right fun hn => ⟨n, List.mem_cons_self, hn⟩
    · exact (hb' b hm).imp_right fun ⟨m, hm, hbm⟩ => ⟨m, List.mem_cons_of_mem n hm, hbm⟩

section Following

variable {root : Node} {links : Nat} {place : List Name}

theorem follow_cons (root : Node) (links : Nat) (place : List Name) (step : Step)
    (rest : List Step) : follow root links place (step :: rest) =
      match advance root links place step with
      | .error e => .error e
      | .ok (links, place, detour) => follow root links place (detour ++ rest) := by
  rw [follow]
  split <;> simp_all

theorem follow_nil_eq_ok {p : List Name} (h : follow root links place [] = .ok p) : place = p := by
  rw [follow] at h
  split at h
  · exact Except.ok.inj h
  · cases h

theorem follow_append (root : Node) (links : Nat) (place : List Name) (path : List Step) :
    (∃ l p, ∀ rest, follow root links place (path ++ rest) = follow root l p rest) ∨
      ∃ e, ∀ rest, follow root links place (path ++ rest) = .error e := by
  fun_induction follow root links place path with
  | case1 | case2 => exact .inl ⟨_, _, fun _ => rfl⟩
  | case3 links place step rest e he =>
    refine .inr ⟨e, fun more => ?_⟩
    rw [List.cons_append, follow_cons, he]
  | case4 links place step rest l p detour ha ih =>
    have hs : ∀ more, follow root links place (step :: rest ++ more) =
        follow root l p (detour ++ rest ++ more) := fun more => by
      rw [List.cons_append, follow_cons, ha, List.append_assoc]
    simpa only [hs] using ih

theorem advance_stay_eq_ok {l : Nat} {p : List Name} {detour : List Step}
    (h : advance root links place .stay = .ok (l, p, detour)) :
    l = links ∧ p = place ∧ detour = [] := by
  unfold advance at h
  split at h
  · cases h
    exact ⟨rfl, rfl, rfl⟩
  · cases h
  · cases h

theorem follow_of_ok {start : List Name} {steps : List Step}
    (h : follow root links start steps = .ok place) : ∃ l, ∀ rest,
      follow root links start (steps ++ rest) = follow root l place rest := by
  rw [← List.append_nil steps] at h
  obtain ⟨l, p, hs⟩ | ⟨e, he⟩ := follow_append root links start steps
  · rw [hs] at h
    obtain rfl := follow_nil_eq_ok h
    exact ⟨l, hs⟩
  · exact nomatch (he _).symm.trans h

theorem follow_snoc_stay {start : List Name} {steps : List Step}
    (h : follow root links start (steps ++ [.stay]) = .ok place) : ∃ l, ∀ rest,
      follow root links start (steps ++ rest) = follow root l place rest := by
  obtain ⟨l, p, hs⟩ | ⟨e, he⟩ := follow_append root links start steps
  · rw [hs, follow_cons] at h
    split at h
    · cases h
    · next l' p' detour ha =>
      obtain ⟨rfl, rfl, rfl⟩ := advance_stay_eq_ok ha
      obtain rfl := follow_nil_eq_ok h
      exact ⟨l', hs⟩
  · exact nomatch (he _).symm.trans h

theorem advance_enter {entries : List (Name × Node)} {n : Name} {t : Node}
    (hp : root.at? place = some (.folder entries)) (hn : ValidName n)
    (ht : Table.find? n entries = some t) (hl : t.isLink = false) :
    advance root links place (.enter n) = .ok (links, place ++ [n], []) := by
  unfold advance
  rw [hp]
  simp only [if_neg (Nat.not_lt.mpr hn.length_le), ht]
  cases t with
  | link target => cases hl
  | _ => rfl

theorem follow_enter {t u : Node} {names : List Name} (hp : root.at? place = some t)
    (hu : t.at? names = some u) (hv : ∀ n ∈ names, ValidName n) (hl : u.isLink = false) :
    follow root links place (names.map .enter) = .ok (place ++ names) := by
  induction names generalizing place t with
  | nil => rw [List.map_nil, follow, hp, List.append_nil]; rfl
  | cons n names ih =>
    obtain ⟨hn, hrest⟩ := List.forall_mem_cons.mp hv
    obtain ⟨entries, v, rfl, hf, hu⟩ := Node.at?_cons_eq_some.mp hu
    have hvl : v.isLink = false := by
      cases names with
      | nil =>
        cases hu
        exact hl
      | cons m names =>
        obtain ⟨_, _, rfl, _⟩ := Node.at?_cons_eq_some.mp hu
        rfl
    have hplace : root.at? (place ++ [n]) = some v := by
      rw [Node.at?_append, hp]
      exact Node.at?_cons_eq_some.mpr ⟨entries, v, rfl, hf, rfl⟩
    rw [List.map_cons, follow_cons, advance_enter hp hn hf hvl]
    have hi := ih hplace hu hrest
    rwa [List.append_assoc] at hi

theorem route?_append {place start : List Name} {p : PathText} {steps : List Step}
    (h : route? place p = some (start, steps)) (q : PathText) :
    steps = (pieces p).map .ofName ∧
      route? place (p ++ q) = some (start, (pieces (p ++ q)).map .ofName) := by
  cases p with
  | nil => cases h
  | cons b p =>
    cases h
    exact ⟨rfl, rfl⟩

end Following

namespace Disk

variable {d : Disk} {directory : PathText} {top t : Node} {names : List Name}

theorem find_eq_ok {path : PathText} : d.find path = .ok t ↔
    0 ∉ path ∧ path.length < pathLimit ∧ ∃ start steps place,
      route? d.home path = some (start, steps) ∧
        follow d.top linkLimit start steps = .ok place ∧ d.top.at? place = some t := by
  unfold find
  by_cases hz : 0 ∈ path
  · simp [hz]
  · by_cases hlen : pathLimit ≤ path.length
    · simp [hz, hlen, Nat.not_lt.mpr hlen]
    · simp only [List.contains_eq_mem, hz, decide_false, Bool.false_eq_true, if_false, hlen,
        not_false_eq_true, Nat.lt_of_not_le hlen, true_and]
      cases hr : route? d.home path with
      | none => simp
      | some route =>
        obtain ⟨start, steps⟩ := route
        simp only [Option.some.injEq, Prod.mk.injEq, and_assoc, exists_eq_left', exists_and_left]
        cases hf : follow d.top linkLimit start steps with
        | error e => simp [bind, Except.bind]
        | ok place =>
          simp only [bind, Except.bind, Except.ok.injEq, exists_eq_left']
          cases d.top.at? place <;> simp

theorem wellFormed_of_find (h : d.top.WellFormed) {path : PathText} (ht : d.find path = .ok t) :
    t.WellFormed := by
  obtain ⟨_, _, _, _, _, _, _, hp⟩ := find_eq_ok.mp ht
  exact (h.at? hp).1

theorem follow_extend (h : d.find directory = .ok top) : ∃ start l place,
    d.top.at? place = some top ∧ ∀ n names, (∀ m ∈ n :: names, ValidName m) →
      ∃ steps, route? d.home (extend directory (n :: names)) = some (start, steps) ∧
        follow d.top linkLimit start steps = follow d.top l place ((n :: names).map .enter) := by
  obtain ⟨_, _, start, steps, place, hr, hf, hp⟩ := find_eq_ok.mp h
  obtain ⟨front, hfront, hpieces⟩ := pieces_extend directory
  obtain ⟨hsteps, _⟩ := route?_append hr []
  have hfollow : ∃ l, ∀ rest, follow d.top linkLimit start (front.map .ofName ++ rest) =
      follow d.top l place rest := by
    obtain hfront | hfront := hfront
    · rw [hsteps, hfront] at hf
      exact follow_of_ok hf
    · rw [hsteps, hfront, List.map_append] at hf
      exact follow_snoc_stay hf
  obtain ⟨l, hl⟩ := hfollow
  refine ⟨start, l, place, hp, fun n names hv => ?_⟩
  obtain ⟨q, hq, _⟩ := extend_eq_append directory (n :: names)
  have hroute := (route?_append hr q).2
  rw [← hq, hpieces n names hv] at hroute
  refine ⟨_, hroute, ?_⟩
  have hnames : (n :: names).map Step.ofName = (n :: names).map .enter :=
    List.map_congr_left fun m hm => (hv m hm).ofName_eq
  rw [List.map_append, hl, hnames]

/-- An extended path leads to where the names lead on through no link, unless it is too long. -/
theorem find_extend (h : d.find directory = .ok top) (ht : top.at? names = some t)
    (hv : ∀ n ∈ names, ValidName n) (hl : t.isLink = false) :
    d.find (extend directory names) =
      if pathLimit ≤ (extend directory names).length then .error .nameTooLong else .ok t := by
  have hzero : 0 ∉ extend directory names := by
    obtain ⟨q, hq, hb⟩ := extend_eq_append directory names
    rw [hq, List.mem_append]
    rintro (hz | hz)
    · exact (find_eq_ok.mp h).1 hz
    · obtain hs | ⟨n, hn, hz⟩ := hb 0 hz
      · cases hs
      · exact (hv n hn).zero_notMem hz
  by_cases hlen : pathLimit ≤ (extend directory names).length
  · rw [if_pos hlen, find, List.contains_eq_mem, decide_eq_false hzero, if_neg Bool.false_ne_true,
      if_pos hlen]
  · rw [if_neg hlen]
    cases names with
    | nil =>
      cases ht
      exact h
    | cons n names =>
      obtain ⟨start, l, place, hp, hsteps⟩ := follow_extend h
      obtain ⟨steps, hr, hf⟩ := hsteps n names hv
      have hat : d.top.at? (place ++ n :: names) = some t := by
        rw [Node.at?_append, hp]
        exact ht
      rw [follow_enter hp ht hv hl] at hf
      exact find_eq_ok.mpr ⟨hzero, Nat.lt_of_not_le hlen, start, steps, _, hr, hf, hat⟩

end Disk

end ManifestSync.Files
