import ManifestSync.Tree.Merge
import ManifestSync.Proofs.Tree.Members

namespace ManifestSync.Tree

/-- What a key holds after a patch's value was merged into what it held before. -/
def mergedWith (found? : Option Tree) : Tree → Option Tree
  | .null => none
  | value => some ((found?.getD .null).merge value)

theorem mergedWith_of_ne_null (found? : Option Tree) {value : Tree} (h : value ≠ .null) :
    mergedWith found? value = some ((found?.getD .null).merge value) := by
  cases value <;> first | rfl | exact absurd rfl h

theorem mergeMembers_cons_of_ne_null (target : Members) (key : String) {value : Tree}
    (rest : Members) (h : value ≠ .null) :
    mergeMembers target ((key, value) :: rest) =
      mergeMembers (target.set key (merge ((target.find? key).getD .null) value)) rest := by
  cases value <;> first | rfl | exact absurd rfl h

theorem find?_mergeMembers (target patch : Members) (key : String) :
    (mergeMembers target patch).find? key =
      patch.foldl (fun found? p => if p.1 = key then mergedWith found? p.2 else found?)
        (target.find? key) := by
  induction patch generalizing target with
  | nil => rfl
  | cons p patch ih =>
    obtain ⟨k, v⟩ := p
    by_cases hv : v = .null
    · subst hv
      rw [mergeMembers, ih, List.foldl_cons, Members.find?_erase]
      rfl
    · rw [mergeMembers_cons_of_ne_null _ _ _ hv, ih, List.foldl_cons, Members.find?_set]
      by_cases hk : k = key
      · subst hk
        simp only [↓reduceIte, mergedWith_of_ne_null _ hv]
      · simp only [hk, ↓reduceIte]

theorem find?_mergeMembers_of_ascending (target : Members) {patch : Members}
    (h : patch.Ascending) (key : String) :
    (mergeMembers target patch).find? key =
      (patch.find? key).elim (target.find? key) (mergedWith (target.find? key)) := by
  rw [find?_mergeMembers]
  generalize target.find? key = found?
  induction patch generalizing found? with
  | nil => rfl
  | cons p patch ih =>
    obtain ⟨k, v⟩ := p
    obtain ⟨hp, hpatch⟩ := List.pairwise_cons.mp h
    rw [List.foldl_cons, Members.find?_cons, ih hpatch]
    by_cases hk : k = key
    · subst hk
      have hn : Members.find? k patch = none := Members.find?_eq_none.mpr fun q hq => (hp q hq).ne'
      simp only [hn, ↓reduceIte, Option.elim_none, Option.elim_some]
    · simp only [hk, ↓reduceIte]

theorem ascending_mergeMembers {target : Members} (h : target.Ascending) (patch : Members) :
    (mergeMembers target patch).Ascending := by
  induction patch generalizing target with
  | nil => exact h
  | cons p patch ih =>
    obtain ⟨k, v⟩ := p
    by_cases hv : v = .null
    · subst hv
      exact ih (h.erase k)
    · rw [mergeMembers_cons_of_ne_null _ _ _ hv]
      exact ih h.set

theorem at?_cons (t : Tree) (key : String) (path : List String) :
    t.at? (key :: path) = (t.members.find? key).bind (·.at? path) := rfl

@[simp] theorem members_object (ms : Members) : (object ms).members = ms := rfl

theorem at?_pair (t : Tree) (key next : String) :
    t.at? [key, next] = ((t.members.find? key).getD .null).members.find? next := by
  rw [at?_cons]
  cases t.members.find? key with
  | none => rfl
  | some u => simp [at?, member?]

theorem at?_null {path : List String} (h : path ≠ []) : Tree.null.at? path = none := by
  cases path with
  | nil => exact absurd rfl h
  | cons key path => rfl

theorem at?_getD_null {path : List String} (h : path ≠ []) (found? : Option Tree) :
    (found?.getD .null).at? path = found?.bind (·.at? path) := by
  cases found? with
  | none => exact at?_null h
  | some u => rfl

/-- Whether the path leaves the tree at an object: it comes to one that lacks its next key. -/
def Misses (t : Tree) : List String → Prop
  | [] => False
  | key :: path => ∃ ms, t = .object ms ∧ ∀ v, (key, v) ∈ ms → v.Misses path

theorem Misses.ne_nil {t : Tree} {path : List String} (h : t.Misses path) : path ≠ [] := by
  rintro rfl
  exact h

theorem Misses.ne_null {t : Tree} {path : List String} (h : t.Misses path) : t ≠ .null := by
  cases path with
  | nil => exact h.elim
  | cons key path =>
    obtain ⟨ms, rfl, _⟩ := h
    exact nofun

theorem at?_merge_of_misses (t : Tree) {patch : Tree} {path : List String}
    (h : patch.Misses path) : (t.merge patch).at? path = t.at? path := by
  induction path generalizing t patch with
  | nil => exact h.elim
  | cons key path ih =>
    obtain ⟨ms, rfl, hms⟩ := h
    rw [merge, at?_cons, at?_cons, members, find?_mergeMembers]
    generalize t.members.find? key = found?
    induction ms generalizing found? with
    | nil => rfl
    | cons p ms ihms =>
      obtain ⟨k, v⟩ := p
      rw [List.foldl_cons, ihms (fun w hw => hms w (List.mem_cons_of_mem _ hw))]
      by_cases hk : k = key
      · subst hk
        have hv : v.Misses path := hms v List.mem_cons_self
        rw [if_pos rfl, mergedWith_of_ne_null _ hv.ne_null, Option.bind_some, ih _ hv,
          at?_getD_null hv.ne_nil]
      · simp only [hk, ↓reduceIte]

mutual

/-- Whether a tree has the last word where it is merged: it is no object, or it holds no null and
every key of the other tree, and all of its values have the last word. -/
def overrides : Tree → Tree → Bool
  | .object ms, t =>
    (t.members.all fun p => (Members.find? p.1 ms).isSome) && membersOverride ms t.members
  | _, _ => true

def membersOverride : Members → Members → Bool
  | [], _ => true
  | (key, value) :: ms, ns =>
    !value.isNull && value.overrides ((ns.find? key).getD .null) && membersOverride ms ns

end

theorem membersOverride_iff {ms ns : Members} :
    membersOverride ms ns = true ↔ ∀ p ∈ ms,
      p.2 ≠ .null ∧ p.2.overrides ((ns.find? p.1).getD .null) = true := by
  induction ms with
  | nil => simp [membersOverride]
  | cons p ms ih =>
    obtain ⟨k, v⟩ := p
    have hv : v.isNull = false ↔ v ≠ .null := by cases v <;> simp [isNull]
    simp [membersOverride, ih, hv, and_assoc]

theorem overrides_object_iff {ms : Members} {t : Tree} :
    overrides (.object ms) t = true ↔
      (∀ p ∈ t.members, (Members.find? p.1 ms).isSome = true) ∧
        ∀ p ∈ ms, p.2 ≠ .null ∧ p.2.overrides ((t.members.find? p.1).getD .null) = true := by
  simp only [overrides, Bool.and_eq_true, List.all_eq_true, membersOverride_iff]

theorem membersInOrder_iff {ms : Members} : MembersInOrder ms ↔ ∀ p ∈ ms, p.2.InOrder := by
  induction ms with
  | nil => simp [MembersInOrder]
  | cons p ms ih =>
    obtain ⟨k, v⟩ := p
    simp [MembersInOrder, ih]

theorem InOrder.ascending {t : Tree} (h : t.InOrder) : t.members.Ascending := by
  cases t with
  | object ms => exact h.1
  | _ => exact .nil

theorem InOrder.of_find? {t v : Tree} {key : String} (h : t.InOrder)
    (hv : t.members.find? key = some v) : v.InOrder := by
  cases t with
  | object ms => exact membersInOrder_iff.mp h.2 _ (Members.mem_of_find? hv)
  | _ => cases hv

theorem InOrder.getD {t : Tree} (h : t.InOrder) (key : String) :
    ((t.members.find? key).getD .null).InOrder := by
  cases hv : t.members.find? key with
  | none => trivial
  | some v => exact h.of_find? hv

theorem at?_merge_of_at? (t : Tree) {patch value : Tree} (hp : patch.InOrder) {path : List String}
    (hne : path ≠ []) (h : patch.at? path = some value) :
    (t.merge patch).at? path = mergedWith (t.at? path) value := by
  induction path generalizing t patch with
  | nil => exact absurd rfl hne
  | cons key path ih =>
    obtain ⟨v, hf, hv⟩ := Option.bind_eq_some_iff.mp h
    have hvalue : v.InOrder := hp.of_find? hf
    cases patch with
    | object ms =>
      have hf : Members.find? key ms = some v := hf
      rw [merge, at?_cons, at?_cons, members_object, find?_mergeMembers_of_ascending _ hp.1, hf,
        Option.elim_some]
      by_cases hpath : path = []
      · subst hpath
        cases hv
        simp [at?]
      · have hn : v ≠ .null := by
          rintro rfl
          exact nomatch (at?_null hpath).symm.trans hv
        rw [mergedWith_of_ne_null _ hn, Option.bind_some, ih _ hvalue hpath hv,
          at?_getD_null hpath]
    | _ => cases hf

theorem merge_eq_of_overrides {want t : Tree} (hw : want.InOrder) (ht : t.InOrder)
    (h : want.overrides t = true) : t.merge want = want := by
  induction want using Tree.induct generalizing t with
  | null | bool | number | text | list => rfl
  | object ms ih =>
    obtain ⟨hkeys, hvalues⟩ := overrides_object_iff.mp h
    have ha : (mergeMembers t.members ms).Ascending := ascending_mergeMembers ht.ascending ms
    have he : mergeMembers t.members ms = ms := by
      refine ha.ext hw.1 fun key => ?_
      rw [find?_mergeMembers_of_ascending _ hw.1]
      cases hf : Members.find? key ms with
      | none =>
        refine Members.find?_eq_none.mpr fun p hp hk => ?_
        simpa [hk, hf] using hkeys p hp
      | some v =>
        have hm := Members.mem_of_find? hf
        obtain ⟨hn, hv⟩ := hvalues _ hm
        have hi := ih _ hm (membersInOrder_iff.mp hw.2 _ hm) (ht.getD key) hv
        simp only [Option.elim_some, mergedWith_of_ne_null _ hn, hi]
    rw [merge, he]

theorem sameItems_refl {items : List Tree} (h : ∀ t ∈ items, t.same t = true) :
    sameItems items items = true := by
  induction items with
  | nil => rfl
  | cons t items ih =>
    obtain ⟨ht, hi⟩ := List.forall_mem_cons.mp h
    simp [sameItems, ht, ih hi]

theorem sameMembers_refl {ms : Members} (h : ∀ p ∈ ms, p.2.same p.2 = true) :
    sameMembers ms ms = true := by
  induction ms with
  | nil => rfl
  | cons p ms ih =>
    obtain ⟨hp, hm⟩ := List.forall_mem_cons.mp h
    simp [sameMembers, hp, ih hm]

theorem same_refl (t : Tree) : t.same t = true := by
  induction t using Tree.induct with
  | null => rfl
  | bool b => simp [same]
  | number n => cases n <;> simp [same, Number.same, Binary64.same]
  | text s => simp [same]
  | list items ih => exact sameItems_refl ih
  | object ms ih => exact sameMembers_refl ih

theorem isSome_find?_of_sameMembers {ms ns : Members} (h : sameMembers ms ns = true)
    (key : String) : (ms.find? key).isSome = (ns.find? key).isSome := by
  induction ms generalizing ns with
  | nil => cases ns with
    | nil => rfl
    | cons q ns => simp [sameMembers] at h
  | cons p ms ih =>
    cases ns with
    | nil => simp [sameMembers] at h
    | cons q ns =>
      simp only [sameMembers, Bool.and_eq_true, beq_iff_eq] at h
      rw [Members.find?_cons, Members.find?_cons, h.1.1]
      split
      · rfl
      · exact ih h.2

theorem same_of_sameMembers {ms ns : Members} (h : sameMembers ms ns = true) {key : String}
    {v w : Tree} (hv : ms.find? key = some v) (hw : ns.find? key = some w) : v.same w = true := by
  induction ms generalizing ns with
  | nil => cases hv
  | cons p ms ih =>
    cases ns with
    | nil => cases hw
    | cons q ns =>
      simp only [sameMembers, Bool.and_eq_true, beq_iff_eq] at h
      rw [Members.find?_cons] at hv hw
      by_cases hk : q.1 = key
      · rw [if_pos (h.1.1.trans hk)] at hv
        rw [if_pos hk] at hw
        cases hv
        cases hw
        exact h.1.2
      · rw [if_neg (h.1.1 ▸ hk)] at hv
        rw [if_neg hk] at hw
        exact ih h.2 hv hw

theorem overrides_of_same_merge {want t : Tree} (hw : want.InOrder)
    (h : (t.merge want).same want = true) : want.overrides t = true := by
  induction want using Tree.induct generalizing t with
  | null | bool | number | text | list => rfl
  | object ms ih =>
    rw [merge, same] at h
    have hf := find?_mergeMembers_of_ascending t.members hw.1
    refine overrides_object_iff.mpr ⟨fun p hp => ?_, fun p hp => ?_⟩
    · rw [← isSome_find?_of_sameMembers h, hf]
      cases hv : Members.find? p.1 ms with
      | none =>
        refine Option.isSome_iff_ne_none.mpr fun hn => ?_
        exact Members.find?_eq_none.mp hn p hp rfl
      | some v =>
        have hs := isSome_find?_of_sameMembers h p.1
        rw [hf, hv] at hs
        exact hs
    · have hv : Members.find? p.1 ms = some p.2 := hw.1.find?_eq_some.mpr hp
      have hs := isSome_find?_of_sameMembers h p.1
      have hm := hf p.1
      simp only [hv, Option.elim_some] at hs hm
      have hn : p.2 ≠ .null := by
        intro hn
        simp [hm, hn, mergedWith] at hs
      rw [mergedWith_of_ne_null _ hn] at hm
      exact ⟨hn, ih p hp (membersInOrder_iff.mp hw.2 _ hp) (same_of_sameMembers h hm hv)⟩

end ManifestSync.Tree
