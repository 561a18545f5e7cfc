import Mathlib.Data.String.Basic
import Mathlib.Data.List.Perm.Basic
import ManifestSync.Tree.Basic

namespace ManifestSync

namespace Members

@[simp] theorem find?_nil (key : String) : find? key [] = none := rfl

theorem find?_cons (key k : String) (v : Tree) (ms : Members) :
    find? key ((k, v) :: ms) = if k = key then some v else find? key ms := rfl

theorem find?_set (key : String) (value : Tree) (ms : Members) (k : String) :
    find? k (set key value ms) = if key = k then some value else find? k ms := by
  induction ms with
  | nil => rfl
  | cons p ms ih =>
    obtain ⟨l, v⟩ := p
    simp only [set]
    split
    · next hl =>
      subst hl
      by_cases hk : l = k <;> simp only [find?_cons, hk, ↓reduceIte]
    · next hl =>
      split
      · rfl
      · by_cases hk : l = k
        · have hne : key ≠ k := fun he => hl (hk.trans he.symm)
          simp only [find?_cons, hk, hne, ↓reduceIte]
        · simp only [find?_cons, hk, ih, ↓reduceIte]

theorem find?_erase (key : String) (ms : Members) (k : String) :
    find? k (erase key ms) = if key = k then none else find? k ms := by
  induction ms with
  | nil => simp [erase]
  | cons p ms ih =>
    obtain ⟨l, v⟩ := p
    simp only [erase]
    split
    · next hl =>
      subst hl
      rw [ih, find?_cons]
      by_cases hk : l = k <;> simp only [hk, ↓reduceIte]
    · next hl =>
      by_cases hk : l = k
      · have hne : key ≠ k := fun he => hl (hk.trans he.symm)
        simp only [find?_cons, hk, hne, ↓reduceIte]
      · simp only [find?_cons, hk, ih, ↓reduceIte]

theorem mem_of_find? {key : String} {v : Tree} {ms : Members} (h : find? key ms = some v) :
    (key, v) ∈ ms := by
  induction ms with
  | nil => simp at h
  | cons p ms ih =>
    obtain ⟨k, w⟩ := p
    rw [find?_cons] at h
    by_cases hk : k = key
    · simp_all
    · rw [if_neg hk] at h
      exact List.mem_cons_of_mem _ (ih h)

theorem find?_eq_none {key : String} {ms : Members} :
    find? key ms = none ↔ ∀ p ∈ ms, p.1 ≠ key := by
  induction ms with
  | nil => simp
  | cons p ms ih =>
    obtain ⟨k, v⟩ := p
    by_cases hk : k = key <;> simp [find?_cons, hk, ih]

theorem mem_set {key : String} {value : Tree} {ms : Members} {p : String × Tree}
    (h : p ∈ set key value ms) : p = (key, value) ∨ p ∈ ms := by
  induction ms with
  | nil => simpa [set] using h
  | cons q ms ih =>
    obtain ⟨k, v⟩ := q
    simp only [set] at h
    split at h
    · obtain h | h := List.mem_cons.mp h <;> simp [h]
    · split at h
      · simpa using h
      · obtain h | h := List.mem_cons.mp h
        · simp [h]
        · obtain h | h := ih h <;> simp [h]

theorem erase_sublist (key : String) (ms : Members) : (erase key ms).Sublist ms := by
  induction ms with
  | nil => exact .slnil
  | cons p ms ih =>
    obtain ⟨k, v⟩ := p
    simp only [erase]
    split
    · exact ih.cons _
    · exact ih.cons_cons _

def Ascending (ms : Members) : Prop := ms.Pairwise fun a b => a.1 < b.1

theorem Ascending.set {key : String} {value : Tree} {ms : Members} (h : ms.Ascending) :
    (Members.set key value ms).Ascending := by
  induction ms with
  | nil => simp [Members.set, Ascending]
  | cons p ms ih =>
    obtain ⟨k, v⟩ := p
    obtain ⟨hp, hms⟩ := List.pairwise_cons.mp h
    simp only [Members.set]
    split
    · next hk => exact List.pairwise_cons.mpr ⟨fun q hq => hk ▸ hp q hq, hms⟩
    · next hk =>
      split
      · next hlt =>
        refine List.pairwise_cons.mpr ⟨fun q hq => ?_, h⟩
        obtain rfl | hq := List.mem_cons.mp hq
        · exact hlt
        · exact hlt.trans (hp q hq)
      · next hge =>
        refine List.pairwise_cons.mpr ⟨fun q hq => ?_, ih hms⟩
        obtain rfl | hq := mem_set hq
        · exact lt_of_le_of_ne (not_lt.mp hge) hk
        · exact hp q hq

theorem Ascending.erase {ms : Members} (h : ms.Ascending) (key : String) :
    (Members.erase key ms).Ascending :=
  List.Pairwise.sublist (erase_sublist key ms) h

theorem Ascending.find?_eq_some {ms : Members} (h : ms.Ascending) {key : String} {v : Tree} :
    find? key ms = some v ↔ (key, v) ∈ ms := by
  refine ⟨mem_of_find?, fun hm => ?_⟩
  induction ms with
  | nil => simp at hm
  | cons p ms ih =>
    obtain ⟨hp, hms⟩ := List.pairwise_cons.mp h
    obtain rfl | hm := List.mem_cons.mp hm
    · simp [find?_cons]
    · have hne : p.1 ≠ key := (hp _ hm).ne
      rw [find?_cons, if_neg hne]
      exact ih hms hm

theorem Ascending.ext {ms ns : Members} (hm : ms.Ascending) (hn : ns.Ascending)
    (h : ∀ key, find? key ms = find? key ns) : ms = ns := by
  have hnodup : ∀ {l : Members}, l.Ascending → l.Nodup := fun hl =>
    List.Pairwise.imp (fun hab he => (he ▸ hab).false) hl
  have hperm : ms.Perm ns := by
    refine (List.perm_ext_iff_of_nodup (hnodup hm) (hnodup hn)).mpr fun p => ?_
    rw [← hm.find?_eq_some, ← hn.find?_eq_some, h]
  exact hperm.eq_of_pairwise (fun a b _ _ hab hba => (hab.trans hba).false.elim) hm hn

end Members

namespace Tree

mutual

def InOrder : Tree → Prop
  | .list items => ItemsInOrder items
  | .object ms => Members.Ascending ms ∧ MembersInOrder ms
  | _ => True

def ItemsInOrder : List Tree → Prop
  | [] => True
  | t :: items => t.InOrder ∧ ItemsInOrder items

def MembersInOrder : Members → Prop
  | [] => True
  | (_, t) :: ms => t.InOrder ∧ MembersInOrder ms

end

mutual

/-- Induction on trees in which the hypotheses for lists and objects are about their elements. -/
@[elab_as_elim]
theorem induct {P : Tree → Prop} (null : P .null) (bool : ∀ b, P (.bool b))
    (number : ∀ n, P (.number n)) (text : ∀ s, P (.text s))
    (list : ∀ items, (∀ t ∈ items, P t) → P (.list items))
    (object : ∀ ms, (∀ p ∈ ms, P p.2) → P (.object ms)) : ∀ t, P t
  | .null => null
  | .bool b => bool b
  | .number n => number n
  | .text s => text s
  | .list items => list items (induct_items null bool number text list object items)
  | .object ms => object ms (induct_members null bool number text list object ms)

theorem induct_items {P : Tree → Prop} (null : P .null) (bool : ∀ b, P (.bool b))
    (number : ∀ n, P (.number n)) (text : ∀ s, P (.text s))
    (list : ∀ items, (∀ t ∈ items, P t) → P (.list items))
    (object : ∀ ms, (∀ p ∈ ms, P p.2) → P (.object ms)) : ∀ items : List Tree, ∀ t ∈ items, P t
  | [], _, h => nomatch h
  | t :: items, u, h => by
    obtain h | h := List.mem_cons.mp h
    · rw [h]
      exact induct null bool number text list object t
    · exact induct_items null bool number text list object items u h

theorem induct_members {P : Tree → Prop} (null : P .null) (bool : ∀ b, P (.bool b))
    (number : ∀ n, P (.number n)) (text : ∀ s, P (.text s))
    (list : ∀ items, (∀ t ∈ items, P t) → P (.list items))
    (object : ∀ ms, (∀ p ∈ ms, P p.2) → P (.object ms)) : ∀ ms : Members, ∀ p ∈ ms, P p.2
  | [], _, h => nomatch h
  | (k, t) :: ms, q, h => by
    obtain h | h := List.mem_cons.mp h
    · rw [h]
      exact induct null bool number text list object t
    · exact induct_members null bool number text list object ms q h

end

end Tree

end ManifestSync
