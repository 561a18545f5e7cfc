import ManifestSync.Proofs.Tree.Members

namespace ManifestSync

/-- One number of one class. Of the binary ones the two zeros are equal as well. -/
inductive Number.Equal : Number → Number → Prop where
  | refl (n : Number) : Number.Equal n n
  | zeros {x y : Binary64} : x.mantissa = 0 → y.mantissa = 0 →
      Number.Equal (.binary x) (.binary y)

theorem Number.same_iff_equal {m n : Number} : m.same n = true ↔ m.Equal n := by
  constructor
  · intro h
    cases m <;> cases n <;> simp only [same, Bool.false_eq_true] at h
    case whole.whole => exact beq_iff_eq.mp h ▸ .refl _
    case below.below => exact beq_iff_eq.mp h ▸ .refl _
    case binary.binary x y =>
      obtain hzero | heq := Bool.or_eq_true_iff.mp h
      · obtain ⟨hx, hy⟩ := Bool.and_eq_true_iff.mp hzero
        exact .zeros (beq_iff_eq.mp hx) (beq_iff_eq.mp hy)
      · exact beq_iff_eq.mp heq ▸ .refl _
  · intro h
    cases h with
    | refl => cases m <;> simp [same, Binary64.same]
    | zeros hx hy => simp [same, Binary64.same, hx, hy]

namespace Tree

/-- Equality of trees. Objects have the same keys, in their order, and equal trees at them. -/
inductive Equal : Tree → Tree → Prop where
  | null : Equal .null .null
  | bool (b : Bool) : Equal (.bool b) (.bool b)
  | number {m n : Number} : m.Equal n → Equal (.number m) (.number n)
  | text (s : String) : Equal (.text s) (.text s)
  | list {items items' : List Tree} : List.Forall₂ Equal items items' →
      Equal (.list items) (.list items')
  | object {ms ns : Members} : ms.map Prod.fst = ns.map Prod.fst →
      List.Forall₂ Equal (ms.map Prod.snd) (ns.map Prod.snd) → Equal (.object ms) (.object ns)

theorem sameItems_iff {items items' : List Tree}
    (h : ∀ t ∈ items, ∀ u, t.same u = true ↔ t.Equal u) :
    sameItems items items' = true ↔ List.Forall₂ Equal items items' := by
  induction items generalizing items' with
  | nil => cases items' <;> simp [sameItems]
  | cons t items ih =>
    obtain ⟨ht, hitems⟩ := List.forall_mem_cons.mp h
    cases items' with
    | nil => simp [sameItems]
    | cons u items' => simp [sameItems, ht, ih hitems]

theorem sameMembers_iff {ms ns : Members} (h : ∀ p ∈ ms, ∀ u, p.2.same u = true ↔ p.2.Equal u) :
    sameMembers ms ns = true ↔ ms.map Prod.fst = ns.map Prod.fst ∧
      List.Forall₂ Equal (ms.map Prod.snd) (ns.map Prod.snd) := by
  induction ms generalizing ns with
  | nil => cases ns <;> simp [sameMembers]
  | cons p ms ih =>
    obtain ⟨hp, hms⟩ := List.forall_mem_cons.mp h
    cases ns with
    | nil => simp [sameMembers]
    | cons q ns =>
      simp only [sameMembers, Bool.and_eq_true, beq_iff_eq, hp, ih hms, List.map_cons,
        List.cons.injEq, List.forall₂_cons]
      tauto

theorem same_iff_equal {t u : Tree} : t.same u = true ↔ t.Equal u := by
  induction t using Tree.induct generalizing u with
  | null =>
    cases u with
    | null => exact iff_of_true rfl .null
    | _ => exact iff_of_false nofun nofun
  | bool b =>
    cases u with
    | bool c => exact beq_iff_eq.trans ⟨fun h => h ▸ .bool b, fun | .bool _ => rfl⟩
    | _ => exact iff_of_false nofun nofun
  | number m =>
    cases u with
    | number n => exact Number.same_iff_equal.trans ⟨.number, fun | .number h => h⟩
    | _ => exact iff_of_false nofun nofun
  | text s =>
    cases u with
    | text r => exact beq_iff_eq.trans ⟨fun h => h ▸ .text s, fun | .text _ => rfl⟩
    | _ => exact iff_of_false nofun nofun
  | list items ih =>
    cases u with
    | list items' =>
      exact (sameItems_iff fun t ht u => ih t ht).trans ⟨.list, fun | .list h => h⟩
    | _ => exact iff_of_false nofun nofun
  | object ms ih =>
    cases u with
    | object ns =>
      exact (sameMembers_iff fun p hp u => ih p hp).trans
        ⟨fun h => .object h.1 h.2, fun | .object hk hv => ⟨hk, hv⟩⟩
    | _ => exact iff_of_false nofun nofun

end Tree

end ManifestSync
