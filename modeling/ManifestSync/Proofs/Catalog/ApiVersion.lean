import Mathlib.Data.List.TakeWhile
import Mathlib.Data.Set.Function
import ManifestSync.Kind

namespace ManifestSync

/-- The slash between the group and the version is the first one, or there is none because the group
is the core group. -/
def Separable (group version : String) : Prop :=
  (group ≠ "" ∧ '/' ∉ group.toList) ∨ (group = "" ∧ '/' ∉ version.toList)

theorem splitApiVersion_of_notMem {cs : List Char} (h : '/' ∉ cs) : splitApiVersion cs = ([], cs) := by
  have hd : cs.dropWhile (· ≠ '/') = [] :=
    List.dropWhile_eq_nil_iff.mpr fun c hc => decide_eq_true fun he => h (he ▸ hc)
  unfold splitApiVersion
  rw [hd]

theorem splitApiVersion_append {group : List Char} (h : '/' ∉ group) (version : List Char) :
    splitApiVersion (group ++ '/' :: version) = (group, version) := by
  have hne : ∀ c ∈ group, decide (c ≠ '/') = true := fun c hc => decide_eq_true fun he => h (he ▸ hc)
  have hd : (group ++ '/' :: version).dropWhile (· ≠ '/') = '/' :: version :=
    List.dropWhile_append_of_pos hne
  have ht : (group ++ '/' :: version).takeWhile (· ≠ '/') = group :=
    (List.takeWhile_append_of_pos hne).trans (List.append_nil group)
  unfold splitApiVersion
  rw [hd, ht]

theorem eq_append_slash (s : String) :
    '/' ∉ s.toList ∨ ∃ group version, '/' ∉ group.toList ∧ s = group ++ "/" ++ version := by
  by_cases h : '/' ∈ s.toList
  · obtain ⟨group, version, hs, hg⟩ := List.eq_append_cons_of_mem h
    refine .inr ⟨String.ofList group, String.ofList version, by rwa [String.toList_ofList], ?_⟩
    apply String.toList_injective
    simp [hs]
  · exact .inl h

theorem ne_append_slash (before after : String) : after ≠ before ++ "/" ++ after := by
  intro he
  have hl := congrArg String.length he
  simp at hl

namespace Kind

theorem ofApiVersion_of_notMem {s : String} (h : '/' ∉ s.toList) (name : String) :
    ofApiVersion s name = ⟨"", s, name⟩ := by
  unfold ofApiVersion
  rw [splitApiVersion_of_notMem h]
  simp only [String.ofList_toList, String.ofList_nil]

theorem ofApiVersion_append {group : String} (h : '/' ∉ group.toList) (version name : String) :
    ofApiVersion (group ++ "/" ++ version) name = ⟨group, version, name⟩ := by
  have hs : (group ++ "/" ++ version).toList = group.toList ++ '/' :: version.toList := by simp
  unfold ofApiVersion
  rw [hs, splitApiVersion_append h]
  simp only [String.ofList_toList]

theorem apiVersion_ofApiVersion (s name : String) :
    (ofApiVersion s name).apiVersion = s ↔ s.toList.head? ≠ some '/' := by
  obtain h | ⟨group, version, h, rfl⟩ := eq_append_slash s
  · have hne : s.toList.head? ≠ some '/' := fun he => h (List.mem_of_head? he)
    rw [ofApiVersion_of_notMem h]
    exact iff_of_true rfl hne
  · rw [ofApiVersion_append h]
    by_cases hg : group = ""
    · subst hg
      exact iff_of_false (ne_append_slash "" version) (not_not_intro (by simp))
    · have hne : (group ++ "/" ++ version).toList.head? ≠ some '/' := by
        intro he
        have hl : group.toList ≠ [] := fun hl => hg (String.toList_eq_nil_iff.mp hl)
        have hh : (group ++ "/" ++ version).toList.head? = group.toList.head? := by
          simp [List.head?_append, List.head?_eq_some_head hl]
        exact h (List.mem_of_head? (hh ▸ he))
      exact iff_of_true (if_neg hg) hne

theorem ofApiVersion_apiVersion (k : Kind) :
    ofApiVersion k.apiVersion k.name = k ↔ Separable k.group k.version := by
  obtain ⟨group, version, name⟩ := k
  by_cases hg : group = ""
  · subst hg
    show ofApiVersion version name = ⟨"", version, name⟩ ↔ Separable "" version
    obtain h | ⟨before, after, h, rfl⟩ := eq_append_slash version
    · exact iff_of_true (ofApiVersion_of_notMem h name) (.inr ⟨rfl, h⟩)
    · rw [ofApiVersion_append h]
      have hsep : ¬ Separable "" (before ++ "/" ++ after) := by simp [Separable]
      exact iff_of_false (fun he => ne_append_slash before after (Kind.mk.inj he).2.1) hsep
  · have ha : apiVersion ⟨group, version, name⟩ = group ++ "/" ++ version := if_neg hg
    rw [ha]
    obtain h | ⟨before, after, h, rfl⟩ := eq_append_slash group
    · exact iff_of_true (ofApiVersion_append h version name) (.inl ⟨hg, h⟩)
    · have hs : before ++ "/" ++ after ++ "/" ++ version =
          before ++ "/" ++ (after ++ "/" ++ version) := by
        simp only [String.append_assoc]
      have hmem : '/' ∈ (before ++ "/" ++ after).toList := by simp
      rw [hs, ofApiVersion_append h]
      refine iff_of_false (fun he => ?_) ?_
      · rw [← (Kind.mk.inj he).1] at hmem
        exact h hmem
      · rintro (⟨-, hn⟩ | ⟨he, -⟩)
        · exact hn hmem
        · exact hg he

theorem separable_iff_exists (k : Kind) :
    Separable k.group k.version ↔
      ∃ s : String, s.toList.head? ≠ some '/' ∧ ofApiVersion s k.name = k := by
  rw [← ofApiVersion_apiVersion]
  constructor
  · intro h
    refine ⟨k.apiVersion, ?_, h⟩
    rw [← apiVersion_ofApiVersion k.apiVersion k.name, h]
  · rintro ⟨s, hs, h⟩
    have he : k.apiVersion = s := by
      rw [← h]
      exact (apiVersion_ofApiVersion s k.name).mpr hs
    rw [he, h]

/-- Reading and writing of API versions undo each other exactly where the slash allows it, and no two
pairs for which they do are written alike. -/
theorem apiVersion_told :
    (∀ s name : String, (ofApiVersion s name).apiVersion = s ↔ s.toList.head? ≠ some '/') ∧
    (∀ k : Kind, ofApiVersion k.apiVersion k.name = k ↔
      (k.group ≠ "" ∧ '/' ∉ k.group.toList) ∨ (k.group = "" ∧ '/' ∉ k.version.toList)) ∧
    (∀ k : Kind, ofApiVersion k.apiVersion k.name = k ↔
      ∃ s : String, s.toList.head? ≠ some '/' ∧ ofApiVersion s k.name = k) ∧
    ∀ name, Set.InjOn (fun p : String × String => apiVersion ⟨p.1, p.2, name⟩)
      {p | ofApiVersion (apiVersion ⟨p.1, p.2, name⟩) name = ⟨p.1, p.2, name⟩} := by
  refine ⟨apiVersion_ofApiVersion, ofApiVersion_apiVersion, fun k => ?_, fun name p hp q hq he => ?_⟩
  · rw [ofApiVersion_apiVersion, separable_iff_exists]
  · have hk : Kind.mk p.1 p.2 name = Kind.mk q.1 q.2 name := by
      rw [← hp.out, ← hq.out]
      exact congrArg (ofApiVersion · name) he
    exact Prod.ext (Kind.mk.inj hk).1 (Kind.mk.inj hk).2.1

/-- Of texts with a slash in front the group and the version are lost when they are written. -/
example : ofApiVersion "/a/b" "K" ≠ ofApiVersion "a/b" "K" ∧
    (ofApiVersion "/a/b" "K").apiVersion = (ofApiVersion "a/b" "K").apiVersion := by decide

end Kind

end ManifestSync
