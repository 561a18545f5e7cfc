import Mathlib.Data.List.TakeWhile
import ManifestSync.Text.Blank

namespace ManifestSync.Text

/-- Around the core there are only blanks, and it neither begins nor ends with one. -/
structure Trims (cs core : List Char) : Prop where
  around : ∃ before after, cs = before ++ core ++ after ∧ (∀ c ∈ before, isBlank c = true) ∧
    ∀ c ∈ after, isBlank c = true
  head : ∀ c ∈ core.head?, isBlank c = false
  last : ∀ c ∈ core.getLast?, isBlank c = false

theorem dropWhile_append_blank {before rest : List Char} (hb : ∀ c ∈ before, isBlank c = true)
    (hr : ∀ c ∈ rest.head?, isBlank c = false) : (before ++ rest).dropWhile isBlank = rest := by
  rw [List.dropWhile_append_of_pos hb]
  cases rest with
  | nil => rfl
  | cons c rest =>
    have hc : ¬ isBlank c = true := by simp [hr c rfl]
    exact List.dropWhile_cons_of_neg hc

theorem trimBlank_eq {cs core : List Char} (h : Trims cs core) : trimBlank cs = core := by
  obtain ⟨⟨before, after, rfl, hb, ha⟩, hhead, hlast⟩ := h
  have ha' : ∀ c ∈ after.reverse, isBlank c = true := fun c hc => ha c (List.mem_reverse.mp hc)
  cases core with
  | nil =>
    have hall : ∀ c ∈ before ++ [] ++ after, isBlank c = true := by
      intro c hc
      obtain hc | hc := List.mem_append.mp hc
      · exact hb c (by simpa using hc)
      · exact ha c hc
    rw [trimBlank, List.dropWhile_eq_nil_iff.mpr hall]
    rfl
  | cons c core =>
    have hl : ∀ d ∈ (c :: core).reverse.head?, isBlank d = false := by
      rw [List.head?_reverse]
      exact hlast
    have hfront : (before ++ (c :: core) ++ after).dropWhile isBlank = (c :: core) ++ after := by
      rw [List.append_assoc]
      exact dropWhile_append_blank hb hhead
    rw [trimBlank, hfront, List.reverse_append, dropWhile_append_blank ha' hl, List.reverse_reverse]

theorem not_isBlank_of_head?_dropWhile {cs : List Char} {c : Char}
    (h : c ∈ (cs.dropWhile isBlank).head?) : isBlank c = false := by
  have hn := List.head?_dropWhile_not isBlank cs
  rwa [Option.mem_def.mp h] at hn

theorem trims_trimBlank (cs : List Char) : Trims cs (trimBlank cs) := by
  have hfront : cs.takeWhile isBlank ++ cs.dropWhile isBlank = cs := List.takeWhile_append_dropWhile
  have hback : trimBlank cs ++ ((cs.dropWhile isBlank).reverse.takeWhile isBlank).reverse =
      cs.dropWhile isBlank := by
    rw [trimBlank, ← List.reverse_append, List.takeWhile_append_dropWhile, List.reverse_reverse]
  constructor
  case around =>
    refine ⟨cs.takeWhile isBlank, ((cs.dropWhile isBlank).reverse.takeWhile isBlank).reverse, ?_,
      fun c hc => List.mem_takeWhile_imp hc,
      fun c hc => List.mem_takeWhile_imp (List.mem_reverse.mp hc)⟩
    rw [List.append_assoc, hback, hfront]
  case head =>
    intro c hc
    have hfirst : c ∈ (cs.dropWhile isBlank).head? := by
      rw [← hback, List.head?_append, Option.mem_def.mp hc]
      rfl
    exact not_isBlank_of_head?_dropWhile hfirst
  case last =>
    intro c hc
    rw [trimBlank, List.getLast?_reverse] at hc
    exact not_isBlank_of_head?_dropWhile hc

theorem trimBlank_eq_iff {cs core : List Char} : trimBlank cs = core ↔ Trims cs core :=
  ⟨fun h => h ▸ trims_trimBlank cs, trimBlank_eq⟩

end ManifestSync.Text
