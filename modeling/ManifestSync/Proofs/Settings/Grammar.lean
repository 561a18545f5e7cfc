import Mathlib.Data.List.Forall2
import Mathlib.Data.Nat.Digits.Defs
import Mathlib.Tactic.Ring
import ManifestSync.Proofs.Text.Trim
import ManifestSync.Settings

namespace ManifestSync.Settings

def InAnyCase (word cs : List Char) : Prop :=
  List.Forall₂ (fun c w => c = w ∨ c = w.toUpper) cs word

inductive SpellsFlag : List Char → Bool → Prop where
  | one : SpellsFlag ['1'] true
  | zero : SpellsFlag ['0'] false
  | yes {cs : List Char} : InAnyCase ['t', 'r', 'u', 'e'] cs → SpellsFlag cs true
  | no {cs : List Char} : InAnyCase ['f', 'a', 'l', 's', 'e'] cs → SpellsFlag cs false

/-- The number that digits denote, the first one being the highest. -/
def denoted (digits : List Char) : Nat :=
  Nat.ofDigits 10 (digits.reverse.map fun c => c.toNat - '0'.toNat)

def SpellsNumber (cs : List Char) (n : Nat) : Prop :=
  ∃ digits, (cs = digits ∨ cs = '+' :: digits) ∧ digits ≠ [] ∧
    (∀ c ∈ digits, '0' ≤ c ∧ c ≤ '9') ∧ n = denoted digits ∧ n < 2 ^ 64

theorem toLower_eq_iff {c w : Char} (hw : w.isLower = true) :
    c.toLower = w ↔ c = w ∨ c = w.toUpper := by
  have hw : 'a'.val ≤ w.val ∧ w.val ≤ 'z'.val :=
    (Bool.and_eq_true_iff.mp hw).imp of_decide_eq_true of_decide_eq_true
  delta Char.toLower Char.toUpper
  rw [dif_pos hw]
  by_cases hc : 'A'.val ≤ c.val ∧ c.val ≤ 'Z'.val
  · rw [dif_pos hc]
    simp only [Char.ext_iff]
    grind
  · rw [dif_neg hc]
    simp only [Char.ext_iff]
    grind

theorem map_toLower_eq_iff {word cs : List Char} (hw : ∀ w ∈ word, w.isLower = true) :
    cs.map Char.toLower = word ↔ InAnyCase word cs := by
  unfold InAnyCase
  induction word generalizing cs with
  | nil => simp
  | cons w word ih =>
    obtain ⟨hl, hword⟩ := List.forall_mem_cons.mp hw
    cases cs with
    | nil => simp
    | cons c cs =>
      rw [List.map_cons, List.cons.injEq, List.forall₂_cons, toLower_eq_iff hl, ih hword]

theorem boolean?_eq_some_iff {cs : List Char} {b : Bool} :
    boolean? cs = some b ↔ SpellsFlag cs b := by
  have ht : cs.map Char.toLower = ['t', 'r', 'u', 'e'] ↔ InAnyCase ['t', 'r', 'u', 'e'] cs :=
    map_toLower_eq_iff (List.all_eq_true.mp rfl)
  have hf : cs.map Char.toLower = ['f', 'a', 'l', 's', 'e'] ↔ InAnyCase ['f', 'a', 'l', 's', 'e'] cs :=
    map_toLower_eq_iff (List.all_eq_true.mp rfl)
  constructor
  · intro h
    unfold boolean? at h
    split at h
    · next hc =>
      cases h
      obtain hc | rfl := hc
      · exact .yes (ht.mp hc)
      · exact .one
    · split at h
      · next hc =>
        cases h
        obtain hc | rfl := hc
        · exact .no (hf.mp hc)
        · exact .zero
      · cases h
  · intro h
    cases h with
    | one | zero => rfl
    | yes h => exact if_pos (.inl (ht.mpr h))
    | no h =>
      have hlower := hf.mpr h
      have hne : ¬ (cs.map Char.toLower = ['t', 'r', 'u', 'e'] ∨ cs = ['1']) := by
        rintro (hc | rfl)
        · exact nomatch hlower.symm.trans hc
        · exact nomatch hlower
      unfold boolean?
      rw [if_neg hne, if_pos (.inl hlower)]

theorem isDigit_iff {c : Char} : c.isDigit = true ↔ '0' ≤ c ∧ c ≤ '9' := by
  simp [Char.isDigit, Char.le_def]

theorem denoted_cons (c : Char) (cs : List Char) :
    denoted (c :: cs) = (c.toNat - '0'.toNat) * 10 ^ cs.length + denoted cs := by
  unfold denoted
  rw [List.reverse_cons, List.map_append, Nat.ofDigits_append, List.map_singleton,
    Nat.ofDigits_singleton, List.length_map, List.length_reverse]
  ring

theorem digitsFrom?_eq_some_iff {n m : Nat} {cs : List Char} :
    digitsFrom? n cs = some m ↔
      (∀ c ∈ cs, '0' ≤ c ∧ c ≤ '9') ∧ m = n * 10 ^ cs.length + denoted cs := by
  induction cs generalizing n with
  | nil => simp [digitsFrom?, denoted, eq_comm]
  | cons c cs ih =>
    rw [digitsFrom?]
    by_cases hc : c.isDigit = true
    · have hd := isDigit_iff.mp hc
      rw [if_pos hc, ih, List.forall_mem_cons, denoted_cons, List.length_cons, and_iff_right hd]
      refine and_congr_right fun _ => ?_
      have hv : (10 * n + (c.toNat - '0'.toNat)) * 10 ^ cs.length + denoted cs =
          n * 10 ^ (cs.length + 1) + ((c.toNat - '0'.toNat) * 10 ^ cs.length + denoted cs) := by
        ring
      rw [hv]
    · rw [if_neg hc]
      refine iff_of_false nofun fun h => hc (isDigit_iff.mpr ?_)
      exact h.1 c List.mem_cons_self

theorem filter_digitsFrom?_eq_some_iff {digits : List Char} {n : Nat} :
    (if digits.isEmpty then none else (digitsFrom? 0 digits).filter (· < numberBound)) = some n ↔
      digits ≠ [] ∧ (∀ c ∈ digits, '0' ≤ c ∧ c ≤ '9') ∧ n = denoted digits ∧ n < 2 ^ 64 := by
  have hb : numberBound = 2 ^ 64 := rfl
  by_cases hd : digits = []
  · simp [hd]
  · rw [if_neg (by simpa using hd), Option.filter_eq_some_iff, digitsFrom?_eq_some_iff, hb,
      Nat.zero_mul, Nat.zero_add, decide_eq_true_eq, and_iff_right hd, and_assoc]

theorem number?_eq_some_iff {cs : List Char} {n : Nat} :
    number? cs = some n ↔ SpellsNumber cs n := by
  unfold number?
  split
  · next digits =>
    rw [filter_digitsFrom?_eq_some_iff]
    constructor
    · exact fun h => ⟨digits, .inr rfl, h⟩
    · rintro ⟨digits', rfl | hd, h⟩
      · have hplus : ¬ '0' ≤ '+' := by decide
        exact (hplus (h.2.1 '+' List.mem_cons_self).1).elim
      · cases hd
        exact h
  · next hsign =>
    rw [filter_digitsFrom?_eq_some_iff]
    constructor
    · exact fun h => ⟨cs, .inl rfl, h⟩
    · rintro ⟨digits, rfl | rfl, h⟩
      · exact h
      · exact (hsign digits rfl).elim

theorem not_spellsFlag_nil (b : Bool) : ¬ SpellsFlag [] b := by
  intro h
  cases h with
  | yes h | no h => cases h

theorem not_spellsNumber_nil (n : Nat) : ¬ SpellsNumber [] n := by
  rintro ⟨digits, rfl | hd, hne, -⟩
  · exact hne rfl
  · cases hd

end ManifestSync.Settings
