import Mathlib.Data.ENat.Lattice
import Mathlib.Order.CompletePartialOrder
import ManifestSync.Catalog.Feed
import ManifestSync.Resolver

namespace ManifestSync

def Resolver.found? (r : Resolver) (k : Kind) : Option Endpoint := (r.resolve k).toOption

theorem Resolver.found?_eq_some {r : Resolver} {k : Kind} {e : Endpoint} :
    r.found? k = some e ↔ r.resolve k = .ok e := by
  unfold Resolver.found?
  cases r.resolve k <;> simp [Except.toOption]

theorem Resolver.found?_eq_none {r : Resolver} {k : Kind} :
    r.found? k = none ↔ ∃ cause, r.resolve k = .error cause := by
  unfold Resolver.found?
  cases r.resolve k <;> simp [Except.toOption]

namespace Feed

def called (f : Feed) : Nat → Feed
  | 0 => f
  | n + 1 => (f.called n).advance

theorem calls_called (f : Feed) (n : Nat) : (f.called n).calls = f.calls + n := by
  induction n with
  | zero => rfl
  | succ n ih =>
    have ha : (f.called n).advance.calls = (f.called n).calls + 1 := rfl
    rw [called, ha, ih, Nat.add_assoc]

theorem failure?_called (f : Feed) (n : Nat) : (f.called n).failure? = f.failure? := by
  induction n with
  | zero => rfl
  | succ n ih => exact ih

theorem serve_called {f : Feed} (h : f.failure? = none) (n : Nat) :
    (f.called n).serve = (.ok (f.called (n + 1)).groups, f.called (n + 1)) := by
  have hf : (f.called (n + 1)).failure? = none := (failure?_called f _).trans h
  have ha : (f.called n).advance.failure? = none := hf
  unfold serve
  simp only [ha]
  rfl

def mappingAt (f : Feed) (call : Nat) : Resolver := .ofGroups (f.called call).groups

def foundBy (f : Feed) (k : Kind) : Nat → Option Endpoint
  | 0 => none
  | n + 1 => (f.foundBy k n).or ((f.mappingAt (n + 1)).found? k)

/-- The number of the first call that resolves a kind, infinite if there is none. -/
noncomputable def firstCall (f : Feed) (k : Kind) : ℕ∞ :=
  ⨅ (call : ℕ) (_ : 0 < call ∧ ∃ e, (f.mappingAt call).resolve k = .ok e), (call : ℕ∞)

theorem firstCall_le_iff {f : Feed} {k : Kind} {n : ℕ} :
    f.firstCall k ≤ n ↔ ∃ call ≤ n, 0 < call ∧ ∃ e, (f.mappingAt call).resolve k = .ok e := by
  constructor
  · intro h
    by_contra hn
    have hle : ((n + 1 : ℕ) : ℕ∞) ≤ f.firstCall k := by
      refine le_iInf₂ fun call hc => ?_
      have hlt : ¬ call ≤ n := fun hle => hn ⟨call, hle, hc⟩
      exact Nat.cast_le.mpr (Nat.lt_of_not_le hlt)
    have hcast : n + 1 ≤ n := Nat.cast_le.mp (hle.trans h)
    omega
  · rintro ⟨call, hle, hc⟩
    exact iInf₂_le_of_le call hc (Nat.cast_le.mpr hle)

theorem firstCall_le_succ {f : Feed} {k : Kind} {n : ℕ} :
    f.firstCall k ≤ (n + 1 : ℕ) ↔
      f.firstCall k ≤ n ∨ ∃ e, (f.mappingAt (n + 1)).resolve k = .ok e := by
  rw [firstCall_le_iff, firstCall_le_iff]
  constructor
  · rintro ⟨call, hle, hc⟩
    by_cases hlt : call ≤ n
    · exact .inl ⟨call, hlt, hc⟩
    · obtain rfl : call = n + 1 := by omega
      exact .inr hc.2
  · intro h
    obtain ⟨call, hle, hc⟩ | he := h
    · exact ⟨call, Nat.le_succ_of_le hle, hc⟩
    · exact ⟨n + 1, le_rfl, Nat.succ_pos n, he⟩

theorem foundBy_isSome {f : Feed} {k : Kind} {n : ℕ} :
    (f.foundBy k n).isSome = true ↔ f.firstCall k ≤ n := by
  induction n with
  | zero =>
    rw [firstCall_le_iff]
    refine iff_of_false nofun ?_
    rintro ⟨call, hle, hpos, _⟩
    omega
  | succ n ih =>
    rw [foundBy, Option.isSome_or, Bool.or_eq_true, ih, firstCall_le_succ, Option.isSome_iff_exists]
    simp only [Resolver.found?_eq_some]

theorem foundBy_isNone {f : Feed} {k : Kind} {n : ℕ} :
    (f.foundBy k n).isNone = true ↔ n < f.firstCall k := by
  rw [← not_le, ← foundBy_isSome, Option.not_isSome_iff_eq_none, Option.isNone_iff_eq_none]

theorem resolve_of_foundBy {f : Feed} {k : Kind} {n : ℕ} {e : Endpoint}
    (h : f.foundBy k n = some e) :
    ∃ call : ℕ, f.firstCall k = call ∧ (f.mappingAt call).resolve k = .ok e := by
  induction n with
  | zero => cases h
  | succ n ih =>
    rw [foundBy] at h
    cases hf : f.foundBy k n with
    | some e' =>
      rw [hf, Option.some_or] at h
      exact ih (hf.trans h)
    | none =>
      rw [hf, Option.none_or, Resolver.found?_eq_some] at h
      have hgt : n < f.firstCall k := foundBy_isNone.mp (Option.isNone_iff_eq_none.mpr hf)
      have hle : f.firstCall k ≤ (n + 1 : ℕ) := firstCall_le_succ.mpr (.inr ⟨e, h⟩)
      exact ⟨n + 1, hle.antisymm (Order.add_one_le_of_lt hgt), h⟩

end Feed

end ManifestSync
