import ManifestSync.Proofs.Reconcile.Frame
import ManifestSync.Proofs.Store.Calm

namespace ManifestSync

open Scenario

namespace Memory

/-- Memories that requests at some keys cannot tell apart. -/
structure AgreeOn (keys : ObjectKey → Prop) (m m' : Memory) : Prop where
  object? : ∀ key, keys key → m.object? key = m'.object? key
  failures : m.failures = m'.failures
  delays : m.delays = m'.delays

namespace AgreeOn

variable {keys : ObjectKey → Prop} {m m' m'' : Memory} {r : Request}

theorem refl (keys : ObjectKey → Prop) (m : Memory) : AgreeOn keys m m := ⟨fun _ _ => rfl, rfl, rfl⟩

theorem trans (h : AgreeOn keys m m') (h' : AgreeOn keys m' m'') : AgreeOn keys m m'' :=
  ⟨fun key hk => (h.object? key hk).trans (h'.object? key hk), h.failures.trans h'.failures,
    h.delays.trans h'.delays⟩

theorem mono {keys' : ObjectKey → Prop} (h : AgreeOn keys m m') (hk : ∀ key, keys' key → keys key) :
    AgreeOn keys' m m' := ⟨fun key hkey => h.object? key (hk key hkey), h.failures, h.delays⟩

theorem put (h : AgreeOn keys m m') (key : ObjectKey) (t? : Option Tree) :
    AgreeOn keys (m.put key t?) (m'.put key t?) := by
  constructor
  case object? =>
    intro k hk
    rw [object?_put, object?_put, h.object? k hk]
  case failures => simpa only [failures_put] using h.failures
  case delays => simpa only [delays_put] using h.delays

theorem perform (h : AgreeOn keys m m') (hr : keys r.key) :
    (m.perform r).1 = (m'.perform r).1 ∧ AgreeOn keys (m.perform r).2 (m'.perform r).2 := by
  rw [perform_eq, perform_eq, h.object? r.key hr]
  exact ⟨rfl, h.put _ _⟩

theorem served (h : AgreeOn keys m m') (hr : keys r.key) :
    (m.served r).1 = (m'.served r).1 ∧ AgreeOn keys (m.served r).2 (m'.served r).2 := by
  have hrec : AgreeOn keys (m.record r) (m'.record r) := ⟨h.object?, h.failures, h.delays⟩
  have hf : (m.record r).failureOf? r = (m'.record r).failureOf? r := by
    rw [Memory.failureOf?, hrec.failures]
    rfl
  unfold Memory.served settle
  rw [hf]
  split
  · exact ⟨rfl, hrec⟩
  · exact hrec.perform hr

end AgreeOn

variable {keys : ObjectKey → Prop}

theorem put_elsewhere {key : ObjectKey} (h : ¬ keys key) (t? : Option Tree) (m : Memory) :
    AgreeOn keys (m.put key t?) m := by
  constructor
  case object? =>
    intro k hk
    have hne : key ≠ k := fun he => h (he ▸ hk)
    rw [object?_put, if_neg hne]
  case failures => exact failures_put key t? m
  case delays => exact delays_put key t? m

theorem served_elsewhere {r : Request} (h : ¬ keys r.key) (m : Memory) :
    AgreeOn keys (m.served r).2 m := by
  have hrec : AgreeOn keys (m.record r) m := ⟨fun _ _ => rfl, rfl, rfl⟩
  unfold served settle
  split
  · exact hrec
  · rw [perform_eq]
    exact (put_elsewhere h _ _).trans hrec

end Memory

namespace Dialogue

variable {α : Type} {keys : ObjectKey → Prop} {d : Dialogue α} {m m' : Memory}

theorem converse_agree (hd : d.All fun r => keys r.key) (h : m.AgreeOn keys m') (now : Nat) :
    (d.converse m).1 = (d.converse m').1 ∧ d.exchanges now m = d.exchanges now m' ∧
      (d.converse m).2.AgreeOn keys (d.converse m').2 := by
  induction d generalizing m m' with
  | done result => exact ⟨rfl, rfl, h⟩
  | ask r next ih =>
    obtain ⟨hr, hnext⟩ := hd
    obtain ⟨ha, hs⟩ := h.served hr
    have hrest := ih _ (hnext (m'.served r).1) hs
    simp only [converse, exchanges, ha]
    exact ⟨hrest.1, congrArg _ hrest.2.1, hrest.2.2⟩

theorem converse_elsewhere (hd : d.All fun r => ¬ keys r.key) (m : Memory) :
    (d.converse m).2.AgreeOn keys m := by
  induction d generalizing m with
  | done result => exact .refl keys m
  | ask r next ih => exact (ih _ (hd.2 _) _).trans (Memory.served_elsewhere hd.1 m)

end Dialogue

end ManifestSync
