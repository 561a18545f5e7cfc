import Mathlib.Data.List.FinRange
import ManifestSync.Proofs.Reconcile.Rounds

namespace ManifestSync

variable {σ α β : Type} {services : Services σ} {options : Options} {deadline : Nat}

def Round.attempts (r : Round) : List Attempt :=
  match r.sweep? with
  | some (_, attempts) => attempts
  | none => []

/-- The attempts of some rounds with their items. A round goes along what the rounds before it left
of the items. -/
def ledger : List α → List Round → List (List (α × Attempt))
  | _, [] => []
  | items, r :: rounds => items.zip r.attempts :: ledger (unapplied items r.attempts) rounds

def pendingAfter : List α → List Round → List α
  | items, [] => items
  | items, r :: rounds => pendingAfter (unapplied items r.attempts) rounds

def Fits : List α → List Round → Prop
  | _, [] => True
  | items, r :: rounds =>
    r.attempts.length ≤ items.length ∧ Fits (unapplied items r.attempts) rounds

def timesApplied [DecidableEq α] (x : α) (entries : List (α × Attempt)) : Nat :=
  entries.countP fun y => y.1 = x && y.2.succeeded

theorem ledger_map (f : α → β) (items : List α) (rounds : List Round) :
    ledger (items.map f) rounds =
      (ledger items rounds).map (·.map fun y => (f y.1, y.2)) := by
  induction rounds generalizing items with
  | nil => rfl
  | cons r rounds ih =>
    simp only [ledger, unapplied_map, ih, List.map_cons, List.zip_map_left]
    rfl

theorem pendingAfter_map (f : α → β) (items : List α) (rounds : List Round) :
    pendingAfter (items.map f) rounds = (pendingAfter items rounds).map f := by
  induction rounds generalizing items with
  | nil => rfl
  | cons r rounds ih => simp only [pendingAfter, unapplied_map, ih]

theorem fits_map (f : α → β) (items : List α) (rounds : List Round) :
    Fits (items.map f) rounds ↔ Fits items rounds := by
  induction rounds generalizing items with
  | nil => rfl
  | cons r rounds ih => simp only [Fits, List.length_map, unapplied_map, ih]

theorem pendingAfter_sublist (items : List α) (rounds : List Round) :
    (pendingAfter items rounds).Sublist items := by
  induction rounds generalizing items with
  | nil => exact List.Sublist.refl items
  | cons r rounds ih => exact (ih _).trans (unapplied_sublist items r.attempts)

theorem ledger_attempts {items : List α} {rounds : List Round} (h : Fits items rounds) :
    (ledger items rounds).map (·.map Prod.snd) = rounds.map Round.attempts := by
  induction rounds generalizing items with
  | nil => rfl
  | cons r rounds ih => simp only [ledger, List.map_cons, ih h.2, List.map_snd_zip h.1]

theorem ledger_sublist (items : List α) (rounds : List Round) :
    ∀ entries ∈ ledger items rounds, (entries.map Prod.fst).Sublist items := by
  induction rounds generalizing items with
  | nil => simp [ledger]
  | cons r rounds ih =>
    intro entries he
    obtain rfl | he := List.mem_cons.mp he
    · rw [List.zip_eq_zip_take_min, List.map_fst_zip (by simp)]
      exact List.take_sublist _ _
    · exact (ih _ entries he).trans (unapplied_sublist items r.attempts)

theorem timesApplied_zip [DecidableEq α] (x : α) (items : List α) (attempts : List Attempt)
    (h : attempts.length ≤ items.length) :
    timesApplied x (items.zip attempts) + (unapplied items attempts).count x = items.count x := by
  induction attempts generalizing items with
  | nil => simp [timesApplied, unapplied]
  | cons a attempts ih =>
    cases items with
    | nil => simp at h
    | cons y items =>
      have hi := ih items (by simpa using h)
      unfold timesApplied at hi ⊢
      by_cases hy : y = x <;> cases ha : a.succeeded <;>
        simp [unapplied, ha, hy] <;> omega

/-- Nothing is lost and nothing is gained: an item is applied or pending at the end as often as it
is in the list. -/
theorem timesApplied_ledger [DecidableEq α] (x : α) {items : List α} {rounds : List Round}
    (h : Fits items rounds) :
    timesApplied x (ledger items rounds).flatten + (pendingAfter items rounds).count x =
      items.count x := by
  induction rounds generalizing items with
  | nil => simp [ledger, timesApplied, pendingAfter]
  | cons r rounds ih =>
    have hz := timesApplied_zip x items r.attempts h.1
    have hr := ih h.2
    simp only [ledger, pendingAfter, timesApplied, List.flatten_cons, List.countP_append] at hz hr ⊢
    omega

theorem manifest_eq_of_mem_zip {pending : List Manifest} {attempts : List Attempt}
    (h : attempts.map Attempt.manifest <+: pending) :
    ∀ x ∈ pending.zip attempts, x.2.manifest = x.1 := by
  obtain ⟨rest, rfl⟩ := h
  induction attempts with
  | nil => simp
  | cons a attempts ih => simpa using ih

theorem perm_unapplied {pending : List Manifest} {attempts : List Attempt}
    (h : attempts.map Attempt.manifest <+: pending) :
    ((attempts.filter (·.succeeded)).map Attempt.manifest ++ unapplied pending attempts).Perm
      pending := by
  obtain ⟨rest, rfl⟩ := h
  induction attempts with
  | nil => simp [unapplied]
  | cons a attempts ih =>
    cases ha : a.succeeded with
    | true =>
      rw [List.filter_cons_of_pos ha]
      simpa [unapplied, ha] using ih
    | false =>
      rw [List.filter_cons_of_neg (by simp [ha])]
      simpa [unapplied, ha] using List.perm_middle.trans (ih.cons a.manifest)

theorem length_unapplied (items : List α) (attempts : List Attempt)
    (h : attempts.length ≤ items.length) :
    attempts.countP (·.succeeded) + (unapplied items attempts).length = items.length := by
  induction attempts generalizing items with
  | nil => simp [unapplied]
  | cons a attempts ih =>
    cases items with
    | nil => simp at h
    | cons x items =>
      have hi := ih items (by simpa using h)
      cases ha : a.succeeded <;> simp [unapplied, ha] <;> omega

theorem length_pendingAfter {items : List α} {rounds : List Round} (h : Fits items rounds) :
    (rounds.flatMap Round.attempts).countP (·.succeeded) + (pendingAfter items rounds).length =
      items.length := by
  induction rounds generalizing items with
  | nil => simp [pendingAfter]
  | cons r rounds ih =>
    have hu := length_unapplied items r.attempts h.1
    have hr := ih h.2
    simp only [pendingAfter, List.flatMap_cons, List.countP_append]
    omega

theorem pendingAfter_eq_filter [DecidableEq α] {items : List α} {rounds : List Round}
    (hn : items.Nodup) (h : Fits items rounds) :
    pendingAfter items rounds =
      items.filter fun x => timesApplied x (ledger items rounds).flatten = 0 := by
  have hs := pendingAfter_sublist items rounds
  have hm : ∀ x ∈ items,
      (x ∈ pendingAfter items rounds ↔ timesApplied x (ledger items rounds).flatten = 0) := by
    intro x hx
    have hc := timesApplied_ledger x h
    rw [List.count_eq_one_of_mem hn hx] at hc
    rw [← List.count_pos_iff]
    omega
  have hle : (pendingAfter items rounds).Sublist
      (items.filter fun x => timesApplied x (ledger items rounds).flatten = 0) := by
    have hf := hs.filter fun x => timesApplied x (ledger items rounds).flatten = 0
    rwa [List.filter_eq_self.mpr fun x hx => by simpa using (hm x (hs.subset hx)).mp hx] at hf
  have hge : (items.filter fun x => timesApplied x (ledger items rounds).flatten = 0) ⊆
      pendingAfter items rounds := by
    intro x hx
    obtain ⟨hx, ht⟩ := List.mem_filter.mp hx
    exact (hm x hx).mpr (by simpa using ht)
  exact hle.eq_of_length_le (List.Nodup.length_le_of_subset (hn.filter _) hge)

theorem not_mem_unapplied {items : List α} {attempts : List Attempt} (h : items.Nodup)
    {x : α × Attempt} (hx : x ∈ items.zip attempts) (hs : x.2.succeeded = true) :
    x.1 ∉ unapplied items attempts := by
  induction attempts generalizing items with
  | nil => simp at hx
  | cons a attempts ih =>
    cases items with
    | nil => simp at hx
    | cons y items =>
      obtain ⟨hy, hn⟩ := List.nodup_cons.mp h
      rcases List.mem_cons.mp (by simpa using hx) with rfl | hx
      · have hsub := (unapplied_sublist items attempts).subset
        simpa [unapplied, hs] using fun hm => hy (hsub hm)
      · have hne : x.1 ≠ y := fun he => hy (he ▸ (List.of_mem_zip hx).1)
        cases ha : a.succeeded <;> simpa [unapplied, ha, hne] using ih hn hx

/-- An item that was applied is never attempted again. -/
theorem ledger_pairwise {items : List α} {rounds : List Round} (h : items.Nodup) :
    (ledger items rounds).Pairwise fun earlier later =>
      ∀ x ∈ earlier, x.2.succeeded = true → ∀ y ∈ later, y.1 ≠ x.1 := by
  induction rounds generalizing items with
  | nil => exact .nil
  | cons r rounds ih =>
    refine List.pairwise_cons.mpr ⟨?_, ih (h.sublist (unapplied_sublist items r.attempts))⟩
    intro later hl x hx hs y hy he
    have hm := (ledger_sublist _ rounds later hl).subset (List.mem_map_of_mem hy)
    exact not_mem_unapplied h hx hs (he ▸ hm)

end ManifestSync
