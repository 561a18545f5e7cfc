import ManifestSync.Proofs.Reconcile.Punctuality
import ManifestSync.Proofs.Reconcile.Tally

namespace ManifestSync

variable {σ : Type} {services : Services σ} {options : Options} {resolver : Resolver}
  {deadline : Nat}

namespace Attempt

def error? (a : Attempt) : Option ApplyError :=
  match a.result with
  | .ok _ => none
  | .error e => some e

def cutOff (a : Attempt) : Bool := a.error?.any ApplyError.isDeadlineExceeded

variable {a : Attempt}

theorem error?_of_ok {done : Applied} (h : a.result = .ok done) : a.error? = none := by
  rw [error?, h]

theorem error?_of_error {e : ApplyError} (h : a.result = .error e) : a.error? = some e := by
  rw [error?, h]

theorem cutOff_of_ok {done : Applied} (h : a.result = .ok done) : a.cutOff = false := by
  rw [cutOff, error?_of_ok h]
  rfl

theorem cutOff_of_error {e : ApplyError} (h : a.result = .error e) :
    a.cutOff = e.isDeadlineExceeded := by
  rw [cutOff, error?_of_error h]
  rfl

theorem unresolved_iff :
    a.unresolved = true ↔ ∃ path cause, a.result = .error (.typeNotResolved path cause) := by
  unfold unresolved
  cases a.result with
  | ok done => exact iff_of_false nofun nofun
  | error e => cases e <;> simp [ApplyError.isTypeNotResolved]

end Attempt

inductive Tries (services : Services σ) (options : Options) (resolver : Resolver)
    (deadline : Nat) : List Manifest → Stage σ → List Attempt → Stage σ → Prop where
  | nil {s} : Tries services options resolver deadline [] s [] s
  | cons {m rest s a s' attempts last} : s.moment.now < deadline →
      s.attempt services options resolver deadline m = (a, s') →
      Tries services options resolver deadline rest s' attempts last →
      Tries services options resolver deadline (m :: rest) s (a :: attempts) last

theorem unapplied_append (attempts : List Attempt) (untried : List Manifest) :
    unapplied (attempts.map Attempt.manifest ++ untried) attempts =
      (attempts.filter (!·.succeeded)).map Attempt.manifest ++ untried := by
  induction attempts with
  | nil => simp [unapplied]
  | cons a attempts ih => cases ha : a.succeeded <;> simp [unapplied, ha, ih]

theorem getLast?_any_cons {α : Type} {p : α → Bool} {x : α} (h : p x = false) (xs : List α) :
    (x :: xs).getLast?.any p = xs.getLast?.any p := by
  rw [List.getLast?_cons]
  cases xs.getLast? with
  | none => exact h
  | some y => rfl

theorem forall_mem_dropLast_cons {α : Type} {P : α → Prop} {x : α} {xs : List α} (hx : P x)
    (h : ∀ y ∈ xs.dropLast, P y) : ∀ y ∈ (x :: xs).dropLast, P y := by
  cases xs with
  | nil => exact nofun
  | cons y ys => exact List.forall_mem_cons.mpr ⟨hx, h⟩

namespace Sweeps

variable {pending : List Manifest} {s : Stage σ} {made : Sweep σ}

theorem tries (h : Sweeps services options resolver deadline pending s made) :
    Tries services options resolver deadline (made.attempts.map Attempt.manifest) s made.attempts
      made.stage := by
  induction h with
  | nil | late => exact .nil
  | success hn ha _ _ ih | failure hn ha _ _ _ ih =>
    rw [List.map_cons, attempt_manifest ha]
    exact .cons hn ha ih
  | cutOff hn ha =>
    rw [List.map_singleton, attempt_manifest ha]
    exact .cons hn ha .nil

theorem lastError?_eq (h : Sweeps services options resolver deadline pending s made) :
    made.report.lastError? = (made.attempts.filterMap Attempt.error?).getLast? := by
  induction h with
  | nil | late => rfl
  | @success _ _ _ _ _ done later _ _ hr _ ih =>
    have ho : (later.report.afterSuccess done.outcome).lastError? = later.report.lastError? := by
      cases done.outcome <;> rfl
    rw [List.filterMap_cons_none (Attempt.error?_of_ok hr), ← ih]
    exact ho
  | cutOff _ _ hr =>
    rw [List.filterMap_cons_some (Attempt.error?_of_error hr)]
    rfl
  | failure _ _ hr _ _ ih =>
    rw [List.filterMap_cons_some (Attempt.error?_of_error hr), List.getLast?_cons, ← ih]
    exact Option.or_some

theorem interrupted_iff (h : Sweeps services options resolver deadline pending s made) :
    made.report.interrupted = true ↔
      made.attempts.length < pending.length ∨ made.attempts.getLast?.any Attempt.cutOff = true := by
  induction h with
  | nil => simp [SweepReport.blank]
  | late => simp [SweepReport.blank]
  | success _ _ hr _ ih =>
    have hc := Attempt.cutOff_of_ok hr
    simp only [afterSuccess_interrupted, ih, List.length_cons, Nat.add_lt_add_iff_right,
      getLast?_any_cons hc]
  | cutOff _ _ hr he =>
    have hc := (Attempt.cutOff_of_error hr).trans he
    exact iff_of_true rfl (.inr hc)
  | failure _ _ hr he _ ih =>
    have hc := (Attempt.cutOff_of_error hr).trans he
    simp only [SweepReport.afterFailure, ih, List.length_cons, Nat.add_lt_add_iff_right,
      getLast?_any_cons hc]

theorem not_cutOff (h : Sweeps services options resolver deadline pending s made) :
    ∀ a ∈ made.attempts.dropLast, a.cutOff = false := by
  induction h with
  | nil | late | cutOff => exact List.forall_mem_nil _
  | success _ _ hr _ ih => exact forall_mem_dropLast_cons (Attempt.cutOff_of_ok hr) ih
  | failure _ _ hr he _ ih =>
    exact forall_mem_dropLast_cons ((Attempt.cutOff_of_error hr).trans he) ih

end Sweeps

structure Reported (services : Services σ) (options : Options) (resolver : Resolver)
    (deadline : Nat) (pending untried : List Manifest) (stage : Stage σ) (made : Sweep σ) :
    Prop where
  pending_eq : pending = made.attempts.map Attempt.manifest ++ untried
  tries : Tries services options resolver deadline (made.attempts.map Attempt.manifest) stage
    made.attempts made.stage
  remaining_eq : made.remaining =
    (made.attempts.filter (!·.succeeded)).map Attempt.manifest ++ untried
  number_eq : ∀ outcome, made.report.number outcome =
    made.attempts.countP (·.outcome? = some outcome)
  applied_eq : made.report.created + made.report.patched + made.report.unchanged =
    made.attempts.countP (·.succeeded)
  failed_eq : made.report.failed = made.attempts.countP (!·.succeeded)
  length_eq : made.report.created + made.report.patched + made.report.unchanged +
    made.report.failed + untried.length = pending.length
  needsReload_iff : made.report.needsReload = true ↔
    ∃ a ∈ made.attempts, ∃ path cause, a.result = .error (.typeNotResolved path cause)
  lastError?_eq : made.report.lastError? = (made.attempts.filterMap Attempt.error?).getLast?
  /-- The deadline was there before some manifest could be attempted, or the last attempt failed
  because of it. -/
  interrupted_iff : made.report.interrupted = true ↔
    untried ≠ [] ∧ deadline ≤ made.stage.moment.now ∨
      ∃ a, made.attempts.getLast? = some a ∧ a.cutOff = true
  untried_eq : made.report.interrupted = false → untried = []
  /-- None but the last attempt fails because of the deadline. -/
  not_cutOff : ∀ a ∈ made.attempts.dropLast, a.cutOff = false

theorem Sweeps.reported {pending : List Manifest} {s : Stage σ} {made : Sweep σ}
    (h : Sweeps services options resolver deadline pending s made) {untried : List Manifest}
    (hu : pending = made.attempts.map Attempt.manifest ++ untried) :
    Reported services options resolver deadline pending untried s made := by
  have hlen : pending.length = made.attempts.length + untried.length := by
    rw [hu, List.length_append, List.length_map]
  have hattempted : made.attempts.length =
      made.attempts.countP (·.succeeded) + made.attempts.countP (!·.succeeded) := by
    simpa using List.length_eq_countP_add_countP (fun a : Attempt => a.succeeded)
  have hi := h.interrupted_iff
  rw [hlen, Nat.lt_add_right_iff_pos, List.length_pos_iff] at hi
  constructor
  case pending_eq => exact hu
  case tries => exact h.tries
  case remaining_eq =>
    rw [h.remaining_eq]
    nth_rewrite 1 [hu]
    exact unapplied_append made.attempts untried
  case number_eq => exact h.number_eq
  case applied_eq => exact h.applied_eq
  case failed_eq => exact h.failed_eq
  case length_eq =>
    rw [h.applied_eq, h.failed_eq, hlen, hattempted]
  case needsReload_iff =>
    rw [h.needsReload_eq, List.any_eq_true]
    simp only [Attempt.unresolved_iff]
  case lastError?_eq => exact h.lastError?_eq
  case interrupted_iff =>
    have hlast : made.attempts.getLast?.any Attempt.cutOff = true ↔
        ∃ a, made.attempts.getLast? = some a ∧ a.cutOff = true :=
      Option.any_eq_true _ _
    rw [← hlast]
    refine ⟨fun hint => (hi.mp hint).imp_left fun hne => ⟨hne, h.deadline_le hint⟩, fun hor => ?_⟩
    exact hi.mpr (hor.imp_left And.left)
  case untried_eq =>
    intro hint
    by_contra hne
    exact nomatch hint.symm.trans (hi.mpr (.inl hne))
  case not_cutOff => exact h.not_cutOff

/-- Whatever the store does, a sweep attempts the first of the pending manifests, once each and in
order, and reports what came of them. -/
theorem sweep_reported (services : Services σ) (options : Options) (resolver : Resolver)
    (deadline : Nat) (pending : List Manifest) (stage : Stage σ) :
    ∃ untried, Reported services options resolver deadline pending untried stage
      (sweep services options resolver deadline pending stage) := by
  have h := sweep_sweeps services options resolver deadline pending stage
  obtain ⟨untried, hu⟩ := h.manifests_prefix
  exact ⟨untried, h.reported hu.symm⟩

end ManifestSync
