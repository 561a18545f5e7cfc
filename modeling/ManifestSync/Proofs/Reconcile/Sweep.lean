import ManifestSync.Reconcile.Sweep

namespace ManifestSync

variable {σ α β : Type} {services : Services σ} {options : Options} {resolver : Resolver}
  {deadline : Nat}

def Attempt.succeeded (a : Attempt) : Bool := a.result.isOk

/-- How a sweep goes on: there is one way for each thing that may come of the first manifest. -/
inductive Sweeps (services : Services σ) (options : Options) (resolver : Resolver) (deadline : Nat) :
    List Manifest → Stage σ → Sweep σ → Prop where
  | nil {s} : Sweeps services options resolver deadline [] s ⟨.blank false, [], [], s⟩
  | late {m rest s} : deadline ≤ s.moment.now →
      Sweeps services options resolver deadline (m :: rest) s ⟨.blank true, m :: rest, [], s⟩
  | success {m rest s a s' done later} : s.moment.now < deadline →
      s.attempt services options resolver deadline m = (a, s') → a.result = .ok done →
      Sweeps services options resolver deadline rest s' later →
      Sweeps services options resolver deadline (m :: rest) s
        { later with
          report := later.report.afterSuccess done.outcome
          attempts := a :: later.attempts }
  | cutOff {m rest s a s' e} : s.moment.now < deadline →
      s.attempt services options resolver deadline m = (a, s') → a.result = .error e →
      e.isDeadlineExceeded = true →
      Sweeps services options resolver deadline (m :: rest) s
        ⟨(SweepReport.blank true).afterFailure e, m :: rest, [a], s'⟩
  | failure {m rest s a s' e later} : s.moment.now < deadline →
      s.attempt services options resolver deadline m = (a, s') → a.result = .error e →
      e.isDeadlineExceeded = false →
      Sweeps services options resolver deadline rest s' later →
      Sweeps services options resolver deadline (m :: rest) s
        { later with
          report := later.report.afterFailure e
          remaining := m :: later.remaining
          attempts := a :: later.attempts }

theorem sweep_sweeps (services : Services σ) (options : Options) (resolver : Resolver)
    (deadline : Nat) (pending : List Manifest) (s : Stage σ) :
    Sweeps services options resolver deadline pending s
      (sweep services options resolver deadline pending s) := by
  induction pending generalizing s with
  | nil => exact .nil
  | cons m rest ih =>
    by_cases hd : deadline ≤ s.moment.now
    · simp only [sweep, hd, ↓reduceIte]
      exact .late hd
    · have hn : s.moment.now < deadline := Nat.lt_of_not_le hd
      rcases ha : s.attempt services options resolver deadline m with ⟨a, s'⟩
      cases hr : a.result with
      | ok done =>
        simp only [sweep, hd, ha, hr, ↓reduceIte]
        exact .success hn ha hr (ih s')
      | error e =>
        cases he : e.isDeadlineExceeded with
        | true =>
          simp only [sweep, hd, ha, hr, he, ↓reduceIte]
          exact .cutOff hn ha hr he
        | false =>
          simp only [sweep, hd, ha, hr, he, ↓reduceIte, Bool.false_eq_true]
          exact .failure hn ha hr he (ih s')

theorem Stage.attempt_moment {m : Manifest} {s s' : Stage σ} {a : Attempt}
    (h : s.attempt services options resolver deadline m = (a, s')) :
    m.attempt services options.update resolver deadline s.moment = (a, s'.moment) := by
  obtain ⟨rfl, rfl⟩ := Prod.mk.inj h
  rfl

theorem attempt_manifest {m : Manifest} {s s' : Stage σ} {a : Attempt}
    (h : s.attempt services options resolver deadline m = (a, s')) : a.manifest = m := by
  have ha : (m.attempt services options.update resolver deadline s.moment).1 = a :=
    congrArg Prod.fst (Stage.attempt_moment h)
  rw [← ha, Manifest.attempt]
  split <;> rfl

theorem succeeded_of_ok {a : Attempt} {done : Applied} (h : a.result = .ok done) :
    a.succeeded = true := by
  simp [Attempt.succeeded, h, Except.isOk, Except.toBool]

theorem succeeded_of_error {a : Attempt} {e : ApplyError} (h : a.result = .error e) :
    a.succeeded = false := by
  simp [Attempt.succeeded, h, Except.isOk, Except.toBool]

theorem exists_of_succeeded {a : Attempt} (h : a.succeeded = true) :
    ∃ done, a.result = .ok done := by
  cases hr : a.result with
  | ok done => exact ⟨done, rfl⟩
  | error e =>
    rw [succeeded_of_error hr] at h
    cases h

theorem afterSuccess_interrupted (r : SweepReport) (outcome : Outcome) :
    (r.afterSuccess outcome).interrupted = r.interrupted := by
  cases outcome <;> rfl

theorem afterSuccess_failed (r : SweepReport) (outcome : Outcome) :
    (r.afterSuccess outcome).failed = r.failed := by
  cases outcome <;> rfl

theorem afterSuccess_needsReload (r : SweepReport) (outcome : Outcome) :
    (r.afterSuccess outcome).needsReload = r.needsReload := by
  cases outcome <;> rfl

/-- What attempts at the first of the items leave of them: the items whose attempt failed, and those
that no attempt was made at. -/
def unapplied : List α → List Attempt → List α
  | items, [] => items
  | [], _ :: _ => []
  | x :: items, a :: attempts =>
    if a.succeeded then unapplied items attempts else x :: unapplied items attempts

theorem unapplied_map (f : α → β) (items : List α) (attempts : List Attempt) :
    unapplied (items.map f) attempts = (unapplied items attempts).map f := by
  induction attempts generalizing items with
  | nil => simp [unapplied]
  | cons a attempts ih =>
    cases items with
    | nil => rfl
    | cons x items => cases ha : a.succeeded <;> simp [unapplied, ha, ih]

theorem unapplied_eq_filter (f : α → Attempt) (items : List α) :
    unapplied items (items.map f) = items.filter fun x => !(f x).succeeded := by
  induction items with
  | nil => rfl
  | cons x items ih => cases hx : (f x).succeeded <;> simp [unapplied, hx, ih]

theorem unapplied_sublist (items : List α) (attempts : List Attempt) :
    (unapplied items attempts).Sublist items := by
  induction attempts generalizing items with
  | nil => simp [unapplied]
  | cons a attempts ih =>
    cases items with
    | nil => simp [unapplied]
    | cons x items =>
      cases ha : a.succeeded
      · simpa [unapplied, ha] using ih items
      · simpa [unapplied, ha] using (ih items).cons x

namespace Sweeps

variable {pending : List Manifest} {s : Stage σ} {made : Sweep σ}

theorem manifests_prefix (h : Sweeps services options resolver deadline pending s made) :
    made.attempts.map Attempt.manifest <+: pending := by
  induction h with
  | nil | late => simp
  | cutOff _ ha => simp [attempt_manifest ha]
  | success _ ha _ _ ih | failure _ ha _ _ _ ih => simpa [attempt_manifest ha] using ih

theorem remaining_eq (h : Sweeps services options resolver deadline pending s made) :
    made.remaining = unapplied pending made.attempts := by
  induction h with
  | nil | late => simp [unapplied]
  | success _ _ hr _ ih => simpa [unapplied, succeeded_of_ok hr] using ih
  | cutOff _ _ hr => simp [unapplied, succeeded_of_error hr]
  | failure _ _ hr _ _ ih => simpa [unapplied, succeeded_of_error hr] using ih

theorem applied_eq (h : Sweeps services options resolver deadline pending s made) :
    made.report.created + made.report.patched + made.report.unchanged =
      made.attempts.countP (·.succeeded) := by
  induction h with
  | nil | late => rfl
  | @success m rest s a s' done later _ _ hr _ ih =>
    rw [List.countP_cons_of_pos (succeeded_of_ok hr), ← ih]
    cases done.outcome <;> simp only [SweepReport.afterSuccess] <;> omega
  | cutOff _ _ hr => simp [SweepReport.afterFailure, SweepReport.blank, succeeded_of_error hr]
  | failure _ _ hr _ _ ih => simpa [SweepReport.afterFailure, succeeded_of_error hr] using ih

end Sweeps

end ManifestSync
