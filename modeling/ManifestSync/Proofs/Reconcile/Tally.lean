import ManifestSync.Proofs.Reconcile.Chronicle

namespace ManifestSync

variable {σ : Type} {services : Services σ} {options : Options} {resolver : Resolver}
  {deadline : Nat}

namespace Attempt

def outcome? (a : Attempt) : Option Outcome := a.result.toOption.map Applied.outcome

def unresolved (a : Attempt) : Bool :=
  match a.result with
  | .error e => e.isTypeNotResolved
  | .ok _ => false

theorem outcome?_of_ok {a : Attempt} {done : Applied} (h : a.result = .ok done) :
    a.outcome? = some done.outcome := by
  simp [outcome?, h, Except.toOption]

theorem outcome?_of_error {a : Attempt} {e : ApplyError} (h : a.result = .error e) :
    a.outcome? = none := by
  simp [outcome?, h, Except.toOption]

end Attempt

def SweepReport.number (r : SweepReport) : Outcome → Nat
  | .created => r.created
  | .patched => r.patched
  | .unchanged => r.unchanged

def RunSummary.number (s : RunSummary) : Outcome → Nat
  | .created => s.created
  | .patched => s.patched
  | .unchanged => s.unchanged

theorem SweepReport.number_blank (interrupted : Bool) (outcome : Outcome) :
    (blank interrupted).number outcome = 0 := by
  cases outcome <;> rfl

theorem SweepReport.number_afterSuccess (r : SweepReport) (done outcome : Outcome) :
    (r.afterSuccess done).number outcome =
      r.number outcome + if done = outcome then 1 else 0 := by
  cases done <;> cases outcome <;> rfl

theorem SweepReport.number_afterFailure (r : SweepReport) (e : ApplyError) (outcome : Outcome) :
    (r.afterFailure e).number outcome = r.number outcome := by
  cases outcome <;> rfl

theorem RunSummary.number_afterSweep (s : RunSummary) (r : SweepReport) (outcome : Outcome) :
    (s.afterSweep r).number outcome = s.number outcome + r.number outcome := by
  cases outcome <;> rfl

namespace Sweeps

variable {pending : List Manifest} {s : Stage σ} {made : Sweep σ}

theorem number_eq (h : Sweeps services options resolver deadline pending s made)
    (outcome : Outcome) :
    made.report.number outcome = made.attempts.countP (·.outcome? = some outcome) := by
  induction h with
  | nil | late => exact SweepReport.number_blank _ outcome
  | success _ _ hr _ ih =>
    rw [SweepReport.number_afterSuccess, List.countP_cons, ih, Attempt.outcome?_of_ok hr]
    simp
  | cutOff _ _ hr =>
    rw [SweepReport.number_afterFailure, SweepReport.number_blank, List.countP_singleton,
      Attempt.outcome?_of_error hr]
    rfl
  | failure _ _ hr _ _ ih =>
    rw [SweepReport.number_afterFailure, List.countP_cons, ih, Attempt.outcome?_of_error hr]
    rfl

theorem failed_eq (h : Sweeps services options resolver deadline pending s made) :
    made.report.failed = made.attempts.countP (!·.succeeded) := by
  induction h with
  | nil | late => rfl
  | success _ _ hr _ ih =>
    rw [List.countP_cons_of_neg (by simp [succeeded_of_ok hr]), ← ih]
    exact afterSuccess_failed _ _
  | cutOff _ _ hr =>
    rw [List.countP_cons_of_pos (by simp [succeeded_of_error hr])]
    rfl
  | failure _ _ hr _ _ ih =>
    rw [List.countP_cons_of_pos (by simp [succeeded_of_error hr]), ← ih]
    rfl

theorem needsReload_eq (h : Sweeps services options resolver deadline pending s made) :
    made.report.needsReload = made.attempts.any Attempt.unresolved := by
  induction h with
  | nil | late => rfl
  | success _ _ hr _ ih =>
    rw [List.any_cons, Attempt.unresolved, hr, Bool.false_or, ← ih]
    exact afterSuccess_needsReload _ _
  | cutOff _ _ hr =>
    rw [List.any_cons, Attempt.unresolved, hr]
    rfl
  | failure _ _ hr _ _ ih =>
    rw [List.any_cons, Attempt.unresolved, hr, ← ih]
    rfl

end Sweeps

namespace Progress

variable {p q : Progress σ} {r : Round} {rounds : List Round} {verdict : Verdict} {finished : Bool}

theorem Refreshes.number_eq {refresh? : Option Refresh}
    (h : Refreshes services options deadline p refresh? q) (outcome : Outcome) :
    q.summary.number outcome = p.summary.number outcome := by
  cases h <;> cases outcome <;> rfl

theorem Steps.number_eq (h : Steps services options deadline p r verdict q) (outcome : Outcome) :
    q.summary.number outcome =
      p.summary.number outcome + r.attempts.countP (·.outcome? = some outcome) := by
  have hc : p.counted.summary.number outcome = p.summary.number outcome := by
    cases outcome <;> rfl
  cases h with
  | cutOff hf | failed hf => exact (hf.number_eq outcome).trans hc
  | @swept _ q made hf _ hs =>
    have ha := RunSummary.number_afterSweep q.summary made.report outcome
    rw [hf.number_eq, hc, hs.number_eq] at ha
    exact ha

theorem Runs.number_eq (h : Runs services options deadline p rounds finished q)
    (outcome : Outcome) :
    q.summary.number outcome = p.summary.number outcome +
      (rounds.flatMap Round.attempts).countP (·.outcome? = some outcome) := by
  induction h with
  | spent => rfl
  | finished hs | outOfTime hs | late hs =>
    rw [List.flatMap_singleton]
    exact hs.number_eq outcome
  | @again p r q rs _ last hs _ _ ih =>
    have hq : (q.pause services options deadline).summary.number outcome =
        q.summary.number outcome := rfl
    rw [ih, hq, hs.number_eq, List.flatMap_cons, List.countP_append, Nat.add_assoc]

theorem Runs.number_of_result {manifests : List Manifest} {stage : Stage σ}
    (h : Runs services options deadline (.start manifests resolver stage) rounds finished q)
    {summary : RunSummary} (hr : (RunRecord.ofRounds rounds finished q).result = .ok summary)
    (outcome : Outcome) :
    summary.number outcome =
      (RunRecord.ofRounds rounds finished q).attempts.countP (·.outcome? = some outcome) := by
  cases finished with
  | false => cases hr
  | true =>
    cases hr
    have hz : RunSummary.zero.number outcome = 0 := by cases outcome <;> rfl
    exact (h.number_eq outcome).trans (hz ▸ Nat.zero_add _)

end Progress

/-- A run that succeeds has applied every manifest, and counts what came of them. -/
theorem Ran.tally {manifests : List Manifest} {stage : Stage σ} {made : RunRecord σ}
    (h : Ran services options deadline manifests resolver stage made) {summary : RunSummary}
    (hs : made.result = .ok summary) :
    (∀ outcome, summary.number outcome = made.attempts.countP (·.outcome? = some outcome)) ∧
      ((made.attempts.filter (·.succeeded)).map Attempt.manifest).Perm manifests := by
  cases h with
  | idle hnil =>
    subst hnil
    cases hs
    exact ⟨fun outcome => by cases outcome <;> rfl, .nil⟩
  | @rounds rounds finished last hne _ hr =>
    have hnumber := hr.number_of_result hs
    have hdone := hr.finished_iff hne
    have hperm := hr.perm_applied
    cases finished with
    | false => cases hs
    | true =>
      rw [hdone.mp rfl, List.append_nil] at hperm
      exact ⟨hnumber, hperm⟩

end ManifestSync
