import ManifestSync.Proofs.Reconcile.Ledger
import ManifestSync.Proofs.Reconcile.Runs

namespace ManifestSync

variable {σ : Type} {services : Services σ} {options : Options} {deadline : Nat}

namespace Progress

variable {p q : Progress σ} {r : Round} {rounds : List Round} {verdict : Verdict} {finished : Bool}

theorem Refreshes.pending_eq {refresh? : Option Refresh}
    (h : Refreshes services options deadline p refresh? q) : q.pending = p.pending := by
  cases h <;> rfl

theorem Refreshes.applied_eq {refresh? : Option Refresh}
    (h : Refreshes services options deadline p refresh? q) :
    q.summary.applied = p.summary.applied := by
  cases h <;> rfl

theorem applied_after (p : Progress σ) (made : Sweep σ) :
    (p.after made).summary.applied = p.summary.applied +
      (made.report.created + made.report.patched + made.report.unchanged) := by
  simp only [after, RunSummary.afterSweep, RunSummary.applied]
  omega

theorem Steps.attempts_prefix (h : Steps services options deadline p r verdict q) :
    r.attempts.map Attempt.manifest <+: p.pending := by
  cases h with
  | cutOff | failed => simp [Round.attempts]
  | swept hf _ hs => simpa [Round.attempts, hf.pending_eq] using! hs.manifests_prefix

theorem Steps.length_le (h : Steps services options deadline p r verdict q) :
    r.attempts.length ≤ p.pending.length := by
  simpa using h.attempts_prefix.length_le

theorem Steps.pending_eq (h : Steps services options deadline p r verdict q) :
    q.pending = unapplied p.pending r.attempts := by
  cases h with
  | cutOff hf | failed hf => simpa [Round.attempts, unapplied] using! hf.pending_eq
  | swept hf _ hs => simpa [after, Round.attempts, hf.pending_eq] using! hs.remaining_eq

theorem Steps.applied_eq (h : Steps services options deadline p r verdict q) :
    q.summary.applied = p.summary.applied + r.attempts.countP (·.succeeded) := by
  cases h with
  | cutOff hf | failed hf => simpa [Round.attempts] using! hf.applied_eq
  | swept hf _ hs => rw [applied_after, hs.applied_eq, hf.applied_eq]; rfl

theorem Steps.finished_iff (h : Steps services options deadline p r verdict q)
    (hp : p.pending ≠ []) : verdict = .finished ↔ q.pending = [] := by
  cases h with
  | cutOff hf | failed hf => simpa [hf.pending_eq] using! hp
  | @swept _ _ made _ _ _ =>
    by_cases he : made.remaining = []
    · simp [verdictOf, after, he]
    · simp only [verdictOf, after, he, List.isEmpty_iff, ↓reduceIte, iff_false]
      split <;> simp

theorem pause_pending (p : Progress σ) : (p.pause services options deadline).pending = p.pending :=
  rfl

theorem Runs.fits (h : Runs services options deadline p rounds finished q) :
    Fits p.pending rounds := by
  induction h with
  | spent => trivial
  | finished hs | outOfTime hs | late hs => exact ⟨hs.length_le, trivial⟩
  | again hs _ _ ih => exact ⟨hs.length_le, by simpa [pause_pending, hs.pending_eq] using ih⟩

theorem Runs.pending_eq (h : Runs services options deadline p rounds finished q) :
    q.pending = pendingAfter p.pending rounds := by
  induction h with
  | spent => rfl
  | finished hs | outOfTime hs | late hs => exact hs.pending_eq
  | again hs _ _ ih => rw [ih, pause_pending, hs.pending_eq]; rfl

theorem Steps.perm_applied (h : Steps services options deadline p r verdict q) :
    ((r.attempts.filter (·.succeeded)).map Attempt.manifest ++ q.pending).Perm p.pending := by
  rw [h.pending_eq]
  exact perm_unapplied h.attempts_prefix

theorem Runs.perm_applied (h : Runs services options deadline p rounds finished q) :
    (((rounds.flatMap Round.attempts).filter (·.succeeded)).map Attempt.manifest ++
      q.pending).Perm p.pending := by
  induction h with
  | spent => exact .refl _
  | finished hs | outOfTime hs | late hs =>
    rw [List.flatMap_singleton]
    exact hs.perm_applied
  | @again p r q rs _ last hs _ _ ih =>
    rw [pause_pending] at ih
    rw [List.flatMap_cons, List.filter_append, List.map_append, List.append_assoc]
    exact (ih.append_left _).trans hs.perm_applied

theorem Runs.applied_eq (h : Runs services options deadline p rounds finished q) :
    q.summary.applied = p.summary.applied +
      (rounds.flatMap Round.attempts).countP (·.succeeded) := by
  induction h with
  | spent => simp
  | finished hs | outOfTime hs | late hs => simpa using! hs.applied_eq
  | @again p r q rs _ last hs _ _ ih =>
    have hq : (q.pause services options deadline).summary.applied = q.summary.applied := rfl
    rw [ih, hq, hs.applied_eq, List.flatMap_cons, List.countP_append, Nat.add_assoc]

theorem Runs.finished_iff (h : Runs services options deadline p rounds finished q)
    (hp : p.pending ≠ []) : finished = true ↔ q.pending = [] := by
  induction h with
  | spent => simpa using hp
  | finished hs => simpa using (hs.finished_iff hp).mp rfl
  | outOfTime hs | late hs => simpa [pause_pending] using fun he => (hs.finished_iff hp).mpr he
  | again hs _ _ ih => exact ih fun he => by simpa using (hs.finished_iff hp).mpr he

theorem Runs.manifest_eq (h : Runs services options deadline p rounds finished q) :
    ∀ entries ∈ ledger p.pending rounds, ∀ x ∈ entries, x.2.manifest = x.1 := by
  induction h with
  | spent => simp [ledger]
  | finished hs | outOfTime hs | late hs =>
    simpa [ledger] using manifest_eq_of_mem_zip hs.attempts_prefix
  | again hs _ _ ih =>
    rw [pause_pending, hs.pending_eq] at ih
    intro entries he
    obtain rfl | he := List.mem_cons.mp he
    · exact manifest_eq_of_mem_zip hs.attempts_prefix
    · exact ih entries he

end Progress

/-- The ledger of a run on some manifests. The positions of the list are its items, so that equal
manifests are told apart. -/
def RunRecord.ledger (made : RunRecord σ) (manifests : List Manifest) :
    List (List (Fin manifests.length × Attempt)) :=
  ManifestSync.ledger (List.finRange manifests.length) made.rounds

structure Accounted (manifests : List Manifest) (made : RunRecord σ) : Prop where
  attempts_eq :
    (made.ledger manifests).map (·.map Prod.snd) = made.rounds.map Round.attempts
  manifest_eq :
    ∀ entries ∈ made.ledger manifests, ∀ x ∈ entries, x.2.manifest = manifests.get x.1
  once_a_round :
    ∀ entries ∈ made.ledger manifests, (entries.map Prod.fst).Pairwise (· < ·)
  never_again :
    (made.ledger manifests).Pairwise fun earlier later =>
      ∀ x ∈ earlier, x.2.succeeded = true → ∀ y ∈ later, y.1 ≠ x.1
  success : ∀ summary, made.result = .ok summary →
    (∀ i, timesApplied i (made.ledger manifests).flatten = 1) ∧
      summary.created + summary.patched + summary.unchanged = manifests.length
  failure : ∀ failure, made.result = .error failure →
    failure.remaining ≠ [] ∧ failure.remaining.Sublist manifests ∧
      failure.remaining = ((List.finRange manifests.length).filter fun i =>
        timesApplied i (made.ledger manifests).flatten = 0).map manifests.get ∧
      failure.count = failure.remaining.length

theorem accounted_nil (resolver : Resolver) (stage : Stage σ) :
    Accounted [] ⟨[], .ok .zero, resolver, stage⟩ where
  attempts_eq := rfl
  manifest_eq := by simp [RunRecord.ledger, ledger]
  once_a_round := by simp [RunRecord.ledger, ledger]
  never_again := .nil
  success := by
    rintro summary ⟨⟩
    exact ⟨fun i => i.elim0, rfl⟩
  failure := by
    rintro failure ⟨⟩

theorem Progress.Runs.accounted {manifests : List Manifest} (hne : manifests ≠ [])
    {resolver : Resolver} {stage : Stage σ} {rounds : List Round} {finished : Bool}
    {last : Progress σ}
    (hr : Runs services options deadline (.start manifests resolver stage) rounds finished last) :
    Accounted manifests (.ofRounds rounds finished last) := by
  have hn := List.nodup_finRange manifests.length
  have hp : (Progress.start manifests resolver stage).pending =
      (List.finRange manifests.length).map manifests.get := (List.map_get_finRange manifests).symm
  have hf : Fits (List.finRange manifests.length) rounds := by
    simpa only [hp, fits_map] using hr.fits
  have hlast : last.pending = (pendingAfter (List.finRange manifests.length) rounds).map
      manifests.get := by
    rw [hr.pending_eq, hp, pendingAfter_map]
  have hd := hr.finished_iff hne
  constructor
  case attempts_eq => exact ledger_attempts hf
  case manifest_eq =>
    have hm := hr.manifest_eq
    rw [hp, ledger_map] at hm
    intro entries hx x hy
    exact hm _ (List.mem_map_of_mem hx) _ (List.mem_map_of_mem hy)
  case once_a_round =>
    intro entries hx
    exact (List.pairwise_lt_finRange _).sublist (ledger_sublist _ rounds entries hx)
  case never_again => exact ledger_pairwise hn
  case success =>
    intro summary hs
    cases finished with
    | false => cases hs
    | true =>
      cases hs
      have hnil : pendingAfter (List.finRange manifests.length) rounds = [] := by
        simpa [hlast] using hd.mp rfl
      refine ⟨fun i => ?_, ?_⟩
      · have hc := timesApplied_ledger i hf
        rw [hnil, List.count_nil, List.count_eq_one_of_mem hn (List.mem_finRange i)] at hc
        exact hc
      · have hc := length_pendingAfter hf
        rw [hnil, List.length_finRange] at hc
        have ha : last.summary.applied = manifests.length := by
          rw [hr.applied_eq]
          simpa [Progress.start, RunSummary.zero, RunSummary.applied] using hc
        exact ha
  case failure =>
    intro failure hs
    cases finished with
    | true => cases hs
    | false =>
      cases hs
      refine ⟨fun h => by simpa using hd.mpr h, ?_, ?_, rfl⟩
      · rw [hr.pending_eq]
        exact pendingAfter_sublist manifests rounds
      · rw [hlast, pendingAfter_eq_filter hn hf]
        rfl

theorem Ran.accounted {manifests : List Manifest} {resolver : Resolver} {stage : Stage σ}
    {made : RunRecord σ} (h : Ran services options deadline manifests resolver stage made) :
    Accounted manifests made := by
  cases h with
  | idle hnil =>
    subst hnil
    exact accounted_nil resolver stage
  | @rounds rounds finished last hne _ hr => exact hr.accounted hne

/-- Every run accounts for its manifests, whatever the services do, and so does one that is given any
more rounds. -/
theorem run_accounted (services : Services σ) (options : Options) (deadline : Nat)
    (manifests : List Manifest) (resolver : Resolver) (stage : Stage σ) :
    Accounted manifests (run services options deadline manifests resolver stage) ∧
      (manifests ≠ [] → ∀ more,
        Accounted manifests (runBeyond services options deadline manifests resolver stage more)) :=
  run_and_beyond fun _ h => h.accounted

end ManifestSync
