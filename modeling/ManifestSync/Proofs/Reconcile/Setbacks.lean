import ManifestSync.Proofs.Reconcile.Reloading
import ManifestSync.Proofs.Reconcile.Reporting

namespace ManifestSync

variable {σ : Type} {services : Services σ} {options : Options} {resolver : Resolver}
  {deadline : Nat}

/-- What went wrong in the round, in order: the discovery service refused to answer, and then the
attempts that failed. A refresh that is cut off is none of it. -/
def Round.setbacks (r : Round) : List Setback :=
  (match r.refresh? with
    | some (.failed e) => [.refresh e]
    | _ => []) ++ (r.attempts.filterMap Attempt.error?).map .attempt

def RunRecord.setbacks (made : RunRecord σ) : List Setback := made.rounds.flatMap Round.setbacks

theorem ne_of_head {text : String} (head : String) {rest : String}
    (h : ¬ head.toList <+: text.toList) : head ++ rest ≠ text := by
  rintro rfl
  rw [String.toList_append] at h
  exact h (List.prefix_append _ _)

def RunFailure.untold : String := "deadline passed before any attempt completed"

theorem StoreError.message_ne (e : StoreError) : e.message ≠ RunFailure.untold := by
  cases e with
  | notFound => exact ne_of_head "Not found: " (by decide)
  | alreadyExists => exact ne_of_head "Already exists: " (by decide)
  | client => exact ne_of_head "Kubernetes client error: " (by decide)
  | serialization => exact ne_of_head "Serialization error: " (by decide)
  | discovery => exact ne_of_head "Discovery failed: " (by decide)
  | rejected code reason =>
    show "API error (" ++ toString code ++ "): " ++ reason ≠ RunFailure.untold
    rw [String.append_assoc, String.append_assoc]
    exact ne_of_head _ (by decide)

theorem ApplyError.message_ne (e : ApplyError) : e.message ≠ RunFailure.untold := by
  cases e with
  | typeNotResolved path cause =>
    show "unable to get REST mapping for " ++ Text.quoted path ++ ": " ++ cause.message ≠
      RunFailure.untold
    rw [String.append_assoc, String.append_assoc]
    exact ne_of_head _ (by decide)
  | requestFailed verb target cause =>
    show "failed to " ++ verb.word ++ " " ++ target ++ ": " ++ cause.message ≠
      RunFailure.untold
    simp only [String.append_assoc]
    exact ne_of_head _ (by decide)
  | deadlineExceeded path => exact ne_of_head "deadline exceeded while applying " (by decide)

theorem Setback.message_ne (s : Setback) : s.message ≠ RunFailure.untold := by
  cases s with
  | refresh e => exact e.message_ne
  | attempt e => exact e.message_ne

namespace Progress

variable {p q : Progress σ} {r : Round} {rounds : List Round} {verdict : Verdict} {finished : Bool}

theorem Steps.last?_eq (h : Steps services options deadline p r verdict q) :
    q.last? = r.setbacks.getLast?.or p.last? := by
  cases h with
  | cutOff hr =>
    cases hr
    rfl
  | failed hr =>
    cases hr
    rfl
  | @swept refresh? q made hr hready hs =>
    have hlast : made.report.lastError?.map Setback.attempt =
        ((made.attempts.filterMap Attempt.error?).map Setback.attempt).getLast? := by
      rw [List.getLast?_map, hs.lastError?_eq]
    -- A mapping that is ready adds nothing to what is remembered, whether or not it was due.
    obtain rfl | ⟨kinds, rfl⟩ := hready
    · cases hr
      exact congrArg (·.or p.last?) hlast
    · cases hr
      exact congrArg (·.or p.last?) hlast

theorem Runs.last?_eq (h : Runs services options deadline p rounds finished q) :
    q.last? = (rounds.flatMap Round.setbacks).getLast?.or p.last? := by
  induction h with
  | spent => rfl
  | finished hs | outOfTime hs | late hs =>
    rw [List.flatMap_singleton]
    exact hs.last?_eq
  | @again p r q rs _ last hs _ _ ih =>
    have hq : (q.pause services options deadline).last? = q.last? := rfl
    rw [ih, hq, hs.last?_eq, List.flatMap_cons, List.getLast?_append, Option.or_assoc]

theorem Runs.needsReload_iff (h : Runs services options deadline p rounds finished q)
    (hr : rounds.getLast? = some r) :
    q.needsReload = true ↔
      r.refresh?.any (!·.isLoaded) = true ∨ ∃ a ∈ r.attempts, a.unresolved = true := by
  induction h with
  | spent => cases hr
  | finished hs | outOfTime hs | late hs =>
    cases hr
    exact hs.needsReload_iff
  | @again p r' q rs _ last hs _ hl ih =>
    cases rs with
    | nil =>
      cases hr
      cases hl
      exact hs.needsReload_iff
    | cons r'' rs => exact ih (List.getLast?_cons_cons ▸ hr)

end Progress

structure Truthful (rounds : List Round) (failure : RunFailure) : Prop where
  last?_eq : failure.last? = (rounds.flatMap Round.setbacks).getLast?
  last_eq : ∀ setback, (rounds.flatMap Round.setbacks).getLast? = some setback →
    failure.last = setback.message
  untold_iff : failure.last = "deadline passed before any attempt completed" ↔
    rounds.flatMap Round.setbacks = []
  /-- It is up to the last round alone whether the mapping is to be rebuilt. -/
  needsReload_iff : failure.needsReload = true ↔ ∃ r, rounds.getLast? = some r ∧
    ((∃ e, r.refresh? = some (.failed e)) ∨ r.refresh? = some .cutOff ∨
      ∃ a ∈ r.attempts, ∃ path cause, a.result = .error (.typeNotResolved path cause))

theorem RunFailure.last_iff (f : RunFailure) : f.last = untold ↔ f.last? = none := by
  cases h : f.last? with
  | none => simp [last, h, untold]
  | some setback => simp [last, h, setback.message_ne]

theorem Round.unready_iff (r : Round) : r.refresh?.any (!·.isLoaded) = true ↔
    (∃ e, r.refresh? = some (.failed e)) ∨ r.refresh? = some .cutOff := by
  rcases r.refresh? with _ | kinds | e | _ <;> simp [Refresh.isLoaded]

theorem Progress.Runs.truthful {manifests : List Manifest} {stage : Stage σ} {rounds : List Round}
    {finished : Bool} {last : Progress σ}
    (h : Runs services options deadline (.start manifests resolver stage) rounds finished last)
    (hne : rounds ≠ []) {failure : RunFailure}
    (hf : (RunRecord.ofRounds rounds finished last).result = .error failure) :
    Truthful rounds failure := by
  have hlast : failure.last? = (rounds.flatMap Round.setbacks).getLast? ∧
      failure.needsReload = last.needsReload := by
    cases finished with
    | true => cases hf
    | false =>
      cases hf
      exact ⟨h.last?_eq.trans (Option.or_none ..), rfl⟩
  obtain ⟨hlast, hneeds⟩ := hlast
  obtain ⟨r, hr⟩ := Option.ne_none_iff_exists'.mp (mt List.getLast?_eq_none_iff.mp hne)
  constructor
  case last?_eq => exact hlast
  case last_eq =>
    intro setback hs
    rw [RunFailure.last, hlast, hs]
  case untold_iff =>
    rw [← List.getLast?_eq_none_iff, ← hlast]
    exact failure.last_iff
  case needsReload_iff =>
    rw [hneeds, h.needsReload_iff hr, r.unready_iff, or_assoc]
    simp only [hr, Option.some.injEq, exists_eq_left', Attempt.unresolved_iff]

theorem Ran.truthful {manifests : List Manifest} {resolver : Resolver} {stage : Stage σ}
    {made : RunRecord σ} (h : Ran services options deadline manifests resolver stage made)
    {failure : RunFailure} (hf : made.result = .error failure) : Truthful made.rounds failure := by
  cases h with
  | idle => cases hf
  | rounds _ hne hr => exact hr.truthful hne hf

/-- A run that fails tells of the last thing that went wrong, and so does one that never pauses and
is given any more rounds. -/
theorem run_failure_truthful (services : Services σ) (options : Options) (deadline : Nat)
    (manifests : List Manifest) (resolver : Resolver) (stage : Stage σ) :
    let made := run services options deadline manifests resolver stage
    let limit := roundLimit options.retryInterval (deadline - stage.moment.now)
    (∀ failure, made.result = .error failure → Truthful made.rounds failure) ∧
    ∀ more failure,
      let (rounds, finished, last) :=
        Progress.rounds services options deadline (limit + more) (.start manifests resolver stage)
      (RunRecord.ofRounds rounds finished last).result = .error failure →
        Truthful rounds failure := by
  intro made limit
  refine ⟨fun failure hf => ?_, fun more failure hf => ?_⟩
  · exact (run_ran services options deadline manifests resolver stage).truthful hf
  · obtain ⟨hr, hne⟩ := Progress.rounds_runs_beyond services options deadline
      (.start manifests resolver stage) more
    exact hr.truthful hne hf

def slowRun : RunRecord Scenario.World :=
  run Scenario.World.stagedServices ⟨false, false, [], 5⟩ 17 [stateManifest .null] .unloaded
    ⟨⟨2, .still slowMemory lateFeed⟩, ⟨true, []⟩⟩

theorem run_failure_truthful_slowly : ∃ failure, slowRun.result = .error failure ∧
    slowRun.setbacks = [.attempt (.typeNotResolved "ca.yaml" ⟨"", "v1", "ConfigMap"⟩),
      .attempt (.deadlineExceeded "ca.yaml")] ∧
    failure.last = "deadline exceeded while applying \"ca.yaml\"" ∧
    failure.needsReload = false := by
  have hneeds : (match slowRun.result with
      | .ok _ => true
      | .error failure => failure.needsReload) = false := by
    decide +kernel
  cases hr : slowRun.result with
  | ok summary =>
    rw [hr] at hneeds
    cases hneeds
  | error failure =>
    rw [hr] at hneeds
    have ht := (run_failure_truthful Scenario.World.stagedServices ⟨false, false, [], 5⟩ 17
      [stateManifest .null] .unloaded
      ⟨⟨2, .still slowMemory lateFeed⟩, ⟨true, []⟩⟩).1 failure hr
    have hlast := ht.last_eq (.attempt (.deadlineExceeded "ca.yaml")) (by decide +kernel)
    exact ⟨failure, rfl, by decide +kernel, hlast.trans (by decide +kernel), hneeds⟩

end ManifestSync
