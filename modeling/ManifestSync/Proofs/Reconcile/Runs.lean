import Mathlib.Algebra.Order.Floor.Div
import ManifestSync.Proofs.Reconcile.Frame

namespace ManifestSync

variable {σ α : Type} {options : Options} {deadline : Nat}

theorem Moment.now_until (drift : Drift σ) (m : Moment σ) (instant : Nat) :
    (m.until drift instant).now = max m.now instant := by
  unfold Moment.until
  split
  · next h => exact (Nat.max_eq_right (Nat.le_of_lt h)).symm
  · next h => exact (Nat.max_eq_left (Nat.le_of_not_lt h)).symm

theorem Activity.now_run (drift : Drift σ) (deadline : Nat) (call : Activity σ α) (now : Nat) :
    now ≤ (call.run drift deadline now).2.now ∧
      (call.run drift deadline now).2.now ≤ max now deadline := by
  induction call generalizing now with
  | done answer s => exact ⟨Nat.le_refl _, Nat.le_max_left _ _⟩
  | wait delay s resume ih =>
    unfold Activity.run
    split
    · next hd =>
      have hu := Moment.now_until drift ⟨now, s⟩ (now + delay)
      have hi := ih ((Moment.mk now s).until drift (now + delay)).world (max now (now + delay))
      simp only [hu]
      omega
    · have hu := Moment.now_until drift ⟨now, s⟩ deadline
      simp only [hu]
      omega
  | turn s resume ih =>
    unfold Activity.run
    split
    · exact ih s now
    · exact ⟨Nat.le_refl _, Nat.le_max_left _ _⟩

/-- Whatever the services do, the clock does not go back and not beyond the deadline. -/
theorem Services.clock_frame (services : Services σ) (deadline : Nat) :
    services.Frame deadline (fun _ => True) fun m m' => m.now ≤ m'.now ∧
      m'.now ≤ max m.now deadline where
  refl m := ⟨Nat.le_refl _, Nat.le_max_left _ _⟩
  trans h h' := by omega
  pause m instant hi := by
    have hu := Moment.now_until services.drift m instant
    omega
  discover m := Activity.now_run services.drift deadline _ m.now
  send r m _ := Activity.now_run services.drift deadline _ m.now

theorem Dialogue.all_true (d : Dialogue α) : d.All fun _ => True := by
  induction d with
  | done result => trivial
  | ask r next ih => exact ⟨trivial, ih⟩

/-- A round that begins so many intervals after the start begins before the deadline exactly if its
number is below the quotient, rounded up. -/
theorem lt_ceilDiv_iff {start interval n : Nat} (hi : 0 < interval) :
    n < (deadline - start) ⌈/⌉ interval ↔ start + n * interval < deadline := by
  rw [← not_le, ceilDiv_le_iff_le_mul hi, Nat.mul_comm]
  omega

namespace Progress

theorem Steps.now_le {services : Services σ} {p q : Progress σ} {r : Round} {verdict : Verdict}
    (h : Steps services options deadline p r verdict q) :
    p.stage.moment.now ≤ q.stage.moment.now :=
  ((services.clock_frame deadline).steps (fun _ _ => Dialogue.all_true _) h).1

theorem now_pause (services : Services σ) (options : Options) (deadline : Nat) (p : Progress σ) :
    (p.pause services options deadline).stage.moment.now =
      max p.stage.moment.now (min (p.stage.moment.now + options.retryInterval) deadline) :=
  Moment.now_until services.drift p.stage.moment _

theorem div_lt_of_pause {interval now later limit : Nat} (hi : 0 < interval)
    (hl : now + interval ≤ later) (hd : later < deadline)
    (h : (deadline - now) / interval < limit + 1) : (deadline - later) / interval < limit := by
  have hstep : (deadline - now) / interval = (deadline - now - interval) / interval + 1 :=
    Nat.div_eq_sub_div hi (by omega)
  have hle : (deadline - later) / interval ≤ (deadline - now - interval) / interval :=
    Nat.div_le_div_right (by omega)
  rw [hstep] at h
  exact Nat.lt_of_le_of_lt hle (Nat.lt_of_succ_lt_succ h)

theorem rounds_runs (services : Services σ) (options : Options) (deadline limit : Nat)
    (p : Progress σ) (hl : options.retryInterval ≠ 0 →
      (deadline - p.stage.moment.now) / options.retryInterval < limit) :
    Runs services options deadline p (p.rounds services options deadline limit).1
      (p.rounds services options deadline limit).2.1
      (p.rounds services options deadline limit).2.2 := by
  induction limit generalizing p with
  | zero => exact .spent (Decidable.byContradiction fun h => absurd (hl h) (Nat.not_lt_zero _))
  | succ limit ih =>
    rcases hr : p.round services options deadline with ⟨r, verdict, q⟩
    have hs : Steps services options deadline p r verdict q := by
      have hround := round_steps services options deadline p
      rwa [hr] at hround
    cases verdict with
    | finished =>
      simp only [rounds, hr]
      exact .finished hs
    | outOfTime =>
      simp only [rounds, hr]
      exact .outOfTime hs
    | again =>
      by_cases hd : deadline ≤ (q.pause services options deadline).stage.moment.now
      · simp only [rounds, hr, hd, ↓reduceIte]
        exact .late hs hd
      · simp only [rounds, hr, hd, ↓reduceIte]
        refine .again hs (Nat.lt_of_not_le hd) (ih _ fun hi => ?_)
        have hn := hs.now_le
        have hp := now_pause services options deadline q
        exact div_lt_of_pause (Nat.pos_of_ne_zero hi) (by omega) (by omega) (hl hi)

theorem rounds_ne_nil (services : Services σ) (options : Options) (deadline limit : Nat)
    (p : Progress σ) : (p.rounds services options deadline (limit + 1)).1 ≠ [] := by
  rcases hr : p.round services options deadline with ⟨r, _ | _ | _, q⟩
  · simp [rounds, hr]
  · simp [rounds, hr]
  · by_cases hd : deadline ≤ (q.pause services options deadline).stage.moment.now
    · simp [rounds, hr, hd]
    · simp [rounds, hr, hd]

end Progress

theorem roundLimit_pos (retryInterval span : Nat) : 0 < roundLimit retryInterval span := by
  unfold roundLimit patience
  split
  · omega
  · exact Nat.succ_pos _

theorem Progress.rounds_runs_beyond (services : Services σ) (options : Options) (deadline : Nat)
    (p : Progress σ) (more : Nat) :
    let limit := roundLimit options.retryInterval (deadline - p.stage.moment.now) + more
    let (rounds, finished, last) := p.rounds services options deadline limit
    Runs services options deadline p rounds finished last ∧ rounds ≠ [] := by
  intro limit
  obtain ⟨fewer, hl⟩ : ∃ fewer, limit = fewer + 1 :=
    Nat.exists_eq_add_one_of_ne_zero (Nat.ne_of_gt (Nat.add_pos_left (roundLimit_pos ..) more))
  have hlimit : options.retryInterval ≠ 0 →
      (deadline - p.stage.moment.now) / options.retryInterval < limit := by
    intro hi
    show _ < roundLimit _ _ + more
    rw [roundLimit, if_neg hi]
    omega
  refine ⟨rounds_runs services options deadline limit p hlimit, ?_⟩
  rw [hl]
  exact rounds_ne_nil services options deadline fewer p

/-- What is recorded of a run that may take some more rounds than its limit. -/
def runBeyond (services : Services σ) (options : Options) (deadline : Nat)
    (manifests : List Manifest) (resolver : Resolver) (stage : Stage σ) (more : Nat) :
    RunRecord σ :=
  let limit := roundLimit options.retryInterval (deadline - stage.moment.now)
  let (rounds, finished, last) :=
    Progress.rounds services options deadline (limit + more) (.start manifests resolver stage)
  .ofRounds rounds finished last

variable {services : Services σ} {manifests : List Manifest} {resolver : Resolver} {stage : Stage σ}
  {made : RunRecord σ}

/-- The record is one of a run on the manifests, however many rounds it may take from its limit on. -/
inductive Ran (services : Services σ) (options : Options) (deadline : Nat)
    (manifests : List Manifest) (resolver : Resolver) (stage : Stage σ) : RunRecord σ → Prop where
  | idle : manifests = [] →
      Ran services options deadline manifests resolver stage ⟨[], .ok .zero, resolver, stage⟩
  | rounds {rounds finished last} : manifests ≠ [] → rounds ≠ [] →
      Progress.Runs services options deadline (.start manifests resolver stage) rounds finished
        last →
      Ran services options deadline manifests resolver stage (.ofRounds rounds finished last)

theorem Ran.exists_runs (h : Ran services options deadline manifests resolver stage made)
    (hne : manifests ≠ []) : ∃ rounds finished last,
      Progress.Runs services options deadline (.start manifests resolver stage) rounds finished
        last ∧ made = .ofRounds rounds finished last := by
  cases h with
  | idle hnil => exact absurd hnil hne
  | rounds _ _ hr => exact ⟨_, _, _, hr, rfl⟩

theorem runBeyond_ran (services : Services σ) (options : Options) (deadline : Nat)
    (h : manifests ≠ []) (resolver : Resolver) (stage : Stage σ) (more : Nat) :
    Ran services options deadline manifests resolver stage
      (runBeyond services options deadline manifests resolver stage more) := by
  obtain ⟨hr, hne⟩ := Progress.rounds_runs_beyond services options deadline
    (.start manifests resolver stage) more
  exact .rounds h hne hr

theorem run_eq (services : Services σ) (options : Options) (deadline : Nat)
    (h : manifests ≠ []) (resolver : Resolver) (stage : Stage σ) :
    run services options deadline manifests resolver stage =
      runBeyond services options deadline manifests resolver stage 0 := by
  have he : manifests.isEmpty = false := by simpa using h
  simp only [run, he, Bool.false_eq_true, ↓reduceIte]
  rfl

theorem run_ran (services : Services σ) (options : Options) (deadline : Nat)
    (manifests : List Manifest) (resolver : Resolver) (stage : Stage σ) :
    Ran services options deadline manifests resolver stage
      (run services options deadline manifests resolver stage) := by
  by_cases hne : manifests = []
  · subst hne
    exact .idle rfl
  · rw [run_eq services options deadline hne]
    exact runBeyond_ran services options deadline hne resolver stage 0

theorem run_and_beyond {P : RunRecord σ → Prop}
    (h : ∀ made, Ran services options deadline manifests resolver stage made → P made) :
    P (run services options deadline manifests resolver stage) ∧ (manifests ≠ [] →
      ∀ more, P (runBeyond services options deadline manifests resolver stage more)) :=
  ⟨h _ (run_ran services options deadline manifests resolver stage), fun hne more =>
    h _ (runBeyond_ran services options deadline hne resolver stage more)⟩

theorem Services.Frame.run {P : Request → Prop} {R : Moment σ → Moment σ → Prop}
    (h : services.Frame deadline P R)
    (hP : ∀ (m : Manifest) (e : Endpoint), (m.apply options.update e).All P)
    (hr : Ran services options deadline manifests resolver stage made) :
    R stage.moment made.stage.moment := by
  cases hr with
  | idle => exact h.refl _
  | rounds _ _ hr => exact h.runs hP hr

end ManifestSync
