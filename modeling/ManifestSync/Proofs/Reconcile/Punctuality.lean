import ManifestSync.Proofs.Reconcile.Chronicle
import ManifestSync.Proofs.Reconcile.LateKinds

namespace ManifestSync

variable {σ : Type} {services : Services σ} {options : Options} {resolver : Resolver}
  {deadline : Nat} {update : Bool}

/-- The request is sent by the deadline, and before it if it asks for an object. -/
structure Exchange.Timely (deadline : Nat) (x : Exchange) : Prop where
  sent_le : x.sent ≤ deadline
  get_lt : x.request.verb = .get → x.sent < deadline

theorem Dialogue.Holds.sent_le {α : Type} {d : Dialogue α} {m : Moment σ} {held : Conversation σ α}
    (h : d.Holds services deadline m held) (hm : m.now ≤ deadline) :
    ∀ x ∈ held.exchanges, x.sent ≤ deadline := by
  induction h with
  | done => exact fun _ hx => absurd hx List.not_mem_nil
  | @answered r next m answer m' rest ha _ ih =>
    have hn := (Activity.now_run services.drift deadline (services.send r m.world) m.now).2
    rw [ha, Nat.max_eq_right hm] at hn
    exact List.forall_mem_cons.mpr ⟨hm, ih hn⟩
  | cutOff => exact List.forall_mem_singleton.mpr hm

namespace Manifest

theorem apply_all_of_ask (update : Bool) (m : Manifest) (e : Endpoint) :
    ∃ next, m.apply update e = .ask (.get e m.inNamespace? m.name) next ∧
      ∀ answer, (next answer).All fun r => r.verb ≠ .get := by
  obtain ⟨next, he, hn⟩ := m.apply_continues update e
  refine ⟨next, he, fun answer => ?_⟩
  have hc := hn answer
  generalize next answer = d at hc ⊢
  cases hc with
  | unchanged | refused => trivial
  | patch | create => exact Request.lastly_all nofun _ _

namespace Attempts

variable {m : Manifest} {moment moment' : Moment σ} {a : Attempt}

theorem timely (h : m.Attempts services update resolver deadline moment a moment')
    (hm : moment.now < deadline) : ∀ x ∈ a.exchanges, x.Timely deadline := by
  have hheld : ∀ {e held}, (m.apply update e).Holds services deadline moment held →
      ∀ x ∈ held.exchanges, x.Timely deadline := by
    intro e held hh
    have hs := hh.sent_le (Nat.le_of_lt hm)
    obtain ⟨next, he, hnext⟩ := m.apply_all_of_ask update e
    rw [he] at hh
    cases hh with
    | answered ha hrest =>
      obtain ⟨hfirst, hs⟩ := List.forall_mem_cons.mp hs
      have hv := hrest.forall_request (hnext _)
      refine List.forall_mem_cons.mpr ⟨⟨hfirst, fun _ => hm⟩, fun x hx => ⟨hs x hx, fun hg => ?_⟩⟩
      exact absurd hg (hv x hx)
    | cutOff => exact List.forall_mem_singleton.mpr ⟨Nat.le_of_lt hm, fun _ => hm⟩
  cases h with
  | unresolved => exact fun _ hx => absurd hx List.not_mem_nil
  | applied _ hh | refused _ hh | cutOff _ hh => exact hheld hh

end Attempts

end Manifest

theorem Sweeps.deadline_le {pending : List Manifest} {s : Stage σ} {made : Sweep σ}
    (h : Sweeps services options resolver deadline pending s made)
    (hi : made.report.interrupted = true) : deadline ≤ made.stage.moment.now := by
  induction h with
  | nil => cases hi
  | late hl => exact hl
  | success _ _ _ _ ih => exact ih ((afterSuccess_interrupted ..).symm.trans hi)
  | cutOff _ ha hr he => exact (Stage.attempts ha).deadline_le hr he
  | failure _ _ _ _ _ ih => exact ih hi

theorem Sweeps.attempts_of_late {pending : List Manifest} {s : Stage σ} {made : Sweep σ}
    (h : Sweeps services options resolver deadline pending s made)
    (hl : deadline ≤ s.moment.now) : made.attempts = [] := by
  cases h with
  | nil | late => rfl
  | success hn | cutOff hn | failure hn => exact absurd hl (Nat.not_le.mpr hn)

namespace Progress

variable {p q : Progress σ} {r : Round} {rounds : List Round} {verdict : Verdict} {finished : Bool}

theorem Steps.started_eq (h : Steps services options deadline p r verdict q) :
    r.started = p.stage.moment.now := by
  cases h <;> rfl

theorem Refreshes.rounds_eq {refresh? : Option Refresh}
    (h : Refreshes services options deadline p refresh? q) :
    q.summary.rounds = p.summary.rounds := by
  cases h <;> rfl

theorem Steps.rounds_eq (h : Steps services options deadline p r verdict q) :
    q.summary.rounds = p.summary.rounds + 1 := by
  cases h with
  | cutOff hr | failed hr | swept hr => exact hr.rounds_eq

theorem Steps.deadline_le (h : Steps services options deadline p r .outOfTime q) :
    deadline ≤ q.stage.moment.now := by
  generalize hv : Verdict.outOfTime = verdict at h
  cases h with
  | failed => cases hv
  | cutOff hr =>
    cases hr with
    | cutOff _ ha => exact Activity.deadline_le_of_run ha
  | @swept refresh? q made _ _ hs =>
    refine hs.deadline_le ?_
    unfold verdictOf at hv
    split at hv
    · cases hv
    · split at hv
      · next hi => exact hi
      · cases hv

theorem Steps.attempts_of_late (h : Steps services options deadline p r verdict q)
    (hl : deadline ≤ p.stage.moment.now) : r.attempts = [] := by
  cases h with
  | cutOff | failed => rfl
  | swept hr _ hs =>
    have hn := ((services.clock_frame deadline).refreshes hr).1
    exact hs.attempts_of_late (Nat.le_trans hl hn)

theorem Runs.rounds_eq (h : Runs services options deadline p rounds finished q) :
    q.summary.rounds = p.summary.rounds + rounds.length := by
  induction h with
  | spent => rfl
  | finished hs | outOfTime hs | late hs => exact hs.rounds_eq
  | @again p r q rs _ last hs _ _ ih =>
    have hq : (q.pause services options deadline).summary.rounds = q.summary.rounds := rfl
    rw [ih, hq, hs.rounds_eq, List.length_cons]
    omega

theorem Runs.now_add_lt (h : Runs services options deadline p rounds finished q) {n : Nat}
    (hn : rounds.length = n + 2) :
    p.stage.moment.now + (n + 1) * options.retryInterval < deadline := by
  induction h generalizing n with
  | spent | finished | outOfTime | late => simp at hn
  | @again p r q rs _ last hs hl _ ih =>
    have hle := hs.now_le
    have hp := now_pause services options deadline q
    cases n with
    | zero => omega
    | succ n =>
      have hi := ih (Nat.succ.inj hn)
      rw [Nat.succ_mul]
      omega

theorem Runs.length_le (h : Runs services options deadline p rounds finished q)
    (hi : 0 < options.retryInterval) :
    rounds.length ≤ max 1 ((deadline - p.stage.moment.now) ⌈/⌉ options.retryInterval) := by
  match hn : rounds.length with
  | 0 => exact Nat.zero_le _
  | 1 => exact Nat.le_max_left _ _
  | n + 2 =>
    have hlt := (lt_ceilDiv_iff hi).mpr (h.now_add_lt hn)
    exact Nat.le_trans hlt (Nat.le_max_right _ _)

theorem Runs.started_lt (h : Runs services options deadline p rounds finished q)
    (hp : p.stage.moment.now < deadline) : ∀ r ∈ rounds, r.started < deadline := by
  induction h with
  | spent => exact fun _ hr => absurd hr List.not_mem_nil
  | finished hs | outOfTime hs | late hs =>
    rw [← hs.started_eq] at hp
    exact List.forall_mem_singleton.mpr hp
  | again hs hl _ ih =>
    rw [← hs.started_eq] at hp
    exact List.forall_mem_cons.mpr ⟨hp, ih hl⟩

theorem Runs.tail_started_lt (h : Runs services options deadline p rounds finished q) :
    ∀ r ∈ rounds.tail, r.started < deadline := by
  cases h with
  | spent | finished | outOfTime | late => exact fun _ hr => absurd hr List.not_mem_nil
  | again _ hl hr => exact hr.started_lt hl

theorem Runs.deadline_le (h : Runs services options deadline p rounds false q)
    (hi : 0 < options.retryInterval) : deadline ≤ q.stage.moment.now := by
  generalize hf : false = finished at h
  induction h with
  | spent hz => omega
  | finished => cases hf
  | outOfTime hs => exact hs.deadline_le
  | late _ hl => exact hl
  | again _ _ _ ih => exact ih hf

theorem Runs.attempts_of_late (h : Runs services options deadline p rounds finished q)
    (hl : deadline ≤ p.stage.moment.now) : rounds.flatMap Round.attempts = [] := by
  cases h with
  | spent => rfl
  | finished hs | outOfTime hs | late hs =>
    rw [List.flatMap_singleton]
    exact hs.attempts_of_late hl
  | @again _ r p' _ _ _ hs hlt =>
    have hn := hs.now_le
    have hp := now_pause services options deadline p'
    omega

/-- A limit that the time left cannot reach is no limit. -/
theorem rounds_add (services : Services σ) (options : Options) (deadline limit more : Nat)
    (hi : 0 < options.retryInterval) (p : Progress σ)
    (hl : (deadline - p.stage.moment.now) / options.retryInterval < limit) :
    p.rounds services options deadline (limit + more) =
      p.rounds services options deadline limit := by
  induction limit generalizing p with
  | zero => exact absurd hl (Nat.not_lt_zero _)
  | succ limit ih =>
    rw [Nat.succ_add]
    rcases hr : p.round services options deadline with ⟨r, verdict, q⟩
    have hs : Steps services options deadline p r verdict q := by
      have hround := round_steps services options deadline p
      rwa [hr] at hround
    cases verdict with
    | finished | outOfTime => simp only [rounds, hr]
    | again =>
      by_cases hd : deadline ≤ (q.pause services options deadline).stage.moment.now
      · simp only [rounds, hr, hd, ↓reduceIte]
      · have hn := hs.now_le
        have hp := now_pause services options deadline q
        have hq := div_lt_of_pause hi (by omega) (Nat.lt_of_not_le hd) hl
        simp only [rounds, hr, hd, ↓reduceIte, ih _ hq]

end Progress

theorem Services.timely_chronicle (services : Services σ) (options : Options) (deadline : Nat) :
    services.Chronicle options deadline (fun _ => True) fun attempts _ _ =>
      ∀ a ∈ attempts, ∀ x ∈ a.exchanges, x.Timely deadline where
  nil _ _ ha := absurd ha List.not_mem_nil
  append h h' := List.forall_mem_append.mpr ⟨h, h'⟩
  pause _ _ _ _ ha := absurd ha List.not_mem_nil
  discover _ _ ha := absurd ha List.not_mem_nil
  attempt _ hn ha := List.forall_mem_singleton.mpr (ha.timely hn)

def RunRecord.exchanges (made : RunRecord σ) : List Exchange :=
  made.attempts.flatMap Attempt.exchanges

structure Punctual (deadline start interval : Nat) (manifests : List Manifest)
    (made : RunRecord σ) : Prop where
  now_le : made.stage.moment.now ≤ max start deadline
  /-- No run gives up before its deadline. -/
  deadline_le : ∀ failure, made.result = .error failure → deadline ≤ made.stage.moment.now
  length_le : made.rounds.length ≤ max 1 ((deadline - start) ⌈/⌉ interval)
  rounds_eq : ∀ summary, made.result = .ok summary → summary.rounds = made.rounds.length
  timely : ∀ x ∈ made.exchanges, x.Timely deadline
  /-- Every later round, with its call of the discovery service, begins before the deadline. -/
  started_lt : ∀ r ∈ made.rounds.tail, r.started < deadline
  expired : deadline ≤ start → manifests ≠ [] →
    made.exchanges = [] ∧ ∃ failure, made.result = .error failure ∧ failure.remaining = manifests

theorem punctual_nil (deadline interval : Nat) (resolver : Resolver) (stage : Stage σ) :
    Punctual deadline stage.moment.now interval [] ⟨[], .ok .zero, resolver, stage⟩ where
  now_le := Nat.le_max_left _ _
  deadline_le := nofun
  length_le := Nat.zero_le _
  rounds_eq := by
    rintro summary ⟨⟩
    rfl
  timely := by simp [RunRecord.exchanges, RunRecord.attempts]
  started_lt := by simp
  expired _ h := absurd rfl h

theorem Progress.Runs.punctual {manifests : List Manifest} {stage : Stage σ} {rounds : List Round}
    {finished : Bool} {last : Progress σ} (hne : manifests ≠ [])
    (hr : Runs services options deadline (.start manifests resolver stage) rounds finished last)
    (hi : 0 < options.retryInterval) :
    Punctual deadline stage.moment.now options.retryInterval manifests
      (.ofRounds rounds finished last) := by
  have hclock := (services.clock_frame deadline).runs (fun _ _ => Dialogue.all_true _) hr
  have htimely := (services.timely_chronicle options deadline).runs (fun _ _ => trivial) hr
  have hpending := hr.pending_eq
  have hfinished := hr.finished_iff hne
  constructor
  case now_le => exact hclock.2
  case deadline_le =>
    intro failure hf
    cases finished with
    | true => cases hf
    | false => exact hr.deadline_le hi
  case length_le => exact hr.length_le hi
  case rounds_eq =>
    intro summary hs
    cases finished with
    | false => cases hs
    | true =>
      cases hs
      rw [hr.rounds_eq]
      exact Nat.zero_add _
  case timely =>
    intro x hx
    obtain ⟨a, ha, hxa⟩ := List.mem_flatMap.mp hx
    exact htimely a ha x hxa
  case started_lt => exact hr.tail_started_lt
  case expired =>
    intro hl _
    have hnone := hr.attempts_of_late hl
    have hleft : last.pending = manifests := by
      have hlen := length_pendingAfter hr.fits
      rw [hnone, List.countP_nil, Nat.zero_add, ← hpending] at hlen
      exact (hpending ▸ pendingAfter_sublist manifests rounds).eq_of_length hlen
    cases finished with
    | true => exact absurd (hleft ▸ hfinished.mp rfl) hne
    | false =>
      refine ⟨?_, _, rfl, hleft⟩
      unfold RunRecord.exchanges RunRecord.attempts RunRecord.ofRounds
      rw [hnone]
      rfl

theorem Ran.punctual {manifests : List Manifest} {stage : Stage σ} {made : RunRecord σ}
    (h : Ran services options deadline manifests resolver stage made)
    (hi : 0 < options.retryInterval) :
    Punctual deadline stage.moment.now options.retryInterval manifests made := by
  cases h with
  | idle hnil =>
    subst hnil
    exact punctual_nil deadline _ resolver stage
  | rounds hne _ hr => exact hr.punctual hne hi

/-- Runs that pause between their rounds are over by the deadline, whatever the services do, and no
limit on the number of rounds is what ends them. -/
theorem run_punctual (services : Services σ) (options : Options)
    (hi : 0 < options.retryInterval) (deadline : Nat) (manifests : List Manifest)
    (resolver : Resolver) (stage : Stage σ) :
    Punctual deadline stage.moment.now options.retryInterval manifests
      (run services options deadline manifests resolver stage) ∧
    ∀ more,
      let limit := roundLimit options.retryInterval (deadline - stage.moment.now)
      (Progress.start manifests resolver stage).rounds services options deadline (limit + more) =
        (Progress.start manifests resolver stage).rounds services options deadline limit := by
  constructor
  · exact (run_ran services options deadline manifests resolver stage).punctual hi
  · intro more limit
    refine Progress.rounds_add services options deadline limit more hi _ ?_
    have hl : limit = (deadline - stage.moment.now) / options.retryInterval + 1 :=
      if_neg (Nat.pos_iff_ne_zero.mp hi)
    rw [hl]
    exact Nat.lt_succ_self _

def slowMemory : Memory := { Memory.empty with delays := [(.get, 30)] }

theorem run_punctual_slowly :
    0 < (Options.mk false false [] 5).retryInterval ∧
      let made := run Scenario.World.stagedServices ⟨false, false, [], 5⟩ 17
        [stateManifest (.text "Managed")] .unloaded
        ⟨⟨2, .still slowMemory lateFeed⟩, ⟨true, []⟩⟩
      made.stage.moment.now ≤ 17 ∧ made.rounds.length ≤ 3 ∧
        made.exchanges.map (·.sent) = [7] ∧
        ∀ x ∈ made.exchanges, x.request.verb = .get → x.sent < 17 := by
  have hi : 0 < (Options.mk false false [] 5).retryInterval := by decide
  obtain ⟨hp, _⟩ := run_punctual Scenario.World.stagedServices ⟨false, false, [], 5⟩ hi 17
    [stateManifest (.text "Managed")] .unloaded ⟨⟨2, .still slowMemory lateFeed⟩, ⟨true, []⟩⟩
  have hlen := hp.length_le
  have hmax : max 1 ((17 - 2) ⌈/⌉ 5) = 3 := by decide
  exact ⟨hi, hp.now_le, hmax ▸ hlen, by decide +kernel, fun x hx => (hp.timely x hx).get_lt⟩

end ManifestSync
