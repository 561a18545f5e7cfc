import ManifestSync.Proofs.Reconcile.Apply
import ManifestSync.Proofs.Reconcile.Rounds

namespace ManifestSync

variable {σ α : Type} {services : Services σ} {options : Options} {resolver : Resolver}
  {deadline : Nat} {P : Request → Prop} {R : Moment σ → Moment σ → Prop}

def Dialogue.All (P : Request → Prop) : Dialogue α → Prop
  | .done _ => True
  | .ask r next => P r ∧ ∀ answer, (next answer).All P

theorem Dialogue.All.mono {d : Dialogue α} {Q : Request → Prop} (h : d.All P)
    (hpq : ∀ r, P r → Q r) : d.All Q := by
  induction d with
  | done result => trivial
  | ask r next ih => exact ⟨hpq r h.1, fun answer => ih answer (h.2 answer)⟩

theorem Request.lastly_all {r : Request} (h : P r) (outcome : Outcome) (target : String) :
    (r.lastly outcome target).All P :=
  ⟨h, fun answer => by cases answer <;> trivial⟩

theorem Manifest.apply_all {m : Manifest} {e : Endpoint} {update : Bool}
    (hget : P (.get e m.inNamespace? m.name)) (hcreate : P (.create e m.inNamespace? m.object))
    (hpatch : update = true → ∀ live patch, updatePatch m.object live = some patch →
      P (.patch e m.inNamespace? m.name patch)) : (m.apply update e).All P := by
  obtain ⟨next, he, hn⟩ := m.apply_continues update e
  rw [he]
  refine ⟨hget, fun answer => ?_⟩
  have hc := hn answer
  generalize next answer = d at hc ⊢
  cases hc with
  | unchanged | refused => trivial
  | patch hu hp => exact Request.lastly_all (hpatch hu _ _ hp) _ _
  | create => exact Request.lastly_all hcreate _ _

/-- Every moment is related to the one at which a call leaves off, if only such requests are sent,
and to the one at which a pause ends. -/
structure Services.Frame (services : Services σ) (deadline : Nat) (P : Request → Prop)
    (R : Moment σ → Moment σ → Prop) : Prop where
  refl : ∀ m, R m m
  trans : ∀ {m m' m''}, R m m' → R m' m'' → R m m''
  pause : ∀ m instant, instant ≤ deadline → R m (m.until services.drift instant)
  discover : ∀ m, R m ((services.discover m.world).run services.drift deadline m.now).2
  send : ∀ r m, P r → R m ((services.send r m.world).run services.drift deadline m.now).2

namespace Services.Frame

theorem hold (h : services.Frame deadline P R) {d : Dialogue α} (hd : d.All P) (m : Moment σ) :
    R m (d.hold services deadline m).moment := by
  induction d generalizing m with
  | done result => exact h.refl m
  | ask r next ih =>
    obtain ⟨hr, hn⟩ := hd
    have hw := h.send r m hr
    unfold Dialogue.hold
    split
    · next answer m' he =>
      rw [he] at hw
      exact h.trans hw (ih answer (hn answer) m')
    · next m' he =>
      rw [he] at hw
      exact hw

theorem refreshes (h : services.Frame deadline P R) {p q : Progress σ} {refresh? : Option Refresh}
    (hr : Progress.Refreshes services options deadline p refresh? q) :
    R p.stage.moment q.stage.moment := by
  have hw := h.discover p.stage.moment
  cases hr with
  | idle => exact h.refl _
  | loaded _ ha | failed _ ha | cutOff _ ha =>
    rw [ha] at hw
    exact hw

variable (hP : ∀ (m : Manifest) (e : Endpoint), (m.apply options.update e).All P)

include hP

theorem attempt (h : services.Frame deadline P R) {m : Manifest} {s s' : Stage σ} {a : Attempt}
    (ha : s.attempt services options resolver deadline m = (a, s')) : R s.moment s'.moment := by
  obtain rfl : (s.attempt services options resolver deadline m).2 = s' := congrArg Prod.snd ha
  unfold Stage.attempt Manifest.attempt
  cases resolver.resolve m.kind with
  | error cause => exact h.refl _
  | ok e => exact h.hold (hP m e) s.moment

theorem sweeps (h : services.Frame deadline P R) {pending : List Manifest} {s : Stage σ}
    {made : Sweep σ} (hs : Sweeps services options resolver deadline pending s made) :
    R s.moment made.stage.moment := by
  induction hs with
  | nil | late => exact h.refl _
  | success _ ha _ _ ih | failure _ ha _ _ _ ih => exact h.trans (h.attempt hP ha) ih
  | cutOff _ ha => exact h.attempt hP ha

theorem steps (h : services.Frame deadline P R) {p q : Progress σ} {r : Round} {verdict : Verdict}
    (hs : Progress.Steps services options deadline p r verdict q) :
    R p.stage.moment q.stage.moment := by
  cases hs with
  | cutOff hr | failed hr => exact h.refreshes (p := p.counted) hr
  | swept hr _ hm => exact h.trans (h.refreshes (p := p.counted) hr) (h.sweeps hP hm)

theorem runs (h : services.Frame deadline P R) {p q : Progress σ} {rounds : List Round}
    {finished : Bool} (hr : Progress.Runs services options deadline p rounds finished q) :
    R p.stage.moment q.stage.moment := by
  induction hr with
  | spent => exact h.refl _
  | finished hs | outOfTime hs => exact h.steps hP hs
  | late hs => exact h.trans (h.steps hP hs) (h.pause _ _ (Nat.min_le_right _ _))
  | again hs _ _ ih =>
    exact h.trans (h.steps hP hs) (h.trans (h.pause _ _ (Nat.min_le_right _ _)) ih)

end Services.Frame

def Activity.Within (R : σ → σ → Prop) : σ → Activity σ α → Prop
  | s, .done _ t => R s t
  | s, .wait _ t resume => R s t ∧ ∀ u, (resume u).Within R u
  | s, .turn t resume => R s t ∧ ∀ u, (resume u).Within R u

/-- Every world is related to what the services make of it and to what it becomes by itself. -/
structure Services.Within (services : Services σ) (P : Request → Prop) (R : σ → σ → Prop) :
    Prop where
  refl : ∀ s, R s s
  trans : ∀ {s t u}, R s t → R t u → R s u
  drift : ∀ before after s, R s (services.drift before after s)
  discover : ∀ s, (services.discover s).Within R s
  send : ∀ r s, P r → (services.send r s).Within R s

namespace Services.Within

variable {R : σ → σ → Prop}

theorem pause (h : services.Within P R) (m : Moment σ) (instant : Nat) :
    R m.world (m.until services.drift instant).world := by
  unfold Moment.until
  split
  · exact h.drift _ _ _
  · exact h.refl _

theorem run (h : services.Within P R) {call : Activity σ α} {s : σ} (hc : call.Within R s)
    (deadline now : Nat) : R s (call.run services.drift deadline now).2.world := by
  induction call generalizing s now with
  | done answer t => exact hc
  | wait delay t resume ih =>
    obtain ⟨ht, hr⟩ := hc
    unfold Activity.run
    split
    · have hw := h.pause ⟨now, t⟩ (now + delay)
      exact h.trans ht (h.trans hw (ih _ (hr _) _))
    · exact h.trans ht (h.pause ⟨now, t⟩ deadline)
  | turn t resume ih =>
    obtain ⟨ht, hr⟩ := hc
    unfold Activity.run
    split
    · exact h.trans ht (ih t (hr t) now)
    · exact ht

theorem frame (h : services.Within P R) (deadline : Nat) :
    services.Frame deadline P fun m m' => R m.world m'.world where
  refl m := h.refl m.world
  trans := h.trans
  pause m instant _ := h.pause m instant
  discover m := h.run (h.discover m.world) deadline m.now
  send r m hr := h.run (h.send r m.world hr) deadline m.now

end Services.Within

end ManifestSync
