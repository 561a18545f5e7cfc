import ManifestSync.Proofs.Manifest.Named
import ManifestSync.Proofs.Reconcile.Punctuality
import ManifestSync.Proofs.Scenario.Log
import ManifestSync.Scenario.Session

namespace ManifestSync

open Scenario

variable {σ : Type} {services : Services σ} {options : Options} {resolver : Resolver}
  {deadline : Nat} {update : Bool}

/-- Exchanges of which each is warranted, by the one right before it if need be. -/
inductive Trail (W : Option Exchange → Exchange → Prop) :
    Option Exchange → List Exchange → Prop where
  | nil {previous?} : Trail W previous? []
  | cons {previous? x later} : W previous? x → Trail W (some x) later →
      Trail W previous? (x :: later)

namespace Trail

variable {α : Type} {W W' : Option Exchange → Exchange → Prop} {previous? : Option Exchange}
  {xs ys : List Exchange}

theorem mono (h : Trail W previous? xs) (hw : ∀ p, ∀ x ∈ xs, W p x → W' p x) :
    Trail W' previous? xs := by
  induction h with
  | nil => exact .nil
  | cons hx _ ih =>
    obtain ⟨hfirst, hlater⟩ := List.forall_mem_cons.mp fun x hx p => hw p x hx
    exact .cons (hfirst _ hx) (ih fun p x hx => hlater x hx p)

def Lasting (W : Option Exchange → Exchange → Prop) : Prop := ∀ x, W none x → ∀ p, W p x

theorem after (hw : Lasting W) (h : Trail W none xs) : Trail W previous? xs := by
  cases h with
  | nil => exact .nil
  | cons hx hlater => exact .cons (hw _ hx _) hlater

theorem append (hw : Lasting W) (h : Trail W previous? xs) (h' : Trail W none ys) :
    Trail W previous? (xs ++ ys) := by
  induction h with
  | nil => exact h'.after hw
  | cons hx _ ih => exact .cons hx ih

theorem flatMap (hw : Lasting W) {f : α → List Exchange} {as : List α}
    (h : ∀ a ∈ as, Trail W none (f a)) : Trail W none (as.flatMap f) := by
  induction as with
  | nil => exact .nil
  | cons a as ih =>
    obtain ⟨ha, hlater⟩ := List.forall_mem_cons.mp h
    rw [List.flatMap_cons]
    exact ha.append hw (ih hlater)

theorem warranted (h : Trail W previous? xs) {earlier later : List Exchange} {x : Exchange}
    (hs : xs = earlier ++ x :: later) : W (earlier.getLast?.or previous?) x := by
  induction h generalizing earlier with
  | nil => simp at hs
  | @cons previous? y _ hy _ ih =>
    cases earlier with
    | nil =>
      obtain ⟨rfl, _⟩ := List.cons.inj hs
      exact hy
    | cons z earlier =>
      obtain ⟨rfl, hlater⟩ := List.cons.inj hs
      have hlast : (y :: earlier).getLast?.or previous? = earlier.getLast?.or (some y) := by
        rw [List.getLast?_cons]
        cases earlier.getLast? <;> rfl
      exact hlast ▸ ih hlater

end Trail

/-- What may be asked about a manifest in a collection, after the exchange before. -/
inductive Warranted (update : Bool) (m : Manifest) (e : Endpoint) :
    Option Exchange → Request → Prop where
  | get {previous?} : Warranted update m e previous? (.get e m.inNamespace? m.name)
  | create {sent what} :
      Warranted update m e
        (some ⟨.get e m.inNamespace? m.name, sent, some (.error (.notFound what))⟩)
        (.create e m.inNamespace? m.object)
  | patch {sent live patch} : update = true → updatePatch m.object live = some patch →
      m.object.Updates patch →
      Warranted update m e (some ⟨.get e m.inNamespace? m.name, sent, some (.ok live)⟩)
        (.patch e m.inNamespace? m.name patch)

theorem Warranted.lasting {m : Manifest} {e : Endpoint} {r : Request}
    (h : Warranted update m e none r) (previous? : Option Exchange) :
    Warranted update m e previous? r := by
  cases h with
  | get => exact .get

structure Action.Concerns (a : Action) (m : Manifest) (e : Endpoint) : Prop where
  plural_eq : a.plural = e.plural
  inNamespace?_eq : a.inNamespace? = e.scopedNamespace m.inNamespace?
  name_eq : a.name = m.name

theorem Warranted.concerns {m : Manifest} {e : Endpoint} {previous? : Option Exchange}
    {r : Request} (h : Warranted update m e previous? r) (hn : m.Named) :
    (Action.ofRequest r).Concerns m e := by
  cases h with
  | get | patch => exact ⟨rfl, rfl, rfl⟩
  | create => exact ⟨rfl, rfl, hn.name_eq⟩

namespace Manifest

variable {m : Manifest} {e : Endpoint} {moment moment' : Moment σ} {a : Attempt}

theorem trail_last {W : Option Exchange → Exchange → Prop} {previous? : Option Exchange}
    {r : Request} {outcome : Outcome} {target : String}
    {held : Conversation σ (Except ApplyError Outcome)}
    (h : (r.lastly outcome target).Holds services deadline moment held)
    (hw : ∀ answer?, W previous? ⟨r, moment.now, answer?⟩) :
    Trail W previous? held.exchanges := by
  cases h with
  | cutOff => exact .cons (hw none) .nil
  | @answered _ _ _ answer _ _ _ hrest => cases answer <;> cases hrest <;> exact .cons (hw _) .nil

theorem trail_apply {held : Conversation σ (Except ApplyError Outcome)}
    (h : (m.apply update e).Holds services deadline moment held) :
    Trail (fun previous? x => Warranted update m e previous? x.request) none held.exchanges := by
  obtain ⟨next, he, hn⟩ := m.apply_continues update e
  rw [he] at h
  cases h with
  | cutOff => exact .cons .get .nil
  | @answered _ _ _ answer _ _ _ hrest =>
    refine .cons .get ?_
    have hc := hn answer
    generalize next answer = d at hc hrest
    cases hc with
    | unchanged | refused =>
      cases hrest
      exact .nil
    | patch hu hp => exact trail_last hrest fun _ => .patch hu hp (updates_of_updatePatch hp)
    | create => exact trail_last hrest fun _ => .create

theorem Attempts.trail
    (h : m.Attempts services update resolver deadline moment a moment') :
    Trail (fun previous? x => ∃ e, resolver.resolve m.kind = .ok e ∧
      Warranted update m e previous? x.request) none a.exchanges := by
  cases h with
  | unresolved => exact .nil
  | applied he hh | refused he hh | cutOff he hh =>
    exact (trail_apply hh).mono fun _ _ _ hw => ⟨_, he, hw⟩

end Manifest

theorem Dialogue.Holds.logs {α : Type} {d : Dialogue α} {m : Moment World}
    {held : Conversation World α} (h : d.Holds World.stagedServices deadline m held) :
    m.world.Logs (held.exchanges.map fun x => .ofRequest x.request) held.moment.world := by
  induction h with
  | done => exact World.logs_of_log rfl rfl
  | @answered r next m answer m' rest ha _ ih =>
    have hs := World.run_send_logs r m.world deadline m.now
    rw [ha] at hs
    exact hs.append ih
  | @cutOff r next m m' ha =>
    have hs := World.run_send_logs r m.world deadline m.now
    rw [ha] at hs
    exact hs

theorem Manifest.Attempts.logs {m : Manifest} {moment moment' : Moment World} {a : Attempt}
    (h : m.Attempts World.stagedServices update resolver deadline moment a moment') :
    moment.world.Logs (a.exchanges.map fun x => .ofRequest x.request) moment'.world := by
  cases h with
  | unresolved => exact World.logs_of_log rfl rfl
  | applied _ hh | refused _ hh | cutOff _ hh => exact hh.logs

theorem logging_chronicle (options : Options) (deadline : Nat) :
    World.stagedServices.Chronicle options deadline (fun _ => True) fun attempts m m' =>
      m.world.Logs ((attempts.flatMap Attempt.exchanges).map fun x => .ofRequest x.request)
        m'.world where
  nil _ := World.logs_of_log rfl rfl
  append := by
    intro as bs m m' m'' h h'
    rw [List.flatMap_append, List.map_append]
    exact h.append h'
  pause m instant _ := World.staged_logs.pause m instant
  discover _ := World.logs_of_log rfl rfl
  attempt := by
    intro resolver manifest m a m' _ _ h
    rw [List.flatMap_singleton]
    exact h.logs

/-- The exchange is one of an attempt of the run at one of the manifests, and warranted where the
mapping of its round says that the kind is served. -/
def RunRecord.Warrants (made : RunRecord σ) (update : Bool) (manifests : List Manifest)
    (previous? : Option Exchange) (x : Exchange) : Prop :=
  ∃ r ∈ made.rounds, ∃ a ∈ r.attempts, x ∈ a.exchanges ∧ a.manifest ∈ manifests ∧
    ∃ e, r.resolver.resolve a.manifest.kind = .ok e ∧
      Warranted update a.manifest e previous? x.request

theorem Ran.trail {manifests : List Manifest} {stage : Stage σ} {made : RunRecord σ}
    (h : Ran services options deadline manifests resolver stage made) :
    Trail (made.Warrants options.update manifests) none made.exchanges := by
  have htrails : ∀ r ∈ made.rounds, ∀ a ∈ r.attempts, a.manifest ∈ manifests ∧
      Trail (fun previous? x => ∃ e, r.resolver.resolve a.manifest.kind = .ok e ∧
        Warranted options.update a.manifest e previous? x.request) none a.exchanges := by
    refine h.forall_attempts (Q := (· ∈ manifests)) (P := fun resolver a =>
      a.manifest ∈ manifests ∧
        Trail (fun previous? x => ∃ e, resolver.resolve a.manifest.kind = .ok e ∧
          Warranted options.update a.manifest e previous? x.request) none a.exchanges) ?_
      fun _ hm => hm
    intro resolver m moment a moment' hm ha
    rw [ha.manifest_eq]
    exact ⟨hm, ha.trail⟩
  refine Trail.flatMap ?_ fun a ha => ?_
  · rintro x ⟨r, hr, a, ha, hx, hm, e, he, hw⟩ previous?
    exact ⟨r, hr, a, ha, hx, hm, e, he, hw.lasting previous?⟩
  · obtain ⟨r, hr, ha⟩ := List.mem_flatMap.mp ha
    obtain ⟨hm, ht⟩ := htrails r hr a ha
    exact ht.mono fun previous? x hx ⟨e, he, hw⟩ => ⟨r, hr, a, ha, hx, hm, e, he, hw⟩

structure Confined (update : Bool) (manifests : List Manifest) (before : World)
    (made : RunRecord World) : Prop where
  recorded : before.Logs (made.exchanges.map fun x => .ofRequest x.request)
    made.stage.moment.world
  warranted : ∀ earlier x later, made.exchanges = earlier ++ x :: later →
    ∃ r ∈ made.rounds, ∃ a ∈ r.attempts, x ∈ a.exchanges ∧ a.manifest ∈ manifests ∧
      ∃ e, r.resolver.resolve a.manifest.kind = .ok e ∧
        (Action.ofRequest x.request).Concerns a.manifest e ∧
        Warranted update a.manifest e earlier.getLast? x.request

theorem Ran.confined {manifests : List Manifest} (hn : ∀ m ∈ manifests, m.Named)
    {stage : Stage World} {made : RunRecord World}
    (h : Ran World.stagedServices options deadline manifests resolver stage made) :
    Confined options.update manifests stage.moment.world made := by
  have hall : ∀ m ∈ manifests, True := fun _ _ => trivial
  refine ⟨(logging_chronicle options deadline).run hall h, fun earlier x later hs => ?_⟩
  have hw := h.trail.warranted hs
  rw [Option.or_none] at hw
  obtain ⟨r, hr, a, ha, hx, hm, e, he, hw⟩ := hw
  exact ⟨r, hr, a, ha, hx, hm, e, he, hw.concerns (hn _ hm), hw⟩

/-- Ensuring the manifests of a directory asks nothing of a store but about the manifests that are
loaded from it, however many rounds that may take, and nothing at all of anybody if they cannot be
loaded. -/
theorem ensure_confined (options : Options) (decode : Decoder) (root : Files.Node)
    (directory : Files.PathText) (timeout : Nat) (stage : Stage World) :
    match load decode options.filters root directory with
    | .error e =>
      ensure World.stagedServices options decode root directory timeout stage = .error e ∧
        ∀ s : Session, s.ensure decode root directory options.filters timeout = (.error e, s)
    | .ok manifests => ∃ made,
      ensure World.stagedServices options decode root directory timeout stage = .ok made ∧
        Confined options.update manifests stage.moment.world made ∧
        (manifests ≠ [] → ∀ more, Confined options.update manifests stage.moment.world
          (runBeyond World.stagedServices options (stage.moment.now + timeout) manifests .unloaded
            { stage with
              sink := stage.sink.write options.verbose
                (.loaded manifests.length (Files.shown directory)) } more)) := by
  cases hl : load decode options.filters root directory with
  | error e =>
    refine ⟨?_, fun s => ?_⟩
    · rw [ensure, hl]
      rfl
    · rw [Session.ensure, ensure, hl]
      rfl
  | ok manifests =>
    refine ⟨_, ?_, run_and_beyond fun _ h => h.confined (named_of_loadFrom hl)⟩
    rw [ensure, hl]
    rfl

end ManifestSync
