import ManifestSync.Proofs.Http.Refusal
import ManifestSync.Proofs.Manifest.Named
import ManifestSync.Proofs.Reconcile.Apply
import ManifestSync.Proofs.Reconcile.Trace

namespace ManifestSync

variable {σ α : Type}

def Dialogue.transcript (services : Services σ) :
    Dialogue α → Moment σ → List (Request × Answer)
  | .done _, _ => []
  | .ask r next, m =>
    let (answer, m') := (services.send r m.world).await services.drift m.now
    (r, answer) :: (next answer).transcript services m'

theorem Activity.await_onPart (services : Services σ) (call : Activity σ α) (s : σ)
    (calls : List Call) (now : Nat) :
    (call.onPart Prod.fst (fun s w => (s, w.2)) (s, calls)).await services.traced.drift now =
      ((call.await services.drift now).1, (call.await services.drift now).2.beside calls) := by
  induction call generalizing s now with
  | done answer t => rfl
  | wait delay t resume ih =>
    have hu := (Moment.mk now t).until_beside services calls
    unfold Moment.beside at hu
    simp only [onPart, await, hu]
    exact ih _ _ _
  | turn t resume ih => exact ih t t now

theorem Dialogue.await_traced (services : Services σ) (d : Dialogue α) (m : Moment σ)
    (calls : List Call) :
    d.await services.traced (m.beside calls) = ((d.await services m).1,
      (d.await services m).2.beside
        (calls ++ (d.transcript services m).map fun x => .send x.1)) := by
  induction d generalizing m calls with
  | done result => simp only [await, transcript, List.map_nil, List.append_nil]
  | ask r next ih =>
    have hsend : (services.traced.send r (m.beside calls).world).await services.traced.drift
        (m.beside calls).now =
          (((services.send r m.world).await services.drift m.now).1,
            ((services.send r m.world).await services.drift m.now).2.beside
              (calls ++ [.send r])) :=
      Activity.await_onPart services _ _ _ _
    simp only [await, transcript, hsend, ih, List.map_cons, List.append_assoc,
      List.singleton_append]

namespace Manifest

inductive Writes (update : Bool) (m : Manifest) (e : Endpoint) :
    Answer → Request → Outcome → Prop where
  | create {what} : Writes update m e (.error (.notFound what))
      (.create e m.inNamespace? m.object) .created
  | patch {live patch} : update = true → updatePatch m.object live = some patch →
      Writes update m e (.ok live) (.patch e m.inNamespace? m.name patch) .patched

inductive Goes (update : Bool) (m : Manifest) (e : Endpoint) :
    List (Request × Answer) → Except ApplyError Outcome → Prop where
  | unchanged {live} : (update = true → updatePatch m.object live = none) →
      Goes update m e [(.get e m.inNamespace? m.name, .ok live)] (.ok .unchanged)
  | refused {cause} : (∀ what, cause ≠ .notFound what) →
      Goes update m e [(.get e m.inNamespace? m.name, .error cause)]
        (.error (.requestFailed .get (m.target e) cause))
  | written {answer r outcome live} : Writes update m e answer r outcome →
      Goes update m e [(.get e m.inNamespace? m.name, answer), (r, .ok live)] (.ok outcome)
  | failed {answer r outcome cause} : Writes update m e answer r outcome →
      Goes update m e [(.get e m.inNamespace? m.name, answer), (r, .error cause)]
        (.error (.requestFailed r.verb (m.target e) cause))

variable {update : Bool} {m : Manifest} {e : Endpoint}

theorem goes_of_writes {answer : Answer} {r : Request} {outcome : Outcome}
    (h : m.Writes update e answer r outcome) (services : Services σ) (moment : Moment σ) :
    m.Goes update e
      ((.get e m.inNamespace? m.name, answer) ::
        (r.lastly outcome (m.target e)).transcript services moment)
      ((r.lastly outcome (m.target e)).await services moment).1 := by
  unfold Request.lastly Dialogue.transcript Dialogue.await
  rcases (services.send r moment.world).await services.drift moment.now with ⟨cause | live, _⟩
  · exact .failed h
  · exact .written h

theorem apply_goes (update : Bool) (m : Manifest) (e : Endpoint) (services : Services σ)
    (moment : Moment σ) :
    m.Goes update e ((m.apply update e).transcript services moment)
      ((m.apply update e).await services moment).1 := by
  obtain ⟨next, he, hn⟩ := m.apply_continues update e
  rw [he]
  unfold Dialogue.transcript Dialogue.await
  obtain ⟨answer, moment'⟩ :=
    (services.send (.get e m.inNamespace? m.name) moment.world).await services.drift moment.now
  have hc := hn answer
  dsimp only
  generalize next answer = d at hc ⊢
  cases hc with
  | unchanged hp => exact .unchanged hp
  | patch hu hp => exact goes_of_writes (.patch hu hp) services moment'
  | create => exact goes_of_writes .create services moment'
  | refused hne => exact .refused hne

structure Decided (update : Bool) (m : Manifest) (e : Endpoint)
    (exchanges : List (Request × Answer)) (result : Except ApplyError Outcome) : Prop where
  sequence :
    exchanges.map Prod.fst = [.get e m.inNamespace? m.name] ∨
    exchanges.map Prod.fst =
      [.get e m.inNamespace? m.name, .create e m.inNamespace? m.object] ∨
    ∃ patch, exchanges.map Prod.fst =
      [.get e m.inNamespace? m.name, .patch e m.inNamespace? m.name patch]
  /-- An object that is created brings its own name, which is that of a manifest that was loaded. -/
  addressed : ∀ x ∈ exchanges,
    x.1.endpoint = e ∧ x.1.inNamespace? = m.inNamespace? ∧ (m.Named → x.1.name = m.name)
  create_iff : .create e m.inNamespace? m.object ∈ exchanges.map Prod.fst ↔
    ∃ what, exchanges.head? = some (.get e m.inNamespace? m.name, .error (.notFound what))
  patch_iff : ∀ patch, .patch e m.inNamespace? m.name patch ∈ exchanges.map Prod.fst ↔
    update = true ∧ ∃ live, updatePatch m.object live = some patch ∧
      exchanges.head? = some (.get e m.inNamespace? m.name, .ok live)
  created_iff : result = .ok .created ↔
    ∃ live, (.create e m.inNamespace? m.object, .ok live) ∈ exchanges
  patched_iff : result = .ok .patched ↔
    ∃ patch live, (.patch e m.inNamespace? m.name patch, .ok live) ∈ exchanges
  unchanged_iff : result = .ok .unchanged ↔
    (∃ live, exchanges.head? = some (.get e m.inNamespace? m.name, .ok live)) ∧
      ∀ patch, .patch e m.inNamespace? m.name patch ∉ exchanges.map Prod.fst
  error_iff : ∀ error, result = .error error ↔ ∃ r cause,
    exchanges.getLast? = some (r, .error cause) ∧
      error = .requestFailed r.verb (m.target e) cause

namespace Goes

variable {exchanges : List (Request × Answer)} {result : Except ApplyError Outcome}

theorem decided (h : m.Goes update e exchanges result) : m.Decided update e exchanges result := by
  constructor
  case sequence =>
    cases h with
    | unchanged | refused => exact .inl rfl
    | written hw | failed hw =>
      cases hw with
      | create => exact .inr (.inl rfl)
      | patch => exact .inr (.inr ⟨_, rfl⟩)
  case addressed =>
    cases h with
    | unchanged | refused => exact List.forall_mem_singleton.mpr ⟨rfl, rfl, fun _ => rfl⟩
    | written hw | failed hw =>
      refine List.forall_mem_cons.mpr
        ⟨⟨rfl, rfl, fun _ => rfl⟩, List.forall_mem_singleton.mpr ?_⟩
      cases hw with
      | create => exact ⟨rfl, rfl, Named.name_eq⟩
      | patch => exact ⟨rfl, rfl, fun _ => rfl⟩
  case create_iff =>
    cases h with
    | unchanged => simp
    | refused hne => simpa using hne
    | written hw | failed hw => cases hw <;> simp
  case patch_iff =>
    intro patch
    cases h with
    | unchanged hp => simp +contextual [hp]
    | refused => simp
    | written hw | failed hw =>
      cases hw with
      | create => simp
      | patch hu hp => simp [hu, hp, eq_comm]
  case created_iff | patched_iff | unchanged_iff =>
    cases h with
    | unchanged | refused => simp
    | written hw | failed hw => cases hw <;> simp
  case error_iff =>
    intro error
    cases h with
    | unchanged | written => simp
    | refused | failed => simp [eq_comm, Request.verb]

theorem refused_eq (h : m.Goes update e exchanges result) {cause : StoreError}
    (hhead : exchanges.head? = some (.get e m.inNamespace? m.name, .error cause))
    (hne : ∀ what, cause ≠ .notFound what) :
    exchanges = [(.get e m.inNamespace? m.name, .error cause)] ∧
      result = .error (.requestFailed .get (m.target e) cause) := by
  cases h with
  | unchanged => cases hhead
  | refused =>
    cases hhead
    exact ⟨rfl, rfl⟩
  | written hw | failed hw =>
    cases hw with
    | create =>
      cases hhead
      exact absurd rfl (hne _)
    | patch => cases hhead

end Goes

/-- Behind a server, an object is created if the server says that it is not there, and any other
error of the first request ends it all. -/
structure Guarded (transport : Http.Transport σ) (drift : Drift σ) (m : Manifest) (e : Endpoint)
    (moment : Moment σ) (exchanges : List (Request × Answer))
    (result : Except ApplyError Outcome) : Prop where
  notFound_iff :
    (∃ what, exchanges.head? = some (.get e m.inNamespace? m.name, .error (.notFound what))) ↔
      Http.Missing transport drift (.get e m.inNamespace? m.name) moment
  create_iff : .create e m.inNamespace? m.object ∈ exchanges.map Prod.fst ↔
    Http.Missing transport drift (.get e m.inNamespace? m.name) moment
  refused : ∀ cause, exchanges.head? = some (.get e m.inNamespace? m.name, .error cause) →
    ¬ Http.Missing transport drift (.get e m.inNamespace? m.name) moment →
    exchanges = [(.get e m.inNamespace? m.name, .error cause)] ∧
      result = .error (.requestFailed .get (m.target e) cause)

theorem apply_guarded (update : Bool) (m : Manifest) (e : Endpoint)
    (transport : Http.Transport σ)
    (discover : σ → Activity σ (Except StoreError (List ServedGroup))) (drift : Drift σ)
    (moment : Moment σ) :
    m.Guarded transport drift e moment
      ((m.apply update e).transcript ⟨Http.send transport, discover, drift⟩ moment)
      ((m.apply update e).await ⟨Http.send transport, discover, drift⟩ moment).1 := by
  have hgoes := m.apply_goes update e ⟨Http.send transport, discover, drift⟩ moment
  have hhead : ((m.apply update e).transcript ⟨Http.send transport, discover, drift⟩ moment).head? =
      some (.get e m.inNamespace? m.name,
        ((Http.send transport (.get e m.inNamespace? m.name) moment.world).await drift
          moment.now).1) := rfl
  have hmissing := Http.send_notFound_iff transport drift (.get e m.inNamespace? m.name) moment
  have hiff : (∃ what,
      ((m.apply update e).transcript ⟨Http.send transport, discover, drift⟩ moment).head? =
        some (.get e m.inNamespace? m.name, .error (.notFound what))) ↔
      Http.Missing transport drift (.get e m.inNamespace? m.name) moment := by
    rw [← hmissing, hhead]
    simp only [Option.some.injEq, Prod.mk.injEq, true_and]
  refine ⟨hiff, hgoes.decided.create_iff.trans hiff, fun cause hc hno => hgoes.refused_eq hc ?_⟩
  rintro what rfl
  exact hno (hiff.mp ⟨what, hc⟩)

/-- Which requests are made for a manifest depends on what the store answers to the first, and the
last answer is what the result tells of. Behind a server, no error of the first request is followed
by a write unless the server says that the object is not there. -/
theorem apply_decided (update : Bool) (m : Manifest) (e : Endpoint) :
    (∀ {σ : Type} (services : Services σ) (moment : Moment σ) (calls : List Call),
      (m.apply update e).await services.traced (moment.beside calls) =
        (((m.apply update e).await services moment).1,
          ((m.apply update e).await services moment).2.beside
            (calls ++ ((m.apply update e).transcript services moment).map fun x => .send x.1)) ∧
      m.Decided update e ((m.apply update e).transcript services moment)
        ((m.apply update e).await services moment).1) ∧
    ∀ {σ : Type} (transport : Http.Transport σ)
      (discover : σ → Activity σ (Except StoreError (List ServedGroup))) (drift : Drift σ)
      (moment : Moment σ),
      m.Guarded transport drift e moment
        ((m.apply update e).transcript ⟨Http.send transport, discover, drift⟩ moment)
        ((m.apply update e).await ⟨Http.send transport, discover, drift⟩ moment).1 :=
  ⟨fun services moment calls => ⟨Dialogue.await_traced services _ moment calls,
    (m.apply_goes update e services moment).decided⟩, m.apply_guarded update e⟩

def curtServer (code : Nat) : Http.Transport Unit := fun _ s => .done (.ok ⟨code, []⟩) s

def curtServices (code : Nat) : Services Unit :=
  ⟨Http.send (curtServer code), .done (.ok []), fun _ _ s => s⟩

def plainEndpoint : Endpoint := ⟨"", "v1", "ConfigMap", "configmaps", .namespaced⟩

def plainManifest : Manifest :=
  ⟨"a.yaml", ⟨"", "v1", "ConfigMap"⟩, "a", none,
    .object [("metadata", .object [("name", .text "a")])]⟩

theorem apply_decided_curt :
    Request.create plainEndpoint none plainManifest.object ∈
        ((plainManifest.apply true plainEndpoint).transcript (curtServices 404) ⟨0, ()⟩).map
          Prod.fst ∧
      (plainManifest.apply true plainEndpoint).transcript (curtServices 403) ⟨0, ()⟩ =
        [(.get plainEndpoint none "a", .error (.rejected 403 "\"\""))] := by
  have hguarded := fun code => (apply_decided true plainManifest plainEndpoint).2 (curtServer code)
    (.done (.ok [])) (fun _ _ s => s) ⟨0, ()⟩
  have hmissing : Http.Missing (curtServer 404) (fun _ _ s => s) (.get plainEndpoint none "a")
      ⟨0, ()⟩ := ⟨_, _, rfl, rfl, rfl⟩
  have hforbidden : ¬ Http.Missing (curtServer 403) (fun _ _ s => s)
      (.get plainEndpoint none "a") ⟨0, ()⟩ := by
    rw [← Http.send_notFound_iff]
    rintro ⟨what, h⟩
    cases h
  exact ⟨(hguarded 404).create_iff.mpr hmissing, ((hguarded 403).refused _ rfl hforbidden).1⟩

end Manifest

end ManifestSync
