import ManifestSync.Proofs.Reconcile.Preservation
import ManifestSync.Proofs.Store.Calm

namespace ManifestSync

open Scenario

/-- The object bears the name of the key, and its namespace if it has one. -/
structure ObjectKey.Fits (key : ObjectKey) (object : Tree) : Prop where
  name_eq : object.ownName = key.name
  inNamespace_eq : key.inNamespace = "" ∨ object.ownNamespace? = some key.inNamespace

theorem ObjectKey.fits_of {e : Endpoint} {ns? : Option String} {object : Tree}
    (h : ∀ ns, ns? = some ns → object.ownNamespace? = some ns) :
    (ObjectKey.of e ns? object.ownName).Fits object := by
  refine ⟨rfl, ?_⟩
  unfold of Endpoint.scopedNamespace
  cases e.isNamespaced with
  | false => exact .inl rfl
  | true =>
    cases ns? with
    | none => exact .inl rfl
    | some ns => exact .inr (h ns rfl)

/-- What a request must not do to be allowed: an object is created in no namespace but its own, and a
patch misses the name and the namespace. -/
def Request.Identifies : Request → Prop
  | .get .. => True
  | .create _ ns? object => ∀ ns, ns? = some ns → object.ownNamespace? = some ns
  | .patch _ _ _ body => body.Misses ["metadata", "name"] ∧ body.Misses ["metadata", "namespace"]

theorem Manifest.apply_identifies {path : String} {object : Tree} {m : Manifest}
    (h : ofTree path object = .ok m) (update : Bool) (e : Endpoint) :
    (m.apply update e).All Request.Identifies := by
  refine m.apply_all trivial ?_ fun _ live patch hp => ?_
  · intro ns hns
    rw [inNamespace?_of_ofTree h] at hns
    exact (Option.filter_eq_some_iff.mp hns).1
  · have hname : ∀ target ∈ updatablePaths, Tree.Apart ["metadata", "name"] target := by decide
    have hspace : ∀ target ∈ updatablePaths, Tree.Apart ["metadata", "namespace"] target := by
      decide
    exact ⟨misses_of_updatePatch hp fun target ht _ => hname target ht,
      misses_of_updatePatch hp fun target ht _ => hspace target ht⟩

theorem Request.effect_fits {r : Request} (h : r.Identifies) {live? : Option Tree}
    (hl : ∀ live, live? = some live → r.key.Fits live) {stored : Tree}
    (hs : (r.effect live?).2 = some stored) : r.key.Fits stored := by
  cases r with
  | get => cases live? <;> cases hs
  | create e ns object =>
    cases hr : ((create e ns object).effect live?).1 with
    | error cause => exact nomatch (effect_of_error hr).symm.trans hs
    | ok found =>
      obtain rfl : object = stored := Option.some.inj ((effect_create hr).2.symm.trans hs)
      exact ObjectKey.fits_of h
  | patch e ns name body =>
    cases live? with
    | none => cases hs
    | some live =>
      obtain rfl : live.merge body = stored := Option.some.inj hs
      obtain ⟨hname, hspace⟩ := hl live rfl
      constructor
      case name_eq =>
        rw [← hname, Tree.ownName, Tree.ownName, Tree.at?_merge_of_misses live h.1]
      case inNamespace_eq =>
        rw [Tree.ownNamespace?, Tree.at?_merge_of_misses live h.2]
        exact hspace

namespace Memory

def Faithful (m : Memory) : Prop := ∀ key object, m.object? key = some object → key.Fits object

variable {m : Memory}

theorem Faithful.put (h : m.Faithful) {key : ObjectKey} {t? : Option Tree}
    (ht : ∀ t, t? = some t → key.Fits t) : (m.put key t?).Faithful := by
  cases t? with
  | none => exact h
  | some t =>
    intro k object hk
    rw [Memory.put, object?, Table.find?_set] at hk
    by_cases hkey : key = k
    · subst hkey
      rw [if_pos rfl] at hk
      obtain rfl : t = object := Option.some.inj hk
      exact ht t rfl
    · rw [if_neg hkey] at hk
      exact h k object hk

theorem Faithful.addObject (h : m.Faithful) (e : Endpoint) (object : Tree) :
    (m.addObject e object).Faithful := by
  change (m.put _ (some object)).Faithful
  refine h.put fun t ht => ?_
  obtain rfl : object = t := Option.some.inj ht
  exact ObjectKey.fits_of fun _ hns => hns

theorem Faithful.settle (h : m.Faithful) {r : Request} (hr : r.Identifies) :
    (m.settle r).2.Faithful := by
  obtain ⟨f, hf⟩ | hp := settle_cases r m
  · rw [hf]
    exact h
  · rw [hp, perform_eq]
    exact h.put fun stored hs => Request.effect_fits hr (h r.key) hs

end Memory

namespace Services.Within

variable {σ α : Type} {services : Services σ} {P : Request → Prop} {R : σ → σ → Prop}

theorem await (h : services.Within P R) {call : Activity σ α} {s : σ} (hc : call.Within R s)
    (now : Nat) : R s (call.await services.drift now).2.world := by
  induction call generalizing s now with
  | done answer t => exact hc
  | wait delay t resume ih =>
    obtain ⟨ht, hr⟩ := hc
    have hw := h.pause ⟨now, t⟩ (now + delay)
    exact h.trans ht (h.trans hw (ih _ (hr _) _))
  | turn t resume ih => exact h.trans hc.1 (ih t (hc.2 t) now)

theorem await_dialogue (h : services.Within P R) {d : Dialogue α} (hd : d.All P) (m : Moment σ) :
    R m.world (d.await services m).2.world := by
  induction d generalizing m with
  | done result => exact h.refl m.world
  | ask r next ih =>
    have hw := h.await (h.send r m.world hd.1) m.now
    exact h.trans hw (ih _ (hd.2 _) _)

end Services.Within

namespace Scenario.World

theorem faithful_change {w : World} (h : w.memory.Faithful) (c : Change) :
    (w.change c).memory.Faithful := by
  cases c with
  | addObject e object => exact h.addObject e object
  | _ => exact h

theorem faithful_within :
    stagedServices.Within Request.Identifies fun w w' => w.memory.Faithful → w'.memory.Faithful where
  refl _ h := h
  trans h h' hw := h' (h hw)
  drift before after _ h := drift_induction (P := fun w => w.memory.Faithful) before after
    (fun _ _ => h) fun _ c _ hw => faithful_change hw c.2
  discover _ h := h
  send _ w hr := send_within (R := fun w w' => w.memory.Faithful → w'.memory.Faithful)
    (fun h h' hw => h' (h hw)) (fun _ h => h) (fun _ h => h.settle hr) w

/-- The moments to which a world comes that begins with an empty store, as long as nobody writes to
the store but by putting objects there by hand and by applying manifests. -/
inductive Reachable : Moment World → Prop where
  | start {m} : m.world.memory.objects = [] → Reachable m
  | changed {m} (c : Change) : Reachable m → Reachable { m with world := m.world.change c }
  | passed {m} (instant : Nat) : Reachable m → Reachable (m.until drift instant)
  | applied {m path object} {manifest : Manifest} (update : Bool) (e : Endpoint) : Reachable m →
      Manifest.ofTree path object = .ok manifest →
      Reachable ((manifest.apply update e).await stagedServices m).2
  /-- Applying a manifest may be cut off at any instant. -/
  | held {m path object} {manifest : Manifest} (update : Bool) (e : Endpoint) (deadline : Nat) :
      Reachable m → Manifest.ofTree path object = .ok manifest →
      Reachable ((manifest.apply update e).hold stagedServices deadline m).moment

/-- Every object that is ever stored bears the name and the namespace of its key. -/
theorem reachable_faithful {m : Moment World} (h : Reachable m) : m.world.memory.Faithful := by
  induction h with
  | start ho =>
    intro key object hk
    rw [Memory.object?, ho] at hk
    cases hk
  | changed c _ ih => exact faithful_change ih c
  | passed instant _ ih => exact faithful_within.pause _ instant ih
  | applied update e _ hm ih =>
    exact faithful_within.await_dialogue (Manifest.apply_identifies hm update e) _ ih
  | held update e deadline _ hm ih =>
    exact (faithful_within.frame deadline).hold (Manifest.apply_identifies hm update e) _ ih

def slowMemory : Memory :=
  { Memory.empty with failures := [⟨.create, none, 500, "broken"⟩], delays := [(.get, 3)] }

theorem reachable_faithful_patched : ∃ m object, Reachable m ∧
    m.world.memory.object? ⟨"", "configmaps", "apps", "ca"⟩ = some object ∧
    object.at? ["spec", "managementState"] = some (.text "Managed") ∧
    ObjectKey.Fits ⟨"", "configmaps", "apps", "ca"⟩ object := by
  have hs : Reachable ⟨0, .still (slowMemory.addObject stateMaps (stateMap .null)) (.ofGroups [])⟩ :=
    .changed (.addObject stateMaps (stateMap .null))
      (.start (m := ⟨0, .still slowMemory (.ofGroups [])⟩) rfl)
  have hr := Reachable.applied true stateMaps hs (ofTree_stateMap (.text "Managed"))
  rw [Dialogue.await_still] at hr
  exact ⟨_, _, hr, rfl, rfl, reachable_faithful hr _ _ rfl⟩

/-- Any other patch may take the name away. -/
example : ¬ ((Memory.empty.addObject stateMaps (stateMap .null)).settle
    (.patch stateMaps (some "apps") "ca" (.object [("metadata", .null)]))).2.Faithful := by
  intro h
  have hname := (h ⟨"", "configmaps", "apps", "ca"⟩ _ rfl).name_eq
  exact absurd hname (by decide)

end Scenario.World

end ManifestSync
