import ManifestSync.Reconcile.Apply
import ManifestSync.Proofs.Manifest.Named
import ManifestSync.Proofs.Scenario.Staged
import ManifestSync.Proofs.Store.Answers

namespace ManifestSync

open Scenario

structure Memory.Calm (m : Memory) : Prop where
  failures : m.failures = []
  delays : m.delays = []

namespace Memory

theorem Calm.delayOf? {m : Memory} (h : m.Calm) (r : Request) : m.delayOf? r = none := by
  simp [Memory.delayOf?, h.delays]

theorem served_of_failures {m : Memory} (h : m.failures = []) (r : Request) :
    m.served r = (m.record r).perform r := by
  simp [Memory.served, settle, failureOf?, record, h]

theorem perform_failures (r : Request) (m : Memory) : (m.perform r).2.failures = m.failures := by
  rw [perform_eq]
  exact failures_put r.key _ m

theorem perform_delays (r : Request) (m : Memory) : (m.perform r).2.delays = m.delays := by
  rw [perform_eq]
  exact delays_put r.key _ m

theorem served_delays (r : Request) (m : Memory) : (m.served r).2.delays = m.delays := by
  unfold served settle
  split
  · rfl
  · exact perform_delays r (m.record r)

theorem Calm.served_calm {m : Memory} (h : m.Calm) (r : Request) : (m.served r).2.Calm := by
  rw [served_of_failures h.failures]
  exact ⟨(perform_failures r _).trans h.failures, (perform_delays r _).trans h.delays⟩

end Memory

namespace Dialogue

variable {α : Type}

/-- Holds the dialogue with a store that answers at once. -/
def converse : Dialogue α → Memory → α × Memory
  | .done result, m => (result, m)
  | .ask r next, m => (next (m.served r).1).converse (m.served r).2

theorem converse_calm (d : Dialogue α) {m : Memory} (h : m.Calm) : (d.converse m).2.Calm := by
  induction d generalizing m with
  | done result => exact h
  | ask r next ih => exact ih _ (h.served_calm r)

def span : Dialogue α → Memory → Nat
  | .done _, _ => 0
  | .ask r next, m => (m.delayOf? r).getD 0 + (next (m.served r).1).span (m.served r).2

theorem await_still (d : Dialogue α) (m : Memory) (feed : Feed) (now : Nat) :
    d.await World.stagedServices ⟨now, .still m feed⟩ =
      ((d.converse m).1, ⟨now + d.span m, .still (d.converse m).2 feed⟩) := by
  induction d generalizing m now with
  | done result => rfl
  | ask r next ih => simp only [await, World.await_send_still, converse, span, ih, Nat.add_assoc]

theorem span_of_calm (d : Dialogue α) {m : Memory} (h : m.Calm) : d.span m = 0 := by
  induction d generalizing m with
  | done result => rfl
  | ask r next ih => rw [span, h.delayOf?, ih _ (h.served_calm r)]; rfl

theorem await_of_calm (d : Dialogue α) {m : Memory} (h : m.Calm) (feed : Feed) (now : Nat) :
    d.await World.stagedServices ⟨now, .still m feed⟩ =
      ((d.converse m).1, ⟨now, .still (d.converse m).2 feed⟩) := by
  rw [await_still, d.span_of_calm h, Nat.add_zero]

def exchanges (now : Nat) : Dialogue α → Memory → List Exchange
  | .done _, _ => []
  | .ask r next, m =>
    ⟨r, now, some (m.served r).1⟩ :: (next (m.served r).1).exchanges now (m.served r).2

theorem hold_of_prompt (d : Dialogue α) {w : World} (h : w.memory.delays = [])
    (deadline now : Nat) :
    d.hold World.stagedServices deadline ⟨now, w⟩ =
      ⟨d.exchanges now w.memory, some (d.converse w.memory).1,
        ⟨now, { w with memory := (d.converse w.memory).2 }⟩⟩ := by
  induction d generalizing w with
  | done result => rfl
  | ask r next ih =>
    have hr : w.memory.delayOf? r = none := by simp [Memory.delayOf?, h]
    have hserved : (w.memory.served r).2.delays = [] := (Memory.served_delays r w.memory).trans h
    have hrest := ih (w.memory.served r).1 (w := { w with memory := (w.memory.served r).2 }) hserved
    simp only [hold, World.run_send_prompt hr, hrest]
    rfl

theorem hold_of_calm (d : Dialogue α) {m : Memory} (h : m.Calm) (feed : Feed) (deadline now : Nat) :
    (d.hold World.stagedServices deadline ⟨now, .still m feed⟩).result? = some (d.converse m).1 ∧
      (d.hold World.stagedServices deadline ⟨now, .still m feed⟩).moment =
        ⟨now, .still (d.converse m).2 feed⟩ := by
  rw [d.hold_of_prompt h.delays]
  exact ⟨rfl, rfl⟩

end Dialogue

def Memory.gets (m : Memory) : List Action := m.actions.filter (·.verb == .get)

theorem Memory.gets_record (r : Request) (m : Memory) :
    (m.record r).gets = m.gets ++ if r.verb = .get then [.ofRequest r] else [] := by
  rw [gets, actions_record, List.filter_append]
  cases r <;> rfl

def Manifest.key (m : Manifest) (e : Endpoint) : ObjectKey := .of e m.inNamespace? m.name

namespace Memory

theorem served_get_missing {m : Memory} (h : m.failures = []) {e : Endpoint} {ns : Option String}
    {name : String} (hk : m.object? (.of e ns name) = none) :
    m.served (.get e ns name) =
      (.error (.notFound (describe (.get e ns name) "not found")), m.record (.get e ns name)) := by
  have hr : (m.record (.get e ns name)).object? (Request.get e ns name).key = none := hk
  rw [served_of_failures h, perform, hr]

theorem served_get {m : Memory} (h : m.failures = []) {e : Endpoint} {ns : Option String}
    {name : String} {live : Tree} (hk : m.object? (.of e ns name) = some live) :
    m.served (.get e ns name) = (.ok live, m.record (.get e ns name)) := by
  have hr : (m.record (.get e ns name)).object? (Request.get e ns name).key = some live := hk
  rw [served_of_failures h, perform, hr]

theorem served_create {m : Memory} (h : m.failures = []) {e : Endpoint} {ns : Option String}
    {object : Tree} (hn : object.ownName ≠ "") (hk : m.object? (.of e ns object.ownName) = none) :
    m.served (.create e ns object) =
      (.ok object, { m.record (.create e ns object) with
        objects := m.objects.set (.of e ns object.ownName) object }) := by
  have hr : (m.record (.create e ns object)).object? (Request.create e ns object).key = none := hk
  have hne : (Request.create e ns object).name ≠ "" := hn
  rw [served_of_failures h, perform, if_neg hne, hr]
  rfl

theorem served_patch {m : Memory} (h : m.failures = []) {e : Endpoint} {ns : Option String}
    {name : String} {live : Tree} (patch : Tree) (hk : m.object? (.of e ns name) = some live) :
    m.served (.patch e ns name patch) =
      (.ok (live.merge patch), { m.record (.patch e ns name patch) with
        objects := m.objects.set (.of e ns name) (live.merge patch) }) := by
  have hr : (m.record (.patch e ns name patch)).object? (Request.patch e ns name patch).key =
      some live := hk
  rw [served_of_failures h, perform, hr]
  rfl

end Memory

namespace Manifest

variable {m : Manifest} {memory : Memory} {e : Endpoint}

def looked (m : Manifest) (e : Endpoint) (memory : Memory) : Memory :=
  memory.record (.get e m.inNamespace? m.name)

theorem looked_calm (h : memory.Calm) : (m.looked e memory).Calm := ⟨h.failures, h.delays⟩

theorem converse_apply_created (hn : m.Named) (h : memory.failures = []) (update : Bool)
    (hk : memory.object? (m.key e) = none) :
    (m.apply update e).converse memory =
      (.ok .created, { (m.looked e memory).record (.create e m.inNamespace? m.object) with
        objects := memory.objects.set (m.key e) m.object }) := by
  have hne : m.object.ownName ≠ "" := hn.name_eq ▸ hn.ne_empty
  have hfree : (m.looked e memory).object? (.of e m.inNamespace? m.object.ownName) = none := by
    rw [hn.name_eq]
    exact hk
  have hc := Memory.served_create (m := m.looked e memory) h hne hfree
  rw [hn.name_eq] at hc
  unfold looked at hc
  simp only [apply, Dialogue.converse, Memory.served_get_missing h hk, hc]
  rfl

theorem converse_apply_unchanged (h : memory.failures = []) {update : Bool} {live : Tree}
    (hk : memory.object? (m.key e) = some live)
    (hp : update = true → updatePatch m.object live = none) :
    (m.apply update e).converse memory = (.ok .unchanged, m.looked e memory) := by
  have hu : (if update then updatePatch m.object live else none) = none := by
    cases update with
    | false => rfl
    | true => exact hp rfl
  simp only [apply, Dialogue.converse, Memory.served_get h hk, hu]
  rfl

theorem converse_apply_patched (h : memory.failures = []) {live patch : Tree}
    (hk : memory.object? (m.key e) = some live) (hp : updatePatch m.object live = some patch) :
    (m.apply true e).converse memory =
      (.ok .patched, { (m.looked e memory).record (.patch e m.inNamespace? m.name patch) with
        objects := memory.objects.set (m.key e) (live.merge patch) }) := by
  have hl : (m.looked e memory).object? (.of e m.inNamespace? m.name) = some live := hk
  have hs := Memory.served_patch (m := m.looked e memory) h patch hl
  unfold looked at hs
  simp only [apply, Dialogue.converse, Memory.served_get h hk, ↓reduceIte, hp, hs]
  rfl

def look (m : Manifest) (e : Endpoint) : Action := .ofRequest (.get e m.inNamespace? m.name)

theorem gets_looked (m : Manifest) (e : Endpoint) (memory : Memory) :
    (m.looked e memory).gets = memory.gets ++ [m.look e] := Memory.gets_record _ memory

theorem converse_apply_ok (hn : m.Named) (h : memory.Calm) (update : Bool) (e : Endpoint) :
    ∃ outcome memory', (m.apply update e).converse memory = (.ok outcome, memory') ∧
      memory'.gets = memory.gets ++ [m.look e] := by
  have hg := gets_looked m e memory
  cases hk : memory.object? (m.key e) with
  | none =>
    refine ⟨_, _, converse_apply_created hn h.failures update hk, ?_⟩
    have hc := Memory.gets_record (.create e m.inNamespace? m.object) (m.looked e memory)
    rw [hg] at hc
    exact hc.trans (List.append_nil _)
  | some live =>
    by_cases hp : update = true → updatePatch m.object live = none
    · exact ⟨_, _, converse_apply_unchanged h.failures hk hp, hg⟩
    · obtain ⟨hu, hne⟩ := Classical.not_imp.mp hp
      obtain ⟨patch, hpatch⟩ := Option.ne_none_iff_exists'.mp hne
      subst hu
      refine ⟨_, _, converse_apply_patched h.failures hk hpatch, ?_⟩
      have hc := Memory.gets_record (.patch e m.inNamespace? m.name patch) (m.looked e memory)
      rw [hg] at hc
      exact hc.trans (List.append_nil _)

end Manifest

end ManifestSync
