import ManifestSync.Proofs.Catalog.Schedule
import ManifestSync.Proofs.Manifest.Update
import ManifestSync.Proofs.Reconcile.Conversation
import ManifestSync.Proofs.Reconcile.Tally
import ManifestSync.Proofs.Store.Locality

namespace ManifestSync

open Scenario

def Resolver.keyOf? (r : Resolver) (m : Manifest) : Option ObjectKey :=
  (r.found? m.kind).map m.key

theorem Resolver.keyOf?_of_resolve {r : Resolver} {m : Manifest} {e : Endpoint}
    (h : r.resolve m.kind = .ok e) : r.keyOf? m = some (m.key e) := by
  rw [keyOf?, found?_eq_some.mpr h, Option.map_some]

variable {options : Options} {resolver : Resolver} {deadline : Nat}
  {keys : ObjectKey → Prop} {m : Manifest} {w w' : World}

namespace Manifest

/-- Where requests about the manifest may be about: its key, and where its object would put itself.
For manifests that were loaded that is one key. -/
def Claims (m : Manifest) (e : Endpoint) (key : ObjectKey) : Prop :=
  key = m.key e ∨ key = .of e m.inNamespace? m.object.ownName

theorem Named.claims_iff (hn : m.Named) {e : Endpoint} {key : ObjectKey} :
    m.Claims e key ↔ key = m.key e := by
  rw [Claims, hn.name_eq]
  exact or_self_iff

theorem apply_claims (update : Bool) (m : Manifest) (e : Endpoint) :
    (m.apply update e).All fun r => m.Claims e r.key :=
  m.apply_all (.inl rfl) (.inr rfl) fun _ _ _ _ => .inl rfl

theorem apply_all_key (hn : m.Named) (update : Bool) (e : Endpoint) :
    (m.apply update e).All fun r => r.key = m.key e :=
  (m.apply_claims update e).mono fun _ => hn.claims_iff.mp

theorem attempt_agree (hn : m.Named) (h : w.memory.AgreeOn keys w'.memory)
    (hk : ∀ key, resolver.keyOf? m = some key → keys key) (hd : w'.memory.delays = [])
    (update : Bool) (deadline now : Nat) :
    (m.attempt World.stagedServices update resolver deadline ⟨now, w⟩).1 =
        (m.attempt World.stagedServices update resolver deadline ⟨now, w'⟩).1 ∧
      (m.attempt World.stagedServices update resolver deadline ⟨now, w⟩).2.world.memory.AgreeOn
        keys
        (m.attempt World.stagedServices update resolver deadline ⟨now, w'⟩).2.world.memory := by
  unfold attempt
  cases hr : resolver.resolve m.kind with
  | error cause => exact ⟨rfl, h⟩
  | ok e =>
    have hkey := hk _ (Resolver.keyOf?_of_resolve hr)
    have hall : (m.apply update e).All fun r => keys r.key :=
      (m.apply_all_key hn update e).mono fun r hre => hre ▸ hkey
    obtain ⟨hresult, hexchanges, hmemory⟩ := Dialogue.converse_agree hall h now
    simp only [Dialogue.hold_of_prompt _ (h.delays.trans hd), Dialogue.hold_of_prompt _ hd, hresult,
      hexchanges]
    exact ⟨trivial, hmemory⟩

theorem attempt_elsewhere (hn : m.Named) (keys : ObjectKey → Prop)
    (hk : ∀ key, resolver.keyOf? m = some key → ¬ keys key) (hd : w.memory.delays = [])
    (update : Bool) (deadline now : Nat) :
    (m.attempt World.stagedServices update resolver deadline ⟨now, w⟩).2.now = now ∧
      (m.attempt World.stagedServices update resolver deadline ⟨now, w⟩).2.world.memory.AgreeOn
        keys w.memory := by
  unfold attempt
  cases hr : resolver.resolve m.kind with
  | error cause => exact ⟨rfl, .refl keys _⟩
  | ok e =>
    have hkey := hk _ (Resolver.keyOf?_of_resolve hr)
    have hall : (m.apply update e).All fun r => ¬ keys r.key :=
      (m.apply_all_key hn update e).mono fun r hre => hre ▸ hkey
    have hmemory := Dialogue.converse_elsewhere hall w.memory
    simp only [Dialogue.hold_of_prompt _ hd]
    exact ⟨trivial, hmemory⟩

end Manifest

structure SweptApart (resolver : Resolver) (alone : Manifest → Attempt × Moment World)
    (pending : List Manifest) (before : Memory) (made : Sweep World) : Prop where
  attempts : made.attempts = pending.map fun m => (alone m).1
  interrupted : made.report.interrupted = false
  here : ∀ m ∈ pending, ∀ key, resolver.keyOf? m = some key →
    made.stage.moment.world.memory.object? key = (alone m).2.world.memory.object? key
  elsewhere : ∀ key, key ∉ pending.filterMap resolver.keyOf? →
    made.stage.moment.world.memory.object? key = before.object? key

structure AttemptedApart (resolver : Resolver) (m : Manifest) (rest : List Manifest)
    (alone : Attempt × Moment World) (origin before after : Moment World) (a : Attempt) :
    Prop where
  attempt : a = alone.1
  now : after.now = origin.now
  agree : after.world.memory.AgreeOn (· ∈ rest.filterMap resolver.keyOf?) origin.world.memory
  here : ∀ key, resolver.keyOf? m = some key → key ∉ rest.filterMap resolver.keyOf? ∧
    after.world.memory.object? key = alone.2.world.memory.object? key
  elsewhere : ∀ key, resolver.keyOf? m ≠ some key →
    after.world.memory.object? key = before.world.memory.object? key

theorem mem_keys_cons {m : Manifest} {rest : List Manifest} {key : ObjectKey} :
    key ∈ (m :: rest).filterMap resolver.keyOf? ↔
      resolver.keyOf? m = some key ∨ key ∈ rest.filterMap resolver.keyOf? := by
  rw [List.filterMap_cons]
  cases resolver.keyOf? m with
  | none => simp
  | some k => simp [eq_comm]

theorem attempt_apart {rest : List Manifest} {s s' : Stage World} {a : Attempt}
    {origin : Moment World} (hn : m.Named)
    (hd : ((m :: rest).filterMap resolver.keyOf?).Nodup) (hdelays : origin.world.memory.delays = [])
    (hnow : s.moment.now = origin.now)
    (hagree : s.moment.world.memory.AgreeOn (· ∈ (m :: rest).filterMap resolver.keyOf?)
      origin.world.memory)
    (ha : s.attempt World.stagedServices options resolver deadline m = (a, s')) :
    AttemptedApart resolver m rest
      (m.attempt World.stagedServices options.update resolver deadline origin) origin s.moment
      s'.moment a := by
  have hm := Stage.attempt_moment ha
  have hs : s.moment = ⟨origin.now, s.moment.world⟩ := by rw [← hnow]
  have hsd : s.moment.world.memory.delays = [] := hagree.delays.trans hdelays
  rw [hs] at hm
  have hfresh : ∀ key, resolver.keyOf? m = some key → key ∉ rest.filterMap resolver.keyOf? := by
    intro key hk
    rw [List.filterMap_cons, hk] at hd
    exact (List.nodup_cons.mp hd).1
  obtain ⟨hattempt, hafter⟩ := m.attempt_agree hn hagree
    (fun key hk => mem_keys_cons.mpr (.inl hk)) hdelays options.update deadline origin.now
  obtain ⟨hnow', hrest⟩ := m.attempt_elsewhere hn (· ∈ rest.filterMap resolver.keyOf?) hfresh hsd
    options.update deadline origin.now
  obtain ⟨_, helse⟩ := m.attempt_elsewhere hn (resolver.keyOf? m ≠ some ·)
    (fun key hk hne => hne hk) hsd options.update deadline origin.now
  rw [hm] at hattempt hafter hnow' hrest helse
  refine ⟨hattempt, hnow', ?_, fun key hk => ⟨hfresh key hk, ?_⟩, helse.object?⟩
  · exact hrest.trans (hagree.mono fun key hk => mem_keys_cons.mpr (.inr hk))
  · exact hafter.object? key (mem_keys_cons.mpr (.inl hk))

theorem SweptApart.cons {rest : List Manifest} {alone : Manifest → Attempt × Moment World}
    {origin before after : Moment World} {a : Attempt} {later made : Sweep World}
    (h : AttemptedApart resolver m rest (alone m) origin before after a)
    (hl : SweptApart resolver alone rest after.world.memory later)
    (hattempts : made.attempts = a :: later.attempts)
    (hinterrupted : made.report.interrupted = later.report.interrupted)
    (hstage : made.stage = later.stage) :
    SweptApart resolver alone (m :: rest) before.world.memory made where
  attempts := by rw [hattempts, hl.attempts, h.attempt, List.map_cons]
  interrupted := hinterrupted.trans hl.interrupted
  here m' hm key hk := by
    rw [hstage]
    obtain rfl | hm := List.mem_cons.mp hm
    · obtain ⟨hfresh, hhere⟩ := h.here key hk
      exact (hl.elsewhere key hfresh).trans hhere
    · exact hl.here m' hm key hk
  elsewhere key hk := by
    rw [mem_keys_cons, not_or] at hk
    rw [hstage]
    exact (hl.elsewhere key hk.2).trans (h.elsewhere key hk.1)

theorem Sweeps.sweptApart {pending : List Manifest} {s : Stage World} {made : Sweep World}
    {origin : Moment World}
    (hs : Sweeps World.stagedServices options resolver deadline pending s made)
    (hn : ∀ m ∈ pending, m.Named) (hd : (pending.filterMap resolver.keyOf?).Nodup)
    (hdelays : origin.world.memory.delays = []) (hlt : origin.now < deadline)
    (hnow : s.moment.now = origin.now)
    (hagree : s.moment.world.memory.AgreeOn (· ∈ pending.filterMap resolver.keyOf?)
      origin.world.memory) :
    SweptApart resolver
      (fun m => m.attempt World.stagedServices options.update resolver deadline origin) pending
      s.moment.world.memory made := by
  have hrest : ∀ {m : Manifest} {rest : List Manifest},
      ((m :: rest).filterMap resolver.keyOf?).Nodup → (rest.filterMap resolver.keyOf?).Nodup :=
    fun hd => hd.sublist ((List.sublist_cons_self _ _).filterMap _)
  -- Along the sweep the store keeps agreeing with what it was at the start, at all keys that are still
  -- to come. What is elsewhere may have changed by then.
  induction hs with
  | nil => exact ⟨rfl, rfl, nofun, fun _ _ => rfl⟩
  | late hl => exact absurd hlt (Nat.not_lt.mpr (hnow ▸ hl))
  | @success m rest s a s' done later _ ha _ _ ih =>
    obtain ⟨hm, hn⟩ := List.forall_mem_cons.mp hn
    have happ := attempt_apart hm hd hdelays hnow hagree ha
    exact .cons happ (ih hn (hrest hd) happ.now happ.agree) rfl (afterSuccess_interrupted ..) rfl
  | @cutOff m rest s a s' e _ ha hr hcut =>
    obtain ⟨hm, _⟩ := List.forall_mem_cons.mp hn
    have happ := attempt_apart hm hd hdelays hnow hagree ha
    have hlate := (Stage.attempts ha).deadline_le hr hcut
    exact absurd hlt (Nat.not_lt.mpr (happ.now ▸ hlate))
  | @failure m rest s a s' e later _ ha _ _ _ ih =>
    obtain ⟨hm, hn⟩ := List.forall_mem_cons.mp hn
    have happ := attempt_apart hm hd hdelays hnow hagree ha
    exact .cons happ (ih hn (hrest hd) happ.now happ.agree) rfl rfl rfl

structure SweptAlike (alone : Manifest → Attempt) (pending pending' : List Manifest)
    (made made' : Sweep World) : Prop where
  attempts : made.attempts = pending.map alone ∧ made'.attempts = pending'.map alone
  object? : ∀ key, made.stage.moment.world.memory.object? key =
    made'.stage.moment.world.memory.object? key
  number : ∀ outcome, made.report.number outcome = made'.report.number outcome
  failed : made.report.failed = made'.report.failed
  needsReload : made.report.needsReload = made'.report.needsReload
  interrupted : made.report.interrupted = false ∧ made'.report.interrupted = false
  remaining : made.remaining = (pending.filter fun m => !(alone m).succeeded) ∧
    made'.remaining = pending'.filter fun m => !(alone m).succeeded

theorem SweptApart.object?_eq {alone : Manifest → Attempt × Moment World}
    {pending pending' : List Manifest} {before : Memory} {made made' : Sweep World}
    (h : SweptApart resolver alone pending before made)
    (h' : SweptApart resolver alone pending' before made') (hp : pending.Perm pending')
    (key : ObjectKey) :
    made.stage.moment.world.memory.object? key = made'.stage.moment.world.memory.object? key := by
  by_cases hk : key ∈ pending.filterMap resolver.keyOf?
  · obtain ⟨m, hm, hkey⟩ := List.mem_filterMap.mp hk
    exact (h.here m hm key hkey).trans (h'.here m (hp.subset hm) key hkey).symm
  · have hk' : key ∉ pending'.filterMap resolver.keyOf? := fun hm =>
      hk ((hp.filterMap _).symm.subset hm)
    exact (h.elsewhere key hk).trans (h'.elsewhere key hk').symm

/-- Sweeping manifests of different objects in another order makes no difference but of order. -/
theorem sweep_perm (options : Options) (resolver : Resolver) {pending pending' : List Manifest}
    (hp : pending.Perm pending') (hn : ∀ m ∈ pending, m.Named)
    (hd : (pending.filterMap resolver.keyOf?).Nodup) (stage : Stage World)
    (hdelays : stage.moment.world.memory.delays = []) (hlt : stage.moment.now < deadline) :
    SweptAlike
      (fun m =>
        (m.attempt World.stagedServices options.update resolver deadline stage.moment).1)
      pending pending' (sweep World.stagedServices options resolver deadline pending stage)
      (sweep World.stagedServices options resolver deadline pending' stage) := by
  have hs := sweep_sweeps World.stagedServices options resolver deadline pending stage
  have hs' := sweep_sweeps World.stagedServices options resolver deadline pending' stage
  have ha := hs.sweptApart hn hd hdelays hlt rfl (.refl _ _)
  have ha' := hs'.sweptApart (fun m hm => hn m (hp.symm.subset hm))
    ((hp.filterMap _).nodup_iff.mp hd) hdelays hlt rfl (.refl _ _)
  have hattempts : (sweep World.stagedServices options resolver deadline pending stage).attempts.Perm
      (sweep World.stagedServices options resolver deadline pending' stage).attempts := by
    rw [ha.attempts, ha'.attempts]
    exact hp.map _
  constructor
  case attempts => exact ⟨ha.attempts, ha'.attempts⟩
  case object? => exact ha.object?_eq ha' hp
  case number =>
    intro outcome
    rw [hs.number_eq, hs'.number_eq]
    exact hattempts.countP_eq _
  case failed =>
    rw [hs.failed_eq, hs'.failed_eq]
    exact hattempts.countP_eq _
  case needsReload =>
    rw [hs.needsReload_eq, hs'.needsReload_eq]
    exact hattempts.any_eq
  case interrupted => exact ⟨ha.interrupted, ha'.interrupted⟩
  case remaining =>
    rw [hs.remaining_eq, hs'.remaining_eq, ha.attempts, ha'.attempts]
    exact ⟨unapplied_eq_filter _ _, unapplied_eq_filter _ _⟩

def otherManifest : Manifest :=
  ⟨"other.yaml", ⟨"", "v1", "ConfigMap"⟩, "other", some "apps",
    .object [("metadata", .object [("name", .text "other")])]⟩

def refusingMemory : Memory :=
  { Memory.empty with failures := [⟨.create, some "other", 500, "refused"⟩] }

theorem sweep_perm_refusing :
    let manifests := [stateManifest .null, otherManifest]
    let resolver := Resolver.ofGroups [.single "" "v1" [⟨"configmaps", "ConfigMap", true⟩]]
    let stage : Stage World := ⟨⟨0, .still refusingMemory (.ofGroups [])⟩, ⟨true, []⟩⟩
    let made := sweep World.stagedServices ⟨false, false, [], 5⟩ resolver 100 manifests stage
    let made' := sweep World.stagedServices ⟨false, false, [], 5⟩ resolver 100 manifests.reverse stage
    manifests.Perm manifests.reverse ∧ (∀ m ∈ manifests, m.Named) ∧
      (manifests.filterMap resolver.keyOf?).Nodup ∧ stage.moment.world.memory.delays = [] ∧
      stage.moment.now < 100 ∧
      made.report.created = made'.report.created ∧ made.report.created = 1 ∧
      made.remaining = [otherManifest] ∧ made'.remaining = [otherManifest] := by
  intro manifests resolver stage made made'
  have hp : manifests.Perm manifests.reverse := (List.reverse_perm _).symm
  have hn : ∀ m ∈ manifests, m.Named :=
    List.forall_mem_cons.mpr ⟨Manifest.named_of_ofTree (ofTree_stateMap _),
      List.forall_mem_singleton.mpr ⟨rfl, by decide⟩⟩
  have hd : (manifests.filterMap resolver.keyOf?).Nodup := by decide +kernel
  have halike := sweep_perm ⟨false, false, [], 5⟩ resolver hp hn hd stage rfl
    (show stage.moment.now < 100 by decide)
  obtain ⟨hleft, hleft'⟩ := halike.remaining
  exact ⟨hp, hn, hd, rfl, by decide, halike.number .created, by decide +kernel, hleft.trans rfl,
    hleft'.trans rfl⟩

end ManifestSync
