import ManifestSync.Proofs.Reconcile.Chronicle
import ManifestSync.Proofs.Reconcile.Preservation
import ManifestSync.Proofs.Scenario.Staged
import ManifestSync.Proofs.Store.Answers
import ManifestSync.Proofs.Store.Calm

namespace ManifestSync

open Scenario

/-- All requests of the dialogue but the last one only look, and it succeeds if that does. -/
def Dialogue.Commits {ε α : Type} : Dialogue (Except ε α) → Prop
  | .done _ => True
  | .ask r next => r.verb = .get ∧ (∀ answer, (next answer).Commits) ∨
    (∀ stored, ∃ result, next (.ok stored) = .done (.ok result)) ∧
      ∀ cause, ∃ error, next (.error cause) = .done (.error error)

namespace Manifest

/-- How the object of the manifest is ensured at a key: it is put there if there is none, and one that
is there stays or is merged with a patch. -/
inductive Ensures (m : Manifest) (key : ObjectKey) (t : Table ObjectKey Tree) :
    Outcome → Table ObjectKey Tree → Prop where
  | created : t.find? key = none → m.Ensures key t .created (t.set key m.object)
  | unchanged {live} : t.find? key = some live → m.Ensures key t .unchanged t
  | patched {live patch} : t.find? key = some live →
      m.Ensures key t .patched (t.set key (live.merge patch))

/-- What applying the manifest leaves of a world: nothing but requests and time came in between if it
has no outcome, else the object was ensured last. -/
inductive Leaves (m : Manifest) (e : Endpoint) (w : World) : Option Outcome → World → Prop where
  | idle {w'} : w.Idles w' → m.Leaves e w none w'
  | ensured {w' outcome memory} : w.Idles w' →
      m.Ensures (m.key e) w'.memory.objects outcome memory.objects →
      m.Leaves e w (some outcome) { w' with memory }

variable {m : Manifest} {e : Endpoint} {update : Bool} {resolver : Resolver} {deadline : Nat}
  {moment moment' : Moment World} {a : Attempt}

namespace Ensures

variable {key : ObjectKey} {t u : Table ObjectKey Tree} {outcome : Outcome}

theorem keys_eq (h : m.Ensures key t outcome u) :
    u.keys = t.keys ++ if outcome = .created then [key] else [] := by
  cases h with
  | created hn => exact Table.keys_set_of_not_mem (Table.find?_eq_none.mp hn) _
  | unchanged => exact (List.append_nil _).symm
  | patched hl =>
    have hk : key ∈ t.keys := Table.isSome_find?.mp (Option.isSome_of_mem hl)
    exact (Table.keys_set_of_mem hk _).trans (List.append_nil _).symm

theorem not_mem_keys (h : m.Ensures key t outcome u) (ho : outcome = .created) :
    key ∉ t.keys := by
  cases h with
  | created hn => exact Table.find?_eq_none.mp hn
  | unchanged | patched => cases ho

theorem mem_keys (h : m.Ensures key t outcome u) : key ∈ u.keys := by
  rw [h.keys_eq]
  cases h with
  | created => simp
  | unchanged hl | patched hl =>
    exact List.mem_append_left _ (Table.isSome_find?.mp (Option.isSome_of_mem hl))

end Ensures

theorem holds_ask {α : Type} {r : Request} {next : Answer → Dialogue α} {held : Conversation World α}
    (h : (Dialogue.ask r next).Holds World.stagedServices deadline moment held) :
    ∃ w', moment.world.Idles w' ∧
      (held.result? = none ∧ held.moment.world = w' ∨
        ∃ moment' rest, moment'.world = { w' with memory := (w'.memory.settle r).2 } ∧
          (next (w'.memory.settle r).1).Holds World.stagedServices deadline moment' rest ∧
          held.result? = rest.result? ∧ held.moment = rest.moment) := by
  have hs := World.run_send_sends r moment.world deadline moment.now
  cases h with
  | @cutOff _ _ _ moment' ha =>
    rw [ha] at hs
    obtain ⟨now', w'⟩ := moment'
    cases hs with
    | cutOff hi => exact ⟨w', hi, .inl ⟨rfl, rfl⟩⟩
  | @answered _ _ _ answer moment' rest ha hrest =>
    rw [ha] at hs
    obtain ⟨now', w'⟩ := moment'
    cases hs with
    | answered hi => exact ⟨_, hi, .inr ⟨_, rest, rfl, hrest, rfl, rfl⟩⟩

theorem idles_of_commits {ε α : Type} {d : Dialogue (Except ε α)}
    {held : Conversation World (Except ε α)}
    (h : d.Holds World.stagedServices deadline moment held) (hd : d.Commits)
    (hr : ∀ result, held.result? ≠ some (.ok result)) :
    moment.world.Idles held.moment.world := by
  induction d generalizing moment held with
  | done result =>
    cases h
    exact .refl
  | ask r next ih =>
    obtain ⟨w', hi, ⟨_, rfl⟩ | ⟨moment', rest, hw, hrest, hresult, hmoment⟩⟩ :=
      holds_ask h
    · exact hi
    rw [hresult] at hr
    rw [hmoment]
    obtain ⟨hget, hnext⟩ | ⟨hok, herror⟩ := hd
    · have hsame : moment'.world = w' := by rw [hw, Memory.settle_of_get hget]
      have hlater := ih _ hrest (hnext _) hr
      exact hi.trans (hsame ▸ hlater)
    cases hm : (w'.memory.settle r).1 with
    | ok stored =>
      obtain ⟨result, hn⟩ := hok stored
      rw [hm, hn] at hrest
      cases hrest
      exact absurd rfl (hr result)
    | error cause =>
      obtain ⟨error, hn⟩ := herror cause
      rw [hm, hn] at hrest
      cases hrest
      rw [hw, Memory.settle_of_error hm]
      exact hi

theorem apply_commits (update : Bool) (m : Manifest) (e : Endpoint) :
    (m.apply update e).Commits := by
  have hlast : ∀ (r : Request) outcome, (r.lastly outcome (m.target e)).Commits :=
    fun _ _ => .inr ⟨fun _ => ⟨_, rfl⟩, fun _ => ⟨_, rfl⟩⟩
  obtain ⟨next, he, hn⟩ := m.apply_continues update e
  rw [he]
  refine .inl ⟨rfl, fun answer => ?_⟩
  have hc := hn answer
  generalize next answer = d at hc ⊢
  cases hc with
  | unchanged | refused => trivial
  | patch | create => exact hlast _ _

theorem leaves_last {r : Request} {outcome : Outcome} {target : String} {w : World}
    {held : Conversation World (Except ApplyError Outcome)}
    (hs : ∀ (memory : Memory) stored, (memory.settle r).1 = .ok stored →
      m.Ensures (m.key e) memory.objects outcome (memory.settle r).2.objects)
    (hi : w.Idles moment.world)
    (h : (r.lastly outcome target).Holds World.stagedServices deadline moment held) :
    m.Leaves e w (held.result?.bind Except.toOption) held.moment.world := by
  obtain ⟨w', hi', ⟨hnone, rfl⟩ | ⟨moment', rest, hw, hrest, hresult, hmoment⟩⟩ := holds_ask h
  · rw [hnone]
    exact .idle (hi.trans hi')
  rw [hresult, hmoment]
  cases hm : (w'.memory.settle r).1 with
  | ok stored =>
    rw [hm] at hrest
    cases hrest
    rw [hw]
    exact .ensured (hi.trans hi') (hs _ stored hm)
  | error cause =>
    rw [hm] at hrest
    cases hrest
    rw [hw, Memory.settle_of_error hm]
    exact .idle (hi.trans hi')

theorem settle_create_ensures (hn : m.Named) {memory : Memory} {stored : Tree}
    (h : (memory.settle (.create e m.inNamespace? m.object)).1 = .ok stored) :
    m.Ensures (m.key e) memory.objects .created
      (memory.settle (.create e m.inNamespace? m.object)).2.objects := by
  obtain ⟨hnone, hm⟩ := Memory.settle_create h
  rw [hn.name_eq] at hnone hm
  rw [hm]
  exact .created hnone

theorem settle_patch_ensures {patch : Tree} {memory : Memory} {stored : Tree}
    (h : (memory.settle (.patch e m.inNamespace? m.name patch)).1 = .ok stored) :
    m.Ensures (m.key e) memory.objects .patched
      (memory.settle (.patch e m.inNamespace? m.name patch)).2.objects := by
  obtain ⟨live, hl, hm⟩ := Memory.settle_patch h
  rw [hm]
  exact .patched hl

theorem leaves_apply (hn : m.Named)
    {held : Conversation World (Except ApplyError Outcome)}
    (h : (m.apply update e).Holds World.stagedServices deadline moment held) :
    m.Leaves e moment.world (held.result?.bind Except.toOption) held.moment.world := by
  obtain ⟨next, he, hnext⟩ := m.apply_continues update e
  rw [he] at h
  obtain ⟨w', hi, ⟨hnone, rfl⟩ | ⟨moment', rest, hw, hrest, hresult, hmoment⟩⟩ := holds_ask h
  · rw [hnone]
    exact .idle hi
  rw [hresult, hmoment]
  -- Looking for the object leaves the world as it was found, whatever the answer is.
  have hsame : moment'.world = w' := by
    rw [hw, Memory.settle_of_get (r := .get e m.inNamespace? m.name) rfl]
  have hc := hnext (w'.memory.settle (.get e m.inNamespace? m.name)).1
  generalize hm : (w'.memory.settle (.get e m.inNamespace? m.name)).1 = answer at hc hrest
  generalize next answer = d at hc hrest
  cases hc with
  | @unchanged live =>
    obtain ⟨hl, _⟩ := Memory.settle_get hm
    cases hrest
    rw [hsame]
    exact .ensured hi (.unchanged hl)
  | patch => exact leaves_last (fun _ _ => settle_patch_ensures) (hsame ▸ hi) hrest
  | create => exact leaves_last (fun _ _ => settle_create_ensures hn) (hsame ▸ hi) hrest
  | refused =>
    cases hrest
    exact .idle (hsame ▸ hi)

namespace Attempts

theorem leaves (hn : m.Named)
    (h : m.Attempts World.stagedServices update resolver deadline moment a moment')
    {done : Applied} (hr : a.result = .ok done) :
    m.Leaves done.endpoint moment.world (some done.outcome) moment'.world := by
  cases h with
  | unresolved | refused | cutOff => cases hr
  | applied _ hh hres =>
    have hl := leaves_apply hn hh
    rw [hres] at hl
    cases hr
    exact hl

theorem idles
    (h : m.Attempts World.stagedServices update resolver deadline moment a moment')
    {error : ApplyError} (hr : a.result = .error error) : moment.world.Idles moment'.world := by
  cases h with
  | unresolved => exact .refl
  | applied => cases hr
  | refused _ hh hres | cutOff _ hh hres =>
    refine idles_of_commits hh (m.apply_commits update _) fun result hok => ?_
    exact nomatch hres.symm.trans hok

end Attempts

end Manifest

def Attempt.key? (a : Attempt) : Option ObjectKey :=
  a.result.toOption.map fun done => a.manifest.key done.endpoint

theorem Attempt.key?_eq_some {a : Attempt} {key : ObjectKey} :
    a.key? = some key ↔ ∃ done, a.result = .ok done ∧ a.manifest.key done.endpoint = key := by
  unfold key?
  cases a.result <;> simp [Except.toOption]

namespace Scenario.World

def keys (w : World) : List ObjectKey := w.memory.objects.keys

theorem keys_change (c : Change) (w : World) : w.keys ⊆ (w.change c).keys := by
  cases c with
  | addObject e object =>
    exact Table.keys_subset_set _ _ _
  | _ => exact fun _ hk => hk

theorem keys_drift (before after : Nat) (w : World) : w.keys ⊆ (drift before after w).keys :=
  drift_induction (P := fun w' => w.keys ⊆ w'.keys) before after (fun _ _ _ hk => hk)
    fun w' c _ hw _ hk => keys_change c.2 w' (hw hk)

theorem Idles.keys_subset {w w' : World} (h : w.Idles w') : w.keys ⊆ w'.keys := by
  induction h with
  | refl => exact fun _ hk => hk
  | record r _ ih => exact ih
  | wait before after _ ih => exact fun _ hk => keys_drift before after _ (ih hk)

end Scenario.World

theorem Manifest.Leaves.keys {m : Manifest} {e : Endpoint} {w w' : World} {outcome : Outcome}
    (h : m.Leaves e w (some outcome) w') : w.keys ⊆ w'.keys ∧ m.key e ∈ w'.keys := by
  cases h with
  | ensured hi he =>
    refine ⟨fun key hk => ?_, he.mem_keys⟩
    unfold World.keys
    rw [he.keys_eq]
    exact List.mem_append_left _ (hi.keys_subset hk)

theorem presence_chronicle (options : Options) (deadline : Nat) :
    World.stagedServices.Chronicle options deadline Manifest.Named fun attempts m m' =>
      m.world.keys ⊆ m'.world.keys ∧
        ∀ a ∈ attempts, ∀ key, a.key? = some key → key ∈ m'.world.keys where
  nil _ := ⟨fun _ hk => hk, fun _ ha => absurd ha List.not_mem_nil⟩
  append := by
    rintro as bs m m' m'' ⟨hs, ha⟩ ⟨hs', hb⟩
    refine ⟨fun _ hk => hs' (hs hk), fun a hmem key hk => ?_⟩
    obtain hmem | hmem := List.mem_append.mp hmem
    · exact hs' (ha a hmem key hk)
    · exact hb a hmem key hk
  pause m instant _ := ⟨(World.Idles.refl.until instant).keys_subset,
    fun _ ha => absurd ha List.not_mem_nil⟩
  discover _ := ⟨fun _ hk => hk, fun _ ha => absurd ha List.not_mem_nil⟩
  attempt := by
    intro resolver m moment a moment' hn _ h
    cases hr : a.result with
    | error error =>
      refine ⟨(h.idles hr).keys_subset, List.forall_mem_singleton.mpr fun key hk => ?_⟩
      obtain ⟨done, hok, _⟩ := Attempt.key?_eq_some.mp hk
      cases hr.symm.trans hok
    | ok done =>
      obtain ⟨hs, hm⟩ := (h.leaves hn hr).keys
      refine ⟨hs, List.forall_mem_singleton.mpr fun key hk => ?_⟩
      obtain ⟨done', hok, rfl⟩ := Attempt.key?_eq_some.mp hk
      cases hr.symm.trans hok
      rw [h.manifest_eq]
      exact hm

end ManifestSync
