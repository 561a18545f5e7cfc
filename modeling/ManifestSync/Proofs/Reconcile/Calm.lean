import ManifestSync.Proofs.Catalog.Schedule
import ManifestSync.Proofs.Reconcile.Sweep
import ManifestSync.Proofs.Store.Calm

namespace ManifestSync

open Scenario

variable {options : Options} {resolver : Resolver} {deadline now : Nat} {memory : Memory}
  {feed : Feed} {m : Manifest} {s s' : Stage World} {a : Attempt}

/-- An attempt over a calm store succeeds at once if the kind is resolved, and it fails at once for
that reason alone. -/
theorem attempt_calmly (hn : m.Named) (hc : memory.Calm)
    (hs : s.moment = ⟨now, .still memory feed⟩)
    (ha : s.attempt World.stagedServices options resolver deadline m = (a, s')) :
    (∃ e done memory', resolver.resolve m.kind = .ok e ∧ a.result = .ok done ∧
      s'.moment = ⟨now, .still memory' feed⟩ ∧ memory'.Calm ∧
      memory'.gets = memory.gets ++ [m.look e]) ∨
    ∃ cause, resolver.resolve m.kind = .error cause ∧
      a.result = .error (.typeNotResolved m.path cause) ∧ s'.moment = s.moment := by
  have hattempt := Stage.attempt_moment ha
  cases he : resolver.resolve m.kind with
  | ok e =>
    left
    obtain ⟨outcome, memory', hm, hg⟩ := m.converse_apply_ok hn hc options.update e
    obtain ⟨hr, hw⟩ := Dialogue.hold_of_calm (m.apply options.update e) hc feed deadline now
    have hc' := Dialogue.converse_calm (m.apply options.update e) hc
    rw [hm] at hr hw hc'
    rw [Manifest.attempt, he, hs] at hattempt
    simp only [hr, hw, Prod.mk.injEq] at hattempt
    obtain ⟨rfl, hmoment⟩ := hattempt
    exact ⟨e, ⟨e, outcome⟩, memory', rfl, rfl, hmoment.symm, hc', hg⟩
  | error cause =>
    right
    rw [Manifest.attempt, he] at hattempt
    simp only [Prod.mk.injEq] at hattempt
    obtain ⟨rfl, hmoment⟩ := hattempt
    exact ⟨cause, rfl, rfl, hmoment.symm⟩

structure SweptCalmly (resolver : Resolver) (now : Nat) (memory : Memory) (feed : Feed)
    (pending : List Manifest) (made : Sweep World) : Prop where
  remaining : made.remaining = pending.filter fun m => (resolver.found? m.kind).isNone
  interrupted : made.report.interrupted = false
  needsReload : made.remaining ≠ [] → made.report.needsReload = true
  moment : ∃ memory', made.stage.moment = ⟨now, .still memory' feed⟩ ∧ memory'.Calm ∧
    memory'.gets = memory.gets ++
      pending.filterMap fun m => (resolver.found? m.kind).map m.look

theorem Sweeps.sweptCalmly {pending : List Manifest} {made : Sweep World}
    (hs : Sweeps World.stagedServices options resolver deadline pending s made)
    (hn : ∀ m ∈ pending, m.Named) (hc : memory.Calm)
    (hm : s.moment = ⟨now, .still memory feed⟩) (hd : now < deadline) :
    SweptCalmly resolver now memory feed pending made := by
  induction hs generalizing memory with
  | nil => exact ⟨rfl, rfl, nofun, memory, hm, hc, (List.append_nil _).symm⟩
  | late hl =>
    rw [hm] at hl
    exact absurd hl (Nat.not_le.mpr hd)
  | @success m rest s a s' done later _ ha hr _ ih =>
    obtain ⟨hnm, hnr⟩ := List.forall_mem_cons.mp hn
    obtain ⟨e, _, memory', he, _, hmoment, hc', hg⟩ | ⟨_, _, hu, _⟩ := attempt_calmly hnm hc hm ha
    · have hi := ih hnr hc' hmoment
      obtain ⟨memory'', hmoment'', hc'', hg''⟩ := hi.moment
      have hf := Resolver.found?_eq_some.mpr he
      refine ⟨?_, ?_, ?_, memory'', hmoment'', hc'', ?_⟩
      · rw [List.filter_cons_of_neg (by simp [hf])]
        exact hi.remaining
      · exact (afterSuccess_interrupted ..).trans hi.interrupted
      · exact fun hne => (afterSuccess_needsReload ..).trans (hi.needsReload hne)
      · rw [hg'', hg, List.append_assoc, List.filterMap_cons, hf]
        rfl
    · exact nomatch hr.symm.trans hu
  | @cutOff m rest s a s' e _ ha hr hcut =>
    obtain ⟨hnm, _⟩ := List.forall_mem_cons.mp hn
    obtain ⟨_, _, _, _, hu, _⟩ | ⟨_, _, hu, _⟩ := attempt_calmly hnm hc hm ha
    · exact nomatch hr.symm.trans hu
    · cases hr.symm.trans hu
      cases hcut
  | @failure m rest s a s' e later _ ha hr _ _ ih =>
    obtain ⟨hnm, hnr⟩ := List.forall_mem_cons.mp hn
    obtain ⟨_, _, _, _, hu, _⟩ | ⟨cause, he, hu, hmoment⟩ := attempt_calmly hnm hc hm ha
    · exact nomatch hr.symm.trans hu
    · have hi := ih hnr hc (hmoment.trans hm)
      obtain ⟨memory', hmoment', hc', hg'⟩ := hi.moment
      have hf := Resolver.found?_eq_none.mpr ⟨cause, he⟩
      refine ⟨?_, hi.interrupted, fun _ => ?_, memory', hmoment', hc', ?_⟩
      · rw [List.filter_cons_of_pos (by simp [hf]), ← hi.remaining]
      · cases hr.symm.trans hu
        rfl
      · rw [hg', List.filterMap_cons, hf]
        rfl

end ManifestSync
