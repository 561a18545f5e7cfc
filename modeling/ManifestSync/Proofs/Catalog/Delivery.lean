import ManifestSync.Proofs.Catalog.Growth
import ManifestSync.Proofs.Catalog.StableOrder
import Mathlib.Data.List.Induction

namespace ManifestSync

namespace Feed

inductive Use where
  | addGroup (g : ServedGroup)
  | revealOnCall (number : Nat) (g : ServedGroup)
  | failWith (message : String)
  | clearFailure
  | call

namespace Use

def apply (f : Feed) : Use → Feed
  | .addGroup g => f.addGroup g
  | .revealOnCall number g => f.revealOnCall number g
  | .failWith message => f.failWith message
  | .clearFailure => f.clearFailure
  | .call => f.serve.2

def isCall : Use → Bool
  | .call => true
  | _ => false

def added? : Use → Option ServedGroup
  | .addGroup g => some g
  | _ => none

def scheduled? : Use → Option (Nat × ServedGroup)
  | .revealOnCall number g => some (number, g)
  | _ => none

def group? (u : Use) : Option ServedGroup := u.added?.or (u.scheduled?.map (·.2))

def failure? : Use → Option (Option String)
  | .failWith message => some (some message)
  | .clearFailure => some none
  | _ => none

end Use

def after (f : Feed) (uses : List Use) : Feed := uses.foldl Use.apply f

def served (f : Feed) : List Use → List (List ServedGroup)
  | [] => []
  | .call :: uses => f.serve.1.toOption.toList ++ f.serve.2.served uses
  | u :: uses => (u.apply f).served uses

def failureAfter (uses : List Use) : Option String := (uses.filterMap Use.failure?).getLast?.join

/-- No group is added, and groups are scheduled before the first call only. -/
def Planned (uses : List Use) : Prop :=
  (∀ u ∈ uses, u.added? = none) ∧ uses.Pairwise fun u v => u.isCall = true → v.scheduled? = none

/-- The call that serves an entry of a plan; there is none before the first one. -/
def turn (entry : Nat × ServedGroup) : Nat := max entry.1 1

theorem turn_pos (entry : Nat × ServedGroup) : 0 < turn entry := le_max_right entry.1 1

theorem turn_le_succ {entry : Nat × ServedGroup} {n : Nat} :
    turn entry ≤ n + 1 ↔ entry.1 ≤ n + 1 := by
  rw [turn, Nat.max_le]
  exact and_iff_left (Nat.le_add_left 1 n)

/-- What a plan brings by a call, in order of calls, and for one call in the order of the plan. -/
def broughtBy (number : Nat) (plan : List (Nat × ServedGroup)) : List ServedGroup :=
  ((plan.filter (·.1 ≤ number)).mergeSort fun a b => turn a ≤ turn b).map (·.2)

theorem broughtBy_succ (n : Nat) (plan : List (Nat × ServedGroup)) :
    broughtBy (n + 1) plan =
      ((plan.filter (turn · ≤ n + 1)).mergeSort fun a b => turn a ≤ turn b).map (·.2) := by
  simp only [broughtBy, turn_le_succ]

variable {f : Feed} {uses : List Use}

theorem groups_advance (f : Feed) :
    f.advance.groups = f.groups ++ (f.pending.filter (·.1 ≤ f.calls + 1)).map (·.2) := by
  unfold advance
  simp only [List.partition_eq_filter_filter]

theorem pending_advance (f : Feed) :
    f.advance.pending = f.pending.filter (f.calls + 1 < ·.1) := by
  unfold advance
  simp only [List.partition_eq_filter_filter]
  exact List.filter_congr fun entry _ => by simp [← decide_not]

theorem filterMap_singleton_toList {α β : Type} (f : α → Option β) (a : α) :
    [a].filterMap f = (f a).toList := by
  cases h : f a <;> simp [h]

theorem after_snoc (f : Feed) (uses : List Use) (u : Use) :
    f.after (uses ++ [u]) = u.apply (f.after uses) := by
  rw [after, List.foldl_append]
  rfl

theorem calls_apply (f : Feed) (u : Use) :
    (u.apply f).calls = f.calls + if u.isCall then 1 else 0 := by
  cases u with
  | call => exact congrArg calls (serve_snd f)
  | _ => rfl

theorem calls_after (f : Feed) (uses : List Use) :
    (f.after uses).calls = f.calls + uses.countP Use.isCall := by
  induction uses using List.reverseRecOn with
  | nil => rfl
  | append_singleton uses u ih =>
    rw [after_snoc, calls_apply, ih, List.countP_append, List.countP_singleton, Nat.add_assoc]

theorem failure?_apply (f : Feed) (u : Use) :
    (u.apply f).failure? = u.failure?.getD f.failure? := by
  cases u with
  | call =>
    show f.serve.2.failure? = f.failure?
    rw [serve_snd]
    rfl
  | _ => rfl

theorem failure?_after (groups : List ServedGroup) (uses : List Use) :
    ((ofGroups groups).after uses).failure? = failureAfter uses := by
  induction uses using List.reverseRecOn with
  | nil => rfl
  | append_singleton uses u ih =>
    rw [after_snoc, failure?_apply, ih, failureAfter, failureAfter, List.filterMap_append,
      filterMap_singleton_toList, List.getLast?_append]
    cases u.failure? <;> simp

theorem perm_apply (f : Feed) (u : Use) :
    ((u.apply f).groups ++ (u.apply f).pending.map (·.2)).Perm
      (f.groups ++ f.pending.map (·.2) ++ u.group?.toList) := by
  cases u with
  | addGroup g =>
    show (f.groups ++ [g] ++ f.pending.map (·.2)).Perm (f.groups ++ f.pending.map (·.2) ++ [g])
    rw [List.append_assoc, List.append_assoc]
    exact List.perm_append_comm.append_left f.groups
  | revealOnCall number g =>
    show (f.groups ++ (f.pending ++ [(number, g)]).map (·.2)).Perm _
    rw [List.map_append, ← List.append_assoc]
    rfl
  | failWith | clearFailure => exact .of_eq (List.append_nil _).symm
  | call =>
    have hparts : (f.pending.filter (·.1 ≤ f.calls + 1) ++ f.pending.filter (f.calls + 1 < ·.1)).Perm
        f.pending := by
      have hnot : (fun entry : Nat × ServedGroup => decide (f.calls + 1 < entry.1)) =
          fun entry => !decide (entry.1 ≤ f.calls + 1) := by
        funext entry
        simp [← decide_not]
      rw [hnot]
      exact List.filter_append_perm _ f.pending
    show (f.serve.2.groups ++ f.serve.2.pending.map (·.2)).Perm (f.groups ++ f.pending.map (·.2) ++ [])
    rw [serve_snd, groups_advance, pending_advance, List.append_assoc, ← List.map_append,
      List.append_nil]
    exact (hparts.map _).append_left f.groups

theorem perm_after (f : Feed) (uses : List Use) :
    ((f.after uses).groups ++ (f.after uses).pending.map (·.2)).Perm
      (f.groups ++ f.pending.map (·.2) ++ uses.filterMap Use.group?) := by
  induction uses using List.reverseRecOn with
  | nil => exact .of_eq (List.append_nil _).symm
  | append_singleton uses u ih =>
    rw [after_snoc, List.filterMap_append, filterMap_singleton_toList, ← List.append_assoc]
    exact (perm_apply _ u).trans (ih.append_right _)

theorem prefix_apply (f : Feed) (u : Use) : f.groups <+: (u.apply f).groups := by
  cases u with
  | addGroup g => exact List.prefix_append f.groups [g]
  | call =>
    show f.groups <+: f.serve.2.groups
    rw [serve_snd]
    exact prefix_advance f
  | _ => exact List.prefix_rfl

theorem served_cons (f : Feed) (u : Use) (uses : List Use) :
    ∃ now : Option (List ServedGroup), f.served (u :: uses) = now.toList ++ (u.apply f).served uses ∧
      ∀ groups ∈ now, groups = (u.apply f).groups := by
  cases u with
  | call =>
    refine ⟨f.serve.1.toOption, rfl, fun groups hg => ?_⟩
    cases hs : f.serve.1 with
    | error e => simp [hs, Except.toOption] at hg
    | ok found =>
      obtain rfl : found = groups := by simpa [hs, Except.toOption] using hg
      show found = f.serve.2.groups
      rw [serve_snd]
      exact groups_of_serve hs
  | _ => exact ⟨none, rfl, nofun⟩

theorem prefix_of_mem_served {groups : List ServedGroup} (h : groups ∈ f.served uses) :
    f.groups <+: groups := by
  induction uses generalizing f with
  | nil => cases h
  | cons u uses ih =>
    obtain ⟨now, hserved, hnow⟩ := served_cons f u uses
    rw [hserved] at h
    obtain h | h := List.mem_append.mp h
    · rw [hnow groups (Option.mem_toList.mp h)]
      exact prefix_apply f u
    · exact (prefix_apply f u).trans (ih h)

theorem pairwise_served (f : Feed) (uses : List Use) : (f.served uses).Pairwise (· <+: ·) := by
  induction uses generalizing f with
  | nil => exact .nil
  | cons u uses ih =>
    obtain ⟨now, hserved, hnow⟩ := served_cons f u uses
    rw [hserved]
    cases now with
    | none => exact ih _
    | some groups =>
      refine List.pairwise_cons.mpr ⟨fun later hl => ?_, ih _⟩
      rw [hnow groups rfl]
      exact prefix_of_mem_served hl

/-- Where a feed is after so many calls if all that it was given besides its first groups is a plan:
what has had its turn is served in order, and the rest is pending. -/
structure OnPlan (groups : List ServedGroup) (plan : List (Nat × ServedGroup)) (number : Nat)
    (f : Feed) : Prop where
  calls_eq : f.calls = number
  pending_eq : f.pending = plan.filter (number < turn ·)
  groups_eq : f.groups =
    groups ++ ((plan.filter (turn · ≤ number)).mergeSort fun a b => turn a ≤ turn b).map (·.2)

namespace OnPlan

variable {groups : List ServedGroup} {plan : List (Nat × ServedGroup)} {number : Nat}

theorem schedule (h : OnPlan groups plan 0 f) (call : Nat) (g : ServedGroup) :
    OnPlan groups (plan ++ [(call, g)]) 0 (f.revealOnCall call g) := by
  have hall : ∀ entries : List (Nat × ServedGroup), entries.filter (0 < turn ·) = entries := fun _ =>
    List.filter_eq_self.mpr fun entry _ => decide_eq_true (turn_pos entry)
  have hnone : ∀ entries : List (Nat × ServedGroup), entries.filter (turn · ≤ 0) = [] := fun _ =>
    List.filter_eq_nil_iff.mpr fun entry _ => by simp [(turn_pos entry).ne']
  constructor
  case calls_eq => exact h.calls_eq
  case pending_eq =>
    show f.pending ++ [(call, g)] = _
    rw [h.pending_eq, hall, hall]
  case groups_eq =>
    show f.groups = _
    rw [h.groups_eq, hnone, hnone]

theorem advance (h : OnPlan groups plan number f) : OnPlan groups plan (number + 1) f.advance := by
  constructor
  case calls_eq => exact congrArg (· + 1) h.calls_eq
  case pending_eq =>
    rw [pending_advance, h.calls_eq, h.pending_eq, List.filter_filter]
    refine List.filter_congr fun entry _ => ?_
    have hle : turn entry ≤ number + 1 ↔ entry.1 ≤ number + 1 := turn_le_succ
    rw [Bool.eq_iff_iff]
    simp only [Bool.and_eq_true, decide_eq_true_eq]
    omega
  case groups_eq =>
    have hdue : (plan.filter (number < turn ·)).filter (·.1 ≤ number + 1) =
        plan.filter (turn · = number + 1) := by
      rw [List.filter_filter]
      refine List.filter_congr fun entry _ => ?_
      have hle : turn entry ≤ number + 1 ↔ entry.1 ≤ number + 1 := turn_le_succ
      rw [Bool.eq_iff_iff]
      simp only [Bool.and_eq_true, decide_eq_true_eq]
      omega
    rw [groups_advance, h.calls_eq, h.pending_eq, h.groups_eq, hdue, mergeSort_filter_succ,
      List.map_append, List.append_assoc]

theorem apply (h : OnPlan groups plan number f) {u : Use} (hadd : u.added? = none)
    (hfirst : u.scheduled? ≠ none → number = 0) :
    OnPlan groups (plan ++ u.scheduled?.toList) (number + if u.isCall then 1 else 0) (u.apply f) := by
  cases u with
  | addGroup g => cases hadd
  | revealOnCall call g =>
    obtain rfl := hfirst nofun
    exact h.schedule call g
  | failWith | clearFailure =>
    rw [← List.append_nil plan] at h
    exact ⟨h.calls_eq, h.pending_eq, h.groups_eq⟩
  | call =>
    have ha := h.advance
    rw [← List.append_nil plan, ← serve_snd] at ha
    exact ha

end OnPlan

theorem Planned.of_snoc {u : Use} (h : Planned (uses ++ [u])) :
    Planned uses ∧ u.added? = none ∧ (u.scheduled? ≠ none → uses.countP Use.isCall = 0) := by
  obtain ⟨hadd, hpair⟩ := h
  obtain ⟨huses, -, hlast⟩ := List.pairwise_append.mp hpair
  refine ⟨⟨fun v hv => hadd v (List.mem_append_left [u] hv), huses⟩, ?_, fun hu => ?_⟩
  · exact hadd u (List.mem_append_right uses List.mem_cons_self)
  · rw [List.countP_eq_zero]
    exact fun v hv hc => hu (hlast v hv u List.mem_cons_self hc)

theorem onPlan_after (groups : List ServedGroup) (h : Planned uses) :
    OnPlan groups (uses.filterMap Use.scheduled?) (uses.countP Use.isCall)
      ((ofGroups groups).after uses) := by
  induction uses using List.reverseRecOn with
  | nil => exact ⟨rfl, rfl, by simp [after, ofGroups]⟩
  | append_singleton uses u ih =>
    obtain ⟨huses, hadd, hfirst⟩ := h.of_snoc
    rw [after_snoc, List.filterMap_append, filterMap_singleton_toList, List.countP_append,
      List.countP_singleton]
    exact (ih huses).apply hadd hfirst

theorem Planned.of_call {later : List Use} (h : Planned (uses ++ .call :: later)) :
    Planned (uses ++ [.call]) ∧ later.filterMap Use.scheduled? = [] := by
  have hs : (uses ++ [Use.call]).Sublist (uses ++ Use.call :: later) :=
    ((List.nil_sublist later).cons_cons Use.call).append_left uses
  obtain ⟨hadd, hpair⟩ := h
  refine ⟨⟨fun u hu => hadd u (hs.subset hu), hpair.sublist hs⟩, ?_⟩
  obtain ⟨hcall, -⟩ := List.pairwise_cons.mp (List.pairwise_append.mp hpair).2.1
  exact List.filterMap_eq_nil_iff.mpr fun u hu => hcall u hu rfl

theorem answer_call (groups : List ServedGroup) (uses : List Use) :
    ((ofGroups groups).after uses).serve.1 = match failureAfter uses with
      | some message => .error (.discovery message)
      | none => .ok ((ofGroups groups).after (uses ++ [.call])).groups := by
  -- A call is told to fail by what came before it, and serves what is there after it.
  have hf : ((ofGroups groups).after uses).advance.failure? = failureAfter uses :=
    failure?_after groups uses
  have hg : ((ofGroups groups).after (uses ++ [.call])).groups =
      ((ofGroups groups).after uses).advance.groups := by
    rw [after_snoc, ← serve_snd]
    rfl
  rw [hg]
  unfold serve
  simp only [hf]
  cases failureAfter uses <;> rfl

structure Delivers (groups : List ServedGroup) (uses : List Use) : Prop where
  conserved : (((ofGroups groups).after uses).groups ++
    ((ofGroups groups).after uses).pending.map (·.2)).Perm (groups ++ uses.filterMap Use.group?)
  answered : ∀ earlier later, uses = earlier ++ .call :: later →
    ((ofGroups groups).after earlier).serve.1 = match failureAfter earlier with
      | some message => .error (.discovery message)
      | none => .ok ((ofGroups groups).after (earlier ++ [.call])).groups
  overdue : ∀ earlier later, uses = earlier ++ .call :: later →
    ∀ entry ∈ ((ofGroups groups).after (earlier ++ [.call])).pending,
      ¬ entry.1 ≤ earlier.countP Use.isCall + 1
  extended : ((ofGroups groups).served uses).Pairwise (· <+: ·)
  planned : Planned uses → ∀ earlier later, uses = earlier ++ .call :: later →
    failureAfter earlier = none → ((ofGroups groups).after earlier).serve.1 =
      .ok (groups ++ broughtBy (earlier.countP Use.isCall + 1) (uses.filterMap Use.scheduled?))

/-- Whatever is done with a feed, it serves every group once, sooner or later, and what it has served
stays at the front of what it serves. -/
theorem delivers (groups : List ServedGroup) (uses : List Use) : Delivers groups uses := by
  constructor
  case conserved =>
    have h := perm_after (ofGroups groups) uses
    rwa [ofGroups, List.map_nil, List.append_nil] at h
  case answered => exact fun earlier _ _ => answer_call groups earlier
  case overdue =>
    intro earlier later _ entry he
    have hcalls : ((ofGroups groups).after earlier).calls = earlier.countP Use.isCall :=
      (calls_after _ earlier).trans (Nat.zero_add _)
    have hpending : ((ofGroups groups).after (earlier ++ [.call])).pending =
        ((ofGroups groups).after earlier).pending.filter (earlier.countP Use.isCall + 1 < ·.1) := by
      rw [after_snoc, ← hcalls, ← pending_advance, ← serve_snd]
      rfl
    rw [hpending] at he
    exact not_le.mpr (of_decide_eq_true (List.mem_filter.mp he).2)
  case extended => exact pairwise_served _ uses
  case planned =>
    rintro hp earlier later rfl hf
    obtain ⟨hcalled, hlater⟩ := hp.of_call
    have hg := (onPlan_after groups hcalled).groups_eq
    have hcount : (earlier ++ [Use.call]).countP Use.isCall = earlier.countP Use.isCall + 1 :=
      List.countP_append
    have hplan : (earlier ++ Use.call :: later).filterMap Use.scheduled? =
        (earlier ++ [Use.call]).filterMap Use.scheduled? := by
      rw [List.filterMap_append, List.filterMap_append]
      exact congrArg (earlier.filterMap Use.scheduled? ++ ·) hlater
    rw [answer_call, hf, hg, hcount, hplan, broughtBy_succ]

def unsortedPlan : List Use :=
  [.revealOnCall 2 (.single "apps" "v1" []), .revealOnCall 0 (.single "batch" "v1" []),
    .failWith "connection refused", .revealOnCall 3 (.single "policy" "v1" []),
    .revealOnCall 2 (.single "storage" "v1" []), .call, .clearFailure]

theorem delivers_unsortedPlan :
    Planned (unsortedPlan ++ [Use.call]) ∧ failureAfter unsortedPlan = none ∧
      ((ofGroups [.single "" "v1" []]).after unsortedPlan).serve.1 =
        .ok ([.single "" "v1" []] ++
          broughtBy 2 ((unsortedPlan ++ [Use.call]).filterMap Use.scheduled?)) ∧
      broughtBy 2 ((unsortedPlan ++ [Use.call]).filterMap Use.scheduled?) =
        [.single "batch" "v1" [], .single "apps" "v1" [], .single "storage" "v1" []] := by
  have hp : Planned (unsortedPlan ++ [Use.call]) := by
    constructor <;> simp [unsortedPlan, Use.added?, Use.scheduled?, Use.isCall]
  have hs := (delivers [.single "" "v1" []] (unsortedPlan ++ [Use.call])).planned hp unsortedPlan []
    rfl rfl
  have hlist : ((ofGroups [.single "" "v1" []]).after unsortedPlan).serve.1 =
      .ok ([.single "" "v1" []] ++
        [.single "batch" "v1" [], .single "apps" "v1" [], .single "storage" "v1" []]) := rfl
  exact ⟨hp, rfl, hs, List.append_cancel_left (Except.ok.inj (hs.symm.trans hlist))⟩

end Feed

end ManifestSync
