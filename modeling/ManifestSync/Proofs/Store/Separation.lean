import ManifestSync.Proofs.Manifest.Update
import ManifestSync.Proofs.Scenario.Still
import ManifestSync.Proofs.Store.Answers

namespace ManifestSync

namespace Memory

theorem await_send (r : Request) (m : Memory) (now : Nat) :
    (m.send r).await (fun _ _ memory => memory) now =
      ((m.served r).1, ⟨now + (m.delayOf? r).getD 0, (m.served r).2⟩) := by
  have hd : (m.record r).delayOf? r = m.delayOf? r := rfl
  simp only [send, hd]
  cases m.delayOf? r with
  | none => rfl
  | some delay =>
    have hw : ∀ instant, (Moment.mk now (m.record r)).until (fun _ _ memory => memory) instant =
        ⟨max now instant, m.record r⟩ := Moment.until_of_fixed fun _ _ => rfl
    simp only [Activity.await, hw, Nat.max_eq_right (Nat.le_add_right now delay)]
    rfl

end Memory

inductive StoreUse where
  | send (r : Request)
  | addObject (e : Endpoint) (object : Tree)

namespace StoreUse

def key : StoreUse → ObjectKey
  | .send r => r.key
  | .addObject e object => .of e object.ownNamespace? object.ownName

def actions : StoreUse → List Action
  | .send r => [.ofRequest r]
  | .addObject .. => []

def make : StoreUse → Moment Memory → Option Answer × Moment Memory
  | .send r, m =>
    let (answer, later) := (m.world.send r).await (fun _ _ memory => memory) m.now
    (some answer, later)
  | .addObject e object, m => (none, { m with world := m.world.addObject e object })

def effect (failures : List StagedFailure) : StoreUse → Option Tree → Option Answer × Option Tree
  | .send r, live? => ((r.settled failures live?).1, (r.settled failures live?).2)
  | .addObject _ object, _ => (none, some object)

def noted : StoreUse → Memory → Memory
  | .send r, m => m.record r
  | .addObject .., m => m

theorem make_eq (u : StoreUse) (m : Moment Memory) : ∃ later, u.make m =
    ((u.effect m.world.failures (m.world.object? u.key)).1, ⟨later,
      (u.noted m.world).put u.key (u.effect m.world.failures (m.world.object? u.key)).2⟩) := by
  cases u with
  | addObject e object => exact ⟨m.now, rfl⟩
  | send r =>
    have hs := Memory.settle_eq r (m.world.record r)
    refine ⟨m.now + (m.world.delayOf? r).getD 0, ?_⟩
    rw [make, Memory.await_send, Memory.served, hs]
    rfl

theorem failures_make (u : StoreUse) (m : Moment Memory) :
    (u.make m).2.world.failures = m.world.failures := by
  obtain ⟨later, he⟩ := u.make_eq m
  rw [he, Memory.failures_put]
  cases u <;> rfl

theorem object?_make (u : StoreUse) (m : Moment Memory) (key : ObjectKey) :
    (u.make m).2.world.object? key =
      if u.key = key then
        (u.effect m.world.failures (m.world.object? u.key)).2.or (m.world.object? key)
      else m.world.object? key := by
  have ho : (u.noted m.world).object? key = m.world.object? key := by cases u <;> rfl
  obtain ⟨later, he⟩ := u.make_eq m
  rw [he, Memory.object?_put, ho]

structure Contained (u : StoreUse) (before : Memory) (answer? : Option Answer) (after : Memory) :
    Prop where
  of_error : ∀ cause, answer? = some (.error cause) → after.objects = before.objects
  keys_subset : before.objects.keys ⊆ after.objects.keys
  elsewhere : ∀ key, key ≠ u.key → after.object? key = before.object? key
  /-- Every request is noted, whatever it is answered, and nothing else is. -/
  actions_eq : after.actions = before.actions ++ u.actions

theorem effect_of_error {failures : List StagedFailure} {u : StoreUse} {live? : Option Tree}
    {cause : StoreError} (h : (u.effect failures live?).1 = some (.error cause)) :
    (u.effect failures live?).2 = none := by
  cases u with
  | addObject e object => cases h
  | send r =>
    simp only [effect, Request.settled] at h ⊢
    cases hf : failures.find? (·.concerns r) with
    | some f => rfl
    | none =>
      rw [hf] at h
      exact Request.effect_of_error (Option.some.inj h)

theorem make_contained (u : StoreUse) (m : Moment Memory) :
    u.Contained m.world (u.make m).1 (u.make m).2.world := by
  have hobjects : (u.noted m.world).objects = m.world.objects := by cases u <;> rfl
  have hactions : (u.noted m.world).actions = m.world.actions ++ u.actions := by
    cases u with
    | send r => exact Memory.actions_record r m.world
    | addObject => exact (List.append_nil _).symm
  obtain ⟨later, he⟩ := u.make_eq m
  constructor
  case of_error =>
    intro cause hcause
    rw [he] at hcause ⊢
    rw [effect_of_error hcause]
    exact hobjects
  case keys_subset =>
    rw [he, ← hobjects]
    exact Memory.keys_subset_put _ _ _
  case elsewhere =>
    intro key hne
    rw [object?_make, if_neg (Ne.symm hne)]
  case actions_eq =>
    rw [he, Memory.actions_put]
    exact hactions

def inTurn {σ : Type} (step : StoreUse → σ → Option Answer × σ) :
    List StoreUse → σ → List (StoreUse × Option Answer) × σ
  | [], s => ([], s)
  | u :: us, s =>
    let rest := inTurn step us (step u s).2
    ((u, (step u s).1) :: rest.1, rest.2)

/-- The use of a cell, in which there is what is stored at one key. -/
def alone (failures : List StagedFailure) (u : StoreUse) (live? : Option Tree) :
    Option Answer × Option Tree :=
  ((u.effect failures live?).1, (u.effect failures live?).2.or live?)

/-- What is addressed to one key has the answers and the effect there that it has on a cell. -/
theorem inTurn_at (key : ObjectKey) (us : List StoreUse) (m : Moment Memory) :
    let used := inTurn make us m
    (used.1.filter (·.1.key = key), used.2.world.object? key) =
      inTurn (alone m.world.failures) (us.filter (·.key = key)) (m.world.object? key) := by
  induction us generalizing m with
  | nil => rfl
  | cons u us ih =>
    obtain ⟨later, he⟩ := u.make_eq m
    have hrest := ih (u.make m).2
    simp only [failures_make, object?_make] at hrest
    by_cases hk : u.key = key
    · simp only [hk, if_true] at hrest
      have hanswer : (u.make m).1 = (u.effect m.world.failures (m.world.object? key)).1 := by
        rw [he, hk]
      simp only [inTurn, alone, List.filter_cons_of_pos, hk, decide_true, hanswer]
      rw [← hrest]
    · simp only [hk, if_false] at hrest
      simp only [inTurn, List.filter_cons_of_neg, hk, decide_false, Bool.false_eq_true,
        not_false_eq_true]
      exact hrest

/-- Whatever is done with two stores in which the same failures are staged, and however long it
takes, the same comes of what is addressed to a key, if the same is addressed to it and was stored
there.
Each use adds to the log and changes nothing but what is at its key, and errors change nothing. -/
theorem uses_separate :
    (∀ (u : StoreUse) (m : Moment Memory),
      u.Contained m.world (u.make m).1 (u.make m).2.world) ∧
    ∀ (key : ObjectKey) (us us' : List StoreUse) (m m' : Moment Memory),
      m.world.failures = m'.world.failures → m.world.object? key = m'.world.object? key →
      us.filter (·.key = key) = us'.filter (·.key = key) →
      (inTurn make us m).2.world.object? key = (inTurn make us' m').2.world.object? key ∧
        (inTurn make us m).1.filter (·.1.key = key) =
          (inTurn make us' m').1.filter (·.1.key = key) := by
  refine ⟨make_contained, fun key us us' m m' hf ho hu => ?_⟩
  have h := inTurn_at key us m
  have h' := inTurn_at key us' m'
  rw [hf, ho, hu] at h
  obtain ⟨hanswers, hobject⟩ := Prod.mk.inj (h.trans h'.symm)
  exact ⟨hobject, hanswers⟩

def blindMemory : Memory := { Memory.empty with failures := [⟨.get, some "cb", 500, "broken"⟩] }

def slowBlindMemory : Memory :=
  { blindMemory with
    objects := [(.of stateMaps (some "apps") "cb", stateMap .null)]
    delays := [(.patch, 3)] }

def caAdded : StoreUse := .addObject stateMaps (stateMap .null)

def caCreated : StoreUse := .send (.create stateMaps (some "apps") (stateMap .null))

def caPatched : StoreUse :=
  .send (.patch stateMaps (some "apps") "ca"
    (.object [("spec", .object [("managementState", .text "Managed")])]))

def cbSought : StoreUse := .send (.get stateMaps (some "apps") "cb")

theorem uses_separate_blind :
    let key := ObjectKey.of stateMaps (some "apps") "ca"
    let uses := [cbSought, caAdded, caCreated, caPatched]
    let uses' := [caAdded, cbSought, caCreated, cbSought, caPatched]
    let used := inTurn make uses ⟨0, blindMemory⟩
    let used' := inTurn make uses' ⟨2, slowBlindMemory⟩
    blindMemory.object? key = slowBlindMemory.object? key ∧
      uses.filter (·.key = key) = uses'.filter (·.key = key) ∧
      used.2.world.object? key = some (stateMap (.text "Managed")) ∧
      used'.2.world.object? key = some (stateMap (.text "Managed")) ∧
      used.1.filter (·.1.key = key) = used'.1.filter (·.1.key = key) ∧
      (cbSought.make ⟨2, slowBlindMemory⟩).1 = some (.error (.rejected 500 "broken")) ∧
      (cbSought.make ⟨2, slowBlindMemory⟩).2.world.objects = slowBlindMemory.objects := by
  intro key uses uses' used used'
  have ho : blindMemory.object? key = slowBlindMemory.object? key := rfl
  have hu : uses.filter (·.key = key) = uses'.filter (·.key = key) := rfl
  have hstored : used.2.world.object? key = some (stateMap (.text "Managed")) := rfl
  have hrefused : (cbSought.make ⟨2, slowBlindMemory⟩).1 =
      some (.error (.rejected 500 "broken")) := rfl
  obtain ⟨hcontained, hsame⟩ := uses_separate
  obtain ⟨hobject, hanswers⟩ :=
    hsame key uses uses' ⟨0, blindMemory⟩ ⟨2, slowBlindMemory⟩ rfl ho hu
  exact ⟨ho, hu, hstored, hobject.symm.trans hstored, hanswers, hrefused,
    (hcontained cbSought ⟨2, slowBlindMemory⟩).of_error _ hrefused⟩

end StoreUse

end ManifestSync
