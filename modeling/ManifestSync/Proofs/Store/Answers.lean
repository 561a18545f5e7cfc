import ManifestSync.Store.Memory

namespace ManifestSync

/-- What a request is answered and what it has stored, if anything, by what is stored at its key. -/
def Request.effect (r : Request) (live? : Option Tree) : Answer × Option Tree :=
  match r, live? with
  | .get .., some live => (.ok live, none)
  | .create _ _ object, none =>
    if r.name = "" then (.error (.rejected 422 "metadata.name: Required value"), none)
    else (.ok object, some object)
  | .create .., some _ =>
    if r.name = "" then (.error (.rejected 422 "metadata.name: Required value"), none)
    else (.error (.alreadyExists (Memory.describe r "already exists")), none)
  | .patch _ _ _ body, some live => (.ok (live.merge body), some (live.merge body))
  | .get .., none | .patch .., none => (.error (.notFound (Memory.describe r "not found")), none)

def Request.settled (failures : List StagedFailure) (r : Request) (live? : Option Tree) :
    Answer × Option Tree :=
  match failures.find? (·.concerns r) with
  | some f => (.error (.rejected f.code f.message), none)
  | none => r.effect live?

theorem Request.effect_of_error {r : Request} {live? : Option Tree} {cause : StoreError}
    (h : (r.effect live?).1 = .error cause) : (r.effect live?).2 = none := by
  cases r with
  | get => cases live? <;> rfl
  | create e ns object =>
    by_cases hn : (Request.create e ns object).name = ""
    · cases live? <;> simp only [effect, hn, ↓reduceIte]
    · cases live? with
      | some live => simp only [effect, hn, ↓reduceIte]
      | none =>
        simp only [effect, hn, ↓reduceIte] at h
        cases h
  | patch =>
    cases live? with
    | some live => cases h
    | none => rfl

theorem Request.effect_create {e : Endpoint} {ns : Option String} {object stored : Tree}
    {live? : Option Tree} (h : ((create e ns object).effect live?).1 = .ok stored) :
    live? = none ∧ ((create e ns object).effect live?).2 = some object := by
  by_cases hn : (Request.create e ns object).name = ""
  · cases live? <;> (simp only [effect, hn, ↓reduceIte] at h; cases h)
  · cases live? with
    | some live =>
      simp only [effect, hn, ↓reduceIte] at h
      cases h
    | none => simp only [effect, hn, ↓reduceIte, and_self]

namespace Memory

variable {m : Memory} {r : Request} {e : Endpoint} {ns : Option String} {name : String}

def put (key : ObjectKey) (t? : Option Tree) (m : Memory) : Memory :=
  match t? with
  | some t => { m with objects := m.objects.set key t }
  | none => m

@[simp] theorem failures_put (key : ObjectKey) (t? : Option Tree) (m : Memory) :
    (m.put key t?).failures = m.failures := by
  cases t? <;> rfl

@[simp] theorem delays_put (key : ObjectKey) (t? : Option Tree) (m : Memory) :
    (m.put key t?).delays = m.delays := by
  cases t? <;> rfl

@[simp] theorem actions_put (key : ObjectKey) (t? : Option Tree) (m : Memory) :
    (m.put key t?).actions = m.actions := by
  cases t? <;> rfl

theorem object?_put (key : ObjectKey) (t? : Option Tree) (m : Memory) (k : ObjectKey) :
    (m.put key t?).object? k = if key = k then t?.or (m.object? k) else m.object? k := by
  cases t? with
  | none => exact (ite_self _).symm
  | some t => exact Table.find?_set key t m.objects k

theorem keys_subset_put (key : ObjectKey) (t? : Option Tree) (m : Memory) :
    m.objects.keys ⊆ (m.put key t?).objects.keys := by
  cases t? with
  | none => exact fun _ hk => hk
  | some t => exact Table.keys_subset_set key t m.objects

theorem perform_eq (r : Request) (m : Memory) :
    m.perform r =
      ((r.effect (m.object? r.key)).1, m.put r.key (r.effect (m.object? r.key)).2) := by
  cases hk : m.object? r.key with
  | none =>
    cases r with
    | get | patch =>
      simp only [perform, hk]
      rfl
    | create e ns object =>
      simp only [perform, hk, Request.effect]
      split <;> rfl
  | some live =>
    cases r with
    | get | patch =>
      simp only [perform, hk]
      rfl
    | create e ns object =>
      simp only [perform, hk, Request.effect]
      split <;> rfl

theorem settle_eq (r : Request) (m : Memory) :
    m.settle r = ((r.settled m.failures (m.object? r.key)).1,
      m.put r.key (r.settled m.failures (m.object? r.key)).2) := by
  simp only [settle, failureOf?, Request.settled]
  cases m.failures.find? (·.concerns r) with
  | none => exact perform_eq r m
  | some f => rfl

theorem settle_cases (r : Request) (m : Memory) :
    (∃ f : StagedFailure, m.settle r = (.error (.rejected f.code f.message), m)) ∨
      m.settle r = m.perform r := by
  unfold settle failureOf?
  cases m.failures.find? (·.concerns r) with
  | none => exact .inr rfl
  | some f => exact .inl ⟨f, rfl⟩

theorem settle_of_error {cause : StoreError} (h : (m.settle r).1 = .error cause) :
    (m.settle r).2 = m := by
  obtain ⟨f, hf⟩ | hp := settle_cases r m
  · rw [hf]
  · rw [hp, perform_eq] at h
    rw [hp, perform_eq, Request.effect_of_error h]
    rfl

theorem settle_of_ok {object : Tree} (h : (m.settle r).1 = .ok object) :
    (r.effect (m.object? r.key)).1 = .ok object ∧
      (m.settle r).2 = m.put r.key (r.effect (m.object? r.key)).2 := by
  obtain ⟨f, hf⟩ | hp := settle_cases r m
  · rw [hf] at h
    cases h
  · rw [hp, perform_eq] at h ⊢
    exact ⟨h, rfl⟩

theorem settle_get {live : Tree} (h : (m.settle (.get e ns name)).1 = .ok live) :
    m.object? (.of e ns name) = some live ∧ (m.settle (.get e ns name)).2 = m := by
  obtain ⟨ha, hm⟩ := settle_of_ok h
  have hk : (Request.get e ns name).key = .of e ns name := rfl
  rw [hk] at ha hm
  cases ho : m.object? (.of e ns name) with
  | none =>
    rw [ho] at ha
    cases ha
  | some object =>
    rw [ho] at ha hm
    cases ha
    exact ⟨rfl, hm⟩

theorem settle_of_get (h : r.verb = .get) (m : Memory) : (m.settle r).2 = m := by
  cases r with
  | create | patch => cases h
  | get e ns name =>
    cases ha : (m.settle (.get e ns name)).1 with
    | ok live => exact (settle_get ha).2
    | error cause => exact settle_of_error ha

theorem settle_create {object stored : Tree} (h : (m.settle (.create e ns object)).1 = .ok stored) :
    m.object? (.of e ns object.ownName) = none ∧
      (m.settle (.create e ns object)).2 =
        { m with objects := m.objects.set (.of e ns object.ownName) object } := by
  obtain ⟨ha, hm⟩ := settle_of_ok h
  obtain ⟨hnone, ho⟩ := Request.effect_create ha
  rw [ho] at hm
  exact ⟨hnone, hm⟩

theorem settle_patch {body stored : Tree} (h : (m.settle (.patch e ns name body)).1 = .ok stored) :
    ∃ live, m.object? (.of e ns name) = some live ∧
      (m.settle (.patch e ns name body)).2 =
        { m with objects := m.objects.set (.of e ns name) (live.merge body) } := by
  obtain ⟨ha, hm⟩ := settle_of_ok h
  have hk : (Request.patch e ns name body).key = .of e ns name := rfl
  rw [hk] at ha hm
  cases ho : m.object? (.of e ns name) with
  | none =>
    rw [ho] at ha
    cases ha
  | some live =>
    rw [ho] at hm
    exact ⟨live, rfl, hm⟩

end Memory

end ManifestSync
