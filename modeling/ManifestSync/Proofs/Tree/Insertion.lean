import ManifestSync.Proofs.Tree.Path

namespace ManifestSync

theorem Members.set_set (key : String) (v w : Tree) (ms : Members) :
    (ms.set key v).set key w = ms.set key w := by
  induction ms with
  | nil => simp only [set, ↓reduceIte]
  | cons p ms ih =>
    obtain ⟨k, u⟩ := p
    by_cases hk : k = key
    · simp only [set, hk, ↓reduceIte]
    · by_cases hlt : key < k <;> simp only [set, hk, hlt, ih, ↓reduceIte]

namespace Tree

theorem at?_below (found? : Option Tree) {path : List String} (h : path ≠ []) :
    (object (found?.getD empty).members).at? path = found?.bind (·.at? path) := by
  cases path with
  | nil => exact absurd rfl h
  | cons key path => cases found? <;> rfl

theorem insertAt_cons (ms : Members) (key : String) {path : List String} (h : path ≠ [])
    (value : Tree) : insertAt ms (key :: path) value =
      ms.set key (.object (insertAt ((ms.find? key).getD empty).members path value)) := by
  cases path with
  | nil => exact absurd rfl h
  | cons next path => rfl

theorem at?_set_self (ms : Members) (key : String) (t : Tree) (path : List String) :
    (object (ms.set key t)).at? (key :: path) = t.at? path := by
  rw [at?_cons, members_object, Members.find?_set, if_pos rfl, Option.bind_some]

theorem at?_set_of_ne (ms : Members) {key k : String} (h : k ≠ key) (t : Tree)
    (path : List String) : (object (ms.set key t)).at? (k :: path) = (object ms).at? (k :: path) := by
  rw [at?_cons, at?_cons, members_object, members_object, Members.find?_set, if_neg h.symm]

theorem at?_insertAt (ms : Members) {path : List String} (h : path ≠ []) (value : Tree) :
    (object (insertAt ms path value)).at? path = some value := by
  fun_induction insertAt ms path value with
  | case1 => exact absurd rfl h
  | case2 ms key value => exact at?_set_self ms key value []
  | case3 ms key path value hpath ih =>
    rw [at?_set_self]
    exact ih hpath

theorem at?_insertAt_of_apart (ms : Members) {path other : List String} (h : Apart other path)
    (value : Tree) : (object (insertAt ms path value)).at? other = (object ms).at? other := by
  -- On the way to the value: two paths apart leave each other at some key, and are apart below the
  -- keys that they share.
  fun_induction insertAt ms path value generalizing other with
  | case1 => rfl
  | case2 ms key value =>
    cases other with
    | nil => exact absurd rfl h.ne_nil
    | cons k other =>
      have hk : k ≠ key := by
        rintro rfl
        exact h.2 (by simp)
      exact at?_set_of_ne ms hk value other
  | case3 ms key path value hpath ih =>
    cases other with
    | nil => exact absurd rfl h.ne_nil
    | cons k other =>
      by_cases hk : k = key
      · subst hk
        rw [at?_set_self, ih h.of_cons, at?_below _ h.of_cons.ne_nil, at?_cons, members_object]
      · exact at?_set_of_ne ms hk _ other

theorem at?_insertAt_of_prefix (ms : Members) {path parent : List String} (h : parent <+: path)
    (hne : parent ≠ path) (value : Tree) :
    ∃ ns, (object (insertAt ms path value)).at? parent = some (.object ns) := by
  fun_induction insertAt ms path value generalizing parent with
  | case1 => exact absurd (List.prefix_nil.mp h) hne
  | case2 ms key value =>
    cases parent with
    | nil => exact ⟨_, rfl⟩
    | cons k parent =>
      obtain ⟨rfl, hparent⟩ := List.cons_prefix_cons.mp h
      exact absurd (List.prefix_nil.mp hparent ▸ rfl) hne
  | case3 ms key path value hpath ih =>
    cases parent with
    | nil => exact ⟨_, rfl⟩
    | cons k parent =>
      obtain ⟨rfl, hparent⟩ := List.cons_prefix_cons.mp h
      rw [at?_set_self]
      exact ih hparent fun he => hne (he ▸ rfl)

theorem insertAt_insertAt (ms : Members) (path : List String) (value value' : Tree) :
    insertAt (insertAt ms path value) path value' = insertAt ms path value' := by
  fun_induction insertAt ms path value with
  | case1 => rfl
  | case2 ms key value => exact Members.set_set key value value' ms
  | case3 ms key path value hpath ih =>
    have hset := Members.find?_set key
      (.object (insertAt ((ms.find? key).getD empty).members path value)) ms key
    rw [insertAt_cons _ _ hpath, insertAt_cons _ _ hpath, hset, if_pos rfl, Option.getD_some,
      members_object, ih, Members.set_set]

/-- Putting a value at the end of a path and following paths are the two sides of a lens: what was
put is found, what is elsewhere is kept, and of two values put at one place the second one counts.
Missing parents, and those that are no objects, have become objects. -/
theorem insertAt_lens (ms : Members) {path : List String} (hne : path ≠ []) (value : Tree) :
    (object (insertAt ms path value)).at? path = some value ∧
      (∀ other, Apart other path →
        (object (insertAt ms path value)).at? other = (object ms).at? other) ∧
      (∀ parent, parent <+: path → parent ≠ path →
        ∃ ns, (object (insertAt ms path value)).at? parent = some (.object ns)) ∧
      ∀ value', insertAt (insertAt ms path value) path value' = insertAt ms path value' :=
  ⟨at?_insertAt ms hne value, fun _ ha => at?_insertAt_of_apart ms ha value,
    fun _ hp hn => at?_insertAt_of_prefix ms hp hn value, insertAt_insertAt ms path value⟩

def listed : Members :=
  [("spec", .object [("replicas", .number (.whole 3))]), ("status", .list [.null])]

theorem insertAt_lens_listed :
    let path := ["status", "conditions", "ready"]
    let placed := insertAt listed path (.bool true)
    path ≠ [] ∧
      placed = [("spec", .object [("replicas", .number (.whole 3))]),
        ("status", .object [("conditions", .object [("ready", .bool true)])])] ∧
      (object placed).at? path = some (.bool true) ∧
      (∀ other, Apart other path → (object placed).at? other = (object listed).at? other) ∧
      (∀ parent, parent <+: path → parent ≠ path →
        ∃ ns, (object placed).at? parent = some (.object ns)) ∧
      ∀ value', insertAt placed path value' = insertAt listed path value' := by
  intro path placed
  have hne : path ≠ [] := by simp [path]
  exact ⟨hne, rfl, insertAt_lens listed hne (.bool true)⟩

end Tree

end ManifestSync
