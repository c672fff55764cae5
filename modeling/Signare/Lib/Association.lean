import Mathlib.Data.List.AList
import Mathlib.Data.List.Induction
import Mathlib.Data.Set.Function

/-!
# Building association lists

An association list is filled entry by entry, under other keys than those the entries come with.
Where the new keys are told apart, looking up is looking up under the old ones.
-/

namespace AList

variable {σ α γ β : Type} [DecidableEq γ]

theorem lookup_foldl_insert_of_notMem {xs : List σ} {key : σ → γ} {value : σ → β}
    {m : AList fun _ : γ => β} {k : γ} (h : ∀ x ∈ xs, key x ≠ k) :
    (xs.foldl (fun m x => m.insert (key x) (value x)) m).lookup k = m.lookup k := by
  induction xs generalizing m with
  | nil => rfl
  | cons x xs ih =>
    have hx : k ≠ key x := fun hk => h x (by simp) hk.symm
    rw [List.foldl_cons, ih fun y hy => h y (by simp [hy]), lookup_insert_ne hx]

theorem lookup_foldl_insert_of_mem {xs : List σ} {key : σ → γ} {value : σ → β}
    {m : AList fun _ : γ => β} (hnodup : (xs.map key).Nodup) {x : σ} (hx : x ∈ xs) :
    (xs.foldl (fun m x => m.insert (key x) (value x)) m).lookup (key x) = some (value x) := by
  induction xs generalizing m with
  | nil => cases hx
  | cons y xs ih =>
    rw [List.map_cons, List.nodup_cons] at hnodup
    rw [List.foldl_cons]
    by_cases hy : x ∈ xs
    · exact ih hnodup.2 hy
    · have hxy : x = y := by simpa [hy] using hx
      rw [hxy, lookup_foldl_insert_of_notMem, lookup_insert]
      intro z hz hkey
      apply hnodup.1
      rw [← hkey]
      exact List.mem_map_of_mem hz

/-- Of several entries with one key the last counts. -/
theorem lookup_foldl_insert {xs : List σ} {key : σ → γ} {value : σ → β} {k : γ} :
    (xs.foldl (fun m x => m.insert (key x) (value x)) (∅ : AList fun _ : γ => β)).lookup k =
      (xs.reverse.find? fun x => key x = k).map value := by
  induction xs using List.reverseRecOn with
  | nil => rfl
  | append_singleton xs x ih =>
    rw [List.foldl_append, List.foldl_cons, List.foldl_nil, List.reverse_append,
      List.reverse_singleton, List.singleton_append]
    by_cases hk : key x = k
    · rw [hk, lookup_insert, List.find?_cons_of_pos (by simpa using hk)]
      rfl
    · rw [lookup_insert_ne (Ne.symm hk), ih, List.find?_cons_of_neg (by simpa using hk)]

/-- A loop that looks keys up and stops at the first that is not there. -/
theorem foldlM_lookup_eq_ok {ε δ : Type} {m : AList fun _ : γ => β} (fail : γ → ε)
    (step : δ → β → δ) {f : δ → γ → Except ε δ}
    (hnone : ∀ d k, m.lookup k = none → f d k = .error (fail k))
    (hsome : ∀ d k b, m.lookup k = some b → f d k = .ok (step d b)) {ks : List γ} {d result : δ} :
    ks.foldlM f d = .ok result ↔
      (∀ k ∈ ks, (m.lookup k).isSome) ∧ result = (ks.filterMap m.lookup).foldl step d := by
  induction ks generalizing d with
  | nil =>
    constructor
    · intro h
      cases h
      exact ⟨List.forall_mem_nil _, rfl⟩
    · intro h
      rw [h.2]
      rfl
  | cons k ks ih =>
    rw [List.foldlM_cons, List.forall_mem_cons]
    cases hlookup : m.lookup k with
    | none =>
      rw [hnone d k hlookup]
      constructor
      · intro h
        cases h
      · intro h
        cases h.1.1
    | some b =>
      have hcons : ((k :: ks).filterMap fun k => m.lookup k) =
          b :: ks.filterMap fun k => m.lookup k := List.filterMap_cons_some hlookup
      rw [hsome d k b hlookup, hcons, List.foldl_cons]
      constructor
      · intro h
        have hrest := ih.mp h
        exact ⟨⟨rfl, hrest.1⟩, hrest.2⟩
      · intro h
        exact ih.mpr ⟨h.1.2, h.2⟩

/-- The entries of an association list under other keys. -/
def rekey (f : α → γ) (m : AList fun _ : α => β) : AList fun _ : γ => β :=
  m.entries.foldl (fun n entry => n.insert (f entry.1) entry.2) ∅

variable {f : α → γ} {s : Set α} {m : AList fun _ : α => β}

omit [DecidableEq γ] in
theorem nodup_map_entries (hf : Set.InjOn f s) (hm : ∀ a ∈ m, a ∈ s) :
    (m.entries.map fun entry => f entry.1).Nodup := by
  have hkeys : (m.entries.map fun entry => f entry.1) = m.keys.map f := by
    simp [keys, List.keys]
  rw [hkeys, List.nodup_map_iff_inj_on m.keys_nodup]
  intro a ha b hb hab
  exact hf (hm a (mem_keys.mpr ha)) (hm b (mem_keys.mpr hb)) hab

theorem lookup_rekey [DecidableEq α] (hf : Set.InjOn f s) (hm : ∀ a ∈ m, a ∈ s) {a : α} (ha : a ∈ s) :
    (m.rekey f).lookup (f a) = m.lookup a := by
  cases hlookup : m.lookup a with
  | some b =>
    have hmem : (⟨a, b⟩ : Σ _ : α, β) ∈ m.entries := mem_lookup_iff.mp hlookup
    exact lookup_foldl_insert_of_mem (nodup_map_entries hf hm) hmem
  | none =>
    rw [lookup_eq_none] at hlookup
    rw [rekey, lookup_foldl_insert_of_notMem, lookup_empty]
    intro entry hentry hkey
    have hkeys : entry.1 ∈ m.keys := List.mem_map_of_mem hentry
    have heq : entry.1 = a := hf (hm _ (mem_keys.mpr hkeys)) ha hkey
    rw [heq] at hkeys
    exact hlookup (mem_keys.mpr hkeys)

/-- Every key of the new list comes from one of the old. -/
theorem exists_of_mem_rekey {k : γ} (h : k ∈ m.rekey f) : ∃ a ∈ m, f a = k := by
  by_contra hnot
  apply lookup_eq_none.mp _ h
  rw [rekey, lookup_foldl_insert_of_notMem, lookup_empty]
  intro entry hentry hkey
  exact hnot ⟨entry.1, mem_keys.mpr (List.mem_map_of_mem hentry), hkey⟩

end AList
