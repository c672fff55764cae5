import Mathlib.Data.List.Basic

/-!
# Operations that overwrite

A state goes through a list of operations, some of which leave the same state whatever was there
before. What comes before such an operation may be left out.
-/

namespace Overwriting

variable {O S : Type} {apply : S → O → S} {overwrites : O → Prop}

/-- The operations that leave the same state whatever was there. -/
def Forgets (apply : S → O → S) (overwrites : O → Prop) : Prop :=
  ∀ o, overwrites o → ∀ s s', apply s o = apply s' o

/-- After every occurrence of the operation comes one that overwrites. -/
def Overwritten (overwrites : O → Prop) (ops : List O) (o : O) : Prop :=
  ∀ rest, o :: rest <:+ ops → ∃ o' ∈ rest, overwrites o'

theorem Forgets.foldl_eq (h : Forgets apply overwrites) {ops : List O}
    (hops : ∃ o ∈ ops, overwrites o) (s s' : S) : ops.foldl apply s = ops.foldl apply s' := by
  induction ops generalizing s s' with
  | nil =>
    obtain ⟨o, ho, -⟩ := hops
    cases ho
  | cons o ops ih =>
    rw [List.foldl_cons, List.foldl_cons]
    by_cases hrest : ∃ o' ∈ ops, overwrites o'
    · exact ih hrest _ _
    · have ho : overwrites o := by
        obtain ⟨o', hmem, ho'⟩ := hops
        cases hmem with
        | head => exact ho'
        | tail _ hmem => exact absurd ⟨o', hmem, ho'⟩ hrest
      rw [h o ho s s']

/-- Operations that are overwritten may be left out. -/
theorem Forgets.foldl_filter (h : Forgets apply overwrites) {ops : List O} {keep : O → Bool}
    (hkeep : ∀ o ∈ ops, keep o = false → Overwritten overwrites ops o) (s : S) :
    (ops.filter keep).foldl apply s = ops.foldl apply s := by
  induction ops generalizing s with
  | nil => rfl
  | cons o ops ih =>
    have hrest : ∀ o' ∈ ops, keep o' = false → Overwritten overwrites ops o' := by
      intro o' hmem ho' rest hsuffix
      exact hkeep o' (List.mem_cons_of_mem o hmem) ho' rest
        (hsuffix.trans (List.suffix_cons o ops))
    cases ho : keep o with
    | true =>
      rw [List.filter_cons_of_pos ho, List.foldl_cons, List.foldl_cons]
      exact ih hrest _
    | false =>
      rw [List.filter_cons_of_neg (by simp [ho]), ih hrest, List.foldl_cons]
      exact h.foldl_eq (hkeep o List.mem_cons_self ho ops List.suffix_rfl) _ _

theorem Overwritten.concat {ops : List O} {o : O} (h : Overwritten overwrites ops o) {o' : O}
    (hne : o ≠ o') : Overwritten overwrites (ops ++ [o']) o := by
  intro rest hsuffix
  rw [List.suffix_concat_iff] at hsuffix
  obtain hnil | ⟨t, ht, htail⟩ := hsuffix
  · cases hnil
  · cases t with
    | nil =>
      cases ht
      exact absurd rfl hne
    | cons a t =>
      cases ht
      obtain ⟨o'', hmem, ho''⟩ := h t htail
      exact ⟨o'', List.mem_append_left _ hmem, ho''⟩

theorem overwritten_concat {ops : List O} {o o' : O} (ho' : overwrites o') (hne : o ≠ o') :
    Overwritten overwrites (ops ++ [o']) o := by
  intro rest hsuffix
  rw [List.suffix_concat_iff] at hsuffix
  obtain hnil | ⟨t, ht, -⟩ := hsuffix
  · cases hnil
  · cases t with
    | nil =>
      cases ht
      exact absurd rfl hne
    | cons a t =>
      cases ht
      exact ⟨o', by simp, ho'⟩

end Overwriting
