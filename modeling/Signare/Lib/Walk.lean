import Mathlib.Data.Finset.Card
import Mathlib.Data.Finset.SDiff
import Mathlib.Data.List.Nodup
import Mathlib.Logic.Relation

/-!
# Depth-first walks

A walk of a finite graph that collects what it has seen, on fuel. With more fuel than there are
nodes left to see, it collects exactly the nodes that can be reached, each of them once.
-/

namespace Relation

variable {α : Type} [DecidableEq α]

/-- Visit `a` and everything behind it that is not in `seen`. -/
def walk (succ : α → List α) : Nat → α → List α → List α
  | 0, _, seen => seen
  | n + 1, a, seen =>
    if a ∈ seen then seen else (succ a).foldl (fun seen b => walk succ n b seen) (a :: seen)

variable {succ : α → List α}

/-- The nodes `bs` are visited on the way from `seen` to `seen'`, with everything behind them. -/
structure Explores (succ : α → List α) (seen : List α) (bs : List α) (seen' : List α) : Prop where
  subset : seen ⊆ seen'
  mem : bs ⊆ seen'
  closed : ∀ x ∈ seen', x ∈ seen ∨ succ x ⊆ seen'

theorem Explores.foldl {f : List α → α → List α} {U : Finset α} {n : Nat}
    (hf : ∀ seen, ∀ b ∈ U, (U \ seen.toFinset).card < n → Explores succ seen [b] (f seen b))
    {bs : List α} {seen : List α} (hbs : ∀ b ∈ bs, b ∈ U) (hfuel : (U \ seen.toFinset).card < n) :
    Explores succ seen bs (bs.foldl f seen) := by
  induction bs generalizing seen with
  | nil => exact ⟨fun _ h => h, List.nil_subset _, fun x hx => .inl hx⟩
  | cons b bs ih =>
    have hb := hf seen b (hbs b List.mem_cons_self) hfuel
    have hle : (U \ (f seen b).toFinset).card ≤ (U \ seen.toFinset).card :=
      Finset.card_le_card (Finset.sdiff_subset_sdiff (Finset.Subset.refl _)
        fun x hx => List.mem_toFinset.mpr (hb.subset (List.mem_toFinset.mp hx)))
    have hrest : Explores succ (f seen b) bs (bs.foldl f (f seen b)) :=
      ih (fun c hc => hbs c (List.mem_cons_of_mem _ hc)) (by omega)
    refine ⟨fun x hx => hrest.subset (hb.subset hx), ?_, fun x hx => ?_⟩
    · exact List.cons_subset.mpr ⟨hrest.subset (hb.mem List.mem_cons_self), hrest.mem⟩
    · rcases hrest.closed x hx with hx | hx
      · exact (hb.closed x hx).imp_right fun h y hy => hrest.subset (h hy)
      · exact .inr hx

theorem explores_walk {U : Finset α} (hU : ∀ a ∈ U, ∀ b ∈ succ a, b ∈ U) {n : Nat} {a : α}
    {seen : List α} (ha : a ∈ U) (hfuel : (U \ seen.toFinset).card < n) :
    Explores succ seen [a] (walk succ n a seen) := by
  induction n generalizing a seen with
  | zero => omega
  | succ n ih =>
    rw [walk]
    split
    · next hmem =>
      exact ⟨fun _ h => h, List.cons_subset.mpr ⟨hmem, List.nil_subset _⟩, fun x hx => .inl hx⟩
    · next hmem =>
      have hlt : (U \ (a :: seen).toFinset).card < n := by
        rw [List.toFinset_cons, Finset.sdiff_insert]
        have hin : a ∈ U \ seen.toFinset := by simp [ha, hmem]
        have := Finset.card_erase_lt_of_mem hin
        omega
      have hrest : Explores succ (a :: seen) (succ a)
          ((succ a).foldl (fun seen b => walk succ n b seen) (a :: seen)) :=
        Explores.foldl (fun _ b hb h => ih hb h) (hU a ha) hlt
      refine ⟨fun x hx => hrest.subset (List.mem_cons_of_mem _ hx), ?_, fun x hx => ?_⟩
      · exact List.cons_subset.mpr ⟨hrest.subset List.mem_cons_self, List.nil_subset _⟩
      · rcases hrest.closed x hx with hx | hx
        · rcases List.mem_cons.mp hx with rfl | hx
          · exact .inr hrest.mem
          · exact .inl hx
        · exact .inr hx

private theorem foldl_walk_induction {P : List α → Prop} {n : Nat}
    (h : ∀ seen b, P seen → P (walk succ n b seen)) {bs : List α} {seen : List α} (hseen : P seen) :
    P (bs.foldl (fun seen b => walk succ n b seen) seen) := by
  induction bs generalizing seen with
  | nil => exact hseen
  | cons b bs ih => exact ih (h seen b hseen)

theorem nodup_walk {n : Nat} {a : α} {seen : List α} (h : seen.Nodup) :
    (walk succ n a seen).Nodup := by
  induction n generalizing a seen with
  | zero => exact h
  | succ n ih =>
    rw [walk]
    split
    · exact h
    · next hmem =>
      exact foldl_walk_induction (P := List.Nodup) (fun _ _ hseen => ih hseen)
        (List.nodup_cons.mpr ⟨hmem, h⟩)

theorem reachable_of_mem_walk {n : Nat} {a x : α} {seen : List α} (h : x ∈ walk succ n a seen) :
    x ∈ seen ∨ ReflTransGen (fun a b => b ∈ succ a) a x := by
  induction n generalizing a seen x with
  | zero => exact .inl h
  | succ n ih =>
    rw [walk] at h
    split at h
    · exact .inl h
    · suffices hfold : ∀ bs : List α, ∀ seen' : List α, bs ⊆ succ a →
          (∀ y ∈ seen', y ∈ seen ∨ ReflTransGen (fun a b => b ∈ succ a) a y) →
          x ∈ bs.foldl (fun seen b => walk succ n b seen) seen' →
            x ∈ seen ∨ ReflTransGen (fun a b => b ∈ succ a) a x by
        refine hfold (succ a) (a :: seen) (fun _ hb => hb) (fun y hy => ?_) h
        rcases List.mem_cons.mp hy with rfl | hy
        · exact .inr .refl
        · exact .inl hy
      intro bs
      induction bs with
      | nil => exact fun _ _ hseen' hx => hseen' x hx
      | cons b bs ihbs =>
        intro seen' hbs hseen' hx
        obtain ⟨hb, hbs⟩ := List.cons_subset.mp hbs
        refine ihbs (walk succ n b seen') hbs (fun y hy => ?_) hx
        rcases ih hy with hy | hy
        · exact hseen' y hy
        · exact .inr (.head hb hy)

theorem mem_walk_iff {U : Finset α} (hU : ∀ a ∈ U, ∀ b ∈ succ a, b ∈ U) {n : Nat} {a x : α}
    (ha : a ∈ U) (hfuel : U.card < n) :
    x ∈ walk succ n a [] ↔ ReflTransGen (fun a b => b ∈ succ a) a x := by
  constructor
  · intro h
    exact (reachable_of_mem_walk h).resolve_left (List.not_mem_nil)
  · intro h
    have hall := @explores_walk _ _ succ U hU n a [] ha (by simpa using hfuel)
    induction h with
    | refl => exact hall.mem List.mem_cons_self
    | tail _ hstep ih => exact (hall.closed _ ih).resolve_left List.not_mem_nil hstep

end Relation
