import Mathlib.Data.List.Nodup
import Mathlib.Data.List.Perm.Basic
import Mathlib.Data.List.Sort
import Mathlib.Order.Defs.LinearOrder

/-!
# Pages of an order that is picked again

A list is read in pages of one length, each page from an order of its own. All the orders are sorted
by the same key, so they differ within equal keys only. Together the pages are the list for every
choice of the orders exactly if no page ends between two equal keys.
-/

namespace Pages

/-- Page number `k` of pages of `limit` elements. -/
def page {α : Type} (limit k : Nat) (xs : List α) : List α := (xs.drop (k * limit)).take limit

/-- The first `count` pages, each of the order that is picked for it. -/
def pages {α : Type} (limit : Nat) (order : Nat → List α) (count : Nat) : List α :=
  (List.range count).flatMap fun k => page limit k (order k)

variable {α κ : Type} {limit count p : Nat} {order : Nat → List α} {xs ys : List α}

theorem pages_succ : pages limit order (count + 1) =
    pages limit order count ++ page limit count (order count) := by
  rw [pages, List.range_succ, List.flatMap_append, List.flatMap_singleton]
  rfl

theorem pages_const : pages limit (fun _ => xs) count = xs.take (count * limit) := by
  induction count with
  | zero =>
    rw [Nat.zero_mul]
    rfl
  | succ count ih => rw [pages_succ, ih, page, Nat.succ_mul, List.take_add]

theorem map_pages {β : Type} (f : α → β) :
    (pages limit order count).map f = pages limit (fun k => (order k).map f) count := by
  induction count with
  | zero => rfl
  | succ count ih =>
    rw [pages_succ, pages_succ, List.map_append, ih, page, page, List.map_take, List.map_drop]

variable [LinearOrder κ] {key : α → κ}

theorem map_key_eq (hperm : xs.Perm ys) (hxs : xs.Pairwise (key · ≤ key ·))
    (hys : ys.Pairwise (key · ≤ key ·)) : xs.map key = ys.map key :=
  (hperm.map key).eq_of_pairwise' (List.pairwise_map.mpr hxs) (List.pairwise_map.mpr hys)

theorem take_eq_filter {c : κ} (hbefore : ∀ k ∈ (xs.map key).take p, k < c)
    (hafter : ∀ k ∈ (xs.map key).drop p, c ≤ k) : xs.take p = xs.filter (key · < c) := by
  have hlow : (xs.take p).filter (key · < c) = xs.take p := by
    rw [List.filter_eq_self]
    intro x hx
    apply decide_eq_true
    apply hbefore
    rw [← List.map_take]
    exact List.mem_map_of_mem hx
  have hhigh : (xs.drop p).filter (key · < c) = [] := by
    rw [List.filter_eq_nil_iff]
    intro x hx
    have hle : c ≤ key x := by
      apply hafter
      rw [← List.map_drop]
      exact List.mem_map_of_mem hx
    simpa using hle
  conv_rhs => rw [← List.take_append_drop p xs, List.filter_append, hlow, hhigh]
  rw [List.append_nil]

theorem take_perm (hperm : xs.Perm ys) (hxs : xs.Pairwise (key · ≤ key ·))
    (hys : ys.Pairwise (key · ≤ key ·))
    (hp : 0 < p → p < xs.length → (xs.map key)[p - 1]? ≠ (xs.map key)[p]?) :
    (xs.take p).Perm (ys.take p) := by
  by_cases hzero : p = 0
  · subst hzero
    exact .nil
  by_cases hlong : xs.length ≤ p
  · rw [List.take_of_length_le hlong, List.take_of_length_le (hperm.length_eq ▸ hlong)]
    exact hperm
  have hkeys := map_key_eq hperm hxs hys
  have hsorted : (xs.map key).Pairwise (· ≤ ·) := List.pairwise_map.mpr hxs
  have hlt : p < (xs.map key).length := by
    rw [List.length_map]
    omega
  have hpred : p - 1 < (xs.map key).length := by omega
  have hchange : (xs.map key)[p - 1] < (xs.map key)[p] := by
    apply lt_of_le_of_ne
    · exact List.pairwise_iff_getElem.mp hsorted _ _ hpred hlt (by omega)
    · have hne := hp (by omega) (by omega)
      rw [List.getElem?_eq_getElem hpred, List.getElem?_eq_getElem hlt] at hne
      exact fun heq => hne (congrArg some heq)
  have hbefore : ∀ k ∈ (xs.map key).take p, k < (xs.map key)[p] := by
    intro k hk
    obtain ⟨i, hi, rfl⟩ := List.mem_take_iff_getElem.mp hk
    apply lt_of_le_of_lt _ hchange
    by_cases heq : i = p - 1
    · subst heq
      exact le_rfl
    · exact List.pairwise_iff_getElem.mp hsorted _ _ (by omega) hpred (by omega)
  have hafter : ∀ k ∈ (xs.map key).drop p, (xs.map key)[p] ≤ k := by
    intro k hk
    obtain ⟨i, hi, rfl⟩ := List.mem_drop_iff_getElem.mp hk
    by_cases heq : i = 0
    · subst heq
      exact le_rfl
    · exact List.pairwise_iff_getElem.mp hsorted p (p + i) hlt (by omega) (by omega)
  generalize (xs.map key)[p] = c at hbefore hafter
  rw [take_eq_filter hbefore hafter]
  rw [hkeys] at hbefore hafter
  rw [take_eq_filter hbefore hafter]
  exact hperm.filter _

theorem page_perm {k : Nat} (hstart : (xs.take (k * limit)).Perm (ys.take (k * limit)))
    (hend : (xs.take ((k + 1) * limit)).Perm (ys.take ((k + 1) * limit))) :
    (page limit k xs).Perm (page limit k ys) := by
  rw [Nat.succ_mul, List.take_add, List.take_add] at hend
  exact (List.perm_append_left_iff _).mp ((hstart.append_right _).symm.trans hend)

section Orders

variable (hperm : ∀ k, (order k).Perm xs) (hsorted : ∀ k, (order k).Pairwise (key · ≤ key ·))
  (hxs : xs.Pairwise (key · ≤ key ·))
include hperm hsorted hxs

theorem map_key_pages : (pages limit order count).map key = (xs.map key).take (count * limit) := by
  have hkeys (k : Nat) : (order k).map key = xs.map key := map_key_eq (hperm k) (hsorted k) hxs
  rw [map_pages]
  simp only [hkeys, pages_const]

/-- The pages come sorted. -/
theorem pages_sorted : (pages limit order count).Pairwise (key · ≤ key ·) := by
  rw [← List.pairwise_map (f := key) (R := (· ≤ ·)), map_key_pages hperm hsorted hxs]
  exact (List.pairwise_map.mpr hxs).take

/-- Where no page ends between equal keys, the pages are the list. -/
theorem pages_perm (hcount : xs.length ≤ count * limit)
    (hends : ∀ k, 0 < k → k * limit < xs.length →
      (xs.map key)[k * limit - 1]? ≠ (xs.map key)[k * limit]?) :
    (pages limit order count).Perm xs := by
  have htake (k j : Nat) : ((order j).take (k * limit)).Perm (xs.take (k * limit)) := by
    have hkeys := map_key_eq (hperm j) (hsorted j) hxs
    apply take_perm (hperm j) (hsorted j) hxs
    intro hpos hlt
    rw [hkeys]
    rw [(hperm j).length_eq] at hlt
    exact hends k (Nat.pos_of_mul_pos_right hpos) hlt
  calc (pages limit order count).Perm (pages limit (fun _ => xs) count) :=
        List.Perm.flatMap_left _ fun k _ => page_perm (htake k k) (htake (k + 1) k)
    _ = xs := by rw [pages_const, List.take_of_length_le hcount]

end Orders

theorem exchange {us vs : List α} {a b : α} (hkey : key a = key b)
    (h : (us ++ a :: b :: vs).Pairwise (key · ≤ key ·)) :
    (us ++ b :: a :: vs).Pairwise (key · ≤ key ·) := by
  rw [← List.pairwise_map (f := key) (R := (· ≤ ·))] at h ⊢
  simpa [hkey] using h

/-- If a page ends between two equal keys, the elements can be picked so that one is on two
pages. -/
theorem exists_repeated {k : Nat} (hxs : xs.Pairwise (key · ≤ key ·)) (hlimit : 0 < limit)
    (hk : 0 < k) (hlt : k * limit < xs.length)
    (hequal : (xs.map key)[k * limit - 1]? = (xs.map key)[k * limit]?) :
    ∃ order : Nat → List α, (∀ j, (order j).Perm xs) ∧
      (∀ j, (order j).Pairwise (key · ≤ key ·)) ∧
        ∀ count, k < count → ¬ (pages limit order count).Nodup := by
  obtain ⟨q, hq⟩ : ∃ q, k * limit = q + 1 :=
    Nat.exists_eq_succ_of_ne_zero (Nat.mul_ne_zero (by omega) (by omega))
  rw [hq] at hlt
  rw [hq, Nat.add_sub_cancel, List.getElem?_map, List.getElem?_map,
    List.getElem?_eq_getElem (by omega), List.getElem?_eq_getElem hlt] at hequal
  have hsplit : xs = xs.take q ++ xs[q] :: xs[q + 1] :: xs.drop (q + 2) := by
    rw [← List.drop_eq_getElem_cons hlt, ← List.drop_eq_getElem_cons (by omega),
      List.take_append_drop]
  generalize ha : xs[q] = a at hsplit hequal
  generalize xs[q + 1] = b at hsplit hequal
  have hkey : key a = key b := Option.some.inj hequal
  let exchanged := xs.take q ++ b :: a :: xs.drop (q + 2)
  have hperm : exchanged.Perm xs := by
    conv_rhs => rw [hsplit]
    exact (List.Perm.swap a b _).append_left _
  have hsorted : exchanged.Pairwise (key · ≤ key ·) := exchange hkey (hsplit ▸ hxs)
  refine ⟨fun j => if j = k then exchanged else xs, ?_, ?_, ?_⟩
  · intro j
    dsimp only
    by_cases hj : j = k
    · rw [if_pos hj]
      exact hperm
    · rw [if_neg hj]
  · intro j
    dsimp only
    by_cases hj : j = k
    · rw [if_pos hj]
      exact hsorted
    · rw [if_neg hj]
      exact hxs
  · intro count hcount hnodup
    have hlast : a ∈ page limit (k - 1) xs := by
      have hstart : (k - 1) * limit + (limit - 1) = q := by
        rw [Nat.sub_mul]
        have hle : limit ≤ k * limit := Nat.le_mul_of_pos_left limit hk
        omega
      apply List.mem_of_getElem? (i := limit - 1)
      rw [page, List.getElem?_take_of_lt (by omega), List.getElem?_drop, hstart,
        List.getElem?_eq_getElem (by omega), ha]
    have hfirst : a ∈ page limit k exchanged := by
      apply List.mem_of_getElem? (i := 0)
      have hlength : (xs.take q).length = q := List.length_take_of_le (by omega)
      rw [page, List.getElem?_take_of_lt hlimit, List.getElem?_drop, hq,
        List.getElem?_append_right (by omega), hlength]
      simp
    have hdisjoint := List.pairwise_iff_getElem.mp (List.nodup_flatMap.mp hnodup).2 (k - 1) k
      (by rw [List.length_range]; omega) (by rw [List.length_range]; omega) (by omega)
    simp only [Function.onFun, List.getElem_range, if_pos, if_neg (show k - 1 ≠ k by omega)]
      at hdisjoint
    exact hdisjoint hlast hfirst

end Pages
