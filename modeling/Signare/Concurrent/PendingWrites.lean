import Signare.Concurrent.Environment
import Signare.Storage.Pending

/-!
# Transactions side by side

A write waits for the open transactions that it is in conflict with, so the transactions that are
open at one time write rows of different identities, and insert no rows that clash.
-/

namespace Signare

/-- A write that is in order on a database. -/
structure Write.Accepted (w : Write) (db : Database) : Prop where
  keeps : w.KeepsKeys
  keyed : (w.apply db).Keyed
  inserted : ∀ t x, w.Inserts t x → db.rows t x = []
  listed : ∀ t x, w.Lists t x → db.rows t x ≠ []

theorem rows_ne_nil {db : Database} {t : Table} {row : Row t} (h : row ∈ db t) :
    db.rows t (identity t row) ≠ [] :=
  List.ne_nil_of_mem (mem_rows_self.mpr h)

theorem rows_ne_nil_of_found {db : Database} {t : Table} {found : Row t → Bool} {x : String}
    (h : x ∈ ((db t).filter found).map (identity t)) : db.rows t x ≠ [] := by
  obtain ⟨row, hrow, rfl⟩ := List.mem_map.mp h
  exact rows_ne_nil (List.mem_filter.mp hrow).1

theorem Statement.write_accepted {s : Statement} {db : Database} {result : s.Result} {w : Write}
    (hkeyed : db.Keyed) (hanswer : s.answer db = .ok result) (hwrite : s.write db = some w)
    (hkeeps : w.KeepsKeys) : w.Accepted db := by
  cases s with
  | insert t row =>
    cases hwrite
    obtain ⟨-, hclash⟩ := Statement.insert_answer_ok hanswer
    refine ⟨trivial, hkeyed.insert hclash, fun t' x hinserts => ?_, fun _ _ hlists => hlists.elim⟩
    obtain ⟨rfl, rfl⟩ := hinserts
    by_contra hrows
    obtain ⟨row', hrow'⟩ := List.exists_mem_of_ne_nil _ hrows
    obtain ⟨hmem, hidentity⟩ := mem_rows.mp hrow'
    have hfalse := List.any_eq_false.mp hclash row' hmem
    exact identity_ne_of_clash (by simpa using hfalse) hidentity.symm
  | delete t key =>
    cases hwrite
    refine ⟨trivial, hkeyed.remove _, fun _ _ hinserts => hinserts.elim, fun t' x hlists => ?_⟩
    obtain ⟨rfl, hx⟩ := hlists
    exact rows_ne_nil_of_found hx
  | deleteAll t filter =>
    cases hwrite
    refine ⟨trivial, hkeyed.remove _, fun _ _ hinserts => hinserts.elim, fun t' x hlists => ?_⟩
    obtain ⟨rfl, hx⟩ := hlists
    exact rows_ne_nil_of_found hx
  | update t key resourceVersion assign =>
    cases hwrite
    refine ⟨hkeeps, hkeyed.change hkeeps _, fun _ _ hinserts => hinserts.elim,
      fun t' x hlists => ?_⟩
    obtain ⟨rfl, hx⟩ := hlists
    exact rows_ne_nil_of_found hx
  | getById t key => cases hwrite
  | exists_ t key => cases hwrite
  | list t filter limit => cases hwrite

theorem Write.waitsFor_of_lists {w w' : Write} {db : Database} {t : Table} {x : String}
    (h : w.Lists t x) (h' : w'.Lists t x) : w.waitsFor db w' := by
  cases w with
  | insert t row => exact h.elim
  | remove t identities =>
    cases w' with
    | insert t row => exact h'.elim
    | _ => exact ⟨h.1.trans h'.1.symm, x, h.2, h'.2⟩
  | change t identities assign =>
    cases w' with
    | insert t row => exact h'.elim
    | _ => exact ⟨h.1.trans h'.1.symm, x, h.2, h'.2⟩

theorem Write.clash_eq_false_of_not_waitsFor {db : Database} {t : Table} {row row' : Row t}
    (h : ¬ (Write.insert t row).waitsFor db (.insert t row')) : clash t row row' = false := by
  cases hclash : clash t row row' with
  | false => rfl
  | true => exact absurd ⟨rfl, hclash⟩ h

/-- Pending writes that were accepted one after another, over a database that others change too. -/
structure Held (writes : List Write) (db : Database) : Prop where
  keeps : ∀ w ∈ writes, w.KeepsKeys
  keyed : (Write.applyAll writes db).Keyed
  listed : ∀ t x, ∀ w ∈ writes, w.Lists t x → db.rows t x ≠ [] ∨ ∃ w' ∈ writes, w'.Inserts t x
  inserted : ∀ t x, ∀ w ∈ writes, w.Inserts t x → db.rows t x ≠ [] → ∃ w' ∈ writes, w'.Lists t x

/-- Pending writes of different transactions. -/
structure Apart (writes writes' : List Write) : Prop where
  rows : ∀ t x, Touches writes t x → ¬ Touches writes' t x
  inserts : ∀ t row row', .insert t row ∈ writes → .insert t row' ∈ writes' →
    clash t row row' = false

section Held

variable {writes writes' : List Write} {w : Write} {db : Database} {t : Table} {x : String}

theorem held_nil (h : db.Keyed) : Held [] db := ⟨by simp, h, by simp, by simp⟩

theorem apart_nil (writes : List Write) : Apart [] writes :=
  ⟨fun _ _ ⟨_, hmem, _⟩ => absurd hmem List.not_mem_nil, by simp⟩

theorem Apart.symm (h : Apart writes writes') : Apart writes' writes := by
  refine ⟨fun t x htouches htouches' => h.rows t x htouches' htouches, fun t row row' hmem hmem' => ?_⟩
  rw [clash_comm]
  exact h.inserts t row' row hmem' hmem

theorem Held.touches_of_ne (h : Held writes db)
    (hne : (Write.applyAll writes db).rows t x ≠ db.rows t x) : Touches writes t x := by
  by_contra htouches
  exact hne (rows_applyAll_of_not h.keeps htouches)

theorem Held.concat (h : Held writes db) (hw : w.Accepted (Write.applyAll writes db)) :
    Held (writes ++ [w]) db := by
  have hmem {w' : Write} (hw' : w' ∈ writes) : w' ∈ writes ++ [w] := List.mem_append_left _ hw'
  refine ⟨?_, ?_, fun t x w' hw' hlists => ?_, fun t x w' hw' hinserts hrows => ?_⟩
  · simpa [or_imp, forall_and] using ⟨h.keeps, hw.keeps⟩
  · rw [applyAll_append]
    exact hw.keyed
  · rw [List.mem_append, List.mem_singleton] at hw'
    cases hw' with
    | inl hw' =>
      obtain hrows | ⟨w'', hw'', hinserts⟩ := h.listed t x w' hw' hlists
      · exact .inl hrows
      · exact .inr ⟨w'', hmem hw'', hinserts⟩
    | inr heq =>
      subst heq
      by_contra hnot
      rw [not_or, not_not] at hnot
      have hview := hw.listed t x hlists
      obtain ⟨w'', hw'', htouches⟩ : Touches writes t x := by
        apply h.touches_of_ne
        rw [hnot.1]
        exact hview
      cases htouches with
      | inl hinserts => exact hnot.2 ⟨w'', hmem hw'', hinserts⟩
      | inr hlists =>
        obtain hrows | ⟨w₃, hw₃, hinserts⟩ := h.listed t x w'' hw'' hlists
        · exact hrows hnot.1
        · exact hnot.2 ⟨w₃, hmem hw₃, hinserts⟩
  · rw [List.mem_append, List.mem_singleton] at hw'
    cases hw' with
    | inl hw' =>
      obtain ⟨w'', hw'', hlists⟩ := h.inserted t x w' hw' hinserts hrows
      exact ⟨w'', hmem hw'', hlists⟩
    | inr heq =>
      subst heq
      obtain ⟨w'', hw'', htouches⟩ : Touches writes t x := by
        apply h.touches_of_ne
        rw [hw.inserted t x hinserts]
        exact hrows.symm
      cases htouches with
      | inl hinserts' =>
        obtain ⟨w₃, hw₃, hlists⟩ := h.inserted t x w'' hw'' hinserts' hrows
        exact ⟨w₃, hmem hw₃, hlists⟩
      | inr hlists => exact ⟨w'', hmem hw'', hlists⟩

theorem Apart.concat (hapart : Apart writes writes') (h : Held writes db) (h' : Held writes' db)
    (hw : w.Accepted (Write.applyAll writes db)) (hwaits : ∀ w' ∈ writes', ¬ w.waitsFor db w') :
    Apart (writes ++ [w]) writes' := by
  have hinsert {t : Table} {row : Row t} (heq : w = .insert t row) {row' : Row t}
      (hrow' : .insert t row' ∈ writes') : clash t row row' = false := by
    subst heq
    exact Write.clash_eq_false_of_not_waitsFor (hwaits _ hrow')
  -- Whoever writes a row that is there, and is not of his own making, holds it.
  have hholds {t : Table} {x : String} (hrows : db.rows t x ≠ []) (htouches : Touches writes' t x) :
      ∃ w' ∈ writes', w'.Lists t x := by
    obtain ⟨w', hw', hinserts | hlists⟩ := htouches
    · exact h'.inserted t x w' hw' hinserts hrows
    · exact ⟨w', hw', hlists⟩
  have hown {t : Table} {x : String} (htouches' : Touches writes' t x) :
      (Write.applyAll writes db).rows t x = db.rows t x := by
    apply rows_applyAll_of_not h.keeps
    intro htouches
    exact hapart.rows t x htouches htouches'
  constructor
  · intro t x htouches htouches'
    obtain ⟨w₁, hw₁, htouches₁⟩ := htouches
    rw [List.mem_append, List.mem_singleton] at hw₁
    cases hw₁ with
    | inl hw₁ => exact hapart.rows t x ⟨w₁, hw₁, htouches₁⟩ htouches'
    | inr heq =>
      subst heq
      cases htouches₁ with
      | inl hinserts =>
        have hnone : db.rows t x = [] := by
          rw [← hown htouches']
          exact hw.inserted t x hinserts
        have hinserts' : ∃ w' ∈ writes', w'.Inserts t x := by
          obtain ⟨w', hw', hinserts' | hlists'⟩ := htouches'
          · exact ⟨w', hw', hinserts'⟩
          · exact (h'.listed t x w' hw' hlists').resolve_left (fun hrows => hrows hnone)
        obtain ⟨w', hw', hinserts'⟩ := hinserts'
        cases w₁ with
        | insert t₁ row =>
          cases w' with
          | insert t₂ row' =>
            obtain ⟨rfl, rfl⟩ := hinserts
            obtain ⟨rfl, hidentity⟩ := hinserts'
            exact identity_ne_of_clash (hinsert rfl hw') hidentity.symm
          | remove t₂ identities => exact hinserts'
          | change t₂ identities assign => exact hinserts'
        | remove t₁ identities => exact hinserts
        | change t₁ identities assign => exact hinserts
      | inr hlists =>
        have hsome : db.rows t x ≠ [] := by
          rw [← hown htouches']
          exact hw.listed t x hlists
        obtain ⟨w', hw', hlists'⟩ := hholds hsome htouches'
        exact hwaits w' hw' (Write.waitsFor_of_lists hlists hlists')
  · intro t row row' hrow hrow'
    rw [List.mem_append, List.mem_singleton] at hrow
    cases hrow with
    | inl hrow => exact hapart.inserts t row row' hrow hrow'
    | inr heq => exact hinsert heq.symm hrow'

/-- What a transaction sees once another has committed, it saw before or the other did. -/
theorem mem_applyAll_applyAll (h : Held writes db) (h' : Held writes' db)
    (hapart : Apart writes writes') {row : Row t}
    (hrow : row ∈ Write.applyAll writes (Write.applyAll writes' db) t) :
    row ∈ Write.applyAll writes db t ∧ Touches writes t (identity t row) ∨
      row ∈ Write.applyAll writes' db t ∧ ¬ Touches writes t (identity t row) := by
  rw [← mem_rows_self] at hrow
  by_cases htouches : Touches writes t (identity t row)
  · have hrows : (Write.applyAll writes' db).rows t (identity t row) = db.rows t (identity t row) :=
      rows_applyAll_of_not h'.keeps (hapart.rows _ _ htouches)
    rw [rows_applyAll_congr h.keeps hrows, mem_rows_self] at hrow
    exact .inl ⟨hrow, htouches⟩
  · rw [rows_applyAll_of_not h.keeps htouches, mem_rows_self] at hrow
    exact .inr ⟨hrow, htouches⟩

theorem clash_of_apart (h : Held writes db) (h' : Held writes' db) (hapart : Apart writes writes')
    {row row' : Row t} (hrow : row ∈ Write.applyAll writes db t)
    (htouches : Touches writes t (identity t row)) (hrow' : row' ∈ Write.applyAll writes' db t)
    (htouches' : ¬ Touches writes t (identity t row')) : clash t row row' = false := by
  have hne : identity t row ≠ identity t row' := fun heq => htouches' (heq ▸ htouches)
  obtain ⟨source', hsource', hsame', hidentity'⟩ := origin_of_mem_applyAll h'.keeps hrow'
  rw [hsame'.clash_right]
  rw [hidentity'] at htouches' hne
  cases hsource' with
  | inl hsource' =>
    -- The row below was there, so the transaction sees it beside its own.
    have hmem : source' ∈ Write.applyAll writes db t := by
      rw [← mem_rows_self, rows_applyAll_of_not h.keeps htouches', mem_rows_self]
      exact hsource'
    exact (keyed_iff.mp h.keyed t).2 row hrow source' hmem hne
  | inr hinsert' =>
    obtain ⟨source, hsource, hsame, hidentity⟩ := origin_of_mem_applyAll h.keeps hrow
    rw [hsame]
    rw [hidentity] at htouches hne
    cases hsource with
    | inl hsource =>
      have hmem : source ∈ Write.applyAll writes' db t := by
        rw [← mem_rows_self, rows_applyAll_of_not h'.keeps (hapart.rows _ _ htouches),
          mem_rows_self]
        exact hsource
      rw [← hsame'.clash_right]
      exact (keyed_iff.mp h'.keyed t).2 source hmem row' hrow' (hidentity' ▸ hne)
    | inr hinsert => exact hapart.inserts t source source' hinsert hinsert'

theorem Held.commit (h : Held writes db) (h' : Held writes' db) (hapart : Apart writes writes') :
    Held writes (Write.applyAll writes' db) := by
  have hrows {t : Table} {x : String} (htouches : Touches writes t x) :
      (Write.applyAll writes' db).rows t x = db.rows t x :=
    rows_applyAll_of_not h'.keeps (hapart.rows t x htouches)
  refine ⟨h.keeps, ?_, fun t x w hw hlists => ?_, fun t x w hw hinserts => ?_⟩
  · rw [keyed_iff]
    intro t
    refine ⟨fun x => ?_, fun row hrow row' hrow' hne => ?_⟩
    · by_cases htouches : Touches writes t x
      · rw [rows_applyAll_congr h.keeps (hrows htouches)]
        exact (keyed_iff.mp h.keyed t).1 x
      · rw [rows_applyAll_of_not h.keeps htouches]
        exact (keyed_iff.mp h'.keyed t).1 x
    · obtain ⟨hrow, htouches⟩ | ⟨hrow, htouches⟩ := mem_applyAll_applyAll h h' hapart hrow
      · obtain ⟨hrow', htouches'⟩ | ⟨hrow', htouches'⟩ := mem_applyAll_applyAll h h' hapart hrow'
        · exact (keyed_iff.mp h.keyed t).2 row hrow row' hrow' hne
        · exact clash_of_apart h h' hapart hrow htouches hrow' htouches'
      · obtain ⟨hrow', htouches'⟩ | ⟨hrow', htouches'⟩ := mem_applyAll_applyAll h h' hapart hrow'
        · rw [clash_comm]
          exact clash_of_apart h h' hapart hrow' htouches' hrow htouches
        · exact (keyed_iff.mp h'.keyed t).2 row hrow row' hrow' hne
  · rw [hrows ⟨w, hw, .inr hlists⟩]
    exact h.listed t x w hw hlists
  · rw [hrows ⟨w, hw, .inl hinserts⟩]
    exact h.inserted t x w hw hinserts

end Held

end Signare
