import Signare.Storage.Keyed

/-!
# Pending writes

What a write makes of a row depends on the rows of its identity alone. So transactions whose pending
writes are to rows of different identities can be committed in any order, and each leaves to the
others what they have seen.
-/

namespace Signare

/-- The rows of an identity. -/
def Database.rows (db : Database) (t : Table) (x : String) : List (Row t) :=
  (db t).filter fun row => identity t row = x

theorem mem_rows {db : Database} {t : Table} {x : String} {row : Row t} :
    row ∈ db.rows t x ↔ row ∈ db t ∧ identity t row = x := by
  simp [Database.rows]

theorem mem_rows_self {db : Database} {t : Table} {row : Row t} :
    row ∈ db.rows t (identity t row) ↔ row ∈ db t := by
  simp [mem_rows]

/-- A write that adds a row of an identity. -/
def Write.Inserts (t : Table) (x : String) : Write → Prop
  | .insert t' row => t' = t ∧ identity t' row = x
  | _ => False

/-- A write that removes or changes the rows of an identity. -/
def Write.Lists (t : Table) (x : String) : Write → Prop
  | .insert .. => False
  | .remove t' identities => t' = t ∧ x ∈ identities
  | .change t' identities _ => t' = t ∧ x ∈ identities

/-- Writes that change nothing that rows clash by. -/
def Write.KeepsKeys : Write → Prop
  | .change t _ assign => Signare.KeepsKeys t assign
  | _ => True

/-- Rows that clash with the same rows. -/
def SameClash (t : Table) (row row' : Row t) : Prop := ∀ other, clash t row' other = clash t row other

section Write

variable {w : Write} {db db' : Database} {t : Table} {x : String}

theorem rows_apply_of_not (hkeeps : w.KeepsKeys) (hinserts : ¬ w.Inserts t x)
    (hlists : ¬ w.Lists t x) : (w.apply db).rows t x = db.rows t x := by
  unfold Database.rows
  cases w with
  | insert t' row =>
    by_cases ht : t = t'
    · subst ht
      have hx : identity t row ≠ x := fun heq => hinserts ⟨rfl, heq⟩
      simp [Write.apply, hx]
    · simp [Write.apply, Function.update_of_ne ht]
  | remove t' identities =>
    by_cases ht : t = t'
    · subst ht
      have hx : x ∉ identities := fun hmem => hlists ⟨rfl, hmem⟩
      rw [Write.apply, Function.update_self, List.filter_filter]
      apply List.filter_congr
      intro row _
      by_cases hrow : identity t row = x
      · simp [hrow, hx]
      · simp [hrow]
    · simp [Write.apply, Function.update_of_ne ht]
  | change t' identities assign =>
    by_cases ht : t = t'
    · subst ht
      have hx : x ∉ identities := fun hmem => hlists ⟨rfl, hmem⟩
      rw [Write.apply, Function.update_self]
      induction db t with
      | nil => rfl
      | cons row rows ih =>
        have hidentity : identity t (assign row) = identity t row := (hkeeps row).2.1
        by_cases hrow : identity t row = x
        · simp [hrow, hx, ih]
        · by_cases hmem : identity t row ∈ identities
          · simp [hrow, hmem, hidentity, ih]
          · simp [hrow, hmem, ih]
    · simp [Write.apply, Function.update_of_ne ht]

theorem rows_apply_congr (hkeeps : w.KeepsKeys) (h : db.rows t x = db'.rows t x) :
    (w.apply db).rows t x = (w.apply db').rows t x := by
  unfold Database.rows at h ⊢
  cases w with
  | insert t' row =>
    by_cases ht : t = t'
    · subst ht
      simp [Write.apply, h]
    · simp [Write.apply, Function.update_of_ne ht, h]
  | remove t' identities =>
    by_cases ht : t = t'
    · subst ht
      simp only [Write.apply, Function.update_self]
      rw [List.filter_comm, h, List.filter_comm]
    · simp [Write.apply, Function.update_of_ne ht, h]
  | change t' identities assign =>
    by_cases ht : t = t'
    · subst ht
      have hmap (rows : List (Row t)) :
          ((rows.map fun row => if identity t row ∈ identities then assign row else row).filter
            fun row => identity t row = x) =
          (rows.filter fun row => identity t row = x).map
            fun row => if identity t row ∈ identities then assign row else row := by
        rw [List.filter_map]
        congr 1
        apply List.filter_congr
        intro row _
        have hidentity : identity t (assign row) = identity t row := (hkeeps row).2.1
        by_cases hmem : identity t row ∈ identities
        · simp [hmem, hidentity]
        · simp [hmem]
      simp only [Write.apply, Function.update_self]
      rw [hmap, hmap, h]
    · simp [Write.apply, Function.update_of_ne ht, h]

end Write

section Writes

variable {writes : List Write} {db db' : Database} {t : Table} {x : String}

/-- Writes to the rows of an identity. -/
def Touches (writes : List Write) (t : Table) (x : String) : Prop :=
  ∃ w ∈ writes, w.Inserts t x ∨ w.Lists t x

@[simp] theorem applyAll_nil (db : Database) : Write.applyAll [] db = db := rfl

@[simp] theorem applyAll_cons (w : Write) (writes : List Write) (db : Database) :
    Write.applyAll (w :: writes) db = Write.applyAll writes (w.apply db) := rfl

theorem applyAll_append (writes more : List Write) (db : Database) :
    Write.applyAll (writes ++ more) db = Write.applyAll more (Write.applyAll writes db) :=
  List.foldl_append ..

theorem rows_applyAll_of_not (hkeeps : ∀ w ∈ writes, w.KeepsKeys) (h : ¬ Touches writes t x) :
    (Write.applyAll writes db).rows t x = db.rows t x := by
  induction writes generalizing db with
  | nil => rfl
  | cons w writes ih =>
    rw [List.forall_mem_cons] at hkeeps
    have hrest : ¬ Touches writes t x := fun ⟨w', hmem, htouches⟩ =>
      h ⟨w', List.mem_cons_of_mem _ hmem, htouches⟩
    have hfirst : (w.apply db).rows t x = db.rows t x := by
      apply rows_apply_of_not hkeeps.1
      · intro hinserts
        exact h ⟨w, List.mem_cons_self, .inl hinserts⟩
      · intro hlists
        exact h ⟨w, List.mem_cons_self, .inr hlists⟩
    rw [applyAll_cons, ih hkeeps.2 hrest, hfirst]

theorem rows_applyAll_congr (hkeeps : ∀ w ∈ writes, w.KeepsKeys)
    (h : db.rows t x = db'.rows t x) :
    (Write.applyAll writes db).rows t x = (Write.applyAll writes db').rows t x := by
  induction writes generalizing db db' with
  | nil => exact h
  | cons w writes ih =>
    rw [List.forall_mem_cons] at hkeeps
    exact ih hkeeps.2 (rows_apply_congr hkeeps.1 h)

/-- A row was there before or is inserted, but for what rows do not clash by. -/
theorem origin_of_mem_applyAll (hkeeps : ∀ w ∈ writes, w.KeepsKeys) {row : Row t}
    (h : row ∈ Write.applyAll writes db t) :
    ∃ source, (source ∈ db t ∨ .insert t source ∈ writes) ∧ SameClash t source row ∧
      identity t row = identity t source := by
  induction writes generalizing db with
  | nil => exact ⟨row, .inl h, fun _ => rfl, rfl⟩
  | cons w writes ih =>
    rw [List.forall_mem_cons] at hkeeps
    rw [applyAll_cons] at h
    obtain ⟨source, hsource, hsame, hidentity⟩ := ih hkeeps.2 h
    cases hsource with
    | inr hinsert => exact ⟨source, .inr (List.mem_cons_of_mem _ hinsert), hsame, hidentity⟩
    | inl hmem =>
      cases w with
      | insert t' row' =>
        by_cases ht : t = t'
        · subst ht
          rw [Write.apply, Function.update_self, List.mem_append, List.mem_singleton] at hmem
          cases hmem with
          | inl hmem => exact ⟨source, .inl hmem, hsame, hidentity⟩
          | inr heq =>
            subst heq
            exact ⟨source, .inr List.mem_cons_self, hsame, hidentity⟩
        · rw [Write.apply, Function.update_of_ne ht] at hmem
          exact ⟨source, .inl hmem, hsame, hidentity⟩
      | remove t' identities =>
        by_cases ht : t = t'
        · subst ht
          rw [Write.apply, Function.update_self] at hmem
          exact ⟨source, .inl (List.mem_filter.mp hmem).1, hsame, hidentity⟩
        · rw [Write.apply, Function.update_of_ne ht] at hmem
          exact ⟨source, .inl hmem, hsame, hidentity⟩
      | change t' identities assign =>
        by_cases ht : t = t'
        · subst ht
          rw [Write.apply, Function.update_self, List.mem_map] at hmem
          obtain ⟨row', hmem, heq⟩ := hmem
          by_cases hlisted : identity t row' ∈ identities
          · rw [if_pos hlisted] at heq
            subst heq
            have hassign := hkeeps.1 row'
            refine ⟨row', .inl hmem, fun other => ?_, hidentity.trans hassign.2.1⟩
            rw [hsame other, hassign.2.2 other]
          · rw [if_neg hlisted] at heq
            subst heq
            exact ⟨row', .inl hmem, hsame, hidentity⟩
        · rw [Write.apply, Function.update_of_ne ht] at hmem
          exact ⟨source, .inl hmem, hsame, hidentity⟩

end Writes

theorem SameClash.clash_right {t : Table} {row row' : Row t} (h : SameClash t row row')
    (other : Row t) : clash t other row' = clash t other row := by
  rw [clash_comm, h other, clash_comm]

/-- A database is keyed where each identity is that of one row, and rows of different identities do
not clash. -/
theorem keyed_iff {db : Database} : db.Keyed ↔ ∀ t, (∀ x, (db.rows t x).length ≤ 1) ∧
    ∀ row ∈ db t, ∀ row' ∈ db t, identity t row ≠ identity t row' → clash t row row' = false := by
  constructor
  · intro h t
    refine ⟨fun x => ?_, fun row hrow row' hrow' hne => ?_⟩
    · have hpair : (db.rows t x).Pairwise fun row row' => clash t row row' = false :=
        (h t).filter _
      cases hrows : db.rows t x with
      | nil => simp
      | cons row rows =>
        cases rows with
        | nil => simp
        | cons row' rows =>
          rw [hrows] at hpair
          have hclash := (List.pairwise_cons.mp hpair).1 row' List.mem_cons_self
          have hrow : row ∈ db.rows t x := by simp [hrows]
          have hrow' : row' ∈ db.rows t x := by simp [hrows]
          have heq : identity t row = identity t row' :=
            (mem_rows.mp hrow).2.trans (mem_rows.mp hrow').2.symm
          exact absurd heq (identity_ne_of_clash hclash)
    · exact h.clash_eq_false hrow hrow' fun heq => hne (heq ▸ rfl)
  · intro h t
    obtain ⟨hone, hclash⟩ := h t
    have hnodup : (db t).Nodup := by
      classical
      rw [List.nodup_iff_count_le_one]
      intro row
      have hcount : (db t).count row = (db.rows t (identity t row)).count row := by
        rw [Database.rows, List.count_filter]
        exact decide_eq_true rfl
      rw [hcount]
      exact List.count_le_length.trans (hone _)
    apply hnodup.pairwise_of_forall_ne
    intro row hrow row' hrow' hne
    apply hclash row hrow row' hrow'
    intro heq
    have hmem : row ∈ db.rows t (identity t row') := mem_rows.mpr ⟨hrow, heq⟩
    have hmem' : row' ∈ db.rows t (identity t row') := mem_rows_self.mpr hrow'
    obtain ⟨row'', hrows⟩ : ∃ row'', db.rows t (identity t row') = [row''] :=
      List.length_eq_one_iff.mp (le_antisymm (hone _) (List.length_pos_of_mem hmem))
    rw [hrows, List.mem_singleton] at hmem hmem'
    exact hne (hmem.trans hmem'.symm)

end Signare
