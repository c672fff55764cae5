import Signare.Storage.Statement

/-!
# Databases that honour their keys

In a database whose tables hold no two rows that clash, rows are removed by key where a statement
removes them by identity, and a statement outside any transaction leaves it so.
-/

namespace Signare

theorem clash_comm (t : Table) (row row' : Row t) : clash t row row' = clash t row' row := by
  have hkey : decide (keyOf t row = keyOf t row') = decide (keyOf t row' = keyOf t row) := by
    simp only [eq_comm]
  have hidentity : (identity t row == identity t row') = (identity t row' == identity t row) :=
    Bool.beq_comm
  have hindex : sharesIndex t row row' = sharesIndex t row' row := by
    cases t with
    | hsmSlot =>
      simp only [sharesIndex]
      rw [Bool.beq_comm (a := HSMSlotRow.hsmModuleId row), Bool.beq_comm (a := HSMSlotRow.slot row),
        Bool.beq_comm (a := HSMSlotRow.applicationId row)]
    | entry =>
      simp only [sharesIndex]
      rw [Bool.beq_comm (a := EntryRow.resourceId row),
        Bool.beq_comm (a := EntryRow.resourceKind row),
        Bool.beq_comm (a := EntryRow.parentResourceId row),
        Bool.beq_comm (a := EntryRow.parentResourceKind row)]
    | _ => rfl
  rw [clash, clash, hkey, hidentity, hindex]

theorem keyOf_ne_of_clash {t : Table} {row row' : Row t} (h : clash t row row' = false) :
    keyOf t row ≠ keyOf t row' := by
  intro hkey
  simp [clash, hkey] at h

theorem identity_ne_of_clash {t : Table} {row row' : Row t} (h : clash t row row' = false) :
    identity t row ≠ identity t row' := by
  intro hidentity
  simp [clash, hidentity] at h

/-- No two rows of a table clash. -/
def Database.Keyed (db : Database) : Prop :=
  ∀ t, (db t).Pairwise fun row row' => clash t row row' = false

namespace Database.Keyed

variable {db : Database} {t : Table}

theorem clash_eq_false (h : db.Keyed) {row row' : Row t} (hrow : row ∈ db t) (hrow' : row' ∈ db t)
    (hne : row ≠ row') : clash t row row' = false := by
  have : Std.Symm fun row row' : Row t => clash t row row' = false :=
    ⟨fun row row' hclash => by rwa [clash_comm]⟩
  exact (h t).forall hrow hrow' hne

theorem eq_of_identity (h : db.Keyed) {row row' : Row t} (hrow : row ∈ db t) (hrow' : row' ∈ db t)
    (hidentity : identity t row = identity t row') : row = row' := by
  by_contra hne
  exact identity_ne_of_clash (h.clash_eq_false hrow hrow' hne) hidentity

theorem eq_of_keyOf (h : db.Keyed) {row row' : Row t} (hrow : row ∈ db t) (hrow' : row' ∈ db t)
    (hkey : keyOf t row = keyOf t row') : row = row' := by
  by_contra hne
  exact keyOf_ne_of_clash (h.clash_eq_false hrow hrow' hne) hkey

theorem insert (h : db.Keyed) {row : Row t} (hrow : (db t).any (clash t row) = false) :
    ((Write.insert t row).apply db).Keyed := by
  intro t'
  by_cases ht : t' = t
  · subst ht
    rw [Write.apply, Function.update_self, List.pairwise_append]
    refine ⟨h t', List.pairwise_singleton _ _, fun row' hrow' row'' hrow'' => ?_⟩
    rw [List.mem_singleton] at hrow''
    rw [hrow'', clash_comm]
    simpa using List.any_eq_false.mp hrow row' hrow'
  · rw [Write.apply, Function.update_of_ne ht]
    exact h t'

theorem remove (h : db.Keyed) (identities : List String) :
    ((Write.remove t identities).apply db).Keyed := by
  intro t'
  by_cases ht : t' = t
  · subst ht
    rw [Write.apply, Function.update_self]
    exact (h t').filter _
  · rw [Write.apply, Function.update_of_ne ht]
    exact h t'

theorem remove_found (h : db.Keyed) (found : Row t → Bool) :
    (Write.remove t (((db t).filter found).map (identity t))).apply db =
      Function.update db t ((db t).filter fun row => !found row) := by
  rw [Write.apply]
  congr 1
  refine List.filter_congr fun row hrow => ?_
  cases hfound : found row with
  | true =>
    have hmem : identity t row ∈ ((db t).filter found).map (identity t) :=
      List.mem_map_of_mem (List.mem_filter.mpr ⟨hrow, hfound⟩)
    simp [hmem]
  | false =>
    have hmem : identity t row ∉ ((db t).filter found).map (identity t) := by
      rw [List.mem_map]
      rintro ⟨row', hrow', hidentity⟩
      rw [List.mem_filter] at hrow'
      rw [h.eq_of_identity hrow'.1 hrow hidentity, hfound] at hrow'
      exact Bool.false_ne_true hrow'.2
    simp [hmem]

end Database.Keyed

theorem Statement.perform_idle (s : Statement) (fault : Option PersistenceError) (db : Database) :
    (∃ err, s.perform fault .idle db = (.error err, .idle, db)) ∨
      ∃ result, s.answer db = .ok result ∧
        s.perform fault .idle db = (.ok result, .idle, s.written db) := by
  cases fault with
  | some err => exact .inl ⟨err, rfl⟩
  | none =>
    cases hanswer : s.answer db with
    | error err => exact .inl ⟨err, by simp [Statement.perform, hanswer]⟩
    | ok result => exact .inr ⟨result, rfl, by simp [Statement.perform, hanswer]⟩

theorem Statement.insert_answer_ok {t : Table} {row : Row t} {db : Database}
    {result : (Statement.insert t row).Result} (h : (Statement.insert t row).answer db = .ok result) :
    fits t row ∧ (db t).any (clash t row) = false := by
  rw [Statement.answer] at h
  split at h
  · cases h
  · next hfits =>
    split at h
    · cases h
    · next hclash => exact ⟨by simpa using hfits, by simpa using hclash⟩

theorem Database.Keyed.delete_written {db : Database} (h : db.Keyed) {t : Table} (key : Key t) :
    (Statement.delete t key).written db =
      Function.update db t ((db t).filter fun row => keyOf t row ≠ key) := by
  refine (h.remove_found fun row => keyOf t row = key).trans ?_
  simp only [decide_not]

/-- An assignment that leaves alone what rows clash by. -/
def KeepsKeys (t : Table) (assign : Row t → Row t) : Prop :=
  ∀ row, keyOf t (assign row) = keyOf t row ∧ identity t (assign row) = identity t row ∧
    ∀ row', clash t (assign row) row' = clash t row row'

theorem Database.Keyed.change {db : Database} (h : db.Keyed) {t : Table} {assign : Row t → Row t}
    (hassign : KeepsKeys t assign) (p : Row t → Prop) [DecidablePred p] :
    Database.Keyed (Function.update db t
      ((db t).map fun row => if p row then assign row else row)) := by
  intro t'
  by_cases ht : t' = t
  · subst ht
    rw [Function.update_self, List.pairwise_map]
    refine (h t').imp fun {row row'} hclash => ?_
    have hleft : ∀ row'', clash t' (if p row then assign row else row) row'' =
        clash t' row row'' := by
      intro row''
      split
      · exact (hassign row).2.2 row''
      · rfl
    rw [hleft, clash_comm]
    split
    · rw [(hassign row').2.2, clash_comm]
      exact hclash
    · rw [clash_comm]
      exact hclash
  · rw [Function.update_of_ne ht]
    exact h t'

/-- The statement leaves the database as it is, or writes what it would write. -/
theorem Effect.perform_statement_idle {source : UUIDSource} {s : Statement}
    {fault : Option PersistenceError} {shared shared' : Shared}
    {answer : Except PersistenceError s.Result} {session : Session}
    (h : Effect.perform source (.statement s) fault .idle shared = (answer, session, shared')) :
    session = .idle ∧ ((∃ err, answer = .error err) ∧ shared' = shared ∨
      ∃ result, answer = .ok result ∧ s.answer shared.db = .ok result ∧
        shared' = { shared with db := s.written shared.db }) := by
  obtain ⟨err, hs⟩ | ⟨result, hanswer, hs⟩ := s.perform_idle fault shared.db
  · simp only [Effect.perform, hs] at h
    obtain ⟨rfl, rfl, rfl⟩ := h
    exact ⟨rfl, .inl ⟨⟨err, rfl⟩, rfl⟩⟩
  · simp only [Effect.perform, hs] at h
    obtain ⟨rfl, rfl, rfl⟩ := h
    exact ⟨rfl, .inr ⟨result, rfl, hanswer, rfl⟩⟩

end Signare
