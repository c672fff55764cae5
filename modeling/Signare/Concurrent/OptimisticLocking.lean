import Signare.Concurrent.LocalKeys
import Signare.Concurrent.StoredVersions

/-!
# Optimistic locking

An edit names the version of the resource that it is based on, and its update is guarded by it.
Whatever use cases run side by side: a version that an update has replaced is never found again, so
no two edits that are based on one version both succeed.
-/

namespace Signare

open ByteCodec Interleaving

/-- The versions that the updates of a use case were guarded by and have replaced: in the transaction
that is open, and for good. -/
structure Replaced where
  isOpen : Bool
  pending : List String
  done : List String

def Replaced.none : Replaced := ⟨false, [], []⟩

def Replaced.replace (g : Replaced) (v : String) : Replaced :=
  if g.isOpen then { g with pending := v :: g.pending } else { g with done := v :: g.done }

def Replaced.after (g : Replaced) : (s : Effect) → s.Answer → Replaced
  | .statement (.update _ _ v _), .ok (rowsAffected : Nat) =>
    if rowsAffected = 0 then g else g.replace v
  | .statement _, .error _ => { g with pending := [] }
  | .begin_, .ok _ => { g with isOpen := true, pending := [] }
  | .commit, .ok _ => ⟨false, [], g.pending ++ g.done⟩
  | .commit, .error _ => ⟨false, [], g.done⟩
  | .rollback, _ => ⟨false, [], g.done⟩
  | _, _ => g

def replaced (history : History) : Replaced :=
  history.foldl (fun g event => g.after event.1 event.2) .none

@[simp] theorem replaced_concat (history : History) (s : Effect) (r : s.Answer) :
    replaced (history ++ [⟨s, r⟩]) = (replaced history).after s r := by
  simp [replaced]

theorem Replaced.after_update (g : Replaced) {t : Table} {key : Key t} {v : String}
    {assign : Row t → Row t} (rowsAffected : Nat) :
    g.after (.statement (.update t key v assign)) (.ok rowsAffected) =
      if rowsAffected = 0 then g else g.replace v := rfl

@[simp] theorem Replaced.after_error (g : Replaced) (s : Statement) (err : PersistenceError) :
    g.after (.statement s) (.error err) = { g with pending := [] } := by
  simp [Replaced.after]

theorem Replaced.after_ok (g : Replaced) (s : Statement) (result : s.Result) :
    g.after (.statement s) (.ok result) = g ∨
      ∃ v, g.after (.statement s) (.ok result) = g.replace v := by
  cases s with
  | update t key v assign =>
    have h (rowsAffected : Nat) :
        g.after (.statement (.update t key v assign)) (.ok rowsAffected) = g ∨
          ∃ v', g.after (.statement (.update t key v assign)) (.ok rowsAffected) = g.replace v' := by
      rw [Replaced.after_update]
      split
      · exact .inl rfl
      · exact .inr ⟨v, rfl⟩
    exact h result
  | _ => exact .inl rfl

theorem Replaced.isOpen_replace (g : Replaced) (v : String) : (g.replace v).isOpen = g.isOpen := by
  rw [Replaced.replace]
  split
  · rfl
  · rfl

theorem Replaced.isOpen_after_statement (g : Replaced) (s : Statement)
    (r : Except PersistenceError s.Result) : (g.after (.statement s) r).isOpen = g.isOpen := by
  cases r with
  | error err => simp
  | ok result =>
    cases g.after_ok s result with
    | inl heq => rw [heq]
    | inr hreplace =>
      obtain ⟨v, heq⟩ := hreplace
      rw [heq, isOpen_replace]

theorem Replaced.done_subset_after (g : Replaced) (s : Effect) (r : s.Answer) {v : String}
    (hv : v ∈ g.done) : v ∈ (g.after s r).done := by
  cases s with
  | statement s =>
    cases r with
    | error err => simpa using hv
    | ok result =>
      cases g.after_ok s result with
      | inl heq =>
        rw [heq]
        exact hv
      | inr hreplace =>
        obtain ⟨v', heq⟩ := hreplace
        rw [heq, Replaced.replace]
        split
        · exact hv
        · exact List.mem_cons_of_mem _ hv
  | commit =>
    cases r with
    | error err => exact hv
    | ok _ => exact List.mem_append_right _ hv
  | begin_ =>
    cases r with
    | error err => exact hv
    | ok _ => exact hv
  | _ => exact hv

theorem replaced_done_append {history : History} {v : String} (h : v ∈ (replaced history).done)
    (more : History) : v ∈ (replaced (history ++ more)).done := by
  induction more generalizing history with
  | nil => rwa [List.append_nil]
  | cons event more ih =>
    rw [← List.singleton_append, ← List.append_assoc]
    apply ih
    rw [replaced_concat]
    exact (replaced history).done_subset_after _ _ h

theorem Replaced.after_of_reads (g : Replaced) {s : Statement} {db : Database}
    (h : s.write db = .none) (result : s.Result) : g.after (.statement s) (.ok result) = g := by
  cases s with
  | update t key resourceVersion assign => cases h
  | _ => rfl

/-- Writes after which a version is found no more, that was stored or given by them. -/
structure Replaces (writes : List Write) (db : Database) (v : String) : Prop where
  gone : ¬ StoredVersion (Write.applyAll writes db) v
  was : PendingVersion writes v ∨ ∃ t, ∃ row ∈ db t, HasVersion t ∧ versionOf t row = v ∧
    Touches writes t (identity t row)

theorem replaces_seen {writes : List Write} {db : Database} {v : String}
    (h : Replaces writes db v) : PendingVersion writes v ∨ StoredVersion db v :=
  h.was.imp id fun ⟨t, row, hrow, hversioned, heq, _⟩ => ⟨t, row, hrow, hversioned, heq⟩

theorem not_replaces_nil (db : Database) (v : String) : ¬ Replaces [] db v := fun h =>
  (replaces_seen h).elim (not_pendingVersion_nil v) h.gone

theorem replaces_of_update {db : Database} {t : Table} {key : Key t} {v : String}
    {assign : Row t → Row t} {w : Write} {rowsAffected : Nat} (hunique : UniqueVersions db)
    (hversioned : HasVersion t)
    (hanswer : (Statement.update t key v assign).answer db = .ok rowsAffected)
    (hwrite : (Statement.update t key v assign).write db = some w) (hsome : rowsAffected ≠ 0)
    (hnew : ∀ v, w.Stamps v → ¬ StoredVersion db v) : ¬ StoredVersion (w.apply db) v ∧
      ∃ row ∈ db t, versionOf t row = v ∧ w.Lists t (identity t row) := by
  let found (row : Row t) : Bool := keyOf t row = key ∧ versionOf t row = v
  have hlength : ((db t).filter found).length = rowsAffected := by
    rw [Statement.answer] at hanswer
    split at hanswer
    · exact Except.ok.inj hanswer
    · cases hanswer
  have hne : (db t).filter found ≠ [] := by
    intro hnil
    rw [hnil] at hlength
    exact hsome hlength.symm
  obtain ⟨row, hmem⟩ := List.exists_mem_of_ne_nil _ hne
  obtain ⟨hrow, hfound⟩ := List.mem_filter.mp hmem
  have hversion : versionOf t row = v := (of_decide_eq_true hfound).2
  have hlists : w.Lists t (identity t row) := by
    cases hwrite
    exact ⟨rfl, List.mem_map_of_mem hmem⟩
  have hold : ¬ w.Stamps v := by
    intro hstamps
    apply hnew v hstamps
    rw [← hversion]
    exact stored_of_mem hrow hversioned
  refine ⟨fun hstored => ?_, row, hrow, hversion, hlists⟩
  obtain ⟨t', row', hrow', hversioned', heq⟩ := hstored
  cases mem_apply_or_stamps hrow' hversioned' with
  | inr hstamps =>
    rw [heq] at hstamps
    exact hold hstamps
  | inl hmem' =>
    -- The row that is left would be the one that was found.
    obtain ⟨rfl, hidentity⟩ :=
      hunique t' t row' hmem' row hrow hversioned' hversioned (heq.trans hversion.symm)
    rw [← hidentity] at hlists
    have hstamps := stamps_of_lists hrow' hlists hversioned'
    rw [heq] at hstamps
    exact hold hstamps

theorem Replaced.after_disciplined (g : Replaced) {db : Database} {history : History}
    {s : Statement} {result : s.Result} {w : Write} (hunique : UniqueVersions db)
    (hs : Disciplined history (.statement s)) (hanswer : s.answer db = .ok result)
    (hwrite : s.write db = some w) (hnew : ∀ v, w.Stamps v → ¬ StoredVersion db v) :
    g.after (.statement s) (.ok result) = g ∨
      ∃ v, g.after (.statement s) (.ok result) = g.replace v ∧ ¬ StoredVersion (w.apply db) v ∧
        ∃ t, ∃ row ∈ db t, HasVersion t ∧ versionOf t row = v ∧ w.Lists t (identity t row) := by
  cases s with
  | update t key v assign =>
    have hversioned : HasVersion t := hs.2.1
    have h (rowsAffected : Nat)
        (hanswer : (Statement.update t key v assign).answer db = .ok rowsAffected) :
        g.after (.statement (.update t key v assign)) (.ok rowsAffected) = g ∨
          ∃ v', g.after (.statement (.update t key v assign)) (.ok rowsAffected) = g.replace v' ∧
            ¬ StoredVersion (w.apply db) v' ∧ ∃ t, ∃ row ∈ db t, HasVersion t ∧ versionOf t row = v' ∧
              w.Lists t (identity t row) := by
      rw [Replaced.after_update]
      by_cases hnone : rowsAffected = 0
      · exact .inl (if_pos hnone)
      · obtain ⟨hgone, row, hrow, hversion, hlists⟩ :=
          replaces_of_update hunique hversioned hanswer hwrite hnone hnew
        exact .inr ⟨v, if_neg hnone, hgone, t, row, hrow, hversioned, hversion, hlists⟩
    exact h result hanswer
  | _ => exact .inl rfl

section Replaces

variable {writes writes' : List Write} {w : Write} {db : Database} {v : String}

theorem Replaces.concat (h : Replaces writes db v) (hnew : ¬ w.Stamps v) :
    Replaces (writes ++ [w]) db v := by
  refine ⟨fun hstored => ?_, ?_⟩
  · rw [applyAll_append] at hstored
    exact (stored_apply hstored).elim h.gone hnew
  · cases h.was with
    | inl hpending =>
      obtain ⟨w', hw', hstamps⟩ := hpending
      exact .inl ⟨w', List.mem_append_left _ hw', hstamps⟩
    | inr hrow =>
      obtain ⟨t, row, hrow, hversioned, heq, w', hw', htouches⟩ := hrow
      exact .inr ⟨t, row, hrow, hversioned, heq, w', List.mem_append_left _ hw', htouches⟩

theorem replaces_concat (hheld : Held writes db)
    (hgone : ¬ StoredVersion (w.apply (Write.applyAll writes db)) v) {t : Table} {row : Row t}
    (hrow : row ∈ Write.applyAll writes db t) (hversioned : HasVersion t)
    (hversion : versionOf t row = v) (hlists : w.Lists t (identity t row)) :
    Replaces (writes ++ [w]) db v := by
  refine ⟨?_, ?_⟩
  · rw [applyAll_append]
    exact hgone
  · by_cases htouches : Touches writes t (identity t row)
    · obtain ⟨w', hw', hstamps⟩ :=
        pendingVersion_of_touches hheld.keeps hheld.keyed hrow htouches hversioned
      rw [hversion] at hstamps
      exact .inl ⟨w', List.mem_append_left _ hw', hstamps⟩
    · rw [← mem_rows_self, rows_applyAll_of_not hheld.keeps htouches, mem_rows_self] at hrow
      exact .inr ⟨t, row, hrow, hversioned, hversion, w,
        List.mem_append_right _ (List.mem_singleton_self w), .inr hlists⟩

theorem Replaces.commit (h : Replaces writes db v) (hunique : UniqueVersions db)
    (hheld : Held writes db) (hheld' : Held writes' db) (hapart : Apart writes writes')
    (hown : ∀ v, PendingVersion writes v → ¬ StoredVersion db v ∧ ¬ PendingVersion writes' v)
    (hnew : ∀ v, PendingVersion writes' v → ¬ StoredVersion db v) :
    Replaces writes (Write.applyAll writes' db) v := by
  refine ⟨fun hstored => ?_, ?_⟩
  · obtain ⟨t, row, hrow, hversioned, heq⟩ := hstored
    obtain ⟨hmem, -⟩ | ⟨hmem, hnot⟩ := mem_applyAll_applyAll hheld hheld' hapart hrow
    · exact h.gone ⟨t, row, hmem, hversioned, heq⟩
    · by_cases htouches : Touches writes' t (identity t row)
      · have hpending := pendingVersion_of_touches hheld'.keeps hheld'.keyed hmem htouches hversioned
        rw [heq] at hpending
        cases replaces_seen h with
        | inl hpending' => exact (hown v hpending').2 hpending
        | inr hstored => exact hnew v hpending hstored
      · rw [← mem_rows_self, rows_applyAll_of_not hheld'.keeps htouches, mem_rows_self] at hmem
        cases h.was with
        | inl hpending => exact (hown v hpending).1 ⟨t, row, hmem, hversioned, heq⟩
        | inr hrow =>
          obtain ⟨t', row', hrow', hversioned', heq', htouches'⟩ := hrow
          obtain ⟨rfl, hidentity⟩ :=
            hunique t t' row hmem row' hrow' hversioned hversioned' (heq.trans heq'.symm)
          exact hnot (hidentity ▸ htouches')
  · cases h.was with
    | inl hpending => exact .inl hpending
    | inr hrow =>
      obtain ⟨t, row, hrow, hversioned, heq, htouches⟩ := hrow
      refine .inr ⟨t, row, ?_, hversioned, heq, htouches⟩
      rw [← mem_rows_self, rows_applyAll_of_not hheld'.keeps (hapart.rows _ _ htouches),
        mem_rows_self]
      exact hrow

end Replaces

section SideBySide

variable {ι α : Type} {source : UUIDSource} {c : StorageConfig ι α}

/-- A version that nobody finds any more. -/
structure Gone (source : UUIDSource) (c : StorageConfig ι α) (v : String) : Prop where
  stored : ¬ StoredVersion c.shared.db v
  pending : ∀ i, ¬ PendingVersion (c.threads i).session.pending v
  future : ¬ Future source c v

/-- What an open transaction has replaced it sees no more, and what is replaced for good is gone and
was replaced once. -/
structure ReplacedInv (source : UUIDSource) (c : StorageConfig ι α) : Prop where
  isOpen : ∀ i, (replaced (c.threads i).history).isOpen = (c.threads i).session.isOpen
  pending : ∀ i, ∀ v ∈ (replaced (c.threads i).history).pending,
    Replaces (c.threads i).session.pending c.shared.db v
  done : ∀ i, ∀ v ∈ (replaced (c.threads i).history).done, Gone source c v
  once : ∀ i j, ∀ v ∈ (replaced (c.threads i).history).done,
    v ∈ (replaced (c.threads j).history).done → i = j

theorem replacedInv_start {programs : ι → UseCase α} {w : Shared} :
    ReplacedInv source (Config.start .idle programs w) where
  isOpen _ := rfl
  pending _ _ hv := absurd hv List.not_mem_nil
  done _ _ hv := absurd hv List.not_mem_nil
  once _ _ _ hv := absurd hv List.not_mem_nil

variable [DecidableEq ι] {faults : PersistenceError → Prop} {i : ι} {s : Effect}
  {next : s.Answer → UseCase α} {r : s.Answer} {session : Session} {shared : Shared}

/-- The history of a use case tells whether it is in a transaction. -/
theorem isOpen_after {s : Effect} {r : s.Answer} {session session' : Session} {w w' : Shared}
    {fault : Option PersistenceError} {g : Replaced} (h : g.isOpen = session.isOpen)
    (hperform : s.perform source fault session w = (r, session', w')) :
    (g.after s r).isOpen = session'.isOpen := by
  cases performs hperform with
  | reads hwrite hsession hdb => rw [Replaced.after_of_reads g hwrite, h, hsession]
  | fails hopen hpending hdb => rw [Replaced.after_error, hopen, h]
  | pends hopen hopen' hanswer hwrite hpending hdb =>
    rw [Replaced.isOpen_after_statement, h, hopen, hopen']
  | writes hidle hidle' hanswer hwrite hdb =>
    rw [Replaced.isOpen_after_statement, h, hidle, hidle']
  | begins hsession hdb =>
    rw [hsession]
    rfl
  | unbegun hsession hdb =>
    rw [hsession]
    exact h
  | commits hidle hdb =>
    rw [hidle]
    rfl
  | uncommitted hidle hdb =>
    rw [hidle]
    rfl
  | rollsBack hidle hdb =>
    rw [hidle]
    rfl
  | names hsession hdb =>
    rw [hsession]
    exact h
  | asks hsession hdb =>
    rw [hsession]
    exact h

theorem Gone.after (hs : StorageInv source c) (hv : VersionInv source c) {v : String}
    (h : Gone source c v) {fault : Option PersistenceError}
    (hperform : s.perform source fault (c.threads i).session c.shared = (r, session, shared))
    (hstored : StoredVersion shared.db v → StoredVersion c.shared.db v ∨
      PendingVersion (c.threads i).session.pending v ∨ JustGiven (c.threads i).history v)
    (hpending : PendingVersion session.pending v →
      PendingVersion (c.threads i).session.pending v ∨ JustGiven (c.threads i).history v) :
    Gone source (c.after i s next r session shared) v := by
  have hnot : ¬ (PendingVersion (c.threads i).session.pending v ∨
      JustGiven (c.threads i).history v) := by
    intro hor
    exact hor.elim (h.pending i) fun hjust => h.future (.inr ⟨i, hjust⟩)
  refine ⟨fun hafter => ?_, fun j hj => ?_, fun hfuture => ?_⟩
  · exact (hstored hafter).elim h.stored hnot
  · by_cases hji : j = i
    · subst hji
      rw [Config.after_threads_self] at hj
      exact hnot (hpending hj)
    · rw [Config.after_threads_of_ne hji] at hj
      exact h.pending j hj
  · exact h.future (future_after hs hv.own hperform hfuture).1

theorem ReplacedInv.pend (hs : StorageInv source c) (hv : VersionInv source c)
    (h : ReplacedInv source c) {fault : Option PersistenceError}
    (hperform : s.perform source fault (c.threads i).session c.shared = (r, session, shared))
    (hdb : shared.db = c.shared.db)
    (hnew : ∀ v, PendingVersion session.pending v →
      PendingVersion (c.threads i).session.pending v ∨ JustGiven (c.threads i).history v)
    (hpending : ∀ v ∈ ((replaced (c.threads i).history).after s r).pending,
      Replaces session.pending c.shared.db v)
    (hdone : ((replaced (c.threads i).history).after s r).done =
      (replaced (c.threads i).history).done) :
    ReplacedInv source (c.after i s next r session shared) := by
  have hsame (j : ι) : (replaced ((c.after i s next r session shared).threads j).history).done =
      (replaced (c.threads j).history).done := by
    by_cases hj : j = i
    · subst hj
      simpa using hdone
    · simp [hj]
  refine ⟨fun j => ?_, fun j v hmem => ?_, fun j v hmem => ?_, fun j k v hj hk => ?_⟩
  · by_cases hj : j = i
    · subst hj
      simpa using isOpen_after (h.isOpen j) hperform
    · simpa [hj] using h.isOpen j
  · rw [Config.after_shared, hdb]
    by_cases hj : j = i
    · subst hj
      rw [Config.after_threads_self, replaced_concat] at hmem
      simpa using hpending v hmem
    · rw [Config.after_threads_of_ne hj] at hmem
      simpa [hj] using h.pending j v hmem
  · rw [hsame] at hmem
    apply (h.done j v hmem).after hs hv hperform
    · intro hstored
      rw [hdb] at hstored
      exact .inl hstored
    · exact hnew v
  · rw [hsame] at hj hk
    exact h.once j k v hj hk

theorem ReplacedInv.commit (hs : StorageInv source c) (hv : VersionInv source c)
    (h : ReplacedInv source c) {fault : Option PersistenceError}
    (hperform : s.perform source fault (c.threads i).session c.shared = (r, session, shared))
    {writes : List Write} (hdb : shared.db = Write.applyAll writes c.shared.db)
    (hidle : session = .idle) (hheld : Held writes c.shared.db)
    (hapart : ∀ j, j ≠ i → Apart writes (c.threads j).session.pending)
    (hnew : ∀ v, PendingVersion writes v →
      PendingVersion (c.threads i).session.pending v ∨ JustGiven (c.threads i).history v)
    (hpending : ((replaced (c.threads i).history).after s r).pending = [])
    (hdone : ∀ v ∈ ((replaced (c.threads i).history).after s r).done,
      v ∈ (replaced (c.threads i).history).done ∨ Replaces writes c.shared.db v) :
    ReplacedInv source (c.after i s next r session shared) := by
  have hgiven {v : String} (hpend : PendingVersion writes v) :
      Given (c.threads i).history v ∧ ¬ StoredVersion c.shared.db v := by
    cases hnew v hpend with
    | inl hpend => exact ⟨hv.given i v hpend, hv.apart i v hpend⟩
    | inr hjust => exact ⟨hjust.given, (hv.future v (.inr ⟨i, hjust⟩)).1⟩
  have hapart' {j : ι} (hj : j ≠ i) (v : String)
      (hpend : PendingVersion (c.threads j).session.pending v) :
      ¬ StoredVersion c.shared.db v ∧ ¬ PendingVersion writes v :=
    ⟨hv.apart j v hpend, fun hw => hj (hv.own j i v (hv.given j v hpend) (hgiven hw).1)⟩
  have hnone (v : String) : ¬ PendingVersion session.pending v := by
    rw [hidle]
    exact not_pendingVersion_nil v
  -- What this step replaces was there, so nobody has replaced it before.
  have hfresh {v : String} (hreplaces : Replaces writes c.shared.db v) : ¬ Gone source c v := by
    intro hgone
    cases replaces_seen hreplaces with
    | inr hstored => exact hgone.stored hstored
    | inl hpend =>
      cases hnew v hpend with
      | inl hpend => exact hgone.pending i hpend
      | inr hjust => exact hgone.future (.inr ⟨i, hjust⟩)
  have hmine {v : String} (hreplaces : Replaces writes c.shared.db v) :
      Gone source (c.after i s next r session shared) v := by
    refine ⟨?_, fun j hj => ?_, fun hfuture => ?_⟩
    · rw [Config.after_shared, hdb]
      exact hreplaces.gone
    · by_cases hji : j = i
      · subst hji
        rw [Config.after_threads_self] at hj
        exact hnone v hj
      · rw [Config.after_threads_of_ne hji] at hj
        obtain ⟨hstored, hpend⟩ := hapart' hji v hj
        exact (replaces_seen hreplaces).elim hpend hstored
    · obtain ⟨hfuture, hnot⟩ := future_after hs hv.own hperform hfuture
      obtain ⟨hstored, hpend⟩ := hv.future v hfuture
      cases replaces_seen hreplaces with
      | inr hseen => exact hstored hseen
      | inl hseen => exact (hnew v hseen).elim (hpend i) hnot
  have hafter (j : ι) (v : String)
      (hj : v ∈ (replaced ((c.after i s next r session shared).threads j).history).done) :
      v ∈ (replaced (c.threads j).history).done ∨ j = i ∧ Replaces writes c.shared.db v := by
    by_cases hji : j = i
    · subst hji
      rw [Config.after_threads_self, replaced_concat] at hj
      exact (hdone v hj).imp id fun hreplaces => ⟨rfl, hreplaces⟩
    · rw [Config.after_threads_of_ne hji] at hj
      exact .inl hj
  refine ⟨fun j => ?_, fun j v hmem => ?_, fun j v hmem => ?_, fun j k v hj hk => ?_⟩
  · by_cases hj : j = i
    · subst hj
      simpa using isOpen_after (h.isOpen j) hperform
    · simpa [hj] using h.isOpen j
  · by_cases hj : j = i
    · subst hj
      rw [Config.after_threads_self, replaced_concat, hpending] at hmem
      cases hmem
    · rw [Config.after_threads_of_ne hj] at hmem ⊢
      rw [Config.after_shared, hdb]
      exact (h.pending j v hmem).commit hv.unique (hs.held j) hheld (hapart j hj).symm
        (hapart' hj) fun v hpend => (hgiven hpend).2
  · cases hafter j v hmem with
    | inr hnew => exact hmine hnew.2
    | inl hold =>
      apply (h.done j v hold).after hs hv hperform
      · intro hstored
        rw [hdb] at hstored
        exact (stored_applyAll hstored).imp id (hnew v)
      · intro hpend
        exact absurd hpend (hnone v)
  · cases hafter j v hj with
    | inl hj =>
      cases hafter k v hk with
      | inl hk => exact h.once j k v hj hk
      | inr hk => exact absurd (h.done j v hj) (hfresh hk.2)
    | inr hj =>
      cases hafter k v hk with
      | inl hk => exact absurd (h.done k v hk) (hfresh hj.2)
      | inr hk => exact hj.1.trans hk.1.symm

theorem ReplacedInv.pendWrite {s : Statement} {result : s.Result} {w : Write}
    {next : Except PersistenceError s.Result → UseCase α} (hs : StorageInv source c)
    (hv : VersionInv source c) (h : ReplacedInv source c)
    (hallowed : Disciplined (c.threads i).history (.statement s)) {fault : Option PersistenceError}
    (hperform : Effect.perform source (.statement s) fault (c.threads i).session c.shared =
      (.ok result, session, shared))
    (hisOpen : (c.threads i).session.isOpen = true)
    (hanswer : s.answer (Write.applyAll (c.threads i).session.pending c.shared.db) = .ok result)
    (hwrite : s.write (Write.applyAll (c.threads i).session.pending c.shared.db) = some w)
    (hpending : session.pending = (c.threads i).session.pending ++ [w])
    (hdb : shared.db = c.shared.db) :
    ReplacedInv source (c.after i (.statement s) next (.ok result) session shared) := by
  have hjust (v : String) (hstamps : w.Stamps v) : JustGiven (c.threads i).history v :=
    stamps_justGiven hallowed hwrite hstamps
  have hopen : (replaced (c.threads i).history).isOpen = true := (h.isOpen i).trans hisOpen
  have hunseen (v : String) (hstamps : w.Stamps v) :
      ¬ StoredVersion (Write.applyAll (c.threads i).session.pending c.shared.db) v := by
    obtain ⟨hstored, hpend⟩ := hv.future v (.inr ⟨i, hjust v hstamps⟩)
    exact fun hafter => (stored_applyAll hafter).elim hstored (hpend i)
  have hold (v : String) (hmem : v ∈ (replaced (c.threads i).history).pending) :
      Replaces session.pending c.shared.db v := by
    rw [hpending]
    apply (h.pending i v hmem).concat
    intro hstamps
    obtain ⟨hstored, hpend⟩ := hv.future v (.inr ⟨i, hjust v hstamps⟩)
    exact (replaces_seen (h.pending i v hmem)).elim (hpend i) hstored
  have hnew (v : String) (hpend : PendingVersion session.pending v) :
      PendingVersion (c.threads i).session.pending v ∨ JustGiven (c.threads i).history v := by
    rw [hpending] at hpend
    exact (pendingVersion_append hpend).imp id fun hpend => hjust v (pendingVersion_singleton hpend)
  cases (replaced (c.threads i).history).after_disciplined (hv.views i) hallowed hanswer hwrite
    hunseen with
  | inl heq =>
    apply h.pend hs hv hperform hdb hnew
    · rw [heq]
      exact hold
    · rw [heq]
  | inr hreplace =>
    obtain ⟨v, heq, hgone, t, row, hrow, hversioned, hversion, hlists⟩ := hreplace
    rw [Replaced.replace, if_pos hopen] at heq
    apply h.pend hs hv hperform hdb hnew
    · intro v' hmem
      rw [heq] at hmem
      cases List.mem_cons.mp hmem with
      | inl hv' =>
        rw [hv', hpending]
        exact replaces_concat (hs.held i) hgone hrow hversioned hversion hlists
      | inr hmem => exact hold v' hmem
    · rw [heq]

theorem ReplacedInv.write {s : Statement} {result : s.Result} {w : Write}
    {next : Except PersistenceError s.Result → UseCase α} (hs : StorageInv source c)
    (hv : VersionInv source c) (h : ReplacedInv source c)
    (hallowed : Disciplined (c.threads i).history (.statement s))
    (hfree : ¬ Blocked c i (.statement s)) {fault : Option PersistenceError}
    (hperform : Effect.perform source (.statement s) fault (c.threads i).session c.shared =
      (.ok result, session, shared))
    (hidle : (c.threads i).session = .idle) (hidle' : session = .idle)
    (hanswer : s.answer c.shared.db = .ok result) (hwrite : s.write c.shared.db = some w)
    (hdb : shared.db = w.apply c.shared.db) :
    ReplacedInv source (c.after i (.statement s) next (.ok result) session shared) := by
  have hjust (v : String) (hstamps : w.Stamps v) : JustGiven (c.threads i).history v :=
    stamps_justGiven hallowed hwrite hstamps
  have hopen : (replaced (c.threads i).history).isOpen = false := by
    rw [h.isOpen i, hidle]
    rfl
  have hpending : (replaced (c.threads i).history).pending = [] := by
    rw [List.eq_nil_iff_forall_not_mem]
    intro v hmem
    have hreplaces := h.pending i v hmem
    rw [hidle] at hreplaces
    exact not_replaces_nil c.shared.db v hreplaces
  obtain ⟨-, haccepted⟩ := hs.wellFormed.write (hs.given i) hallowed hanswer hwrite
  have hdb' : shared.db = Write.applyAll [w] c.shared.db := hdb
  obtain ⟨hheld, hapart⟩ := hs.apart_write hfree hidle hwrite haccepted
  have hnew (v : String) (hpend : PendingVersion [w] v) :
      PendingVersion (c.threads i).session.pending v ∨ JustGiven (c.threads i).history v :=
    .inr (hjust v (pendingVersion_singleton hpend))
  cases (replaced (c.threads i).history).after_disciplined hv.unique hallowed hanswer hwrite
    (fun v hstamps => (hv.future v (.inr ⟨i, hjust v hstamps⟩)).1) with
  | inl heq =>
    apply h.commit hs hv hperform hdb' hidle' hheld hapart hnew
    · rw [heq]
      exact hpending
    · intro v hmem
      rw [heq] at hmem
      exact .inl hmem
  | inr hreplace =>
    obtain ⟨v, heq, hgone, t, row, hrow, hversioned, hversion, hlists⟩ := hreplace
    rw [Replaced.replace, if_neg (by rw [hopen]; decide)] at heq
    apply h.commit hs hv hperform hdb' hidle' hheld hapart hnew
    · rw [heq]
      exact hpending
    · intro v' hmem
      rw [heq] at hmem
      cases List.mem_cons.mp hmem with
      | inl hv' =>
        rw [hv']
        exact .inr (replaces_concat (held_nil hs.wellFormed.keyed) hgone hrow hversioned hversion
          hlists)
      | inr hmem => exact .inl hmem

theorem ReplacedInv.step (hs : StorageInv source c) (hv : VersionInv source c)
    (h : ReplacedInv source c) (hallowed : Disciplined (c.threads i).history s)
    (hact : storage source faults c i s r session shared) :
    ReplacedInv source (c.after i s next r session shared) := by
  obtain ⟨fault, -, hfree, hperform⟩ := hact
  have hkept (hsession : session = (c.threads i).session) (hdb : shared.db = c.shared.db)
      (hafter : (replaced (c.threads i).history).after s r = replaced (c.threads i).history) :
      ReplacedInv source (c.after i s next r session shared) := by
    apply h.pend hs hv hperform hdb
    · intro v hpending
      rw [hsession] at hpending
      exact .inl hpending
    · rw [hafter, hsession]
      exact h.pending i
    · rw [hafter]
  have hdropped (hpending : session.pending = []) (hdb : shared.db = c.shared.db)
      (hafter : ((replaced (c.threads i).history).after s r).pending = [])
      (hdone : ((replaced (c.threads i).history).after s r).done =
        (replaced (c.threads i).history).done) :
      ReplacedInv source (c.after i s next r session shared) := by
    apply h.pend hs hv hperform hdb
    · intro v hmem
      rw [hpending] at hmem
      exact absurd hmem (not_pendingVersion_nil v)
    · intro v hmem
      rw [hafter] at hmem
      cases hmem
    · exact hdone
  cases performs hperform with
  | reads hwrite hsession hdb => exact hkept hsession hdb (Replaced.after_of_reads _ hwrite _)
  | fails _ hpending hdb =>
    apply hdropped hpending hdb
    · rw [Replaced.after_error]
    · rw [Replaced.after_error]
  | pends hisOpen _ hanswer hwrite hpending hdb =>
    rw [Session.view_eq] at hanswer hwrite
    exact h.pendWrite hs hv hallowed hperform hisOpen hanswer hwrite hpending hdb
  | writes hidle hidle' hanswer hwrite hdb =>
    exact h.write hs hv hallowed (free_of_answered hfree hperform) hperform hidle hidle' hanswer hwrite hdb
  | begins hsession hdb => exact hdropped (by rw [hsession]; rfl) hdb rfl rfl
  | unbegun hsession hdb => exact hkept hsession hdb rfl
  | commits hidle hdb =>
    apply h.commit hs hv hperform hdb hidle (hs.held i) (fun j hj => hs.apart i j hj.symm)
      (fun _ hpend => .inl hpend) rfl
    intro v hmem
    cases List.mem_append.mp hmem with
    | inl hmem => exact .inr (h.pending i v hmem)
    | inr hmem => exact .inl hmem
  | uncommitted hidle hdb => exact hdropped (by rw [hidle]; rfl) hdb rfl rfl
  | rollsBack hidle hdb => exact hdropped (by rw [hidle]; rfl) hdb rfl rfl
  | names hsession hdb => exact hkept hsession hdb rfl
  | asks hsession hdb => exact hkept hsession hdb rfl

end SideBySide

/-- The calls that a use case makes within a transaction or without one. -/
def Plain : Effect → Prop
  | .begin_ => False
  | .commit => False
  | .rollback => False
  | _ => True

theorem plain_reads : AllowsReads Plain :=
  ⟨fun _ _ => trivial, fun _ _ => trivial, fun _ _ _ => trivial⟩

theorem Replaced.isOpen_after_plain (g : Replaced) {s : Effect} (hs : Plain s) (r : s.Answer) :
    (g.after s r).isOpen = g.isOpen := by
  cases s with
  | statement s => exact g.isOpen_after_statement s r
  | newUUID => rfl
  | hsm request => rfl
  | begin_ => exact hs.elim
  | commit => exact hs.elim
  | rollback => exact hs.elim

theorem replaced_pending_of_closed (history : History) (h : (replaced history).isOpen = false) :
    (replaced history).pending = [] := by
  induction history using List.reverseRecOn with
  | nil => rfl
  | append_singleton history event ih =>
    obtain ⟨s, r⟩ := event
    rw [replaced_concat] at h ⊢
    cases s with
    | statement s =>
      have hclosed : (replaced history).isOpen = false :=
        ((replaced history).isOpen_after_statement s r).symm.trans h
      cases r with
      | error err => simp
      | ok result =>
        cases (replaced history).after_ok s result with
        | inl heq =>
          rw [heq]
          exact ih hclosed
        | inr hreplace =>
          obtain ⟨v, heq⟩ := hreplace
          rw [heq, Replaced.replace, if_neg (by rw [hclosed]; decide)]
          exact ih hclosed
    | begin_ =>
      cases r with
      | error err => exact ih h
      | ok _ => cases h
    | commit =>
      cases r with
      | error err => rfl
      | ok _ => rfl
    | rollback => rfl
    | newUUID => exact ih h
    | hsm request => exact ih h

/-- A use case that succeeds only where it has replaced the version, for good or in the transaction
it is part of. -/
def RestsOn {β : Type} (v : String) (p : UseCase β) : Prop :=
  ∀ history, p.Meets (fun _ _ => True) (fun result history' => ∀ b, result = .ok b →
    v ∈ (replaced history').pending ∨ v ∈ (replaced history').done) history

/-- One that succeeds only where it has replaced the version for good. -/
def Settles {β : Type} (v : String) (p : UseCase β) : Prop :=
  p.Meets (fun _ _ => True) (fun result history' => ∀ b, result = .ok b →
    v ∈ (replaced history').done) []

section Edits

variable {β γ : Type} {v : String} {keccak : Hash256} {supportedRoles : List Role}

theorem restsOn_bind {p : UseCase γ} {f : γ → UseCase β} (hf : ∀ a, RestsOn v (f a)) :
    RestsOn v (p >>= f) := by
  intro history
  apply (p.meets_any history).bind
  · intro err history' _ b heq
    cases heq
  · intro a history' _
    exact hf a history'

theorem RestsOn.orElse {p : UseCase β} {g : SignareError → SignareError} (hp : RestsOn v p) :
    RestsOn v (p.orElse g) := by
  intro history
  apply (hp history).orElse
  · intro err history' _ b heq
    cases heq
  · intro a history' h
    exact h

theorem restsOn_repositoryEdit {t : Table} {resource : String}
    {mapFromDB : Row t → Except SignareError β} {key : Key t} {assign : String → Row t → Row t} :
    RestsOn v (repositoryEdit t resource mapFromDB key v assign) := by
  have herror (err : SignareError) (history' : History) : ∀ b : β, Except.error err = .ok b →
      v ∈ (replaced history').pending ∨ v ∈ (replaced history').done := by
    intro b heq
    cases heq
  intro history
  apply meets_execute_bind trivial (fun err => herror _ _)
  intro found
  split
  · exact herror _ _
  · refine ⟨trivial, fun (version : String) => ?_⟩
    apply meets_execute_bind trivial (fun err => herror _ _)
    intro (rowsAffected : Nat)
    split
    · exact herror _ _
    · next hsome =>
      have hreplaced (history' : History) :
          v ∈ (replaced (history' ++
            [⟨.statement (.update t key v (assign version)), .ok rowsAffected⟩])).pending ∨
          v ∈ (replaced (history' ++
            [⟨.statement (.update t key v (assign version)), .ok rowsAffected⟩])).done := by
        have hafter := replaced_concat history' (.statement (.update t key v (assign version)))
          (.ok rowsAffected)
        rw [hafter, Replaced.after_update, if_neg hsome, Replaced.replace]
        split
        · exact .inl List.mem_cons_self
        · exact .inr List.mem_cons_self
      split
      · exact herror _ _
      · rw [Program.meets_orElse]
        apply meets_execute_bind trivial
        · intro err b heq
          cases heq
        · intro rows
          have hread (history' : History) : replaced (history' ++
              [⟨.statement (.getById t key), .ok rows⟩]) = replaced history' :=
            (replaced_concat history' _ _).trans
              (@Replaced.after_of_reads _ _ Database.empty rfl rows)
          split
          · intro b heq
            cases heq
          · intro b _
            rw [hread]
            exact hreplaced _
          · intro b heq
            cases heq

theorem settles_of_plain {p : UseCase β} (hp : RestsOn v p) (hplain : p.Only Plain) :
    Settles v p := by
  have hclosed : p.Meets (fun _ _ => True) (fun result history' =>
      (∀ b, result = .ok b → v ∈ (replaced history').pending ∨ v ∈ (replaced history').done) ∧
        (replaced history').isOpen = false) [] := by
    refine hplain.meets_and (hp []) rfl ?_
    intro history s r hopen hs
    rw [replaced_concat, Replaced.isOpen_after_plain _ hs]
    exact hopen
  apply hclosed.mono
  intro result history' h b heq
  have hnone := replaced_pending_of_closed history' h.2
  cases h.1 b heq with
  | inl hpending =>
    rw [hnone] at hpending
    cases hpending
  | inr hdone => exact hdone

theorem settles_executeUseCaseInTransaction {p : UseCase β} (hp : RestsOn v p) :
    Settles v (executeUseCaseInTransaction .background p) := by
  have herror (err : SignareError) (history' : History) :
      ∀ b : β, Except.error err = .ok b → v ∈ (replaced history').done := by
    intro b heq
    cases heq
  refine ⟨trivial, fun begun => ?_⟩
  cases begun with
  | error err => exact herror _ _
  | ok _ =>
    have hbody (history : History) : p.attempt.Meets (fun _ _ => True) (fun result history' =>
        ∀ b, result = .ok (.ok b) →
          v ∈ (replaced history').pending ∨ v ∈ (replaced history').done) history := by
      rw [Program.meets_attempt]
      apply (hp history).mono
      intro result history' hrests b heq
      exact hrests b (Except.ok.inj heq)
    apply (hbody _).bind
    · intro err history' _ b heq
      cases heq
    · intro result history' hrests
      cases result with
      | error failure => exact ⟨trivial, fun _ => herror _ _⟩
      | ok response =>
        refine ⟨trivial, fun committed => ?_⟩
        cases committed with
        | error err => exact herror _ _
        | ok _ =>
          intro b _
          have hafter := replaced_concat history' .commit (.ok ())
          rw [hafter]
          exact List.mem_append.mpr (hrests response rfl)

theorem Settles.bind {p : UseCase β} {f : β → UseCase γ} (hp : Settles v p) :
    Settles v (p >>= f) := by
  apply Program.Meets.bind hp
  · intro err history' _ b heq
    cases heq
  · intro a history' hdone
    apply ((f a).meets_any history').extends.mono
    intro result history'' h b heq
    obtain ⟨-, more, rfl⟩ := h
    exact replaced_done_append (hdone a rfl) more

theorem settles_validateStruct_bind {valid : Bool} {message : String} {f : Unit → UseCase β}
    (hf : Settles v (f ())) : Settles v (validateStruct valid message >>= f) := by
  apply meets_validateStruct_bind
  · intro err b heq
    cases heq
  · intro _
    exact hf

theorem settles_require_bind {ok : Bool} {err : SignareError} {f : Unit → UseCase β}
    (hf : Settles v (f ())) : Settles v (require ok err >>= f) := by
  cases ok with
  | false =>
    intro b heq
    cases heq
  | true => exact hf

theorem settles_lift_bind {x : Except SignareError γ} {f : γ → UseCase β}
    (hf : ∀ a, Settles v (f a)) : Settles v (Program.lift x >>= f) := by
  cases x with
  | error err =>
    intro b heq
    cases heq
  | ok a => exact hf a

theorem settles_repositoryEdit {t : Table} {resource : String}
    {mapFromDB : Row t → Except SignareError β} {key : Key t} {assign : String → Row t → Row t}
    {x : Except SignareError Unit} {g : SignareError → SignareError} :
    Settles v (Program.orElse g (do
      Program.lift x
      repositoryEdit t resource mapFromDB key v assign)) := by
  apply settles_of_plain
  · apply RestsOn.orElse
    apply restsOn_bind
    intro _
    exact restsOn_repositoryEdit
  · apply Program.only_orElse
    apply only_lift_bind
    intro _ _
    exact only_repositoryEdit plain_reads trivial fun _ => trivial

theorem settles_editApplication (input : EditApplicationInput) :
    Settles input.resourceVersion (editApplication input) :=
  settles_validateStruct_bind settles_repositoryEdit

theorem settles_editAdmin (input : EditAdminInput) :
    Settles input.resourceVersion (editAdmin input) :=
  settles_validateStruct_bind settles_repositoryEdit

theorem settles_editUser (input : EditUserInput) :
    Settles input.resourceVersion (editUser supportedRoles input) := by
  apply settles_validateStruct_bind
  apply settles_require_bind
  apply settles_lift_bind
  intro _
  exact settles_repositoryEdit.bind

theorem settles_editHSMModule (input : EditHSMModuleInput) :
    Settles input.resourceVersion (editHSMModule .background input) := by
  apply settles_executeUseCaseInTransaction
  apply restsOn_bind
  intro _
  apply RestsOn.orElse
  apply restsOn_bind
  intro _
  exact restsOn_repositoryEdit

theorem settles_editPin (input : EditPinInput) :
    Settles input.resourceVersion (editPin .background input) := by
  apply settles_executeUseCaseInTransaction
  apply restsOn_bind
  intro _
  apply restsOn_bind
  intro hsmSlot
  apply restsOn_bind
  intro _
  apply restsOn_bind
  intro hsmModule
  apply restsOn_bind
  intro _
  apply RestsOn.orElse
  apply restsOn_bind
  intro _
  exact restsOn_repositoryEdit

theorem settles_editConfig (input : EditConfigInput) :
    Settles input.resourceVersion (editConfig keccak .background input) := by
  apply settles_executeUseCaseInTransaction
  apply restsOn_bind
  intro _
  apply restsOn_bind
  intro hsmSlot
  apply restsOn_bind
  intro _
  apply restsOn_bind
  intro hsmModule
  apply restsOn_bind
  intro _
  apply RestsOn.orElse
  apply restsOn_bind
  intro _
  exact restsOn_repositoryEdit

end Edits

/-- The version that an edit is based on. -/
def StorageCall.presents : StorageCall → Option String
  | editApplication input => some input.resourceVersion
  | editHSMModule input => some input.resourceVersion
  | editPin input => some input.resourceVersion
  | editConfig input => some input.resourceVersion
  | editAdmin input => some input.resourceVersion
  | editUser input => some input.resourceVersion
  | _ => none

theorem StorageCall.settles (setup : ServerSetup) {call : StorageCall}
    {v : String} (h : call.presents = some v) : Settles v (call.program setup) := by
  cases call with
  | editApplication input =>
    cases h
    exact (settles_editApplication input).bind
  | editHSMModule input =>
    cases h
    exact (settles_editHSMModule input).bind
  | editPin input =>
    cases h
    exact (settles_editPin input).bind
  | editConfig input =>
    cases h
    exact (settles_editConfig input).bind
  | editAdmin input =>
    cases h
    exact (settles_editAdmin input).bind
  | editUser input =>
    cases h
    exact (settles_editUser input).bind
  | _ => cases h

theorem storageCalls_settle {ι : Type} {setup : ServerSetup}
    (calls : ι → StorageCall) (w : Shared) :
    (storageCalls setup calls w).Meets (fun _ => Disciplined)
      fun i result history => ∀ v, (calls i).presents = some v → ∀ b, result = .ok b →
        v ∈ (replaced history).done := by
  intro i
  apply ((calls i).keepsDiscipline setup).expecting
  cases hpresents : (calls i).presents with
  | none =>
    apply (Program.meets_any _ _).mono
    intro result history _ v heq
    exact absurd (hpresents.symm.trans heq) (Option.some_ne_none v).symm
  | some v =>
    apply ((calls i).settles setup hpresents).mono
    intro result history hsettled v' heq b hok
    have hv : v = v' := Option.some.inj (hpresents.symm.trans heq)
    rw [← hv]
    exact hsettled b hok

theorem replacedInv_of_run {ι : Type} [DecidableEq ι] {source : UUIDSource}
    {setup : ServerSetup} {faults : PersistenceError → Prop} {calls : ι → StorageCall}
    {w : Shared} {c : StorageConfig ι Unit} (h : WellFormed source w.uuids w.db)
    (hunique : UniqueVersions w.db)
    (hrun : Run (storage source faults) (storageCalls setup calls w) c) :
    (StorageInv source c ∧ VersionInv source c ∧ ReplacedInv source c) ∧
      c.Meets (fun _ => Disciplined) fun i result history => ∀ v, (calls i).presents = some v →
        ∀ b, result = .ok b → v ∈ (replaced history).done := by
  apply hrun.invariant (storageCalls_settle calls w)
  · exact ⟨storageInv_start h, versionInv_start h hunique, replacedInv_start⟩
  · intro c i s next r session shared _ hinv _ hallowed hact
    obtain ⟨hs, hv, hr⟩ := hinv
    exact ⟨hs.step hallowed hact, hv.step hs hallowed hact, hr.step hs hv hallowed hact⟩

/-- Once an edit has succeeded, nobody sees the version it was based on, and no other edit that is
based on it succeeds. -/
theorem edit_once {ι : Type} [DecidableEq ι] {source : UUIDSource}
    {setup : ServerSetup} {faults : PersistenceError → Prop} {calls : ι → StorageCall}
    {w : Shared} {c : StorageConfig ι Unit} (h : WellFormed source w.uuids w.db)
    (hunique : UniqueVersions w.db)
    (hrun : Run (storage source faults) (storageCalls setup calls w) c) {i : ι}
    {v : String} (hi : (calls i).presents = some v) (hsucceeded : succeeded c i = true) :
    (∀ t row, Seen c t row → HasVersion t → versionOf t row ≠ v) ∧
      ∀ j, (calls j).presents = some v → succeeded c j = true → j = i := by
  obtain ⟨⟨hs, -, hr⟩, hmeets⟩ := replacedInv_of_run h hunique hrun
  have hreplaced {j : ι} (hj : (calls j).presents = some v) (hsucceeded : succeeded c j = true) :
      v ∈ (replaced (c.threads j).history).done := by
    have hexpected := hmeets j
    rw [succeeded] at hsucceeded
    split at hsucceeded
    · next b hdone =>
      rw [hdone] at hexpected
      exact hexpected v hj b rfl
    · cases hsucceeded
  have hgone := hr.done i v (hreplaced hi hsucceeded)
  refine ⟨fun t row hseen hversioned heq => ?_, fun j hj hsucceeded' => ?_⟩
  · cases hseen.stored_or_pending hs hversioned with
    | inl hmem =>
      apply hgone.stored
      rw [← heq]
      exact stored_of_mem hmem hversioned
    | inr hpending =>
      obtain ⟨j, -, hpending⟩ := hpending
      rw [heq] at hpending
      exact hgone.pending j hpending
  · exact hr.once j i v (hreplaced hj hsucceeded') (hreplaced hi hsucceeded)

/-- An application is created, and two calls edit it under the version it was created with. -/
def editedTwice : StorageConfig (Fin 3) Unit :=
  storageCalls unitSetup
    (fun i => if i = 0 then .createApplication ⟨some "acme", 1, none⟩
      else .editApplication ⟨"acme", "uu", some 2, none⟩)
    ⟨Database.empty, 0, ⟨fun _ => none, fun _ => []⟩⟩

def createdThenEdited : List (Fin 3) := [0, 0, 0, 0, 1, 2, 1, 2, 1, 2, 1, 2]

private theorem quiet_createdThenEdited : ∀ n ≤ createdThenEdited.length,
    Quiet (follow unaryUUIDs editedTwice (createdThenEdited.take n)) := by
  decide +kernel

/-- One edit succeeds, and the other does not. -/
theorem editedTwice_once :
    succeeded (follow unaryUUIDs editedTwice createdThenEdited) 1 = true ∧
      succeeded (follow unaryUUIDs editedTwice createdThenEdited) 2 = false := by
  have hfirst : succeeded (follow unaryUUIDs editedTwice createdThenEdited) 1 = true := by
    decide +kernel
  have hunique : UniqueVersions Database.empty := fun _ _ _ hrow => absurd hrow List.not_mem_nil
  have hrun : Run (storage unaryUUIDs noFaults) editedTwice
      (follow unaryUUIDs editedTwice createdThenEdited) :=
    run_follow createdThenEdited quiet_createdThenEdited
  have honce := (edit_once (wellFormed_empty unaryUUIDs 0) hunique hrun (i := 1) (v := "uu") rfl
    hfirst).2 2 rfl
  refine ⟨hfirst, Bool.eq_false_iff.mpr fun hsecond => ?_⟩
  exact absurd (honce hsecond) (by decide)

end Signare
