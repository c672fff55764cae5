import Signare.Concurrent.WellFormed

/-!
# Versions of what is stored

A row is written under a version that was made just before, by whoever it was made for. So no version
is written twice, whatever use cases run side by side.
-/

namespace Signare

open Interleaving

/-- A version that some row has. -/
def StoredVersion (db : Database) (v : String) : Prop :=
  ∃ t, ∃ row ∈ db t, HasVersion t ∧ versionOf t row = v

/-- A write of a row under a version. -/
def Write.Stamps (v : String) : Write → Prop
  | .insert t row => HasVersion t ∧ versionOf t row = v
  | .remove .. => False
  | .change t _ assign => HasVersion t ∧ ∃ row, versionOf t (assign row) = v

/-- A version that some pending write gives to a row. -/
def PendingVersion (writes : List Write) (v : String) : Prop := ∃ w ∈ writes, w.Stamps v

/-- No two rows have one version. -/
def UniqueVersions (db : Database) : Prop :=
  ∀ t t', ∀ row ∈ db t, ∀ row' ∈ db t', HasVersion t → HasVersion t' →
    versionOf t row = versionOf t' row' → t = t' ∧ identity t row = identity t' row'

section Versions

variable {writes writes' : List Write} {w : Write} {db : Database} {t : Table} {v : String}

theorem stored_of_mem {row : Row t} (hrow : row ∈ db t) (hversioned : HasVersion t) :
    StoredVersion db (versionOf t row) := ⟨t, row, hrow, hversioned, rfl⟩

/-- What a row is written under, where it was not there before. -/
theorem mem_apply_or_stamps {row : Row t} (hrow : row ∈ w.apply db t) (hversioned : HasVersion t) :
    row ∈ db t ∨ w.Stamps (versionOf t row) := by
  cases w with
  | insert t' row' =>
    obtain hmem | ⟨rfl, rfl⟩ := mem_apply_insert hrow
    · exact .inl hmem
    · exact .inr ⟨hversioned, rfl⟩
  | remove t' identities => exact .inl (mem_apply_remove hrow)
  | change t' identities assign =>
    obtain hmem | ⟨row', -, -, rfl, rfl⟩ := mem_apply_change hrow
    · exact .inl hmem
    · exact .inr ⟨hversioned, row', rfl⟩

theorem stored_apply (h : StoredVersion (w.apply db) v) : StoredVersion db v ∨ w.Stamps v := by
  obtain ⟨t, row, hrow, hversioned, rfl⟩ := h
  exact (mem_apply_or_stamps hrow hversioned).imp (fun hmem => stored_of_mem hmem hversioned) id

theorem stored_applyAll (h : StoredVersion (Write.applyAll writes db) v) :
    StoredVersion db v ∨ PendingVersion writes v := by
  induction writes generalizing db with
  | nil => exact .inl h
  | cons w writes ih =>
    cases ih h with
    | inl hstored =>
      cases stored_apply hstored with
      | inl hstored => exact .inl hstored
      | inr hstamps => exact .inr ⟨w, List.mem_cons_self, hstamps⟩
    | inr hpending =>
      obtain ⟨w', hw', hstamps⟩ := hpending
      exact .inr ⟨w', List.mem_cons_of_mem _ hw', hstamps⟩

theorem pendingVersion_append {more : List Write} (h : PendingVersion (writes ++ more) v) :
    PendingVersion writes v ∨ PendingVersion more v := by
  obtain ⟨w, hw, hstamps⟩ := h
  exact (List.mem_append.mp hw).imp (fun hw => ⟨w, hw, hstamps⟩) fun hw => ⟨w, hw, hstamps⟩

theorem pendingVersion_singleton (h : PendingVersion [w] v) : w.Stamps v := by
  obtain ⟨w', hw', hstamps⟩ := h
  rw [List.mem_singleton] at hw'
  exact hw' ▸ hstamps

theorem not_pendingVersion_nil (v : String) : ¬ PendingVersion [] v := fun ⟨_, hw, _⟩ =>
  absurd hw List.not_mem_nil

/-- The rows that a change lists are all under the version of the change. -/
theorem stamps_of_lists {row : Row t} (hrow : row ∈ w.apply db t)
    (hlists : w.Lists t (identity t row)) (hversioned : HasVersion t) :
    w.Stamps (versionOf t row) := by
  cases w with
  | insert t' row' => exact hlists.elim
  | remove t' identities =>
    obtain ⟨rfl, hlisted⟩ := hlists
    rw [Write.apply, Function.update_self, List.mem_filter, decide_eq_true_iff] at hrow
    exact absurd hlisted hrow.2
  | change t' identities assign =>
    obtain ⟨rfl, hlisted⟩ := hlists
    rw [Write.apply, Function.update_self, List.mem_map] at hrow
    obtain ⟨row', -, heq⟩ := hrow
    by_cases hlisted' : identity t' row' ∈ identities
    · rw [if_pos hlisted'] at heq
      exact ⟨hversioned, row', by rw [heq]⟩
    · rw [if_neg hlisted'] at heq
      exact absurd (heq ▸ hlisted) hlisted'

/-- A row that a transaction has written has a version that the transaction gave it. -/
theorem pendingVersion_of_touches (hkeeps : ∀ w ∈ writes, w.KeepsKeys)
    (hkeyed : (Write.applyAll writes db).Keyed) {row : Row t}
    (hrow : row ∈ Write.applyAll writes db t) (htouches : Touches writes t (identity t row))
    (hversioned : HasVersion t) : PendingVersion writes (versionOf t row) := by
  induction writes generalizing db with
  | nil => exact absurd htouches fun ⟨_, hw, _⟩ => absurd hw List.not_mem_nil
  | cons w writes ih =>
    rw [List.forall_mem_cons] at hkeeps
    rw [applyAll_cons] at hkeyed hrow
    by_cases hlater : Touches writes t (identity t row)
    · obtain ⟨w', hw', hstamps⟩ := ih hkeeps.2 hkeyed hrow hlater
      exact ⟨w', List.mem_cons_of_mem _ hw', hstamps⟩
    · have hfirst : w.Inserts t (identity t row) ∨ w.Lists t (identity t row) := by
        obtain ⟨w', hw', htouches⟩ := htouches
        cases List.mem_cons.mp hw' with
        | inl heq => exact heq ▸ htouches
        | inr hw' => exact absurd ⟨w', hw', htouches⟩ hlater
      -- The rows of this identity are not written again.
      have hrows : (Write.applyAll writes (w.apply db)).rows t (identity t row) =
          (w.apply db).rows t (identity t row) := rows_applyAll_of_not hkeeps.2 hlater
      have hmem : row ∈ w.apply db t := by
        rw [← mem_rows_self, ← hrows, mem_rows_self]
        exact hrow
      refine ⟨w, List.mem_cons_self, ?_⟩
      cases hfirst with
      | inr hlists => exact stamps_of_lists hmem hlists hversioned
      | inl hinserts =>
        cases w with
        | insert t' row' =>
          obtain ⟨rfl, hidentity⟩ := hinserts
          have hrow' : row' ∈ (Write.insert t' row').apply db t' := by
            simp [Write.apply]
          have hrow'' : row' ∈ Write.applyAll writes ((Write.insert t' row').apply db) t' := by
            rw [← mem_rows_self, hidentity, hrows, ← hidentity, mem_rows_self]
            exact hrow'
          rw [hkeyed.eq_of_identity hrow hrow'' hidentity.symm]
          exact ⟨hversioned, rfl⟩
        | remove t' identities => exact hinserts.elim
        | change t' identities assign => exact hinserts.elim

theorem uniqueVersions_remove (h : UniqueVersions db) (t : Table) (identities : List String) :
    UniqueVersions ((Write.remove t identities).apply db) :=
  fun t₁ t₂ row hrow row' hrow' =>
    h t₁ t₂ row (mem_apply_remove hrow) row' (mem_apply_remove hrow')

theorem UniqueVersions.write (h : UniqueVersions db) (hkeyed : db.Keyed) {s : Statement}
    (hwrite : s.write db = some w) (hkeeps : w.KeepsKeys)
    (hnew : ∀ v, w.Stamps v → ¬ StoredVersion db v) : UniqueVersions (w.apply db) := by
  cases s with
  | insert t row =>
    cases hwrite
    intro t₁ t₂ row₁ hrow₁ row₂ hrow₂ hversioned₁ hversioned₂ heq
    obtain hmem₁ | ⟨rfl, rfl⟩ := mem_apply_insert hrow₁
    · obtain hmem₂ | ⟨rfl, rfl⟩ := mem_apply_insert hrow₂
      · exact h t₁ t₂ row₁ hmem₁ row₂ hmem₂ hversioned₁ hversioned₂ heq
      · exact absurd (heq ▸ stored_of_mem hmem₁ hversioned₁) (hnew _ ⟨hversioned₂, rfl⟩)
    · obtain hmem₂ | ⟨rfl, rfl⟩ := mem_apply_insert hrow₂
      · exact absurd (heq ▸ stored_of_mem hmem₂ hversioned₂) (hnew _ ⟨hversioned₁, rfl⟩)
      · exact ⟨rfl, rfl⟩
  | update t key resourceVersion assign =>
    cases hwrite
    let found (row : Row t) : Bool := keyOf t row = key ∧ versionOf t row = resourceVersion
    have hone {row row' : Row t} (hrow : row ∈ db t) (hrow' : row' ∈ db t)
        (hlisted : identity t row ∈ ((db t).filter found).map (identity t))
        (hlisted' : identity t row' ∈ ((db t).filter found).map (identity t)) : row = row' := by
      have hfound := (List.mem_filter.mp (mem_of_found hkeyed hrow hlisted)).2
      have hfound' := (List.mem_filter.mp (mem_of_found hkeyed hrow' hlisted')).2
      exact hkeyed.eq_of_keyOf hrow hrow'
        ((of_decide_eq_true hfound).1.trans (of_decide_eq_true hfound').1.symm)
    intro t₁ t₂ row₁ hrow₁ row₂ hrow₂ hversioned₁ hversioned₂ heq
    obtain hmem₁ | ⟨row, hrow, hlisted, rfl, rfl⟩ := mem_apply_change hrow₁
    · obtain hmem₂ | ⟨row', hrow', -, rfl, rfl⟩ := mem_apply_change hrow₂
      · exact h t₁ t₂ row₁ hmem₁ row₂ hmem₂ hversioned₁ hversioned₂ heq
      · exact absurd (heq ▸ stored_of_mem hmem₁ hversioned₁) (hnew _ ⟨hversioned₂, row', rfl⟩)
    · obtain hmem₂ | ⟨row', hrow', hlisted', rfl, rfl⟩ := mem_apply_change hrow₂
      · exact absurd (heq ▸ stored_of_mem hmem₂ hversioned₂) (hnew _ ⟨hversioned₁, row, rfl⟩)
      · rw [hone hrow hrow' hlisted hlisted']
        exact ⟨rfl, rfl⟩
  | delete t key =>
    cases hwrite
    exact uniqueVersions_remove h t _
  | deleteAll t filter =>
    cases hwrite
    exact uniqueVersions_remove h t _
  | getById t key => cases hwrite
  | exists_ t key => cases hwrite
  | list t filter limit => cases hwrite

/-- The write of a disciplined call is under the version that was made last. -/
theorem stamps_justGiven {history : History} {s : Statement} (hs : Disciplined history (.statement s))
    (hwrite : s.write db = some w) (hstamps : w.Stamps v) : JustGiven history v := by
  cases s with
  | insert t row =>
    cases hwrite
    obtain ⟨hversioned, rfl⟩ := hstamps
    exact hs.2.2 hversioned
  | update t key resourceVersion assign =>
    cases hwrite
    obtain ⟨-, row, rfl⟩ := hstamps
    obtain ⟨-, -, ⟨version, hversion, hassigned⟩, -⟩ := hs
    rw [hassigned row]
    exact hversion
  | delete t key =>
    cases hwrite
    exact hstamps.elim
  | deleteAll t filter =>
    cases hwrite
    exact hstamps.elim
  | getById t key => cases hwrite
  | exists_ t key => cases hwrite
  | list t filter limit => cases hwrite

end Versions

theorem UniqueVersions.commit {writes writes' : List Write} {db : Database}
    (h : UniqueVersions (Write.applyAll writes db))
    (h' : UniqueVersions (Write.applyAll writes' db)) (hheld : Held writes db)
    (hheld' : Held writes' db) (hapart : Apart writes writes')
    (hown : ∀ v, PendingVersion writes v → ¬ StoredVersion db v ∧ ¬ PendingVersion writes' v) :
    UniqueVersions (Write.applyAll writes (Write.applyAll writes' db)) := by
  have hmixed {t t' : Table} {row : Row t} {row' : Row t'}
      (hrow : row ∈ Write.applyAll writes db t) (htouches : Touches writes t (identity t row))
      (hrow' : row' ∈ Write.applyAll writes' db t') (hversioned : HasVersion t)
      (hversioned' : HasVersion t') : versionOf t row ≠ versionOf t' row' := by
    intro heq
    have hpending := pendingVersion_of_touches hheld.keeps hheld.keyed hrow htouches hversioned
    obtain ⟨hstored, hnot⟩ := hown _ hpending
    rw [heq] at hstored hnot
    exact (stored_applyAll (stored_of_mem hrow' hversioned')).elim hstored hnot
  intro t t' row hrow row' hrow' hversioned hversioned' heq
  obtain ⟨hmem, htouches⟩ | ⟨hmem, -⟩ := mem_applyAll_applyAll hheld hheld' hapart hrow
  · obtain ⟨hmem', -⟩ | ⟨hmem', -⟩ := mem_applyAll_applyAll hheld hheld' hapart hrow'
    · exact h t t' row hmem row' hmem' hversioned hversioned' heq
    · exact absurd heq (hmixed hmem htouches hmem' hversioned hversioned')
  · obtain ⟨hmem', htouches'⟩ | ⟨hmem', -⟩ := mem_applyAll_applyAll hheld hheld' hapart hrow'
    · exact absurd heq.symm (hmixed hmem' htouches' hmem hversioned' hversioned)
    · exact h' t t' row hmem row' hmem' hversioned hversioned' heq

section SideBySide

variable {ι α : Type}

/-- A version that is yet to be written: it will be made, or it was made and its write comes next. -/
def Future (source : UUIDSource) (c : StorageConfig ι α) (v : String) : Prop :=
  (∃ n, c.shared.uuids ≤ n ∧ v = source.newString n) ∨ ∃ i, JustGiven (c.threads i).history v

/-- No version is stored or pending in two places, and none that is yet to be written is. -/
structure VersionInv (source : UUIDSource) (c : StorageConfig ι α) : Prop where
  own : ∀ i j v, Given (c.threads i).history v → Given (c.threads j).history v → i = j
  future : ∀ v, Future source c v →
    ¬ StoredVersion c.shared.db v ∧ ∀ i, ¬ PendingVersion (c.threads i).session.pending v
  given : ∀ i v, PendingVersion (c.threads i).session.pending v → Given (c.threads i).history v
  apart : ∀ i v, PendingVersion (c.threads i).session.pending v → ¬ StoredVersion c.shared.db v
  unique : UniqueVersions c.shared.db
  views : ∀ i, UniqueVersions (Write.applyAll (c.threads i).session.pending c.shared.db)

theorem WellFormed.stored_issued {source : UUIDSource} {uuids : Nat} {db : Database}
    (h : WellFormed source uuids db) {v : String} (hstored : StoredVersion db v) :
    ∃ n < uuids, v = source.newString n := by
  obtain ⟨t, row, hrow, hversioned, rfl⟩ := hstored
  apply h.issued t row hrow
  rw [stamps_of_versioned hversioned]
  exact List.mem_cons_of_mem _ List.mem_cons_self

theorem versionInv_start {source : UUIDSource} {programs : ι → UseCase α} {w : Shared}
    (h : WellFormed source w.uuids w.db) (hunique : UniqueVersions w.db) :
    VersionInv source (Config.start .idle programs w) where
  own _ _ _ hgiven := absurd hgiven List.not_mem_nil
  future v hfuture := by
    refine ⟨fun hstored => ?_, fun _ => not_pendingVersion_nil v⟩
    cases hfuture with
    | inl hnew =>
      obtain ⟨n, hn, rfl⟩ := hnew
      obtain ⟨m, hm, heq⟩ := h.stored_issued hstored
      rw [source.newString_injective heq] at hn
      exact absurd hm (Nat.not_lt.mpr hn)
    | inr hjust =>
      obtain ⟨i, hjust⟩ := hjust
      cases hjust
  given _ v hpending := absurd hpending (not_pendingVersion_nil v)
  apart _ v hpending := absurd hpending (not_pendingVersion_nil v)
  unique := hunique
  views _ := hunique

variable {source : UUIDSource} {c : StorageConfig ι α}

/-- A row that is stored, or that an open transaction sees. -/
def Seen (c : StorageConfig ι α) (t : Table) (row : Row t) : Prop :=
  row ∈ c.shared.db t ∨ ∃ i, row ∈ Write.applyAll (c.threads i).session.pending c.shared.db t

/-- What is seen is stored, or a transaction has written it under the version it has. -/
theorem Seen.stored_or_pending (hs : StorageInv source c) {t : Table} {row : Row t}
    (h : Seen c t row) (hversioned : HasVersion t) : row ∈ c.shared.db t ∨
      ∃ i, row ∈ Write.applyAll (c.threads i).session.pending c.shared.db t ∧
        PendingVersion (c.threads i).session.pending (versionOf t row) := by
  cases h with
  | inl hmem => exact .inl hmem
  | inr hview =>
    obtain ⟨i, hview⟩ := hview
    by_cases htouches : Touches (c.threads i).session.pending t (identity t row)
    · exact .inr ⟨i, hview,
        pendingVersion_of_touches (hs.held i).keeps (hs.held i).keyed hview htouches hversioned⟩
    · rw [← mem_rows_self, rows_applyAll_of_not (hs.held i).keeps htouches, mem_rows_self] at hview
      exact .inl hview

theorem VersionInv.not_future (h : VersionInv source c) {t : Table} {row : Row t}
    (hseen : Seen c t row) (hversioned : HasVersion t) : ¬ Future source c (versionOf t row) := by
  intro hfuture
  obtain ⟨hstored, hpending⟩ := h.future _ hfuture
  cases hseen with
  | inl hmem => exact hstored (stored_of_mem hmem hversioned)
  | inr hview =>
    obtain ⟨j, hview⟩ := hview
    exact (stored_applyAll (stored_of_mem hview hversioned)).elim hstored (hpending j)

theorem VersionInv.eq_of_seen (hs : StorageInv source c) (h : VersionInv source c) {t t' : Table}
    {row : Row t} {row' : Row t'} (hseen : Seen c t row) (hseen' : Seen c t' row')
    (hversioned : HasVersion t) (hversioned' : HasVersion t')
    (heq : versionOf t row = versionOf t' row') : (⟨t, row⟩ : (t : Table) × Row t) = ⟨t', row'⟩ := by
  have hone {db : Database} (hkeyed : db.Keyed) (hunique : UniqueVersions db) (hrow : row ∈ db t)
      (hrow' : row' ∈ db t') : (⟨t, row⟩ : (t : Table) × Row t) = ⟨t', row'⟩ := by
    obtain ⟨rfl, hidentity⟩ := hunique t t' row hrow row' hrow' hversioned hversioned' heq
    rw [hkeyed.eq_of_identity hrow hrow' hidentity]
  cases hseen.stored_or_pending hs hversioned with
  | inl hrow =>
    cases hseen'.stored_or_pending hs hversioned' with
    | inl hrow' => exact hone hs.wellFormed.keyed h.unique hrow hrow'
    | inr hpending' =>
      obtain ⟨j, -, hpending'⟩ := hpending'
      rw [← heq] at hpending'
      exact absurd (stored_of_mem hrow hversioned) (h.apart j _ hpending')
  | inr hpending =>
    obtain ⟨i, hrow, hpending⟩ := hpending
    rw [heq] at hpending
    cases hseen'.stored_or_pending hs hversioned' with
    | inl hrow' => exact absurd (stored_of_mem hrow' hversioned') (h.apart i _ hpending)
    | inr hpending' =>
      obtain ⟨j, hrow', hpending'⟩ := hpending'
      obtain rfl : i = j := h.own i j _ (h.given i _ hpending) (h.given j _ hpending')
      exact hone (hs.views i).keyed (h.views i) hrow hrow'

variable [DecidableEq ι] {faults : PersistenceError → Prop} {i : ι} {s : Effect}
  {next : s.Answer → UseCase α} {r : s.Answer} {session : Session} {shared : Shared}

/-- What is yet to be written after a step was so before, and is not what the step has written. -/
theorem future_after (hs : StorageInv source c)
    (hown : ∀ i j v, Given (c.threads i).history v → Given (c.threads j).history v → i = j)
    {fault : Option PersistenceError}
    (hperform : s.perform source fault (c.threads i).session c.shared = (r, session, shared))
    {v : String} (h : Future source (c.after i s next r session shared) v) :
    Future source c v ∧ ¬ JustGiven (c.threads i).history v := by
  obtain ⟨huuids, -⟩ := given_after next hperform
  have hnew {n : Nat} (hn : c.shared.uuids ≤ n) (hv : v = source.newString n) :
      Future source c v ∧ ¬ JustGiven (c.threads i).history v := by
    refine ⟨.inl ⟨n, hn, hv⟩, fun hjust => ?_⟩
    obtain ⟨m, hm, heq⟩ := hs.given i v hjust.given
    have hmn : m = n := source.newString_injective (heq.symm.trans hv)
    omega
  cases h with
  | inl h =>
    obtain ⟨n, hn, hv⟩ := h
    exact hnew (huuids.trans hn) hv
  | inr h =>
    obtain ⟨j, hjust⟩ := h
    by_cases hj : j = i
    · subst hj
      rw [Config.after_threads_self, JustGiven, List.getLast?_concat] at hjust
      cases hjust
      have hv : source.newString c.shared.uuids = v := congrArg Prod.fst hperform
      exact hnew le_rfl hv.symm
    · rw [Config.after_threads_of_ne hj] at hjust
      refine ⟨.inr ⟨j, hjust⟩, fun hjust' => hj ?_⟩
      exact hown j i v hjust.given hjust'.given

theorem own_after (hs : StorageInv source c)
    (hown : ∀ i j v, Given (c.threads i).history v → Given (c.threads j).history v → i = j)
    {fault : Option PersistenceError}
    (hperform : s.perform source fault (c.threads i).session c.shared = (r, session, shared))
    (j k : ι) (v : String)
    (hj : Given ((c.after i s next r session shared).threads j).history v)
    (hk : Given ((c.after i s next r session shared).threads k).history v) : j = k := by
  obtain ⟨-, hafter⟩ := given_after next hperform
  have hnot {l : ι} (hold : Given (c.threads l).history v)
      (hv : v = source.newString c.shared.uuids) : False := by
    obtain ⟨n, hn, heq⟩ := hs.given l v hold
    have hsame : n = c.shared.uuids := source.newString_injective (heq.symm.trans hv)
    omega
  obtain hj | ⟨rfl, hv, -⟩ := hafter j v hj
  · obtain hk | ⟨-, hv, -⟩ := hafter k v hk
    · exact hown j k v hj hk
    · exact (hnot hj hv).elim
  · obtain hk | ⟨rfl, -, -⟩ := hafter k v hk
    · exact (hnot hk hv).elim
    · rfl

theorem VersionInv.pend (hs : StorageInv source c) (h : VersionInv source c)
    {fault : Option PersistenceError}
    (hperform : s.perform source fault (c.threads i).session c.shared = (r, session, shared))
    (hdb : shared.db = c.shared.db)
    (hnew : ∀ v, PendingVersion session.pending v →
      PendingVersion (c.threads i).session.pending v ∨ JustGiven (c.threads i).history v)
    (hview : UniqueVersions (Write.applyAll session.pending c.shared.db)) :
    VersionInv source (c.after i s next r session shared) := by
  refine ⟨own_after hs h.own hperform, fun v hfuture => ?_, fun j v hpending => ?_,
    fun j v hpending => ?_, ?_, fun j => ?_⟩
  · obtain ⟨hfuture, hnot⟩ := future_after hs h.own hperform hfuture
    obtain ⟨hstored, hpending⟩ := h.future v hfuture
    rw [Config.after_shared, hdb]
    refine ⟨hstored, fun j hj => ?_⟩
    by_cases hji : j = i
    · subst hji
      rw [Config.after_threads_self] at hj
      exact (hnew v hj).elim (hpending j) hnot
    · rw [Config.after_threads_of_ne hji] at hj
      exact hpending j hj
  · by_cases hj : j = i
    · subst hj
      rw [Config.after_threads_self] at hpending ⊢
      apply Given.append
      exact (hnew v hpending).elim (h.given j v) JustGiven.given
    · rw [Config.after_threads_of_ne hj] at hpending ⊢
      exact h.given j v hpending
  · rw [Config.after_shared, hdb]
    by_cases hj : j = i
    · subst hj
      rw [Config.after_threads_self] at hpending
      cases hnew v hpending with
      | inl hold => exact h.apart j v hold
      | inr hjust => exact (h.future v (.inr ⟨j, hjust⟩)).1
    · rw [Config.after_threads_of_ne hj] at hpending
      exact h.apart j v hpending
  · rw [Config.after_shared, hdb]
    exact h.unique
  · rw [Config.after_shared, hdb]
    by_cases hj : j = i
    · subst hj
      simpa using hview
    · simpa [hj] using h.views j

theorem VersionInv.commit (hs : StorageInv source c) (h : VersionInv source c)
    {fault : Option PersistenceError}
    (hperform : s.perform source fault (c.threads i).session c.shared = (r, session, shared))
    {writes : List Write} (hdb : shared.db = Write.applyAll writes c.shared.db)
    (hpending : session.pending = []) (hheld : Held writes c.shared.db)
    (hapart : ∀ j, j ≠ i → Apart writes (c.threads j).session.pending)
    (hnew : ∀ v, PendingVersion writes v →
      PendingVersion (c.threads i).session.pending v ∨ JustGiven (c.threads i).history v)
    (hview : UniqueVersions (Write.applyAll writes c.shared.db)) :
    VersionInv source (c.after i s next r session shared) := by
  have hgiven {v : String} (hv : PendingVersion writes v) : Given (c.threads i).history v :=
    (hnew v hv).elim (h.given i v) JustGiven.given
  have hapart' {j : ι} (hj : j ≠ i) (v : String)
      (hv : PendingVersion (c.threads j).session.pending v) :
      ¬ StoredVersion c.shared.db v ∧ ¬ PendingVersion writes v :=
    ⟨h.apart j v hv, fun hw => hj (h.own j i v (h.given j v hv) (hgiven hw))⟩
  have hnone : ¬ ∃ v, PendingVersion session.pending v := by
    rw [hpending]
    exact fun ⟨v, hv⟩ => not_pendingVersion_nil v hv
  refine ⟨own_after hs h.own hperform, fun v hfuture => ?_, fun j v hv => ?_, fun j v hv => ?_, ?_,
    fun j => ?_⟩
  · obtain ⟨hfuture, hnot⟩ := future_after hs h.own hperform hfuture
    obtain ⟨hstored, hpend⟩ := h.future v hfuture
    rw [Config.after_shared, hdb]
    refine ⟨fun hafter => ?_, fun j hj => ?_⟩
    · cases stored_applyAll hafter with
      | inl hold => exact hstored hold
      | inr hv => exact (hnew v hv).elim (hpend i) hnot
    · by_cases hji : j = i
      · subst hji
        rw [Config.after_threads_self] at hj
        exact hnone ⟨v, hj⟩
      · rw [Config.after_threads_of_ne hji] at hj
        exact hpend j hj
  · by_cases hj : j = i
    · subst hj
      rw [Config.after_threads_self] at hv
      exact absurd ⟨v, hv⟩ hnone
    · rw [Config.after_threads_of_ne hj] at hv ⊢
      exact h.given j v hv
  · rw [Config.after_shared, hdb]
    by_cases hj : j = i
    · subst hj
      rw [Config.after_threads_self] at hv
      exact absurd ⟨v, hv⟩ hnone
    · rw [Config.after_threads_of_ne hj] at hv
      obtain ⟨hstored, hw⟩ := hapart' hj v hv
      exact fun hafter => (stored_applyAll hafter).elim hstored hw
  · rw [Config.after_shared, hdb]
    exact hview
  · rw [Config.after_shared, hdb]
    by_cases hj : j = i
    · subst hj
      simpa [hpending] using hview
    · have hcommit := (h.views j).commit hview (hs.held j) hheld (hapart j hj).symm (hapart' hj)
      simpa [hj] using hcommit

theorem VersionInv.step (hs : StorageInv source c) (h : VersionInv source c)
    (hallowed : Disciplined (c.threads i).history s)
    (hact : storage source faults c i s r session shared) :
    VersionInv source (c.after i s next r session shared) := by
  obtain ⟨fault, -, hfree, hperform⟩ := hact
  have hkept (hsession : session = (c.threads i).session) (hdb : shared.db = c.shared.db) :
      VersionInv source (c.after i s next r session shared) := by
    apply h.pend hs hperform hdb
    · intro v hv
      rw [hsession] at hv
      exact .inl hv
    · rw [hsession]
      exact h.views i
  have hdropped (hpending : session.pending = []) (hdb : shared.db = c.shared.db) :
      VersionInv source (c.after i s next r session shared) := by
    apply h.pend hs hperform hdb
    · intro v hv
      rw [hpending] at hv
      exact absurd hv (not_pendingVersion_nil v)
    · rw [hpending]
      exact h.unique
  cases performs hperform with
  | reads _ hsession hdb => exact hkept hsession hdb
  | fails _ hpending hdb => exact hdropped hpending hdb
  | @pends s result w _ _ hanswer hwrite hpending hdb =>
    rw [Session.view_eq] at hanswer hwrite
    obtain ⟨-, haccepted⟩ := (hs.views i).write (hs.given i) hallowed hanswer hwrite
    have hjust (v : String) (hv : w.Stamps v) : JustGiven (c.threads i).history v :=
      stamps_justGiven hallowed hwrite hv
    apply h.pend hs hperform hdb
    · intro v hv
      rw [hpending] at hv
      exact (pendingVersion_append hv).imp id fun hv => hjust v (pendingVersion_singleton hv)
    · rw [hpending, applyAll_append]
      apply (h.views i).write (hs.views i).keyed hwrite haccepted.keeps
      intro v hv hstored
      obtain ⟨hnot, hpend⟩ := h.future v (.inr ⟨i, hjust v hv⟩)
      exact (stored_applyAll hstored).elim hnot (hpend i)
  | @writes s result w hidle hidle' hanswer hwrite hdb =>
    have hpending : session.pending = [] := by
      rw [hidle']
      rfl
    obtain ⟨-, haccepted⟩ := hs.wellFormed.write (hs.given i) hallowed hanswer hwrite
    have hjust (v : String) (hv : w.Stamps v) : JustGiven (c.threads i).history v :=
      stamps_justGiven hallowed hwrite hv
    have hdb' : shared.db = Write.applyAll [w] c.shared.db := hdb
    obtain ⟨hheld, hapart⟩ := hs.apart_write (free_of_answered hfree hperform) hidle hwrite haccepted
    apply h.commit hs hperform hdb' hpending hheld hapart
    · intro v hv
      exact .inr (hjust v (pendingVersion_singleton hv))
    · apply h.unique.write hs.wellFormed.keyed hwrite haccepted.keeps
      intro v hv
      exact (h.future v (.inr ⟨i, hjust v hv⟩)).1
  | begins hsession hdb => exact hdropped (by rw [hsession]; rfl) hdb
  | unbegun hsession hdb => exact hkept hsession hdb
  | commits hidle hdb =>
    have hpending : session.pending = [] := by
      rw [hidle]
      rfl
    exact h.commit hs hperform hdb hpending (hs.held i) (fun j hj => hs.apart i j hj.symm)
      (fun _ hv => .inl hv) (h.views i)
  | uncommitted hidle hdb => exact hdropped (by rw [hidle]; rfl) hdb
  | rollsBack hidle hdb => exact hdropped (by rw [hidle]; rfl) hdb
  | names hsession hdb => exact hkept hsession hdb
  | asks hsession hdb => exact hkept hsession hdb

theorem seen_after (hs : StorageInv source c) (hallowed : Disciplined (c.threads i).history s)
    (hact : storage source faults c i s r session shared) {t : Table} {row : Row t}
    (hversioned : HasVersion t) (hseen : Seen (c.after i s next r session shared) t row) :
    Seen c t row ∨ JustGiven (c.threads i).history (versionOf t row) := by
  obtain ⟨fault, -, hfree, hperform⟩ := hact
  -- The database is as it was, and the transaction of the step sees only what it did.
  have hpend (hdb : shared.db = c.shared.db)
      (hview : row ∈ Write.applyAll session.pending c.shared.db t →
        Seen c t row ∨ JustGiven (c.threads i).history (versionOf t row)) :
      Seen c t row ∨ JustGiven (c.threads i).history (versionOf t row) := by
    rw [Seen, Config.after_shared, hdb] at hseen
    cases hseen with
    | inl hmem => exact .inl (.inl hmem)
    | inr hmem =>
      obtain ⟨j, hmem⟩ := hmem
      by_cases hj : j = i
      · subst hj
        rw [Config.after_threads_self] at hmem
        exact hview hmem
      · rw [Config.after_threads_of_ne hj] at hmem
        exact .inl (.inr ⟨j, hmem⟩)
  have hcommit {writes : List Write} (hdb : shared.db = Write.applyAll writes c.shared.db)
      (hpending : session.pending = []) (hheld : Held writes c.shared.db)
      (hapart : ∀ j, j ≠ i → Apart writes (c.threads j).session.pending)
      (hview : row ∈ Write.applyAll writes c.shared.db t →
        Seen c t row ∨ JustGiven (c.threads i).history (versionOf t row)) :
      Seen c t row ∨ JustGiven (c.threads i).history (versionOf t row) := by
    rw [Seen, Config.after_shared, hdb] at hseen
    cases hseen with
    | inl hmem => exact hview hmem
    | inr hmem =>
      obtain ⟨j, hmem⟩ := hmem
      by_cases hj : j = i
      · subst hj
        rw [Config.after_threads_self, hpending] at hmem
        exact hview hmem
      · rw [Config.after_threads_of_ne hj] at hmem
        obtain ⟨hmem, -⟩ | ⟨hmem, -⟩ :=
          mem_applyAll_applyAll (hs.held j) hheld (hapart j hj).symm hmem
        · exact .inl (.inr ⟨j, hmem⟩)
        · exact hview hmem
  have hkept (hsession : session = (c.threads i).session) (hdb : shared.db = c.shared.db) :
      Seen c t row ∨ JustGiven (c.threads i).history (versionOf t row) := by
    apply hpend hdb
    intro hmem
    rw [hsession] at hmem
    exact .inl (.inr ⟨i, hmem⟩)
  have hdropped (hpending : session.pending = []) (hdb : shared.db = c.shared.db) :
      Seen c t row ∨ JustGiven (c.threads i).history (versionOf t row) := by
    apply hpend hdb
    intro hmem
    rw [hpending] at hmem
    exact .inl (.inl hmem)
  cases performs hperform with
  | reads _ hsession hdb => exact hkept hsession hdb
  | fails _ hpending hdb => exact hdropped hpending hdb
  | @pends s result w _ _ _ hwrite hpending hdb =>
    rw [Session.view_eq] at hwrite
    apply hpend hdb
    intro hmem
    rw [hpending, applyAll_append] at hmem
    cases mem_apply_or_stamps hmem hversioned with
    | inl hmem => exact .inl (.inr ⟨i, hmem⟩)
    | inr hstamps => exact .inr (stamps_justGiven hallowed hwrite hstamps)
  | @writes s result w hidle hidle' hanswer hwrite hdb =>
    have hpending : session.pending = [] := by
      rw [hidle']
      rfl
    obtain ⟨-, haccepted⟩ := hs.wellFormed.write (hs.given i) hallowed hanswer hwrite
    have hdb' : shared.db = Write.applyAll [w] c.shared.db := hdb
    obtain ⟨hheld, hapart⟩ := hs.apart_write (free_of_answered hfree hperform) hidle hwrite haccepted
    apply hcommit hdb' hpending hheld hapart
    intro hmem
    cases mem_apply_or_stamps hmem hversioned with
    | inl hmem => exact .inl (.inl hmem)
    | inr hstamps => exact .inr (stamps_justGiven hallowed hwrite hstamps)
  | begins hsession hdb => exact hdropped (by rw [hsession]; rfl) hdb
  | unbegun hsession hdb => exact hkept hsession hdb
  | commits hidle hdb =>
    have hpending : session.pending = [] := by
      rw [hidle]
      rfl
    exact hcommit hdb hpending (hs.held i) (fun j hj => hs.apart i j hj.symm)
      fun hmem => .inl (.inr ⟨i, hmem⟩)
  | uncommitted hidle hdb => exact hdropped (by rw [hidle]; rfl) hdb
  | rollsBack hidle hdb => exact hdropped (by rw [hidle]; rfl) hdb
  | names hsession hdb => exact hkept hsession hdb
  | asks hsession hdb => exact hkept hsession hdb

end SideBySide

section Runs

variable {ι : Type} [DecidableEq ι] {source : UUIDSource} {setup : ServerSetup}
  {faults : PersistenceError → Prop} {calls : ι → StorageCall}
  {w : Shared} {c c' : StorageConfig ι Unit}

theorem versionInv_of_run (h : WellFormed source w.uuids w.db) (hunique : UniqueVersions w.db)
    (hrun : Run (storage source faults) (storageCalls setup calls w) c) :
    (StorageInv source c ∧ VersionInv source c) ∧
      c.Meets (fun _ => Disciplined) fun _ _ _ => True := by
  apply hrun.invariant (storageCalls_meets calls w)
  · exact ⟨storageInv_start h, versionInv_start h hunique⟩
  · intro c i s next r session shared _ hinv _ hallowed hact
    exact ⟨hinv.1.step hallowed hact, hinv.2.step hinv.1 hallowed hact⟩

/-- Whoever sees a resource under a version, at whatever time, sees the same row. -/
theorem same_of_version (h : WellFormed source w.uuids w.db) (hunique : UniqueVersions w.db)
    (hrun : Run (storage source faults) (storageCalls setup calls w) c)
    (hlater : Run (storage source faults) c c') {t t' : Table} {row : Row t} {row' : Row t'}
    (hseen : Seen c t row) (hseen' : Seen c' t' row') (hversioned : HasVersion t)
    (hversioned' : HasVersion t') (heq : versionOf t row = versionOf t' row') :
    (⟨t, row⟩ : (t : Table) × Row t) = ⟨t', row'⟩ := by
  obtain ⟨⟨hs, hv⟩, hmeets⟩ := versionInv_of_run h hunique hrun
  let inv (c : StorageConfig ι Unit) : Prop := StorageInv source c ∧ VersionInv source c ∧
    ¬ Future source c (versionOf t row) ∧
    ∀ t' (row' : Row t'), Seen c t' row' → HasVersion t' → versionOf t row = versionOf t' row' →
      (⟨t, row⟩ : (t : Table) × Row t) = ⟨t', row'⟩
  have hinv : inv c' := by
    refine (hlater.invariant hmeets ?_ ?_).1
    · refine ⟨hs, hv, hv.not_future hseen hversioned, fun t' row' hseen' hversioned' heq => ?_⟩
      exact hv.eq_of_seen hs hseen hseen' hversioned hversioned' heq
    · intro c i s next r session shared _ hinv _ hallowed hact
      obtain ⟨hs, hv, hnot, hsame⟩ := hinv
      obtain ⟨fault, -, -, hperform⟩ := id hact
      refine ⟨hs.step hallowed hact, hv.step hs hallowed hact, fun hfuture => ?_, ?_⟩
      · exact hnot (future_after hs hv.own hperform hfuture).1
      · intro t' row' hseen' hversioned' heq
        cases seen_after hs hallowed hact hversioned' hseen' with
        | inl hbefore => exact hsame t' row' hbefore hversioned' heq
        | inr hjust =>
          rw [← heq] at hjust
          exact absurd (.inr ⟨i, hjust⟩) hnot
  exact hinv.2.2.2 t' row' hseen' hversioned' heq

end Runs

/-- The row that is left of two calls to create it. -/
def acmeRow : ApplicationRow := ⟨"acme", "u", 1, none, "uuu"⟩

private theorem quiet_firstTurns : ∀ n ≤ (turnByTurn.take 5).length,
    Quiet (follow unaryUUIDs createdTwice ((turnByTurn.take 5).take n)) := by
  decide +kernel

private theorem quiet_lastTurns : ∀ n ≤ (turnByTurn.drop 5).length,
    Quiet (follow unaryUUIDs (follow unaryUUIDs createdTwice (turnByTurn.take 5))
      ((turnByTurn.drop 5).take n)) := by
  decide +kernel

/-- Whatever is stored under its version at the end is as the first of them has written it. -/
theorem createdTwice_same :
    acmeRow ∈ (follow unaryUUIDs createdTwice (turnByTurn.take 5)).shared.db .application ∧
      acmeRow ∈ (follow unaryUUIDs (follow unaryUUIDs createdTwice (turnByTurn.take 5))
        (turnByTurn.drop 5)).shared.db .application ∧
      ∀ row ∈ (follow unaryUUIDs (follow unaryUUIDs createdTwice (turnByTurn.take 5))
        (turnByTurn.drop 5)).shared.db .application,
        "uuu" = versionOf .application row → acmeRow = row := by
  have hfirst : acmeRow ∈
      (follow unaryUUIDs createdTwice (turnByTurn.take 5)).shared.db .application := by
    decide +kernel
  have hlast : acmeRow ∈ (follow unaryUUIDs (follow unaryUUIDs createdTwice (turnByTurn.take 5))
      (turnByTurn.drop 5)).shared.db .application := by
    decide +kernel
  have hunique : UniqueVersions Database.empty := fun _ _ _ hrow => absurd hrow List.not_mem_nil
  have hrun : Run (storage unaryUUIDs noFaults) createdTwice
      (follow unaryUUIDs createdTwice (turnByTurn.take 5)) := run_follow _ quiet_firstTurns
  refine ⟨hfirst, hlast, fun row hrow hversion => ?_⟩
  have hsame := same_of_version (wellFormed_empty unaryUUIDs 0) hunique hrun
    (run_follow _ quiet_lastTurns) (.inl hfirst) (.inl hrow) trivial trivial hversion
  cases hsame
  rfl

end Signare
