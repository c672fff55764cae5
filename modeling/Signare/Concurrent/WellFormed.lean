import Signare.Concurrent.PendingWrites
import Signare.Concurrent.SlotSteps
import Signare.Concurrent.SlotVersions
import Signare.RpcInfra.ImportAccount
import Signare.UseCases.Disciplined

/-!
# What is stored stays well formed

Whatever use cases run side by side, and whichever of their calls fail, the rows that are stored can
be told apart and read back, and so can those that an open transaction sees.
-/

namespace Signare

open ByteCodec Interleaving

/-- A database whose rows can be told apart and read back, and are marked by identifiers that have
been handed out. -/
structure WellFormed (source : UUIDSource) (uuids : Nat) (db : Database) : Prop where
  keyed : db.Keyed
  readable : ∀ t, ∀ row ∈ db t, Readable t row
  fits : ∀ t, ∀ row ∈ db t, Signare.fits t row = true
  issued : ∀ t, ∀ row ∈ db t, ∀ id ∈ stamps t row, ∃ n < uuids, id = source.newString n

theorem wellFormed_empty (source : UUIDSource) (uuids : Nat) :
    WellFormed source uuids Database.empty where
  keyed := Database.intact_empty.keyed
  readable _ _ h := absurd h List.not_mem_nil
  fits _ _ h := absurd h List.not_mem_nil
  issued _ _ h := absurd h List.not_mem_nil

theorem mem_apply_insert {t t' : Table} {row : Row t} {row' : Row t'} {db : Database}
    (h : row' ∈ (Write.insert t row).apply db t') :
    row' ∈ db t' ∨ ∃ ht : t = t', ht ▸ row = row' := by
  by_cases ht : t' = t
  · subst ht
    rw [Write.apply, Function.update_self, List.mem_append, List.mem_singleton] at h
    exact h.imp id fun heq => ⟨rfl, heq.symm⟩
  · rw [Write.apply, Function.update_of_ne ht] at h
    exact .inl h

theorem mem_apply_remove {t t' : Table} {identities : List String} {row' : Row t'} {db : Database}
    (h : row' ∈ (Write.remove t identities).apply db t') : row' ∈ db t' := by
  by_cases ht : t' = t
  · subst ht
    rw [Write.apply, Function.update_self] at h
    exact (List.mem_filter.mp h).1
  · rw [Write.apply, Function.update_of_ne ht] at h
    exact h

theorem mem_apply_change {t t' : Table} {identities : List String} {assign : Row t → Row t}
    {row' : Row t'} {db : Database} (h : row' ∈ (Write.change t identities assign).apply db t') :
    row' ∈ db t' ∨ ∃ row ∈ db t, identity t row ∈ identities ∧ ∃ ht : t = t', ht ▸ assign row = row' := by
  by_cases ht : t' = t
  · subst ht
    rw [Write.apply, Function.update_self] at h
    obtain ⟨row, hrow, heq⟩ := List.mem_map.mp h
    by_cases hlisted : identity t' row ∈ identities
    · rw [if_pos hlisted] at heq
      exact .inr ⟨row, hrow, hlisted, rfl, heq⟩
    · rw [if_neg hlisted] at heq
      exact .inl (heq ▸ hrow)
  · rw [Write.apply, Function.update_of_ne ht] at h
    exact .inl h

/-- The rows that an update finds by their identity are those that it matched. -/
theorem mem_of_found {db : Database} (hkeyed : db.Keyed) {t : Table} {found : Row t → Bool}
    {row : Row t} (hrow : row ∈ db t) (h : identity t row ∈ ((db t).filter found).map (identity t)) :
    row ∈ (db t).filter found := by
  obtain ⟨row', hrow', hidentity⟩ := List.mem_map.mp h
  have heq : row' = row := hkeyed.eq_of_identity (List.mem_filter.mp hrow').1 hrow hidentity
  rw [← heq]
  exact hrow'

section WellFormed

variable {source : UUIDSource} {uuids uuids' : Nat} {db : Database} {writes writes' : List Write}

theorem WellFormed.mono (h : WellFormed source uuids db) (huuids : uuids ≤ uuids') :
    WellFormed source uuids' db := by
  refine ⟨h.keyed, h.readable, h.fits, fun t row hrow id hid => ?_⟩
  obtain ⟨n, hn, heq⟩ := h.issued t row hrow id hid
  exact ⟨n, hn.trans_le huuids, heq⟩

theorem WellFormed.of_rows (hkeyed : db.Keyed)
    (h : ∀ t, ∀ row ∈ db t, ∃ db', WellFormed source uuids db' ∧ row ∈ db' t) :
    WellFormed source uuids db := by
  refine ⟨hkeyed, fun t row hrow => ?_, fun t row hrow => ?_, fun t row hrow => ?_⟩
  · obtain ⟨db', hdb', hmem⟩ := h t row hrow
    exact hdb'.readable t row hmem
  · obtain ⟨db', hdb', hmem⟩ := h t row hrow
    exact hdb'.fits t row hmem
  · obtain ⟨db', hdb', hmem⟩ := h t row hrow
    exact hdb'.issued t row hmem

theorem WellFormed.write (h : WellFormed source uuids db) {history : History}
    (hgiven : ∀ id, Given history id → ∃ n < uuids, id = source.newString n) {s : Statement}
    (hs : Disciplined history (.statement s)) {result : s.Result}
    (hanswer : s.answer db = .ok result) {w : Write} (hwrite : s.write db = some w) :
    WellFormed source uuids (w.apply db) ∧ w.Accepted db := by
  cases s with
  | insert t row =>
    cases hwrite
    obtain ⟨hread, hstamps, -⟩ := hs
    obtain ⟨hfits, -⟩ := Statement.insert_answer_ok hanswer
    have haccepted : (Write.insert t row).Accepted db :=
      Statement.write_accepted h.keyed hanswer rfl trivial
    refine ⟨⟨haccepted.keyed, fun t' row' hrow' => ?_, fun t' row' hrow' => ?_,
      fun t' row' hrow' => ?_⟩, haccepted⟩
    · obtain hmem | ⟨rfl, rfl⟩ := mem_apply_insert hrow'
      · exact h.readable t' row' hmem
      · exact hread hfits
    · obtain hmem | ⟨rfl, rfl⟩ := mem_apply_insert hrow'
      · exact h.fits t' row' hmem
      · exact hfits
    · obtain hmem | ⟨rfl, rfl⟩ := mem_apply_insert hrow'
      · exact h.issued t' row' hmem
      · exact fun id hid => hgiven id (hstamps id hid)
  | delete t key =>
    cases hwrite
    have haccepted := Statement.write_accepted h.keyed hanswer rfl trivial
    exact ⟨.of_rows haccepted.keyed fun t' row' hrow' => ⟨db, h, mem_apply_remove hrow'⟩, haccepted⟩
  | deleteAll t filter =>
    cases hwrite
    have haccepted := Statement.write_accepted h.keyed hanswer rfl trivial
    exact ⟨.of_rows haccepted.keyed fun t' row' hrow' => ⟨db, h, mem_apply_remove hrow'⟩, haccepted⟩
  | update t key resourceVersion assign =>
    cases hwrite
    obtain ⟨hkeys, hversioned, ⟨version, hversion, hassigned⟩, hread⟩ := hs
    have haccepted := Statement.write_accepted h.keyed hanswer rfl hkeys
    let found (row : Row t) : Bool := keyOf t row = key ∧ versionOf t row = resourceVersion
    have hall : ∀ row ∈ (db t).filter found, Signare.fits t (assign row) = true := by
      rw [Statement.answer] at hanswer
      split at hanswer
      · next hall => exact List.all_eq_true.mp hall
      · cases hanswer
    have hmatched {row : Row t} (hrow : row ∈ db t)
        (hlisted : identity t row ∈ ((db t).filter found).map (identity t)) :
        Signare.fits t (assign row) = true :=
      hall row (mem_of_found h.keyed hrow hlisted)
    refine ⟨⟨haccepted.keyed, fun t' row' hrow' => ?_, fun t' row' hrow' => ?_,
      fun t' row' hrow' => ?_⟩, haccepted⟩
    · obtain hmem | ⟨row, hrow, hlisted, rfl, rfl⟩ := mem_apply_change hrow'
      · exact h.readable t' row' hmem
      · exact hread row (h.readable _ row hrow) (hmatched hrow hlisted)
    · obtain hmem | ⟨row, hrow, hlisted, rfl, rfl⟩ := mem_apply_change hrow'
      · exact h.fits t' row' hmem
      · exact hmatched hrow hlisted
    · obtain hmem | ⟨row, hrow, hlisted, rfl, rfl⟩ := mem_apply_change hrow'
      · exact h.issued t' row' hmem
      · intro id hid
        rw [stamps_of_versioned hversioned, List.mem_cons, List.mem_singleton] at hid
        cases hid with
        | inl heq =>
          apply h.issued _ row hrow
          rw [heq, (hkeys row).2.1, stamps_of_versioned hversioned]
          exact List.mem_cons_self
        | inr heq =>
          rw [heq, hassigned]
          exact hgiven version hversion.given
  | getById t key => cases hwrite
  | exists_ t key => cases hwrite
  | list t filter limit => cases hwrite

theorem WellFormed.commit (h : WellFormed source uuids (Write.applyAll writes db))
    (h' : WellFormed source uuids (Write.applyAll writes' db)) (hheld : Held writes db)
    (hheld' : Held writes' db) (hapart : Apart writes writes') :
    WellFormed source uuids (Write.applyAll writes (Write.applyAll writes' db)) := by
  apply WellFormed.of_rows (hheld.commit hheld' hapart).keyed
  intro t row hrow
  obtain ⟨hmem, -⟩ | ⟨hmem, -⟩ := mem_applyAll_applyAll hheld hheld' hapart hrow
  · exact ⟨_, h, hmem⟩
  · exact ⟨_, h', hmem⟩

end WellFormed

theorem Session.view_eq (session : Session) (db : Database) :
    session.view db = Write.applyAll session.pending db := by
  cases session with
  | _ => rfl

/-- Whether a transaction has been begun, and not ended. -/
def Session.isOpen : Session → Bool
  | .idle => false
  | _ => true

/-- What a call does to the database and to the transaction it is made in. -/
inductive Performs (session : Session) (db : Database) (session' : Session) (db' : Database) :
    (s : Effect) → s.Answer → Prop
  | reads {s : Statement} {result : s.Result} (hwrite : s.write (session.view db) = none)
      (hsession : session' = session) (hdb : db' = db)
      (hanswer : s.answer (session.view db) = .ok result) :
      Performs session db session' db' (.statement s) (.ok result)
  | fails {s : Statement} {err : PersistenceError} (hopen : session'.isOpen = session.isOpen)
      (hpending : session'.pending = []) (hdb : db' = db) :
      Performs session db session' db' (.statement s) (.error err)
  | pends {s : Statement} {result : s.Result} {w : Write} (hopen : session.isOpen = true)
      (hopen' : session'.isOpen = true) (hanswer : s.answer (session.view db) = .ok result)
      (hwrite : s.write (session.view db) = some w)
      (hpending : session'.pending = session.pending ++ [w]) (hdb : db' = db) :
      Performs session db session' db' (.statement s) (.ok result)
  | writes {s : Statement} {result : s.Result} {w : Write} (hidle : session = .idle)
      (hidle' : session' = .idle) (hanswer : s.answer db = .ok result)
      (hwrite : s.write db = some w) (hdb : db' = w.apply db) :
      Performs session db session' db' (.statement s) (.ok result)
  | begins (hsession : session' = .open_ []) (hdb : db' = db) :
      Performs session db session' db' .begin_ (.ok ())
  | unbegun {err : PersistenceError} (hsession : session' = session) (hdb : db' = db) :
      Performs session db session' db' .begin_ (.error err)
  | commits (hidle : session' = .idle) (hdb : db' = Write.applyAll session.pending db) :
      Performs session db session' db' .commit (.ok ())
  | uncommitted {err : PersistenceError} (hidle : session' = .idle) (hdb : db' = db) :
      Performs session db session' db' .commit (.error err)
  | rollsBack {r : Except PersistenceError Unit} (hidle : session' = .idle) (hdb : db' = db) :
      Performs session db session' db' .rollback r
  | names {id : String} (hsession : session' = session) (hdb : db' = db) :
      Performs session db session' db' .newUUID id
  | asks {request : HSMRequest} {r : Except SignareError request.Result}
      (hsession : session' = session) (hdb : db' = db) :
      Performs session db session' db' (.hsm request) r

theorem performs_statement {source : UUIDSource} {s : Statement} {fault : Option PersistenceError}
    {session session' : Session} {w w' : Shared} {r : Except PersistenceError s.Result}
    (h : Effect.perform source (.statement s) fault session w = (r, session', w')) :
    Performs session w.db session' w'.db (.statement s) r := by
  cases session with
  | aborted =>
    cases h
    exact .fails rfl rfl rfl
  | idle =>
    obtain ⟨rfl, ⟨⟨err, rfl⟩, rfl⟩ | ⟨result, rfl, hanswer, rfl⟩⟩ := Effect.perform_statement_idle h
    · exact .fails rfl rfl rfl
    · cases hwrite : s.write w.db with
      | none => exact .reads hwrite rfl (by simp [Statement.written, hwrite]) hanswer
      | some write => exact .writes rfl rfl hanswer hwrite (by simp [Statement.written, hwrite])
  | open_ writes =>
    cases fault with
    | some err =>
      cases h
      exact .fails rfl rfl rfl
    | none =>
      obtain ⟨rfl, ⟨⟨err, rfl, -⟩, rfl⟩ | ⟨result, rfl, hanswer, rfl⟩⟩ :=
        Effect.perform_statement_open h
      · exact .fails rfl rfl rfl
      · cases hwrite : s.write (Write.applyAll writes w'.db) with
        | none => exact .reads hwrite (by simp) rfl hanswer
        | some write => exact .pends rfl rfl hanswer hwrite (by simp [Session.pending]) rfl

theorem performs {source : UUIDSource} {s : Effect} {fault : Option PersistenceError}
    {session session' : Session} {w w' : Shared} {r : s.Answer}
    (h : s.perform source fault session w = (r, session', w')) :
    Performs session w.db session' w'.db s r := by
  cases s with
  | statement s => exact performs_statement h
  | newUUID =>
    cases h
    exact .names rfl rfl
  | begin_ =>
    cases fault with
    | some err =>
      cases h
      exact .unbegun rfl rfl
    | none =>
      cases h
      exact .begins rfl rfl
  | commit =>
    cases fault with
    | some err =>
      cases h
      exact .uncommitted rfl rfl
    | none =>
      cases session with
      | open_ writes =>
        cases h
        exact .commits rfl rfl
      | idle =>
        cases h
        exact .uncommitted rfl rfl
      | aborted =>
        cases h
        exact .uncommitted rfl rfl
  | rollback =>
    cases fault with
    | some err =>
      cases h
      exact .rollsBack rfl rfl
    | none =>
      cases h
      exact .rollsBack rfl rfl
  | hsm request =>
    cases fault with
    | some err =>
      cases h
      exact .asks rfl rfl
    | none =>
      cases h
      exact .asks rfl rfl

/-- What holds while use cases run side by side: the database is well formed, and so is what each
transaction sees. -/
structure StorageInv {ι α : Type} (source : UUIDSource) (c : StorageConfig ι α) : Prop where
  given : ∀ i id, Given (c.threads i).history id → ∃ n < c.shared.uuids, id = source.newString n
  held : ∀ i, Held (c.threads i).session.pending c.shared.db
  apart : ∀ i j, i ≠ j → Apart (c.threads i).session.pending (c.threads j).session.pending
  wellFormed : WellFormed source c.shared.uuids c.shared.db
  views : ∀ i, WellFormed source c.shared.uuids
    (Write.applyAll (c.threads i).session.pending c.shared.db)

theorem storageInv_start {ι α : Type} {source : UUIDSource} {programs : ι → UseCase α} {w : Shared}
    (h : WellFormed source w.uuids w.db) :
    StorageInv source (Config.start .idle programs w) where
  given _ _ hgiven := absurd hgiven List.not_mem_nil
  held _ := held_nil h.keyed
  apart _ _ _ := apart_nil _
  wellFormed := h
  views _ := h

section Step

variable {ι α : Type} {source : UUIDSource} {c : StorageConfig ι α} {i : ι} {s : Effect}

theorem not_waitsFor_of_free (hfree : ¬ Blocked c i s) {w : Write}
    (hwrite : s.write (c.threads i).session c.shared.db = some w) {j : ι} (hj : j ≠ i) :
    ∀ w' ∈ (c.threads j).session.pending, ¬ w.waitsFor c.shared.db w' :=
  fun w' hw' hwait => hfree ⟨j, hj, w', hw', w, hwrite, hwait⟩

/-- A write that is made at once, outside a transaction. -/
theorem StorageInv.apart_write (h : StorageInv source c) {s : Statement}
    (hfree : ¬ Blocked c i (.statement s)) (hidle : (c.threads i).session = .idle) {w : Write}
    (hwrite : s.write c.shared.db = some w) (haccepted : w.Accepted c.shared.db) :
    Held [w] c.shared.db ∧ ∀ j, j ≠ i → Apart [w] (c.threads j).session.pending := by
  have hnil : Held [] c.shared.db := held_nil h.wellFormed.keyed
  have hwrite' : (Effect.statement s).write (c.threads i).session c.shared.db = some w := by
    rw [hidle]
    exact hwrite
  refine ⟨hnil.concat haccepted, fun j hj => ?_⟩
  exact (apart_nil _).concat hnil (h.held j) haccepted (not_waitsFor_of_free hfree hwrite' hj)

variable [DecidableEq ι] {faults : PersistenceError → Prop} {next : s.Answer → UseCase α}
  {r : s.Answer} {session : Session} {shared : Shared}

theorem StorageInv.pend (h : StorageInv source c) (hdb : shared.db = c.shared.db)
    (huuids : c.shared.uuids ≤ shared.uuids)
    (hgiven : ∀ j id, Given ((c.after i s next r session shared).threads j).history id →
      ∃ n < shared.uuids, id = source.newString n)
    (hheld : Held session.pending c.shared.db)
    (hapart : ∀ j, j ≠ i → Apart session.pending (c.threads j).session.pending)
    (hview : WellFormed source c.shared.uuids (Write.applyAll session.pending c.shared.db)) :
    StorageInv source (c.after i s next r session shared) := by
  refine ⟨hgiven, fun j => ?_, fun j k hjk => ?_, ?_, fun j => ?_⟩
  · rw [Config.after_shared, hdb]
    by_cases hj : j = i
    · subst hj
      simpa using hheld
    · simpa [hj] using h.held j
  · by_cases hj : j = i
    · subst hj
      simpa [hjk.symm] using hapart k hjk.symm
    · by_cases hk : k = i
      · subst hk
        simpa [hj] using (hapart j hj).symm
      · simpa [hj, hk] using h.apart j k hjk
  · rw [Config.after_shared, hdb]
    exact h.wellFormed.mono huuids
  · rw [Config.after_shared, hdb]
    by_cases hj : j = i
    · subst hj
      simpa using hview.mono huuids
    · simpa [hj] using (h.views j).mono huuids

theorem StorageInv.commit (h : StorageInv source c) {writes : List Write}
    (hdb : shared.db = Write.applyAll writes c.shared.db) (hpending : session.pending = [])
    (huuids : c.shared.uuids ≤ shared.uuids)
    (hgiven : ∀ j id, Given ((c.after i s next r session shared).threads j).history id →
      ∃ n < shared.uuids, id = source.newString n)
    (hheld : Held writes c.shared.db)
    (hapart : ∀ j, j ≠ i → Apart writes (c.threads j).session.pending)
    (hview : WellFormed source c.shared.uuids (Write.applyAll writes c.shared.db)) :
    StorageInv source (c.after i s next r session shared) := by
  refine ⟨hgiven, fun j => ?_, fun j k hjk => ?_, ?_, fun j => ?_⟩
  · rw [Config.after_shared, hdb]
    by_cases hj : j = i
    · subst hj
      simpa [hpending] using held_nil hheld.keyed
    · simpa [hj] using (h.held j).commit hheld (hapart j hj).symm
  · by_cases hj : j = i
    · subst hj
      simpa [hpending] using apart_nil _
    · by_cases hk : k = i
      · subst hk
        simpa [hj, hpending] using (apart_nil _).symm
      · simpa [hj, hk] using h.apart j k hjk
  · rw [Config.after_shared, hdb]
    exact hview.mono huuids
  · rw [Config.after_shared, hdb]
    by_cases hj : j = i
    · subst hj
      simpa [hpending] using hview.mono huuids
    · have hcommit := (h.views j).commit hview (h.held j) hheld (hapart j hj).symm
      simpa [hj] using hcommit.mono huuids

theorem StorageInv.step (h : StorageInv source c)
    (hallowed : Disciplined (c.threads i).history s)
    (hact : storage source faults c i s r session shared) :
    StorageInv source (c.after i s next r session shared) := by
  obtain ⟨fault, -, hfree, hperform⟩ := hact
  obtain ⟨huuids, hafter⟩ := given_after next hperform
  have hgiven : ∀ j id, Given ((c.after i s next r session shared).threads j).history id →
      ∃ n < shared.uuids, id = source.newString n := by
    intro j id hid
    obtain hold | ⟨-, heq, hlt⟩ := hafter j id hid
    · obtain ⟨n, hn, heq⟩ := h.given j id hold
      exact ⟨n, hn.trans_le huuids, heq⟩
    · exact ⟨c.shared.uuids, hlt, heq⟩
  have hkept (hsession : session = (c.threads i).session) (hdb : shared.db = c.shared.db) :
      StorageInv source (c.after i s next r session shared) := by
    apply h.pend hdb huuids hgiven
    · rw [hsession]
      exact h.held i
    · intro j hj
      rw [hsession]
      exact h.apart i j hj.symm
    · rw [hsession]
      exact h.views i
  have hdropped (hpending : session.pending = []) (hdb : shared.db = c.shared.db) :
      StorageInv source (c.after i s next r session shared) := by
    apply h.pend hdb huuids hgiven
    · rw [hpending]
      exact held_nil h.wellFormed.keyed
    · intro j _
      rw [hpending]
      exact apart_nil _
    · rw [hpending]
      exact h.wellFormed
  cases performs hperform with
  | reads _ hsession hdb => exact hkept hsession hdb
  | fails _ hpending hdb => exact hdropped hpending hdb
  | @pends s result w _ _ hanswer hwrite hpending hdb =>
    have hwait {j : ι} (hj : j ≠ i) := not_waitsFor_of_free (free_of_answered hfree hperform) hwrite hj
    rw [Session.view_eq] at hanswer hwrite
    obtain ⟨hview, haccepted⟩ := (h.views i).write (h.given i) hallowed hanswer hwrite
    apply h.pend hdb huuids hgiven
    · rw [hpending]
      exact (h.held i).concat haccepted
    · intro j hj
      rw [hpending]
      exact (h.apart i j hj.symm).concat (h.held i) (h.held j) haccepted (hwait hj)
    · rw [hpending, applyAll_append]
      exact hview
  | @writes s result w hidle hidle' hanswer hwrite hdb =>
    have hpending : session.pending = [] := by
      rw [hidle']
      rfl
    obtain ⟨hafter, haccepted⟩ := h.wellFormed.write (h.given i) hallowed hanswer hwrite
    have hdb' : shared.db = Write.applyAll [w] c.shared.db := hdb
    obtain ⟨hheld, hapart⟩ := h.apart_write (free_of_answered hfree hperform) hidle hwrite haccepted
    exact h.commit hdb' hpending huuids hgiven hheld hapart hafter
  | begins hsession hdb => exact hdropped (by rw [hsession]; rfl) hdb
  | unbegun hsession hdb => exact hkept hsession hdb
  | commits hidle hdb =>
    have hpending : session.pending = [] := by
      rw [hidle]
      rfl
    exact h.commit hdb hpending huuids hgiven (h.held i)
      (fun j hj => h.apart i j hj.symm) (h.views i)
  | uncommitted hidle hdb => exact hdropped (by rw [hidle]; rfl) hdb
  | rollsBack hidle hdb => exact hdropped (by rw [hidle]; rfl) hdb
  | names hsession hdb => exact hkept hsession hdb
  | asks hsession hdb => exact hkept hsession hdb

end Step

/-- The operations on stored resources. -/
inductive StorageCall
  | createApplication (input : CreateApplicationInput)
  | editApplication (input : EditApplicationInput)
  | deleteApplication (id : String)
  | createHSMModule (input : CreateHSMModuleInput)
  | editHSMModule (input : EditHSMModuleInput)
  | deleteHSMModule (id : String)
  | createHSMSlot (input : CreateHSMSlotInput)
  | editPin (input : EditPinInput)
  | editConfig (input : EditConfigInput)
  | deleteHSMSlot (id : String)
  | addLocalKey (input : AddLocalKeyInput)
  | removeLocalKey (id : String) (address : Address)
  | importAccount (data : ImportAccountRequestParams)
  | createAdmin (id : String) (description : Option String)
  | editAdmin (input : EditAdminInput)
  | deleteAdmin (id : String)
  | createUser (input : CreateUserInput)
  | editUser (input : EditUserInput)
  | deleteUser (key : ApplicationStandardID)
  | createAccount (key : AccountID)
  | deleteAccount (key : AccountID)
  | enableAccounts (input : EnableAccountsInput)
  | disableAccount (key : AccountID)
  | deleteAllAccountsForAddress (applicationId : String) (address : Address)

/-- What the server is started with: the hash, the curve, the managers of the modules and the roles
that are supported. -/
structure ServerSetup where
  keccak : Hash256
  curve : LKVSignatureManager.Curve
  create : HSMModuleKind → Except SignareError Unit
  supportedRoles : List Role

/-- The operation, of which only what it does matters. -/
def StorageCall.program (setup : ServerSetup) : StorageCall → UseCase Unit
  | createApplication input => do let _ ← Signare.createApplication input
  | editApplication input => do let _ ← Signare.editApplication input
  | deleteApplication id => do let _ ← Signare.deleteApplication id
  | createHSMModule input => do let _ ← Signare.createHSMModule .background input
  | editHSMModule input => do let _ ← Signare.editHSMModule .background input
  | deleteHSMModule id => do let _ ← Signare.deleteHSMModule .background id
  | createHSMSlot input => do let _ ← Signare.createHSMSlot setup.keccak .background input
  | editPin input => do let _ ← Signare.editPin .background input
  | editConfig input => do let _ ← Signare.editConfig setup.keccak .background input
  | deleteHSMSlot id => do let _ ← Signare.deleteHSMSlot .background id
  | addLocalKey input => Signare.addLocalKey setup.keccak input
  | removeLocalKey id address => Signare.removeLocalKey setup.keccak id address
  | importAccount data => do
    let _ ← adaptImportAccount setup.keccak setup.curve setup.create data
  | createAdmin id description => do let _ ← Signare.createAdmin id description
  | editAdmin input => do let _ ← Signare.editAdmin input
  | deleteAdmin id => do let _ ← Signare.deleteAdmin id
  | createUser input => do let _ ← Signare.createUser setup.supportedRoles input
  | editUser input => do let _ ← Signare.editUser setup.supportedRoles input
  | deleteUser key => do let _ ← Signare.deleteUser key
  | createAccount key => do let _ ← Signare.createAccount setup.keccak key
  | deleteAccount key => do let _ ← Signare.deleteAccount setup.keccak key
  | enableAccounts input => do let _ ← Signare.enableAccounts setup.keccak input
  | disableAccount key => do let _ ← Signare.disableAccount setup.keccak key
  | deleteAllAccountsForAddress applicationId address => do
    let _ ← Signare.deleteAllAccountsForAddress setup.keccak applicationId address

theorem keepsDiscipline_adaptImportAccount {keccak : Hash256} {curve : LKVSignatureManager.Curve}
    {create : HSMModuleKind → Except SignareError Unit} (data : ImportAccountRequestParams) :
    KeepsDiscipline (adaptImportAccount keccak curve create data) [] := by
  rw [adaptImportAccount]
  split
  · trivial
  · split
    · trivial
    · next privateKey _ =>
      have himport : KeepsDiscipline
          (importPrivateKey keccak curve create data.applicationId privateKey) [] := by
        apply (keepsDiscipline_of_only (only_byApplication writesNoRow_transactions _)).bind_any
        intro hsmConnection more
        apply keepsDiscipline_lift_bind
        intro address _
        exact (keepsDiscipline_addLocalKey keccak _).bind_any fun _ _ => trivial
      exact himport.attempt_any.bind_any fun _ _ => trivial

theorem StorageCall.keepsDiscipline (setup : ServerSetup) (call : StorageCall) :
    KeepsDiscipline (call.program setup) [] := by
  have hdone {β : Type} {p : UseCase β} (hp : KeepsDiscipline p []) :
      KeepsDiscipline (do let _ ← p) [] :=
    hp.bind_any fun _ _ => trivial
  have hdelete {β : Type} {p : UseCase β} (hp : p.Only WritesNoRow) :
      KeepsDiscipline (do let _ ← p) [] :=
    hdone (keepsDiscipline_of_only hp)
  cases call with
  | createApplication input => exact hdone (keepsDiscipline_createApplication input)
  | editApplication input => exact hdone (keepsDiscipline_editApplication input)
  | deleteApplication id => exact hdelete (only_deleteApplication writesNoRow_upkeep id trivial)
  | createHSMModule input => exact hdone (keepsDiscipline_createHSMModule .background input)
  | editHSMModule input => exact hdone (keepsDiscipline_editHSMModule .background input)
  | deleteHSMModule id =>
    exact hdone (keepsDiscipline_executeUseCaseInTransaction fun _ =>
      keepsDiscipline_of_only (only_deleteHSMModule writesNoRow_upkeep id trivial))
  | createHSMSlot input => exact hdone (keepsDiscipline_createHSMSlot setup.keccak .background input)
  | editPin input => exact hdone (keepsDiscipline_editPin .background input)
  | editConfig input => exact hdone (keepsDiscipline_editConfig setup.keccak .background input)
  | deleteHSMSlot id =>
    exact hdone (keepsDiscipline_executeUseCaseInTransaction fun _ =>
      keepsDiscipline_of_only (only_deleteHSMSlot writesNoRow_upkeep id trivial))
  | addLocalKey input => exact keepsDiscipline_addLocalKey setup.keccak input
  | removeLocalKey id address => exact keepsDiscipline_removeLocalKey setup.keccak id address
  | importAccount data => exact hdone (keepsDiscipline_adaptImportAccount data)
  | createAdmin id description => exact hdone (keepsDiscipline_createAdmin id description)
  | editAdmin input => exact hdone (keepsDiscipline_editAdmin input)
  | deleteAdmin id => exact hdelete (only_deleteAdmin writesNoRow_upkeep id trivial)
  | createUser input => exact hdone (keepsDiscipline_createUser setup.supportedRoles input)
  | editUser input => exact hdone (keepsDiscipline_editUser setup.supportedRoles input)
  | deleteUser key => exact hdelete (only_deleteUser writesNoRow_upkeep key trivial)
  | createAccount key => exact hdone (keepsDiscipline_createAccount setup.keccak key)
  | deleteAccount key => exact hdelete (only_deleteAccount writesNoRow_upkeep setup.keccak key trivial)
  | enableAccounts input => exact hdone (keepsDiscipline_enableAccounts setup.keccak input)
  | disableAccount key => exact hdelete (only_disableAccount writesNoRow_upkeep setup.keccak key trivial)
  | deleteAllAccountsForAddress applicationId address =>
    exact hdone (keepsDiscipline_deleteAllAccountsForAddress setup.keccak applicationId address)

/-- The operations at their beginning. -/
def storageCalls {ι : Type} (setup : ServerSetup)
    (calls : ι → StorageCall) (w : Shared) : StorageConfig ι Unit :=
  Config.start .idle (fun i => (calls i).program setup) w

theorem storageCalls_meets {ι : Type} {setup : ServerSetup}
    (calls : ι → StorageCall) (w : Shared) :
    (storageCalls setup calls w).Meets (fun _ => Disciplined) fun _ _ _ => True :=
  fun i => (calls i).keepsDiscipline setup

theorem storageInv_of_run {ι : Type} [DecidableEq ι] {source : UUIDSource}
    {setup : ServerSetup} {faults : PersistenceError → Prop} {calls : ι → StorageCall}
    {w : Shared} {c : StorageConfig ι Unit} (h : WellFormed source w.uuids w.db)
    (hrun : Run (storage source faults) (storageCalls setup calls w) c) :
    StorageInv source c := by
  refine (hrun.invariant (storageCalls_meets calls w) (storageInv_start h) ?_).1
  intro c i s next r session shared _ hinv _ hallowed hact
  exact hinv.step hallowed hact

/-- In every order of the steps of any operations, whichever of them fail: the database stays well
formed, and so does what an open transaction sees of it. -/
theorem wellFormed_of_run {ι : Type} [DecidableEq ι] {source : UUIDSource}
    {setup : ServerSetup} {faults : PersistenceError → Prop} {calls : ι → StorageCall}
    {w : Shared} {c : StorageConfig ι Unit} (h : WellFormed source w.uuids w.db)
    (hrun : Run (storage source faults) (storageCalls setup calls w) c) :
    WellFormed source c.shared.uuids c.shared.db ∧
      ∀ i, WellFormed source c.shared.uuids ((c.threads i).session.view c.shared.db) := by
  have hinv := storageInv_of_run h hrun
  refine ⟨hinv.wellFormed, fun i => ?_⟩
  rw [Session.view_eq]
  exact hinv.views i

/-- The coordinates of the base point of secp256k1. -/
def basePointX : Nat := 0x79be667ef9dcbbac55a06295ce870b07029bfcdb2dce28d959f2815b16f81798
def basePointY : Nat := 0x483ada7726a3c4655da4fbfc0e1108a8fd17b448a68554199c47d08ffb10d4b8

/-- secp256k1 for the private key one, which signs with the nonce one. -/
def unitSetup : ServerSetup where
  keccak := keccak256
  curve := {
    publicKey := fun _ => 0x04 :: beWord 32 basePointX ++ beWord 32 basePointY
    sign := fun d data => .ok (basePointX, (beNat data + basePointX * d) % curveOrder) }
  create := fun _ => .ok ()
  supportedRoles := []

/-- Two calls that create the same application, turn by turn. -/
def createdTwice : StorageConfig Bool Unit :=
  storageCalls unitSetup (fun _ => .createApplication ⟨some "acme", 1, none⟩)
    ⟨Database.empty, 0, ⟨fun _ => none, fun _ => []⟩⟩

def turnByTurn : List Bool := [true, false, true, false, true, false, true, false]

private theorem quiet_turnByTurn :
    ∀ n ≤ turnByTurn.length, Quiet (follow unaryUUIDs createdTwice (turnByTurn.take n)) := by
  decide +kernel

/-- One of them is stored. -/
theorem createdTwice_wellFormed :
    WellFormed unaryUUIDs (follow unaryUUIDs createdTwice turnByTurn).shared.uuids
        (follow unaryUUIDs createdTwice turnByTurn).shared.db ∧
      ((follow unaryUUIDs createdTwice turnByTurn).shared.db .application).length = 1 := by
  have hrun : Run (storage unaryUUIDs noFaults) createdTwice
      (follow unaryUUIDs createdTwice turnByTurn) :=
    run_follow turnByTurn quiet_turnByTurn
  exact ⟨(wellFormed_of_run (wellFormed_empty unaryUUIDs 0) hrun).1, by decide +kernel⟩

end Signare
