import Signare.Concurrent.Environment
import Signare.Concurrent.SlotCalls
import Signare.Lib.Versions

/-!
# Identifiers under concurrency

No identifier is given to two calls, and a slot is written under no version twice: by whoever was
given the version, and once.
-/

namespace Signare

open Interleaving

variable {ι α : Type}

/-- No identifier is given to two calls, and no version is written twice. The calls of `reader` are
those whose reading of the slot matters, the calls of `spent` have used what they were given. -/
structure Identifiers (source : UUIDSource) (id : String) (reader spent : ι → Prop)
    (c : StorageConfig ι α) : Prop where
  given : ∀ i version, Given (c.threads i).history version →
    ∃ n < c.shared.uuids, version = source.newString n
  own : ∀ i j version, Given (c.threads i).history version → Given (c.threads j).history version →
    i = j
  versions : Versioned HSMSlotRow.resourceVersion {row | row ∈ rowsAt id c.shared.db}
    {row | ∃ i, reader i ∧ ∃ rows, row ∈ rows ∧ ReadAt id (c.threads i).history (.ok rows)}
    {version | (∃ n, c.shared.uuids ≤ n ∧ version = source.newString n) ∨
      ∃ i, ¬ spent i ∧ Given (c.threads i).history version}

/-- A version that is stored is not handed out again. -/
def FreshVersions (source : UUIDSource) (id : String) (w : Shared) : Prop :=
  ∀ row ∈ rowsAt id w.db, ∀ n, w.uuids ≤ n → HSMSlotRow.resourceVersion row ≠ source.newString n

theorem version_ne_unary (n : Nat) : "version-slot" ≠ unaryUUIDs.newString n := by
  intro h
  have hname : unaryUUIDs.newString n = String.ofList (List.replicate (n + 1) 'u') := rfl
  have hletters : (String.ofList (List.replicate (n + 1) 'u')).toList = List.replicate (n + 1) 'u' :=
    String.toList_ofList
  have hhead := congrArg List.head? ((congrArg String.toList (h.trans hname)).trans hletters)
  rw [List.replicate_succ, List.head?_cons] at hhead
  exact absurd hhead (by decide)

variable {source : UUIDSource} {id : String} {reader spent spent' : ι → Prop}

theorem identifiers_start {w : Shared} {programs : ι → UseCase α}
    (hone : rowsAt id w.db = [] ∨ ∃ row, rowsAt id w.db = [row])
    (hversions : FreshVersions source id w) :
    Identifiers source id reader spent (Config.start .idle programs w) := by
  refine ⟨nofun, nofun, ?_⟩
  have hinj : Set.InjOn HSMSlotRow.resourceVersion {row | row ∈ rowsAt id w.db} := by
    intro row hrow row' hrow' _
    have hmem : row ∈ rowsAt id w.db := hrow
    have hmem' : row' ∈ rowsAt id w.db := hrow'
    cases hone with
    | inl hnil =>
      rw [hnil] at hmem
      cases hmem
    | inr hone =>
      obtain ⟨row'', hone⟩ := hone
      rw [hone, List.mem_singleton] at hmem hmem'
      rw [hmem, hmem']
  have hstart : Versioned HSMSlotRow.resourceVersion {row | row ∈ rowsAt id w.db} ∅
      {version | ∃ n, w.uuids ≤ n ∧ version = source.newString n} := by
    apply Versioned.start hinj
    intro row hrow hused
    obtain ⟨n, hn, heq⟩ := hused
    exact hversions row hrow n hn heq
  apply hstart.mono (fun _ h => h)
  · intro row hrow
    obtain ⟨_, -, _, -, hat⟩ := hrow
    cases hat
  · intro version hversion
    cases hversion with
    | inl hfresh => exact hfresh
    | inr hgiven =>
      obtain ⟨_, -, hgiven⟩ := hgiven
      cases hgiven

section Step

variable [DecidableEq ι] {c : StorageConfig ι α}

/-- An identifier that a call has after a step, it had before it or was just given. -/
theorem given_after {i : ι} {s : Effect} (next : s.Answer → UseCase α) {r : s.Answer}
    {session : Session} {shared : Shared} {fault : Option PersistenceError}
    (hperform : s.perform source fault (c.threads i).session c.shared = (r, session, shared)) :
    c.shared.uuids ≤ shared.uuids ∧
      ∀ j version, Given ((c.after i s next r session shared).threads j).history version →
        Given (c.threads j).history version ∨
          j = i ∧ version = source.newString c.shared.uuids ∧ c.shared.uuids < shared.uuids := by
  have huuids : c.shared.uuids ≤ shared.uuids ∧ ∀ version : String,
      (⟨.newUUID, version⟩ : Program.Event Effect.Answer) = ⟨s, r⟩ →
        version = source.newString c.shared.uuids ∧ c.shared.uuids < shared.uuids := by
    cases s with
    | newUUID =>
      cases hperform
      refine ⟨Nat.le_succ _, fun version heq => ?_⟩
      cases heq
      exact ⟨rfl, Nat.lt_succ_self _⟩
    | statement s =>
      have hshared : shared.uuids = c.shared.uuids := by
        have hsnd := congrArg (fun result => (Prod.snd (Prod.snd result)).uuids) hperform
        exact hsnd.symm
      exact ⟨hshared.ge, nofun⟩
    | begin_ => cases fault <;> cases hperform <;> exact ⟨Nat.le_refl _, nofun⟩
    | commit =>
      have hshared : shared.uuids = c.shared.uuids := by
        cases fault with
        | some err =>
          cases hperform
          rfl
        | none =>
          cases hsession : (c.threads i).session with
          | _ =>
            rw [hsession] at hperform
            cases hperform
            rfl
      exact ⟨hshared.ge, nofun⟩
    | rollback => cases fault <;> cases hperform <;> exact ⟨Nat.le_refl _, nofun⟩
    | hsm request => cases fault <;> cases hperform <;> exact ⟨Nat.le_refl _, nofun⟩
  refine ⟨huuids.1, fun j version h => ?_⟩
  by_cases hj : j = i
  · subst hj
    rw [Config.after_threads_self] at h
    cases List.mem_append.mp h with
    | inl h => exact .inl h
    | inr h => exact .inr ⟨rfl, huuids.2 version (List.mem_singleton.mp h)⟩
  · rw [Config.after_threads_of_ne hj] at h
    exact .inl h

variable {i : ι} {s : Effect} {next : s.Answer → UseCase α} {r : s.Answer} {session : Session}
  {shared : Shared}

theorem Identifiers.given_after (h : Identifiers source id reader spent c)
    {fault : Option PersistenceError}
    (hperform : s.perform source fault (c.threads i).session c.shared = (r, session, shared))
    (j : ι) (version : String)
    (hgiven : Given ((c.after i s next r session shared).threads j).history version) :
    ∃ n < shared.uuids, version = source.newString n := by
  obtain ⟨hle, hafter⟩ := Signare.given_after next hperform
  cases hafter j version hgiven with
  | inl hold =>
    obtain ⟨n, hn, heq⟩ := h.given j version hold
    exact ⟨n, hn.trans_le hle, heq⟩
  | inr hnew => exact ⟨c.shared.uuids, hnew.2.2, hnew.2.1⟩

theorem Identifiers.own_after (h : Identifiers source id reader spent c)
    {fault : Option PersistenceError}
    (hperform : s.perform source fault (c.threads i).session c.shared = (r, session, shared))
    (j k : ι) (version : String)
    (hj : Given ((c.after i s next r session shared).threads j).history version)
    (hk : Given ((c.after i s next r session shared).threads k).history version) : j = k := by
  have hafter := (Signare.given_after next hperform).2
  have hfresh (k : ι) (hold : Given (c.threads k).history version)
      (heq : version = source.newString c.shared.uuids) : False := by
    obtain ⟨n, hn, hversion⟩ := h.given k version hold
    have heq' := source.newString_injective (hversion.symm.trans heq)
    omega
  cases hafter j version hj with
  | inl hj =>
    cases hafter k version hk with
    | inl hk => exact h.own j k version hj hk
    | inr hk => exact (hfresh j hj hk.2.1).elim
  | inr hj =>
    cases hafter k version hk with
    | inl hk => exact (hfresh k hk hj.2.1).elim
    | inr hk => exact hj.1.trans hk.1.symm

theorem readAt_after {j : ι} {answer : Except PersistenceError (List HSMSlotRow)}
    (h : ReadAt id ((c.after i s next r session shared).threads j).history answer) :
    ReadAt id (c.threads j).history answer ∨ j = i ∧
      (⟨.statement (.getById .hsmSlot id), answer⟩ : Program.Event Effect.Answer) = ⟨s, r⟩ := by
  by_cases hj : j = i
  · subst hj
    rw [Config.after_threads_self] at h
    cases List.mem_append.mp h with
    | inl h => exact .inl h
    | inr h => exact .inr ⟨rfl, List.mem_singleton.mp h⟩
  · rw [Config.after_threads_of_ne hj] at h
    exact .inl h

theorem Identifiers.still (h : Identifiers source id reader spent c)
    {fault : Option PersistenceError}
    (hperform : s.perform source fault (c.threads i).session c.shared = (r, session, shared))
    (hread : reader i → ∀ rows : List HSMSlotRow,
      (⟨.statement (.getById .hsmSlot id), .ok rows⟩ : Program.Event Effect.Answer) = ⟨s, r⟩ →
        rows = rowsAt id c.shared.db)
    (hrows : rowsAt id shared.db = rowsAt id c.shared.db) (hspent : ∀ j, spent j → spent' j) :
    Identifiers source id reader spent' (c.after i s next r session shared) := by
  obtain ⟨hle, hafter⟩ := Signare.given_after next hperform
  refine ⟨h.given_after hperform, h.own_after hperform, h.versions.mono ?_ ?_ ?_⟩
  · intro row hrow
    have hrow' : row ∈ rowsAt id shared.db := hrow
    rwa [hrows] at hrow'
  · intro row hrow
    obtain ⟨j, hcall, rows, hmem, hat⟩ := hrow
    cases readAt_after hat with
    | inl hold => exact .inl ⟨j, hcall, rows, hmem, hold⟩
    | inr hnew =>
      obtain ⟨rfl, heq⟩ := hnew
      rw [hread hcall rows heq] at hmem
      exact .inr hmem
  · intro version hunused
    cases hunused with
    | inl hfresh =>
      obtain ⟨n, hn, heq⟩ := hfresh
      exact .inl ⟨n, hle.trans hn, heq⟩
    | inr hgiven =>
      obtain ⟨j, hj, hgiven⟩ := hgiven
      cases hafter j version hgiven with
      | inl hold => exact .inr ⟨j, fun h => hj (hspent j h), hold⟩
      | inr hnew => exact .inl ⟨c.shared.uuids, Nat.le_refl _, hnew.2.1⟩

theorem Identifiers.effect (h : Identifiers source id reader spent c)
    {fault : Option PersistenceError}
    (hperform : s.perform source fault (c.threads i).session c.shared = (r, session, shared))
    (hread : ∀ answer : Except PersistenceError (List HSMSlotRow),
      (⟨.statement (.getById .hsmSlot id), answer⟩ : Program.Event Effect.Answer) ≠ ⟨s, r⟩)
    (hspent : ∀ j, spent' j ↔ spent j ∨ j = i) (hnot : ¬ spent i)
    (hone : rowsAt id shared.db = [] ∨ ∃ row, rowsAt id shared.db = [row])
    (hversion : ∀ row ∈ rowsAt id shared.db,
      Given (c.threads i).history (HSMSlotRow.resourceVersion row)) :
    Identifiers source id reader spent' (c.after i s next r session shared) := by
  obtain ⟨hle, hafter⟩ := Signare.given_after next hperform
  have hold {row : HSMSlotRow} (hrow : ∃ j, reader j ∧ ∃ rows, row ∈ rows ∧
      ReadAt id ((c.after i s next r session shared).threads j).history (.ok rows)) :
      ∃ j, reader j ∧ ∃ rows, row ∈ rows ∧ ReadAt id (c.threads j).history (.ok rows) := by
    obtain ⟨j, hcall, rows, hmem, hat⟩ := hrow
    cases readAt_after hat with
    | inl hat => exact ⟨j, hcall, rows, hmem, hat⟩
    | inr hnew => exact absurd hnew.2 (hread _)
  have hunused (version : String)
      (hversion : (∃ n, shared.uuids ≤ n ∧ version = source.newString n) ∨
        ∃ j, ¬ spent' j ∧
          Given ((c.after i s next r session shared).threads j).history version) :
      (∃ n, shared.uuids ≤ n ∧ version = source.newString n) ∨
        ∃ j, ¬ spent j ∧ j ≠ i ∧ Given (c.threads j).history version := by
    cases hversion with
    | inl hfresh => exact .inl hfresh
    | inr hgiven =>
      obtain ⟨j, hj, hgiven⟩ := hgiven
      rw [hspent, not_or] at hj
      cases hafter j version hgiven with
      | inl hold => exact .inr ⟨j, hj.1, hj.2, hold⟩
      | inr hnew => exact absurd hnew.1 hj.2
  have hsubset : {version | (∃ n, shared.uuids ≤ n ∧ version = source.newString n) ∨
      ∃ j, ¬ spent' j ∧ Given ((c.after i s next r session shared).threads j).history version} ⊆
      {version | (∃ n, c.shared.uuids ≤ n ∧ version = source.newString n) ∨
        ∃ j, ¬ spent j ∧ Given (c.threads j).history version} := by
    intro version hversion
    cases hunused version hversion with
    | inl hfresh =>
      obtain ⟨n, hn, heq⟩ := hfresh
      exact .inl ⟨n, hle.trans hn, heq⟩
    | inr hgiven =>
      obtain ⟨j, hj, -, hgiven⟩ := hgiven
      exact .inr ⟨j, hj, hgiven⟩
  refine ⟨h.given_after hperform, h.own_after hperform, ?_⟩
  cases hone with
  | inl hnil =>
    refine h.versions.mono ?_ (fun row hrow => .inl (hold hrow)) hsubset
    intro row hrow
    have hrow' : row ∈ rowsAt id shared.db := hrow
    rw [hnil] at hrow'
    cases hrow'
  | inr hrow =>
    obtain ⟨row, hrow⟩ := hrow
    have hgiven := hversion row (by rw [hrow]; exact List.mem_singleton_self row)
    have hwritten := h.versions.write (.inr ⟨i, hnot, hgiven⟩) hsubset (fun hused => by
      cases hunused _ hused with
      | inl hfresh =>
        obtain ⟨n, hn, heq⟩ := hfresh
        obtain ⟨m, hm, heq'⟩ := h.given i _ hgiven
        have := source.newString_injective (heq'.symm.trans heq)
        omega
      | inr hother =>
        obtain ⟨j, -, hj, hother⟩ := hother
        exact hj (h.own j i _ hother hgiven))
    refine hwritten.mono ?_ (fun row' hrow' => .inl (hold hrow')) (fun _ hused => hused)
    intro row' hrow'
    have hmem : row' ∈ rowsAt id shared.db := hrow'
    rw [hrow] at hmem
    exact List.mem_singleton.mp hmem

end Step

end Signare
