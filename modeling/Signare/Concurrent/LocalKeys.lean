import Signare.Concurrent.SlotSteps
import Signare.Concurrent.SlotVersions
import Signare.Lib.Overwriting

/-!
# The local keys of a slot under concurrency

Any number of operations on one slot, one statement at a time in any order. Each change of the slot
takes effect at one moment: an update of the keys when it is made, the change of a transaction when
it is committed. What is stored is what the changes made of the slot in the order of these moments.
-/

namespace Signare

open ByteCodec Interleaving

variable {ι : Type}

/-- The calls whose changes have taken effect, in the order in which they did. -/
def updates (log : List (Moment ι Effect.Answer Session)) : List ι :=
  (log.filter fun moment => moment.session.takesEffect moment.event.1 moment.event.2).map
    Moment.thread

theorem updates_concat (log : List (Moment ι Effect.Answer Session)) (i : ι) (session : Session)
    (s : Effect) (r : s.Answer) : updates (log ++ [⟨i, session, ⟨s, r⟩⟩]) =
      updates log ++ if session.takesEffect s r then [i] else [] := by
  rw [updates, List.filter_append, List.map_append, updates]
  congr 1
  cases h : session.takesEffect s r with
  | true => simp [h]
  | false => simp [h]

/-- What is left of a slot by calls that are made one after another. -/
def applyCalls (calls : ι → SlotCall) (content : Option SlotContent) (order : List ι) :
    Option SlotContent :=
  order.foldl (fun content i => (calls i).apply content) content

variable {keccak : Hash256} {id : String} {call : SlotCall} {history : History}
  {rows : List HSMSlotRow}

/-- The thread of a call, where the calls of `order` have taken effect and the slot has `rows`. -/
structure KeepsTo (keccak : Hash256) (id : String) (calls : ι → SlotCall) (order : List ι)
    (rows : List HSMSlotRow) (i : ι)
    (t : Thread Effect Effect.Answer SignareError Unit Session) : Prop where
  session : t.session = .idle ↔ began t.history = false
  phase : SlotPhase keccak id (calls i) t.history t.session (i ∈ order) rows
  reads : (calls i).transactional = false → ∀ answer, ReadAt id t.history answer →
    ∃ rows, answer = .ok rows ∧ (rows = [] ∨ ∃ row slot, rows = [row] ∧ row.id = id ∧
      HSMSlotDB.mapFromDB row = .ok slot)
  gone : (calls i).transactional = false → i ∈ order →
    t.history.getLast? = some ⟨.statement (.getById .hsmSlot id), .ok []⟩ →
      Overwriting.Overwritten (fun j => calls j = .deleteHSMSlot) order i

/-- What holds throughout, where the calls of `order` have taken effect in this order. -/
structure SlotInv (source : UUIDSource) (keccak : Hash256) (id : String) (calls : ι → SlotCall)
    (content : Option SlotContent) (order : List ι) (c : StorageConfig ι Unit) : Prop where
  stores : Stores (rowsAt id c.shared.db) (applyCalls calls content order)
  nodup : order.Nodup
  kept : ∀ i ∈ order, calls i ≠ .deleteHSMSlot →
    Overwriting.Overwritten (fun j => calls j = .deleteHSMSlot) order i ∨
      rowsAt id c.shared.db ≠ []
  alone : ∀ i j, ¬ (c.threads i).session.LeavesSlots → ¬ (c.threads j).session.LeavesSlots → i = j
  identifiers : Identifiers source id (fun i => (calls i).transactional = false) (· ∈ order) c
  threads : ∀ i, KeepsTo keccak id calls order (rowsAt id c.shared.db) i (c.threads i)

theorem SlotPhase.frame {session : Session} {effective effective' : Prop} {rows' : List HSMSlotRow}
    (h : SlotPhase keccak id call history session effective rows) (heffective : effective' ↔ effective)
    (hrows : rows' = rows ∨ session.LeavesSlots) :
    SlotPhase keccak id call history session effective' rows' := by
  cases h with
  | before hwrote hnot hsession => exact .before hwrote (fun h => hnot (heffective.mp h)) hsession
  | @pending writes w hcall hwrote hnot hsession hwrites hpends =>
    cases hrows with
    | inl hrows =>
      rw [hrows]
      exact .pending hcall hwrote (fun h => hnot (heffective.mp h)) hsession hwrites hpends
    | inr hleaves =>
      rw [hsession] at hleaves
      have hw := hleaves w (List.mem_append_right _ (List.mem_singleton_self w))
      rw [hpends.touchesSlots] at hw
      cases hw
  | deleted hcall hwrote h hsession hwrites =>
    exact .deleted hcall hwrote (heffective.mpr h) hsession hwrites
  | done hwrote h hsession hcommitted =>
    exact .done hwrote (heffective.mpr h) hsession hcommitted
  | undone hcall hwrote hnot hsession hcommitted =>
    exact .undone hcall hwrote (fun h => hnot (heffective.mp h)) hsession hcommitted

section Run

variable [DecidableEq ι] {source : UUIDSource} {calls : ι → SlotCall}
  {content : Option SlotContent} {order : List ι} {c : StorageConfig ι Unit}

variable {i : ι} {s : Effect} {next : s.Answer → UseCase Unit} {r : s.Answer} {session : Session}
  {shared : Shared}

/-- What has been read after a step was read before, or is what is stored. -/
def ReadsStored (c : StorageConfig ι Unit) (id : String) (i : ι) (s : Effect) (r : s.Answer) :
    Prop :=
  ∀ answer : Except PersistenceError (List HSMSlotRow),
    (⟨.statement (.getById .hsmSlot id), answer⟩ : Program.Event Effect.Answer) = ⟨s, r⟩ →
      (c.threads i).session = .idle ∧ answer = .ok (rowsAt id c.shared.db)

omit [DecidableEq ι] in
theorem SlotInv.alone_of_not_blocked (h : SlotInv source keccak id calls content order c)
    {statement : Statement} {w : Write} (hblocked : ¬ Blocked c i (.statement statement))
    (hwrite : statement.write ((c.threads i).session.view c.shared.db) = some w)
    (hacts : Acts id (rowsAt id c.shared.db) w) :
    ∀ j, j ≠ i → (c.threads j).session.LeavesSlots := by
  intro j hj
  cases (h.threads j).phase with
  | before _ _ hleaves => exact hleaves
  | @pending writes w' _ _ _ hsession _ hpends =>
    apply absurd _ hblocked
    refine ⟨j, hj, w', ?_, w, hwrite, hacts.waitsFor hpends.acts⟩
    rw [hsession]
    exact List.mem_append_right _ (List.mem_singleton_self w')
  | deleted _ _ _ hsession hwrites =>
    rw [hsession]
    exact hwrites
  | done _ _ hsession _ =>
    rw [hsession]
    exact leavesSlots_idle
  | undone _ _ _ hsession _ =>
    rw [hsession]
    exact leavesSlots_idle

omit [DecidableEq ι] in
theorem SlotInv.read_eq (h : SlotInv source keccak id calls content order c)
    (hcall : (calls i).transactional = false) {row : HSMSlotRow}
    (hread : ReadAt id (c.threads i).history (.ok [row])) :
    row.id = id ∧ ∀ row' ∈ rowsAt id c.shared.db, row'.resourceVersion = row.resourceVersion →
      row' = row := by
  constructor
  · obtain ⟨rows, hrows, hcases⟩ := (h.threads i).reads hcall _ hread
    cases hrows
    cases hcases with
    | inl hnil => cases hnil
    | inr hrow =>
      obtain ⟨row', slot, heq, hid, -⟩ := hrow
      cases heq
      exact hid
  · intro row' hrow' hversion
    exact h.identifiers.versions.eq_of_version hrow'
      ⟨i, hcall, [row], List.mem_singleton_self row, hread⟩ hversion

omit [DecidableEq ι] in
theorem SlotInv.readsStored (h : SlotInv source keccak id calls content order c)
    (hcall : (calls i).transactional = false)
    (hallowed : (calls i).allowed keccak id (c.threads i).history s)
    (hperform : s.perform source none (c.threads i).session c.shared = (r, session, shared)) :
    ReadsStored c id i s r := by
  intro answer heq
  cases heq
  have hidle : (c.threads i).session = .idle :=
    (h.threads i).session.mpr (hallowed.2.2 rfl hcall)
  rw [hidle] at hperform
  cases hperform
  exact ⟨hidle, rfl⟩

theorem not_read_of_takesEffect (htakes : session.takesEffect s r = true)
    (answer : Except PersistenceError (List HSMSlotRow)) :
    (⟨.statement (.getById .hsmSlot id), answer⟩ : Program.Event Effect.Answer) ≠ ⟨s, r⟩ := by
  intro heq
  cases heq
  have hquiet : (Statement.getById .hsmSlot id).aboutSlots = false := rfl
  have hfalse : session.takesEffect (.statement (.getById .hsmSlot id)) answer = false :=
    Session.takesEffect_of_not_aboutSlots hquiet session answer
  cases htakes.symm.trans hfalse

omit [DecidableEq ι] in
/-- The slot is there as long as nobody has deleted it since it was changed. -/
theorem SlotInv.overwritten (h : SlotInv source keccak id calls content order c) (hi : i ∈ order)
    (hcall : calls i ≠ .deleteHSMSlot) (hgone : rowsAt id c.shared.db = []) :
    Overwriting.Overwritten (fun j => calls j = .deleteHSMSlot) order i := by
  cases h.kept i hi hcall with
  | inl hover => exact hover
  | inr hthere => exact absurd hgone hthere

theorem SlotInv.keepsTo_after (h : SlotInv source keccak id calls content order c)
    {order' : List ι} {rows' : List HSMSlotRow}
    (hallowed : (calls i).allowed keccak id (c.threads i).history s)
    (hperform : s.perform source none (c.threads i).session c.shared = (r, session, shared))
    (hphase : SlotPhase keccak id (calls i) ((c.threads i).history ++ [⟨s, r⟩]) session (i ∈ order')
      rows')
    (horder : (∃ answer : Except PersistenceError (List HSMSlotRow),
      (⟨.statement (.getById .hsmSlot id), answer⟩ : Program.Event Effect.Answer) = ⟨s, r⟩) →
        order' = order) :
    KeepsTo keccak id calls order' rows' i
      ((c.after i s next r session shared).threads i) := by
  rw [Config.after_threads_self]
  refine ⟨idle_iff_began (h.threads i).session hperform, hphase, fun hcall answer hat => ?_,
    fun hcall hi hlast => ?_⟩
  · cases List.mem_append.mp hat with
    | inl hold => exact (h.threads i).reads hcall answer hold
    | inr hnew =>
      obtain ⟨-, hanswer⟩ :=
        h.readsStored hcall hallowed hperform answer (List.mem_singleton.mp hnew)
      refine ⟨_, hanswer, ?_⟩
      have hstores := h.stores
      cases hcontent : applyCalls calls content order with
      | none =>
        rw [hcontent] at hstores
        exact .inl hstores
      | some content' =>
        rw [hcontent] at hstores
        obtain ⟨row, hrow, slot, hslot, -⟩ := hstores
        refine .inr ⟨row, slot, hrow, ?_, hslot⟩
        have hmem : row ∈ rowsAt id c.shared.db := by
          rw [hrow]
          exact List.mem_singleton_self row
        exact of_decide_eq_true (List.mem_filter.mp hmem).2
  · have heq : (⟨.statement (.getById .hsmSlot id), .ok []⟩ : Program.Event Effect.Answer) =
        ⟨s, r⟩ := by
      let event : Program.Event Effect.Answer := ⟨s, r⟩
      have hconcat : ((c.threads i).history ++ [event]).getLast? = some event :=
        List.getLast?_concat ..
      exact (Option.some.inj (hconcat.symm.trans hlast)).symm
    rw [horder ⟨_, heq⟩] at hi ⊢
    obtain ⟨-, hanswer⟩ := h.readsStored hcall hallowed hperform _ heq
    apply h.overwritten hi
    · intro hdelete
      rw [hdelete] at hcall
      cases hcall
    · exact (Except.ok.inj hanswer).symm

theorem SlotInv.keepsTo_other (h : SlotInv source keccak id calls content order c) {j : ι}
    (hj : j ≠ i) {order' : List ι} {rows' : List HSMSlotRow}
    (horder : order' = order ∨ order' = order ++ [i])
    (hrows : rows' = rowsAt id c.shared.db ∨ (c.threads j).session.LeavesSlots) :
    KeepsTo keccak id calls order' rows' j
      ((c.after i s next r session shared).threads j) := by
  rw [Config.after_threads_of_ne hj]
  have hold := h.threads j
  have hmem : j ∈ order' ↔ j ∈ order := by
    cases horder with
    | inl heq => rw [heq]
    | inr heq => simp [heq, hj]
  refine ⟨hold.session, hold.phase.frame hmem hrows, hold.reads, fun hcall hin hlast => ?_⟩
  have hover := hold.gone hcall (hmem.mp hin) hlast
  cases horder with
  | inl heq =>
    rw [heq]
    exact hover
  | inr heq =>
    rw [heq]
    exact hover.concat hj

theorem SlotInv.alone_after (h : SlotInv source keccak id calls content order c)
    (hleaves : (c.threads i).session.LeavesSlots → ¬ session.LeavesSlots →
      ∀ j, j ≠ i → (c.threads j).session.LeavesSlots) (j k : ι)
    (hj : ¬ ((c.after i s next r session shared).threads j).session.LeavesSlots)
    (hk : ¬ ((c.after i s next r session shared).threads k).session.LeavesSlots) : j = k := by
  have hother {j k : ι} (hji : j = i) (hki : k ≠ i)
      (hmine : ¬ ((c.after i s next r session shared).threads j).session.LeavesSlots)
      (hits : ¬ (c.threads k).session.LeavesSlots) : j = k := by
    rw [hji, Config.after_threads_self] at hmine
    by_cases hbefore : (c.threads i).session.LeavesSlots
    · exact absurd (hleaves hbefore hmine k hki) hits
    · rw [hji]
      exact h.alone i k hbefore hits
  by_cases hji : j = i
  · by_cases hki : k = i
    · rw [hji, hki]
    · rw [Config.after_threads_of_ne hki] at hk
      exact hother hji hki hj hk
  · rw [Config.after_threads_of_ne hji] at hj
    by_cases hki : k = i
    · exact (hother hki hji hk hj).symm
    · rw [Config.after_threads_of_ne hki] at hk
      exact h.alone j k hj hk

omit [DecidableEq ι] in
theorem applyCalls_concat (calls : ι → SlotCall) (content : Option SlotContent) (order : List ι)
    (i : ι) : applyCalls calls content (order ++ [i]) =
      (calls i).apply (applyCalls calls content order) :=
  List.foldl_append ..

theorem SlotInv.step (h : SlotInv source keccak id calls content order c)
    (hallowed : (calls i).allowed keccak id (c.threads i).history s)
    (hact : storage source noFaults c i s r session shared) :
    SlotInv source keccak id calls content
      (order ++ if (c.threads i).session.takesEffect s r then [i] else [])
      (c.after i s next r session shared) := by
  obtain ⟨fault, hfault, hfree, hperform⟩ := hact
  have hnone : fault = none := by
    cases fault with
    | none => rfl
    | some err => exact (hfault err rfl).elim
  subst hnone
  have hblocked := hfree rfl
  have halone : ∀ statement w, s = .statement statement →
      statement.write ((c.threads i).session.view c.shared.db) = some w →
      Acts id (rowsAt id c.shared.db) w → ∀ j, j ≠ i → (c.threads j).session.LeavesSlots := by
    intro statement w heq hwrite hacts
    subst heq
    exact h.alone_of_not_blocked hblocked hwrite hacts
  have hlone : ¬ (c.threads i).session.LeavesSlots →
      ∀ j, j ≠ i → (c.threads j).session.LeavesSlots := by
    intro hloud j hj
    by_contra hother
    exact hj (h.alone j i hother hloud)
  cases outcome (h.threads i).phase (h.threads i).session h.stores hallowed
    (fun hcall row hread => h.read_eq hcall hread) halone hlone hperform with
  | still htakes hrows hphase hleaves =>
    rw [htakes, if_neg Bool.false_ne_true, List.append_nil]
    have hshared : rowsAt id (c.after i s next r session shared).shared.db =
        rowsAt id c.shared.db := hrows
    constructor
    · rw [hshared]
      exact h.stores
    · exact h.nodup
    · rw [hshared]
      exact h.kept
    · exact h.alone_after hleaves
    · apply h.identifiers.still hperform _ hrows fun _ hin => hin
      intro hcall rows heq
      exact Except.ok.inj (h.readsStored hcall hallowed hperform _ heq).2
    · intro j
      rw [hshared]
      by_cases hj : j = i
      · subst hj
        exact h.keepsTo_after hallowed hperform hphase fun _ => rfl
      · exact h.keepsTo_other hj (.inl rfl) (.inl rfl)
  | effect htakes hnot hchanges hphase hleaves hothers =>
    rw [htakes, if_pos rfl]
    have hstores : Stores (rowsAt id shared.db) (applyCalls calls content (order ++ [i])) := by
      rw [applyCalls_concat]
      exact hchanges.content _ h.stores
    have hnotRead : ∀ answer : Except PersistenceError (List HSMSlotRow),
        (⟨.statement (.getById .hsmSlot id), answer⟩ : Program.Event Effect.Answer) ≠ ⟨s, r⟩ :=
      not_read_of_takesEffect htakes
    constructor
    · exact hstores
    · rw [← List.concat_eq_append]
      exact h.nodup.concat hnot
    · intro j hj hcall
      by_cases hdelete : calls i = .deleteHSMSlot
      · have hne : j ≠ i := by
          intro heq
          rw [heq] at hcall
          exact hcall hdelete
        exact .inl (Overwriting.overwritten_concat hdelete hne)
      · exact .inr (hchanges.kept hdelete)
    · exact h.alone_after fun _ hloud => absurd hleaves hloud
    · apply h.identifiers.effect hperform hnotRead _ hnot hstores.nil_or_singleton
        hchanges.version
      intro j
      rw [List.mem_append, List.mem_singleton]
    · intro j
      by_cases hj : j = i
      · subst hj
        have hin : j ∈ order ++ [j] ↔ True := iff_true_intro (List.mem_append_right _
          (List.mem_singleton_self j))
        apply h.keepsTo_after hallowed hperform (hphase.frame hin (.inl rfl))
        intro hread
        obtain ⟨answer, heq⟩ := hread
        exact absurd heq (hnotRead answer)
      · apply h.keepsTo_other hj (.inr rfl)
        cases hothers with
        | inl hrows => exact .inl hrows
        | inr hquiet => exact .inr (hquiet j hj)

omit [DecidableEq ι] in
theorem slotInv_start {w : Shared} (hstores : Stores (rowsAt id w.db) content)
    (hversions : ∀ row ∈ rowsAt id w.db, ∀ n, w.uuids ≤ n →
      HSMSlotRow.resourceVersion row ≠ source.newString n) :
    SlotInv source keccak id calls content []
      (Config.start .idle (fun i => (calls i).program keccak id) w) := by
  exact ⟨hstores, List.nodup_nil, nofun, fun i j hi => absurd leavesSlots_idle hi,
    identifiers_start hstores.nil_or_singleton hversions,
    fun i => ⟨⟨fun _ => rfl, fun _ => rfl⟩, .before rfl nofun leavesSlots_idle,
      fun _ answer hat => (nomatch hat), nofun⟩⟩

/-- What holds throughout, and how each call ends. -/
theorem slotInv_of_steps {w : Shared} {log : List (Moment ι Effect.Answer Session)}
    (hstores : Stores (rowsAt id w.db) content)
    (hversions : ∀ row ∈ rowsAt id w.db, ∀ n, w.uuids ≤ n →
      HSMSlotRow.resourceVersion row ≠ source.newString n)
    (hsteps : Steps (storage source noFaults)
      (Config.start .idle (fun i => (calls i).program keccak id) w) log c) :
    SlotInv source keccak id calls content (updates log) c ∧
      c.Meets (fun i => (calls i).allowed keccak id) fun i => (calls i).expected id := by
  have hmeets : (Config.start Session.idle (fun i => (calls i).program keccak id) w).Meets
      (fun i => (calls i).allowed keccak id) fun i => (calls i).expected id :=
    fun i => (calls i).meets
  have hstart : (fun (log : List (Moment ι Effect.Answer Session)) c =>
      SlotInv source keccak id calls content (updates log) c) []
      (Config.start Session.idle (fun i => (calls i).program keccak id) w) :=
    slotInv_start hstores hversions
  apply hsteps.invariant hmeets hstart
  intro log c i s next r session shared hinv _ hallowed hact
  rw [updates_concat]
  exact hinv.step hallowed hact

/-- A call has ended without an error. -/
def succeeded (c : StorageConfig ι Unit) (i : ι) : Bool :=
  match (c.threads i).program with
  | .done (.ok _) => true
  | _ => false

omit [DecidableEq ι] in
/-- A call that has ended without an error has taken effect; one that has ended with an error has
not, or its change has been deleted since. -/
theorem SlotInv.finished (h : SlotInv source keccak id calls content order c)
    {result : Except SignareError Unit} (hdone : (c.threads i).program = .done result)
    (hexpected : (calls i).expected id result (c.threads i).history) :
    (succeeded c i = true → i ∈ order) ∧ (i ∈ order → succeeded c i = false →
      Overwriting.Overwritten (fun j => calls j = .deleteHSMSlot) order i) := by
  have hsucceeded : succeeded c i = true ↔ ∃ a, result = .ok a := by
    rw [succeeded, hdone]
    cases result with
    | ok a => simp
    | error err => simp
  have hkeeps := h.threads i
  by_cases hcall : (calls i).transactional = true
  · rw [SlotCall.expected, if_pos hcall] at hexpected
    obtain ⟨hended, hiff⟩ := hexpected
    have hidle : (c.threads i).session = .idle := hkeeps.session.mpr hended
    rw [hsucceeded, ← Bool.not_eq_true, hsucceeded, hiff]
    have hphase := hkeeps.phase
    rw [hidle] at hphase
    cases hphase with
    | before hwrote hnot _ =>
      refine ⟨fun hdone => ?_, fun hin => absurd hin hnot⟩
      rw [hwrote] at hdone
      cases hdone.1
    | pending _ _ _ hsession _ _ => cases hsession
    | deleted _ _ _ hsession _ => cases hsession
    | done hwrote hin _ hcommitted =>
      exact ⟨fun _ => hin, fun _ hnot => absurd ⟨hwrote, hcommitted hcall⟩ hnot⟩
    | undone _ _ hnot _ hcommitted =>
      refine ⟨fun hdone => ?_, fun hin => absurd hin hnot⟩
      rw [hcommitted] at hdone
      cases hdone.2
  · rw [SlotCall.expected, if_neg hcall] at hexpected
    have hkeys : (calls i).transactional = false := Bool.eq_false_of_not_eq_true hcall
    cases hkeeps.phase with
    | before hwrote hnot _ =>
      refine ⟨fun hdone => ?_, fun hin => absurd hin hnot⟩
      rw [hexpected.1 (hsucceeded.mp hdone)] at hwrote
      cases hwrote
    | pending h _ _ _ _ _ => exact absurd h hcall
    | deleted h _ _ _ _ =>
      rw [h] at hkeys
      cases hkeys
    | undone h _ _ _ _ => exact absurd h hcall
    | done hwrote hin _ _ =>
      refine ⟨fun _ => hin, fun _ hnot => ?_⟩
      cases result with
      | ok a =>
        rw [hsucceeded.mpr ⟨a, rfl⟩] at hnot
        cases hnot
      | error err =>
        obtain ⟨row, answer, hread, hlast, hbad⟩ := hexpected.2 ⟨err, rfl⟩ hwrote
        have hid : row.id = id := (h.read_eq hkeys hread).1
        rw [hid] at hlast
        obtain ⟨rows, hrows, hcases⟩ := hkeeps.reads hkeys answer (List.mem_of_getLast? hlast)
        subst hrows
        cases hcases with
        | inl hnil =>
          rw [hnil] at hlast
          exact hkeeps.gone hkeys hin hlast
        | inr hone =>
          obtain ⟨row', slot, hone, -, hslot⟩ := hone
          rw [hone] at hbad
          exact absurd hslot (hbad row' slot rfl)

end Run

theorem forgets_delete (calls : ι → SlotCall) : Overwriting.Forgets
    (fun content i => (calls i).apply content) fun i => calls i = .deleteHSMSlot := by
  intro i hi content content'
  change (calls i).apply content = (calls i).apply content'
  rw [hi]
  rfl

/-- In any order of the statements of any number of operations on a slot, once all have returned:
what is stored is what the successful ones, and no others, make of the slot one after another, in
the order in which their changes take effect. What is loaded are the keys that were added, each
under its address, and each is what is signed with. -/
theorem localKeys_atomic [DecidableEq ι] {source : UUIDSource} {keccak : Hash256} {id : String}
    {calls : ι → SlotCall} {content : Option SlotContent} {w : Shared}
    {log : List (Moment ι Effect.Answer Session)} {c : StorageConfig ι Unit}
    (hstores : Stores (rowsAt id w.db) content)
    (hversions : ∀ row ∈ rowsAt id w.db, ∀ n, w.uuids ≤ n →
      HSMSlotRow.resourceVersion row ≠ source.newString n)
    (hsteps : Steps (storage source noFaults)
      (Config.start .idle (fun i => (calls i).program keccak id) w) log c)
    (hfinished : c.Finished) :
    let order := (updates log).filter (succeeded c)
    order.Nodup ∧ (∀ i, i ∈ order ↔ succeeded c i = true) ∧
      Stores (rowsAt id c.shared.db) (applyCalls calls content order) ∧
      ∀ row ∈ rowsAt id c.shared.db, ∃ slot, HSMSlotDB.mapFromDB row = .ok slot ∧
        ∀ address privateKey, privateKey ≠ [] →
          slot.keyStore.lookup address = some (privateKeyText privateKey) →
          LKVSignatureManager.signingScalar slot.config.localKeyVault address =
            .ok (beNat privateKey) := by
  intro order
  obtain ⟨hinv, hmeets⟩ := slotInv_of_steps hstores hversions hsteps
  have hended (i : ι) : (succeeded c i = true → i ∈ updates log) ∧ (i ∈ updates log →
      succeeded c i = false →
        Overwriting.Overwritten (fun j => calls j = .deleteHSMSlot) (updates log) i) := by
    obtain ⟨result, hdone⟩ := hfinished i
    have hexpected := hmeets i
    rw [hdone] at hexpected
    exact hinv.finished hdone hexpected
  have hleft : applyCalls calls content order = applyCalls calls content (updates log) :=
    (forgets_delete calls).foldl_filter (fun i hi => (hended i).2 hi) content
  refine ⟨hinv.nodup.filter _, fun i => ?_, ?_, fun row hrow => ?_⟩
  · rw [List.mem_filter]
    exact ⟨fun h => h.2, fun h => ⟨(hended i).1 h, h⟩⟩
  · rw [hleft]
    exact hinv.stores
  · have hstored := hinv.stores
    cases hcontent : applyCalls calls content (updates log) with
    | none =>
      rw [hcontent] at hstored
      have hnil : rowsAt id c.shared.db = [] := hstored
      rw [hnil] at hrow
      cases hrow
    | some content' =>
      rw [hcontent] at hstored
      obtain ⟨row', hone, slot, hslot, -⟩ := hstored
      rw [hone, List.mem_singleton] at hrow
      subst hrow
      exact ⟨slot, hslot, fun address privateKey hne hlookup =>
        signingScalar_of_lookup hlookup hne⟩

def localModule : Row .hsmModule :=
  HSMModuleRow.mk "local" "internal-local" .lkv "" "" "version-local"

def emptySlot : Row .hsmSlot :=
  HSMSlotRow.mk "slot" "internal-slot" "local" "app" "0" "pin" (.object []) "version-slot"

def localDB : Database :=
  Function.update (Function.update Database.empty .hsmModule [localModule]) .hsmSlot [emptySlot]

private theorem length_twos : (List.replicate 20 (0x22 : UInt8)).length = 20 := rfl

def addsOfBoth : Bool → SlotCall
  | false => .addLocalKey [1] onesAddress
  | true => .addLocalKey [2] ⟨List.replicate 20 0x22, length_twos⟩

def bothAdds : StorageConfig Bool Unit :=
  Config.start .idle (fun i => (addsOfBoth i).program zeroHash "slot")
    ⟨localDB, 0, ⟨fun _ => none, fun _ => []⟩⟩

/-- The first has read the slot when the second adds its key. -/
def overtaken : List Bool := List.replicate 6 false ++ List.replicate 8 true ++ [false]

private theorem quiet_overtaken :
    ∀ n ≤ overtaken.length, Quiet (follow unaryUUIDs bothAdds (overtaken.take n)) := by
  decide +kernel

private theorem finished_overtaken : (follow unaryUUIDs bothAdds overtaken).Finished := by
  unfold Config.Finished
  decide +kernel

theorem emptySlot_loads : Stores (rowsAt "slot" localDB) (some ⟨"pin", fun _ => none⟩) :=
  ⟨emptySlot, rfl, _, rfl, rfl, fun _ => rfl⟩

/-- Only the key of the second is added. -/
theorem bothAdds_atomic : ∃ order : List Bool, order.Nodup ∧
    (∀ i, i ∈ order ↔ succeeded (follow unaryUUIDs bothAdds overtaken) i = true) ∧
    succeeded (follow unaryUUIDs bothAdds overtaken) false = false ∧
    succeeded (follow unaryUUIDs bothAdds overtaken) true = true ∧
    Stores (rowsAt "slot" (follow unaryUUIDs bothAdds overtaken).shared.db)
      (applyCalls addsOfBoth (some ⟨"pin", fun _ => none⟩) order) := by
  have hrun : Run (storage unaryUUIDs noFaults) bothAdds (follow unaryUUIDs bothAdds overtaken) :=
    run_follow overtaken quiet_overtaken
  obtain ⟨log, hsteps⟩ := hrun.steps
  have hversions : ∀ row ∈ rowsAt "slot" localDB, ∀ n, 0 ≤ n →
      HSMSlotRow.resourceVersion row ≠ unaryUUIDs.newString n := by
    intro row hrow n _
    have hrows : rowsAt "slot" localDB = [emptySlot] := rfl
    rw [hrows, List.mem_singleton] at hrow
    rw [hrow]
    exact version_ne_unary n
  obtain ⟨hnodup, hiff, hstored, -⟩ :=
    localKeys_atomic emptySlot_loads hversions hsteps finished_overtaken
  exact ⟨_, hnodup, hiff, by decide +kernel, by decide +kernel, hstored⟩

end Signare
