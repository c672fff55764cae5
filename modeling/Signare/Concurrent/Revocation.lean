import Signare.Concurrent.AccountSteps

/-!
# Revocation

A key is removed first and the accounts for it afterwards. In between, an operation that has seen
the key may be about to add an account for it. The accounts of an application stay accounts for keys
of its slot in the runs in which a removal, once it has removed a key, does not fail and deletes the
accounts when nobody who has seen the key is left.
-/

namespace Signare

open ByteCodec Interleaving

variable {ι : Type}

/-- Every account of the application is for a key of its slot. -/
def AccountsBacked (w : Shared) (applicationId : String) : Prop :=
  ∀ account ∈ w.db .account, (AccountRow.key account).applicationId = applicationId →
    KeyInSlot w applicationId (AccountRow.key account).address

/-- An operation that has seen the key of an address has not returned, and may yet add an account
for it. -/
def Awaits (calls : ι → AccountCall) (c : StorageConfig ι Unit) (address : Address) : Prop :=
  ∃ i userId addresses, calls i = .enableAccounts userId addresses ∧ address ∈ addresses ∧
    ¬ (c.threads i).Finished ∧ SawKey (c.threads i).history address

/-- A removal that has removed the key of an address has not returned, and has yet to delete the
accounts for it. -/
def Removing (calls : ι → AccountCall) (c : StorageConfig ι Unit) (address : Address) : Prop :=
  ∃ i, calls i = .deleteAllAccountsForAddress address ∧ ¬ (c.threads i).Finished ∧
    removedKey (c.threads i).history = true

/-- Nothing fails by itself in a removal that has removed its key. -/
def MayFail (calls : ι → AccountCall) (c : StorageConfig ι Unit) (i : ι) : Prop :=
  ∀ address, calls i = .deleteAllAccountsForAddress address →
    removedKey (c.threads i).history = false

/-- The accounts for an address are deleted when nobody is left who has seen its key. -/
def Outwaits (applicationId : String) (calls : ι → AccountCall) (c : StorageConfig ι Unit) (i : ι)
    (s : Effect) : Prop :=
  ∀ address, calls i = .deleteAllAccountsForAddress address →
    s = .statement (.deleteAll .account (filterByAddress applicationId address)) →
      ¬ Awaits calls c address

/-- The database and the key stores, where a removal goes through and outwaits who saw its key. -/
def revoking (source : UUIDSource) (applicationId : String) (calls : ι → AccountCall) :
    Environment ι Effect Effect.Answer SignareError Unit Session Shared :=
  limited (fun c i => storage source (fun _ => MayFail calls c i) c i)
    (Outwaits applicationId calls)

/-- Somebody answers for the accounts for an address: the slot has its key, or a removal is about to
delete them. -/
def Covered (applicationId : String) (calls : ι → AccountCall) (c : StorageConfig ι Unit)
    (address : Address) : Prop :=
  KeyInSlot c.shared applicationId address ∨ Removing calls c address

structure RevokeInv (source : UUIDSource) (applicationId : String) (slot : HSMSlotRow)
    (hsmModule : HSMModuleRow) (calls : ι → AccountCall) (c : StorageConfig ι Unit) : Prop where
  hasSlot : HasSlot applicationId slot hsmModule c.shared.db
  readable : ∀ account ∈ c.shared.db .account, AccountDB.mapFromDB account = .ok account
  covered : ∀ account ∈ c.shared.db .account, (AccountRow.key account).applicationId =
    applicationId → Covered applicationId calls c (AccountRow.key account).address
  awaited : ∀ address, Awaits calls c address → Covered applicationId calls c address
  settled : ∀ i, (c.threads i).session.pending = []
  session : ∀ i, (c.threads i).session = .idle ↔ began (c.threads i).history = false
  told : ∀ i, ∀ event ∈ (c.threads i).history, Told applicationId slot hsmModule event.1 event.2
  identifiers : Identifiers source slot.id (fun _ => True)
    (fun i => wrote (c.threads i).history = true) c

section Step

variable [DecidableEq ι] {keccak : Hash256} {source : UUIDSource} {applicationId : String}
  {slot : HSMSlotRow} {hsmModule : HSMModuleRow} {calls : ι → AccountCall}
  {c : StorageConfig ι Unit} {i : ι} {s : Effect} {next : s.Answer → UseCase Unit} {r : s.Answer}
  {session : Session} {shared : Shared} {address : Address}

/-- A removal has come to its end. -/
def Ends (calls : ι → AccountCall) (c : StorageConfig ι Unit) (i : ι) (address : Address) : Prop :=
  calls i = .deleteAllAccountsForAddress address ∧ (c.threads i).Finished ∧
    removedKey (c.threads i).history = true

/-- Who answers for the accounts for an address does so after a step, unless the step is the last of
a removal. -/
theorem covered_after
    (hrevises : Revises applicationId slot hsmModule (calls i) (c.threads i).history s r c.shared
      shared) (hprogram : (c.threads i).program = .call s next)
    (hcovered : Covered applicationId calls c address) :
    Covered applicationId calls (c.after i s next r session shared) address ∨
      Ends calls (c.after i s next r session shared) i address := by
  let c' := c.after i s next r session shared
  have hmine (hcall : calls i = .deleteAllAccountsForAddress address)
      (hremoved : removedKey (c'.threads i).history = true) :
      Covered applicationId calls c' address ∨ Ends calls c' i address := by
    by_cases hfinished : (c'.threads i).Finished
    · exact .inr ⟨hcall, hfinished, hremoved⟩
    · exact .inl (.inr ⟨i, hcall, hfinished, hremoved⟩)
  have hhistory : (c'.threads i).history = (c.threads i).history ++ [⟨s, r⟩] := by
    rw [Config.after_threads_self]
  cases hcovered with
  | inl hkey =>
    cases hrevises with
    | accounts happlication hslot hmodule hstores _ _ =>
      exact .inl (.inl (hkey.congr happlication hslot hmodule hstores))
    | @stored removed hcall hremoved _ _ hkeys =>
      by_cases haddress : address = removed
      · rw [← haddress] at hcall
        apply hmine hcall
        rw [hhistory, removedKey_concat, hremoved, Bool.or_true, Bool.or_true]
      · exact .inl (.inl (hkeys address haddress hkey))
    | @local_ removed hcall _ hwrote _ _ _ hkeys =>
      by_cases haddress : address = removed
      · rw [← haddress] at hcall
        apply hmine hcall
        rw [hhistory, removedKey_concat, hwrote, Bool.true_or, Bool.or_true]
      · exact .inl (.inl (hkeys address haddress hkey))
  | inr hremoving =>
    obtain ⟨j, hcall, hfinished, hremoved⟩ := hremoving
    by_cases hj : j = i
    · subst hj
      apply hmine hcall
      rw [hhistory, removedKey_concat, hremoved, Bool.true_or]
    · refine .inl (.inr ⟨j, hcall, ?_, ?_⟩)
      · rw [Config.after_threads_of_ne hj]
        exact hfinished
      · rw [Config.after_threads_of_ne hj]
        exact hremoved

omit [DecidableEq ι] in
theorem keyInSlot_of_sees (h : RevokeInv source applicationId slot hsmModule calls c)
    (hact : revoking source applicationId calls c i s r session shared)
    {userId : String} {addresses : List Address}
    (hcall : calls i = .enableAccounts userId addresses)
    (hallowed : (calls i).allowed keccak applicationId (c.threads i).history s)
    (hsaw : SawKey ((c.threads i).history ++ [⟨s, r⟩]) address) :
    SawKey (c.threads i).history address ∨ KeyInSlot c.shared applicationId address := by
  obtain ⟨⟨fault, -, -, hperform⟩, -⟩ := hact
  obtain ⟨row, storedSlot, hrow, hstored⟩ := h.hasSlot.current
  have hrowMem : row ∈ c.shared.db .hsmSlot ∧ row.id = slot.id := by
    rw [← mem_rowsAt, hrow]
    exact List.mem_singleton_self row
  have hsame : SameSlot row slot := h.hasSlot.slots row hrowMem.1 (.inr hrowMem.2)
  cases hsaw with
  | inl hlisted =>
    obtain ⟨slotName, pin, kind, listed, hmem, haddress⟩ := hlisted
    cases List.mem_append.mp hmem with
    | inl hold => exact .inl (.inl ⟨slotName, pin, kind, listed, hold, haddress⟩)
    | inr hnew =>
      cases List.mem_singleton.mp hnew
      obtain ⟨slot', hsmModule', hfound, hkind', -, rfl, rfl⟩ := hallowed
      obtain ⟨hsame', hmodule⟩ := hfound.same h.hasSlot.module_id (h.told i)
      obtain ⟨-, -, hlists⟩ := listAddresses_stores hperform
      obtain ⟨-, hpin, hkeys⟩ := hlists listed rfl
      have hname : slot'.slot = row.slot := hsame'.slot.trans hsame.slot.symm
      have hpin' : slot'.pin = row.pin := hsame'.pin.trans hsame.pin.symm
      rw [hname, hpin'] at hpin
      rw [hkeys, hname] at haddress
      right
      rw [HasSlot.keyInSlot_iff h.hasSlot hrow, ← hmodule, hkind']
      exact ⟨hpin, haddress⟩
  | inr hread =>
    obtain ⟨id, row', slot', hat, hslot', haddress⟩ := hread
    cases List.mem_append.mp hat with
    | inl hold => exact .inl (.inr ⟨id, row', slot', hold, hslot', haddress⟩)
    | inr hnew =>
      cases List.mem_singleton.mp hnew
      obtain ⟨found, hsmModule', hfound, hkind', rfl⟩ := hallowed userId addresses hcall
      obtain ⟨hsame', hmodule⟩ := hfound.same h.hasSlot.module_id (h.told i)
      have hreads : ∀ db, (Statement.getById .hsmSlot found.id).write db = none := fun _ => rfl
      obtain ⟨-, ⟨⟨err, herr, -⟩, -⟩ | ⟨rows, hrows, hanswer, -⟩⟩ :=
        perform_statement_settled (h.settled i)
          (fun hwrites => absurd (hreads _) hwrites.choose_spec) hperform
      · cases herr
      · cases hrows
        have hread : rowsAt found.id c.shared.db = [row'] := Except.ok.inj hanswer
        rw [hsame'.id, hrow, List.singleton_inj] at hread
        subst hread
        right
        rw [HasSlot.keyInSlot_iff h.hasSlot hrow, ← hmodule, hkind', mem_keyStore hslot']
        exact haddress

theorem awaits_after (h : RevokeInv source applicationId slot hsmModule calls c)
    (hprogram : (c.threads i).program = .call s next)
    (hallowed : (calls i).allowed keccak applicationId (c.threads i).history s)
    (hact : revoking source applicationId calls c i s r session shared)
    (hawaits : Awaits calls (c.after i s next r session shared) address) :
    Awaits calls c address ∨ KeyInSlot c.shared applicationId address ∧
      ∃ userId addresses, calls i = .enableAccounts userId addresses := by
  obtain ⟨j, userId, addresses, hcall, haddress, hfinished, hsaw⟩ := hawaits
  by_cases hj : j = i
  · subst hj
    rw [Config.after_threads_self] at hsaw
    have hunfinished : ¬ (c.threads j).Finished := Thread.not_finished_of_call hprogram
    cases keyInSlot_of_sees h hact hcall hallowed hsaw with
    | inl hold => exact .inl ⟨j, userId, addresses, hcall, haddress, hunfinished, hold⟩
    | inr hkey => exact .inr ⟨hkey, userId, addresses, hcall⟩
  · rw [Config.after_threads_of_ne hj] at hfinished hsaw
    exact .inl ⟨j, userId, addresses, hcall, haddress, hfinished, hsaw⟩

omit [DecidableEq ι] in
theorem answered_of_removed (h : RevokeInv source applicationId slot hsmModule calls c)
    (hcall : calls i = .deleteAllAccountsForAddress address) {statement : Statement}
    {answer : Except PersistenceError statement.Result}
    (hact : revoking source applicationId calls c i (.statement statement) answer session shared)
    (hbegan : began (c.threads i).history = false)
    (hremoved : removedKey (c.threads i).history = true) (hanswers : statement.Answers) :
    answer = statement.answer c.shared.db ∧ shared.db = statement.written c.shared.db := by
  obtain ⟨⟨fault, hfault, -, hperform⟩, -⟩ := hact
  have hnone : fault = none := by
    cases fault with
    | none => rfl
    | some err =>
      have hnot : removedKey (c.threads i).history = false := hfault err rfl address hcall
      rw [hremoved] at hnot
      cases hnot
  rw [hnone, (h.session i).mpr hbegan] at hperform
  obtain ⟨result, hresult⟩ := hanswers c.shared.db
  simp only [Effect.perform, Statement.perform, hresult] at hperform
  cases hperform
  exact ⟨hresult.symm, rfl⟩

omit [DecidableEq ι] in
theorem not_unread (h : RevokeInv source applicationId slot hsmModule calls c)
    {found row : HSMSlotRow} {hsmModule' : HSMModuleRow} {history : History}
    (htold : ∀ event ∈ history, Told applicationId slot hsmModule event.1 event.2)
    (hfound : FoundSlot applicationId history found hsmModule')
    (hread : ReadAt found.id history (.ok [row])) :
    ∃ row' storedSlot, rowsAt row.id c.shared.db = [row'] ∧
      HSMSlotDB.mapFromDB row' = .ok storedSlot := by
  have hrow : row.id = found.id := htold _ hread row (List.mem_singleton_self row)
  rw [hrow, (hfound.same h.hasSlot.module_id htold).1.id]
  exact h.hasSlot.current

/-- Where a removal comes to its end, nobody is left who has seen the key, and no account for it. -/
theorem swept_of_ends (h : RevokeInv source applicationId slot hsmModule calls c)
    (hprogram : (c.threads i).program = .call s next)
    (hallowed : (calls i).allowed keccak applicationId (c.threads i).history s)
    (hact : revoking source applicationId calls c i s r session shared)
    (htold : Told applicationId slot hsmModule s r)
    (hmeets : (c.after i s next r session shared).Meets
      (fun i => (calls i).allowed keccak applicationId) fun i => (calls i).expected applicationId)
    (hends : Ends calls (c.after i s next r session shared) i address) :
    ¬ Awaits calls (c.after i s next r session shared) address ∧
      ∀ account ∈ shared.db .account, (AccountRow.key account).applicationId = applicationId →
        (AccountRow.key account).address ≠ address := by
  obtain ⟨hcall, ⟨result, hdone⟩, hremoved⟩ := hends
  have hexpected := hmeets i
  rw [hdone] at hexpected
  obtain ⟨hbegan, hcompletion⟩ := hexpected address hcall hremoved
  rw [Config.after_threads_self] at hremoved hbegan hcompletion
  rw [began_concat] at hbegan
  have hbefore (hnot : (s.wroteSlot r || s.unstores r) = false) :
      removedKey (c.threads i).history = true := by
    rwa [removedKey_concat, hnot, Bool.or_false] at hremoved
  have hlast {event : Program.Event Effect.Answer}
      (hlast : ((c.threads i).history ++ [(⟨s, r⟩ : Program.Event Effect.Answer)]).getLast? =
        some event) : (⟨s, r⟩ : Program.Event Effect.Answer) = event :=
    Option.some.inj ((List.getLast?_concat ..).symm.trans hlast)
  have htolds : ∀ event ∈ (c.threads i).history ++ [⟨s, r⟩],
      Told applicationId slot hsmModule event.1 event.2 := by
    intro event hevent
    cases List.mem_append.mp hevent with
    | inl hold => exact h.told i event hold
    | inr hnew =>
      cases List.mem_singleton.mp hnew
      exact htold
  cases hcompletion with
  | deleted hdeleted =>
    cases hlast hdeleted
    have hremoved' : removedKey (c.threads i).history = true := hbefore rfl
    obtain ⟨-, hwritten⟩ := answered_of_removed h hcall hact hbegan hremoved' (AccountCall.answers_deleteAll _ _)
    refine ⟨fun hawaits => ?_, fun account haccount happlication haddress => ?_⟩
    · cases awaits_after h hprogram hallowed hact hawaits with
      | inl hold => exact hact.2 address hcall rfl hold
      | inr hnew =>
        obtain ⟨-, userId, addresses, hother⟩ := hnew
        rw [hcall] at hother
        cases hother
    · rw [hwritten] at haccount
      have hfilter := (filter_of_mem_deleteAll haccount).2
      simp [filterByAddress, happlication, haddress] at hfilter
  | failed hanswers hfailed =>
    cases hlast hfailed
    have hremoved' : removedKey (c.threads i).history = true := by
      apply hbefore
      rw [wroteSlot_error]
      rfl
    obtain ⟨hanswer, -⟩ := answered_of_removed h hcall hact hbegan hremoved' hanswers
    obtain ⟨result, hresult⟩ := hanswers c.shared.db
    rw [hresult] at hanswer
    cases hanswer
  | unread hfound hread hunread hbad =>
    cases hlast hunread
    have hremoved' : removedKey (c.threads i).history = true := hbefore rfl
    obtain ⟨hanswer, -⟩ := answered_of_removed h hcall hact hbegan hremoved' (AccountCall.answers_getById _ _)
    obtain ⟨row', storedSlot, hrow', hstored⟩ := not_unread h htolds hfound hread
    exact (hbad row' storedSlot ((Except.ok.inj hanswer).trans hrow') hstored).elim
  | @unlisted filter accounts hunlisted hbad =>
    cases hlast hunlisted
    have hremoved' : removedKey (c.threads i).history = true := hbefore rfl
    obtain ⟨hanswer, -⟩ := answered_of_removed h hcall hact hbegan hremoved' (AccountCall.answers_list _ _ _)
    have haccounts : accounts = (c.shared.db .account).filter filter := Except.ok.inj hanswer
    refine (hbad (accounts.map id) (Except.mapM_eq_ok fun account haccount => ?_)).elim
    rw [haccounts] at haccount
    exact h.readable account (List.mem_of_mem_filter haccount)

theorem RevokeInv.identifiers_after (h : RevokeInv source applicationId slot hsmModule calls c)
    {fault : Option PersistenceError}
    (hperform : s.perform source fault (c.threads i).session c.shared = (r, session, shared))
    (hrevises : Revises applicationId slot hsmModule (calls i) (c.threads i).history s r c.shared
      shared) :
    Identifiers source slot.id (fun _ => True)
      (fun j => wrote ((c.after i s next r session shared).threads j).history = true)
      (c.after i s next r session shared) := by
  have hwrote (j : ι) : wrote ((c.after i s next r session shared).threads j).history = true ↔
      wrote (c.threads j).history = true ∨ j = i ∧ s.wroteSlot r = true := by
    by_cases hj : j = i
    · subst hj
      rw [Config.after_threads_self, wrote_concat, Bool.or_eq_true_iff]
      simp
    · rw [Config.after_threads_of_ne hj]
      simp [hj]
  have hstill (hrows : rowsAt slot.id shared.db = rowsAt slot.id c.shared.db) :
      Identifiers source slot.id (fun _ => True)
        (fun j => wrote ((c.after i s next r session shared).threads j).history = true)
        (c.after i s next r session shared) := by
    apply h.identifiers.still hperform _ hrows fun j hj => (hwrote j).mpr (.inl hj)
    intro _ rows heq
    cases heq
    have hreads : ∀ db, (Statement.getById .hsmSlot slot.id).write db = none := fun _ => rfl
    obtain ⟨-, ⟨⟨err, herr, -⟩, -⟩ | ⟨result, hresult, hanswer, -⟩⟩ :=
      perform_statement_settled (h.settled i)
        (fun hwrites => absurd (hreads _) hwrites.choose_spec) hperform
    · cases herr
    · cases hresult
      exact (Except.ok.inj hanswer).symm
  cases hrevises with
  | accounts _ hslot _ _ _ _ => exact hstill (rowsAt_congr hslot)
  | stored _ _ _ hdb _ =>
    apply hstill
    rw [hdb]
  | local_ _ hnot hwroteSlot _ hhas hversion _ =>
    apply h.identifiers.effect hperform
    · intro answer heq
      cases heq
      cases hwroteSlot
    · intro j
      rw [hwrote, hwroteSlot]
      simp
    · rw [hnot]
      exact Bool.false_ne_true
    · obtain ⟨row, _, hrow, -⟩ := hhas.current
      exact .inr ⟨row, hrow⟩
    · exact hversion

theorem RevokeInv.step (h : RevokeInv source applicationId slot hsmModule calls c)
    (hkind : hsmModule.kind ≠ .akv)
    (hmeets : c.Meets (fun i => (calls i).allowed keccak applicationId)
      fun i => (calls i).expected applicationId)
    (hprogram : (c.threads i).program = .call s next)
    (hallowed : (calls i).allowed keccak applicationId (c.threads i).history s)
    (hact : revoking source applicationId calls c i s r session shared) :
    RevokeInv source applicationId slot hsmModule calls (c.after i s next r session shared) := by
  have hmeets' := hmeets.step (.call i hprogram hact)
  obtain ⟨⟨fault, -, -, hperform⟩, -⟩ := id hact
  have hread (row : HSMSlotRow) (hat : ReadAt slot.id (c.threads i).history (.ok [row])) :
      ∀ row' ∈ rowsAt slot.id c.shared.db, row'.resourceVersion = row.resourceVersion →
        row' = row := by
    intro row' hrow' hversion
    exact h.identifiers.versions.eq_of_version hrow'
      ⟨i, trivial, [row], List.mem_singleton_self row, hat⟩ hversion
  obtain ⟨hpending, hrevises, htold⟩ := revises h.hasSlot (h.told i) (h.settled i) (h.session i)
    hread hallowed hperform
  -- A removal ends only when there is nothing left to answer for.
  have hkeeps {address : Address} (hcovered : Covered applicationId calls c address)
      (hneeded : Awaits calls (c.after i s next r session shared) address ∨
        ∃ account ∈ shared.db .account, (AccountRow.key account).applicationId = applicationId ∧
          (AccountRow.key account).address = address) :
      Covered applicationId calls (c.after i s next r session shared) address := by
    cases covered_after hrevises hprogram hcovered with
    | inl hcovered => exact hcovered
    | inr hends =>
      obtain ⟨hnobody, hnone⟩ := swept_of_ends h hprogram hallowed hact htold hmeets' hends
      cases hneeded with
      | inl hawaits => exact absurd hawaits hnobody
      | inr haccount =>
        obtain ⟨account, haccount, happlication, haddress⟩ := haccount
        exact absurd haddress (hnone account haccount happlication)
  constructor
  · exact hrevises.hasSlot h.hasSlot
  · intro account haccount
    cases hrevises.account haccount with
    | inl hold => exact h.readable account hold
    | inr hnew => exact hnew.1
  · intro account haccount happlication
    apply hkeeps _ (.inr ⟨account, haccount, happlication, rfl⟩)
    cases hrevises.account haccount with
    | inl hold => exact h.covered account hold happlication
    | inr hnew =>
      obtain ⟨-, userId, addresses, hcall, hkey, hsaw | ⟨found, hsmModule', hfound, hakv⟩⟩ := hnew
      · obtain ⟨address, haddress, heq⟩ := List.mem_map.mp hkey
        rw [← heq] at hsaw ⊢
        exact h.awaited address ⟨i, userId, addresses, hcall, haddress,
          Thread.not_finished_of_call hprogram, hsaw⟩
      · rw [(hfound.same h.hasSlot.module_id (h.told i)).2] at hakv
        exact absurd hakv hkind
  · intro address hawaits
    apply hkeeps _ (.inl hawaits)
    cases awaits_after h hprogram hallowed hact hawaits with
    | inl hold => exact h.awaited address hold
    | inr hkey => exact .inl hkey.1
  · intro j
    by_cases hj : j = i
    · subst hj
      rw [Config.after_threads_self]
      exact hpending
    · rw [Config.after_threads_of_ne hj]
      exact h.settled j
  · intro j
    by_cases hj : j = i
    · subst hj
      rw [Config.after_threads_self]
      exact idle_iff_began (h.session j) hperform
    · rw [Config.after_threads_of_ne hj]
      exact h.session j
  · intro j event hevent
    by_cases hj : j = i
    · subst hj
      rw [Config.after_threads_self] at hevent
      cases List.mem_append.mp hevent with
      | inl hold => exact h.told j event hold
      | inr hnew =>
        cases List.mem_singleton.mp hnew
        exact htold
    · rw [Config.after_threads_of_ne hj] at hevent
      exact h.told j event hevent
  · exact h.identifiers_after hperform hrevises

theorem revokeInv_of_run {w : Shared}
    (hslot : HasSlot applicationId slot hsmModule w.db) (hkind : hsmModule.kind ≠ .akv)
    (hreadable : ∀ account ∈ w.db .account, AccountDB.mapFromDB account = .ok account)
    (hversions : FreshVersions source slot.id w) (hbacked : AccountsBacked w applicationId)
    (hrun : Run (revoking source applicationId calls)
      (Config.start .idle (fun i => (calls i).program keccak applicationId) w) c) :
    RevokeInv source applicationId slot hsmModule calls c := by
  have hstart : RevokeInv source applicationId slot hsmModule calls
      (Config.start .idle (fun i => (calls i).program keccak applicationId) w) := by
    refine ⟨hslot, hreadable, fun account haccount happlication => ?_, fun address hawaits => ?_,
      fun _ => rfl, fun _ => iff_of_true rfl rfl, nofun, ?_⟩
    · exact .inl (hbacked account haccount happlication)
    · obtain ⟨i, _, _, -, -, -, hsaw⟩ := hawaits
      obtain ⟨_, _, _, _, hmem, -⟩ | ⟨_, _, _, hat, -⟩ := hsaw
      · cases hmem
      · cases hat
    · obtain ⟨row, _, hrow, -⟩ := hslot.current
      exact identifiers_start (.inr ⟨row, hrow⟩) hversions
  obtain ⟨hinv, -⟩ := Run.invariant hrun (fun i => (calls i).meets) hstart
    fun c i s next r session shared hmeets hinv hprogram hallowed hact =>
      hinv.step hkind hmeets hprogram hallowed hact
  exact hinv

omit [DecidableEq ι] in
/-- Where no removal is under way, nobody but the slot answers for an account. -/
theorem RevokeInv.backed (h : RevokeInv source applicationId slot hsmModule calls c)
    (hfinished : ∀ i address, calls i = .deleteAllAccountsForAddress address →
      (c.threads i).Finished) : AccountsBacked c.shared applicationId := by
  intro account haccount happlication
  cases h.covered account haccount happlication with
  | inl hkey => exact hkey
  | inr hremoving =>
    obtain ⟨i, hcall, hunfinished, -⟩ := hremoving
    exact absurd (hfinished i _ hcall) hunfinished

/-- In the runs in which every removal goes through, and outwaits who saw its key: once all have
returned, every account of the application is for a key of its slot. -/
theorem accountsBacked_of_run {w : Shared}
    (hslot : HasSlot applicationId slot hsmModule w.db) (hkind : hsmModule.kind ≠ .akv)
    (hreadable : ∀ account ∈ w.db .account, AccountDB.mapFromDB account = .ok account)
    (hversions : FreshVersions source slot.id w) (hbacked : AccountsBacked w applicationId)
    (hrun : Run (revoking source applicationId calls)
      (Config.start .idle (fun i => (calls i).program keccak applicationId) w) c)
    (hfinished : c.Finished) : AccountsBacked c.shared applicationId := by
  have hinv := revokeInv_of_run hslot hkind hreadable hversions hbacked hrun
  exact hinv.backed fun i _ _ => hfinished i

/-- In these runs an account for a key that is gone is one that a removal under way is about to
delete, at any time. Once the removals have returned there is none. -/
theorem accountsCovered_of_run {w : Shared}
    (hslot : HasSlot applicationId slot hsmModule w.db) (hkind : hsmModule.kind ≠ .akv)
    (hreadable : ∀ account ∈ w.db .account, AccountDB.mapFromDB account = .ok account)
    (hversions : FreshVersions source slot.id w) (hbacked : AccountsBacked w applicationId)
    (hrun : Run (revoking source applicationId calls)
      (Config.start .idle (fun i => (calls i).program keccak applicationId) w) c) :
    (∀ account ∈ c.shared.db .account, (AccountRow.key account).applicationId = applicationId →
      KeyInSlot c.shared applicationId (AccountRow.key account).address ∨
        Removing calls c (AccountRow.key account).address) ∧
      ((∀ i address, calls i = .deleteAllAccountsForAddress address → (c.threads i).Finished) →
        AccountsBacked c.shared applicationId) := by
  have hinv := revokeInv_of_run hslot hkind hreadable hversions hbacked hrun
  exact ⟨hinv.covered, hinv.backed⟩

end Step

def storeApplication : Row .application :=
  ApplicationRow.mk "app" "internal-app" 1 none "version-app"

def storeUser : Row .user :=
  UserRow.mk ⟨"user", "app"⟩ "internal-user" ["transaction-signer"] "" "version-user"

def storeAccount : Row .account := AccountRow.mk ⟨onesAddress, "user", "app"⟩ "internal-account"

def storeModule : Row .hsmModule :=
  HSMModuleRow.mk "store" "internal-store" .softHSM "" "" "version-store"

def storeSlot : Row .hsmSlot :=
  HSMSlotRow.mk "slot" "internal-slot" "store" "app" "0" "pin" (.object []) "version-slot"

def storeDB : Database
  | .application => [storeApplication]
  | .user => [storeUser]
  | .account => [storeAccount]
  | .hsmModule => [storeModule]
  | .hsmSlot => [storeSlot]
  | _ => []

private theorem length_address_twos : (List.replicate 20 (0x22 : UInt8)).length = 20 := rfl

/-- The address whose digits are all two. -/
def twosAddress : Address := ⟨List.replicate 20 0x22, length_address_twos⟩

/-- An application with two keys and an account for one of them. -/
def storeWorld : Shared :=
  ⟨storeDB, 0, ⟨fun slot => if slot = "0" then some "pin" else none,
    fun slot => if slot = "0" then [onesAddress, twosAddress] else []⟩⟩

/-- An account is enabled for a key while the other key is removed. -/
def removesOther : Bool → AccountCall
  | false => .enableAccounts "user" [twosAddress]
  | true => .deleteAllAccountsForAddress onesAddress

def otherRemoved : StorageConfig Bool Unit :=
  Config.start .idle (fun i => (removesOther i).program zeroHash "app") storeWorld

def inTurns : List Bool := (List.replicate 8 [false, true]).flatten ++ List.replicate 8 false

theorem hasSlot_store : HasSlot "app" storeSlot storeModule storeDB := by
  refine ⟨⟨storeApplication, List.mem_singleton_self _, rfl⟩, rfl, fun row hrow _ => ?_,
    ⟨storeSlot, _, rfl, rfl⟩, List.mem_singleton_self _, rfl, fun row hrow _ => ?_⟩
  · rw [List.mem_singleton.mp hrow]
    exact SameSlot.refl _
  · exact List.mem_singleton.mp hrow

theorem backed_store : AccountsBacked storeWorld "app" := by
  intro account haccount _
  rw [List.mem_singleton.mp haccount]
  refine ⟨storeSlot, storeModule, ⟨hasSlot_store.application, List.mem_singleton_self _, rfl,
    List.mem_singleton_self _, rfl⟩, rfl, ?_⟩
  decide

private theorem steps_inTurns :
    (∀ n ≤ inTurns.length, Quiet (follow unaryUUIDs otherRemoved (inTurns.take n))) ∧
      (follow unaryUUIDs otherRemoved inTurns).Finished := by
  unfold Config.Finished
  constructor
  · decide +kernel
  · decide +kernel

private theorem run_inTurns (n : Nat) : Run (revoking unaryUUIDs "app" removesOther) otherRemoved
    (follow unaryUUIDs otherRemoved (inTurns.take n)) := by
  have hnobody (c : StorageConfig Bool Unit) : ¬ Awaits removesOther c onesAddress := by
    intro hawaits
    obtain ⟨i, userId, addresses, hcall, haddress, -⟩ := hawaits
    cases i with
    | true => cases hcall
    | false =>
      cases hcall
      exact absurd haddress (by decide)
  have hrun : Run (limited (storage unaryUUIDs noFaults) (Outwaits "app" removesOther)) otherRemoved
      (follow unaryUUIDs otherRemoved (inTurns.take n)) := by
    apply run_follow_limited
    intro m hm
    rw [List.length_take] at hm
    rw [List.take_take]
    refine ⟨steps_inTurns.1 _ (by omega), fun i s address hcall _ => ?_⟩
    cases i with
    | false => cases hcall
    | true =>
      cases hcall
      exact hnobody _
  apply hrun.mono
  intro c i s r session shared hact
  obtain ⟨⟨fault, hfault, hfree, hperform⟩, houtwaits⟩ := hact
  exact ⟨⟨fault, fun err herr => (hfault err herr).elim, hfree, hperform⟩, houtwaits⟩

/-- An account whose key is gone from the slot. -/
def LeftBehind (w : Shared) : Prop :=
  (∃ account ∈ w.db .account, (AccountRow.key account).applicationId = "app" ∧
      (AccountRow.key account).address = onesAddress) ∧
    (∀ row ∈ w.db .hsmSlot, HSMSlotRow.slot row = "0") ∧
    (∀ row ∈ w.db .hsmModule, HSMModuleRow.kind row = .softHSM) ∧
    onesAddress ∉ w.stores.keys "0"

theorem LeftBehind.exists_account {w : Shared} (h : LeftBehind w) :
    ∃ account ∈ w.db .account, (AccountRow.key account).applicationId = "app" ∧
      (AccountRow.key account).address = onesAddress ∧ ¬ KeyInSlot w "app" onesAddress := by
  obtain ⟨⟨account, haccount, happlication, haddress⟩, hslots, hmodules, hgone⟩ := h
  refine ⟨account, haccount, happlication, haddress, fun hkey => ?_⟩
  obtain ⟨slot, hsmModule, hconnected, hbacks⟩ := hkey
  rw [hmodules hsmModule hconnected.module_mem] at hbacks
  have hmem := hbacks.2
  rw [hslots slot hconnected.slot_mem] at hmem
  exact hgone hmem

private theorem steps_removing :
    LeftBehind (follow unaryUUIDs otherRemoved (inTurns.take 13)).shared ∧
      ((follow unaryUUIDs otherRemoved (inTurns.take 16)).threads true).Finished := by
  unfold LeftBehind
  constructor
  · decide +kernel
  · decide +kernel

private theorem freshVersions_store : FreshVersions unaryUUIDs storeSlot.id storeWorld := by
  intro row hrow n _
  rw [mem_rowsAt] at hrow
  rw [List.mem_singleton.mp hrow.1]
  exact version_ne_unary n

private theorem readable_store :
    ∀ account ∈ storeDB .account, AccountDB.mapFromDB account = .ok account := by
  intro account haccount
  rw [List.mem_singleton.mp haccount]
  rfl

/-- The account that is left is for the key that is left. -/
theorem otherRemoved_backed :
    AccountsBacked (follow unaryUUIDs otherRemoved inTurns).shared "app" :=
  accountsBacked_of_run hasSlot_store (by decide) readable_store freshVersions_store backed_store
    (run_inTurns inTurns.length) steps_inTurns.2

/-- The account for the key that is removed is one that the removal is about to delete, and is gone
when the removal returns, before the other call does. -/
theorem otherRemoved_covered :
    Removing removesOther (follow unaryUUIDs otherRemoved (inTurns.take 13)) onesAddress ∧
      AccountsBacked (follow unaryUUIDs otherRemoved (inTurns.take 16)).shared "app" := by
  constructor
  · obtain ⟨account, haccount, happlication, haddress, hgone⟩ := steps_removing.1.exists_account
    have hcovered := (accountsCovered_of_run hasSlot_store (by decide) readable_store
      freshVersions_store backed_store (run_inTurns 13)).1 account haccount happlication
    rw [haddress] at hcovered
    exact hcovered.resolve_left hgone
  · apply (accountsCovered_of_run hasSlot_store (by decide) readable_store freshVersions_store
      backed_store (run_inTurns 16)).2
    intro i address hcall
    cases i with
    | false => cases hcall
    | true => exact steps_removing.2

/-- An account is enabled for the key that is removed. -/
def removesSame : Bool → AccountCall
  | false => .enableAccounts "user" [onesAddress]
  | true => .deleteAllAccountsForAddress onesAddress

def sameRemoved : StorageConfig Bool Unit :=
  Config.start .idle (fun i => (removesSame i).program zeroHash "app") storeWorld

/-- The keys are listed first, then the key is removed, then the account is added. -/
def removedMeanwhile : List Bool :=
  List.replicate 7 false ++ List.replicate 8 true ++ List.replicate 9 false

private theorem steps_removedMeanwhile :
    (∀ n ≤ removedMeanwhile.length,
      Quiet (follow unaryUUIDs sameRemoved (removedMeanwhile.take n))) ∧
      (follow unaryUUIDs sameRemoved removedMeanwhile).Finished ∧
      LeftBehind (follow unaryUUIDs sameRemoved removedMeanwhile).shared := by
  unfold Config.Finished LeftBehind
  refine ⟨?_, ?_, ?_⟩
  · decide +kernel
  · decide +kernel
  · decide +kernel

/-- A removal that does not outwait who saw the key leaves an account for it. -/
theorem sameRemoved_not_backed : AccountsBacked storeWorld "app" ∧
    ∃ c, Run (storage unaryUUIDs noFaults) sameRemoved c ∧ c.Finished ∧
      ¬ AccountsBacked c.shared "app" := by
  obtain ⟨hquiet, hfinished, hleft⟩ := steps_removedMeanwhile
  refine ⟨backed_store, _, run_follow _ hquiet, hfinished, fun hbacked => ?_⟩
  obtain ⟨account, haccount, happlication, haddress, hgone⟩ := hleft.exists_account
  apply hgone
  rw [← haddress]
  exact hbacked account haccount happlication

end Signare
