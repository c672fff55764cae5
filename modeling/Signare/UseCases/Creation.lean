import Signare.UseCases.Sound
import Signare.UseCases.SlotConfig

/-!
# Resources are created with their entries

A resource is created after the entries that join it to its parents. The state is sound again once
the row is there too.
-/

namespace Signare

open ByteCodec

variable {source : UUIDSource} {w : Shared}

theorem Sound.create {k : ResourceKind} {row : Row k.table} {entries : List (Row .entry)}
    {db : Database} {uuids : Nat} (h : Sound source w) (huuids : w.uuids ≤ uuids)
    (hkeyed : db.Keyed) (hentry : db .entry = w.db .entry ++ entries)
    (hother : ∀ t, t ≠ .entry → db t = w.db t)
    (hclash : (db k.table).any (clash k.table row) = false) (hfits : Signare.fits k.table row = true)
    (hreadable : Readable k.table row)
    (hissued : ∃ n < uuids, identity k.table row = source.newString n)
    (hnew : ∀ entry ∈ entries, (∃ n < uuids, EntryRow.id entry = source.newString n) ∧
      EntryDB.mapFromDB entry = .ok entry)
    (hentries : ∀ entry ∈ entries, ∃ d : Dependency, ∃ child : Row d.child,
      (⟨d.childKind, child⟩ : Resource) = ⟨k, row⟩ ∧ ∃ parent ∈ w.db d.parent,
        d.Names child parent ∧ d.Joins entry child parent)
    (hparents : ∀ (d : Dependency) (child : Row d.child),
      (⟨d.childKind, child⟩ : Resource) = ⟨k, row⟩ → ∃ parent ∈ w.db d.parent,
        d.Names child parent ∧ ∃ entry ∈ entries, d.Joins entry child parent) :
    Sound source { w with db := (Write.insert k.table row).apply db, uuids } := by
  have hrow : (Write.insert k.table row).apply db k.table = w.db k.table ++ [row] := by
    rw [Write.apply, Function.update_self, hother _ k.table_ne_entry]
  have hentry' : (Write.insert k.table row).apply db .entry = w.db .entry ++ entries := by
    rw [Write.apply, Function.update_of_ne k.table_ne_entry.symm, hentry]
  have hother' : ∀ t, t ≠ .entry → t ≠ k.table →
      (Write.insert k.table row).apply db t = w.db t := by
    intro t he ht
    rw [Write.apply, Function.update_of_ne ht, hother t he]
  have hall {P : (t : Table) → Row t → Prop} (hold : ∀ t, ∀ row' ∈ w.db t, P t row')
      (hentries : ∀ entry ∈ entries, P .entry entry) (hrow' : P k.table row) :
      ∀ t, ∀ row' ∈ (Write.insert k.table row).apply db t, P t row' := by
    intro t row' hmem
    by_cases he : t = .entry
    · subst he
      rw [hentry', List.mem_append] at hmem
      exact hmem.elim (hold .entry row') (hentries row')
    · by_cases ht : t = k.table
      · subst ht
        rw [hrow, List.mem_append, List.mem_singleton] at hmem
        cases hmem with
        | inl hmem => exact hold _ row' hmem
        | inr heq => rwa [heq]
      · rw [hother' t he ht] at hmem
        exact hold t row' hmem
  constructor
  · exact h.intact.create (hkeyed.insert hclash) hentry' hrow hother' hentries hparents
  · exact hall h.readable (fun entry hmem => (hnew entry hmem).2) hreadable
  · exact hall h.fits (fun _ _ => rfl) hfits
  · apply hall
    · intro t row' hmem
      obtain ⟨n, hn, hidentity⟩ := h.issued t row' hmem
      exact ⟨n, hn.trans_le huuids, hidentity⟩
    · exact fun entry hmem => (hnew entry hmem).1
    · exact hissued

theorem application_readable {application : ApplicationRow} {u : Unit}
    (h : ApplicationDB.mapToCreateDB application = .ok u)
    (hfits : fits .application application = true) : Readable .application application := by
  obtain ⟨_, hid, hinternal⟩ := Except.bind_eq_ok.mp h
  have hid' := notEmpty_eq_ok hid
  have hinternal' := notEmpty_eq_ok hinternal
  constructor
  · simp only [fits, varchar, Bool.and_eq_true, decide_eq_true_eq] at hfits
    simpa [validID, hid'] using hfits.1.1
  · simp only [ApplicationDB.mapFromDB, notEmpty_of_ne hid', notEmpty_of_ne hinternal',
      Except.ok_bind]
    rfl

theorem admin_readable {admin : AdminRow} {u : Unit} (h : AdminDB.mapToCreateDB admin = .ok u)
    (hfits : fits .admin admin = true) : Readable .admin admin := by
  obtain ⟨_, hid, hrest⟩ := Except.bind_eq_ok.mp h
  obtain ⟨_, hinternal, -⟩ := Except.bind_eq_ok.mp hrest
  have hid' := notEmpty_eq_ok hid
  have hinternal' := notEmpty_eq_ok hinternal
  constructor
  · simp only [fits, varchar, Bool.and_eq_true, decide_eq_true_eq] at hfits
    simpa [validID, hid'] using hfits.1
  · simp only [AdminDB.mapFromDB, notEmpty_of_ne hid', notEmpty_of_ne hinternal', Except.ok_bind]
    rfl

theorem hsmModule_readable {hsmModule : HSMModuleRow} {u : Unit}
    (h : HSMModuleDB.mapToCreateDB hsmModule = .ok u)
    (hfits : fits .hsmModule hsmModule = true) : Readable .hsmModule hsmModule := by
  obtain ⟨_, hid, hinternal⟩ := Except.bind_eq_ok.mp h
  have hid' := notEmpty_eq_ok hid
  have hinternal' := notEmpty_eq_ok hinternal
  constructor
  · simp only [fits, varchar, Bool.and_eq_true, decide_eq_true_eq] at hfits
    simpa [validID, hid'] using hfits.1
  · simp only [HSMModuleDB.mapFromDB, notEmpty_of_ne hid', notEmpty_of_ne hinternal',
      Except.ok_bind]
    rfl

theorem user_readable {user : UserRow} {u : Unit} (h : UserDB.mapToCreateDB user = .ok u)
    (hfits : fits .user user = true) : Readable .user user := by
  obtain ⟨_, hid, hrest⟩ := Except.bind_eq_ok.mp h
  obtain ⟨_, hinternal, hrest⟩ := Except.bind_eq_ok.mp hrest
  obtain ⟨_, happlication, -⟩ := Except.bind_eq_ok.mp hrest
  have hid' := notEmpty_eq_ok hid
  have hinternal' := notEmpty_eq_ok hinternal
  have happlication' := notEmpty_eq_ok happlication
  constructor
  · simp only [fits, varchar, Bool.and_eq_true, decide_eq_true_eq] at hfits
    simp [ApplicationStandardID.valid, validID, hid', happlication', hfits.1.1]
  · simp only [UserDB.mapFromDB, notEmpty_of_ne hinternal', Except.ok_bind]
    rfl

theorem account_mapToCreateDB {account : AccountRow} (hinternal : account.internalResourceId ≠ "")
    (hkey : account.key.valid = true) :
    AccountDB.mapToCreateDB account = .ok () ∧ AccountDB.mapFromDB account = .ok account := by
  simp only [AccountID.valid, Bool.and_eq_true, decide_eq_true_eq, Bool.not_eq_true'] at hkey
  obtain ⟨⟨haddress, huser⟩, happlication⟩ := hkey
  constructor
  · simp only [AccountDB.mapToCreateDB, notEmpty_of_ne hinternal, haddress, notEmpty_of_ne huser,
      notEmpty_of_ne happlication, Except.ok_bind, Bool.false_eq_true, if_false]
  · simp only [AccountDB.mapFromDB, notEmpty_of_ne hinternal, haddress, notEmpty_of_ne huser,
      notEmpty_of_ne happlication, Except.ok_bind, Bool.false_eq_true, if_false]
    rfl

theorem slot_readable {keccak : Hash256} {slot : HSMSlot} (hid : slot.id ≠ "")
    (hinternal : slot.internalResourceId ≠ "") {resourceVersion : String}
    (hfits : fits .hsmSlot (slotRow keccak slot resourceVersion) = true) :
    Readable .hsmSlot (slotRow keccak slot resourceVersion) := by
  obtain ⟨config, hconfig, -⟩ := HSMSlotDB.deserialize_serialize keccak slot.config
  constructor
  · simp only [fits, varchar, Bool.and_eq_true, decide_eq_true_eq] at hfits
    simp only [validID, Bool.and_eq_true, decide_eq_true_eq]
    exact ⟨hid, hfits.1.1.1.1⟩
  · refine ⟨⟨slot.id, slot.internalResourceId, slot.applicationId, slot.hsmModuleId, slot.slot,
      slot.pin, config, resourceVersion⟩, ?_⟩
    simp only [HSMSlotDB.mapFromDB, slotRow, notEmpty_of_ne hinternal, hconfig, Except.ok_bind]
    rfl

end Signare
