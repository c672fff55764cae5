import Signare.UseCases.SlotConfig
import Signare.Entities.TextCodecs

/-!
# What is stored of a slot

The row of a slot as its users see it, the pin and the private keys by address, and what the writes
of a transaction do to it.
-/

namespace Signare

open ByteCodec

/-- The rows with the id of a slot. The id is the primary key. -/
def rowsAt (id : String) (db : Database) : List HSMSlotRow :=
  (db .hsmSlot).filter fun row => keyOf .hsmSlot row = id

/-- What a slot holds: its pin, and the text of the private key of each address. -/
structure SlotContent where
  pin : String
  privateKey : Address → Option String

/-- What is read of a row. -/
def HSMSlotRow.Loads (row : HSMSlotRow) (content : SlotContent) : Prop :=
  ∃ slot, HSMSlotDB.mapFromDB row = .ok slot ∧ slot.pin = content.pin ∧
    ∀ address, slot.keyStore.lookup address = content.privateKey address

/-- The slot is there with its content, or is not there. -/
def Stores (rows : List HSMSlotRow) : Option SlotContent → Prop
  | none => rows = []
  | some content => ∃ row, rows = [row] ∧ row.Loads content

/-- What is stored is one thing. -/
theorem Stores.exists_some {row : HSMSlotRow} {content : Option SlotContent}
    (h : Stores [row] content) : ∃ content', content = some content' ∧ row.Loads content' := by
  cases content with
  | none => cases h
  | some content' =>
    obtain ⟨row', hrow, hloads⟩ := h
    cases hrow
    exact ⟨content', rfl, hloads⟩

theorem HSMSlotDB.internalResourceId_ne_of_mapFromDB {row : HSMSlotRow} {slot : HSMSlot}
    (h : HSMSlotDB.mapFromDB row = .ok slot) : row.internalResourceId ≠ "" := by
  obtain ⟨_, hid, -⟩ := Except.bind_eq_ok.mp h
  exact notEmpty_eq_ok hid

theorem HSMSlotDB.mapFromDB_eq_readSlot {row : HSMSlotRow} {config : HSMSlot.SlotConfig}
    (hid : row.internalResourceId ≠ "") (h : deserialize row.configuration = .ok config) :
    HSMSlotDB.mapFromDB row = .ok (readSlot row config) := by
  rw [HSMSlotDB.mapFromDB, notEmpty_of_ne hid, h]
  rfl

/-- A row is read as it was written. -/
theorem HSMSlotRow.loads_serialize {keccak : Hash256} {row : HSMSlotRow}
    {config : HSMSlot.SlotConfig} (hid : row.internalResourceId ≠ "")
    (hconfiguration : row.configuration = HSMSlotDB.serialize keccak config) :
    row.Loads ⟨row.pin, fun address => (config.localKeyVault.getD ∅).lookup address⟩ := by
  obtain ⟨config', hload, -, -, hlookup⟩ := HSMSlotDB.deserialize_serialize keccak config
  rw [← hconfiguration] at hload
  exact ⟨_, HSMSlotDB.mapFromDB_eq_readSlot hid hload, rfl, hlookup⟩

/-- A pin is changed under the keys. -/
theorem HSMSlotRow.Loads.assignPin {row : HSMSlotRow} {content : SlotContent}
    (h : row.Loads content) (pin version : String) :
    (Signare.assignPin pin version row).Loads { content with pin } := by
  obtain ⟨slot, hslot, -, hlookup⟩ := h
  obtain ⟨hconfig, -⟩ := HSMSlotDB.mapFromDB_ok hslot
  have hid : row.internalResourceId ≠ "" := HSMSlotDB.internalResourceId_ne_of_mapFromDB hslot
  have hread : HSMSlotDB.mapFromDB (Signare.assignPin pin version row) =
      .ok (readSlot (Signare.assignPin pin version row) slot.config) :=
    HSMSlotDB.mapFromDB_eq_readSlot hid hconfig
  exact ⟨_, hread, rfl, hlookup⟩

/-- The keys are changed under the pin. -/
theorem HSMSlotRow.Loads.assignConfig {keccak : Hash256} {row : HSMSlotRow} {content : SlotContent}
    (h : row.Loads content) (slot : HSMSlot) (keyStore : HSMSlot.KeyStore) (version : String) :
    (Signare.assignConfig (HSMSlotDB.serialize keccak (slot.withKeyStore keyStore).config) version
      row).Loads ⟨content.pin, fun address => keyStore.lookup address⟩ := by
  obtain ⟨slot', hslot', hpin, -⟩ := h
  have hpin' : row.pin = content.pin := by
    rw [← hpin, (HSMSlotDB.mapFromDB_ok hslot').2]
  rw [← hpin']
  let row' := Signare.assignConfig
    (HSMSlotDB.serialize keccak (slot.withKeyStore keyStore).config) version row
  have hid : row.internalResourceId ≠ "" := HSMSlotDB.internalResourceId_ne_of_mapFromDB hslot'
  have hid' : row'.internalResourceId ≠ "" := hid
  have hconfiguration : row'.configuration =
      HSMSlotDB.serialize keccak (slot.withKeyStore keyStore).config := rfl
  exact loads_serialize hid' hconfiguration

namespace LKVSignatureManager

/-- An error of the manager, or one that it passes on. -/
inductive SignError
  | internal (description : String)
  | passedOn (err : SignareError)

/-- `privateKey.D` of `Sign`. -/
def signingScalar (localKeyVault : Option HSMSlot.KeyStore) (from_ : Address) :
    Except SignError Nat :=
  match localKeyVault.bind (AList.lookup from_) with
  | none => .error (.internal "cannot obtain private key to sign")
  | some privateKeyStr =>
    match newHexBytesFromString privateKeyStr with
    | .error err => .error (.passedOn (internalFromErr err ""))
    | .ok privateKeyBytes => .ok (beNat privateKeyBytes)

end LKVSignatureManager

theorem newHexBytesFromString_privateKeyText {privateKey : HexBytes} (h : privateKey ≠ []) :
    newHexBytesFromString (privateKeyText privateKey) = .ok privateKey := by
  have htext : (privateKeyText privateKey).toList = hexEncode privateKey := by
    simp [privateKeyText, HexBytes.encode]
  have hne : hexEncode privateKey ≠ [] := by
    cases privateKey with
    | nil => exact absurd rfl h
    | cons b bs => exact List.cons_ne_nil _ _
  have hplain : checkPrefixFromString (hexEncode privateKey) = false :=
    (areDigits_hexEncode privateKey).checkPrefix
  rw [newHexBytesFromString, htext, if_neg hne, hplain]
  simp only [Bool.false_eq_true, if_false, hexDecode_hexEncode]

theorem signingScalar_of_lookup {slot : HSMSlot} {address : Address} {privateKey : HexBytes}
    (h : slot.keyStore.lookup address = some (privateKeyText privateKey))
    (hne : privateKey ≠ []) :
    LKVSignatureManager.signingScalar slot.config.localKeyVault address =
      .ok (beNat privateKey) := by
  have hlookup : slot.config.localKeyVault.bind (AList.lookup address) =
      some (privateKeyText privateKey) := by
    rw [HSMSlot.keyStore] at h
    cases hvault : slot.config.localKeyVault with
    | none =>
      rw [hvault] at h
      cases h
    | some keyStore =>
      rw [hvault] at h
      exact h
  rw [LKVSignatureManager.signingScalar, hlookup]
  simp only [newHexBytesFromString_privateKeyText hne]

/-- Whether a write changes the table of slots. -/
def Write.touchesSlots : Write → Bool
  | .insert .hsmSlot _ => true
  | .remove .hsmSlot identities => !identities.isEmpty
  | .change .hsmSlot identities _ => !identities.isEmpty
  | _ => false

theorem Write.apply_of_not_touchesSlots {w : Write} (h : w.touchesSlots = false) (db : Database) :
    w.apply db .hsmSlot = db .hsmSlot := by
  cases w with
  | insert t row =>
    cases t with
    | hsmSlot => cases h
    | _ => rfl
  | remove t identities =>
    cases t with
    | hsmSlot =>
      have hnil : identities = [] := by simpa [touchesSlots] using h
      rw [hnil, Write.apply, Function.update_self]
      simp
    | _ => rfl
  | change t identities assign =>
    cases t with
    | hsmSlot =>
      have hnil : identities = [] := by simpa [touchesSlots] using h
      rw [hnil, Write.apply, Function.update_self]
      simp
    | _ => rfl

theorem Write.applyAll_of_not_touchesSlots {writes : List Write}
    (h : ∀ w ∈ writes, Write.touchesSlots w = false) (db : Database) :
    Write.applyAll writes db .hsmSlot = db .hsmSlot := by
  induction writes generalizing db with
  | nil => rfl
  | cons w writes ih =>
    rw [List.forall_mem_cons] at h
    calc Write.applyAll (w :: writes) db .hsmSlot
        = Write.applyAll writes (w.apply db) .hsmSlot := rfl
      _ = w.apply db .hsmSlot := ih h.2 _
      _ = db .hsmSlot := Write.apply_of_not_touchesSlots h.1 db

section Rows

variable {id : String} {db : Database}

theorem rowsAt_insert {row : HSMSlotRow} (h : row.id = id) :
    rowsAt id ((Write.insert .hsmSlot row).apply db) = rowsAt id db ++ [row] := by
  rw [rowsAt, Write.apply, Function.update_self, List.filter_append, rowsAt]
  simp [keyOf, h]

theorem rowsAt_remove (identities : List String) :
    rowsAt id ((Write.remove .hsmSlot identities).apply db) =
      (rowsAt id db).filter fun row => row.internalResourceId ∉ identities := by
  rw [rowsAt, Write.apply, Function.update_self, rowsAt, List.filter_comm]
  rfl

theorem rowsAt_change (identities : List String) {assign : HSMSlotRow → HSMSlotRow}
    (h : ∀ row, (assign row).id = row.id) :
    rowsAt id ((Write.change .hsmSlot identities assign).apply db) =
      (rowsAt id db).map fun row =>
        if row.internalResourceId ∈ identities then assign row else row := by
  rw [rowsAt, Write.apply, Function.update_self, List.filter_map, rowsAt]
  congr 1
  apply List.filter_congr
  intro row _
  have hkey : keyOf .hsmSlot (if row.internalResourceId ∈ identities then assign row else row) =
      keyOf .hsmSlot row := by
    split
    · exact h row
    · rfl
  exact congrArg (fun key => decide (key = id)) hkey

end Rows

end Signare
