import Signare.UseCases.Pieces
import Signare.UseCases.Dependency

/-!
# Sound states

Between two operations the database is intact, each of its rows can be read back, and every
identifier in it has been handed out before. Then reading finds exactly what is stored.
-/

namespace Signare

/-- A row that its repository reads back, under a key that its use cases accept. -/
def Readable : (t : Table) → Row t → Prop
  | .admin, row => validID (AdminRow.id row) = true ∧ AdminDB.mapFromDB row = .ok row
  | .application, row =>
    validID (ApplicationRow.id row) = true ∧ ApplicationDB.mapFromDB row = .ok row
  | .user, row => (UserRow.key row).valid = true ∧ UserDB.mapFromDB row = .ok row
  | .account, row => (AccountRow.key row).valid = true ∧ AccountDB.mapFromDB row = .ok row
  | .hsmModule, row => validID (HSMModuleRow.id row) = true ∧ HSMModuleDB.mapFromDB row = .ok row
  | .hsmSlot, row =>
    validID (HSMSlotRow.id row) = true ∧ ∃ slot, HSMSlotDB.mapFromDB row = .ok slot
  | .entry, row => EntryDB.mapFromDB row = .ok row

structure Sound (source : UUIDSource) (w : Shared) : Prop where
  intact : w.db.Intact
  readable : ∀ t, ∀ row ∈ w.db t, Readable t row
  fits : ∀ t, ∀ row ∈ w.db t, Signare.fits t row = true
  issued : ∀ t, ∀ row ∈ w.db t, ∃ n < w.uuids, identity t row = source.newString n

variable {source : UUIDSource} {ctx : TxContext} {w w' : Shared}

namespace Sound

theorem keyed (h : Sound source w) : w.db.Keyed := h.intact.keyed

theorem later (h : Sound source w) (hdb : w'.db = w.db) (huuids : w.uuids ≤ w'.uuids) :
    Sound source w' := by
  refine ⟨hdb ▸ h.intact, hdb ▸ h.readable, hdb ▸ h.fits, fun t row hrow => ?_⟩
  rw [hdb] at hrow
  obtain ⟨n, hn, hidentity⟩ := h.issued t row hrow
  exact ⟨n, hn.trans_le huuids, hidentity⟩

end Sound

section Reading

variable (h : Sound source w)
include h

end Reading

end Signare
