import Signare.UseCases.Ensures

/-!
# What the shared pieces ensure

The operations of a repository and the keeping of entries, over a database that honours its keys.
-/

namespace Signare

variable {source : UUIDSource} {ctx : TxContext} {w : Shared}

section Repository

variable {t : Table} {β : Type} {resource : String} {mapFromDB : Row t → Except SignareError β}

end Repository

section Entries

theorem entry_mapFromDB {entry : EntryRow} (hid : entry.id ≠ "") (hresource : entry.resourceId ≠ "")
    (hparent : entry.parentResourceId ≠ "") : EntryDB.mapFromDB entry = .ok entry := by
  simp [EntryDB.mapFromDB, notEmpty_of_ne hid, notEmpty_of_ne hresource, notEmpty_of_ne hparent]
  rfl

end Entries

end Signare
