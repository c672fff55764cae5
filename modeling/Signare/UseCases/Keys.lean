import Signare.UseCases.Deletion

/-!
# Accounts for keys

Accounts are enabled for the keys of the slot of their application, and go when the key goes. What
is stored stays sound where every account to be enabled is a new one, and where no account is left
for a key that is removed.
-/

namespace Signare

open ByteCodec

variable {source : UUIDSource} {w : Shared}

/-- The slot of an application and its module, as the use cases find them. -/
structure Connected (w : Shared) (applicationId : String) (slot : HSMSlotRow)
    (hsmModule : HSMModuleRow) : Prop where
  application : ∃ application ∈ w.db .application, ApplicationRow.id application = applicationId
  slot_mem : slot ∈ w.db .hsmSlot
  slot_application : slot.applicationId = applicationId
  module_mem : hsmModule ∈ w.db .hsmModule
  module_id : hsmModule.id = slot.hsmModuleId

/-- The keys of a slot, where its module keeps them. -/
def Backs (w : Shared) (slot : HSMSlotRow) (kind : HSMModuleKind) (address : Address) : Prop :=
  match kind with
  | .softHSM => w.stores.pin slot.slot = some slot.pin ∧ address ∈ w.stores.keys slot.slot
  | .lkv => ∃ config, HSMSlotDB.deserialize slot.configuration = .ok config ∧
      address ∈ config.localKeyVault.getD ∅
  | .akv => ∃ config, HSMSlotDB.deserialize slot.configuration = .ok config ∧
      ∃ addresses, config.akv.mapM (fun akvConfig =>
        Address.newFromHexString akvConfig.keyPublicAddress) = .ok addresses ∧ address ∈ addresses

section Reading

variable (h : Sound source w)
include h

end Reading

theorem keepsKeys_assignConfig (configuration : Json) (resourceVersion : String) :
    KeepsKeys .hsmSlot (assignConfig configuration resourceVersion) :=
  fun _ => ⟨rfl, rfl, fun _ => rfl⟩

end Signare
