import Signare.UseCases.Edits

/-!
# Slots in the admin API

The inputs that the adapters of the admin API make of the requests. A configuration that comes with
a request names keys of the cloud vault, and no local keys.
-/

namespace Signare

/-- An item of a configuration, of which all members are mandatory. -/
structure SlotDetailConfig where
  keyName : String
  keyVersion : String
  keyPublicAddress : String

structure ResourceMetaCreation where
  id : Option String

structure SlotCreationSpec where
  applicationId : Option String
  slot : Option String
  pin : Option String
  config : Option (List SlotDetailConfig)

structure AdminSlotsCreateRequest where
  moduleId : String
  meta_ : Option ResourceMetaCreation
  spec : Option SlotCreationSpec

structure ResourceMetaUpdate where
  resourceVersion : Option String

structure SlotUpdateConfigSpec where
  config : Option (List SlotDetailConfig)

structure AdminSlotsUpdateConfigRequest where
  moduleId : String
  slotId : String
  meta_ : Option ResourceMetaUpdate
  spec : Option SlotUpdateConfigSpec

def adaptSlotConfig (config : List SlotDetailConfig) : HSMSlot.SlotConfig where
  akv := config.map fun configItem =>
    ⟨configItem.keyName, configItem.keyVersion, configItem.keyPublicAddress⟩
  localKeyVault := none

/-- The input of `AdaptAdminSlotsCreate`. -/
def adaptAdminSlotsCreate (data : AdminSlotsCreateRequest) : CreateHSMSlotInput where
  id := data.meta_.bind ResourceMetaCreation.id
  applicationId := (data.spec.bind SlotCreationSpec.applicationId).getD ""
  hsmModuleId := data.moduleId
  slot := (data.spec.bind SlotCreationSpec.slot).getD ""
  pin := (data.spec.bind SlotCreationSpec.pin).getD ""
  config := adaptSlotConfig ((data.spec.bind SlotCreationSpec.config).getD [])

/-- The input of `AdaptAdminSlotsUpdateConfig`. -/
def adaptAdminSlotsUpdateConfig (data : AdminSlotsUpdateConfigRequest) : EditConfigInput where
  id := data.slotId
  resourceVersion := (data.meta_.bind ResourceMetaUpdate.resourceVersion).getD ""
  config := (data.spec.bind SlotUpdateConfigSpec.config).map adaptSlotConfig
  hsmModuleId := data.moduleId

end Signare
