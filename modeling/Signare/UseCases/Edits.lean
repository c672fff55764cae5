import Signare.UseCases.HSMSlot

/-!
# Editing resources

Applications, HSM modules and the configuration of a slot are changed under the version that the
caller has seen. An edit of a module or a slot runs in a transaction, one of an application does not.
-/

namespace Signare

open ByteCodec

structure EditApplicationInput where
  id : String
  resourceVersion : String
  chainId : Option Int
  description : Option String

def EditApplicationInput.valid (input : EditApplicationInput) : Bool :=
  input.id ≠ "" && input.resourceVersion ≠ "" && input.chainId.all fun chainId => 1 ≤ chainId

/-- `mapEditedValues`: without a chain id the zero value is stored. -/
def assignApplication (chainId : Option Int) (description : Option String)
    (newResourceVersion : String) (row : ApplicationRow) : ApplicationRow :=
  { row with
    defaultChainId := chainId.getD 0, description, resourceVersion := newResourceVersion }

def editApplication (input : EditApplicationInput) : UseCase ApplicationRow := do
  validateStruct input.valid couldNotValidate
  Program.orElse
      (onNotFound (notFoundReadableFromErr · ("application [" ++ input.id ++ "] not found"))) do
    Program.lift ((notEmpty "id" input.id).mapError asInternal)
    repositoryEdit .application "application" ApplicationDB.mapFromDB input.id
      input.resourceVersion (assignApplication input.chainId input.description)

/-- The kind, or the name of one that there is not. -/
structure EditHSMModuleInput where
  id : String
  resourceVersion : String
  description : Option String
  kind : Except String HSMModuleKind

def HSMModuleDB.mapToUpdateDB (module : EditHSMModuleInput) : Except SignareError Unit := do
  notEmpty "id" module.id
  match module.kind with
  | .error name => .error (invalidArgument ("couldn't map '" ++ name ++ "' to database HSM type"))
  | .ok _ => .ok ()

/-- The kind is not among the columns that are written. -/
def assignHSMModule (description newResourceVersion : String) (row : HSMModuleRow) :
    HSMModuleRow :=
  { row with configuration := "", description, resourceVersion := newResourceVersion }

def editHSMModule (ctx : TxContext) (input : EditHSMModuleInput) : UseCase HSMModuleRow :=
  executeUseCaseInTransaction ctx do
    validateStruct (validID input.id) couldNotValidate
    Program.orElse (onNotFound (notFoundFromErr · ("hsm module [" ++ input.id ++ "] not found"))) do
      Program.lift ((HSMModuleDB.mapToUpdateDB input).mapError asInternal)
      repositoryEdit .hsmModule "HSM" HSMModuleDB.mapFromDB input.id input.resourceVersion
        (assignHSMModule (input.description.getD ""))

/-- A configuration that is not given is the zero value, which does not validate. -/
structure EditConfigInput where
  id : String
  resourceVersion : String
  config : Option HSMSlot.SlotConfig
  hsmModuleId : String

def EditConfigInput.valid (input : EditConfigInput) : Bool :=
  validID input.id && input.resourceVersion ≠ "" && input.hsmModuleId ≠ "" &&
    input.config.any fun config => config.akv.all fun akv =>
      akv.keyName ≠ "" && akv.keyVersion ≠ "" && akv.keyPublicAddress ≠ ""

def editConfig (keccak : Hash256) (ctx : TxContext) (input : EditConfigInput) : UseCase HSMSlot :=
  executeUseCaseInTransaction ctx do
    validateStruct input.valid couldNotValidate
    let hsmSlot ← getHSMSlot input.id
    require (hsmSlot.hsmModuleId = input.hsmModuleId) (notFoundReadable
      ("slot doesn't exist in the HSM module '" ++ input.hsmModuleId ++ "'"))
    let hsmModule ← getHSMModuleOfSlot .inTransaction hsmSlot.hsmModuleId
    require (hsmModule.kind = .akv) (preconditionFailed
      ("cannot update config: configured HSM '" ++ hsmModule.id ++ "' is not of kind AKV"))
    let slot : HSMSlot := ⟨input.id, "", "", hsmModule.id, "", "",
      input.config.getD ⟨[], none⟩, input.resourceVersion⟩
    (hsmSlotEditConfig keccak slot).orElse
      (onNotFound (notFoundFromErr · ("hsm slot [" ++ input.id ++ "] not found")))

end Signare
