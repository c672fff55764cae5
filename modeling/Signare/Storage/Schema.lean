import Signare.Entities.Address
import Signare.Lib.Json
import Mathlib.Logic.Function.Basic

/-!
# The schema

The tables, their rows, primary keys, unique indexes and column widths. There are no foreign keys.
Creation and update dates are left out: only the listings go by them.
-/

namespace Signare

inductive Table
  | admin
  | application
  | user
  | account
  | hsmModule
  | hsmSlot
  | entry
  deriving DecidableEq

/-- `referentialintegrity.ResourceKind`. -/
inductive ResourceKind
  | account
  | application
  | hsmModule
  | hsmSlot
  | user
  | admin
  deriving DecidableEq

inductive HSMModuleKind
  | softHSM
  | akv
  | lkv
  deriving DecidableEq

structure ApplicationStandardID where
  id : String
  applicationId : String
  deriving DecidableEq

structure AccountID where
  address : Address
  userId : String
  applicationId : String
  deriving DecidableEq

structure AdminRow where
  id : String
  internalResourceId : String
  roles : List String
  description : String
  resourceVersion : String
  deriving DecidableEq

structure ApplicationRow where
  id : String
  internalResourceId : String
  defaultChainId : Int
  description : Option String
  resourceVersion : String
  deriving DecidableEq

structure UserRow where
  key : ApplicationStandardID
  internalResourceId : String
  roles : List String
  description : String
  resourceVersion : String
  deriving DecidableEq

structure AccountRow where
  key : AccountID
  internalResourceId : String
  deriving DecidableEq

structure HSMModuleRow where
  id : String
  internalResourceId : String
  kind : HSMModuleKind
  configuration : String
  description : String
  resourceVersion : String
  deriving DecidableEq

structure HSMSlotRow where
  id : String
  internalResourceId : String
  hsmModuleId : String
  applicationId : String
  slot : String
  pin : String
  configuration : Json
  resourceVersion : String

structure EntryRow where
  id : String
  resourceId : String
  resourceKind : ResourceKind
  parentResourceId : String
  parentResourceKind : ResourceKind
  deriving DecidableEq

abbrev Row : Table → Type
  | .admin => AdminRow
  | .application => ApplicationRow
  | .user => UserRow
  | .account => AccountRow
  | .hsmModule => HSMModuleRow
  | .hsmSlot => HSMSlotRow
  | .entry => EntryRow

/-- Primary keys. -/
abbrev Key : Table → Type
  | .user => ApplicationStandardID
  | .account => AccountID
  | _ => String

instance : (t : Table) → DecidableEq (Key t)
  | .admin => inferInstanceAs (DecidableEq String)
  | .application => inferInstanceAs (DecidableEq String)
  | .user => inferInstanceAs (DecidableEq ApplicationStandardID)
  | .account => inferInstanceAs (DecidableEq AccountID)
  | .hsmModule => inferInstanceAs (DecidableEq String)
  | .hsmSlot => inferInstanceAs (DecidableEq String)
  | .entry => inferInstanceAs (DecidableEq String)

def keyOf : (t : Table) → Row t → Key t
  | .admin, row => AdminRow.id row
  | .application, row => ApplicationRow.id row
  | .user, row => UserRow.key row
  | .account, row => AccountRow.key row
  | .hsmModule, row => HSMModuleRow.id row
  | .hsmSlot, row => HSMSlotRow.id row
  | .entry, row => EntryRow.id row

/-- What identifies a row whatever happens to it: the unique internal resource id, and the id of an
entry. -/
def identity : (t : Table) → Row t → String
  | .admin, row => AdminRow.internalResourceId row
  | .application, row => ApplicationRow.internalResourceId row
  | .user, row => UserRow.internalResourceId row
  | .account, row => AccountRow.internalResourceId row
  | .hsmModule, row => HSMModuleRow.internalResourceId row
  | .hsmSlot, row => HSMSlotRow.internalResourceId row
  | .entry, row => EntryRow.id row

def versionOf : (t : Table) → Row t → String
  | .admin, row => AdminRow.resourceVersion row
  | .application, row => ApplicationRow.resourceVersion row
  | .user, row => UserRow.resourceVersion row
  | .account, _ => ""
  | .hsmModule, row => HSMModuleRow.resourceVersion row
  | .hsmSlot, row => HSMSlotRow.resourceVersion row
  | .entry, _ => ""

/-- The unique indexes beside those on the primary key and the identity. -/
def sharesIndex : (t : Table) → Row t → Row t → Bool
  | .hsmSlot, (row : HSMSlotRow), (row' : HSMSlotRow) =>
    (row.hsmModuleId == row'.hsmModuleId && row.slot == row'.slot) ||
      row.applicationId == row'.applicationId
  | .entry, (row : EntryRow), (row' : EntryRow) =>
    row.resourceId == row'.resourceId && row.resourceKind == row'.resourceKind &&
      row.parentResourceId == row'.parentResourceId &&
      row.parentResourceKind == row'.parentResourceKind
  | _, _, _ => false

/-- Two rows that a table cannot both hold. -/
def clash (t : Table) (row row' : Row t) : Bool :=
  decide (keyOf t row = keyOf t row') || identity t row == identity t row' ||
    sharesIndex t row row'

/-- `VARCHAR(width)`. -/
def varchar (width : Nat) (s : String) : Bool := s.length ≤ width

/-- The widths of the columns that hold what a caller gave. A generated identifier has 36 characters
and fits where it is stored. -/
def fits : (t : Table) → Row t → Bool
  | .admin, (row : AdminRow) => varchar 64 row.id && varchar 256 row.description
  | .application, (row : ApplicationRow) =>
    varchar 64 row.id && varchar 256 (toString row.defaultChainId) &&
      varchar 256 (row.description.getD "")
  | .user, (row : UserRow) =>
    varchar 64 row.key.id && varchar 64 row.key.applicationId && varchar 256 row.description
  | .account, (row : AccountRow) => varchar 64 row.key.applicationId && varchar 64 row.key.userId
  | .hsmModule, (row : HSMModuleRow) => varchar 64 row.id && varchar 256 row.description
  | .hsmSlot, (row : HSMSlotRow) =>
    varchar 64 row.id && varchar 64 row.hsmModuleId && varchar 64 row.applicationId &&
      varchar 256 row.slot && varchar 256 row.pin
  | .entry, _ => true

/-- The rows of every table. -/
abbrev Database := (t : Table) → List (Row t)

def Database.empty : Database := fun _ => []

end Signare
