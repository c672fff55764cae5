import Signare.Storage.Schema
import Signare.Lib.Program

/-!
# Statements

The SQL statements of the mappers, what they answer and what they write, alone or inside a
transaction. Inside a transaction a statement sees what has been committed and its own writes, and
its writes are seen by others once it commits; after an error nothing more is done in it.
-/

namespace Signare

/-- Errors of the persistence layer. -/
inductive PersistenceError
  | alreadyExists
  | notFound
  | entryNotAdded
  | statementFailed (message : String)
  deriving DecidableEq

inductive Statement
  | insert (t : Table) (row : Row t)
  | getById (t : Table) (key : Key t)
  | exists_ (t : Table) (key : Key t)
  | list (t : Table) (filter : Row t → Bool) (limit : Option Nat)
  | delete (t : Table) (key : Key t)
  | deleteAll (t : Table) (filter : Row t → Bool)
  | update (t : Table) (key : Key t) (resourceVersion : String) (assign : Row t → Row t)

/-- The rows of a query, or the number of rows that were written. -/
def Statement.Result : Statement → Type
  | .insert .. => Unit
  | .getById t _ => List (Row t)
  | .exists_ .. => Bool
  | .list t .. => List (Row t)
  | .delete .. => Nat
  | .deleteAll .. => Nat
  | .update .. => Nat

/-- A change of a table. Rows are removed and changed by identity: a statement acts on the rows it
found. -/
inductive Write
  | insert (t : Table) (row : Row t)
  | remove (t : Table) (identities : List String)
  | change (t : Table) (identities : List String) (assign : Row t → Row t)

def Write.apply : Write → Database → Database
  | .insert t row, db => Function.update db t (db t ++ [row])
  | .remove t identities, db =>
    Function.update db t ((db t).filter fun row => identity t row ∉ identities)
  | .change t identities assign, db =>
    Function.update db t
      ((db t).map fun row => if identity t row ∈ identities then assign row else row)

def Write.applyAll (writes : List Write) (db : Database) : Database :=
  writes.foldl (fun db write => write.apply db) db

/-- What a statement would write, were nothing in its way. -/
def Statement.write : Statement → Database → Option Write
  | .insert t row, _ => some (.insert t row)
  | .delete t key, db => some (.remove t (((db t).filter (keyOf t · = key)).map (identity t)))
  | .deleteAll t filter, db => some (.remove t (((db t).filter filter).map (identity t)))
  | .update t key resourceVersion assign, db =>
    some (.change t (((db t).filter fun row =>
      keyOf t row = key ∧ versionOf t row = resourceVersion).map (identity t)) assign)
  | _, _ => none

/-- The database with what a statement writes. -/
def Statement.written (s : Statement) (db : Database) : Database :=
  ((s.write db).map fun w => w.apply db).getD db

/-- What a statement answers. -/
def Statement.answer : (s : Statement) → Database → Except PersistenceError s.Result
  | .insert t row, db =>
    if ¬ fits t row then .error (.statementFailed "value too long")
    else if (db t).any (clash t row) then .error .alreadyExists
    else .ok ()
  | .getById t key, db => .ok ((db t).filter (keyOf t · = key))
  | .exists_ t key, db => .ok ((db t).any (keyOf t · = key))
  | .list t filter limit, db =>
    .ok (match limit with
      | none => (db t).filter filter
      | some n => ((db t).filter filter).take n)
  | .delete t key, db => .ok ((db t).filter (keyOf t · = key)).length
  | .deleteAll t filter, db => .ok ((db t).filter filter).length
  | .update t key resourceVersion assign, db =>
    let rows := (db t).filter fun row => keyOf t row = key ∧ versionOf t row = resourceVersion
    if rows.all fun row => fits t (assign row) then .ok rows.length
    else .error (.statementFailed "value too long")

/-- `hsmconnector` requests. -/
inductive HSMRequest
  | reset (kind : HSMModuleKind)
  | isAlive (slot pin : String) (kind : HSMModuleKind)
  | listAddresses (slot pin : String) (kind : HSMModuleKind)
  | removeAddress (slot pin : String) (kind : HSMModuleKind) (address : Address)

def HSMRequest.Result : HSMRequest → Type
  | .reset _ => Unit
  | .isAlive .. => Bool
  | .listAddresses .. => List Address
  | .removeAddress .. => Unit

/-- What a use case calls: the database, a new UUID, the key store of a module. -/
inductive Effect
  | statement (s : Statement)
  | begin_
  | commit
  | rollback
  | newUUID
  | hsm (request : HSMRequest)

def Effect.Answer : Effect → Type
  | .statement s => Except PersistenceError s.Result
  | .begin_ | .commit | .rollback => Except PersistenceError Unit
  | .newUUID => String
  | .hsm request => Except SignareError request.Result

/-- A source of identifiers that are never repeated. -/
structure UUIDSource where
  newString : Nat → String
  newString_injective : Function.Injective newString
  newString_ne_empty : ∀ n, newString n ≠ ""

/-- A source to evaluate use cases with. -/
def unaryUUIDs : UUIDSource where
  newString n := String.ofList (List.replicate (n + 1) 'u')
  newString_injective m n h := by
    have hlength := congrArg List.length (String.ofList_injective h)
    simpa using hlength
  newString_ne_empty n h := by
    have hlength := congrArg String.length h
    simp at hlength

/-- The slots of the SoftHSM key store: the pin of each slot there is, and its keys. -/
structure KeyStores where
  pin : String → Option String
  keys : String → List Address

/-- What all use cases share. `uuids` counts the identifiers that have been handed out. -/
structure Shared where
  db : Database
  uuids : Nat
  stores : KeyStores

/-- The transaction of a use case: none, one with its writes so far, or one that has failed. -/
inductive Session
  | idle
  | open_ (writes : List Write)
  | aborted

/-- The database as a use case sees it. -/
def Session.view : Session → Database → Database
  | .open_ writes, db => Write.applyAll writes db
  | _, db => db

def inFailedTransaction : PersistenceError :=
  .statementFailed "current transaction is aborted, commands ignored until end of transaction block"

/-- A statement, alone or in the transaction of the session. -/
def Statement.perform (s : Statement) (fault : Option PersistenceError) (session : Session)
    (db : Database) : Except PersistenceError s.Result × Session × Database :=
  match session with
  | .aborted => (.error inFailedTransaction, .aborted, db)
  | .idle =>
    match fault with
    | some err => (.error err, .idle, db)
    | none =>
      match s.answer db with
      | .error err => (.error err, .idle, db)
      | .ok result => (.ok result, .idle, s.written db)
  | .open_ writes =>
    match fault with
    | some err => (.error err, .aborted, db)
    | none =>
      match s.answer (Write.applyAll writes db) with
      | .error err => (.error err, .aborted, db)
      | .ok result =>
        (.ok result, .open_ (writes ++ (s.write (Write.applyAll writes db)).toList), db)

def slotUnreachable (slot : String) : String :=
  "the slot '" ++ slot ++ "' is not reachable in the HSM module"

/-- The requests, as the connector answers them: only a SoftHSM module is alive, lists its keys and
removes them. -/
def HSMRequest.perform : (request : HSMRequest) → KeyStores →
    Except SignareError request.Result × KeyStores
  | .reset _, stores => (.ok (), stores)
  | .isAlive slot pin kind, stores =>
    if slot = "" ∨ pin = "" ∨ kind ≠ .softHSM then
      (.error (invalidArgumentReadable "couldn't validate input data"), stores)
    else
      match stores.pin slot with
      | none => (.error (badGateway (slotUnreachable slot) (slotUnreachable slot)), stores)
      | some pin' =>
        if pin' = pin then (.ok true, stores)
        else
          (.error (preconditionFailed ("the pin provided for the slot '" ++ slot ++
            "' is not correct")), stores)
  | .listAddresses slot pin kind, stores =>
    if kind ≠ .softHSM ∨ stores.pin slot ≠ some pin then
      (.error (internal "error listing addresses"), stores)
    else (.ok (stores.keys slot), stores)
  | .removeAddress slot pin kind address, stores =>
    if kind ≠ .softHSM then (.error (internal "error removing address"), stores)
    else if stores.pin slot = none then
      (.error (badGateway (slotUnreachable slot) (slotUnreachable slot)), stores)
    else if stores.pin slot ≠ some pin then (.error (internal "error removing address"), stores)
    else if address ∉ stores.keys slot then (.error (notFound "key not found"), stores)
    else
      (.ok (), { stores with
        keys := Function.update stores.keys slot ((stores.keys slot).filter (· ≠ address)) })

/-- A call that goes through, or fails without having done anything where there is a fault. -/
def Effect.perform (source : UUIDSource) : (c : Effect) → Option PersistenceError → Session →
    Shared → c.Answer × Session × Shared
  | .statement s, fault, session, w =>
    let (answer, session', db') := s.perform fault session w.db
    (answer, session', { w with db := db' })
  | .begin_, some err, session, w => (.error err, session, w)
  | .begin_, none, _, w => (.ok (), .open_ [], w)
  | .commit, some err, _, w => (.error err, .idle, w)
  | .commit, none, .open_ writes, w => (.ok (), .idle, { w with db := Write.applyAll writes w.db })
  | .commit, none, _, w => (.error inFailedTransaction, .idle, w)
  | .rollback, some err, _, w => (.error err, .idle, w)
  | .rollback, none, _, w => (.ok (), .idle, w)
  | .newUUID, _, session, w =>
    (source.newString w.uuids, session, { w with uuids := w.uuids + 1 })
  | .hsm _, some _, session, w => (.error (internal "key store"), session, w)
  | .hsm request, none, session, w =>
    let (answer, stores') := request.perform w.stores
    (answer, session, { w with stores := stores' })

/-- Use cases as programs. -/
abbrev UseCase (α : Type) := Program Effect Effect.Answer SignareError α

/-- What a use case has done so far. -/
abbrev History := List (Program.Event Effect.Answer)

end Signare
