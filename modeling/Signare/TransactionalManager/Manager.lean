import Signare.Commons.Errors

/-!
# The transactional manager

`ExecuteInTransaction`, with the storage transactions it begins and ends and the registry of
callbacks to run after the commit. A transaction and its registry are reached through the context:
the outermost call puts them there, and the calls made with its context find them.
-/

namespace Signare

/-- How a transactional function ends. -/
inductive Ending (ρ : Type)
  | returned (response : Option ρ) (failure : Option SignareError)
  | panicked
  deriving DecidableEq

inductive CallbackEnding
  | succeeded
  | failed (failure : SignareError)
  | panicked
  deriving DecidableEq

/-- A callback, and what it does when it is run. -/
structure Callback where
  label : Nat
  ending : CallbackEnding
  deriving DecidableEq

/-- The transaction and the registry of callbacks that are reached through a context. -/
structure Context where
  transaction : Option Nat
  callbacks : Option Nat
  deriving DecidableEq

def Context.background : Context := ⟨none, none⟩

/-- `ended` is the end of a call whose function ran: whether the call was nested, how its function
ended, and the error it returned. -/
inductive Event (ρ : Type)
  | began (transaction : Nat)
  | committed (transaction : Nat)
  | rolledBack (transaction : Nat)
  | registered (ctx : Context) (callback : Callback) (result : Bool)
  | ran (callback : Callback)
  | ended (nested : Bool) (ending : Ending ρ) (failure : Option SignareError)
  deriving DecidableEq

/-- The database, the registries and what happened so far. `pending` holds the writes of the
transactions that are open, `started` counts the transactions that the driver was asked for. -/
structure World (ω ρ : Type) where
  durable : List ω
  pending : Nat → Option (List ω)
  registries : Nat → List Callback
  started : Nat
  trace : List (Event ρ)

/-- What the database driver answers for each transaction: the text of its error, if any. -/
structure Driver where
  beginx : Nat → Option String
  commit : Nat → Option String
  rollback : Nat → Option String

variable {ω ρ : Type}

def World.emit (w : World ω ρ) (event : Event ρ) : World ω ρ :=
  { w with trace := w.trace ++ [event] }

def transactionError (kind message : String) : SignareError :=
  internalFromErr (.text (kind ++ ": " ++ message)) ""

def getTransaction (ctx : Context) : Except SignareError Nat :=
  match ctx.transaction with
  | none => .error (internalFromErr (.text "transaction not in context") "")
  | some t => .ok t

def beginTransaction (driver : Driver) (ctx : Context) (w : World ω ρ) :
    Except SignareError Context × World ω ρ :=
  match ctx.transaction with
  | some _ => (.error (transactionError "can not begin transaction" "transaction already exists"), w)
  | none =>
    match driver.beginx w.started with
    | some err =>
      (.error (transactionError "can not begin transaction" err),
        { w with started := w.started + 1 })
    | none =>
      (.ok { ctx with transaction := some w.started },
        { w with
          pending := Function.update w.pending w.started (some [])
          started := w.started + 1 }.emit (.began w.started))

/-- `tx.Rollback`, which a transaction that is over refuses. -/
def rollbackTransaction (driver : Driver) (ctx : Context) (w : World ω ρ) :
    Option SignareError × World ω ρ :=
  match ctx.transaction with
  | none => (some (transactionError "can not rollback transaction" "transaction not in context"), w)
  | some t =>
    match w.pending t with
    | none =>
      (some (transactionError "can not rollback transaction"
        "sql: transaction has already been committed or rolled back"), w)
    | some _ =>
      let w' := { w with pending := Function.update w.pending t none }.emit (.rolledBack t)
      match driver.rollback t with
      | some err => (some (transactionError "can not rollback transaction" err), w')
      | none => (none, w')

/-- `tx.Commit`. The writes of a transaction that the database does not commit are lost. -/
def commitTransaction (driver : Driver) (ctx : Context) (w : World ω ρ) :
    Option SignareError × World ω ρ :=
  match ctx.transaction with
  | none => (some (transactionError "can not commit transaction" "transaction not in context"), w)
  | some t =>
    match w.pending t with
    | none =>
      (some (transactionError "can not commit transaction"
        "sql: transaction has already been committed or rolled back"), w)
    | some writes =>
      let w' := { w with pending := Function.update w.pending t none }
      match driver.commit t with
      | some err => (some (transactionError "can not commit transaction" err), w')
      | none => (none, { w' with durable := w.durable ++ writes }.emit (.committed t))

/-- A storage statement that writes: in the transaction of the context, or on its own. -/
def writeIn (ctx : Context) (x : ω) (w : World ω ρ) : Option SignareError × World ω ρ :=
  match ctx.transaction with
  | none => (none, { w with durable := w.durable ++ [x] })
  | some t =>
    match w.pending t with
    | none => (some (.text "sql: transaction has already been committed or rolled back"), w)
    | some writes => (none, { w with pending := Function.update w.pending t (some (writes ++ [x])) })

def registerAfterCommitIfTransactionInProgress (ctx : Context) (callback : Callback)
    (w : World ω ρ) : Bool × World ω ρ :=
  match ctx.callbacks with
  | none => (false, w.emit (.registered ctx callback false))
  | some r =>
    (true, { w with registries := Function.update w.registries r (w.registries r ++ [callback]) }.emit
      (.registered ctx callback true))

/-- The loop over the callbacks after a commit. -/
def runCallbacks : List Callback → World ω ρ → CallbackEnding × World ω ρ
  | [], w => (.succeeded, w)
  | callback :: rest, w =>
    match callback.ending with
    | .succeeded => runCallbacks rest (w.emit (.ran callback))
    | ending => (ending, w.emit (.ran callback))

/-- The deferred handler of a panic: what becomes of the error that is returned. In a nested call
it stays as it is, and nothing has been assigned to it. -/
def recovered (driver : Driver) (ongoingTransaction : Bool) (txCtx : Context) (w : World ω ρ) :
    Option SignareError × World ω ρ :=
  if ongoingTransaction then (none, w)
  else
    match rollbackTransaction driver txCtx w with
    | (some rollbackTransactionErr, w) => (some rollbackTransactionErr, w)
    | (none, w) => (some (internal "Database transaction was rolled back"), w)

/-- Everything after the transactional function has ended. -/
def finishTransaction (driver : Driver) (ongoingTransaction : Bool) (txCtx : Context)
    (ending : Ending ρ) (w : World ω ρ) : (Option ρ × Option SignareError) × World ω ρ :=
  match ending with
  | .panicked =>
    let (failure, w) := recovered driver ongoingTransaction txCtx w
    ((none, failure), w)
  | .returned response (some failure) =>
    if ongoingTransaction then ((response, some failure), w)
    else ((none, some failure), (rollbackTransaction driver txCtx w).2)
  | .returned response none =>
    if ongoingTransaction then ((response, none), w)
    else
      match commitTransaction driver txCtx w with
      | (some commitTransactionErr, w) => ((none, some commitTransactionErr), w)
      | (none, w) =>
        match txCtx.callbacks with
        | none => ((response, none), w)
        | some r =>
          match runCallbacks (w.registries r) w with
          | (.succeeded, w) => ((response, none), w)
          | (.failed failure, w) => ((none, some failure), w)
          | (.panicked, w) =>
            let (failure, w) := recovered driver ongoingTransaction txCtx w
            ((response, failure), w)

/-- The function, and what follows it, in the context of the transaction. -/
def runInTransaction (driver : Driver) (ongoingTransaction : Bool) (txCtx : Context)
    (transactionalFunc : Context → World ω ρ → Ending ρ × World ω ρ) (w : World ω ρ) :
    (Option ρ × Option SignareError) × World ω ρ :=
  let (ending, w) := transactionalFunc txCtx w
  let (result, w) := finishTransaction driver ongoingTransaction txCtx ending w
  (result, w.emit (.ended ongoingTransaction ending result.2))

def executeInTransaction (driver : Driver) (ctx : Context)
    (transactionalFunc : Context → World ω ρ → Ending ρ × World ω ρ) (w : World ω ρ) :
    (Option ρ × Option SignareError) × World ω ρ :=
  match getTransaction ctx with
  | .ok _ => runInTransaction driver true ctx transactionalFunc w
  | .error _ =>
    match beginTransaction driver ctx w with
    | (.error errBeginTransaction, w) => ((none, some errBeginTransaction), w)
    | (.ok beginTransactionCtx, w') =>
      -- a fresh registry; the number of the transaction names it
      let txCtx := { beginTransactionCtx with callbacks := some w.started }
      let w' := { w' with registries := Function.update w'.registries w.started [] }
      match getTransaction txCtx with
      | .error err => ((none, some (internalFromErr err "")), w')
      | .ok _ => runInTransaction driver false txCtx transactionalFunc w'

/-- The context a callback is registered with: that of the function, one outside any transaction,
or one that was kept from an earlier transaction. -/
inductive Target
  | own
  | outside
  | earlier (transaction : Nat)

def Target.context (ctx : Context) : Target → Context
  | .own => ctx
  | .outside => .background
  | .earlier t => ⟨some t, some t⟩

/-- Any transactional function: it writes, registers callbacks and makes nested calls with its
context, goes on with what they return, and ends. -/
inductive TransactionalFunc (ω ρ : Type)
  | done (ending : Ending ρ)
  | write (x : ω) (next : Option SignareError → TransactionalFunc ω ρ)
  | register (target : Target) (callback : Callback) (next : Bool → TransactionalFunc ω ρ)
  | execute (f : TransactionalFunc ω ρ)
      (next : Option ρ × Option SignareError → TransactionalFunc ω ρ)

namespace TransactionalFunc

def run (driver : Driver) : TransactionalFunc ω ρ → Context → World ω ρ → Ending ρ × World ω ρ
  | .done ending, _, w => (ending, w)
  | .write x next, ctx, w =>
    let (err, w) := writeIn ctx x w
    run driver (next err) ctx w
  | .register target callback next, ctx, w =>
    let (result, w) := registerAfterCommitIfTransactionInProgress (target.context ctx) callback w
    run driver (next result) ctx w
  | .execute f next, ctx, w =>
    let (result, w) := executeInTransaction driver ctx (run driver f) w
    run driver (next result) ctx w

end TransactionalFunc

end Signare
