import Signare.SignatureManager.ListKeys

/-!
# The library that is shared

One library answers all calls of a manager. It is initialised or not, and what it is then asked is
up to the token. Methods other than those that open and close it leave it as open as it was.
-/

namespace Signare

open ByteCodec

structure Library (T : Type) where
  initialised : Bool
  token : T

def notInitialized : PKCSError :=
  ⟨ckrCryptokiNotInitialized, "pkcs11: 0x190: CKR_CRYPTOKI_NOT_INITIALIZED"⟩

def alreadyInitialized : PKCSError :=
  ⟨ckrCryptokiAlreadyInitialized, "pkcs11: 0x191: CKR_CRYPTOKI_ALREADY_INITIALIZED"⟩

/-- What the token answers while the library is initialised. -/
abbrev TokenHandle (T : Type) := (c : PKCSCall) → T → c.Answer × T

def Library.handle {T : Type} (token : TokenHandle T) (c : PKCSCall) (lib : Library T) :
    c.Answer × Library T :=
  match c with
  | .initializeLibrary =>
    if lib.initialised then (.error alreadyInitialized, lib)
    else (.ok (), { lib with initialised := true })
  | .finalizeLibrary =>
    if lib.initialised then (.ok (), { lib with initialised := false })
    else (.error notInitialized, lib)
  | c =>
    if lib.initialised then
      ((token c lib.token).1, { lib with token := (token c lib.token).2 })
    else (.error notInitialized, lib)

/-- What is asked of the manager when it has been created. -/
inductive KeyRequest
  | generateKey (slot pin : String) (publicTime privateTime : UInt64)
  | listKeys (slot pin : String)
  | sign (slot pin : String) (data : Bytes) (address : Address)

inductive ManagerCall
  | open_
  | close
  | request (r : KeyRequest)

/-- A result is not looked at here. -/
abbrev ManagerCall.Answer (_ : ManagerCall) : Type := Except MethodFailure Unit

section Manager

variable {T : Type} (env : CurveEnv) (byTime : TimeSort) (fuel : Nat) (token : TokenHandle T)

def KeyRequest.method : KeyRequest → Method Unit
  | .generateKey slot pin publicTime privateTime => do
    let _ ← Signare.generateKey env slot pin publicTime privateTime
  | .listKeys slot pin => do
    let _ ← Signare.listKeys env byTime fuel slot pin
  | .sign slot pin data address => do
    let _ ← signData env slot pin data address

def ManagerCall.method : ManagerCall → Method Unit
  | .open_ => openManager
  | .close => closeManager
  | .request r => r.method env byTime fuel

/-- A call runs under the mutex, so as one step. -/
def ManagerCall.perform (call : ManagerCall) (lib : Library T) :
    Except MethodFailure Unit × Library T :=
  (call.method env byTime fuel).run (Library.handle token) lib

end Manager

section Keeps

variable {α : Type} {env : CurveEnv}

/-- A call that neither opens nor closes the library. -/
def PKCSCall.keeps : PKCSCall → Bool
  | .initializeLibrary => false
  | .finalizeLibrary => false
  | _ => true

/-- A method that makes no other calls. -/
def KeepsOpen (body : Method α) : Prop := body.Only fun c => c.keeps

theorem keepsOpen_invoke {c : PKCSCall} {onError : PKCSError → MethodFailure}
    (hkeeps : c.keeps) : KeepsOpen (invoke c onError) := by
  apply Program.only_bind
  · exact (Program.only_request c).mpr hkeeps
  · intro answer
    cases answer with
    | error err => trivial
    | ok result => trivial

theorem keepsOpen_checked {body : Method α} (h : KeepsOpen body) : KeepsOpen (checked body) := by
  apply Program.only_bind (Program.only_attempt h)
  intro result
  cases result with
  | ok a => trivial
  | error err =>
    cases err with
    | _ => trivial

theorem keepsOpen_deferred {c : PKCSCall} {body : Method α} (hkeeps : c.keeps)
    (h : KeepsOpen body) : KeepsOpen (deferred c body) := by
  apply Program.only_bind (Program.only_attempt h)
  intro result
  apply Program.only_bind
  · exact (Program.only_request c).mpr hkeeps
  · intro _
    trivial

theorem keepsOpen_withSession {slot pin invalidSlot : String} {readWrite : Bool}
    {openMessage loginMessage : PKCSError → String} {body : SessionHandle → Method α}
    (h : ∀ session, KeepsOpen (body session)) :
    KeepsOpen (withSession slot pin invalidSlot readWrite openMessage loginMessage body) := by
  unfold withSession
  split
  · trivial
  · refine Program.only_bind (keepsOpen_invoke rfl) fun session => ?_
    apply keepsOpen_deferred rfl
    refine Program.only_bind (keepsOpen_invoke rfl) fun _ => ?_
    exact keepsOpen_deferred rfl (h session)

theorem keepsOpen_getAddress (session : SessionHandle) (object : ObjectHandle) :
    KeepsOpen (getAddress env session object) := by
  have hpoint : KeepsOpen (getECPoint session object) := by
    refine Program.only_bind (keepsOpen_invoke rfl) fun attributes => ?_
    split <;> trivial
  have hdecoded : KeepsOpen (getDecodedECPoint session object) := by
    apply Program.only_bind hpoint
    intro ecPoint
    split <;> trivial
  apply Program.only_bind (keepsOpen_checked hdecoded)
  intro result
  split <;> trivial

theorem keepsOpen_generateKey (slot pin : String) (publicTime privateTime : UInt64) :
    KeepsOpen (generateKey env slot pin publicTime privateTime) := by
  apply keepsOpen_withSession
  intro session
  refine Program.only_bind (keepsOpen_invoke rfl) fun handles => ?_
  apply Program.only_bind (keepsOpen_getAddress session _)
  intro addr
  apply Program.only_bind (keepsOpen_checked (keepsOpen_invoke rfl))
  intro _
  apply Program.only_bind (keepsOpen_checked (keepsOpen_invoke rfl))
  intro _
  trivial

theorem keepsOpen_signData (slot pin : String) (data : Bytes) (address : Address) :
    KeepsOpen (signData env slot pin data address) := by
  apply keepsOpen_withSession
  intro session
  have hfind : KeepsOpen
      (findObject session ⟨.privateKey, some (keyLabel env address)⟩) := by
    refine Program.only_bind (keepsOpen_invoke rfl) fun _ => ?_
    refine Program.only_bind (keepsOpen_invoke rfl) fun objects => ?_
    refine Program.only_bind (keepsOpen_invoke rfl) fun _ => ?_
    split <;> trivial
  apply Program.only_bind (Program.only_orElse hfind)
  intro object
  refine Program.only_bind (keepsOpen_invoke rfl) fun _ => ?_
  exact keepsOpen_invoke rfl

theorem keepsOpen_findObjects (fuel : Nat) (session : SessionHandle) (template : Template) :
    KeepsOpen (findObjects fuel session template) := by
  have hbatches (fuel : Nat) : KeepsOpen (findBatches session fuel) := by
    induction fuel with
    | zero => trivial
    | succ fuel ih =>
      refine Program.only_bind (keepsOpen_invoke rfl) fun found => ?_
      split
      · trivial
      · apply Program.only_bind ih
        intro more
        trivial
  refine Program.only_bind (keepsOpen_invoke rfl) fun _ => ?_
  apply Program.only_bind (hbatches fuel)
  intro objects
  refine Program.only_bind (keepsOpen_invoke rfl) fun _ => ?_
  trivial

theorem keepsOpen_listObject (session : SessionHandle) (object : ObjectHandle) :
    KeepsOpen (listObject env session object) := by
  have hattribute {β : Type} (type : AttributeType) {onError : PKCSError → MethodFailure}
      {f : List Attribute → Method β} (hf : ∀ attributes, KeepsOpen (f attributes)) :
      KeepsOpen (invoke (.getAttributeValue session object type) onError >>= f) :=
    Program.only_bind (keepsOpen_invoke rfl) hf
  apply Program.only_bind
  · apply keepsOpen_checked
    apply hattribute
    intro attributes
    split <;> trivial
  · intro label
    split
    · trivial
    · apply Program.only_bind (keepsOpen_checked (keepsOpen_getAddress session object))
      intro address
      split
      · trivial
      · split
        · trivial
        · apply Program.only_bind
          · apply keepsOpen_checked
            apply hattribute
            intro attributes
            split <;> trivial
          · intro time
            split <;> trivial

theorem keepsOpen_listKeys (byTime : TimeSort) (fuel : Nat) (slot pin : String) :
    KeepsOpen (listKeys env byTime fuel slot pin) := by
  apply keepsOpen_withSession
  intro session
  have hobjects (objects : List ObjectHandle) : KeepsOpen (listObjects env session objects) := by
    induction objects with
    | nil => trivial
    | cons object objects ih =>
      apply Program.only_bind (keepsOpen_listObject session object)
      intro entry
      apply Program.only_bind ih
      intro entries
      trivial
  apply Program.only_bind (keepsOpen_findObjects fuel session _)
  intro objects
  apply Program.only_bind (hobjects objects)
  intro addresses
  trivial

theorem keepsOpen_method (byTime : TimeSort) (fuel : Nat) (r : KeyRequest) :
    KeepsOpen (r.method env byTime fuel) := by
  cases r with
  | generateKey slot pin publicTime privateTime =>
    exact Program.only_bind (keepsOpen_generateKey slot pin publicTime privateTime) fun _ => trivial
  | listKeys slot pin =>
    exact Program.only_bind (keepsOpen_listKeys byTime fuel slot pin) fun _ => trivial
  | sign slot pin data address =>
    exact Program.only_bind (keepsOpen_signData slot pin data address) fun _ => trivial

theorem KeepsOpen.run {T : Type} {body : Method α} (h : KeepsOpen body) (token : TokenHandle T)
    (t : T) : body.run (Library.handle token) ⟨true, t⟩ =
      ((body.run token t).1, ⟨true, (body.run token t).2⟩) := by
  induction body generalizing t with
  | done result => rfl
  | call c next ih =>
    obtain ⟨hkeeps, hnext⟩ := h
    have hhandle : Library.handle token c ⟨true, t⟩ = ((token c t).1, ⟨true, (token c t).2⟩) := by
      cases c with
      | initializeLibrary => cases hkeeps
      | finalizeLibrary => cases hkeeps
      | _ => rfl
    rw [Program.run_call, hhandle]
    exact ih _ (hnext _) _

end Keeps

section Perform

variable {T : Type} (env : CurveEnv) (byTime : TimeSort) (fuel : Nat) (token : TokenHandle T)

theorem perform_open (lib : Library T) :
    ManagerCall.open_.perform env byTime fuel token lib =
      if lib.initialised then
        (.error (translated (fun _ => "error calling PKCS11 finalize") alreadyInitialized), lib)
      else (.ok (), { lib with initialised := true }) := by
  unfold ManagerCall.perform
  refine (run_invoke (Library.handle token) _ _ lib).trans ?_
  cases lib with
  | mk initialised t =>
    cases initialised with
    | true => rfl
    | false => rfl

theorem perform_close (lib : Library T) :
    ManagerCall.close.perform env byTime fuel token lib =
      if lib.initialised then (.ok (), { lib with initialised := false })
      else (.error (translated (fun _ => "error calling PKCS11 finalize") notInitialized), lib) := by
  unfold ManagerCall.perform
  refine (run_invoke (Library.handle token) _ _ lib).trans ?_
  cases lib with
  | mk initialised t =>
    cases initialised with
    | true => rfl
    | false => rfl

theorem run_withSession_uninitialised {α : Type} (slot pin invalidSlot : String) (readWrite : Bool)
    (openMessage loginMessage : PKCSError → String) (body : SessionHandle → Method α) (t : T) :
    ∃ err, (withSession slot pin invalidSlot readWrite openMessage loginMessage body).run
      (Library.handle token) ⟨false, t⟩ = (.error err, ⟨false, t⟩) := by
  cases hslot : parseSlot slot with
  | none =>
    unfold withSession
    simp only [hslot]
    exact ⟨_, rfl⟩
  | some number =>
    have hopen : Library.handle token (.openSession number readWrite) ⟨false, t⟩ =
        (.error notInitialized, ⟨false, t⟩) := rfl
    exact ⟨_, run_withSession_closed (Library.handle token) hslot hopen⟩

theorem perform_request_uninitialised (r : KeyRequest) (t : T) :
    ∃ err, (ManagerCall.request r).perform env byTime fuel token ⟨false, t⟩ =
      (.error err, ⟨false, t⟩) := by
  cases r with
  | generateKey slot pin publicTime privateTime =>
    obtain ⟨err, herr⟩ := run_withSession_uninitialised token slot pin _ _ _ _ _ t
    exact ⟨err, Program.run_bind_error _ herr⟩
  | listKeys slot pin =>
    obtain ⟨err, herr⟩ := run_withSession_uninitialised token slot pin _ _ _ _ _ t
    exact ⟨err, Program.run_bind_error _ herr⟩
  | sign slot pin data address =>
    obtain ⟨err, herr⟩ := run_withSession_uninitialised token slot pin _ _ _ _ _ t
    exact ⟨err, Program.run_bind_error _ herr⟩

theorem perform_request_initialised (r : KeyRequest) (t : T) :
    (ManagerCall.request r).perform env byTime fuel token ⟨true, t⟩ =
      (((r.method env byTime fuel).run token t).1,
        ⟨true, ((r.method env byTime fuel).run token t).2⟩) :=
  (keepsOpen_method byTime fuel r).run token t

end Perform

end Signare
