import Signare.HSMConnector.Signature
import Signare.Lib.Numeral
import Signare.Lib.Program
import Signare.SignatureManager.Errors

/-!
# The PKCS#11 signature manager

The methods of the manager as programs over the calls of the library: what they ask, in which order,
and what they make of the answers. Sessions are closed and logged out of at the end of a method,
however it ends.
-/

namespace Signare

open ByteCodec

/-- `pkcs11.Error`: its code and its text. -/
structure PKCSError where
  code : Nat
  text : String
  deriving DecidableEq

inductive ObjectClass
  | publicKey
  | privateKey
  deriving DecidableEq

/-- What objects are looked for by. -/
structure Template where
  objectClass : ObjectClass
  label : Option Bytes
  deriving DecidableEq

/-- What the two keys of a pair are made with. The other attributes are the same for all pairs. -/
structure KeyPairTemplate where
  ecParams : Bytes
  publicLabel : Bytes
  publicId : Bytes
  privateLabel : Bytes
  privateId : Bytes
  deriving DecidableEq

inductive AttributeType
  | label
  | ecPoint
  | id
  deriving DecidableEq

/-- A value that is `none` is a nil slice. -/
structure Attribute where
  type : AttributeType
  value : Option Bytes
  deriving DecidableEq

abbrev SessionHandle := Nat
abbrev ObjectHandle := Nat

inductive PKCSCall
  | initializeLibrary
  | finalizeLibrary
  | openSession (slot : Nat) (readWrite : Bool)
  | closeSession (session : SessionHandle)
  | login (session : SessionHandle) (pin : String)
  | logout (session : SessionHandle)
  | generateKeyPair (session : SessionHandle) (template : KeyPairTemplate)
  | setLabel (session : SessionHandle) (object : ObjectHandle) (label : Bytes)
  | getAttributeValue (session : SessionHandle) (object : ObjectHandle) (type : AttributeType)
  | findObjectsInit (session : SessionHandle) (template : Template)
  | findObjects (session : SessionHandle) (max : Nat)
  | findObjectsFinal (session : SessionHandle)
  | destroyObject (session : SessionHandle) (object : ObjectHandle)
  | signInit (session : SessionHandle) (object : ObjectHandle)
  | sign (session : SessionHandle) (data : Bytes)

/-- The pair of handles is that of the public and of the private key. -/
def PKCSCall.Result : PKCSCall → Type
  | .openSession .. => SessionHandle
  | .generateKeyPair .. => ObjectHandle × ObjectHandle
  | .getAttributeValue .. => List Attribute
  | .findObjects .. => List ObjectHandle
  | .sign .. => Bytes
  | _ => Unit

def PKCSCall.Answer (c : PKCSCall) : Type := Except PKCSError c.Result

def ckrSlotIDInvalid : Nat := 0x3
def ckrPinIncorrect : Nat := 0xa0
def ckrCryptokiNotInitialized : Nat := 0x190
def ckrCryptokiAlreadyInitialized : Nat := 0x191

def pkcsErrTranslator (code : Nat) : Option ManagerErrorKind :=
  if code = ckrSlotIDInvalid then some .invalidSlot
  else if code = ckrPinIncorrect then some .pinIncorrect
  else if code = ckrCryptokiAlreadyInitialized then some .alreadyInitialized
  else none

/-- The messages are formatted as a slice, so in brackets. -/
def toSignatureManagerErr (originalErr : PKCSError) (message : String) : ManagerError :=
  ⟨(pkcsErrTranslator originalErr.code).getD .internal, "[" ++ message ++ "]: " ++ originalErr.text⟩

/-- How a method ends without a result. It is stuck where a search does not end. -/
inductive MethodFailure
  | manager (err : ManagerError)
  | signare (err : SignareError) (message : String)
  | pkcs (err : PKCSError)
  | panic (message : String)
  | stuck
  deriving DecidableEq

def MethodFailure.text : MethodFailure → String
  | .manager err => err.text
  | .signare _ message => message
  | .pkcs err => err.text
  | .panic message => message
  | .stuck => ""

/-- The methods as programs over the calls of the library. -/
abbrev Method (α : Type) := Program PKCSCall PKCSCall.Answer MethodFailure α

/-- A call, and what becomes of its error. -/
def invoke (c : PKCSCall) (onError : PKCSError → MethodFailure) : Method c.Result := do
  match ← Program.request c with
  | .error err => Program.fail (onError err)
  | .ok result => return result

def translated (message : PKCSError → String) (err : PKCSError) : MethodFailure :=
  .manager (toSignatureManagerErr err (message err))

/-- `defer`: the error of the deferred call is logged. -/
def deferred {α : Type} (c : PKCSCall) (body : Method α) : Method α := do
  let result ← body.attempt
  let _ ← Program.request c
  Program.lift result

/-- A result and an error that are both looked at. A panic goes on. -/
def checked {α : Type} (body : Method α) : Method (Except MethodFailure α) := do
  match ← body.attempt with
  | .error (.panic message) => Program.fail (.panic message)
  | result => return result

def setLabel (session : SessionHandle) (object : ObjectHandle) (label : Bytes) : Method Unit :=
  invoke (.setLabel session object label) .pkcs

def indexOutOfRange : String := "runtime error: index out of range [0] with length 0"

def nilDereference : String := "runtime error: invalid memory address or nil pointer dereference"

def getLabel (session : SessionHandle) (object : ObjectHandle) : Method Bytes := do
  let attributes : List Attribute ← invoke (.getAttributeValue session object .label) fun err =>
    .signare (.text err.text) ("error retrieving attribute value: " ++ err.text)
  match attributes with
  | [] => Program.fail (.panic indexOutOfRange)
  | attr :: _ => return attr.value.getD []

def getECPoint (session : SessionHandle) (publicKeyHandle : ObjectHandle) : Method Bytes := do
  let attributes : List Attribute ←
    invoke (.getAttributeValue session publicKeyHandle .ecPoint) .pkcs
  match (attributes.find? fun attr => attr.type = .ecPoint).bind Attribute.value with
  | some ecPoint => return ecPoint
  | none => Program.fail (.manager ⟨.keyGenerationFailed, "unable to get EC Point"⟩)

/-- A length in long form: more than 127, in as few bytes as can be. -/
def asn1LongLength : Nat → Nat → Bytes → Option (Nat × Bytes)
  | 0, length, rest => if length < 0x80 then none else some (length, rest)
  | _ + 1, _, [] => none
  | n + 1, length, b :: rest =>
    if 2 ^ 23 ≤ length then none
    else if length * 256 + b.toNat = 0 then none
    else asn1LongLength n (length * 256 + b.toNat) rest

def asn1Length (b : UInt8) (rest : Bytes) : Option (Nat × Bytes) :=
  if b < 0x80 then some (b.toNat, rest)
  else if b = 0x80 then none
  else asn1LongLength (b.toNat - 0x80) 0 rest

/-- `asn1.Unmarshal` of an octet string. What comes behind it is left. -/
def asn1OctetString : Bytes → Option Bytes
  | tag :: b :: rest =>
    if tag ≠ 0x04 then none
    else (asn1Length b rest).bind fun header =>
      if header.2.length < header.1 then none else some (header.2.take header.1)
  | _ => none

def getDecodedECPoint (session : SessionHandle) (publicKeyHandle : ObjectHandle) :
    Method Bytes := do
  let ecPoint ← getECPoint session publicKeyHandle
  match asn1OctetString ecPoint with
  | some ecp => return ecp
  | none => Program.fail (.manager ⟨.keyGenerationFailed, "from error: asn1"⟩)

/-- The address of a public key in one of the forms that the curve has for it. -/
def pointAddress (env : CurveEnv) (ecp : Bytes) : Except MethodFailure Address := do
  let pubKey ← (env.parsePubKey ecp).mapError fun _ =>
    .manager ⟨.internal, "unable to parse public key"⟩
  (deriveAddressFromPublicKey env.keccak pubKey).mapError fun _ =>
    .manager ⟨.invalidArgument, "invalid uncompressed public key"⟩

def getAddress (env : CurveEnv) (session : SessionHandle) (publicKeyHandle : ObjectHandle) :
    Method Address := do
  match ← checked (getDecodedECPoint session publicKeyHandle) with
  | .error err => Program.fail (.manager ⟨.keyGenerationFailed, err.text⟩)
  | .ok ecp => Program.lift (pointAddress env ecp)

/-- An id that is not eight bytes long counts as zero. -/
def getTimestamp (session : SessionHandle) (object : ObjectHandle) : Method Nat := do
  let attributes : List Attribute ← invoke (.getAttributeValue session object .id) .pkcs
  match attributes with
  | [] => Program.fail (.panic indexOutOfRange)
  | attr :: _ =>
    let id := attr.value.getD []
    return if id.length = 8 then beNat id else 0

/-- How many objects are asked for at once. -/
def batchSize : Nat := 10000

/-- The loop goes on until nothing more is found. -/
def findBatches (session : SessionHandle) : Nat → Method (List ObjectHandle)
  | 0 => Program.fail .stuck
  | fuel + 1 => do
    let found : List ObjectHandle ← invoke (.findObjects session batchSize) fun err =>
      .manager ⟨.internal, "PKCS11 find objects failed. Error: " ++ err.text⟩
    if found = [] then return []
    else
      let more ← findBatches session fuel
      return found ++ more

def findObjects (fuel : Nat) (session : SessionHandle) (template : Template) :
    Method (List ObjectHandle) := do
  let _ ← invoke (.findObjectsInit session template) fun err =>
    .manager ⟨.internal, "PKCS11 find objects init failed. Error: " ++ err.text⟩
  let objects ← findBatches session fuel
  let _ ← invoke (.findObjectsFinal session) fun err =>
    .manager ⟨.internal, "PKCS11 find objects final failed. Error: " ++ err.text⟩
  return objects

def findObject (session : SessionHandle) (template : Template) : Method ObjectHandle := do
  let _ ← invoke (.findObjectsInit session template) .pkcs
  let objects : List ObjectHandle ← invoke (.findObjects session 1) .pkcs
  let _ ← invoke (.findObjectsFinal session) .pkcs
  match objects with
  | [] => Program.fail (.manager ⟨.notFound, "object not found"⟩)
  | object :: _ => return object

/-- `strconv.ParseUint` of the slot, in base 10 for 32 bits. -/
def parseSlot (slot : String) : Option Nat :=
  (readNumeral 10 slot.toList).filter (· < 2 ^ 32)

/-- What the methods on a slot have in common: its number, and a session that is logged in to and
ended. -/
def withSession {α : Type} (slot pin invalidSlot : String) (readWrite : Bool)
    (openMessage loginMessage : PKCSError → String) (body : SessionHandle → Method α) :
    Method α :=
  match parseSlot slot with
  | none => Program.fail (.manager ⟨.invalidSlot, invalidSlot⟩)
  | some number => do
    let session : SessionHandle ←
      invoke (.openSession number readWrite) (translated openMessage)
    deferred (.closeSession session) do
      let _ ← invoke (.login session pin) (translated loginMessage)
      deferred (.logout session) (body session)

def invalidSlotMessage (slot : String) : String := "invalid slot: '" ++ slot ++ "'"

/-- The printed address labels the public key, and the private key too. -/
def keyLabel (env : CurveEnv) (addr : Address) : Bytes := utf8 (addr.string env.keccak)

/-- The DER encoding of the name of the curve. -/
def ellipticCurveParameters : Bytes := [0x06, 0x05, 0x2B, 0x81, 0x04, 0x00, 0x0A]

def base64Digit (n : Nat) : UInt8 :=
  if n < 26 then UInt8.ofNat (65 + n)
  else if n < 52 then UInt8.ofNat (71 + n)
  else if n < 62 then UInt8.ofNat (n - 4)
  else if n = 62 then 43
  else 47

/-- `base64.StdEncoding`. -/
def base64 : Bytes → Bytes
  | [] => []
  | [a] =>
    let n := a.toNat * 2 ^ 16
    [base64Digit (n / 2 ^ 18), base64Digit (n / 2 ^ 12 % 64), 61, 61]
  | [a, b] =>
    let n := a.toNat * 2 ^ 16 + b.toNat * 2 ^ 8
    [base64Digit (n / 2 ^ 18), base64Digit (n / 2 ^ 12 % 64), base64Digit (n / 2 ^ 6 % 64), 61]
  | a :: b :: c :: rest =>
    let n := a.toNat * 2 ^ 16 + b.toNat * 2 ^ 8 + c.toNat
    base64Digit (n / 2 ^ 18) :: base64Digit (n / 2 ^ 12 % 64) :: base64Digit (n / 2 ^ 6 % 64) ::
      base64Digit (n % 64) :: base64 rest

/-- `generateTimestampId`, at a time in nanoseconds. -/
def timestampId (time : UInt64) : Bytes := leftPad 8 (beBytes time.toNat)

def keyPairTemplate (publicTime privateTime : UInt64) : KeyPairTemplate where
  ecParams := ellipticCurveParameters
  publicLabel := base64 (timestampId publicTime)
  publicId := timestampId publicTime
  privateLabel := base64 (timestampId privateTime)
  privateId := timestampId privateTime

section Methods

variable (env : CurveEnv)

/-- A label that cannot be set is only warned about. -/
def generateKey (slot pin : String) (publicTime privateTime : UInt64) : Method Address :=
  withSession slot pin (invalidSlotMessage slot) true
    (fun err => "could not open PKCS11 session. Error: " ++ err.text)
    (fun err => "failed to login with the PKCS11 session. Error: " ++ err.text)
    fun session => do
      let handles : ObjectHandle × ObjectHandle ←
        invoke (.generateKeyPair session (keyPairTemplate publicTime privateTime)) fun err =>
          .manager ⟨.keyGenerationFailed, "error generating key: " ++ err.text⟩
      let addr ← getAddress env session handles.1
      let _ ← checked (setLabel session handles.1 (keyLabel env addr))
      let _ ← checked (setLabel session handles.2 (keyLabel env addr))
      return addr

def destroyObjects (session : SessionHandle) (message : String) :
    List ObjectHandle → Method Unit
  | [] => return ()
  | object :: objects => do
    let _ ← invoke (.destroyObject session object) (translated fun _ => message)
    destroyObjects session message objects

/-- An error of a search, wrapped once more. -/
def searched {α : Type} (body : Method α) : Method α :=
  body.orElse fun err =>
    match err with
    | .panic message => .panic message
    | .stuck => .stuck
    | err => .signare (.text err.text) ("error finding PKCS11 attributes: " ++ err.text)

def removeKey (fuel : Nat) (slot pin : String) (address : Address) : Method Unit :=
  withSession slot pin (invalidSlotMessage slot) true
    (fun err => "could not open PKCS11 session. Error: " ++ err.text)
    (fun err => "could not login PKCS11 session. Error: " ++ err.text)
    fun session => do
      let privateKeyObjects ← searched
        (findObjects fuel session ⟨.privateKey, some (keyLabel env address)⟩)
      let publicKeyObjects ← searched
        (findObjects fuel session ⟨.publicKey, some (keyLabel env address)⟩)
      if privateKeyObjects = [] ∧ publicKeyObjects = [] then
        Program.fail (.manager ⟨.notFound, "key pair not found for address '" ++
          address.string env.keccak ++ "'"⟩)
      else
        let _ ← destroyObjects session
          "call to PKCS11 destroy object function failed for the private key" privateKeyObjects
        destroyObjects session
          "call to PKCS11 destroy object function failed for the public key" publicKeyObjects

/-- `sort.Sort(ByTime(addresses))`: the order of two addresses of one time is not promised. -/
structure TimeSort where
  sort : List (Address × Nat) → List (Address × Nat)
  perm : ∀ addresses, (sort addresses).Perm addresses
  sorted : ∀ addresses, (sort addresses).Pairwise fun x y => x.2 ≤ y.2

/-- One turn of the loop of `ListKeys`. The error of the address is not looked at. -/
def listObject (session : SessionHandle) (object : ObjectHandle) :
    Method (Option (Address × Nat)) := do
  match ← checked (getLabel session object) with
  | .error _ => return none
  | .ok label =>
    match ← checked (getAddress env session object) with
    | .error _ => Program.fail (.panic nilDereference)
    | .ok addr =>
      if keyLabel env addr ≠ label then return none
      else
        match ← checked (getTimestamp session object) with
        | .error _ => return none
        | .ok time => return some (addr, time)

def listObjects (session : SessionHandle) :
    List ObjectHandle → Method (List (Address × Nat))
  | [] => return []
  | object :: objects => do
    let entry ← listObject env session object
    let entries ← listObjects session objects
    return entry.toList ++ entries

def listKeys (byTime : TimeSort) (fuel : Nat) (slot pin : String) : Method (List Address) :=
  withSession slot pin "" false (fun _ => "error opening PKCS11 session")
    (fun _ => "error logging in with the PKCS11 session")
    fun session => do
      let objects ← findObjects fuel session ⟨.publicKey, none⟩
      let addresses ← listObjects env session objects
      return (byTime.sort addresses).map Prod.fst

/-- `Sign` and `sign`. -/
def signData (slot pin : String) (payloadToSign : Bytes) (address : Address) : Method Bytes :=
  withSession slot pin (invalidSlotMessage slot) true (fun _ => "error opening PKCS11 session")
    (fun _ => "error logging in with the PKCS11 session")
    fun session => do
      let object ← (findObject session ⟨.privateKey, some (keyLabel env address)⟩).orElse fun err =>
        match err with
        | .manager ⟨.notFound, description⟩ =>
          .manager ⟨.notFound, "private key not found for address '" ++
            address.string env.keccak ++ "'. Error: " ++ (ManagerError.mk .notFound description).text⟩
        | err => err
      let _ ← invoke (.signInit session object) fun err => .manager
        { toSignatureManagerErr err "" with description :=
            "error initializing signature: " ++ err.text }
      invoke (.sign session payloadToSign) fun err => .manager
        { toSignatureManagerErr err "" with description := "error signing data: " ++ err.text }

end Methods

/-- `IsAlive`. -/
def isAlive (slot pin : String) : Method Unit :=
  withSession slot pin (invalidSlotMessage slot) true (fun _ => "error opening PKCS11 session")
    (fun _ => "error logging in with the PKCS11 session") fun _ => return ()

/-- `Close`. -/
def closeManager : Method Unit :=
  invoke .finalizeLibrary (translated fun _ => "error calling PKCS11 finalize")

/-- `Open`. -/
def openManager : Method Unit :=
  invoke .initializeLibrary (translated fun _ => "error calling PKCS11 finalize")

end Signare
