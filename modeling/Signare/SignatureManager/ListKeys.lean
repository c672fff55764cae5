import Signare.SignatureManager.PKCS11
import Mathlib.Data.List.Sort

/-!
# Listing the keys of a slot

A slot may hold objects that other software put there, and every attribute of an object may be
refused. The listing gives the addresses of the public keys that are labelled with their own address,
by the time in their ids, and leaves out the rest; but it panics on an object whose label can be
read and whose address cannot.
-/

namespace Signare

open ByteCodec

/-- What a slot answers while its keys are listed: the session, the search and its batches, and the
value of each attribute of each object. -/
structure SlotAnswers where
  opened : Except PKCSError SessionHandle
  loggedIn : Except PKCSError Unit
  loggedOut : Except PKCSError Unit
  closed : Except PKCSError Unit
  searchBegun : Except PKCSError Unit
  batches : List (List ObjectHandle)
  batches_ne_nil : ∀ batch ∈ batches, batch ≠ []
  /-- The answer behind the last batch. -/
  exhausted : Except PKCSError Unit
  searchEnded : Except PKCSError Unit
  value : ObjectHandle → AttributeType → Except PKCSError (Option Bytes)

namespace SlotAnswers

/-- The library of the slot; it remembers the batches that are left. One attribute is asked for, and
one is given. -/
def handle (slot : SlotAnswers) : (c : PKCSCall) → List (List ObjectHandle) →
    c.Answer × List (List ObjectHandle)
  | .openSession _ _, left => (slot.opened, left)
  | .login _ _, left => (slot.loggedIn, left)
  | .logout _, left => (slot.loggedOut, left)
  | .closeSession _, left => (slot.closed, left)
  | .findObjectsInit _ _, _ => (slot.searchBegun, slot.batches)
  | .findObjects _ _, [] => (slot.exhausted.map fun _ => [], [])
  | .findObjects _ _, batch :: left => (.ok batch, left)
  | .findObjectsFinal _, left => (slot.searchEnded, left)
  | .getAttributeValue _ object type, left =>
    ((slot.value object type).map fun value => [⟨type, value⟩], left)
  | .generateKeyPair _ _, left => (.ok (0, 0), left)
  | .sign _ _, left => (.ok [], left)
  | .initializeLibrary, left => (.ok (), left)
  | .finalizeLibrary, left => (.ok (), left)
  | .setLabel _ _ _, left => (.ok (), left)
  | .destroyObject _ _, left => (.ok (), left)
  | .signInit _ _, left => (.ok (), left)

variable (env : CurveEnv) (slot : SlotAnswers)

/-- The public keys of the slot. -/
def objects : List ObjectHandle := slot.batches.flatten

/-- The session and the search succeed. -/
def Succeeds : Prop :=
  slot.opened.isOk ∧ slot.loggedIn.isOk ∧ slot.searchBegun.isOk ∧ slot.exhausted.isOk ∧
    slot.searchEnded.isOk

/-- The label of an object, if it can be read. -/
def label (object : ObjectHandle) : Option Bytes :=
  (slot.value object .label).toOption.map fun value => value.getD []

/-- The address of the public key of an object, if it can be read and decoded and is on the
curve. -/
def address (object : ObjectHandle) : Option Address := do
  let value ← (slot.value object .ecPoint).toOption
  let ecp ← asn1OctetString (← value)
  (pointAddress env ecp).toOption

/-- The time in the id of an object, if that can be read. -/
def time (object : ObjectHandle) : Option Nat :=
  (slot.value object .id).toOption.map fun value =>
    let id := value.getD []
    if id.length = 8 then beNat id else 0

/-- What is to be listed of an object: its address, if it is labelled with it, and its time. -/
def entry (object : ObjectHandle) : Option (Address × Nat) := do
  let label ← slot.label object
  let address ← slot.address env object
  let time ← slot.time object
  if label = keyLabel env address then some (address, time) else none

/-- The listing is what is to be listed of the objects, by their times. -/
def Listed (result : Except MethodFailure (List Address)) : Prop :=
  ∃ timed : List (Address × Nat), timed.Perm (slot.objects.filterMap (slot.entry env)) ∧
    timed.Pairwise (fun x y => x.2 ≤ y.2) ∧ result = .ok (timed.map Prod.fst)

/-- Wherever the label of an object can be read, its address can. -/
def LabelledReadable : Prop :=
  ∀ object ∈ slot.objects, (slot.label object).isSome → (slot.address env object).isSome

end SlotAnswers

section Run

variable {S : Type} (handle : (c : PKCSCall) → S → c.Answer × S) {w w' : S} {α : Type}

theorem run_invoke (c : PKCSCall) (onError : PKCSError → MethodFailure) (w : S) :
    (invoke c onError).run handle w =
      (((handle c w).1 : Except PKCSError c.Result).mapError onError, (handle c w).2) := by
  rw [invoke, Program.run_bind_ok handle (Program.run_request handle c w)]
  split
  · rename_i err herr
    have herr : ((handle c w).1 : Except PKCSError c.Result) = .error err := herr
    rw [herr]
    rfl
  · rename_i result hresult
    have hresult : ((handle c w).1 : Except PKCSError c.Result) = .ok result := hresult
    rw [hresult]
    rfl

theorem run_checked {body : Method α} {result : Except MethodFailure α}
    (h : body.run handle w = (result, w')) (hpanic : ∀ message, result ≠ .error (.panic message)) :
    (checked body).run handle w = (.ok result, w') := by
  have hattempt : body.attempt.run handle w = (.ok result, w') := by
    rw [Program.run_attempt, h]
  rw [checked, Program.run_bind_ok handle hattempt]
  cases result with
  | ok a => rfl
  | error err =>
    cases err with
    | panic message => exact absurd rfl (hpanic message)
    | _ => rfl

theorem run_deferred (c : PKCSCall) {body : Method α} {result : Except MethodFailure α}
    (h : body.run handle w = (result, w')) :
    (deferred c body).run handle w = (result, (handle c w').2) := by
  have hattempt : body.attempt.run handle w = (.ok result, w') := by
    rw [Program.run_attempt, h]
  rw [deferred, Program.run_bind_ok handle hattempt,
    Program.run_bind_ok handle (Program.run_request handle c w')]
  rfl

section Session

variable {slot pin invalidSlot : String} {readWrite : Bool}
  {openMessage loginMessage : PKCSError → String} {body : SessionHandle → Method α}
  {number session : Nat}

theorem run_withSession {w₁ w₂ w₃ : S} {result : Except MethodFailure α}
    (hslot : parseSlot slot = some number)
    (hopen : handle (.openSession number readWrite) w = (.ok session, w₁))
    (hlogin : handle (.login session pin) w₁ = (.ok (), w₂))
    (hbody : (body session).run handle w₂ = (result, w₃)) :
    (withSession slot pin invalidSlot readWrite openMessage loginMessage body).run handle w =
      (result, (handle (.closeSession session) (handle (.logout session) w₃).2).2) := by
  have hinvokeOpen := run_invoke handle (.openSession number readWrite) (translated openMessage) w
  have hinvokeLogin := run_invoke handle (.login session pin) (translated loginMessage) w₁
  rw [hopen] at hinvokeOpen
  rw [hlogin] at hinvokeLogin
  unfold withSession
  simp only [hslot]
  refine (Program.run_bind_ok handle hinvokeOpen).trans ?_
  apply run_deferred
  refine (Program.run_bind_ok handle hinvokeLogin).trans ?_
  exact run_deferred handle (.logout session) hbody

theorem run_withSession_closed {w₁ : S} {err : PKCSError} (hslot : parseSlot slot = some number)
    (hopen : handle (.openSession number readWrite) w = (.error err, w₁)) :
    (withSession slot pin invalidSlot readWrite openMessage loginMessage body).run handle w =
      (.error (translated openMessage err), w₁) := by
  have hinvokeOpen := run_invoke handle (.openSession number readWrite) (translated openMessage) w
  rw [hopen] at hinvokeOpen
  unfold withSession
  simp only [hslot]
  exact Program.run_bind_error handle hinvokeOpen

theorem run_withSession_refused {w₁ w₂ : S} {err : PKCSError}
    (hslot : parseSlot slot = some number)
    (hopen : handle (.openSession number readWrite) w = (.ok session, w₁))
    (hlogin : handle (.login session pin) w₁ = (.error err, w₂)) :
    (withSession slot pin invalidSlot readWrite openMessage loginMessage body).run handle w =
      (.error (translated loginMessage err), (handle (.closeSession session) w₂).2) := by
  have hinvokeOpen := run_invoke handle (.openSession number readWrite) (translated openMessage) w
  have hinvokeLogin := run_invoke handle (.login session pin) (translated loginMessage) w₁
  rw [hopen] at hinvokeOpen
  rw [hlogin] at hinvokeLogin
  unfold withSession
  simp only [hslot]
  refine (Program.run_bind_ok handle hinvokeOpen).trans ?_
  apply run_deferred
  exact Program.run_bind_error handle hinvokeLogin

end Session

end Run

section Object

variable {env : CurveEnv} {slot : SlotAnswers} {session : SessionHandle} {object : ObjectHandle}

/-- A method that reads of an object what there is, and neither panics nor disturbs the search. -/
def Reads {α : Type} (slot : SlotAnswers) (body : Method α) (value : Option α) : Prop :=
  ∀ left, ∃ result, body.run slot.handle left = (result, left) ∧ result.toOption = value ∧
    ∀ message, result ≠ .error (.panic message)

theorem Reads.checked {α : Type} {body : Method α} {value : Option α} (h : Reads slot body value)
    (left : List (List ObjectHandle)) : ∃ result, result.toOption = value ∧
      (Signare.checked body).run slot.handle left = (.ok result, left) := by
  obtain ⟨result, hrun, hvalue, hpanic⟩ := h left
  exact ⟨result, hvalue, run_checked slot.handle hrun hpanic⟩

theorem Reads.bind {α β : Type} {body : Method α} {f : α → Method β} {value : Option α}
    {g : α → Option β} (h : Reads slot body value) (hf : ∀ a, Reads slot (f a) (g a)) :
    Reads slot (body >>= f) (value.bind g) := by
  intro left
  obtain ⟨result, hrun, hvalue, hpanic⟩ := h left
  rw [← hvalue]
  cases result with
  | error err =>
    refine ⟨.error err, Program.run_bind_error slot.handle hrun, rfl, fun message heq => ?_⟩
    cases heq
    exact hpanic message rfl
  | ok a =>
    rw [Program.run_bind_ok slot.handle hrun]
    exact hf a left

theorem reads_ok {α : Type} (a : α) : Reads slot (.done (.ok a)) (some a) :=
  fun _ => ⟨_, rfl, rfl, nofun⟩

theorem reads_error {α : Type} {err : MethodFailure} (hpanic : ∀ message, err ≠ .panic message) :
    Reads (α := α) slot (.done (.error err)) none :=
  fun _ => ⟨_, rfl, rfl, fun message heq => hpanic message (Except.error.inj heq)⟩

theorem reads_attribute {β : Type} (type : AttributeType) {onError : PKCSError → MethodFailure}
    (hpanic : ∀ err message, onError err ≠ .panic message) {f : List Attribute → Method β}
    {g : Option Bytes → Option β} (hf : ∀ value, Reads slot (f [⟨type, value⟩]) (g value)) :
    Reads slot (invoke (.getAttributeValue session object type) onError >>= f)
      ((slot.value object type).toOption.bind g) := by
  intro left
  have hinvoke := run_invoke slot.handle (.getAttributeValue session object type) onError left
  cases hvalue : slot.value object type with
  | error err =>
    simp only [SlotAnswers.handle, hvalue] at hinvoke
    exact ⟨_, Program.run_bind_error slot.handle hinvoke, rfl,
      fun message heq => hpanic err message (Except.error.inj heq)⟩
  | ok value =>
    simp only [SlotAnswers.handle, hvalue] at hinvoke
    obtain ⟨result, hrun, hresult⟩ := hf value left
    exact ⟨result, (Program.run_bind_ok slot.handle hinvoke).trans hrun, hresult⟩

theorem reads_getLabel : Reads slot (getLabel session object) (slot.label object) := by
  rw [SlotAnswers.label, Option.map_eq_bind]
  apply reads_attribute
  · exact nofun
  · intro value
    exact reads_ok _

theorem reads_getTimestamp : Reads slot (getTimestamp session object) (slot.time object) := by
  rw [SlotAnswers.time, Option.map_eq_bind]
  apply reads_attribute
  · exact nofun
  · intro value
    exact reads_ok _

theorem reads_getECPoint : Reads slot (getECPoint session object)
    ((slot.value object .ecPoint).toOption.bind id) := by
  apply reads_attribute
  · exact nofun
  · intro value
    cases value with
    | none => exact reads_error nofun
    | some ecPoint => exact reads_ok ecPoint

theorem reads_getDecodedECPoint : Reads slot (getDecodedECPoint session object)
    (((slot.value object .ecPoint).toOption.bind id).bind asn1OctetString) := by
  apply reads_getECPoint.bind
  intro ecPoint
  cases asn1OctetString ecPoint with
  | none => exact reads_error nofun
  | some ecp => exact reads_ok ecp

theorem pointAddress_ne_panic (ecp : Bytes) (message : String) :
    pointAddress env ecp ≠ .error (.panic message) := by
  unfold pointAddress
  cases env.parsePubKey ecp with
  | error err => exact nofun
  | ok pubKey =>
    show (deriveAddressFromPublicKey env.keccak pubKey).mapError _ ≠ _
    cases deriveAddressFromPublicKey env.keccak pubKey with
    | error err => exact nofun
    | ok address => exact nofun

theorem reads_getAddress :
    Reads slot (getAddress env session object) (slot.address env object) := by
  intro left
  have hreads : Reads slot (getDecodedECPoint session object) _ := reads_getDecodedECPoint
  obtain ⟨result, hvalue, hrun⟩ := hreads.checked left
  have haddress : slot.address env object =
      result.toOption.bind fun ecp => (pointAddress env ecp).toOption := by
    rw [hvalue, SlotAnswers.address]
    cases (slot.value object .ecPoint).toOption with
    | none => rfl
    | some value =>
      cases value with
      | none => rfl
      | some ecPoint => rfl
  rw [getAddress, Program.run_bind_ok slot.handle hrun, haddress]
  cases result with
  | error err => exact ⟨_, rfl, rfl, nofun⟩
  | ok ecp => exact ⟨_, rfl, rfl, pointAddress_ne_panic ecp⟩

theorem run_listObject (left : List (List ObjectHandle)) :
    (listObject env session object).run slot.handle left =
      if (slot.label object).isSome ∧ (slot.address env object).isNone then
        (.error (.panic nilDereference), left)
      else (.ok (slot.entry env object), left) := by
  have hlabels : Reads slot (getLabel session object) _ := reads_getLabel
  have haddresses : Reads slot (getAddress env session object) _ := reads_getAddress
  have htimes : Reads slot (getTimestamp session object) _ := reads_getTimestamp
  obtain ⟨label, hlabel, hrunLabel⟩ := hlabels.checked left
  obtain ⟨address, haddress, hrunAddress⟩ := haddresses.checked left
  obtain ⟨time, htime, hrunTime⟩ := htimes.checked left
  rw [listObject, Program.run_bind_ok slot.handle hrunLabel, SlotAnswers.entry, ← hlabel,
    ← haddress, ← htime]
  cases label with
  | error err => rfl
  | ok label =>
    show Program.run slot.handle (checked (getAddress env session object) >>= _) left = _
    rw [Program.run_bind_ok slot.handle hrunAddress]
    cases address with
    | error err => rfl
    | ok address =>
      have hboth : ¬ ((Except.ok label : Except MethodFailure Bytes).toOption.isSome ∧
          (Except.ok address : Except MethodFailure Address).toOption.isNone) := by
        intro h
        cases h.2
      rw [if_neg hboth]
      by_cases hkey : keyLabel env address = label
      · show Program.run slot.handle (if keyLabel env address ≠ label then _ else
          checked (getTimestamp session object) >>= _) left = _
        rw [if_neg (not_not.mpr hkey), Program.run_bind_ok slot.handle hrunTime]
        cases time with
        | error err => rfl
        | ok time =>
          show (_, left) = (Except.ok (if label = keyLabel env address then _ else _), left)
          rw [if_pos hkey.symm]
      · show Program.run slot.handle (if keyLabel env address ≠ label then _ else _) left = _
        rw [if_pos hkey]
        cases time with
        | error err => rfl
        | ok time =>
          show (_, left) = (Except.ok (if label = keyLabel env address then _ else _), left)
          rw [if_neg (Ne.symm hkey)]

end Object

section Slot

variable {env : CurveEnv} {slot : SlotAnswers} {session : SessionHandle}

/-- An object makes the listing panic. -/
def SlotAnswers.Breaks (env : CurveEnv) (slot : SlotAnswers) (object : ObjectHandle) : Prop :=
  (slot.label object).isSome ∧ (slot.address env object).isNone

theorem not_breaks_iff {object : ObjectHandle} : ¬ slot.Breaks env object ↔
    ((slot.label object).isSome → (slot.address env object).isSome) := by
  rw [SlotAnswers.Breaks, not_and, ← Option.not_isSome, Bool.not_eq_true', Bool.not_eq_false]

theorem run_listObjects (left : List (List ObjectHandle)) (objects : List ObjectHandle)
    (h : ∀ object ∈ objects, ¬ slot.Breaks env object) :
    (listObjects env session objects).run slot.handle left =
      (.ok (objects.filterMap (slot.entry env)), left) := by
  induction objects with
  | nil => rfl
  | cons object objects ih =>
    have hobject : (listObject env session object).run slot.handle left =
        (.ok (slot.entry env object), left) :=
      (run_listObject left).trans (if_neg (h object List.mem_cons_self))
    have hrest := ih fun object' hobject' => h object' (List.mem_cons_of_mem object hobject')
    rw [listObjects, Program.run_bind_ok slot.handle hobject,
      Program.run_bind_ok slot.handle hrest, List.filterMap_cons]
    cases slot.entry env object with
    | none => rfl
    | some entry => rfl

theorem run_listObjects_panic (left : List (List ObjectHandle)) (objects : List ObjectHandle)
    (h : ∃ object ∈ objects, slot.Breaks env object) :
    (listObjects env session objects).run slot.handle left =
      (.error (.panic nilDereference), left) := by
  induction objects with
  | nil =>
    obtain ⟨object, hobject, -⟩ := h
    cases hobject
  | cons object objects ih =>
    rw [listObjects]
    by_cases hbreaks : slot.Breaks env object
    · apply Program.run_bind_error
      exact (run_listObject left).trans (if_pos hbreaks)
    · have hobject : (listObject env session object).run slot.handle left =
          (.ok (slot.entry env object), left) :=
        (run_listObject left).trans (if_neg hbreaks)
      rw [Program.run_bind_ok slot.handle hobject]
      apply Program.run_bind_error
      apply ih
      obtain ⟨object', hobject', hbreaks'⟩ := h
      cases List.mem_cons.mp hobject' with
      | inl heq => exact absurd (heq ▸ hbreaks') hbreaks
      | inr hmem => exact ⟨object', hmem, hbreaks'⟩

theorem run_findBatches {left : List (List ObjectHandle)} (hleft : ∀ batch ∈ left, batch ≠ [])
    {fuel : Nat} (hfuel : left.length < fuel) :
    (findBatches session fuel).run slot.handle left =
      (((slot.exhausted.map fun _ => left.flatten).mapError fun err =>
        .manager ⟨.internal, "PKCS11 find objects failed. Error: " ++ err.text⟩), []) := by
  induction left generalizing fuel with
  | nil =>
    obtain ⟨fuel, rfl⟩ : ∃ n, fuel = n + 1 := Nat.exists_eq_succ_of_ne_zero (by omega)
    have hinvoke := run_invoke slot.handle (.findObjects session batchSize) (fun err =>
      .manager ⟨.internal, "PKCS11 find objects failed. Error: " ++ err.text⟩) []
    rw [findBatches]
    cases hexhausted : slot.exhausted with
    | error err =>
      simp only [SlotAnswers.handle, hexhausted] at hinvoke
      exact Program.run_bind_error slot.handle hinvoke
    | ok _ =>
      simp only [SlotAnswers.handle, hexhausted] at hinvoke
      exact Program.run_bind_ok slot.handle hinvoke
  | cons batch left ih =>
    obtain ⟨fuel, rfl⟩ : ∃ n, fuel = n + 1 := Nat.exists_eq_succ_of_ne_zero (by omega)
    have hinvoke := run_invoke slot.handle (.findObjects session batchSize) (fun err =>
      .manager ⟨.internal, "PKCS11 find objects failed. Error: " ++ err.text⟩) (batch :: left)
    have hrest := ih (fun batch' hbatch' => hleft batch' (List.mem_cons_of_mem batch hbatch'))
      (Nat.lt_of_succ_lt_succ hfuel)
    rw [findBatches]
    refine (Program.run_bind_ok slot.handle hinvoke).trans ?_
    show Program.run slot.handle (if batch = [] then _ else findBatches session fuel >>= _) left = _
    rw [if_neg (hleft batch List.mem_cons_self)]
    cases hexhausted : slot.exhausted with
    | error err =>
      rw [hexhausted] at hrest
      exact Program.run_bind_error slot.handle hrest
    | ok _ =>
      rw [hexhausted] at hrest
      exact Program.run_bind_ok slot.handle hrest

theorem run_findObjects {left : List (List ObjectHandle)} {fuel : Nat}
    (hfuel : slot.batches.length < fuel) (template : Template) :
    ∃ result left', (findObjects fuel session template).run slot.handle left = (result, left') ∧
      (result = .ok slot.objects ∧
          (slot.searchBegun.isOk ∧ slot.exhausted.isOk ∧ slot.searchEnded.isOk) ∨
        (∃ err, result = .error (.manager err)) ∧
          ¬ (slot.searchBegun.isOk ∧ slot.exhausted.isOk ∧ slot.searchEnded.isOk)) := by
  have hbegin := run_invoke slot.handle (.findObjectsInit session template) (fun err =>
    .manager ⟨.internal, "PKCS11 find objects init failed. Error: " ++ err.text⟩) left
  have hfind : (findBatches session fuel).run slot.handle slot.batches = _ :=
    run_findBatches slot.batches_ne_nil hfuel
  have hend := run_invoke slot.handle (.findObjectsFinal session) (fun err =>
    .manager ⟨.internal, "PKCS11 find objects final failed. Error: " ++ err.text⟩) []
  cases hbegun : slot.searchBegun with
  | error err =>
    simp only [SlotAnswers.handle, hbegun] at hbegin
    exact ⟨_, _, Program.run_bind_error slot.handle hbegin, .inr ⟨⟨_, rfl⟩, fun h => nomatch h.1⟩⟩
  | ok _ =>
    simp only [SlotAnswers.handle, hbegun] at hbegin
    cases hexhausted : slot.exhausted with
    | error err =>
      rw [hexhausted] at hfind
      exact ⟨_, _, (Program.run_bind_ok slot.handle hbegin).trans
        (Program.run_bind_error slot.handle hfind), .inr ⟨⟨_, rfl⟩, fun h => nomatch h.2.1⟩⟩
    | ok _ =>
      rw [hexhausted] at hfind
      cases hended : slot.searchEnded with
      | error err =>
        simp only [SlotAnswers.handle, hended] at hend
        exact ⟨_, _, (Program.run_bind_ok slot.handle hbegin).trans
          ((Program.run_bind_ok slot.handle hfind).trans
            (Program.run_bind_error slot.handle hend)),
          .inr ⟨⟨_, rfl⟩, fun h => nomatch h.2.2⟩⟩
      | ok _ =>
        simp only [SlotAnswers.handle, hended] at hend
        exact ⟨_, _, (Program.run_bind_ok slot.handle hbegin).trans
          ((Program.run_bind_ok slot.handle hfind).trans (Program.run_bind_ok slot.handle hend)),
          .inl ⟨rfl, rfl, rfl, rfl⟩⟩

end Slot

section Listing

variable (env : CurveEnv) {slot : SlotAnswers} (byTime : TimeSort) {slotNumber : String}
  (pin : String) {fuel : Nat}

/-- How a listing ends. -/
def listing (slot : SlotAnswers) (fuel : Nat) (slotNumber : String) :
    Except MethodFailure (List Address) :=
  ((listKeys env byTime fuel slotNumber pin).run slot.handle []).1

theorem listing_of_fails (hfuel : slot.batches.length < fuel)
    (h : ¬ ((parseSlot slotNumber).isSome ∧ slot.Succeeds)) :
    ∃ err, listing env byTime pin slot fuel slotNumber = .error (.manager err) := by
  unfold listing listKeys
  cases hslot : parseSlot slotNumber with
  | none =>
    unfold withSession
    simp only [hslot]
    exact ⟨_, rfl⟩
  | some number =>
    cases hopened : slot.opened with
    | error err =>
      have hopen : slot.handle (.openSession number false) [] = (.error err, []) :=
        congrArg (·, []) hopened
      rw [run_withSession_closed slot.handle hslot hopen]
      exact ⟨_, rfl⟩
    | ok session =>
      have hopen : slot.handle (.openSession number false) [] = (.ok session, []) :=
        congrArg (·, []) hopened
      cases hloggedIn : slot.loggedIn with
      | error err =>
        have hlogin : slot.handle (.login session pin) [] = (.error err, []) :=
          congrArg (·, []) hloggedIn
        rw [run_withSession_refused slot.handle hslot hopen hlogin]
        exact ⟨_, rfl⟩
      | ok _ =>
        have hlogin : slot.handle (.login session pin) [] = (.ok (), []) :=
          congrArg (·, []) hloggedIn
        have hsearch : ∃ result left', (findObjects fuel session ⟨.publicKey, none⟩).run slot.handle
          [] = (result, left') ∧ _ := run_findObjects hfuel ⟨.publicKey, none⟩
        obtain ⟨result, left, hfind, hresult⟩ := hsearch
        cases hresult with
        | inl hok =>
          refine absurd ⟨Option.isSome_of_eq_some hslot, ?_⟩ h
          rw [SlotAnswers.Succeeds, hopened, hloggedIn]
          exact ⟨rfl, rfl, hok.2⟩
        | inr herror =>
          obtain ⟨⟨err, rfl⟩, -⟩ := herror
          rw [run_withSession slot.handle hslot hopen hlogin
            (Program.run_bind_error slot.handle hfind)]
          exact ⟨err, rfl⟩

theorem exists_of_isOk {α : Type} {answer : Except PKCSError α} (h : answer.isOk) :
    ∃ a, answer = .ok a := by
  cases answer with
  | error err => cases h
  | ok a => exact ⟨a, rfl⟩

theorem listing_of_succeeds (hfuel : slot.batches.length < fuel)
    (hslot : (parseSlot slotNumber).isSome) (h : slot.Succeeds) :
    ((∀ object ∈ slot.objects, ¬ slot.Breaks env object) →
        listing env byTime pin slot fuel slotNumber =
          .ok ((byTime.sort (slot.objects.filterMap (slot.entry env))).map Prod.fst)) ∧
      ((∃ object ∈ slot.objects, slot.Breaks env object) →
        listing env byTime pin slot fuel slotNumber = .error (.panic nilDereference)) := by
  obtain ⟨number, hslot⟩ := Option.isSome_iff_exists.mp hslot
  obtain ⟨hopened, hloggedIn, hsearched⟩ := h
  obtain ⟨session, hopened⟩ := exists_of_isOk hopened
  obtain ⟨_, hloggedIn⟩ := exists_of_isOk hloggedIn
  have hopen : slot.handle (.openSession number false) [] = (.ok session, []) :=
    congrArg (·, []) hopened
  have hlogin : slot.handle (.login session pin) [] = (.ok (), []) :=
    congrArg (·, []) hloggedIn
  have hsearch : ∃ result left', (findObjects fuel session ⟨.publicKey, none⟩).run slot.handle
    [] = (result, left') ∧ _ := run_findObjects hfuel ⟨.publicKey, none⟩
  obtain ⟨result, left, hfind, hresult⟩ := hsearch
  cases hresult with
  | inr herror => exact absurd hsearched herror.2
  | inl hok =>
    rw [hok.1] at hfind
    unfold listing listKeys
    constructor
    · intro hreadable
      have hlist : (listObjects env session slot.objects).run slot.handle left = _ :=
        run_listObjects left slot.objects hreadable
      rw [run_withSession slot.handle hslot hopen hlogin ((Program.run_bind_ok slot.handle hfind).trans
        (Program.run_bind_ok slot.handle hlist))]
    · intro hbreaks
      have hlist : (listObjects env session slot.objects).run slot.handle left = _ :=
        run_listObjects_panic left slot.objects hbreaks
      rw [run_withSession slot.handle hslot hopen hlogin ((Program.run_bind_ok slot.handle hfind).trans
        (Program.run_bind_error slot.handle hlist))]

/-- Listing the keys never panics and, where the session and the search succeed, gives what is to be
listed, if and only if every object that is found has an address that can be read, or no label. -/
theorem listing_total_iff (slot : SlotAnswers) (slotNumber : String)
    (hfuel : slot.batches.length < fuel) :
    ((∀ message, listing env byTime pin slot fuel slotNumber ≠ .error (.panic message)) ∧
        ((parseSlot slotNumber).isSome → slot.Succeeds →
          slot.Listed env (listing env byTime pin slot fuel slotNumber))) ↔
      ((parseSlot slotNumber).isSome → slot.Succeeds → slot.LabelledReadable env) := by
  have hlabelled : slot.LabelledReadable env ↔ ∀ object ∈ slot.objects, ¬ slot.Breaks env object :=
    forall₂_congr fun _ _ => not_breaks_iff.symm
  constructor
  · intro h hslot hsucceeds
    rw [hlabelled]
    intro object hobject hbreaks
    exact h.1 _
      ((listing_of_succeeds env byTime pin hfuel hslot hsucceeds).2 ⟨object, hobject, hbreaks⟩)
  · intro h
    by_cases hruns : (parseSlot slotNumber).isSome ∧ slot.Succeeds
    · have hlisting := (listing_of_succeeds env byTime pin hfuel hruns.1 hruns.2).1
        (hlabelled.mp (h hruns.1 hruns.2))
      rw [hlisting]
      exact ⟨nofun, fun _ _ => ⟨_, byTime.perm _, byTime.sorted _, rfl⟩⟩
    · obtain ⟨err, herr⟩ := listing_of_fails env byTime pin hfuel hruns
      rw [herr]
      exact ⟨nofun, fun hslot hsucceeds => absurd ⟨hslot, hsucceeds⟩ hruns⟩

end Listing

/-- A curve that no key is on. -/
def noCurve : CurveEnv where
  keccak := ⟨fun _ => List.replicate 32 0, fun _ => List.length_replicate⟩
  recoverCompact _ _ := .ok none
  parsePubKey _ := .error (.text "invalid public key")

/-- The slot with one public key, whose attributes are as given. -/
def oneObject (value : AttributeType → Except PKCSError (Option Bytes)) : SlotAnswers where
  opened := .ok 1
  loggedIn := .ok ()
  loggedOut := .ok ()
  closed := .ok ()
  searchBegun := .ok ()
  batches := [[7]]
  batches_ne_nil := by decide
  exhausted := .ok ()
  searchEnded := .ok ()
  value _ := value

def TimeSort.insertion : TimeSort where
  sort addresses := addresses.insertionSort fun x y => x.2 ≤ y.2
  perm addresses := List.perm_insertionSort _ addresses
  sorted addresses := by
    rw [← List.pairwise_map (f := Prod.snd) (R := (· ≤ ·)),
      List.map_insertionSort (s := (· ≤ ·)) _ Prod.snd addresses fun _ _ _ _ => Iff.rfl]
    exact List.pairwise_insertionSort _ _

/-- A key that has no label and no point. -/
def unlabelledSlot : SlotAnswers := oneObject fun _ => .error ⟨0x12, "CKR_ATTRIBUTE_TYPE_INVALID"⟩

theorem listing_total_iff_unlabelled :
    ((∀ message, listing noCurve .insertion "1234" unlabelledSlot 2 "0" ≠ .error (.panic message)) ∧
        ((parseSlot "0").isSome → unlabelledSlot.Succeeds →
          unlabelledSlot.Listed noCurve (listing noCurve .insertion "1234" unlabelledSlot 2 "0"))) ↔
      ((parseSlot "0").isSome → unlabelledSlot.Succeeds →
        unlabelledSlot.LabelledReadable noCurve) :=
  listing_total_iff noCurve .insertion "1234" unlabelledSlot "0" (by decide)

/-- A key with a label whose point is not on the curve. -/
def foreignSlot : SlotAnswers := oneObject fun
  | .label => .ok (some (utf8 "backup"))
  | .ecPoint => .ok (some [0x04, 0x01, 0x00])
  | .id => .ok (some [0x01])

theorem listing_foreign_panics :
    listing noCurve .insertion "1234" foreignSlot 2 "0" = .error (.panic nilDereference) := by
  rfl

end Signare
