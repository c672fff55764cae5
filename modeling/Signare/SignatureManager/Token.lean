import Signare.Lib.Answering
import Signare.SignatureManager.ListKeys
import Mathlib.Logic.Function.Basic

/-!
# A token with keys

The token of one slot: objects under handles, the search that is under way and the key that signs.
Any call may fail, and then leaves the token as it was. Matching objects are found in any order and
in batches of any size.
-/

namespace Signare

open ByteCodec

/-- The two keys of a pair have one point. -/
structure KeyObject where
  objectClass : ObjectClass
  label : Bytes
  id : Bytes
  ecPoint : Bytes
  deriving DecidableEq

def KeyObject.value (object : KeyObject) : AttributeType → Bytes
  | .label => object.label
  | .ecPoint => object.ecPoint
  | .id => object.id

def KeyObject.Matches (template : Template) (object : KeyObject) : Prop :=
  object.objectClass = template.objectClass ∧ ∀ label ∈ template.label, object.label = label

/-- The address of the pair. -/
def KeyObject.Belongs (env : CurveEnv) (addr : Address) (object : KeyObject) : Prop :=
  ∃ ecp, asn1OctetString object.ecPoint = some ecp ∧ pointAddress env ecp = .ok addr

structure Token where
  objects : ObjectHandle → Option KeyObject
  search : List ObjectHandle
  signing : Option ObjectHandle

namespace Token

/-- The token of an empty slot. -/
def empty : Token := ⟨fun _ => none, [], none⟩

/-- The handles of the objects that match, in some order. -/
def Found (t : Token) (template : Template) (found : List ObjectHandle) : Prop :=
  found.Nodup ∧
    ∀ handle, handle ∈ found ↔ ∃ object ∈ t.objects handle, object.Matches template

def put (t : Token) (handle : ObjectHandle) (object : Option KeyObject) : Token :=
  { t with objects := Function.update t.objects handle object }

/-- The token with a pair more. -/
def putPair (t : Token) (handles : ObjectHandle × ObjectHandle) (template : KeyPairTemplate)
    (ecPoint : Bytes) : Token :=
  (t.put handles.1 (some ⟨.publicKey, template.publicLabel, template.publicId, ecPoint⟩)).put
    handles.2 (some ⟨.privateKey, template.privateLabel, template.privateId, ecPoint⟩)

/-- What calls that succeed give and do. -/
def Succeeds (t : Token) : (c : PKCSCall) → c.Result → Token → Prop
  | .generateKeyPair _ template, handles, t' =>
    handles.1 ≠ handles.2 ∧ t.objects handles.1 = none ∧ t.objects handles.2 = none ∧
      ∃ ecPoint, t' = t.putPair handles template ecPoint
  | .setLabel _ handle label, _, t' =>
    ∃ object ∈ t.objects handle, t' = t.put handle (some { object with label := label })
  | .getAttributeValue _ handle type, attributes, t' =>
    t' = t ∧ ∃ object ∈ t.objects handle, attributes = [⟨type, some (object.value type)⟩]
  | .findObjectsInit _ template, _, t' =>
    ∃ found, t.Found template found ∧ t' = { t with search := found }
  | .findObjects _ max, (batch : List ObjectHandle), t' =>
    batch.length ≤ max ∧ (batch = [] → t.search = []) ∧
      ∃ left, t.search = batch ++ left ∧ t' = { t with search := left }
  | .destroyObject _ handle, _, t' => (t.objects handle).isSome ∧ t' = t.put handle none
  | .signInit _ handle, _, t' =>
    (∃ object ∈ t.objects handle, object.objectClass = .privateKey) ∧
      t' = { t with signing := some handle }
  | .sign _ _, _, t' => t.signing.isSome ∧ t' = t
  | _, _, t' => t' = t

/-- A call fails, or does what it is for. -/
def answers : Program.Answering PKCSCall PKCSCall.Answer Token := fun t c answer t' =>
  match (answer : Except PKCSError c.Result) with
  | .error _ => t' = t
  | .ok result => t.Succeeds c result t'

/-- The label of a private key is set, or a public key is destroyed. -/
def Critical (t : Token) : PKCSCall → Prop
  | .setLabel _ handle _ => ∃ object ∈ t.objects handle, object.objectClass = .privateKey
  | .destroyObject _ handle => ∃ object ∈ t.objects handle, object.objectClass = .publicKey
  | _ => False

/-- These calls do not fail. -/
def steady : Program.Answering PKCSCall PKCSCall.Answer Token := fun t c answer t' =>
  answers t c answer t' ∧ (t.Critical c → (answer : Except PKCSError c.Result).isOk)

/-- No call fails. -/
def flawless : Program.Answering PKCSCall PKCSCall.Answer Token := fun t c answer t' =>
  answers t c answer t' ∧ (answer : Except PKCSError c.Result).isOk

section Put

variable {t : Token} {handle handle' : ObjectHandle} {object : Option KeyObject}

@[simp] theorem put_objects_self : (t.put handle object).objects handle = object :=
  Function.update_self ..

@[simp] theorem put_objects_of_ne (h : handle' ≠ handle) :
    (t.put handle object).objects handle' = t.objects handle' :=
  Function.update_of_ne h ..

end Put

end Token

section Rules

variable {S α β : Type} {may : Program.Answering PKCSCall PKCSCall.Answer S} {w : S}

theorem always_invoke {c : PKCSCall} {onError : PKCSError → MethodFailure}
    {expected : Except MethodFailure c.Result → S → Prop}
    (herror : ∀ err w', may w c (.error err) w' → expected (.error (onError err)) w')
    (hok : ∀ result w', may w c (.ok result) w' → expected (.ok result) w') :
    (invoke c onError).Always may expected w := by
  intro answer w' hmay
  cases answer with
  | error err => exact herror err w' hmay
  | ok result => exact hok result w' hmay

theorem always_invoke_bind {c : PKCSCall} {onError : PKCSError → MethodFailure}
    {f : c.Result → Method β} {expected : Except MethodFailure β → S → Prop}
    (herror : ∀ err w', may w c (.error err) w' → expected (.error (onError err)) w')
    (hok : ∀ result w', may w c (.ok result) w' → (f result).Always may expected w') :
    (invoke c onError >>= f).Always may expected w := by
  intro answer w' hmay
  cases answer with
  | error err => exact herror err w' hmay
  | ok result => exact hok result w' hmay

theorem always_deferred {c : PKCSCall} {body : Method α}
    {expected : Except MethodFailure α → S → Prop}
    (h : body.Always may (fun result w' => ∀ answer v, may w' c answer v → expected result v) w) :
    (deferred c body).Always may expected w := by
  apply Program.Always.attempt_bind
  exact h.mono fun result w' hresult answer v hmay => hresult answer v hmay

theorem always_checked_bind {body : Method α} {f : Except MethodFailure α → Method β}
    {expected : Except MethodFailure β → S → Prop}
    (h : body.Always may (fun result w' =>
      (∀ message, result = .error (.panic message) → expected (.error (.panic message)) w') ∧
        (f result).Always may expected w') w) :
    (checked body >>= f).Always may expected w := by
  have hchecked : (checked body).Always may (fun result w' =>
      (∀ err, result = .error err → expected (.error err) w') ∧
        ∀ outcome, result = .ok outcome → (f outcome).Always may expected w') w := by
    apply Program.Always.attempt_bind
    apply h.mono
    intro result w' hresult
    cases result with
    | ok a =>
      refine ⟨nofun, fun outcome houtcome => ?_⟩
      cases houtcome
      exact hresult.2
    | error err =>
      cases err with
      | panic message =>
        refine ⟨fun err herr => ?_, nofun⟩
        cases herr
        exact hresult.1 message rfl
      | _ =>
        refine ⟨nofun, fun outcome houtcome => ?_⟩
        cases houtcome
        exact hresult.2
  apply hchecked.bind
  · intro err w' hbetween
    exact hbetween.1 err rfl
  · intro outcome w' hbetween
    exact hbetween.2 outcome rfl

end Rules

section OnToken

variable {α : Type} {may : Program.Answering PKCSCall PKCSCall.Answer Token}
  (hmay : ∀ t c answer t', may t c answer t' → Token.answers t c answer t') {t : Token}

include hmay

/-- The session does not change the token. -/
theorem always_withSession {slot pin invalidSlot : String} {readWrite : Bool}
    {openMessage loginMessage : PKCSError → String} {body : SessionHandle → Method α}
    {expected : Except MethodFailure α → Token → Prop}
    (hslot : parseSlot slot = none → expected (.error (.manager ⟨.invalidSlot, invalidSlot⟩)) t)
    (hrefused : ∀ c err message, may t c (.error err) t →
      expected (.error (translated message err)) t)
    (hbody : ∀ session, (body session).Always may expected t) :
    (withSession slot pin invalidSlot readWrite openMessage loginMessage body).Always may
      expected t := by
  unfold withSession
  split
  · exact hslot ‹_›
  · apply always_invoke_bind
    · intro err t' hopen
      cases hmay _ _ _ _ hopen
      exact hrefused _ err openMessage hopen
    · intro session t' hopen
      cases hmay _ _ _ _ hopen
      -- the calls behind the body leave the token as they find it
      have hend {c : PKCSCall} {expected : Except MethodFailure α → Token → Prop}
          (hc : ∀ t answer t', may t c answer t' → t' = t) {body : Method α} {t : Token}
          (h : body.Always may expected t) : (deferred c body).Always may expected t := by
        apply always_deferred
        apply h.mono
        intro result t' hresult answer t'' hanswer
        rw [hc t' answer t'' hanswer]
        exact hresult
      apply hend
      · intro t answer t' hclose
        have := hmay _ _ _ _ hclose
        cases answer with
        | error err => exact this
        | ok _ => exact this
      · apply always_invoke_bind
        · intro err t' hlogin
          cases hmay _ _ _ _ hlogin
          exact hrefused _ err loginMessage hlogin
        · intro _ t' hlogin
          cases hmay _ _ _ _ hlogin
          apply hend
          · intro t answer t' hlogout
            have := hmay _ _ _ _ hlogout
            cases answer with
            | error err => exact this
            | ok _ => exact this
          · exact hbody session

variable {env : CurveEnv} {session : SessionHandle} {handle : ObjectHandle}

theorem always_getECPoint :
    (getECPoint session handle).Always may (fun result t' => t' = t ∧ ∀ ecPoint, result = .ok ecPoint →
      ∃ object ∈ t.objects handle, ecPoint = object.ecPoint) t := by
  apply always_invoke_bind
  · intro err t' hcall
    exact ⟨hmay _ _ _ _ hcall, nofun⟩
  · intro attributes t' hcall
    obtain ⟨rfl, object, hobject, rfl⟩ := hmay _ _ _ _ hcall
    refine ⟨rfl, fun ecPoint hecPoint => ?_⟩
    cases hecPoint
    exact ⟨object, hobject, rfl⟩

theorem always_getAddress :
    (getAddress env session handle).Always may (fun result t' => t' = t ∧
      ∀ addr, result = .ok addr → ∃ object ∈ t.objects handle, object.Belongs env addr) t := by
  have hdecoded : (getDecodedECPoint session handle).Always may (fun result t' => t' = t ∧
      ∀ ecp, result = .ok ecp → ∃ object ∈ t.objects handle,
        asn1OctetString object.ecPoint = some ecp) t := by
    apply (always_getECPoint hmay).bind
    · intro err t' hpoint
      exact ⟨hpoint.1, nofun⟩
    · intro ecPoint t' hpoint
      obtain ⟨object, hobject, rfl⟩ := hpoint.2 ecPoint rfl
      split
      · rename_i ecp hecp
        refine ⟨hpoint.1, fun ecp' hecp' => ?_⟩
        cases hecp'
        exact ⟨object, hobject, hecp⟩
      · exact ⟨hpoint.1, nofun⟩
  apply always_checked_bind
  apply hdecoded.mono
  intro result t' hresult
  refine ⟨fun message _ => ⟨hresult.1, nofun⟩, ?_⟩
  cases result with
  | error err => exact ⟨hresult.1, nofun⟩
  | ok ecp =>
    obtain ⟨object, hobject, hecp⟩ := hresult.2 ecp rfl
    exact ⟨hresult.1, fun addr haddr => ⟨object, hobject, ecp, hecp, haddr⟩⟩

theorem always_findBatches (fuel : Nat) :
    (findBatches session fuel).Always may (fun result t' => t'.objects = t.objects ∧
      ∀ found, result = .ok found → found = t.search) t := by
  induction fuel generalizing t with
  | zero => exact ⟨rfl, nofun⟩
  | succ fuel ih =>
    apply always_invoke_bind
    · intro err t' hcall
      have hstays : t' = t := hmay _ _ _ _ hcall
      rw [hstays]
      exact ⟨rfl, nofun⟩
    · intro (batch : List ObjectHandle) t' hcall
      obtain ⟨-, hlast, left, hsearch, rfl⟩ := hmay _ _ _ _ hcall
      show Program.Always may (if batch = [] then _ else findBatches session fuel >>= _) _ _
      by_cases hbatch : batch = []
      · rw [if_pos hbatch]
        refine ⟨rfl, fun found hfound => ?_⟩
        cases hfound
        exact (hlast hbatch).symm
      · rw [if_neg hbatch]
        apply ih.bind
        · intro err t' hrest
          exact ⟨hrest.1, nofun⟩
        · intro more t' hrest
          refine ⟨hrest.1, fun found hfound => ?_⟩
          cases hfound
          rw [hrest.2 more rfl, hsearch]

/-- All objects that match are found. -/
theorem always_findObjects (fuel : Nat) (template : Template) :
    (findObjects fuel session template).Always may (fun result t' => t'.objects = t.objects ∧
      ∀ found, result = .ok found → t.Found template found) t := by
  apply always_invoke_bind
  · intro err t' hcall
    have hstays : t' = t := hmay _ _ _ _ hcall
    rw [hstays]
    exact ⟨rfl, nofun⟩
  · intro _ t' hcall
    obtain ⟨matching, hmatching, rfl⟩ := hmay _ _ _ _ hcall
    apply (always_findBatches hmay fuel).bind
    · intro err t' hbatches
      exact ⟨hbatches.1, nofun⟩
    · intro found t' hbatches
      have hfound : found = matching := hbatches.2 found rfl
      apply always_invoke_bind
      · intro err t'' hcall
        have hstays : t'' = t' := hmay _ _ _ _ hcall
        rw [hstays]
        exact ⟨hbatches.1, nofun⟩
      · intro _ t'' hcall
        have hstays : t'' = t' := hmay _ _ _ _ hcall
        rw [hstays]
        refine ⟨hbatches.1, fun found' hfound' => ?_⟩
        cases hfound'
        rw [hfound]
        exact hmatching

/-- How the search for one object ends: with one that matches, with none where none matches, or with
a call that fails. -/
theorem always_findObject (template : Template) :
    (findObject session template).Always may (fun result t' => t'.objects = t.objects ∧
      ((∃ handle, result = .ok handle ∧ ∃ object ∈ t.objects handle, object.Matches template) ∨
        (result = .error (.manager ⟨.notFound, "object not found"⟩) ∧
          ∀ handle, ∀ object ∈ t.objects handle, ¬ object.Matches template) ∨
        ∃ err, result = .error (.pkcs err) ∧ ∃ v c v', may v c (.error err) v')) t := by
  apply always_invoke_bind
  · intro err t' hcall
    have hstays : t' = t := hmay _ _ _ _ hcall
    rw [hstays]
    exact ⟨rfl, .inr (.inr ⟨err, rfl, _, _, _, hcall⟩)⟩
  · intro _ t' hcall
    obtain ⟨matching, hmatching, rfl⟩ := hmay _ _ _ _ hcall
    apply always_invoke_bind
    · intro err t' hcall
      cases hmay _ _ _ _ hcall
      exact ⟨rfl, .inr (.inr ⟨err, rfl, _, _, _, hcall⟩)⟩
    · intro (batch : List ObjectHandle) t' hcall
      obtain ⟨-, hlast, left, hsearch, rfl⟩ := hmay _ _ _ _ hcall
      apply always_invoke_bind
      · intro err t' hcall
        cases hmay _ _ _ _ hcall
        exact ⟨rfl, .inr (.inr ⟨err, rfl, _, _, _, hcall⟩)⟩
      · intro _ t' hcall
        cases hmay _ _ _ _ hcall
        cases batch with
        | nil =>
          have hnone : matching = [] := hlast rfl
          refine ⟨rfl, .inr (.inl ⟨rfl, fun handle object hobject hmatches => ?_⟩)⟩
          have hmem := (hmatching.2 handle).mpr ⟨object, hobject, hmatches⟩
          rw [hnone] at hmem
          cases hmem
        | cons handle batch =>
          have hmem : handle ∈ matching := by
            have hsearch : matching = handle :: batch ++ left := hsearch
            rw [hsearch]
            exact List.mem_cons_self
          exact ⟨rfl, .inl ⟨handle, rfl, (hmatching.2 handle).mp hmem⟩⟩

/-- Objects are destroyed one after the other, up to one that cannot be. -/
theorem always_destroyObjects (message : String) {handles : List ObjectHandle} :
    (destroyObjects session message handles).Always may (fun result t' =>
      ∃ gone left, handles = gone ++ left ∧
        (∀ handle, t'.objects handle = if handle ∈ gone then none else t.objects handle) ∧
        ((result = .ok () ∧ left = []) ∨
          ∃ err handle rest v v', result = .error (.manager err) ∧ left = handle :: rest ∧
            v.objects = t'.objects ∧ ∃ pkcsErr, may v (.destroyObject session handle)
              (.error pkcsErr) v')) t := by
  induction handles generalizing t with
  | nil => exact ⟨[], [], rfl, fun handle => by simp, .inl ⟨rfl, rfl⟩⟩
  | cons handle handles ih =>
    apply always_invoke_bind
    · intro err t' hcall
      have hstays : t' = t := hmay _ _ _ _ hcall
      refine ⟨[], handle :: handles, rfl, fun handle => by rw [hstays]; simp, .inr ?_⟩
      exact ⟨_, handle, handles, t, t', rfl, rfl, by rw [hstays], err, hcall⟩
    · intro _ t' hcall
      obtain ⟨-, rfl⟩ := hmay _ _ _ _ hcall
      apply ih.mono
      intro result t'' hrest
      obtain ⟨gone, left, hhandles, hobjects, hend⟩ := hrest
      refine ⟨handle :: gone, left, by rw [hhandles, List.cons_append], fun handle' => ?_, hend⟩
      rw [hobjects]
      by_cases hsame : handle' = handle
      · subst hsame
        simp
      · simp [hsame]

end OnToken

end Signare
