import Signare.SignatureManager.Library

/-!
# Sessions

Each method works in one session: it opens it on its own slot, logs in with its own pin, does what
it is for, and asks the library to close it as its last call, whatever the library answers. Objects
are destroyed and signed with only where a search of the same session has found them under the label
of the address. A session that the library does not close stays open, and nothing is done about it.
-/

namespace Signare

open ByteCodec

/-- The calls of the library that have been made, with their answers. -/
abbrev CallHistory := List (Program.Event PKCSCall.Answer)

/-- A method that has ended its session, or failed to open one, calls nothing more. -/
inductive Standing
  | apart
  | opened (number : Nat) (session : SessionHandle)
  | loggedIn (number : Nat) (session : SessionHandle) (pin : String)
  | ended

/-- The session that has not been asked to close. -/
def Standing.session : Standing → Option SessionHandle
  | .opened _ session => some session
  | .loggedIn _ session _ => some session
  | _ => none

/-- The session there is, the search that is under way in it, what has been found by which search and
the key pair that has been generated. -/
structure SessionLog where
  standing : Standing
  search : Option Template
  found : List (Template × ObjectHandle)
  generated : List ObjectHandle

def SessionLog.start : SessionLog := ⟨.apart, none, [], []⟩

def SessionLog.after (log : SessionLog) : (c : PKCSCall) → c.Answer → SessionLog
  | .openSession number _, .ok session => ⟨.opened number session, none, [], []⟩
  | .openSession .., .error _ => ⟨.ended, none, [], []⟩
  | .closeSession _, _ => ⟨.ended, none, [], []⟩
  | .login _ pin, .ok _ =>
    match log.standing with
    | .opened number session => { log with standing := .loggedIn number session pin }
    | _ => log
  | .logout _, _ =>
    match log.standing with
    | .loggedIn number session _ => { log with standing := .opened number session }
    | _ => log
  | .generateKeyPair .., .ok (handles : ObjectHandle × ObjectHandle) =>
    { log with generated := [handles.1, handles.2] ++ log.generated }
  | .findObjectsInit _ template, .ok _ => { log with search := some template }
  | .findObjects .., .ok (handles : List ObjectHandle) =>
    match log.search with
    | some template => { log with found := handles.map (template, ·) ++ log.found }
    | none => log
  | .findObjectsFinal _, _ => { log with search := none }
  | _, _ => log

def sessionLog (history : CallHistory) : SessionLog :=
  history.foldl (fun log event => log.after event.1 event.2) .start

theorem sessionLog_concat (history : CallHistory) (c : PKCSCall) (r : c.Answer) :
    sessionLog (history ++ [⟨c, r⟩]) = (sessionLog history).after c r := by
  rw [sessionLog, List.foldl_append]
  rfl

/-- A session on the slot of this name, logged in to with the pin. -/
def SessionLog.LoggedIn (log : SessionLog) (slot pin : String) (session : SessionHandle) : Prop :=
  ∃ number, parseSlot slot = some number ∧ log.standing = .loggedIn number session pin

def SessionLog.Opened (log : SessionLog) (slot : String) (session : SessionHandle) : Prop :=
  ∃ number, parseSlot slot = some number ∧ log.standing = .opened number session

/-- What is found and generated is kept while the session goes on. -/
structure SessionLog.Continues (log log' : SessionLog) : Prop where
  standing : log'.standing = log.standing
  found : log.found ⊆ log'.found
  generated : log.generated ⊆ log'.generated

theorem SessionLog.Continues.refl (log : SessionLog) : log.Continues log :=
  ⟨rfl, List.Subset.refl _, List.Subset.refl _⟩

theorem SessionLog.Continues.trans {log log' log'' : SessionLog} (h : log.Continues log')
    (h' : log'.Continues log'') : log.Continues log'' :=
  ⟨h'.standing.trans h.standing, List.Subset.trans h.found h'.found,
    List.Subset.trans h.generated h'.generated⟩

theorem SessionLog.LoggedIn.continues {log log' : SessionLog} {slot pin : String}
    {session : SessionHandle} (h : log.LoggedIn slot pin session) (hcontinues : log.Continues log') :
    log'.LoggedIn slot pin session := by
  obtain ⟨number, hslot, hstanding⟩ := h
  exact ⟨number, hslot, hcontinues.standing.trans hstanding⟩

/-- The calls that are made inside a session. -/
def PKCSCall.inSession : PKCSCall → Prop
  | .initializeLibrary => False
  | .finalizeLibrary => False
  | .openSession .. => False
  | .closeSession _ => False
  | .login .. => False
  | .logout _ => False
  | _ => True

theorem continues_after (log : SessionLog) {c : PKCSCall} (r : c.Answer) (hc : c.inSession) :
    log.Continues (log.after c r) := by
  cases c with
  | generateKeyPair session template =>
    cases r with
    | error err => exact .refl log
    | ok handles => exact ⟨rfl, List.Subset.refl _, List.subset_append_right _ _⟩
  | findObjectsInit session template =>
    cases r with
    | error err => exact .refl log
    | ok _ => exact ⟨rfl, List.Subset.refl _, List.Subset.refl _⟩
  | findObjects session max =>
    cases r with
    | error err => exact .refl log
    | ok handles =>
      cases hsearch : log.search with
      | none =>
        simp only [SessionLog.after, hsearch]
        exact .refl log
      | some template =>
        simp only [SessionLog.after, hsearch]
        exact ⟨rfl, List.subset_append_right _ _, List.Subset.refl _⟩
  | findObjectsFinal session => cases r <;> exact ⟨rfl, List.Subset.refl _, List.Subset.refl _⟩
  | setLabel session object label => cases r <;> exact .refl log
  | getAttributeValue session object type => cases r <;> exact .refl log
  | destroyObject session object => cases r <;> exact .refl log
  | signInit session object => cases r <;> exact .refl log
  | sign session data => cases r <;> exact .refl log
  | _ => exact hc.elim

/-- The methods that work in a session. -/
inductive SlotMethod
  | generateKey (publicTime privateTime : UInt64)
  | removeKey (address : Address)
  | listKeys
  | sign (data : Bytes) (address : Address)
  | isAlive

section Methods

variable (env : CurveEnv) (byTime : TimeSort) (fuel : Nat) (slot pin : String)

def SlotMethod.method : SlotMethod → Method Unit
  | .generateKey publicTime privateTime => do
    let _ ← Signare.generateKey env slot pin publicTime privateTime
  | .removeKey address => Signare.removeKey env fuel slot pin address
  | .listKeys => do
    let _ ← Signare.listKeys env byTime fuel slot pin
  | .sign data address => do
    let _ ← signData env slot pin data address
  | .isAlive => Signare.isAlive slot pin

/-- What a method searches for: the keys under the label of its address, or all public keys. -/
def SlotMethod.searches : SlotMethod → Template → Prop
  | .removeKey address, template => template.label = some (keyLabel env address)
  | .listKeys, template => template = ⟨.publicKey, none⟩
  | .sign _ address, template => template = ⟨.privateKey, some (keyLabel env address)⟩
  | _, _ => False

/-- The calls a method may make, where it stands. -/
def SlotMethod.allowed (m : SlotMethod) (log : SessionLog) : PKCSCall → Prop
  | .openSession number _ => log.standing = .apart ∧ parseSlot slot = some number
  | .login session pin' => log.Opened slot session ∧ pin' = pin
  | .logout session => log.LoggedIn slot pin session
  | .closeSession session => log.Opened slot session
  | .generateKeyPair session template => log.LoggedIn slot pin session ∧
    ∃ publicTime privateTime, m = .generateKey publicTime privateTime ∧
      template = keyPairTemplate publicTime privateTime
  | .setLabel session object _ => log.LoggedIn slot pin session ∧ object ∈ log.generated
  | .getAttributeValue session object _ => log.LoggedIn slot pin session ∧
    (object ∈ log.generated ∨ ∃ template, (template, object) ∈ log.found)
  | .findObjectsInit session template => log.LoggedIn slot pin session ∧ m.searches env template
  | .findObjects session _ => log.LoggedIn slot pin session
  | .findObjectsFinal session => log.LoggedIn slot pin session
  | .destroyObject session object => log.LoggedIn slot pin session ∧ ∃ address objectClass,
    m = .removeKey address ∧ (⟨objectClass, some (keyLabel env address)⟩, object) ∈ log.found
  | .signInit session object => log.LoggedIn slot pin session ∧ ∃ data address,
    m = .sign data address ∧ (⟨.privateKey, some (keyLabel env address)⟩, object) ∈ log.found
  | .sign session data => log.LoggedIn slot pin session ∧ ∃ address, m = .sign data address
  | _ => False

end Methods

section Parts

variable {α : Type} {allowed : CallHistory → PKCSCall → Prop} {history : CallHistory}
  {expected : Except MethodFailure α → CallHistory → Prop}

theorem meets_invoke {c : PKCSCall} {onError : PKCSError → MethodFailure}
    {expected : Except MethodFailure c.Result → CallHistory → Prop} (hallowed : allowed history c)
    (herror : ∀ (answer : c.Answer) (err : PKCSError), answer = .error err →
      expected (.error (onError err)) (history ++ [⟨c, answer⟩]))
    (hok : ∀ (answer : c.Answer) (result : c.Result), answer = .ok result →
      expected (.ok result) (history ++ [⟨c, answer⟩])) :
    (invoke c onError).Meets allowed expected history := by
  refine ⟨hallowed, fun answer => ?_⟩
  cases answer with
  | error err => exact herror _ err rfl
  | ok result => exact hok _ result rfl

theorem meets_deferred {c : PKCSCall} {body : Method α}
    (h : body.Meets allowed (fun result history' => allowed history' c ∧
      ∀ r, expected result (history' ++ [⟨c, r⟩])) history) :
    (deferred c body).Meets allowed expected history := by
  rw [deferred, Program.meets_bind, Program.meets_attempt]
  apply h.mono
  intro result history' hend
  refine ⟨hend.1, fun r => ?_⟩
  cases result with
  | error err => exact hend.2 r
  | ok a => exact hend.2 r

theorem meets_continues {body : Method α} {p : PKCSCall → Prop} (hbody : body.Only p)
    (hallowed : ∀ history', (sessionLog history).Continues (sessionLog history') → ∀ c, p c →
      allowed history' c ∧ c.inSession) :
    body.Meets allowed (fun _ history' => (sessionLog history).Continues (sessionLog history'))
      history := by
  apply hbody.meets_invariant (SessionLog.Continues.refl _)
  intro history' c hcontinues hc
  obtain ⟨hcall, hin⟩ := hallowed history' hcontinues c hc
  refine ⟨hcall, fun r => ?_⟩
  rw [sessionLog_concat]
  exact hcontinues.trans (continues_after _ r hin)

theorem meets_withSession {env : CurveEnv} {slot pin invalidSlot : String} {m : SlotMethod}
    {readWrite : Bool} {openMessage loginMessage : PKCSError → String}
    {body : SessionHandle → Method α} (hstart : (sessionLog history).standing = .apart)
    (hbody : ∀ session history', (sessionLog history').LoggedIn slot pin session →
      (body session).Meets (fun history => m.allowed env slot pin (sessionLog history))
        (fun _ history'' => (sessionLog history').Continues (sessionLog history'')) history') :
    (withSession slot pin invalidSlot readWrite openMessage loginMessage body).Meets
      (fun history => m.allowed env slot pin (sessionLog history))
      (fun _ history' => (sessionLog history').standing.session = none) history := by
  unfold withSession
  cases hslot : parseSlot slot with
  | none =>
    show (sessionLog history).standing.session = none
    rw [hstart]
    rfl
  | some number =>
    have hopen : (invoke (.openSession number readWrite) (translated openMessage)).Meets
        (fun history => m.allowed env slot pin (sessionLog history))
        (fun result history' => (∃ err, result = .error err) ∧
          (sessionLog history').standing = .ended ∨ ∃ session : SessionHandle,
            result = .ok session ∧ (sessionLog history').standing = .opened number session)
        history := by
      apply meets_invoke ⟨hstart, hslot⟩
      · intro answer err heq
        refine .inl ⟨⟨_, rfl⟩, ?_⟩
        rw [sessionLog_concat, heq]
        rfl
      · intro answer session heq
        refine .inr ⟨session, rfl, ?_⟩
        rw [sessionLog_concat, heq]
        rfl
    apply hopen.bind
    · intro err history₁ h
      obtain ⟨-, h⟩ | ⟨_, heq, -⟩ := h
      · rw [h]
        rfl
      · cases heq
    · intro session history₁ h
      obtain ⟨⟨_, heq⟩, -⟩ | ⟨session', heq, hopened⟩ := h
      · cases heq
      · cases heq
        apply meets_deferred
        have hclosed (history' : CallHistory) (hopened : (sessionLog history').standing =
            .opened number session) : m.allowed env slot pin (sessionLog history')
              (.closeSession session) ∧ ∀ r, (sessionLog (history' ++
                [⟨.closeSession session, r⟩])).standing.session = none := by
          refine ⟨⟨number, hslot, hopened⟩, fun r => ?_⟩
          rw [sessionLog_concat]
          cases r <;> rfl
        have hlogin : (invoke (.login session pin) (translated loginMessage)).Meets
            (fun history => m.allowed env slot pin (sessionLog history))
            (fun result history' => (∃ err, result = .error err) ∧
              (sessionLog history').standing = .opened number session ∨
                result = .ok () ∧ (sessionLog history').standing = .loggedIn number session pin)
            history₁ := by
          apply meets_invoke ⟨⟨number, hslot, hopened⟩, rfl⟩
          · intro answer err heq
            refine .inl ⟨⟨_, rfl⟩, ?_⟩
            rw [sessionLog_concat, heq]
            exact hopened
          · intro answer u heq
            refine .inr ⟨rfl, ?_⟩
            rw [sessionLog_concat, heq]
            simp only [SessionLog.after, hopened]
        apply hlogin.bind
        · intro err history₂ h
          obtain ⟨-, h⟩ | ⟨heq, -⟩ := h
          · exact hclosed history₂ h
          · cases heq
        · intro u history₂ h
          obtain ⟨⟨_, heq⟩, -⟩ | ⟨-, hlogged⟩ := h
          · cases heq
          · apply meets_deferred
            apply (hbody session history₂ ⟨number, hslot, hlogged⟩).mono
            intro result history₃ hcontinues
            have hlogged₃ := hcontinues.standing.trans hlogged
            refine ⟨⟨number, hslot, hlogged₃⟩, fun r => ?_⟩
            apply hclosed
            rw [sessionLog_concat]
            cases r <;> simp only [SessionLog.after, hlogged₃]

end Parts

section Searches

variable {env : CurveEnv} {slot pin : String} {m : SlotMethod} {session : SessionHandle}
  {template : Template} {history : CallHistory}

/-- What a search gives is what has been found by it. -/
def Finds (history : CallHistory) (template : Template)
    (result : Except MethodFailure (List ObjectHandle)) (history' : CallHistory) : Prop :=
  (sessionLog history).Continues (sessionLog history') ∧ ∀ objects, result = .ok objects →
    ∀ object ∈ objects, (template, object) ∈ (sessionLog history').found

theorem meets_invoke_findObjects {max : Nat} {onError : PKCSError → MethodFailure}
    (hlogged : (sessionLog history).LoggedIn slot pin session)
    (hsearch : (sessionLog history).search = some template) :
    (invoke (.findObjects session max) onError).Meets
      (fun history => m.allowed env slot pin (sessionLog history))
      (fun result history' => Finds history template result history' ∧
        (sessionLog history').search = some template) history := by
  have hcontinues (answer : (PKCSCall.findObjects session max).Answer) :
      (sessionLog history).Continues (sessionLog (history ++ [⟨.findObjects session max, answer⟩])) := by
    rw [sessionLog_concat]
    exact continues_after _ answer trivial
  apply meets_invoke hlogged
  · intro answer err heq
    refine ⟨⟨hcontinues answer, nofun⟩, ?_⟩
    rw [sessionLog_concat, heq]
    exact hsearch
  · intro answer result heq
    have hlog : (sessionLog history).after (.findObjects session max) answer =
        { sessionLog history with
          found := List.map (template, ·) result ++ (sessionLog history).found } := by
      rw [heq]
      simp only [SessionLog.after, hsearch]
    refine ⟨⟨hcontinues answer, fun objects hobjects object hobject => ?_⟩, ?_⟩
    · cases hobjects
      rw [sessionLog_concat, hlog]
      exact List.mem_append_left _ (List.mem_map_of_mem hobject)
    · rw [sessionLog_concat, hlog]
      exact hsearch

theorem meets_findBatches (fuel : Nat) (hlogged : (sessionLog history).LoggedIn slot pin session)
    (hsearch : (sessionLog history).search = some template) :
    (findBatches session fuel).Meets (fun history => m.allowed env slot pin (sessionLog history))
      (Finds history template) history := by
  induction fuel generalizing history with
  | zero => exact ⟨.refl _, nofun⟩
  | succ fuel ih =>
    apply (meets_invoke_findObjects hlogged hsearch).bind
    · intro err history₁ h
      exact ⟨h.1.1, nofun⟩
    · intro found history₁ h₁
      split
      · exact ⟨h₁.1.1, fun objects heq object hobject => by cases heq; cases hobject⟩
      · have hmore := ih (hlogged.continues h₁.1.1) h₁.2
        apply hmore.bind
        · intro err history₂ h
          exact ⟨h₁.1.1.trans h.1, nofun⟩
        · intro more history₂ h₂
          refine ⟨h₁.1.1.trans h₂.1, fun objects heq object hobject => ?_⟩
          cases heq
          cases List.mem_append.mp hobject with
          | inl hfound => exact h₂.1.found (h₁.1.2 found rfl object hfound)
          | inr hmore => exact h₂.2 more rfl object hmore

theorem meets_search {β : Type} {onInit onFinal : PKCSError → MethodFailure}
    {body : Method (List ObjectHandle)} {f : List ObjectHandle → Method β}
    {good : β → CallHistory → Prop} (hlogged : (sessionLog history).LoggedIn slot pin session)
    (hsearches : m.searches env template)
    (hbody : ∀ history', (sessionLog history').LoggedIn slot pin session →
      (sessionLog history').search = some template →
      body.Meets (fun history => m.allowed env slot pin (sessionLog history))
        (Finds history' template) history')
    (hf : ∀ objects history', (∀ object ∈ objects, (template, object) ∈
      (sessionLog history').found) → (f objects).Meets
        (fun history => m.allowed env slot pin (sessionLog history)) (fun result history'' =>
          (sessionLog history').Continues (sessionLog history'') ∧
            ∀ b, result = .ok b → good b history'') history') :
    Program.Meets (fun history => m.allowed env slot pin (sessionLog history)) (do
      let _ ← invoke (.findObjectsInit session template) onInit
      let objects ← body
      let _ ← invoke (.findObjectsFinal session) onFinal
      f objects) (fun result history' => (sessionLog history).Continues (sessionLog history') ∧
        ∀ b, result = .ok b → good b history') history := by
  have hcontinues {history' : CallHistory} {c : PKCSCall} (answer : c.Answer) (hc : c.inSession) :
      (sessionLog history').Continues (sessionLog (history' ++ [⟨c, answer⟩])) := by
    rw [sessionLog_concat]
    exact continues_after _ answer hc
  have hinit : (invoke (.findObjectsInit session template) onInit).Meets
      (fun history => m.allowed env slot pin (sessionLog history))
      (fun result history' => (sessionLog history).Continues (sessionLog history') ∧
        ∀ u, result = .ok u → (sessionLog history').search = some template) history := by
    apply meets_invoke ⟨hlogged, hsearches⟩
    · intro answer err heq
      exact ⟨hcontinues answer trivial, nofun⟩
    · intro answer u heq
      refine ⟨hcontinues answer trivial, fun _ _ => ?_⟩
      rw [sessionLog_concat, heq]
      rfl
  apply hinit.bind
  · intro err history₁ h
    exact ⟨h.1, nofun⟩
  · intro u history₁ h₁
    apply (hbody history₁ (hlogged.continues h₁.1) (h₁.2 u rfl)).bind
    · intro err history₂ h
      exact ⟨h₁.1.trans h.1, nofun⟩
    · intro objects history₂ h₂
      have hfinal : (invoke (.findObjectsFinal session) onFinal).Meets
          (fun history => m.allowed env slot pin (sessionLog history))
          (fun _ history' => (sessionLog history₂).Continues (sessionLog history')) history₂ := by
        apply meets_invoke (hlogged.continues (h₁.1.trans h₂.1))
        · intro answer err heq
          exact hcontinues answer trivial
        · intro answer u heq
          exact hcontinues answer trivial
      apply hfinal.bind
      · intro err history₃ h
        exact ⟨(h₁.1.trans h₂.1).trans h, nofun⟩
      · intro u history₃ h₃
        have hfound (object : ObjectHandle) (hobject : object ∈ objects) :
            (template, object) ∈ (sessionLog history₃).found :=
          h₃.found (h₂.2 objects rfl object hobject)
        apply (hf objects history₃ hfound).mono
        intro result history₄ h₄
        exact ⟨((h₁.1.trans h₂.1).trans h₃).trans h₄.1, h₄.2⟩

theorem meets_findObjects (fuel : Nat) (hlogged : (sessionLog history).LoggedIn slot pin session)
    (hsearches : m.searches env template) :
    (findObjects fuel session template).Meets
      (fun history => m.allowed env slot pin (sessionLog history)) (Finds history template)
      history := by
  apply meets_search hlogged hsearches fun _ => meets_findBatches fuel
  intro objects history' hfound
  refine ⟨.refl _, fun objects' heq => ?_⟩
  cases heq
  exact hfound

theorem meets_findObject (hlogged : (sessionLog history).LoggedIn slot pin session)
    (hsearches : m.searches env template) :
    (findObject session template).Meets
      (fun history => m.allowed env slot pin (sessionLog history))
      (fun result history' => (sessionLog history).Continues (sessionLog history') ∧
        ∀ object, result = .ok object → (template, object) ∈ (sessionLog history').found)
      history := by
  apply meets_search hlogged hsearches fun history' hlogged' hsearch =>
    (meets_invoke_findObjects hlogged' hsearch).mono fun _ _ h => h.1
  intro objects history' hfound
  cases objects with
  | nil => exact ⟨.refl _, nofun⟩
  | cons object objects =>
    refine ⟨.refl _, fun object' heq => ?_⟩
    cases heq
    exact hfound object (List.mem_cons_self ..)

end Searches

section Methods

variable {env : CurveEnv} {slot pin : String} {session : SessionHandle} {history : CallHistory}

/-- Only attributes of one object are asked for. -/
def Asks (session : SessionHandle) (object : ObjectHandle) (c : PKCSCall) : Prop :=
  ∃ type, c = .getAttributeValue session object type

theorem only_invoke {p : PKCSCall → Prop} {c : PKCSCall} {onError : PKCSError → MethodFailure}
    (hc : p c) : (invoke c onError).Only p := by
  apply Program.only_bind ((Program.only_request c).mpr hc)
  intro answer
  cases answer with
  | error err => trivial
  | ok result => trivial

theorem only_checked {α : Type} {p : PKCSCall → Prop} {body : Method α} (h : body.Only p) :
    (checked body).Only p := by
  apply Program.only_bind (Program.only_attempt h)
  intro result
  cases result with
  | ok a => trivial
  | error err => cases err <;> trivial

theorem only_getAddress (session : SessionHandle) (object : ObjectHandle) :
    (getAddress env session object).Only (Asks session object) := by
  have hpoint : (getECPoint session object).Only (Asks session object) := by
    apply Program.only_bind (only_invoke ⟨_, rfl⟩)
    intro attributes
    split <;> trivial
  have hdecoded : (getDecodedECPoint session object).Only (Asks session object) := by
    apply Program.only_bind hpoint
    intro ecPoint
    split <;> trivial
  apply Program.only_bind (only_checked hdecoded)
  intro result
  split <;> trivial

theorem only_listObject (session : SessionHandle) (object : ObjectHandle) :
    (listObject env session object).Only (Asks session object) := by
  have hlabel : (getLabel session object).Only (Asks session object) := by
    apply Program.only_bind (only_invoke ⟨_, rfl⟩)
    intro attributes
    split <;> trivial
  have htime : (getTimestamp session object).Only (Asks session object) := by
    apply Program.only_bind (only_invoke ⟨_, rfl⟩)
    intro attributes
    split <;> trivial
  apply Program.only_bind (only_checked hlabel)
  intro label
  split
  · trivial
  · apply Program.only_bind (only_checked (only_getAddress session object))
    intro address
    split
    · trivial
    · split
      · trivial
      · apply Program.only_bind (only_checked htime)
        intro time
        split <;> trivial

theorem only_listObjects (session : SessionHandle) (objects : List ObjectHandle) :
    (listObjects env session objects).Only fun c => ∃ object ∈ objects, Asks session object c := by
  induction objects with
  | nil => trivial
  | cons object objects ih =>
    have hobject : (listObject env session object).Only
        fun c => ∃ o ∈ object :: objects, Asks session o c :=
      (only_listObject session object).mono fun c hc => ⟨object, List.mem_cons_self .., hc⟩
    apply Program.only_bind hobject
    intro entry
    apply Program.only_bind
    · apply ih.mono
      intro c hc
      obtain ⟨o, ho, hasks⟩ := hc
      exact ⟨o, List.mem_cons_of_mem _ ho, hasks⟩
    · intro entries
      trivial

theorem only_destroyObjects (session : SessionHandle) (message : String)
    (objects : List ObjectHandle) : (destroyObjects session message objects).Only
      fun c => ∃ object ∈ objects, c = .destroyObject session object := by
  induction objects with
  | nil => trivial
  | cons object objects ih =>
    apply Program.only_bind (only_invoke ⟨object, List.mem_cons_self .., rfl⟩)
    intro _
    apply ih.mono
    intro c hc
    obtain ⟨o, ho, heq⟩ := hc
    exact ⟨o, List.mem_cons_of_mem _ ho, heq⟩

theorem meets_generateKey (publicTime privateTime : UInt64)
    (hstart : (sessionLog history).standing = .apart) :
    (generateKey env slot pin publicTime privateTime).Meets (fun history =>
        SlotMethod.allowed env slot pin (.generateKey publicTime privateTime) (sessionLog history))
      (fun _ history' => (sessionLog history').standing.session = none) history := by
  apply meets_withSession hstart
  intro session history₁ hlogged
  have hpair {onError : PKCSError → MethodFailure} :
      (invoke (.generateKeyPair session (keyPairTemplate publicTime privateTime)) onError).Meets
        (fun history => SlotMethod.allowed env slot pin (.generateKey publicTime privateTime)
          (sessionLog history))
        (fun result history' => (sessionLog history₁).Continues (sessionLog history') ∧
          ∀ handles : ObjectHandle × ObjectHandle, result = .ok handles →
            ∀ object ∈ [handles.1, handles.2], object ∈ (sessionLog history').generated)
        history₁ := by
    have hcontinues (answer : (PKCSCall.generateKeyPair session _).Answer) :
        (sessionLog history₁).Continues (sessionLog (history₁ ++
          [⟨.generateKeyPair session (keyPairTemplate publicTime privateTime), answer⟩])) := by
      rw [sessionLog_concat]
      exact continues_after _ answer trivial
    apply meets_invoke ⟨hlogged, publicTime, privateTime, rfl, rfl⟩
    · intro answer err heq
      exact ⟨hcontinues answer, nofun⟩
    · intro answer handles heq
      refine ⟨hcontinues answer, fun handles' heq' object hobject => ?_⟩
      cases heq'
      rw [sessionLog_concat, heq]
      exact List.mem_append_left _ hobject
  apply hpair.bind
  · intro err history₂ h
    exact h.1
  · intro handles history₂ h₂
    have hrest : Program.Only (fun c => ∃ object ∈ [handles.1, handles.2],
        Asks session object c ∨ ∃ label, c = .setLabel session object label) (do
          let addr ← getAddress env session handles.1
          let _ ← checked (setLabel session handles.1 (keyLabel env addr))
          let _ ← checked (setLabel session handles.2 (keyLabel env addr))
          return addr) := by
      apply Program.only_bind
      · apply (only_getAddress session handles.1).mono
        intro c hc
        exact ⟨handles.1, by simp, .inl hc⟩
      · intro addr
        apply Program.only_bind (only_checked (only_invoke ⟨handles.1, by simp, .inr ⟨_, rfl⟩⟩))
        intro _
        apply Program.only_bind (only_checked (only_invoke ⟨handles.2, by simp, .inr ⟨_, rfl⟩⟩))
        intro _
        trivial
    apply (meets_continues hrest _).mono
    · intro result history₃ h₃
      exact h₂.1.trans h₃
    · intro history' hcontinues c hc
      have hlogged' := hlogged.continues (h₂.1.trans hcontinues)
      obtain ⟨object, hobject, ⟨type, rfl⟩ | ⟨label, rfl⟩⟩ := hc
      · have hgenerated := hcontinues.generated (h₂.2 handles rfl object hobject)
        exact ⟨⟨hlogged', .inl hgenerated⟩, trivial⟩
      · have hgenerated := hcontinues.generated (h₂.2 handles rfl object hobject)
        exact ⟨⟨hlogged', hgenerated⟩, trivial⟩

theorem meets_removeKey (fuel : Nat) (address : Address)
    (hstart : (sessionLog history).standing = .apart) :
    (removeKey env fuel slot pin address).Meets
      (fun history => SlotMethod.allowed env slot pin (.removeKey address) (sessionLog history))
      (fun _ history' => (sessionLog history').standing.session = none) history := by
  apply meets_withSession hstart
  intro session history₁ hlogged
  have hsearched (objectClass : ObjectClass) {history' : CallHistory}
      (hcontinues : (sessionLog history₁).Continues (sessionLog history')) :
      (searched (findObjects fuel session ⟨objectClass, some (keyLabel env address)⟩)).Meets
        (fun history => SlotMethod.allowed env slot pin (.removeKey address) (sessionLog history))
        (Finds history' ⟨objectClass, some (keyLabel env address)⟩) history' := by
    have hfind : (findObjects fuel session ⟨objectClass, some (keyLabel env address)⟩).Meets
        (fun history => SlotMethod.allowed env slot pin (.removeKey address) (sessionLog history)) _
        history' := meets_findObjects fuel (hlogged.continues hcontinues) rfl
    exact hfind.orElse_found
  -- Whatever is destroyed was found under the label of the address.
  have hdestroy (objectClass : ObjectClass) (message : String) {objects : List ObjectHandle}
      {history' : CallHistory} (hcontinues : (sessionLog history₁).Continues (sessionLog history'))
      (hfound : ∀ object ∈ objects, (⟨objectClass, some (keyLabel env address)⟩, object) ∈
        (sessionLog history').found) :
      (destroyObjects session message objects).Meets
        (fun history => SlotMethod.allowed env slot pin (.removeKey address) (sessionLog history))
        (fun _ history'' => (sessionLog history').Continues (sessionLog history'')) history' := by
    apply meets_continues (only_destroyObjects session message objects)
    intro history'' hcontinues' c hc
    obtain ⟨object, hobject, rfl⟩ := hc
    exact ⟨⟨hlogged.continues (hcontinues.trans hcontinues'), address, objectClass, rfl,
      hcontinues'.found (hfound object hobject)⟩, trivial⟩
  apply (hsearched .privateKey (.refl _)).bind
  · intro err history₂ h
    exact h.1
  · intro privateKeys history₂ h₂
    apply (hsearched .publicKey h₂.1).bind
    · intro err history₃ h
      exact h₂.1.trans h.1
    · intro publicKeys history₃ h₃
      split
      · exact h₂.1.trans h₃.1
      · have hprivate (object : ObjectHandle) (hobject : object ∈ privateKeys) :
            (⟨.privateKey, some (keyLabel env address)⟩, object) ∈ (sessionLog history₃).found :=
          h₃.1.found (h₂.2 privateKeys rfl object hobject)
        apply (hdestroy .privateKey _ (h₂.1.trans h₃.1) hprivate).bind
        · intro err history₄ h
          exact (h₂.1.trans h₃.1).trans h
        · intro u history₄ h₄
          apply (hdestroy .publicKey _ ((h₂.1.trans h₃.1).trans h₄) fun object hobject =>
            h₄.found (h₃.2 publicKeys rfl object hobject)).mono
          intro result history₅ h₅
          exact ((h₂.1.trans h₃.1).trans h₄).trans h₅

theorem meets_listKeys (byTime : TimeSort) (fuel : Nat)
    (hstart : (sessionLog history).standing = .apart) :
    (listKeys env byTime fuel slot pin).Meets
      (fun history => SlotMethod.allowed env slot pin .listKeys (sessionLog history))
      (fun _ history' => (sessionLog history').standing.session = none) history := by
  apply meets_withSession hstart
  intro session history₁ hlogged
  have hfind : (findObjects fuel session ⟨.publicKey, none⟩).Meets
      (fun history => SlotMethod.allowed env slot pin .listKeys (sessionLog history)) _ history₁ :=
    meets_findObjects fuel hlogged rfl
  apply hfind.bind
  · intro err history₂ h
    exact h.1
  · intro objects history₂ h₂
    have hrest : Program.Only (fun c => ∃ object ∈ objects, Asks session object c) (do
        let addresses ← listObjects env session objects
        return (byTime.sort addresses).map Prod.fst) :=
      Program.only_bind (only_listObjects session objects) fun _ => trivial
    apply (meets_continues hrest _).mono
    · intro result history₃ h₃
      exact h₂.1.trans h₃
    · intro history' hcontinues c hc
      obtain ⟨object, hobject, type, rfl⟩ := hc
      exact ⟨⟨hlogged.continues (h₂.1.trans hcontinues), .inr ⟨_,
        hcontinues.found (h₂.2 objects rfl object hobject)⟩⟩, trivial⟩

theorem meets_signData (data : Bytes) (address : Address)
    (hstart : (sessionLog history).standing = .apart) :
    (signData env slot pin data address).Meets
      (fun history => SlotMethod.allowed env slot pin (.sign data address) (sessionLog history))
      (fun _ history' => (sessionLog history').standing.session = none) history := by
  apply meets_withSession hstart
  intro session history₁ hlogged
  have hfind : (findObject session ⟨.privateKey, some (keyLabel env address)⟩).Meets
      (fun history => SlotMethod.allowed env slot pin (.sign data address) (sessionLog history)) _
      history₁ := meets_findObject hlogged rfl
  apply hfind.orElse_found.bind
  · intro err history₂ h
    exact h.1
  · intro object history₂ h₂
    have hrest {onInit onSign : PKCSError → MethodFailure} : Program.Only (fun c =>
        c = .signInit session object ∨ c = .sign session data) (do
          let _ ← invoke (.signInit session object) onInit
          invoke (.sign session data) onSign) :=
      Program.only_bind (only_invoke (.inl rfl)) fun _ => only_invoke (.inr rfl)
    apply (meets_continues hrest _).mono
    · intro result history₃ h₃
      exact h₂.1.trans h₃
    · intro history' hcontinues c hc
      have hlogged' := hlogged.continues (h₂.1.trans hcontinues)
      obtain rfl | rfl := hc
      · exact ⟨⟨hlogged', data, address, rfl, hcontinues.found (h₂.2 object rfl)⟩, trivial⟩
      · exact ⟨⟨hlogged', address, rfl⟩, trivial⟩

theorem SlotMethod.meets (byTime : TimeSort) (fuel : Nat) (m : SlotMethod)
    (hstart : (sessionLog history).standing = .apart) :
    (m.method env byTime fuel slot pin).Meets
      (fun history => m.allowed env slot pin (sessionLog history))
      (fun _ history' => (sessionLog history').standing.session = none) history := by
  cases m with
  | generateKey publicTime privateTime =>
    exact (meets_generateKey publicTime privateTime hstart).bind (fun _ _ h => h) fun _ _ h => h
  | removeKey address => exact meets_removeKey fuel address hstart
  | listKeys => exact (meets_listKeys byTime fuel hstart).bind (fun _ _ h => h) fun _ _ h => h
  | sign data address =>
    exact (meets_signData data address hstart).bind (fun _ _ h => h) fun _ _ h => h
  | isAlive =>
    apply meets_withSession hstart
    intro session history' hlogged
    exact .refl _

end Methods

def PKCSCall.opens : PKCSCall → Bool
  | .openSession .. => true
  | _ => false

def PKCSCall.betweenSessions : PKCSCall → Bool
  | .initializeLibrary => true
  | .finalizeLibrary => true
  | .openSession .. => true
  | _ => false

/-- A session that the library has opened and not closed. -/
structure OpenSession where
  session : SessionHandle
  askedToClose : Bool

/-- A session whose CloseSession is answered with an error stays open. -/
def openAfter (sessions : List OpenSession) : (c : PKCSCall) → c.Answer → List OpenSession
  | .openSession .., .ok session => ⟨session, false⟩ :: sessions
  | .closeSession session, .ok _ => sessions.filter (·.session ≠ session)
  | .closeSession session, .error _ =>
    sessions.map fun s => if s.session = session then { s with askedToClose := true } else s
  | .finalizeLibrary, .ok _ => []
  | _, _ => sessions

def openSessions (sessions : List OpenSession) (history : CallHistory) : List OpenSession :=
  history.foldl (fun sessions event => openAfter sessions event.1 event.2) sessions

theorem openSessions_concat (sessions : List OpenSession) (history : CallHistory) (c : PKCSCall)
    (r : c.Answer) : openSessions sessions (history ++ [⟨c, r⟩]) =
      openAfter (openSessions sessions history) c r := by
  rw [openSessions, List.foldl_append]
  rfl

theorem prefix_invariant {allowed : CallHistory → PKCSCall → Prop} {p : CallHistory → Prop}
    (hnil : p []) (hstep : ∀ before c r, p before → allowed before c → p (before ++ [⟨c, r⟩]))
    {calls : CallHistory}
    (hcalls : ∀ before c r after, calls = before ++ ⟨c, r⟩ :: after → allowed before c)
    (before after : CallHistory) (h : calls = before ++ after) : p before := by
  induction before using List.reverseRecOn generalizing after with
  | nil => exact hnil
  | append_singleton before event ih =>
    rw [List.append_assoc, List.singleton_append] at h
    exact hstep before event.1 event.2 (ih _ h) (hcalls before event.1 event.2 after h)

theorem PKCSCall.betweenSessions_of_opens {c : PKCSCall} (h : c.opens = true) :
    c.betweenSessions = true := by
  cases c <;> first | rfl | cases h

theorem after_login {log : SessionLog} {session : SessionHandle} {pin : String}
    (r : (PKCSCall.login session pin).Answer) :
    (log.after (.login session pin) r).standing = .apart ↔ log.standing = .apart := by
  cases r with
  | error err => exact Iff.rfl
  | ok u => cases hstanding : log.standing <;> simp [SessionLog.after, hstanding]

theorem session_after_login {log : SessionLog} {session : SessionHandle} {pin : String}
    (r : (PKCSCall.login session pin).Answer) :
    (log.after (.login session pin) r).standing.session = log.standing.session := by
  cases r with
  | error err => rfl
  | ok u => cases hstanding : log.standing <;> simp [SessionLog.after, hstanding, Standing.session]

theorem after_logout {log : SessionLog} {session : SessionHandle}
    (r : (PKCSCall.logout session).Answer) :
    (log.after (.logout session) r).standing = .apart ↔ log.standing = .apart := by
  cases r <;> cases hstanding : log.standing <;> simp [SessionLog.after, hstanding]

theorem session_after_logout {log : SessionLog} {session : SessionHandle}
    (r : (PKCSCall.logout session).Answer) :
    (log.after (.logout session) r).standing.session = log.standing.session := by
  cases r <;> cases hstanding : log.standing <;>
    simp [SessionLog.after, hstanding, Standing.session]

theorem apart_of_after {log : SessionLog} {c : PKCSCall} {r : c.Answer}
    (h : (log.after c r).standing = .apart) : log.standing = .apart ∧ c.opens = false := by
  cases c with
  | initializeLibrary => cases r <;> exact ⟨h, rfl⟩
  | finalizeLibrary => cases r <;> exact ⟨h, rfl⟩
  | openSession slot readWrite => cases r <;> cases h
  | closeSession session => cases r <;> cases h
  | login session pin => exact ⟨(after_login r).mp h, rfl⟩
  | logout session => exact ⟨(after_logout r).mp h, rfl⟩
  | _ =>
    rw [(continues_after log r trivial).standing] at h
    exact ⟨h, rfl⟩

/-- What is asked of a manager. -/
inductive SessionRequest
  | open_
  | close
  | onSlot (slot pin : String) (m : SlotMethod)

section Requests

variable (env : CurveEnv) (byTime : TimeSort) (fuel : Nat)

def SessionRequest.method : SessionRequest → Method Unit
  | .open_ => openManager
  | .close => closeManager
  | .onSlot slot pin m => m.method env byTime fuel slot pin

/-- The library is opened and closed while there is no session. -/
def SessionRequest.allowed (request : SessionRequest) (log : SessionLog) (c : PKCSCall) : Prop :=
  match request with
  | .open_ => c = .initializeLibrary ∧ log.standing = .apart
  | .close => c = .finalizeLibrary ∧ log.standing = .apart
  | .onSlot slot pin m => m.allowed env slot pin log c

/-- The methods run under a mutex, so one after another. -/
def serveSessions : List SessionRequest → Method Unit
  | [] => return ()
  | request :: requests => do
    let _ ← (request.method env byTime fuel).attempt
    serveSessions requests

/-- The calls of one request: each is allowed after those before it, one session is opened at most,
and none is left that has not been asked to close. -/
structure Orderly (request : SessionRequest) (calls : CallHistory) : Prop where
  allowed : ∀ before c r after, calls = before ++ ⟨c, r⟩ :: after →
    request.allowed env (sessionLog before) c
  once : calls.countP (fun event => event.1.opens) ≤ 1
  ended : (sessionLog calls).standing.session = none

theorem SessionRequest.meets (request : SessionRequest) :
    (request.method env byTime fuel).Meets
      (fun history => request.allowed env (sessionLog history))
      (fun _ history => (sessionLog history).standing.session = none) [] := by
  have hlibrary {c : PKCSCall} {onError : PKCSError → MethodFailure}
      (hc : request.allowed env .start c)
      (hafter : ∀ r, (SessionLog.start.after c r).standing.session = none) : (invoke c onError).Meets
        (fun history => request.allowed env (sessionLog history))
        (fun _ history => (sessionLog history).standing.session = none) [] :=
    meets_invoke hc (fun answer _ _ => hafter answer) fun answer _ _ => hafter answer
  cases request with
  | open_ => exact hlibrary ⟨rfl, rfl⟩ fun r => by cases r <;> rfl
  | close => exact hlibrary ⟨rfl, rfl⟩ fun r => by cases r <;> rfl
  | onSlot slot pin m => exact m.meets byTime fuel rfl

variable {env} {request : SessionRequest}

theorem SessionRequest.session_of_allowed_close {log : SessionLog} {session : SessionHandle}
    (h : request.allowed env log (.closeSession session)) :
    log.standing.session = some session := by
  cases request with
  | open_ => cases h.1
  | close => cases h.1
  | onSlot slot pin m =>
    obtain ⟨number, -, hstanding⟩ := h
    rw [hstanding]
    rfl

theorem SessionRequest.apart_of_allowed {log : SessionLog} {c : PKCSCall}
    (h : request.allowed env log c) (hc : c.betweenSessions = true) : log.standing = .apart := by
  cases request with
  | open_ => exact h.2
  | close => exact h.2
  | onSlot slot pin m =>
    cases c with
    | openSession number readWrite => exact h.1
    | initializeLibrary => exact h.elim
    | finalizeLibrary => exact h.elim
    | _ => cases hc

theorem opens_once {calls : CallHistory} (hcalls : ∀ before c r after,
    calls = before ++ ⟨c, r⟩ :: after → request.allowed env (sessionLog before) c) :
    calls.countP (fun event => event.1.opens) ≤ 1 := by
  have hprefix := prefix_invariant (p := fun history =>
    history.countP (fun event => event.1.opens) ≤ 1 ∧ ((sessionLog history).standing = .apart →
      history.countP (fun event => event.1.opens) = 0)) ⟨Nat.zero_le 1, fun _ => rfl⟩ ?_ hcalls calls []
    (List.append_nil calls).symm
  · exact hprefix.1
  · rintro before c r ⟨honce, hapart⟩ hallowed
    rw [List.countP_append, List.countP_singleton, sessionLog_concat]
    refine ⟨?_, fun hafter => ?_⟩
    · cases hopens : c.opens with
      | false => exact honce
      | true =>
        rw [hapart (SessionRequest.apart_of_allowed hallowed (PKCSCall.betweenSessions_of_opens hopens))]
        exact Nat.le_refl 1
    · obtain ⟨hbefore, hopens⟩ := apart_of_after hafter
      rw [hapart hbefore, hopens]
      rfl

/-- A session that is open is the method's own, or has been asked to close. -/
def Asked (log : SessionLog) (sessions : List OpenSession) : Prop :=
  ∀ s ∈ sessions, s.askedToClose = true ∨ log.standing.session = some s.session

theorem Asked.all {log : SessionLog} {sessions : List OpenSession} (h : Asked log sessions)
    (hnone : log.standing.session = none) : ∀ s ∈ sessions, s.askedToClose = true := by
  intro s hs
  refine (h s hs).resolve_right fun hsession => ?_
  cases hnone.symm.trans hsession

theorem asked_after {log : SessionLog} {sessions : List OpenSession} {c : PKCSCall} (r : c.Answer)
    (h : Asked log sessions) (hallowed : request.allowed env log c) :
    Asked (log.after c r) (openAfter sessions c r) := by
  cases c with
  | initializeLibrary => cases r <;> exact h
  | finalizeLibrary =>
    cases r with
    | error err => exact h
    | ok u => exact fun s hs => by cases hs
  | openSession slot readWrite =>
    have hasked := h.all (by rw [SessionRequest.apart_of_allowed hallowed rfl]; rfl)
    cases r with
    | error err => exact fun s hs => .inl (hasked s hs)
    | ok session =>
      intro s hs
      cases hs with
      | head => exact .inr rfl
      | tail _ hs => exact .inl (hasked s hs)
  | closeSession session =>
    have hown := SessionRequest.session_of_allowed_close hallowed
    have hother : ∀ s ∈ sessions, s.session ≠ session → s.askedToClose = true := fun s hs hne =>
      (h s hs).resolve_right fun hsession => hne (Option.some.inj (hsession.symm.trans hown))
    cases r with
    | error err =>
      intro s hs
      obtain ⟨s', hs', rfl⟩ := List.mem_map.mp hs
      split_ifs with hsame
      · exact .inl rfl
      · exact .inl (hother s' hs' hsame)
    | ok u =>
      intro s hs
      obtain ⟨hs, hne⟩ := List.mem_filter.mp hs
      exact .inl (hother s hs (of_decide_eq_true hne))
  | login session pin =>
    intro s hs
    rw [session_after_login]
    cases r <;> exact h s hs
  | logout session =>
    intro s hs
    rw [session_after_logout]
    cases r <;> exact h s hs
  | _ =>
    intro s hs
    rw [(continues_after log r trivial).standing]
    cases r <;> exact h s hs

theorem Orderly.asked {calls : CallHistory} (h : Orderly env request calls)
    {sessions : List OpenSession} (hsessions : ∀ s ∈ sessions, s.askedToClose = true)
    (before after : CallHistory) (hcalls : calls = before ++ after) :
    Asked (sessionLog before) (openSessions sessions before) := by
  refine prefix_invariant (p := fun history =>
    Asked (sessionLog history) (openSessions sessions history)) (fun s hs => .inl (hsessions s hs))
    (fun before c r hasked hallowed => ?_) h.allowed before after hcalls
  rw [sessionLog_concat, openSessions_concat]
  exact asked_after r hasked hallowed

/-- Whenever the library is opened or closed or a session is opened, and at the end, each session
that is open has been asked to close. -/
theorem asked_of_orderly {requests : List SessionRequest} {blocks : List CallHistory}
    (h : List.Forall₂ (Orderly env) requests blocks) {sessions : List OpenSession}
    (hsessions : ∀ s ∈ sessions, s.askedToClose = true) :
    (∀ before c r after, blocks.flatten = before ++ ⟨c, r⟩ :: after → c.betweenSessions = true →
      ∀ s ∈ openSessions sessions before, s.askedToClose = true) ∧
    ∀ s ∈ openSessions sessions blocks.flatten, s.askedToClose = true := by
  induction h generalizing sessions with
  | nil =>
    refine ⟨fun before c r after heq => ?_, hsessions⟩
    cases before <;> cases heq
  | @cons request block requests blocks horderly _ ih =>
    have hblock := (horderly.asked hsessions block [] (List.append_nil block).symm).all horderly.ended
    obtain ⟨hbetween, hend⟩ := ih hblock
    have happend (history : CallHistory) : openSessions sessions (block ++ history) =
        openSessions (openSessions sessions block) history := List.foldl_append
    rw [List.flatten_cons, happend]
    refine ⟨fun before c r after heq hc => ?_, hend⟩
    rcases List.append_eq_append_iff.mp heq with ⟨before', rfl, heq'⟩ | ⟨rest, hblockEq, heq'⟩
    · rw [happend]
      exact hbetween before' c r after heq' hc
    · cases rest with
      | nil =>
        rw [List.append_nil] at hblockEq
        subst hblockEq
        have hlater := hbetween [] c r after heq'.symm hc
        exact hlater
      | cons event rest =>
        obtain ⟨rfl, rfl⟩ := List.cons.inj heq'
        have hallowed := horderly.allowed before c r rest hblockEq
        refine (horderly.asked hsessions before _ hblockEq).all ?_
        rw [SessionRequest.apart_of_allowed hallowed hc]
        rfl

end Requests

/-- In whatever order requests come to a manager, and whatever the library answers: the calls of each
are made in one session that is its own, and are those it may make there. The library is opened and
closed, and sessions are opened, only when every session that is still open has been asked to close. -/
theorem serveSessions_orderly (env : CurveEnv) (byTime : TimeSort) (fuel : Nat) {T : Type}
    (token : TokenHandle T) (requests : List SessionRequest) (t : T) :
    (∃ blocks, (serveSessions env byTime fuel requests).trace token t = blocks.flatten ∧
      List.Forall₂ (Orderly env) requests blocks) ∧
    (∀ before c r after,
      (serveSessions env byTime fuel requests).trace token t = before ++ ⟨c, r⟩ :: after →
      c.betweenSessions = true → ∀ s ∈ openSessions [] before, s.askedToClose = true) ∧
    ∀ s ∈ openSessions [] ((serveSessions env byTime fuel requests).trace token t),
      s.askedToClose = true := by
  have hblocks : ∃ blocks, (serveSessions env byTime fuel requests).trace token t = blocks.flatten ∧
      List.Forall₂ (Orderly env) requests blocks := by
    induction requests generalizing t with
    | nil => exact ⟨[], rfl, .nil⟩
    | cons request requests ih =>
      let method := request.method env byTime fuel
      obtain ⟨blocks, htrace, horderly⟩ := ih (method.run token t).2
      obtain ⟨hcalls, hend⟩ := (request.meets env byTime fuel).along_trace token t
      refine ⟨method.trace token t :: blocks, ?_,
        .cons ⟨hcalls, opens_once hcalls, hend⟩ horderly⟩
      rw [List.flatten_cons, ← htrace]
      exact Program.trace_attempt_bind token method
        (fun _ => serveSessions env byTime fuel requests) t
  refine ⟨hblocks, ?_⟩
  obtain ⟨blocks, htrace, horderly⟩ := hblocks
  rw [htrace]
  exact asked_of_orderly horderly fun s hs => by cases hs

end Signare
