import Signare.SignatureManager.Token

/-!
# Pairs of keys

The keys of a pair are made together, are labelled one after the other with their address, and are
found by that label alone. As long as a private key can be labelled when its address is given out,
and its public key goes when it does, every public key that is labelled has a private one.
-/

namespace Signare

open ByteCodec

theorem length_base64 (bs : Bytes) : (base64 bs).length = (bs.length + 2) / 3 * 4 := by
  fun_induction base64 bs with
  | case1 => rfl
  | case2 a n => simp
  | case3 a b n => simp
  | case4 a b c rest n ih =>
    simp only [List.length_cons, ih]
    omega

theorem length_timestampId (time : UInt64) : (timestampId time).length = 8 := by
  apply length_leftPad
  rw [length_beBytes_le_iff]
  exact time.toNat_lt

variable {env : CurveEnv}

theorem le_length_keyLabel (env : CurveEnv) (addr : Address) :
    42 ≤ (keyLabel env addr).length := by
  have hbytes (s : String) : (utf8 s).length = s.utf8ByteSize := by simp [utf8]
  have hdigits : (hexEncode addr.bytes).length = 40 := by
    rw [length_hexEncode, addr.length_bytes]
    rfl
  rw [keyLabel, hbytes, Address.string]
  refine le_trans ?_ (length_le_byteLength _)
  rw [List.length_cons, List.length_cons, List.length_mapIdx, hdigits]

theorem base64_ne_keyLabel (time : UInt64) (addr : Address) :
    base64 (timestampId time) ≠ keyLabel env addr := by
  intro heq
  have hlength := le_length_keyLabel env addr
  rw [← heq, length_base64, length_timestampId] at hlength
  omega

theorem keyLabel_injective (env : CurveEnv) : Function.Injective (keyLabel env) :=
  utf8_injective.comp (Address.string_injective env.keccak)

namespace Token

/-- A private key is found for the address. -/
def Holds (env : CurveEnv) (t : Token) (addr : Address) : Prop :=
  ∃ handle, ∃ object ∈ t.objects handle, object.Matches ⟨.privateKey, some (keyLabel env addr)⟩

/-- An object that is labelled with an address belongs to it, and a public one has its partner. -/
structure Paired (env : CurveEnv) (t : Token) : Prop where
  belongs : ∀ handle addr, ∀ object ∈ t.objects handle, object.label = keyLabel env addr →
    object.Belongs env addr
  partner : ∀ handle addr, ∀ object ∈ t.objects handle, object.objectClass = .publicKey →
    object.label = keyLabel env addr → t.Holds env addr

variable {t t' : Token} {addr : Address}

theorem paired_empty : Token.empty.Paired env := ⟨nofun, nofun⟩

theorem Paired.congr (h : t.Paired env) (hobjects : t'.objects = t.objects) : t'.Paired env := by
  obtain ⟨objects, search, signing⟩ := t
  obtain ⟨objects', search', signing'⟩ := t'
  cases hobjects
  exact ⟨h.belongs, h.partner⟩

theorem matches_iff {object : KeyObject} {objectClass : ObjectClass} {label : Bytes} :
    object.Matches ⟨objectClass, some label⟩ ↔
      object.objectClass = objectClass ∧ object.label = label := by
  simp [KeyObject.Matches]

theorem Paired.extend (h : t.Paired env) {handles : ObjectHandle × ObjectHandle}
    {publicKey privateKey : KeyObject} (hfree₁ : t.objects handles.1 = none)
    (hfree₂ : t.objects handles.2 = none) (hpublic : t'.objects handles.1 = some publicKey)
    (hprivate : t'.objects handles.2 = some privateKey)
    (hother : ∀ handle, handle ≠ handles.1 → handle ≠ handles.2 →
      t'.objects handle = t.objects handle) (hclass : privateKey.objectClass = .privateKey)
    (hpublicLabel : ∀ addr, publicKey.label = keyLabel env addr →
      publicKey.Belongs env addr ∧ privateKey.label = keyLabel env addr)
    (hprivateLabel : ∀ addr, privateKey.label = keyLabel env addr →
      privateKey.Belongs env addr) : t'.Paired env := by
  have hkept {handle : ObjectHandle} {object : KeyObject} (hobject : object ∈ t.objects handle) :
      object ∈ t'.objects handle := by
    rw [hother handle]
    · exact hobject
    · intro heq
      rw [heq, hfree₁] at hobject
      cases hobject
    · intro heq
      rw [heq, hfree₂] at hobject
      cases hobject
  have hcases {handle : ObjectHandle} {object : KeyObject} (hobject : object ∈ t'.objects handle) :
      object = publicKey ∨ object = privateKey ∨ object ∈ t.objects handle := by
    by_cases h₁ : handle = handles.1
    · rw [h₁, hpublic] at hobject
      exact .inl (Option.mem_some_iff.mp hobject).symm
    · by_cases h₂ : handle = handles.2
      · rw [h₂, hprivate] at hobject
        exact .inr (.inl (Option.mem_some_iff.mp hobject).symm)
      · rw [hother handle h₁ h₂] at hobject
        exact .inr (.inr hobject)
  constructor
  · intro handle addr object hobject hlabel
    rcases hcases hobject with rfl | rfl | hold
    · exact (hpublicLabel addr hlabel).1
    · exact hprivateLabel addr hlabel
    · exact h.belongs handle addr object hold hlabel
  · intro handle addr object hobject hpublicClass hlabel
    rcases hcases hobject with rfl | rfl | hold
    · exact ⟨handles.2, privateKey, hprivate, matches_iff.mpr ⟨hclass, (hpublicLabel addr hlabel).2⟩⟩
    · rw [hclass] at hpublicClass
      cases hpublicClass
    · obtain ⟨handle', object', hobject', hmatches⟩ :=
        h.partner handle addr object hold hpublicClass hlabel
      exact ⟨handle', object', hkept hobject', hmatches⟩

theorem Paired.remove (h : t.Paired env) (addr : Address) {gone : List ObjectHandle}
    (hobjects : ∀ handle, t'.objects handle = if handle ∈ gone then none else t.objects handle)
    (hgone : ∀ handle ∈ gone, ∀ object ∈ t.objects handle, object.label = keyLabel env addr)
    (hpartner : ∀ handle, ∀ object ∈ t'.objects handle, object.objectClass = .publicKey →
      object.label = keyLabel env addr → t'.Holds env addr) : t'.Paired env := by
  have hold {handle : ObjectHandle} {object : KeyObject} (hobject : object ∈ t'.objects handle) :
      object ∈ t.objects handle := by
    rw [hobjects] at hobject
    split at hobject
    · cases hobject
    · exact hobject
  constructor
  · intro handle addr' object hobject hlabel
    exact h.belongs handle addr' object (hold hobject) hlabel
  · intro handle addr' object hobject hclass hlabel
    by_cases hsame : addr' = addr
    · subst hsame
      exact hpartner handle object hobject hclass hlabel
    · obtain ⟨handle', object', hobject', hmatches⟩ :=
        h.partner handle addr' object (hold hobject) hclass hlabel
      refine ⟨handle', object', ?_, hmatches⟩
      rw [hobjects, if_neg]
      · exact hobject'
      · intro hmem
        have hlabel' := hgone handle' hmem object' hobject'
        rw [(matches_iff.mp hmatches).2] at hlabel'
        exact hsame (keyLabel_injective env hlabel')

theorem steady_answers (t : Token) (c : PKCSCall) (answer : c.Answer) (t' : Token)
    (h : steady t c answer t') : answers t c answer t' := h.1

theorem flawless_answers (t : Token) (c : PKCSCall) (answer : c.Answer) (t' : Token)
    (h : flawless t c answer t') : answers t c answer t' := h.1

theorem steady_error {c : PKCSCall} {err : PKCSError} (h : steady t c (.error err) t') :
    ¬ t.Critical c := fun hcritical => nomatch h.2 hcritical

end Token

section Methods

variable {slot pin : String} {t : Token} {address : Address}

theorem always_generateKey (publicTime privateTime : UInt64) (h : t.Paired env) :
    (generateKey env slot pin publicTime privateTime).Always Token.steady (fun result t' =>
      t'.Paired env ∧ ∀ addr, result = .ok addr → t'.Holds env addr) t := by
  apply always_withSession Token.steady_answers
  · intro _
    exact ⟨h, nofun⟩
  · intro c err message _
    exact ⟨h, nofun⟩
  · intro session
    apply always_invoke_bind
    · intro err t' hcall
      cases hcall.1
      exact ⟨h, nofun⟩
    · intro (handles : ObjectHandle × ObjectHandle) t' hcall
      obtain ⟨⟨hne, hfree₁, hfree₂, ecPoint, rfl⟩, -⟩ := hcall
      let publicKey : KeyObject :=
        ⟨.publicKey, base64 (timestampId publicTime), timestampId publicTime, ecPoint⟩
      let privateKey : KeyObject :=
        ⟨.privateKey, base64 (timestampId privateTime), timestampId privateTime, ecPoint⟩
      let made := t.putPair handles (keyPairTemplate publicTime privateTime) ecPoint
      have hpublic : made.objects handles.1 = some publicKey := by
        simp [made, Token.putPair, hne, publicKey, keyPairTemplate]
      have hprivate : made.objects handles.2 = some privateKey := by
        simp [made, Token.putPair, privateKey, keyPairTemplate]
      have hother (handle : ObjectHandle) (h₁ : handle ≠ handles.1) (h₂ : handle ≠ handles.2) :
          made.objects handle = t.objects handle := by
        simp [made, Token.putPair, h₁, h₂]
      have hmade : made.Paired env :=
        h.extend hfree₁ hfree₂ hpublic hprivate hother rfl
          (fun addr hlabel => absurd hlabel (base64_ne_keyLabel publicTime addr))
          (fun addr hlabel => absurd hlabel (base64_ne_keyLabel privateTime addr))
      apply (always_getAddress Token.steady_answers).bind
      · intro err t' haddress
        rw [haddress.1]
        exact ⟨hmade, nofun⟩
      · intro addr t' haddress
        obtain ⟨rfl, hbelongs⟩ := haddress
        have hbelongs : publicKey.Belongs env addr := by
          obtain ⟨object, hobject, hbelongs⟩ := hbelongs addr rfl
          cases hpublic.symm.trans hobject
          exact hbelongs
        -- the private key is labelled, whatever has become of the public one
        have hrest (labelled : Token) (publicKey' : KeyObject)
            (hpublic' : labelled.objects handles.1 = some publicKey')
            (hbelongs' : publicKey'.Belongs env addr)
            (hlabel' : ∀ addr', publicKey'.label = keyLabel env addr' → addr' = addr)
            (hkept : ∀ handle, handle ≠ handles.1 → labelled.objects handle = made.objects handle) :
            (checked (setLabel session handles.2 (keyLabel env addr)) >>= fun _ =>
              (pure addr : Method Address)).Always Token.steady (fun result t' =>
                t'.Paired env ∧ ∀ addr, result = .ok addr → t'.Holds env addr) labelled := by
          have hprivate' : labelled.objects handles.2 = some privateKey :=
            (hkept handles.2 (Ne.symm hne)).trans hprivate
          apply always_checked_bind
          apply always_invoke
          · intro err t' hcall
            exact absurd ⟨privateKey, hprivate', rfl⟩ (Token.steady_error hcall)
          · intro _ t' hcall
            obtain ⟨⟨object, hobject, rfl⟩, -⟩ := hcall
            cases hprivate'.symm.trans hobject
            let labelledKey : KeyObject := { privateKey with label := keyLabel env addr }
            refine ⟨nofun, ?_, ?_⟩
            · have hpublic'' : (labelled.put handles.2 (some labelledKey)).objects handles.1 =
                  some publicKey' := by rw [Token.put_objects_of_ne hne, hpublic']
              apply h.extend hfree₁ hfree₂ hpublic'' Token.put_objects_self
              · intro handle h₁ h₂
                rw [Token.put_objects_of_ne h₂, hkept handle h₁, hother handle h₁ h₂]
              · rfl
              · intro addr' hlabel
                rw [hlabel' addr' hlabel]
                exact ⟨hbelongs', rfl⟩
              · intro addr' hlabel
                have hsame : addr = addr' := keyLabel_injective env hlabel
                rw [← hsame]
                exact hbelongs
            · intro addr' haddr'
              cases haddr'
              exact ⟨handles.2, labelledKey, Token.put_objects_self, Token.matches_iff.mpr ⟨rfl, rfl⟩⟩
        apply always_checked_bind
        apply always_invoke
        · intro err t' hcall
          cases hcall.1
          refine ⟨nofun, hrest made publicKey hpublic hbelongs ?_ fun handle _ => rfl⟩
          intro addr' hlabel
          exact absurd hlabel (base64_ne_keyLabel publicTime addr')
        · intro _ t' hcall
          obtain ⟨⟨object, hobject, rfl⟩, -⟩ := hcall
          cases hpublic.symm.trans hobject
          refine ⟨nofun, hrest _ { publicKey with label := keyLabel env addr }
            Token.put_objects_self hbelongs ?_ ?_⟩
          · intro addr' hlabel
            exact (keyLabel_injective env hlabel).symm
          · intro handle hhandle
            exact Token.put_objects_of_ne hhandle

theorem always_searched {body : Method (List ObjectHandle)}
    {expected : List ObjectHandle → Prop} {may : Program.Answering PKCSCall PKCSCall.Answer Token}
    (h : body.Always may (fun result t' => t'.objects = t.objects ∧
      ∀ found, result = .ok found → expected found) t) :
    (searched body).Always may (fun result t' => t'.objects = t.objects ∧
      ∀ found, result = .ok found → expected found) t := by
  apply Program.Always.orElse
  apply h.mono
  intro result t' hresult
  refine ⟨hresult.1, fun found hfound => hresult.2 found ?_⟩
  exact Except.mapError_eq_ok.mp hfound

theorem mem_found {objectClass : ObjectClass} {found : List ObjectHandle} {handle : ObjectHandle}
    (h : t.Found ⟨objectClass, some (keyLabel env address)⟩ found) : handle ∈ found ↔
      ∃ object ∈ t.objects handle,
        object.objectClass = objectClass ∧ object.label = keyLabel env address := by
  rw [h.2]
  exact exists_congr fun object => and_congr_right fun _ => Token.matches_iff

section Destroy

variable {session : SessionHandle} (message : String) {found : List ObjectHandle} {v : Token}

theorem label_of_mem_found {objectClass : ObjectClass} {handle : ObjectHandle} {object : KeyObject}
    (h : t.Found ⟨objectClass, some (keyLabel env address)⟩ found) (hmem : handle ∈ found)
    (hobject : object ∈ t.objects handle) : object.label = keyLabel env address := by
  obtain ⟨object', hobject', -, hlabel⟩ := (mem_found h).mp hmem
  cases hobject'.symm.trans hobject
  exact hlabel

theorem always_destroyPrivate (h : t.Paired env) (hv : v.objects = t.objects)
    (hfound : t.Found ⟨.privateKey, some (keyLabel env address)⟩ found) :
    (destroyObjects session message found).Always Token.steady (fun result t' =>
      (∀ err, result = .error err → t'.Paired env) ∧ (result = .ok () →
        ∀ handle, t'.objects handle = if handle ∈ found then none else t.objects handle)) v := by
  apply (always_destroyObjects Token.steady_answers message).mono
  intro result t' hdestroyed
  obtain ⟨gone, left, hhandles, hobjects, hend⟩ := hdestroyed
  rw [hv] at hobjects
  cases hend with
  | inl hall =>
    rw [hall.1]
    refine ⟨nofun, fun _ => ?_⟩
    rw [hhandles, hall.2, List.append_nil]
    exact hobjects
  | inr hstopped =>
    obtain ⟨err, kept, rest, _, _, rfl, hleft, -⟩ := hstopped
    refine ⟨fun _ _ => ?_, nofun⟩
    have hmem : kept ∈ left := hleft ▸ List.mem_cons_self
    have hkept : kept ∉ gone := by
      intro hgone
      have hnodup := hfound.1
      rw [hhandles] at hnodup
      exact (List.nodup_append.mp hnodup).2.2 kept hgone kept hmem rfl
    have hmem' : kept ∈ found := hhandles ▸ List.mem_append_right gone hmem
    obtain ⟨object, hobject, hclass⟩ := (mem_found hfound).mp hmem'
    apply h.remove address hobjects
    · intro handle hgone object hobject
      exact label_of_mem_found hfound (hhandles ▸ List.mem_append_left left hgone) hobject
    · intro _ _ _ _ _
      refine ⟨kept, object, ?_, Token.matches_iff.mpr hclass⟩
      rw [hobjects, if_neg hkept]
      exact hobject

theorem always_destroyPublic
    (hfound : t.Found ⟨.publicKey, some (keyLabel env address)⟩ found)
    (hthere : ∀ handle ∈ found, v.objects handle = t.objects handle) :
    (destroyObjects session message found).Always Token.steady (fun _ t' =>
      ∀ handle, t'.objects handle = if handle ∈ found then none else v.objects handle) v := by
  apply (always_destroyObjects Token.steady_answers message).mono
  intro result t' hdestroyed
  obtain ⟨gone, left, hhandles, hobjects, hend⟩ := hdestroyed
  cases hend with
  | inl hall =>
    rw [hhandles, hall.2, List.append_nil]
    exact hobjects
  | inr hstopped =>
    obtain ⟨_, kept, rest, u, u', -, hleft, hu, _, hcall⟩ := hstopped
    have hmem : kept ∈ left := hleft ▸ List.mem_cons_self
    have hkept : kept ∉ gone := by
      intro hgone
      have hnodup := hfound.1
      rw [hhandles] at hnodup
      exact (List.nodup_append.mp hnodup).2.2 kept hgone kept hmem rfl
    have hmem' : kept ∈ found := hhandles ▸ List.mem_append_right gone hmem
    obtain ⟨object, hobject, hclass, -⟩ := (mem_found hfound).mp hmem'
    refine absurd ⟨object, ?_, hclass⟩ (Token.steady_error hcall)
    rw [hu, hobjects, if_neg hkept, hthere kept hmem']
    exact hobject

end Destroy

theorem always_removeKey (fuel : Nat) (h : t.Paired env) :
    (removeKey env fuel slot pin address).Always Token.steady (fun result t' =>
      t'.Paired env ∧ (result = .ok () →
        ∀ handle, ∀ object ∈ t'.objects handle, object.label ≠ keyLabel env address)) t := by
  apply always_withSession Token.steady_answers
  · intro _
    exact ⟨h, nofun⟩
  · intro c err message _
    exact ⟨h, nofun⟩
  · intro session
    apply (always_searched (always_findObjects Token.steady_answers fuel _)).bind
    · intro err t' hsearch
      exact ⟨h.congr hsearch.1, nofun⟩
    · intro privateKeys t₁ hsearch
      have h₁ : t₁.objects = t.objects := hsearch.1
      have hprivate := hsearch.2 privateKeys rfl
      apply (always_searched (always_findObjects Token.steady_answers fuel _)).bind
      · intro err t' hsearch
        exact ⟨h.congr (hsearch.1.trans h₁), nofun⟩
      · intro publicKeys t₂ hsearch
        have h₂ : t₂.objects = t.objects := hsearch.1.trans h₁
        have hpublic : t.Found ⟨.publicKey, some (keyLabel env address)⟩ publicKeys := by
          have hfound := hsearch.2 publicKeys rfl
          unfold Token.Found at hfound ⊢
          rw [h₁] at hfound
          exact hfound
        split
        · exact ⟨h.congr h₂, nofun⟩
        · apply (always_destroyPrivate _ h h₂ hprivate).bind
          · intro err t₃ hstopped
            exact ⟨hstopped.1 err rfl, nofun⟩
          · intro _ t₃ hdestroyed
            have hobjects := hdestroyed.2 rfl
            have hthere : ∀ handle ∈ publicKeys, t₃.objects handle = t.objects handle := by
              intro handle hmem
              rw [hobjects, if_neg]
              intro hmem'
              obtain ⟨object, hobject, hclass, -⟩ := (mem_found hpublic).mp hmem
              obtain ⟨object', hobject', hclass', -⟩ := (mem_found hprivate).mp hmem'
              cases hobject'.symm.trans hobject
              cases hclass.symm.trans hclass'
            apply (always_destroyPublic _ hpublic hthere).mono
            intro result t₄ hend
            have hend (handle : ObjectHandle) : t₄.objects handle =
                if handle ∈ publicKeys ++ privateKeys then none else t.objects handle := by
              rw [hend, hobjects]
              by_cases hmem : handle ∈ publicKeys
              · simp [hmem]
              · simp [hmem]
            have hnone : ∀ handle, ∀ object ∈ t₄.objects handle,
                object.label ≠ keyLabel env address := by
              intro handle object hobject hlabel
              rw [hend] at hobject
              split at hobject
              · cases hobject
              · rename_i hnot
                rw [List.mem_append, not_or, mem_found hpublic, mem_found hprivate] at hnot
                cases hclass : object.objectClass with
                | publicKey => exact hnot.1 ⟨object, hobject, hclass, hlabel⟩
                | privateKey => exact hnot.2 ⟨object, hobject, hclass, hlabel⟩
            refine ⟨h.remove address hend ?_ ?_, fun _ => hnone⟩
            · intro handle hmem object hobject
              cases List.mem_append.mp hmem with
              | inl hmem => exact label_of_mem_found hpublic hmem hobject
              | inr hmem => exact label_of_mem_found hprivate hmem hobject
            · intro handle object hobject _ hlabel
              exact absurd hlabel (hnone handle object hobject)

variable {may : Program.Answering PKCSCall PKCSCall.Answer Token}
  (hmay : ∀ t c answer t', may t c answer t' → Token.answers t c answer t')

include hmay

theorem always_listObject (session : SessionHandle) (handle : ObjectHandle) :
    (listObject env session handle).Always may (fun result t' => t' = t ∧
      ∀ entry, result = .ok (some entry) →
        ∃ object ∈ t.objects handle, object.label = keyLabel env entry.1) t := by
  have hlabel : (getLabel session handle).Always may (fun result t' => t' = t ∧
      ∀ label, result = .ok label → ∃ object ∈ t.objects handle, object.label = label) t := by
    apply always_invoke_bind
    · intro err t' hcall
      exact ⟨hmay _ _ _ _ hcall, nofun⟩
    · intro attributes t' hcall
      obtain ⟨rfl, object, hobject, rfl⟩ := hmay _ _ _ _ hcall
      refine ⟨rfl, fun label hlabel => ?_⟩
      cases hlabel
      exact ⟨object, hobject, rfl⟩
  have htime : (getTimestamp session handle).Always may (fun _ t' => t' = t) t := by
    apply always_invoke_bind
    · intro err t' hcall
      exact hmay _ _ _ _ hcall
    · intro attributes t' hcall
      obtain ⟨rfl, object, hobject, rfl⟩ := hmay _ _ _ _ hcall
      rfl
  apply always_checked_bind
  apply hlabel.mono
  intro result t' hresult
  obtain ⟨rfl, hresult⟩ := hresult
  refine ⟨fun message _ => ⟨rfl, nofun⟩, ?_⟩
  cases result with
  | error err => exact ⟨rfl, nofun⟩
  | ok label =>
    obtain ⟨object, hobject, hobjectLabel⟩ := hresult label rfl
    apply always_checked_bind
    apply (always_getAddress hmay).mono
    intro result t' haddress
    obtain ⟨rfl, -⟩ := haddress
    refine ⟨fun message _ => ⟨rfl, nofun⟩, ?_⟩
    cases result with
    | error err => exact ⟨rfl, nofun⟩
    | ok addr =>
      dsimp only
      split
      · exact ⟨rfl, nofun⟩
      · rename_i hsame
        apply always_checked_bind
        apply htime.mono
        intro result t' hstays
        subst hstays
        refine ⟨fun message _ => ⟨rfl, nofun⟩, ?_⟩
        cases result with
        | error err => exact ⟨rfl, nofun⟩
        | ok time =>
          refine ⟨rfl, fun entry hentry => ?_⟩
          cases hentry
          exact ⟨object, hobject, hobjectLabel.trans (not_not.mp hsame).symm⟩

theorem always_listObjects (session : SessionHandle) (handles : List ObjectHandle) :
    (listObjects env session handles).Always may (fun result t' => t' = t ∧
      ∀ entries, result = .ok entries → ∀ entry ∈ entries, ∃ handle ∈ handles,
        ∃ object ∈ t.objects handle, object.label = keyLabel env entry.1) t := by
  induction handles with
  | nil =>
    refine ⟨rfl, fun entries hentries => ?_⟩
    cases hentries
    exact List.forall_mem_nil _
  | cons handle handles ih =>
    apply (always_listObject hmay session handle).bind
    · intro err t' hfirst
      exact ⟨hfirst.1, nofun⟩
    · intro first t' hfirst
      obtain ⟨rfl, hfirst⟩ := hfirst
      apply ih.bind
      · intro err t' hrest
        exact ⟨hrest.1, nofun⟩
      · intro rest t' hrest
        obtain ⟨rfl, hrest⟩ := hrest
        refine ⟨rfl, fun entries hentries entry hentry => ?_⟩
        cases hentries
        cases List.mem_append.mp hentry with
        | inl hmem =>
          have hentryFirst : first = some entry := by simpa using hmem
          exact ⟨handle, List.mem_cons_self, hfirst entry (congrArg Except.ok hentryFirst)⟩
        | inr hmem =>
          obtain ⟨handle', hhandle', hlisted⟩ := hrest rest rfl entry hmem
          exact ⟨handle', List.mem_cons_of_mem handle hhandle', hlisted⟩

theorem always_listKeys (byTime : TimeSort) (fuel : Nat) :
    (listKeys env byTime fuel slot pin).Always may (fun result t' => t'.objects = t.objects ∧
      ∀ addresses, result = .ok addresses → (parseSlot slot).isSome ∧ ∀ addr ∈ addresses,
        ∃ handle, ∃ object ∈ t.objects handle, object.objectClass = .publicKey ∧
          object.label = keyLabel env addr) t := by
  cases hslot : parseSlot slot with
  | none =>
    unfold listKeys withSession
    simp only [hslot]
    exact ⟨rfl, nofun⟩
  | some number =>
    apply always_withSession hmay
    · intro hnone
      exact ⟨rfl, nofun⟩
    · intro c err message _
      exact ⟨rfl, nofun⟩
    · intro session
      apply (always_findObjects hmay fuel _).bind
      · intro err t' hsearch
        exact ⟨hsearch.1, nofun⟩
      · intro found t' hsearch
        apply (always_listObjects hmay session found).bind
        · intro err t'' hlist
          exact ⟨by rw [hlist.1, hsearch.1], nofun⟩
        · intro entries t'' hlist
          refine ⟨by rw [hlist.1, hsearch.1], fun addresses haddresses => ⟨rfl, ?_⟩⟩
          cases haddresses
          intro addr haddr
          obtain ⟨entry, hentry, rfl⟩ := List.mem_map.mp haddr
          obtain ⟨handle, hhandle, object, hobject, hlabel⟩ :=
            hlist.2 entries rfl entry ((byTime.perm entries).mem_iff.mp hentry)
          rw [hsearch.1] at hobject
          obtain ⟨object', hobject', hmatches⟩ := ((hsearch.2 found rfl).2 handle).mp hhandle
          cases hobject'.symm.trans hobject
          exact ⟨handle, object, hobject, hmatches.1, hlabel⟩

/-- How a signature for an address ends: it is made with a private key that belongs to the address,
or it is not made, for another reason than that no key is found. -/
def SignedBy (env : CurveEnv) (t : Token) (address : Address) (t' : Token) :
    Except MethodFailure Bytes → Prop
  | .ok _ => ∃ handle, t'.signing = some handle ∧ ∃ object ∈ t.objects handle,
      object.objectClass = .privateKey ∧ object.Belongs env address
  | .error (.manager err) => err.kind ≠ .notFound
  | .error _ => True

omit hmay in
theorem toSignatureManagerErr_kind (err : PKCSError) (message : String) :
    (toSignatureManagerErr err message).kind ≠ .notFound := by
  unfold toSignatureManagerErr pkcsErrTranslator
  dsimp only
  split_ifs
  all_goals exact nofun

theorem always_signData (data : Bytes) (h : t.Paired env) (hholds : t.Holds env address) :
    (signData env slot pin data address).Always may (fun result t' =>
      SignedBy env t address t' result ∧ ((∃ err, result = .error err) →
        parseSlot slot = none ∨ ∃ v c err v', may v c (.error err) v')) t := by
  apply always_withSession hmay
  · intro hslot
    exact ⟨nofun, fun _ => .inl hslot⟩
  · intro c err message hrefused
    exact ⟨toSignatureManagerErr_kind err _, fun _ => .inr ⟨_, _, _, _, hrefused⟩⟩
  · intro session
    let expected : Except MethodFailure ObjectHandle → Token → Prop := fun result t' =>
      t'.objects = t.objects ∧ ((∃ handle, result = .ok handle ∧ ∃ object ∈ t.objects handle,
          object.Matches ⟨.privateKey, some (keyLabel env address)⟩) ∨
        ∃ err, result = .error (.pkcs err) ∧ ∃ v c v', may v c (.error err) v')
    refine Program.Always.bind (show Program.Always may _ expected t from ?_) ?_ ?_
    · apply Program.Always.orElse
      apply (always_findObject hmay _).mono
      intro result t' hresult
      refine ⟨hresult.1, ?_⟩
      rcases hresult.2 with ⟨handle, rfl, hobject⟩ | ⟨rfl, hnone⟩ | ⟨err, rfl, hfailed⟩
      · exact .inl ⟨handle, rfl, hobject⟩
      · obtain ⟨handle, object, hobject, hmatches⟩ := hholds
        exact absurd hmatches (hnone handle object hobject)
      · exact .inr ⟨err, rfl, hfailed⟩
    · intro err t' hresult
      rcases hresult.2 with ⟨handle, hok, -⟩ | ⟨err', herr, v, c, v', hfailed⟩
      · cases hok
      · cases herr
        exact ⟨trivial, fun _ => .inr ⟨v, c, err', v', hfailed⟩⟩
    · intro handle t₁ hresult
      rcases hresult.2 with ⟨handle', hok, object, hobject, hmatches⟩ | ⟨err', herr, -⟩
      · cases hok
        obtain ⟨hclass, hlabel⟩ := Token.matches_iff.mp hmatches
        apply always_invoke_bind
        · intro err t' hcall
          exact ⟨toSignatureManagerErr_kind err "", fun _ => .inr ⟨_, _, _, _, hcall⟩⟩
        · intro _ t₂ hcall
          obtain ⟨-, rfl⟩ := hmay _ _ _ _ hcall
          apply always_invoke
          · intro err t' hcall
            exact ⟨toSignatureManagerErr_kind err "", fun _ => .inr ⟨_, _, _, _, hcall⟩⟩
          · intro sig t' hcall
            obtain ⟨-, rfl⟩ := hmay _ _ _ _ hcall
            refine ⟨⟨handle, rfl, object, hobject, hclass, ?_⟩, nofun⟩
            exact h.belongs handle address object hobject hlabel
      · cases herr

theorem always_signData_missing (data : Bytes)
    (hnone : ∀ handle, ∀ object ∈ t.objects handle, object.label ≠ keyLabel env address) :
    (signData env slot pin data address).Always may (fun result _ => ∀ sig, result ≠ .ok sig) t := by
  apply always_withSession hmay
  · intro _
    exact nofun
  · intro c err message _
    exact nofun
  · intro session
    let expected : Except MethodFailure ObjectHandle → Token → Prop := fun result _ =>
      ∀ handle, result ≠ .ok handle
    refine Program.Always.bind (show Program.Always may _ expected t from ?_) ?_ ?_
    · apply Program.Always.orElse
      apply (always_findObject hmay _).mono
      intro result t' hresult
      rcases hresult.2 with ⟨handle, rfl, object, hobject, hmatches⟩ | ⟨rfl, -⟩ | ⟨err, rfl, -⟩
      · exact absurd (Token.matches_iff.mp hmatches).2 (hnone handle object hobject)
      · exact nofun
      · exact nofun
    · intro err t' _
      exact nofun
    · intro handle t' hfound
      exact absurd rfl (hfound handle)

end Methods

/-- The tokens that generating and removing keys lead to from an empty slot, where no private key
fails to be labelled and no public key to be destroyed. -/
inductive Token.Reachable (env : CurveEnv) (slot pin : String) : Token → Prop
  | empty : Reachable env slot pin .empty
  | generateKey {t t' : Token} {publicTime privateTime : UInt64}
      {result : Except MethodFailure Address} (ht : Reachable env slot pin t)
      (hrun : (Signare.generateKey env slot pin publicTime privateTime).EndsIn steady t result t') :
      Reachable env slot pin t'
  | removeKey {t t' : Token} {fuel : Nat} {address : Address} {result : Except MethodFailure Unit}
      (ht : Reachable env slot pin t)
      (hrun : (Signare.removeKey env fuel slot pin address).EndsIn steady t result t') :
      Reachable env slot pin t'

theorem Token.Reachable.paired {slot pin : String} {t : Token} (h : Reachable env slot pin t) :
    t.Paired env := by
  induction h with
  | empty => exact paired_empty
  | generateKey _ hrun ih =>
    exact (Program.always_iff_endsIn.mp (always_generateKey _ _ ih) _ _ hrun).1
  | removeKey _ hrun ih =>
    exact (Program.always_iff_endsIn.mp (always_removeKey _ ih) _ _ hrun).1

/-- Signing for the address finds a private key that belongs to it, whatever else may fail, and
signs where nothing does. -/
structure Token.Signable (env : CurveEnv) (slot pin : String) (t : Token) (address : Address) :
    Prop where
  finds : ∀ data result t', (signData env slot pin data address).EndsIn answers t result t' →
    SignedBy env t address t' result
  signs : ∀ data result t', (signData env slot pin data address).EndsIn flawless t result t' →
    ∃ sig, result = .ok sig

section Runs

variable {slot pin : String} {t : Token}

theorem Token.Paired.signable {address : Address} (h : t.Paired env) (hholds : t.Holds env address)
    (hslot : (parseSlot slot).isSome) : t.Signable env slot pin address := by
  constructor
  · intro data result t' hrun
    exact (Program.always_iff_endsIn.mp
      (always_signData (fun _ _ _ _ h => h) data h hholds) result t' hrun).1
  · intro data result t' hrun
    have hend := (Program.always_iff_endsIn.mp
      (always_signData flawless_answers data h hholds) result t' hrun).2
    cases result with
    | ok sig => exact ⟨sig, rfl⟩
    | error err =>
      rcases hend ⟨err, rfl⟩ with hnone | ⟨v, c, err', v', hfailed⟩
      · rw [hnone] at hslot
        cases hslot
      · cases hfailed.2

theorem Token.Signable.holds {address : Address} (h : t.Signable env slot pin address) :
    t.Holds env address := by
  by_contra hmissing
  have hnone : t.Found ⟨.privateKey, some (keyLabel env address)⟩ [] := by
    refine ⟨List.nodup_nil, fun handle => ⟨nofun, fun hfound => ?_⟩⟩
    exact absurd ⟨handle, hfound⟩ hmissing
  have hends : ∃ err t', (signData env slot pin [] address).EndsIn flawless t (.error err) t' := by
    unfold signData withSession
    cases parseSlot slot with
    | none => exact ⟨_, t, rfl, rfl⟩
    | some number =>
      let searched : Token := { t with search := [] }
      exact ⟨_, searched,
        .ok (0 : Nat), t, ⟨rfl, rfl⟩,
        .ok (), t, ⟨rfl, rfl⟩,
        .ok (), searched, ⟨⟨[], hnone, rfl⟩, rfl⟩,
        .ok [], searched, ⟨⟨Nat.zero_le 1, fun _ => rfl, [], rfl, rfl⟩, rfl⟩,
        .ok (), searched, ⟨rfl, rfl⟩,
        .ok (), searched, ⟨rfl, rfl⟩,
        .ok (), searched, ⟨rfl, rfl⟩, rfl, rfl⟩
  obtain ⟨err, t', hends⟩ := hends
  obtain ⟨sig, hsig⟩ := h.signs [] _ t' hends
  cases hsig

theorem isSome_of_endsIn_ok {α : Type} {invalidSlot : String} {readWrite : Bool}
    {openMessage loginMessage : PKCSError → String} {body : SessionHandle → Method α}
    {may : Program.Answering PKCSCall PKCSCall.Answer Token} {a : α} {t' : Token}
    (h : (withSession slot pin invalidSlot readWrite openMessage loginMessage body).EndsIn may t
      (.ok a) t') : (parseSlot slot).isSome := by
  unfold withSession at h
  split at h
  · cases h.1
  · rename_i hslot
    rw [hslot]
    rfl

/-- After any generating and removing of keys from an empty slot in which no private key fails to be
labelled and no public key to be destroyed: an address that is generated or listed can be signed for
with its private key, and one that is removed is neither listed nor signed for. -/
theorem keys_usable (h : Token.Reachable env slot pin t) :
    (∀ publicTime privateTime addr t', (generateKey env slot pin publicTime privateTime).EndsIn
        Token.steady t (.ok addr) t' → t'.Signable env slot pin addr) ∧
      (∀ byTime fuel addresses t', (listKeys env byTime fuel slot pin).EndsIn Token.answers t
        (.ok addresses) t' → ∀ addr ∈ addresses, t'.Signable env slot pin addr) ∧
      ∀ fuel address t', (removeKey env fuel slot pin address).EndsIn Token.steady t (.ok ()) t' →
        (∀ byTime fuel addresses t'', (listKeys env byTime fuel slot pin).EndsIn Token.answers t'
          (.ok addresses) t'' → address ∉ addresses) ∧
        ∀ data sig t'', ¬ (signData env slot pin data address).EndsIn Token.answers t'
          (.ok sig) t'' := by
  have hpaired := h.paired
  refine ⟨?_, ?_, ?_⟩
  · intro publicTime privateTime addr t' hrun
    have hend := Program.always_iff_endsIn.mp
      (always_generateKey publicTime privateTime hpaired) _ _ hrun
    exact hend.1.signable (hend.2 addr rfl) (isSome_of_endsIn_ok hrun)
  · intro byTime fuel addresses t' hrun addr haddr
    have hend := Program.always_iff_endsIn.mp
      (always_listKeys (fun _ _ _ _ h => h) byTime fuel) _ _ hrun
    obtain ⟨hslot, hlisted⟩ := hend.2 addresses rfl
    obtain ⟨handle, object, hobject, hclass, hlabel⟩ := hlisted addr haddr
    have hpaired' : t'.Paired env := hpaired.congr hend.1
    rw [← hend.1] at hobject
    exact hpaired'.signable (hpaired'.partner handle addr object hobject hclass hlabel) hslot
  · intro fuel address t' hrun
    have hend := Program.always_iff_endsIn.mp (always_removeKey fuel hpaired) _ _ hrun
    have hnone := hend.2 rfl
    constructor
    · intro byTime fuel addresses t'' hlist haddress
      have hlisted := (Program.always_iff_endsIn.mp
        (always_listKeys (fun _ _ _ _ h => h) byTime fuel) _ _ hlist).2 addresses rfl
      obtain ⟨handle, object, hobject, -, hlabel⟩ := hlisted.2 address haddress
      exact hnone handle object hobject hlabel
    · intro data sig t'' hsign
      exact Program.always_iff_endsIn.mp
        (always_signData_missing (fun _ _ _ _ h => h) data hnone) _ _ hsign sig rfl

end Runs

def refusal : PKCSError := ⟨0x6, "pkcs11: 0x6: CKR_FUNCTION_FAILED"⟩

/-- A token with room for one pair, whose private key can be labelled or not. -/
def onePair (ecPoint : Bytes) (labelled : Bool) : (c : PKCSCall) → Token → c.Answer × Token
  | .generateKeyPair _ template, t =>
    if t.objects 1 = none ∧ t.objects 2 = none then (.ok (1, 2), t.putPair (1, 2) template ecPoint)
    else (.error refusal, t)
  | .setLabel _ handle label, t =>
    match t.objects handle with
    | none => (.error refusal, t)
    | some object =>
      if object.objectClass = .privateKey ∧ labelled = false then (.error refusal, t)
      else (.ok (), t.put handle (some { object with label := label }))
  | .getAttributeValue _ handle type, t =>
    match t.objects handle with
    | none => (.error refusal, t)
    | some object => (.ok [⟨type, some (object.value type)⟩], t)
  | .destroyObject _ handle, t =>
    if (t.objects handle).isSome then (.ok (), t.put handle none) else (.error refusal, t)
  | .openSession _ _, t => (.ok (3 : Nat), t)
  | .login _ _, t => (.ok (), t)
  | .logout _, t => (.ok (), t)
  | .closeSession _, t => (.ok (), t)
  | .initializeLibrary, t => (.error refusal, t)
  | .finalizeLibrary, t => (.error refusal, t)
  | .findObjectsInit _ _, t => (.error refusal, t)
  | .findObjects _ _, t => (.error refusal, t)
  | .findObjectsFinal _, t => (.error refusal, t)
  | .signInit _ _, t => (.error refusal, t)
  | .sign _ _, t => (.error refusal, t)

theorem onePair_answers (ecPoint : Bytes) (labelled : Bool) (c : PKCSCall) (t : Token) :
    Token.answers t c (onePair ecPoint labelled c t).1 (onePair ecPoint labelled c t).2 := by
  cases c with
  | generateKeyPair session template =>
    unfold onePair
    dsimp only
    split
    · rename_i hfree
      exact ⟨by decide, hfree.1, hfree.2, ecPoint, rfl⟩
    · rfl
  | setLabel session handle label =>
    unfold onePair
    dsimp only
    split
    · rfl
    · rename_i object hobject
      split
      · rfl
      · exact ⟨object, hobject, rfl⟩
  | getAttributeValue session handle type =>
    unfold onePair
    dsimp only
    split
    · rfl
    · rename_i object hobject
      exact ⟨rfl, object, hobject, rfl⟩
  | destroyObject session handle =>
    unfold onePair
    dsimp only
    split
    · rename_i hsome
      exact ⟨hsome, rfl⟩
    · rfl
  | _ => rfl

theorem onePair_steady (ecPoint : Bytes) (c : PKCSCall) (t : Token) :
    Token.steady t c (onePair ecPoint true c t).1 (onePair ecPoint true c t).2 := by
  refine ⟨onePair_answers ecPoint true c t, fun hcritical => ?_⟩
  cases c with
  | setLabel session handle label =>
    obtain ⟨object, hobject, -⟩ := hcritical
    have hobject : t.objects handle = some object := hobject
    have hlabelled : ¬ (object.objectClass = .privateKey ∧ true = false) := by simp
    unfold onePair
    simp only [hobject]
    rw [if_neg hlabelled]
    rfl
  | destroyObject session handle =>
    obtain ⟨object, hobject, -⟩ := hcritical
    have hobject : t.objects handle = some object := hobject
    unfold onePair
    simp only [hobject]
    rfl
  | _ => cases hcritical

/-- The base point of the curve. -/
def basePoint : Bytes :=
  0x04 :: beWord 32 0x79BE667EF9DCBBAC55A06295CE870B07029BFCDB2DCE28D959F2815B16F81798 ++
    beWord 32 0x483ADA7726A3C4655DA4FBFC0E1108A8FD17B448A68554199C47D08FFB10D4B8

/-- As much of the curve as is asked for: the base point, uncompressed. -/
def baseCurve : CurveEnv where
  keccak := keccak256
  recoverCompact _ _ := .ok none
  parsePubKey data := if data = basePoint then .ok basePoint else .error (.text "not looked at")

def baseAddress : Address := .copyFrom ((keccak256.sum basePoint.tail).drop 12)

/-- The token after a key has been generated on it, as an octet string. -/
def generated (labelled : Bool) : Except MethodFailure Address × Token :=
  (generateKey baseCurve "0" "1234" 1 2).run (onePair (0x04 :: 65 :: basePoint) labelled) .empty

theorem keys_usable_generated :
    (∀ publicTime privateTime addr t', (generateKey baseCurve "0" "1234" publicTime
        privateTime).EndsIn Token.steady (generated true).2 (.ok addr) t' →
          t'.Signable baseCurve "0" "1234" addr) ∧
      (∀ byTime fuel addresses t', (listKeys baseCurve byTime fuel "0" "1234").EndsIn Token.answers
        (generated true).2 (.ok addresses) t' →
          ∀ addr ∈ addresses, t'.Signable baseCurve "0" "1234" addr) ∧
      ∀ fuel address t', (removeKey baseCurve fuel "0" "1234" address).EndsIn Token.steady
        (generated true).2 (.ok ()) t' →
        (∀ byTime fuel addresses t'', (listKeys baseCurve byTime fuel "0" "1234").EndsIn
          Token.answers t' (.ok addresses) t'' → address ∉ addresses) ∧
        ∀ data sig t'', ¬ (signData baseCurve "0" "1234" data address).EndsIn Token.answers t'
          (.ok sig) t'' :=
  keys_usable (.generateKey .empty (Program.endsIn_run (onePair_steady _) _ _))

/-- The token after the public key alone has been labelled. -/
def halfLabelled : Token :=
  let ecPoint : Bytes := 0x04 :: 65 :: basePoint
  (Token.empty.putPair (1, 2) (keyPairTemplate 1 2) ecPoint).put 1
    (some ⟨.publicKey, keyLabel baseCurve baseAddress, timestampId 1, ecPoint⟩)

theorem generated_false : generated false = (.ok baseAddress, halfLabelled) := rfl

theorem halfLabelled_not_holds : ¬ halfLabelled.Holds baseCurve baseAddress := by
  intro hholds
  obtain ⟨handle, object, hobject, hmatches⟩ := hholds
  obtain ⟨hclass, hlabel⟩ := Token.matches_iff.mp hmatches
  by_cases hpublic : handle = 1
  · subst hpublic
    cases hobject
    cases hclass
  · rw [halfLabelled, Token.put_objects_of_ne hpublic] at hobject
    by_cases hprivate : handle = 2
    · subst hprivate
      cases hobject
      exact base64_ne_keyLabel 2 baseAddress hlabel
    · have hnone : (Token.empty.putPair (1, 2) (keyPairTemplate 1 2)
          (0x04 :: 65 :: basePoint)).objects handle = none := by
        simp [Token.putPair, Token.empty, hpublic, hprivate]
      rw [hnone] at hobject
      cases hobject

/-- An address is given out whose private key has not been labelled with it. -/
theorem generated_not_signable :
    (generateKey baseCurve "0" "1234" 1 2).EndsIn Token.answers .empty (.ok baseAddress)
        (generated false).2 ∧
      ¬ (generated false).2.Signable baseCurve "0" "1234" baseAddress := by
  have hrun : (generateKey baseCurve "0" "1234" 1 2).EndsIn Token.answers .empty (generated false).1
      (generated false).2 :=
    Program.endsIn_run (onePair_answers (0x04 :: 65 :: basePoint) false) _ _
  rw [generated_false] at hrun ⊢
  exact ⟨hrun, fun hsignable => halfLabelled_not_holds hsignable.holds⟩

end Signare
