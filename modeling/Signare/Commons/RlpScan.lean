import Signare.Commons.RlpDecode

/-!
# What the RLP decoder reads

The decoder is followed over an array and the number of bytes that belong to the list. An item may
end beyond that number, as long as the array holds it. Where it does not, the decoder panics.
-/

namespace Signare

open ByteCodec RlpItem

/-- The items `decodeList` reads from the first `n` bytes of `array`. -/
inductive Scans : Bytes → Nat → List RlpItem → Prop
  | nil {array : Bytes} : Scans array 0 []
  | str {array : Bytes} {n offset length : Nat} {items : List RlpItem}
      (hannounces : Announces (array.take n) offset length .str)
      (hfit : offset + length ≤ array.length)
      (hrest : Scans (array.drop (offset + length)) (n - (offset + length)) items) :
      Scans array n (.str ((array.drop offset).take length) :: items)
  | list {array : Bytes} {n offset length : Nat} {nested items : List RlpItem}
      (hannounces : Announces (array.take n) offset length .list)
      (hfit : offset + length ≤ array.length) (hnested : Scans (array.drop offset) length nested)
      (hrest : Scans (array.drop (offset + length)) (n - (offset + length)) items) :
      Scans array n (.list nested :: items)

/-- On its way through the first `n` bytes of `array`, `decodeList` gets to read an item at the
front of the first `n'` bytes of `array'`. -/
inductive Visits : Bytes → Nat → Bytes → Nat → Prop
  | here {array : Bytes} {n : Nat} : Visits array n array n
  | inside {array array' : Bytes} {n n' offset length : Nat}
      (hannounces : Announces (array.take n) offset length .list)
      (hfit : offset + length ≤ array.length)
      (hnested : Visits (array.drop offset) length array' n') : Visits array n array' n'
  | later {array array' : Bytes} {n n' offset length : Nat} {kind : Kind}
      (hannounces : Announces (array.take n) offset length kind)
      (hfit : offset + length ≤ array.length)
      (hnested : kind = .list → ∃ nested, Scans (array.drop offset) length nested)
      (hrest : Visits (array.drop (offset + length)) (n - (offset + length)) array' n') :
      Visits array n array' n'

/-- `Decode` reads the first item only, and what is inside it. -/
inductive Reaches : Bytes → Nat → Bytes → Nat → Prop
  | first {array : Bytes} {n : Nat} : Reaches array n array n
  | inside {array array' : Bytes} {n n' offset length : Nat}
      (hannounces : Announces (array.take n) offset length .list)
      (hfit : offset + length ≤ array.length)
      (hnested : Visits (array.drop offset) length array' n') : Reaches array n array' n'

/-- The item `Decode` reads from the first `n` bytes of `array`. -/
inductive Decodes : Bytes → Nat → RlpItem → Prop
  | str {array : Bytes} {n offset length : Nat}
      (hannounces : Announces (array.take n) offset length .str)
      (hfit : offset + length ≤ array.length) :
      Decodes array n (.str ((array.drop offset).take length))
  | list {array : Bytes} {n offset length : Nat} {nested : List RlpItem}
      (hannounces : Announces (array.take n) offset length .list)
      (hfit : offset + length ≤ array.length) (hnested : Scans (array.drop offset) length nested) :
      Decodes array n (.list nested)

/-- A prefix announces more than the array holds. -/
def Overruns (array : Bytes) (n : Nat) : Prop :=
  ∃ offset length kind, Announces (array.take n) offset length kind ∧
    array.length < offset + length

section Loop

variable {input : Slice} {i : Nat} {items : List RlpItem}

theorem decodeListFrom_end (hi : ¬ i < input.len) : decodeListFrom input i = .ok [] := by
  rw [decodeListFrom, dif_neg hi]

theorem decodeListFrom_error {err : RlpDecodingError} (hi : i < input.len)
    (hlocate : input.locate i = .error err) : decodeListFrom input i = .error err := by
  rw [decodeListFrom, dif_pos hi]
  split
  · next err' h =>
    rw [hlocate] at h
    cases h
    rfl
  · next located h =>
    rw [hlocate] at h
    cases h

theorem decodeListFrom_str {data : Slice} {next : Nat} (hi : i < input.len)
    (hlocate : input.locate i = .ok ⟨.str, data, next⟩) :
    decodeListFrom input i = (decodeListFrom input next).map (.str data.bytes :: ·) := by
  rw [decodeListFrom, dif_pos hi]
  split
  · next err' h =>
    rw [hlocate] at h
    cases h
  · next located h =>
    rw [hlocate] at h
    cases h
    dsimp only
    cases decodeListFrom input next <;> rfl

theorem decodeListFrom_list {data : Slice} {next : Nat} (hi : i < input.len)
    (hlocate : input.locate i = .ok ⟨.list, data, next⟩) :
    decodeListFrom input i = decodeListFrom data 0 >>= fun nestedList =>
      (decodeListFrom input next).map (.list nestedList :: ·) := by
  rw [decodeListFrom, dif_pos hi]
  split
  · next err' h =>
    rw [hlocate] at h
    cases h
  · next located h =>
    rw [hlocate] at h
    cases h
    dsimp only
    cases decodeListFrom data 0 with
    | error err => rfl
    | ok nestedList => cases decodeListFrom input next <;> rfl

theorem drop_bytes_announces {offset length : Nat} {kind : Kind}
    (h : Announces ((input.array.drop i).take (input.len - i)) offset length kind)
    (hfit : offset + length ≤ (input.array.drop i).length) :
    i < input.len ∧ ∃ data, input.locate i = .ok ⟨kind, data, i + offset + length⟩ ∧
      data.array = (input.array.drop i).drop offset ∧ data.len = length := by
  rw [← Slice.drop_bytes] at h
  have hi := Slice.lt_of_announces h
  have hlen := input.len_le
  rw [List.length_drop] at hfit
  obtain ⟨data, hlocate, harray, hdata⟩ := Slice.locate_of_announces h (by omega)
  exact ⟨hi, data, hlocate, by rw [harray, List.drop_drop], hdata⟩

theorem drop_next (input : Slice) (i offset length : Nat) :
    (input.array.drop i).drop (offset + length) = input.array.drop (i + offset + length) ∧
      input.len - i - (offset + length) = input.len - (i + offset + length) := by
  rw [List.drop_drop, Nat.add_assoc i]
  exact ⟨rfl, by omega⟩

theorem decodeListFrom_of_scans {array : Bytes} {n : Nat} (h : Scans array n items)
    (harray : array = input.array.drop i) (hn : n = input.len - i) :
    decodeListFrom input i = .ok items := by
  induction h generalizing input i with
  | nil => exact decodeListFrom_end (by omega)
  | @str array n offset length items hannounces hfit _ ih =>
    subst harray hn
    obtain ⟨hi, data, hlocate, hdata, hlen⟩ := drop_bytes_announces hannounces hfit
    obtain ⟨hnext, hnext'⟩ := drop_next input i offset length
    rw [decodeListFrom_str hi hlocate, ih hnext hnext', Slice.bytes, hdata, hlen]
    rfl
  | @list array n offset length nested items hannounces hfit _ _ ihnested ih =>
    subst harray hn
    obtain ⟨hi, data, hlocate, hdata, hlen⟩ := drop_bytes_announces hannounces hfit
    obtain ⟨hnext, hnext'⟩ := drop_next input i offset length
    have hinner : decodeListFrom data 0 = .ok nested :=
      ihnested (by rw [hdata, List.drop_zero]) hlen.symm
    rw [decodeListFrom_list hi hlocate, hinner, ih hnext hnext']
    rfl

theorem announces_drop {offset length : Nat} {kind : Kind}
    (h : Announces (input.bytes.drop i) offset length kind)
    (hfit : i + offset + length ≤ input.array.length) :
    Announces ((input.array.drop i).take (input.len - i)) offset length kind ∧
      offset + length ≤ (input.array.drop i).length := by
  rw [Slice.drop_bytes] at h
  refine ⟨h, ?_⟩
  rw [List.length_drop]
  omega

theorem scans_of_decodeListFrom (h : decodeListFrom input i = .ok items) :
    Scans (input.array.drop i) (input.len - i) items := by
  induction hm : input.array.length - i using Nat.strong_induction_on
    generalizing input i items with
  | _ m ih =>
    by_cases hi : i < input.len
    · have hlen := input.len_le
      rcases Slice.locate_cases hi with ⟨offset, length, kind, hannounces, hfit⟩ |
        ⟨offset, length, kind, hannounces, hover⟩ | herr
      · have hadvances := hannounces.advances
        obtain ⟨hannounces, hfit'⟩ := announces_drop hannounces hfit
        obtain ⟨-, data, hlocate, hdata, hdataLen⟩ := drop_bytes_announces hannounces hfit'
        obtain ⟨hnext, hnext'⟩ := drop_next input i offset length
        cases kind with
        | str =>
          rw [decodeListFrom_str hi hlocate] at h
          obtain ⟨output, houtput, rfl⟩ := Except.map_eq_ok.mp h
          have hrest := ih _ (by omega) houtput rfl
          rw [← hnext, ← hnext'] at hrest
          rw [Slice.bytes, hdata, hdataLen]
          exact .str hannounces hfit' hrest
        | list =>
          rw [decodeListFrom_list hi hlocate] at h
          obtain ⟨nested, hnested, h⟩ := Except.bind_eq_ok.mp h
          obtain ⟨output, houtput, rfl⟩ := Except.map_eq_ok.mp h
          have hpos := hannounces.list_offset_pos
          have hdecreases : data.array.length - 0 < m := by
            rw [hdata, List.length_drop, List.length_drop]
            omega
          have hinner := ih _ hdecreases hnested rfl
          have hrest := ih _ (by omega) houtput rfl
          rw [← hnext, ← hnext'] at hrest
          rw [List.drop_zero, hdata, hdataLen, Nat.sub_zero] at hinner
          exact .list hannounces hfit' hinner hrest
      · rw [decodeListFrom_error hi (Slice.locate_of_overrun hannounces hover)] at h
        cases h
      · rw [decodeListFrom_error hi herr] at h
        cases h
    · rw [decodeListFrom_end hi] at h
      cases h
      rw [show input.len - i = 0 by omega]
      exact .nil

theorem overruns_drop {offset length : Nat} {kind : Kind}
    (h : Announces ((input.array.drop i).take (input.len - i)) offset length kind)
    (hover : (input.array.drop i).length < offset + length) :
    i < input.len ∧ input.locate i = .error .sliceBounds := by
  rw [← Slice.drop_bytes] at h
  rw [List.length_drop] at hover
  exact ⟨Slice.lt_of_announces h, Slice.locate_of_overrun h (by omega)⟩

theorem decodeListFrom_of_visits {array array' : Bytes} {n n' : Nat} (h : Visits array n array' n')
    (hover : Overruns array' n') (harray : array = input.array.drop i)
    (hn : n = input.len - i) : decodeListFrom input i = .error .sliceBounds := by
  induction h generalizing input i with
  | here =>
    subst harray hn
    obtain ⟨offset, length, kind, hannounces, hlt⟩ := hover
    obtain ⟨hi, hlocate⟩ := overruns_drop hannounces hlt
    exact decodeListFrom_error hi hlocate
  | inside hannounces hfit _ ih =>
    subst harray hn
    obtain ⟨hi, data, hlocate, hdata, hlen⟩ := drop_bytes_announces hannounces hfit
    have hinner : decodeListFrom data 0 = .error .sliceBounds :=
      ih hover (by rw [hdata, List.drop_zero]) hlen.symm
    rw [decodeListFrom_list hi hlocate, hinner]
    rfl
  | @later _ _ _ _ offset length kind hannounces hfit hnested _ ih =>
    subst harray hn
    obtain ⟨hi, data, hlocate, hdata, hlen⟩ := drop_bytes_announces hannounces hfit
    obtain ⟨hnext, hnext'⟩ := drop_next input i offset length
    have hrest := ih hover hnext hnext'
    cases kind with
    | str =>
      rw [decodeListFrom_str hi hlocate, hrest]
      rfl
    | list =>
      obtain ⟨nested, hscans⟩ := hnested rfl
      have hinner : decodeListFrom data 0 = .ok nested :=
        decodeListFrom_of_scans hscans (by rw [hdata, List.drop_zero]) hlen.symm
      rw [decodeListFrom_list hi hlocate, hinner, hrest]
      rfl

theorem overruns_of_announces {offset length : Nat} {kind : Kind}
    (h : Announces (input.bytes.drop i) offset length kind)
    (hover : input.array.length < i + offset + length) :
    Overruns (input.array.drop i) (input.len - i) := by
  rw [Slice.drop_bytes] at h
  refine ⟨offset, length, kind, h, ?_⟩
  rw [List.length_drop]
  have := h.advances
  omega

theorem visits_of_decodeListFrom (h : decodeListFrom input i = .error .sliceBounds) :
    ∃ array' n', Visits (input.array.drop i) (input.len - i) array' n' ∧ Overruns array' n' := by
  induction hm : input.array.length - i using Nat.strong_induction_on generalizing input i with
  | _ m ih =>
    by_cases hi : i < input.len
    · have hlen := input.len_le
      rcases Slice.locate_cases hi with ⟨offset, length, kind, hannounces, hfit⟩ |
        ⟨offset, length, kind, hannounces, hover⟩ | herr
      · have hadvances := hannounces.advances
        obtain ⟨hannounces, hfit'⟩ := announces_drop hannounces hfit
        obtain ⟨-, data, hlocate, hdata, hdataLen⟩ := drop_bytes_announces hannounces hfit'
        obtain ⟨hnext, hnext'⟩ := drop_next input i offset length
        have hlater (hnested : kind = .list → ∃ nested,
              Scans ((input.array.drop i).drop offset) length nested)
            (hrest : decodeListFrom input (i + offset + length) = .error .sliceBounds) :
            ∃ array' n', Visits (input.array.drop i) (input.len - i) array' n' ∧
              Overruns array' n' := by
          obtain ⟨array', n', hvisits, hover⟩ := ih _ (by omega) hrest rfl
          rw [← hnext, ← hnext'] at hvisits
          exact ⟨array', n', .later hannounces hfit' hnested hvisits, hover⟩
        cases kind with
        | str =>
          rw [decodeListFrom_str hi hlocate, Except.map_eq_error] at h
          exact hlater (fun hkind => by cases hkind) h
        | list =>
          rw [decodeListFrom_list hi hlocate, Except.bind_eq_error] at h
          rcases h with hinner | ⟨nested, hinner, h⟩
          · have hpos := hannounces.list_offset_pos
            have hdecreases : data.array.length - 0 < m := by
              rw [hdata, List.length_drop, List.length_drop]
              omega
            obtain ⟨array', n', hvisits, hover⟩ := ih _ hdecreases hinner rfl
            rw [List.drop_zero, hdata, hdataLen, Nat.sub_zero] at hvisits
            exact ⟨array', n', .inside hannounces hfit' hvisits, hover⟩
          · have hscans := scans_of_decodeListFrom hinner
            rw [List.drop_zero, hdata, hdataLen, Nat.sub_zero] at hscans
            exact hlater (fun _ => ⟨nested, hscans⟩) (Except.map_eq_error.mp h)
      · exact ⟨_, _, .here, overruns_of_announces hannounces hover⟩
      · rw [decodeListFrom_error hi herr] at h
        cases h
    · rw [decodeListFrom_end hi] at h
      cases h

end Loop

theorem decodeList_eq_ok {input : Slice} {items : List RlpItem} :
    decodeList input = .ok items ↔ Scans input.array input.len items := by
  constructor
  · intro h
    have hscans := scans_of_decodeListFrom h
    rw [List.drop_zero, Nat.sub_zero] at hscans
    exact hscans
  · intro h
    exact decodeListFrom_of_scans h List.drop_zero.symm (Nat.sub_zero _).symm

theorem decodeList_eq_sliceBounds {input : Slice} :
    decodeList input = .error .sliceBounds ↔
      ∃ array n, Visits input.array input.len array n ∧ Overruns array n := by
  constructor
  · intro h
    have hvisits := visits_of_decodeListFrom h
    rw [List.drop_zero, Nat.sub_zero] at hvisits
    exact hvisits
  · rintro ⟨array, n, hvisits, hover⟩
    exact decodeListFrom_of_visits hvisits hover List.drop_zero.symm (Nat.sub_zero _).symm

section First

variable {input : Slice}

theorem rlpDecode_error {err : RlpDecodingError} (hlen : 0 < input.len)
    (hlocate : input.locate 0 = .error err) : rlpDecode input = .error err := by
  rw [rlpDecode, if_neg (by omega), hlocate]
  rfl

theorem rlpDecode_str {data : Slice} {next : Nat} (hlen : 0 < input.len)
    (hlocate : input.locate 0 = .ok ⟨.str, data, next⟩) :
    rlpDecode input = .ok (.str data.bytes) := by
  rw [rlpDecode, if_neg (by omega), hlocate]
  rfl

theorem rlpDecode_list {data : Slice} {next : Nat} (hlen : 0 < input.len)
    (hlocate : input.locate 0 = .ok ⟨.list, data, next⟩) :
    rlpDecode input = (decodeList data).map .list := by
  rw [rlpDecode, if_neg (by omega), hlocate, Except.ok_bind]
  cases decodeList data <;> rfl

theorem locate_first {offset length : Nat} {kind : Kind}
    (h : Announces (input.array.take input.len) offset length kind)
    (hfit : offset + length ≤ input.array.length) :
    0 < input.len ∧ ∃ data next, input.locate 0 = .ok ⟨kind, data, next⟩ ∧
      data.array = input.array.drop offset ∧ data.len = length := by
  have hdrop : input.array.drop 0 = input.array := List.drop_zero
  rw [← hdrop] at h hfit
  obtain ⟨hi, data, hlocate, hdata, hlen⟩ := @drop_bytes_announces input 0 _ _ _ h hfit
  exact ⟨hi, data, _, hlocate, by rw [hdata, hdrop], hlen⟩

theorem rlpDecode_of_decodes {x : RlpItem} (h : Decodes input.array input.len x) :
    rlpDecode input = .ok x := by
  cases h with
  | str hannounces hfit =>
    obtain ⟨hi, data, next, hlocate, hdata, hlen⟩ := locate_first hannounces hfit
    rw [rlpDecode_str hi hlocate, Slice.bytes, hdata, hlen]
  | list hannounces hfit hnested =>
    obtain ⟨hi, data, next, hlocate, hdata, hlen⟩ := locate_first hannounces hfit
    rw [← hdata, ← hlen] at hnested
    rw [rlpDecode_list hi hlocate, decodeList_eq_ok.mpr hnested]
    rfl

theorem decodes_of_rlpDecode {x : RlpItem} (h : rlpDecode input = .ok x) :
    Decodes input.array input.len x := by
  by_cases hlen : 0 < input.len
  · rcases Slice.locate_cases hlen with ⟨offset, length, kind, hannounces, hfit⟩ |
      ⟨offset, length, kind, hannounces, hover⟩ | herr
    · obtain ⟨hannounces, hfit'⟩ := announces_drop hannounces hfit
      obtain ⟨-, data, hlocate, hdata, hdataLen⟩ := drop_bytes_announces hannounces hfit'
      rw [List.drop_zero, Nat.sub_zero] at hannounces
      rw [List.drop_zero] at hfit' hdata
      cases kind with
      | str =>
        rw [rlpDecode_str hlen hlocate] at h
        cases h
        rw [Slice.bytes, hdata, hdataLen]
        exact .str hannounces hfit'
      | list =>
        rw [rlpDecode_list hlen hlocate] at h
        obtain ⟨nested, hnested, rfl⟩ := Except.map_eq_ok.mp h
        rw [decodeList_eq_ok, hdata, hdataLen] at hnested
        exact .list hannounces hfit' hnested
    · rw [rlpDecode_error hlen (Slice.locate_of_overrun hannounces hover)] at h
      cases h
    · rw [rlpDecode_error hlen herr] at h
      cases h
  · rw [rlpDecode, if_pos (by omega)] at h
    cases h

theorem rlpDecode_eq_ok {x : RlpItem} :
    rlpDecode input = .ok x ↔ Decodes input.array input.len x :=
  ⟨decodes_of_rlpDecode, rlpDecode_of_decodes⟩

theorem rlpDecode_of_reaches {array : Bytes} {n : Nat}
    (h : Reaches input.array input.len array n) (hover : Overruns array n) :
    rlpDecode input = .error .sliceBounds := by
  cases h with
  | first =>
    obtain ⟨offset, length, kind, hannounces, hlt⟩ := hover
    have hdrop : input.array.drop 0 = input.array := List.drop_zero
    rw [← hdrop] at hannounces hlt
    obtain ⟨hi, hlocate⟩ := @overruns_drop input 0 _ _ _ hannounces hlt
    exact rlpDecode_error hi hlocate
  | inside hannounces hfit hnested =>
    obtain ⟨hi, data, next, hlocate, hdata, hlen⟩ := locate_first hannounces hfit
    rw [← hdata, ← hlen] at hnested
    rw [rlpDecode_list hi hlocate, decodeList_eq_sliceBounds.mpr ⟨array, n, hnested, hover⟩]
    rfl

theorem reaches_of_rlpDecode (h : rlpDecode input = .error .sliceBounds) :
    ∃ array n, Reaches input.array input.len array n ∧ Overruns array n := by
  by_cases hlen : 0 < input.len
  · rcases Slice.locate_cases hlen with ⟨offset, length, kind, hannounces, hfit⟩ |
      ⟨offset, length, kind, hannounces, hover⟩ | herr
    · obtain ⟨hannounces, hfit'⟩ := announces_drop hannounces hfit
      obtain ⟨-, data, hlocate, hdata, hdataLen⟩ := drop_bytes_announces hannounces hfit'
      rw [List.drop_zero, Nat.sub_zero] at hannounces
      rw [List.drop_zero] at hfit' hdata
      cases kind with
      | str =>
        rw [rlpDecode_str hlen hlocate] at h
        cases h
      | list =>
        rw [rlpDecode_list hlen hlocate, Except.map_eq_error, decodeList_eq_sliceBounds, hdata,
          hdataLen] at h
        obtain ⟨array, n, hvisits, hover⟩ := h
        exact ⟨array, n, .inside hannounces hfit' hvisits, hover⟩
    · have hover' := overruns_of_announces hannounces hover
      rw [List.drop_zero, Nat.sub_zero] at hover'
      exact ⟨_, _, .first, hover'⟩
    · rw [rlpDecode_error hlen herr] at h
      cases h
  · rw [rlpDecode, if_pos (by omega)] at h
    cases h

theorem rlpDecode_eq_sliceBounds :
    rlpDecode input = .error .sliceBounds ↔
      ∃ array n, Reaches input.array input.len array n ∧ Overruns array n :=
  ⟨reaches_of_rlpDecode, fun ⟨_, _, hreaches, hover⟩ => rlpDecode_of_reaches hreaches hover⟩

end First

/-- A value, or an error that is returned. -/
def Returns {α : Type} (outcome : Except RlpDecodingError α) : Prop :=
  (∃ value, outcome = .ok value) ∨ ∃ err, err ≠ .sliceBounds ∧ outcome = .error err

theorem returns_iff {α : Type} {outcome : Except RlpDecodingError α} :
    Returns outcome ↔ outcome ≠ .error .sliceBounds := by
  constructor
  · rintro (⟨value, rfl⟩ | ⟨err, hne, rfl⟩)
    · intro h
      cases h
    · intro h
      exact hne (Except.error.inj h)
  · intro h
    cases outcome with
    | error err => exact .inr ⟨err, fun herr => h (by rw [herr]), rfl⟩
    | ok value => exact .inl ⟨value, rfl⟩

/-- The decoder panics where it gets to an item that the array does not hold, and only there.
The loop always advances. -/
theorem rlpDecode_returns_iff (input : Slice) :
    (Returns (rlpDecode input) ↔
      ∀ array n, Reaches input.array input.len array n → ¬ Overruns array n) ∧
    (Returns (decodeList input) ↔
      ∀ array n, Visits input.array input.len array n → ¬ Overruns array n) ∧
    ∀ i located, i < input.len → input.locate i = .ok located → i < located.next := by
  refine ⟨?_, ?_, fun i located hi hlocate => (Slice.locate_advances hi hlocate).1⟩
  · rw [returns_iff, Ne, rlpDecode_eq_sliceBounds]
    push Not
    exact Iff.rfl
  · rw [returns_iff, Ne, decodeList_eq_sliceBounds]
    push Not
    exact Iff.rfl

/-- A string of three bytes is announced, and the input ends. -/
theorem rlpDecode_panics_truncated :
    ∃ input : Slice, input.bytes = [0x83] ∧ ¬ Returns (rlpDecode input) := by
  let input : Slice := ⟨[0x83], 1, by decide, by norm_num⟩
  refine ⟨input, rfl, fun h => ?_⟩
  have hannounces : Announces (input.array.take input.len) 1 3 .str :=
    @Announces.short .str 3 [] (by omega)
  exact returns_iff.mp h (rlpDecode_of_reaches .first ⟨1, 3, .str, hannounces, by decide⟩)

end Signare
