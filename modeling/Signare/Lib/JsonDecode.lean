import Mathlib.Algebra.Group.Nat.Defs
import Mathlib.Data.List.Basic
import Signare.Lib.Json

/-!
# Decoding JSON into typed values

A value is decoded over the one that is there: every member of an object that names a field in any
letter case is decoded over what the ones before it left. A `null` leaves text and structures as
they were and clears pointers and slices. An array is decoded over the items that are there, those
behind the end of a shortened slice included. A map keeps its keys exactly.
-/

namespace Json

/-- The values of the members that are decoded into the field. -/
def named (field : String) (members : List (String × Json)) : List Json :=
  (members.filter fun m => namesField field m.1).map Prod.snd

/-- A map keeps the last of the members of one name. -/
def lookup (key : String) (members : List (String × Json)) : Option Json :=
  (members.filter fun m => m.1 == key).getLast?.map Prod.snd

/-- A decoder: nothing if the value does not have the type. -/
abbrev Into (α : Type) := Json → α → Option α

def intoString : Into String
  | .null, old => some old
  | .string s, _ => some s
  | _, _ => none

/-- Into a pointer to text. -/
def intoPointer : Into (Option String)
  | .null, _ => some none
  | .string s, _ => some (some s)
  | _, _ => none

/-- A slice, and what its array holds behind the end of it. -/
structure GoSlice (α : Type) where
  items : List α
  behind : List α

variable {α : Type}

/-- The items of an array over the cells of the slice, new ones at the end. -/
def intoItems (into : Into α) (zero : α) : List Json → List α → Option (GoSlice α)
  | [], cells => some ⟨[], cells⟩
  | json :: jsons, cells => do
    let item ← into json (cells.head?.getD zero)
    let later ← intoItems into zero jsons cells.tail
    return ⟨item :: later.items, later.behind⟩

/-- The cells of a slice that may be nil. -/
def GoSlice.cells : Option (GoSlice α) → List α
  | none => []
  | some slice => slice.items ++ slice.behind

def intoSlice (into : Into α) (zero : α) : Into (Option (GoSlice α))
  | .null, _ => some none
  | .array [], _ => some (some ⟨[], []⟩)
  | .array jsons, old => (intoItems into zero jsons (GoSlice.cells old)).map some
  | _, _ => none

/-- What the members leave in a field that held `old`. -/
def intoField (into : Into α) (old : α) (field : String) (members : List (String × Json)) :
    Option α :=
  (named field members).foldlM (fun old json => into json old) old

/-- The digits of a decimal literal as a number, and the power of ten it is multiplied by. -/
def decimal (literal : String) : Nat × Int :=
  let unsigned := if literal.toList.head? = some '-' then literal.toList.tail else literal.toList
  let (whole, rest) := unsigned.span Char.isDigit
  let (fraction, rest) := if rest.head? = some '.' then rest.tail.span Char.isDigit else ([], rest)
  let exponent : Int := match rest with
    | _ :: '-' :: digits => -(Nat.ofDigitChars 10 digits 0 : Int)
    | _ :: '+' :: digits => Nat.ofDigitChars 10 digits 0
    | _ :: digits => Nat.ofDigitChars 10 digits 0
    | [] => 0
  (Nat.ofDigitChars 10 (whole ++ fraction) 0, exponent - fraction.length)

/-- Whether the number nearest to the literal is a finite float of 64 bits. -/
def fitsFloat64 (literal : String) : Bool :=
  let scale := (decimal literal).2
  (decimal literal).1 * 10 ^ scale.toNat < (2 ^ 1024 - 2 ^ 970) * 10 ^ (-scale).toNat

mutual
/-- Numbers in a value that is decoded without a type become floats of 64 bits. -/
def fitsFloats : Json → Bool
  | .number literal => fitsFloat64 literal
  | .array items => allFitFloats items
  | .object members => membersFitFloats members
  | _ => true

def allFitFloats : List Json → Bool
  | [] => true
  | item :: items => fitsFloats item && allFitFloats items

def membersFitFloats : List (String × Json) → Bool
  | [] => true
  | (_, value) :: members => fitsFloats value && membersFitFloats members
end

/-- The values that are decoded, whatever they are decoded over. -/
def Recognises (into : Into α) (IsTyped : Json → Prop) : Prop :=
  ∀ json old, (∃ a, into json old = some a) ↔ IsTyped json

def IsText : Json → Prop
  | .null => True
  | .string _ => True
  | _ => False

def IsArrayOf (IsTyped : Json → Prop) : Json → Prop
  | .null => True
  | .array items => ∀ item ∈ items, IsTyped item
  | _ => False

@[simp] theorem isText_null : IsText .null := trivial
@[simp] theorem isText_string (s : String) : IsText (.string s) := trivial
@[simp] theorem not_isText_bool (b : Bool) : ¬ IsText (.bool b) := id
@[simp] theorem not_isText_number (literal : String) : ¬ IsText (.number literal) := id
@[simp] theorem not_isText_array (items : List Json) : ¬ IsText (.array items) := id
@[simp] theorem not_isText_object (members : List (String × Json)) : ¬ IsText (.object members) :=
  id

theorem recognises_intoString : Recognises intoString IsText := by
  intro json old
  cases json <;> simp [intoString, IsText]

theorem recognises_intoPointer : Recognises intoPointer IsText := by
  intro json old
  cases json <;> simp [intoPointer, IsText]

variable {into : Into α} {IsTyped : Json → Prop}

theorem exists_intoItems (h : Recognises into IsTyped) (zero : α) (items : List Json)
    (cells : List α) :
    (∃ slice, intoItems into zero items cells = some slice) ↔ ∀ item ∈ items, IsTyped item := by
  induction items generalizing cells with
  | nil => simp [intoItems]
  | cons item items ih =>
    rw [List.forall_mem_cons, ← h item (cells.head?.getD zero), ← ih cells.tail]
    simp only [intoItems, Option.bind_eq_bind, Option.bind_eq_some_iff]
    constructor
    · intro hslice
      obtain ⟨slice, a, ha, later, hlater, -⟩ := hslice
      exact ⟨⟨a, ha⟩, ⟨later, hlater⟩⟩
    · intro hitems
      obtain ⟨⟨a, ha⟩, ⟨later, hlater⟩⟩ := hitems
      exact ⟨_, a, ha, later, hlater, rfl⟩

theorem recognises_intoSlice (h : Recognises into IsTyped) (zero : α) :
    Recognises (intoSlice into zero) (IsArrayOf IsTyped) := by
  intro json old
  cases json with
  | array items =>
    cases items with
    | nil => simp [intoSlice, IsArrayOf]
    | cons item items =>
      rw [IsArrayOf, ← exists_intoItems h zero (item :: items) (GoSlice.cells old)]
      simp [intoSlice]
  | _ => simp [intoSlice, IsArrayOf]

theorem exists_foldlM (h : Recognises into IsTyped) (old : α) (jsons : List Json) :
    (∃ a, jsons.foldlM (fun old json => into json old) old = some a) ↔
      ∀ json ∈ jsons, IsTyped json := by
  induction jsons generalizing old with
  | nil => simp
  | cons json jsons ih =>
    rw [List.forall_mem_cons, List.foldlM_cons]
    simp only [Option.bind_eq_bind, Option.bind_eq_some_iff]
    constructor
    · intro hfold
      obtain ⟨a, b, hb, ha⟩ := hfold
      exact ⟨(h json old).mp ⟨b, hb⟩, (ih b).mp ⟨a, ha⟩⟩
    · intro htyped
      obtain ⟨b, hb⟩ := (h json old).mpr htyped.1
      obtain ⟨a, ha⟩ := (ih b).mpr htyped.2
      exact ⟨a, b, hb, ha⟩

theorem exists_intoField (h : Recognises into IsTyped) (old : α) (field : String)
    (members : List (String × Json)) :
    (∃ a, intoField into old field members = some a) ↔
      ∀ json ∈ named field members, IsTyped json :=
  exists_foldlM h old (named field members)

/-- The last text that is not a `null`. -/
def lastText (old : String) : List Json → String
  | [] => old
  | .string s :: jsons => lastText s jsons
  | _ :: jsons => lastText old jsons

def unlessNull : Json → Option Json
  | .null => none
  | json => some json

/-- The last value, unless it is a `null`. -/
def lastPointer (jsons : List Json) : Option Json := jsons.getLast?.bind unlessNull

theorem lastPointer_append (jsons : List Json) (json : Json) :
    lastPointer (jsons ++ [json]) = lastPointer [json] := by
  simp [lastPointer]

theorem foldlM_intoString {old text : String} {jsons : List Json} :
    jsons.foldlM (fun old json => intoString json old) old = some text ↔
      (∀ json ∈ jsons, IsText json) ∧ text = lastText old jsons := by
  induction jsons generalizing old with
  | nil => simp [lastText, eq_comm]
  | cons json jsons ih =>
    rw [List.foldlM_cons, List.forall_mem_cons]
    cases json with
    | null => simpa [intoString, lastText] using ih
    | string s => simpa [intoString, lastText] using ih
    | _ => simp [intoString]

/-- The text of a field is the last that is not a `null`. -/
theorem intoField_intoString {old text field : String} {members : List (String × Json)} :
    intoField intoString old field members = some text ↔
      (∀ json ∈ named field members, IsText json) ∧ text = lastText old (named field members) :=
  foldlM_intoString

theorem foldlM_intoPointer {pointer : Option String} {jsons : List Json} :
    jsons.foldlM (fun old json => intoPointer json old) none = some pointer ↔
      (∀ json ∈ jsons, IsText json) ∧ pointer.map Json.string = lastPointer jsons := by
  rcases List.eq_nil_or_concat jsons with rfl | ⟨before, json, rfl⟩
  · cases pointer <;> simp [lastPointer]
  · rw [List.concat_eq_append]
    have hold (old : Option String) : intoPointer json old = some pointer ↔
        IsText json ∧ pointer.map Json.string = lastPointer [json] := by
      cases json <;> cases pointer <;> simp [intoPointer, lastPointer, unlessNull, eq_comm]
    rw [List.foldlM_append, lastPointer_append, List.forall_mem_append, List.forall_mem_singleton,
      ← exists_foldlM recognises_intoPointer none before]
    simp only [Option.bind_eq_bind, Option.bind_eq_some_iff, List.foldlM_cons, List.foldlM_nil,
      Option.pure_def, Option.some.injEq, exists_eq_right, hold, exists_and_right, and_assoc]

/-- A pointer is what the last member makes of it. -/
theorem intoField_intoPointer {pointer : Option String} {field : String}
    {members : List (String × Json)} :
    intoField intoPointer none field members = some pointer ↔
      (∀ json ∈ named field members, IsText json) ∧
        pointer.map Json.string = lastPointer (named field members) :=
  foldlM_intoPointer

end Json

/-- A value whose texts keep their spelling: what stands between the quotes, escapes and all. -/
inductive JsonText
  | null
  | bool (b : Bool)
  | number (literal : String)
  | string (spelling s : String)
  | array (items : List JsonText)
  | object (members : List (String × JsonText))

namespace JsonText

mutual
def value : JsonText → Json
  | .null => .null
  | .bool b => .bool b
  | .number literal => .number literal
  | .string _ s => .string s
  | .array items => .array (values items)
  | .object members => .object (memberValues members)

def values : List JsonText → List Json
  | [] => []
  | item :: items => item.value :: values items

def memberValues : List (String × JsonText) → List (String × Json)
  | [] => []
  | (name, text) :: members => (name, text.value) :: memberValues members
end

/-- The texts of the members that are decoded into the field. -/
def named (field : String) (members : List (String × JsonText)) : List JsonText :=
  (members.filter fun m => Json.namesField field m.1).map Prod.snd

/-- What the members leave in a field that held `old`. -/
def intoField {α : Type} (into : JsonText → α → Option α) (old : α) (field : String)
    (members : List (String × JsonText)) : Option α :=
  (named field members).foldlM (fun old text => into text old) old

end JsonText
