import Signare.Lib.Hex
import Signare.Lib.JsonDecode
import Mathlib.Data.List.Sort

/-!
# Encoding values as JSON

What a decoded value is written as, and what becomes of a text that is copied: the characters that
HTML gives a meaning are escaped. Neither changes what is decoded.
-/

namespace JsonText

open ByteCodec Json

/-- An escape of four hexadecimal digits. -/
def unicodeEscape (c : Char) : List Char :=
  let n := c.toNat
  ['\\', 'u', hexDigit (n / 4096 % 16), hexDigit (n / 256 % 16), hexDigit (n / 16 % 16),
    hexDigit (n % 16)]

/-- The characters that are escaped for HTML, and the two line separators. -/
def escapesHTML (c : Char) : Bool :=
  c == '<' || c == '>' || c == '&' || c == Char.ofNat 0x2028 || c == Char.ofNat 0x2029

def escapeChar (c : Char) : List Char :=
  if c = '"' ∨ c = '\\' then ['\\', c]
  else if c.toNat = 8 then ['\\', 'b']
  else if c.toNat = 12 then ['\\', 'f']
  else if c = '\n' then ['\\', 'n']
  else if c = '\r' then ['\\', 'r']
  else if c = '\t' then ['\\', 't']
  else if c.toNat < 0x20 ∨ escapesHTML c then unicodeEscape c
  else [c]

def marshalString (s : String) : JsonText := .string (String.ofList (s.toList.flatMap escapeChar)) s

/-- A map has the last of the members of one name. -/
def keepLast {β : Type} : List (String × β) → List (String × β)
  | [] => []
  | member :: members =>
    if members.any fun later => later.1 == member.1 then keepLast members
    else member :: keepLast members

/-- The members of a map in the order of their names. -/
def sortMembers {β : Type} (members : List (String × β)) : List (String × β) :=
  (keepLast members).mergeSort fun a b => a.1 ≤ b.1

section Marshal

variable (printFloat : String → String)

mutual
/-- A value that was decoded without a type. `printFloat` prints the float a literal was read as. -/
def marshal : Json → JsonText
  | .null => .null
  | .bool b => .bool b
  | .number literal => .number (printFloat literal)
  | .string s => marshalString s
  | .array items => .array (marshalItems items)
  | .object members => .object (sortMembers (marshalMembers members))

def marshalItems : List Json → List JsonText
  | [] => []
  | item :: items => marshal item :: marshalItems items

def marshalMembers : List (String × Json) → List (String × JsonText)
  | [] => []
  | (name, value) :: members => (name, marshal value) :: marshalMembers members
end

end Marshal

def escapeHTML (s : String) : String :=
  String.ofList (s.toList.flatMap fun c => if escapesHTML c then unicodeEscape c else [c])

mutual
/-- A raw text that is copied into another. -/
def compact : JsonText → JsonText
  | .null => .null
  | .bool b => .bool b
  | .number literal => .number literal
  | .string spelling s => .string (escapeHTML spelling) s
  | .array items => .array (compactItems items)
  | .object members => .object (compactMembers members)

def compactItems : List JsonText → List JsonText
  | [] => []
  | item :: items => item.compact :: compactItems items

def compactMembers : List (String × JsonText) → List (String × JsonText)
  | [] => []
  | (name, text) :: members => (name, text.compact) :: compactMembers members
end

mutual
@[simp] theorem value_compact : ∀ t : JsonText, t.compact.value = t.value
  | .null | .bool _ | .number _ | .string _ _ => rfl
  | .array items => congrArg Json.array (values_compactItems items)
  | .object members => congrArg Json.object (memberValues_compactMembers members)

@[simp] theorem values_compactItems : ∀ items : List JsonText,
    values (compactItems items) = values items
  | [] => rfl
  | item :: items => congrArg₂ List.cons (value_compact item) (values_compactItems items)

@[simp] theorem memberValues_compactMembers : ∀ members : List (String × JsonText),
    memberValues (compactMembers members) = memberValues members
  | [] => rfl
  | (name, text) :: members =>
    congrArg₂ List.cons (congrArg (Prod.mk name) (value_compact text))
      (memberValues_compactMembers members)
end

theorem memberValues_eq_map (members : List (String × JsonText)) :
    memberValues members = members.map fun m => (m.1, m.2.value) := by
  induction members with
  | nil => rfl
  | cons member members ih => exact congrArg (List.cons _) ih

theorem membersFitFloats_iff (members : List (String × Json)) :
    membersFitFloats members ↔ ∀ m ∈ members, fitsFloats m.2 := by
  induction members with
  | nil => simp [membersFitFloats]
  | cons member members ih => simp [membersFitFloats, ih]

theorem mem_of_mem_keepLast {β : Type} {member : String × β} {members : List (String × β)}
    (h : member ∈ keepLast members) : member ∈ members := by
  induction members with
  | nil => exact h
  | cons first members ih =>
    rw [keepLast] at h
    split at h
    · exact List.mem_cons_of_mem _ (ih h)
    · rw [List.mem_cons] at h
      rcases h with rfl | h
      · exact List.mem_cons_self
      · exact List.mem_cons_of_mem _ (ih h)

theorem membersFitFloats_sortMembers {members : List (String × JsonText)}
    (h : membersFitFloats (memberValues members)) :
    membersFitFloats (memberValues (sortMembers members)) := by
  rw [membersFitFloats_iff, memberValues_eq_map] at h ⊢
  intro m hm
  obtain ⟨member, hmember, rfl⟩ := List.mem_map.mp hm
  have hsorted : member ∈ keepLast members := (List.mergeSort_perm _ _).mem_iff.mp hmember
  exact h _ (List.mem_map_of_mem (mem_of_mem_keepLast hsorted))

section Floats

variable {printFloat : String → String}

mutual
/-- A float that was read and printed is read again. -/
theorem fitsFloats_marshal
    (hprint : ∀ literal, fitsFloat64 literal → fitsFloat64 (printFloat literal)) (json : Json)
    (h : fitsFloats json) :
    fitsFloats (marshal printFloat json).value := by
  cases json with
  | null => simp [marshal, value, fitsFloats]
  | bool b => simp [marshal, value, fitsFloats]
  | string s => simp [marshal, marshalString, value, fitsFloats]
  | number literal =>
    rw [fitsFloats] at h
    rw [marshal, value, fitsFloats]
    exact hprint literal h
  | array items =>
    rw [fitsFloats] at h
    rw [marshal, value, fitsFloats]
    exact allFitFloats_marshalItems hprint items h
  | object members =>
    rw [fitsFloats] at h
    rw [marshal, value, fitsFloats]
    exact membersFitFloats_sortMembers (membersFitFloats_marshalMembers hprint members h)

theorem allFitFloats_marshalItems
    (hprint : ∀ literal, fitsFloat64 literal → fitsFloat64 (printFloat literal))
    (items : List Json) (h : allFitFloats items) :
    allFitFloats (values (marshalItems printFloat items)) := by
  cases items with
  | nil => rw [marshalItems, values, allFitFloats]
  | cons item items =>
    rw [allFitFloats, Bool.and_eq_true] at h
    rw [marshalItems, values, allFitFloats, Bool.and_eq_true]
    exact ⟨fitsFloats_marshal hprint item h.1, allFitFloats_marshalItems hprint items h.2⟩

theorem membersFitFloats_marshalMembers
    (hprint : ∀ literal, fitsFloat64 literal → fitsFloat64 (printFloat literal))
    (members : List (String × Json))
    (h : membersFitFloats members) :
    membersFitFloats (memberValues (marshalMembers printFloat members)) := by
  cases members with
  | nil => rw [marshalMembers, memberValues, membersFitFloats]
  | cons member members =>
    obtain ⟨name, value⟩ := member
    rw [membersFitFloats, Bool.and_eq_true] at h
    rw [marshalMembers, memberValues, membersFitFloats, Bool.and_eq_true]
    exact ⟨fitsFloats_marshal hprint value h.1,
      membersFitFloats_marshalMembers hprint members h.2⟩
end

end Floats

end JsonText
