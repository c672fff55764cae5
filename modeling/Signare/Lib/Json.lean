import Mathlib.Data.List.Basic

/-!
# JSON values

The syntax tree of a JSON text: members stay in their order and may repeat, numbers stay literals,
strings are decoded. A text is decoded into a structure member by member, and a member names a
field whatever its letter case.
-/

inductive Json
  | null
  | bool (b : Bool)
  | number (literal : String)
  | string (s : String)
  | array (items : List Json)
  | object (members : List (String × Json))

namespace Json

/-- Folding of letter case, as far as it reaches the ASCII letters: the Kelvin sign and the long s
fold to letters too. -/
def foldRune (c : Char) : Char :=
  if 'A' ≤ c ∧ c ≤ 'Z' then Char.ofNat (c.toNat + 32)
  else if c = '\u212A' then 'k'
  else if c = 'ſ' then 's'
  else c

def foldName (s : String) : List Char := s.toList.map foldRune

/-- Whether a member of this name is decoded into the field: exactly, or up to letter case. -/
def namesField (field name : String) : Bool := foldName field == foldName name

theorem namesField_self (field : String) : namesField field field = true := beq_self_eq_true _

example : namesField "storageKeys" "storage\u212Aeys" = true := by decide

end Json
