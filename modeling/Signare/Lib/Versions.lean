import Mathlib.Data.Set.Basic

/-!
# Versions

Values are stored under versions that are never used twice. What was read, and is found again under
the version it had, is what was read.
-/

/-- A version has been written with one value at most: with the one that is stored or that was read
under it, with none where it has not been used. -/
def Versioned {A V : Type} (version : A → V) (stored read : Set A) (unused : Set V) : Prop :=
  ∃ written : V → Option A, (∀ a ∈ stored, written (version a) = some a) ∧
    (∀ a ∈ read, written (version a) = some a) ∧ ∀ v ∈ unused, written v = none

namespace Versioned

variable {A V : Type} {version : A → V} {stored read : Set A} {unused : Set V}

theorem start (hinj : Set.InjOn version stored) (hunused : ∀ a ∈ stored, version a ∉ unused) :
    Versioned version stored ∅ unused := by
  classical
  let written (v : V) : Option A :=
    if h : ∃ a ∈ stored, version a = v then some h.choose else none
  refine ⟨written, fun a ha => ?_, fun a ha => ha.elim, fun v hv => dif_neg fun h => ?_⟩
  · have h : ∃ b ∈ stored, version b = version a := ⟨a, ha, rfl⟩
    have heq : h.choose = a := hinj h.choose_spec.1 ha h.choose_spec.2
    have hwritten : written (version a) = some h.choose := dif_pos h
    rw [hwritten, heq]
  · obtain ⟨a, ha, heq⟩ := h
    rw [← heq] at hv
    exact hunused a ha hv

/-- The check of an update that is guarded by the version. -/
theorem eq_of_version (h : Versioned version stored read unused) {a b : A} (ha : a ∈ stored)
    (hb : b ∈ read) (hversion : version a = version b) : a = b := by
  obtain ⟨written, hstored, hread, -⟩ := h
  have hwritten : some a = some b := by rw [← hstored a ha, ← hread b hb, hversion]
  exact Option.some.inj hwritten

theorem mono (h : Versioned version stored read unused) {stored' read' : Set A} {unused' : Set V}
    (hstored : stored' ⊆ stored) (hread : read' ⊆ read ∪ stored) (hunused : unused' ⊆ unused) :
    Versioned version stored' read' unused' := by
  obtain ⟨written, hs, hr, hu⟩ := h
  refine ⟨written, fun a ha => hs a (hstored ha), fun a ha => ?_, fun v hv => hu v (hunused hv)⟩
  cases hread ha with
  | inl ha => exact hr a ha
  | inr ha => exact hs a ha

theorem write (h : Versioned version stored read unused) {a : A} (ha : version a ∈ unused)
    {unused' : Set V} (hunused : unused' ⊆ unused) (hused : version a ∉ unused') :
    Versioned version {a} read unused' := by
  classical
  obtain ⟨written, -, hread, hnone⟩ := h
  refine ⟨Function.update written (version a) (some a), fun b hb => ?_, fun b hb => ?_,
    fun v hv => ?_⟩
  · have heq : b = a := hb
    rw [heq, Function.update_self]
  · have hne : version b ≠ version a := by
      intro heq
      have hb' := hread b hb
      rw [heq, hnone _ ha] at hb'
      cases hb'
    rw [Function.update_of_ne hne]
    exact hread b hb
  · have hne : v ≠ version a := fun heq => hused (heq ▸ hv)
    rw [Function.update_of_ne hne]
    exact hnone v (hunused hv)

end Versioned
