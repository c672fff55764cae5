import Mathlib.Data.Fintype.Card
import Mathlib.Logic.Relation
import Mathlib.Data.Set.Finite.Basic

/-!
# Finite graphs without cycles

Where only finitely many nodes can be reached and none of them reaches itself again, every chain of
steps ends.
-/

namespace Relation

variable {α : Type} {r : α → α → Prop}

/-- A step taken, and then any number of steps, starting in a finite set closed under steps. -/
theorem acc_of_finite {s : Set α} (hfin : s.Finite) (hclosed : ∀ a ∈ s, ∀ b, r a b → b ∈ s)
    (hacyclic : ∀ a ∈ s, ¬ TransGen r a a) {a : α} (ha : a ∈ s) : Acc (fun b a => r a b) a := by
  have : Finite s := hfin
  let below : s → s → Prop := fun b a => TransGen r a.1 b.1
  have : IsTrans s below := ⟨fun _ _ _ hab hbc => hbc.trans hab⟩
  have : Std.Irrefl below := ⟨fun x hx => hacyclic x.1 x.2 hx⟩
  have hwf : WellFounded below := Finite.wellFounded_of_trans_of_irrefl below
  have hacc : ∀ x : s, Acc (fun b a => r a b) x.1 := fun x => by
    induction x using hwf.induction with
    | _ x ih => exact ⟨_, fun b hb => ih ⟨b, hclosed x.1 x.2 b hb⟩ (.single hb)⟩
  exact hacc ⟨a, ha⟩

end Relation
