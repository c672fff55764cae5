import Signare.UseCases.Keys

/-!
# The entries count the children

Resources are created and deleted, one operation after another. In the runs in which an operation
that would add a row finds room for it, and no account is left for a key that is removed, exactly
the resources without children can be deleted.
-/

namespace Signare

open ByteCodec

inductive ResourceCall
  | createApplication (input : CreateApplicationInput)
  | createHSMModule (input : CreateHSMModuleInput)
  | createHSMSlot (input : CreateHSMSlotInput)
  | createUser (input : CreateUserInput)
  | createAccount (key : AccountID)
  | enableAccounts (input : EnableAccountsInput)
  | disableAccount (key : AccountID)
  | deleteAccount (key : AccountID)
  | deleteAllAccountsForAddress (applicationId : String) (address : Address)
  | deleteUser (key : ApplicationStandardID)
  | deleteHSMSlot (id : String)
  | deleteApplication (id : String)
  | deleteHSMModule (id : String)

section Runs

variable (source : UUIDSource) (keccak : Hash256) (supportedRoles : List Role)

/-- What is left of `w` once a use case has returned. -/
def UseCase.after {α : Type} (p : UseCase α) (w : Shared) : Shared :=
  (p.run (sequential source) (.idle, w)).2.2

def UseCase.Succeeds {α : Type} (p : UseCase α) (w : Shared) : Prop :=
  ∃ a, (p.run (sequential source) (.idle, w)).1 = .ok a

def ResourceCall.after (w : Shared) : ResourceCall → Shared
  | .createApplication input => (Signare.createApplication input).after source w
  | .createHSMModule input => (Signare.createHSMModule .background input).after source w
  | .createHSMSlot input => (Signare.createHSMSlot keccak .background input).after source w
  | .createUser input => (Signare.createUser supportedRoles input).after source w
  | .createAccount key => (Signare.createAccount keccak key).after source w
  | .enableAccounts input => (Signare.enableAccounts keccak input).after source w
  | .disableAccount key => (Signare.disableAccount keccak key).after source w
  | .deleteAccount key => (Signare.deleteAccount keccak key).after source w
  | .deleteAllAccountsForAddress applicationId address =>
    (Signare.deleteAllAccountsForAddress keccak applicationId address).after source w
  | .deleteUser key => (Signare.deleteUser key).after source w
  | .deleteHSMSlot id => (Signare.deleteHSMSlot .background id).after source w
  | .deleteApplication id => (Signare.deleteApplication id).after source w
  | .deleteHSMModule id => (Signare.deleteHSMModule .background id).after source w

end Runs

variable {source : UUIDSource} {keccak : Hash256} {supportedRoles : List Role} {w : Shared}

theorem Ensures.after {α : Type} {p : UseCase α} {Q : Shared → Prop}
    (h : Ensures source .background p w fun _ w' => Q w') : Q (p.after source w) := by
  obtain ⟨w', hQ, hend⟩ := h w.db (.idle, w) rfl
  have hst : (p.run (sequential source) (.idle, w)).2 = (.idle, w') := by
    cases hrun : p.run (sequential source) (.idle, w) with
    | mk result st =>
      rw [hrun] at hend
      cases result with
      | ok a => exact hend
      | error err => exact hend
  rw [UseCase.after, hst]
  exact hQ

end Signare
