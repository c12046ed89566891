import IdentityAuthority.Core.Account
import IdentityAuthority.Core.Facts

/-!
# Failures

Why a transaction of the component fails. Nothing of a failed transaction remains, so a
failure is only a reason, never a change.
-/

namespace IdentityAuthority

/-- Why a transaction fails. -/
inductive Failure
  /-- The operation is refused, without saying why. -/
  | rejected
  /-- Stored state is not one the component writes. -/
  | corrupt
  /-- The database aborts a statement over a constraint of a table. -/
  | constraint
  | invalidInput
  | cursorInvalidated
  | revisionConflict
  | operationConflict
  | interactionRequired
  | cancelled
  | unavailable
  | rule (error : AccountRuleError)
  | federation (error : FederationError)
deriving DecidableEq, Repr

/-- A pure account rule inside a transaction. -/
def ofRule {α : Type} : Except AccountRuleError α → Except Failure α :=
  Except.mapError .rule

/-- A pure federation rule inside a transaction. -/
def ofFederation {α : Type} : Except FederationError α → Except Failure α :=
  Except.mapError .federation

@[simp] theorem ofRule_eq_ok {α : Type} {r : Except AccountRuleError α} {a : α} :
    ofRule r = .ok a ↔ r = .ok a := by
  cases r <;> simp [ofRule, Except.mapError]

@[simp] theorem ofFederation_eq_ok {α : Type} {r : Except FederationError α} {a : α} :
    ofFederation r = .ok a ↔ r = .ok a := by
  cases r <;> simp [ofFederation, Except.mapError]

end IdentityAuthority
