import IdentityAuthority.Operations.PersonnelRelations
import IdentityAuthority.Safety.Usability

/-!
# Two answers to one question

A host joins the sessions that are in force; the authority itself admits a session by its own
checks. Both ask for an active account, current epochs, a backed origin and an expiry that has not
come. Only the authority asks that the session was issued before the reading, so the two agree from
its issue on, and before it only where the session is not in force at all.
-/

namespace IdentityAuthority

open Relational Transition

/-- The authority's own checks accept the session. -/
def SessionRow.Admits (env : Env) (w : Tenant) (row : SessionRow) : Prop :=
  ∃ admitted w', (admitSession env row.principal row.session).run w = .ok (admitted, w')

variable {env : Env} {start w w' : Tenant} {a : Area} {db db' : Db} {row : SessionRow}

section Origins

end Origins

section Authority

end Authority

section Host

variable {terms : ReferenceTerms}

end Host

section Agreement

end Agreement

end IdentityAuthority
