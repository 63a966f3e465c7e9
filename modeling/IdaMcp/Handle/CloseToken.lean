import IdaMcp.Error

namespace IdaMcp.Handle

structure CloseTokenLease where
  token : String
  ownerSessionId : String
deriving DecidableEq, Repr

structure CloseTokenGrant where
  token : String
  reused : Bool
  ownerSessionId : String
deriving DecidableEq, Repr

inductive CloseAuthorization
  | granted
  | grantedByOverride (previousOwnerSessionId : String)
  | denied (ownerSessionId : String)
deriving DecidableEq, Repr

abbrev CloseTokenState := Option CloseTokenLease

namespace CloseTokenState

variable (state : CloseTokenState) (sessionId : String) (token : Option String) (force : Bool)

/-- `fresh` is the token that `generate_token` draws if it is called. -/
def issueForSession (fresh : String) : CloseTokenState × Except String CloseTokenGrant :=
  match state with
  | some lease =>
    if lease.ownerSessionId = sessionId then
      (state, .ok { token := lease.token, reused := true, ownerSessionId := lease.ownerSessionId })
    else (state, .error lease.ownerSessionId)
  | none =>
    (some { token := fresh, ownerSessionId := sessionId },
      .ok { token := fresh, reused := false, ownerSessionId := sessionId })

def authorizeClose : CloseAuthorization :=
  match state with
  | none => .granted
  | some lease =>
    if token = some lease.token ∨ lease.ownerSessionId = sessionId then .granted
    else if force then .grantedByOverride lease.ownerSessionId
    else .denied lease.ownerSessionId

theorem authorizeClose_denied {lease : CloseTokenLease} (hstate : state = some lease)
    (htoken : token ≠ some lease.token) (howner : lease.ownerSessionId ≠ sessionId) :
    authorizeClose state sessionId token false = .denied lease.ownerSessionId := by
  subst hstate
  simp only [authorizeClose]
  rw [if_neg (not_or.mpr ⟨htoken, howner⟩), if_neg Bool.false_ne_true]

theorem authorizeClose_foreign (htoken : ∀ lease, state = some lease → token ≠ some lease.token) :
    authorizeClose state sessionId token force = authorizeClose state sessionId none force := by
  cases state with
  | none => rfl
  | some lease =>
    have hforeign := htoken lease rfl
    simp only [authorizeClose, hforeign, false_or, reduceCtorEq]

end CloseTokenState

end IdaMcp.Handle
