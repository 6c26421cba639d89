import Odudu.ProtocolOidc.Repositories

/-!
# Rotating a refresh token

`rotateRefreshToken` (`usecase/refresh-rotation.ts`), one transaction: the presented token
is consumed by one conditional `UPDATE`; a token that cannot be consumed because it was
used before revokes its family; one that could be yields a successor, unless the grant is
revoked or its session is over.

The audit rows are left out.  A generated token is known by its hash, an input here.
-/

set_option autoImplicit false

namespace Odudu.ProtocolOidc

open ReadCommitted Program

/-- The arguments of `rotateRefreshToken`, and the hash of the token it generates. -/
structure RotationRequest where
  presentedHash : TokenHash
  now : Time
  refreshTokenTtlSeconds : Time
  lifespans : SessionLifespans
  nextHash : TokenHash

inductive RotationOutcome where
  | rotated (grantId : GrantId) (grant : TokenGrant) (next : TokenHash)
  | reused (revokedFamily : GrantId) (subjectId : Option SubjectId)
  | revoked
  | unknown

/-- The presented token was not consumed: unknown, expired, or used before, and only the
last of these has a family to revoke. -/
def detectReuse (r : RotationRequest) : Tx RotationOutcome := do
  let existing ← query (.refreshTokenByHash r.presentedHash)
  match existing with
  | none => pure .unknown
  | some existing =>
    match existing.usedAt with
    | none => pure .unknown
    | some _ => do
      let family ← query (.tokenGrantById existing.grantId)
      let _revoked ← query (.tokenGrantRevoke existing.grantId r.now)
      pure (.reused existing.grantId (family.map fun grant ↦ grant.subjectId))

/-- A family bound to a session lives as long as the session, which a rotation touches.
Answers whether the family is alive. -/
def touchSession (sessionId : Option SessionId) (lifespans : SessionLifespans) (now : Time) :
    Tx Bool :=
  match sessionId with
  | none => pure true
  | some sessionId => do
    let session ← query (.sessionLiveById sessionId lifespans now)
    match session with
    | none => pure false
    | some _ => do
      query (.sessionTouch sessionId now)
      pure true

/-- When the successor expires: an exchanged grant's ceiling bounds every rotation. -/
def successorExpiresAt (r : RotationRequest) (grant : TokenGrant) : Time :=
  match grant.expCeiling with
  | none => r.now + r.refreshTokenTtlSeconds
  | some ceiling => min ceiling (r.now + r.refreshTokenTtlSeconds)

/-- The row of the successor. -/
def successor (r : RotationRequest) (grantId : GrantId) (grant : TokenGrant) : RefreshToken where
  grantId
  expiresAt := successorExpiresAt r grant
  usedAt := none
  replacedBy := none

/-- Issues the successor of a consumed token. -/
def issueSuccessor (r : RotationRequest) (grantId : GrantId) (grant : TokenGrant) :
    Tx RotationOutcome := do
  let created ← query (.refreshTokenCreate r.nextHash (successor r grantId grant))
  if created then do
    query (.refreshTokenAttachReplacement r.presentedHash r.nextHash)
    pure (.rotated grantId grant r.nextHash)
  else throw .internal

/-- What becomes of a token that was consumed. -/
def rotateConsumed (r : RotationRequest) (consumed : RefreshToken) : Tx RotationOutcome := do
  let grant ← query (.tokenGrantById consumed.grantId)
  match grant with
  | none => throw .internal
  | some grant =>
    match grant.revokedAt with
    | some _ => pure .revoked
    | none => do
      let alive ← touchSession grant.sessionId r.lifespans r.now
      if alive then issueSuccessor r consumed.grantId grant else pure .revoked

/-- The single entry point for redeeming a refresh token. -/
def rotateRefreshToken (r : RotationRequest) : Tx RotationOutcome := do
  let transactionStart ← query .readClock
  let consumed ← query (.refreshTokenConsume r.presentedHash transactionStart)
  match consumed with
  | none => detectReuse r
  | some consumed => rotateConsumed r consumed

end Odudu.ProtocolOidc
