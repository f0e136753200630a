import FabricEpoch.Runtime.Registration

/-!
# Grants and revocation

`applyGrant` issues a grant to a live incarnation, possibly delegated from a
parent grant. `applyRevoke` revokes a grant and, over the children index, every
grant derived from it; the traversal is a stack of pending identifiers
(`revokeLoop`), its undo another one (`restoreLoop`).

The traversals take fuel. The revocation always ends: no grant but the root is
expanded twice, and the root is met again once at most. Its undo ends unless the
root lies on a cycle of the parent relation, where the loop of the source goes on.
-/

namespace FabricEpoch

open Table Transaction

/-- What the operating system's generator hands out: an identifier, or the
exception of a failing generator. -/
abbrev Entropy := Except EpochError (Block 16)

namespace Impl

/-! ## Issuing a grant -/

def grantResult (impl : Impl) (outcome : GrantOutcome) (explanation : Explanation) :
    GrantResult where
  outcome := outcome
  epoch := impl.state.currentEpoch
  explanation := explanation

/-- The checks of the request alone, and of the epoch. -/
def malformedGrant (impl : Impl) (request : GrantAuthorityRequest) : Option GrantResult :=
  let malformed (reason : String) :=
    some (impl.grantResult .malformedRequest
      ((Explanation.ofCode .malformedRequest).withDetail "reason" (str reason)))
  if request.attempt.isNil || request.participant.empty || request.boot.isNil ||
      request.incarnation.isZero then
    malformed "grant request is structurally invalid"
  else if request.scopes.empty then malformed "grant binds no authority scope"
  else if request.scopes.size > impl.options.limits.maxScopesPerGrant then
    some (impl.grantResult .resourceLimit
      ((Explanation.ofCode .resourceLimitReached).withDetail "limit" (str "max_scopes_per_grant")))
  else if request.expectedEpoch ≠ impl.state.currentEpoch then
    some (impl.grantResult .staleEpoch ((Explanation.ofCode .epochStale)
      |>.withDetail "request_epoch" request.expectedEpoch.toText
      |>.withDetail "current_epoch" impl.state.currentEpoch.toText))
  else none

/-- The checks of the grantee: a current incarnation whose scopes cover the
requested ones. -/
def refusedGrantee (impl : Impl) (participant : DurableParticipant)
    (request : GrantAuthorityRequest) : Option GrantResult :=
  let evaluation := impl.evaluateIncarnation participant request.boot request.incarnation
  if evaluation.code ≠ .current then
    some (impl.grantResult .staleWorkerBoot ((Explanation.ofCode .workerBootFenced)
      |>.withDetail "boot" request.boot.toText
      |>.withDetail "currentness" evaluation.currentness.toText))
  else if !participant.scopes.containsAll request.scopes then
    some (impl.grantResult .unauthorizedScope ((Explanation.ofCode .scopeMissing)
      |>.withDetail "requested" request.scopes.toText
      |>.withDetail "granted" participant.scopes.toText))
  else none

/-- The answer of the replay table. -/
def replayedGrant (impl : Impl) (request : GrantAuthorityRequest) (digest : SnapshotDigest)
    (previous : IdempotencyRecord) : GrantResult :=
  if previous.semantic ≠ digest then
    impl.grantResult .conflictingAttempt
      ((Explanation.ofCode .attemptConflict).withDetail "attempt" request.attempt.toText)
  else
    let grant : AuthorityGrantId := ⟨previous.auxiliaryId⟩
    { impl.grantResult (GrantOutcome.ofRaw previous.outcome)
        ((Explanation.ofCode .registrationIdempotentReplay)
          |>.withDetail "attempt" request.attempt.toText
          |>.withDetail "grant" grant.toText) with
      grant := some grant
      generation := some (MonotonicCounter.ofRaw previous.auxiliary)
      replayed := true }

/-- The checks of the parent of a delegated grant: live, of the current epoch,
held by a current incarnation, and at least as wide. -/
def refusedParent (impl : Impl) (request : GrantAuthorityRequest) (id : AuthorityGrantId) :
    Option GrantResult :=
  let rejected (explanation : Explanation) :=
    some (impl.grantResult .delegationRejected explanation)
  match impl.findGrant id with
  | none =>
    rejected ((Explanation.ofCode .delegationRejected)
      |>.withDetail "reason" (str "parent grant does not exist")
      |>.withDetail "parent" id.toText)
  | some parent =>
    if parent.revoked = true ∨ parent.epoch ≠ impl.state.currentEpoch then
      rejected ((Explanation.ofCode .delegationRejected)
        |>.withDetail "reason" (if parent.revoked then str "parent grant is revoked"
          else str "parent grant is bound to a stale epoch")
        |>.withDetail "parent" parent.id.toText)
    else
      match impl.findParticipant parent.participant with
      | none =>
        rejected ((Explanation.ofCode .delegationRejected)
          |>.withDetail "reason" (str "delegating participant no longer exists"))
      | some delegator =>
        if (impl.evaluateIncarnation delegator parent.boot parent.incarnation).code ≠ .current then
          rejected ((Explanation.ofCode .delegationRejected)
            |>.withDetail "reason" (str "delegating incarnation is not current")
            |>.withDetail "delegator" parent.participant.text)
        else if !parent.scopes.containsAll request.scopes then
          rejected ((Explanation.ofCode .delegationRejected)
            |>.withDetail "reason" (str "delegated scope exceeds parent scope")
            |>.withDetail "parent_scopes" parent.scopes.toText
            |>.withDetail "requested" request.scopes.toText)
        else none

/-- The parent and the capacity of the grant table. -/
def refusedDelegation (impl : Impl) (request : GrantAuthorityRequest) : Option GrantResult :=
  match request.parent.bind (impl.refusedParent request) with
  | some result => some result
  | none =>
    if impl.state.grants.length ≥ impl.options.limits.maxAuthorityGrants then
      some (impl.grantResult .resourceLimit
        ((Explanation.ofCode .resourceLimitReached).withDetail "limit"
          (str "max_authority_grants")))
    else none

/-- The grant that is pushed; its generation is set after the bump. -/
def newGrant (impl : Impl) (request : GrantAuthorityRequest) (id : AuthorityGrantId) :
    AuthorityGrant where
  id := id
  epoch := impl.state.currentEpoch
  participant := request.participant
  boot := request.boot
  incarnation := request.incarnation
  scopes := request.scopes
  parent := request.parent
  delegatorBoot := (request.parent.bind impl.findGrant).map (·.boot)
  provenance := request.provenance

/-- `grants.push_back`, with the two indexes. -/
def pushGrant (grant : AuthorityGrant) (impl : Impl) : Impl :=
  let index := impl.state.grants.length
  { impl.mapState fun s => { s with grants := s.grants ++ [grant] } with
    grantIndex := fun id => if id = grant.id then some index else impl.grantIndex id
    grantChildren := fun id =>
      if grant.parent = some id then impl.grantChildren id ++ [index] else impl.grantChildren id }

def popGrant (impl : Impl) : Impl :=
  impl.mapState fun s => { s with grants := s.grants.dropLast }

def setGrantGeneration (generation : GrantGeneration) (index : Nat) (impl : Impl) : Impl :=
  impl.mapState fun s => { s with grants := s.grants.modify index fun g => { g with generation } }

end Impl

/-- A grant generation is the state generation it was committed with. -/
def GrantGeneration.ofState (generation : EpochGeneration) : GrantGeneration :=
  ⟨generation.value, generation.le_max⟩

def GrantAuthorityRequest.record (request : GrantAuthorityRequest) (digest : SnapshotDigest)
    (generation : GrantGeneration) (grant : AuthorityGrantId) : IdempotencyRecord where
  attempt := request.attempt
  operation := .grantAuthority
  semantic := digest
  outcome := UInt16.ofNat GrantOutcome.granted.toWire
  auxiliary := generation.raw
  auxiliaryId := grant.bytes

/-- The part of a grant that mutates. -/
def commitGrant (entropy : Entropy) (request : GrantAuthorityRequest) (digest : SnapshotDigest) :
    Op GrantResult := do
  let impl ← Action.current
  let bytes ← Action.ofExcept entropy
  let grant := impl.newGrant request ⟨bytes⟩
  Action.modify (Impl.pushGrant grant)
  Action.pushUndo Impl.popGrant
  bumpGeneration
  let bumped ← Action.current
  let generation := GrantGeneration.ofState bumped.state.generation
  Action.modify (Impl.setGrantGeneration generation impl.state.grants.length)
  -- the replay record is not covered by an undo action
  Action.modify (Impl.updateParticipant request.participant
    (·.remember impl.options.limits (request.record digest generation grant.id)))
  Action.markMutated
  return { impl.grantResult .granted ((Explanation.ofCode .registrationAccepted)
      |>.withDetail "grant" grant.id.toText
      |>.withDetail "participant" request.participant.text
      |>.withDetail "epoch" impl.state.currentEpoch.toText
      |>.withDetail "scopes" request.scopes.toText) with
    grant := some grant.id
    generation := some generation }

/-- `apply_grant`. -/
def applyGrant (entropy : Entropy) (request : GrantAuthorityRequest) : Op GrantResult := do
  let impl ← Action.current
  match impl.malformedGrant request, impl.findParticipant request.participant with
  | some result, _ => return result
  | none, none =>
    return impl.grantResult .unknownParticipant
      ((Explanation.ofCode .participantUnknown).withDetail "participant" request.participant.text)
  | none, some participant =>
    match impl.refusedGrantee participant request with
    | some result => return result
    | none =>
      let digest ← Action.ofExcept (computeSemanticDigest request.semantic)
      match findAttempt participant.idempotency request.attempt, impl.refusedDelegation request with
      | some previous, _ => return impl.replayedGrant request digest previous
      | none, some result => return result
      | none, none => commitGrant entropy request digest

/-! ## Revoking a grant -/

/-- The revocation of one grant. -/
def AuthorityGrant.revoke (epoch : CoordinatorEpoch) (g : AuthorityGrant) : AuthorityGrant :=
  { g with revoked := true, revokedAtEpoch := epoch }

namespace Impl

/-- The identifiers of the children of a grant, in the order they were indexed. -/
def childGrants (impl : Impl) (id : AuthorityGrantId) : List AuthorityGrantId :=
  (impl.grantChildren id).filterMap fun i => (impl.state.grants[i]?).map (·.id)

/-- The loop over the pending identifiers; the last one pushed is taken first. -/
def revokeLoop (root : AuthorityGrantId) :
    Nat → List AuthorityGrantId → Nat → Impl → Impl × Nat
  | 0, _, revoked, impl => (impl, revoked)
  | _, [], revoked, impl => (impl, revoked)
  | fuel + 1, current :: pending, revoked, impl =>
    match impl.findGrant current with
    | none => revokeLoop root fuel pending revoked impl
    | some target =>
      if target.revoked = true ∧ current ≠ root then
        revokeLoop root fuel pending revoked impl
      else if target.revoked then
        revokeLoop root fuel ((impl.childGrants current).reverse ++ pending) revoked impl
      else
        revokeLoop root fuel ((impl.childGrants current).reverse ++ pending) (revoked + 1)
          (impl.updateGrant current (·.revoke impl.state.currentEpoch))

def revokeFrom (root : AuthorityGrantId) (impl : Impl) : Impl × Nat :=
  revokeLoop root (2 * impl.state.grants.length + 2) [root] 0 impl

/-- The loop of `restore_revocations`. -/
def restoreLoop : Nat → List AuthorityGrantId → Impl → Impl
  | 0, _, impl => impl
  | _, [], impl => impl
  | fuel + 1, current :: pending, impl =>
    match impl.findGrant current with
    | none => restoreLoop fuel pending impl
    | some _ =>
      restoreLoop fuel ((impl.childGrants current).reverse ++ pending)
        (impl.updateGrant current fun g => { g with revoked := false, revokedAtEpoch := .zero })

/-- What the revocation of a grant preserves, the traversal preserves. -/
theorem revokeLoop_keeps {P : Impl → Prop}
    (h : ∀ s id, P s → P (s.updateGrant id (·.revoke s.state.currentEpoch)))
    (root : AuthorityGrantId) (fuel : Nat) (pending : List AuthorityGrantId) (n : Nat) {impl : Impl}
    (hP : P impl) : P (revokeLoop root fuel pending n impl).1 := by
  induction fuel generalizing pending n impl with
  | zero => exact hP
  | succ fuel ih =>
    cases pending with
    | nil => exact hP
    | cons current pending =>
      rw [revokeLoop]
      split
      · exact ih _ _ hP
      · split
        · exact ih _ _ hP
        · split
          · exact ih _ _ hP
          · exact ih _ _ (h impl current hP)

/-- What lifting a revocation preserves, the traversal back preserves. -/
theorem restoreLoop_keeps {P : Impl → Prop}
    (h : ∀ s id, P s →
      P (s.updateGrant id fun g => { g with revoked := false, revokedAtEpoch := .zero }))
    (fuel : Nat) (pending : List AuthorityGrantId) {impl : Impl} (hP : P impl) :
    P (restoreLoop fuel pending impl) := by
  induction fuel generalizing pending impl with
  | zero => exact hP
  | succ fuel ih =>
    cases pending with
    | nil => exact hP
    | cons current pending =>
      rw [restoreLoop]
      split
      · exact ih _ hP
      · exact ih _ (h impl current hP)

def restoreRevocations (root : AuthorityGrantId) (impl : Impl) : Impl :=
  restoreLoop (2 * impl.state.grants.length + 2) [root] impl

/-- The default-constructed replay record. -/
def blankAttempt : IdempotencyRecord where
  attempt := .nil
  operation := .registerParticipant
  semantic := Block.zero 32

def resizeControlAttempts (n : Nat) (impl : Impl) : Impl :=
  impl.mapState fun s => { s with controlAttempts := resize blankAttempt n s.controlAttempts }

/-- `remember_attempt` on the control table. -/
def rememberControl (record : IdempotencyRecord) (impl : Impl) : Impl :=
  impl.mapState fun s =>
    { s with controlAttempts := rememberAttempt impl.options.limits record s.controlAttempts }

def undoRevoke (before : Impl) (grant : AuthorityGrant) (impl : Impl) : Impl :=
  (restoreRevocations grant.id
    (impl.resizeControlAttempts before.state.controlAttempts.length)).updateGrant grant.id
    fun g => { g with generation := grant.generation, revokedAtEpoch := grant.revokedAtEpoch }

/-- The traversals write grants and control attempts, and nothing else. -/
theorem revokeFrom_keeps {P : Impl → Prop} (h : ∀ s id f, P s → P (updateGrant id f s))
    (root : AuthorityGrantId) {impl : Impl} (hP : P impl) : P (impl.revokeFrom root).1 :=
  revokeLoop_keeps (fun s id hs => h s id _ hs) root _ _ _ hP

theorem undoRevoke_keeps {P : Impl → Prop} (h : ∀ s id f, P s → P (updateGrant id f s))
    (hresize : ∀ s n, P s → P (resizeControlAttempts n s)) (before : Impl) (grant : AuthorityGrant)
    {impl : Impl} (hP : P impl) : P (before.undoRevoke grant impl) :=
  h _ _ _ (restoreLoop_keeps (fun s id hs => h s id _ hs) _ _ (hresize impl _ hP))

def revokeResult (impl : Impl) (outcome : RevokeOutcome) (explanation : Explanation) :
    RevokeResult where
  outcome := outcome
  epoch := impl.state.currentEpoch
  explanation := explanation

/-- The answer of the replay table. -/
def replayedRevoke (impl : Impl) (request : RevokeAuthorityRequest) (digest : SnapshotDigest)
    (previous : IdempotencyRecord) : RevokeResult :=
  if previous.semantic ≠ digest then
    impl.revokeResult .conflictingAttempt
      ((Explanation.ofCode .attemptConflict).withDetail "attempt" request.attempt.toText)
  else
    { impl.revokeResult (RevokeOutcome.ofRaw previous.outcome)
        ((Explanation.ofCode .registrationIdempotentReplay)
          |>.withDetail "attempt" request.attempt.toText
          |>.withDetail "grant" request.grant.toText) with
      generation := some (MonotonicCounter.ofRaw previous.auxiliary)
      derivedGrantsRevoked := previous.auxiliaryHigh.toNat }

/-- The checks before the replay table. -/
def malformedRevoke (impl : Impl) (request : RevokeAuthorityRequest) : Option RevokeResult :=
  if request.attempt.isNil || request.grant.isNil then
    some (impl.revokeResult .malformedRequest ((Explanation.ofCode .malformedRequest).withDetail
      "reason" (str "revocation request is structurally invalid")))
  else if request.expectedEpoch ≠ impl.state.currentEpoch then
    some (impl.revokeResult .staleEpoch ((Explanation.ofCode .epochStale)
      |>.withDetail "request_epoch" request.expectedEpoch.toText
      |>.withDetail "current_epoch" impl.state.currentEpoch.toText))
  else none

end Impl

def RevokeAuthorityRequest.record (request : RevokeAuthorityRequest) (digest : SnapshotDigest)
    (generation : GrantGeneration) (derived : Nat) : IdempotencyRecord where
  attempt := request.attempt
  operation := .revokeAuthority
  semantic := digest
  outcome := UInt16.ofNat RevokeOutcome.revoked.toWire
  auxiliary := generation.raw
  auxiliaryHigh := UInt64.ofNat derived

/-- The part of a revocation that mutates. -/
def commitRevoke (request : RevokeAuthorityRequest) (digest : SnapshotDigest)
    (grant : AuthorityGrant) : Op RevokeResult := do
  let impl ← Action.current
  Action.pushUndo (impl.undoRevoke grant)
  let derived := (impl.revokeFrom grant.id).2 - 1
  Action.modify fun impl => (impl.revokeFrom grant.id).1
  bumpGeneration
  let bumped ← Action.current
  let generation := GrantGeneration.ofState bumped.state.generation
  Action.modify (Impl.updateGrant request.grant fun g => { g with generation })
  Action.modify (Impl.rememberControl (request.record digest generation derived))
  Action.markMutated
  return { impl.revokeResult .revoked ((Explanation.ofCode .grantRevoked)
      |>.withDetail "grant" request.grant.toText
      |>.withDetail "reason" request.reason.toText
      |>.withDetail "derived_grants_revoked" (natText derived)) with
    generation := some generation
    derivedGrantsRevoked := derived }

/-- `apply_revoke`. -/
def applyRevoke (request : RevokeAuthorityRequest) : Op RevokeResult := do
  let impl ← Action.current
  match impl.malformedRevoke request with
  | some result => return result
  | none =>
    let digest ← Action.ofExcept (computeSemanticDigest request.semantic)
    match findAttempt impl.state.controlAttempts request.attempt, impl.findGrant request.grant with
    | some previous, _ => return impl.replayedRevoke request digest previous
    | none, none =>
      return impl.revokeResult .unknownGrant ((Explanation.ofCode .grantSuperseded)
        |>.withDetail "reason" (str "grant does not exist")
        |>.withDetail "grant" request.grant.toText)
    | none, some grant =>
      if grant.revoked then
        return { impl.revokeResult .alreadyRevoked ((Explanation.ofCode .grantRevoked)
            |>.withDetail "grant" grant.id.toText
            |>.withDetail "revoked_at_epoch" grant.revokedAtEpoch.toText) with
          generation := some grant.generation }
      else commitRevoke request digest grant

end FabricEpoch
