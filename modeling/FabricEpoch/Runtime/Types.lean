import FabricEpoch.Durable

/-!
# Requests, results and options

What callers hand to the runtime and what they get back. Outcomes are stored in
replay records as raw 16-bit values and cast back without a check; the last
constructor of each outcome stands for a cast value that is not declared.
-/

namespace FabricEpoch

/-! ## Options -/

inductive IncarnationReplacementPolicy where
  | requireExplicitFence
  | replaceIncumbent
deriving DecidableEq, Repr

def IncarnationReplacementPolicy.toText : IncarnationReplacementPolicy → Text
  | requireExplicitFence => str "REQUIRE_EXPLICIT_FENCE"
  | replaceIncumbent => str "REPLACE_INCUMBENT"

structure EpochRuntimeOptions where
  limits : Limits := defaultLimits
  provenance : BoundedText := .blank
  replacementPolicy : IncarnationReplacementPolicy := .requireExplicitFence
  allowMultiIncarnation : Bool := false
  registrableScopeKinds : ScopeKind → Bool := fun _ => true
  fenceOnSessionLoss : Bool := true
  advanceEpochOnOpen : Bool := true
  coordinatorBoot : Option CoordinatorBootId := none

inductive SessionClosureReason where
  | peerDisconnect
  | protocolViolation
  | serverShutdown
  | explicitClose
  | registrationReplaced
deriving DecidableEq, Repr

namespace SessionClosureReason

def toText : SessionClosureReason → Text
  | peerDisconnect => str "PEER_DISCONNECT"
  | protocolViolation => str "PROTOCOL_VIOLATION"
  | serverShutdown => str "SERVER_SHUTDOWN"
  | explicitClose => str "EXPLICIT_CLOSE"
  | registrationReplaced => str "REGISTRATION_REPLACED"

/-- `fence_reason_for`. -/
def fenceReason : SessionClosureReason → FenceReason
  | protocolViolation => .sessionProtocolViolation
  | serverShutdown => .shutdown
  | registrationReplaced => .authorityReplaced
  | explicitClose => .processLoss
  | peerDisconnect => .processLoss

end SessionClosureReason

structure SessionBinding where
  id : SessionId
  participant : ParticipantId
  boot : WorkerBootId
  incarnation : IncarnationSequence
  epoch : CoordinatorEpoch
  registrationGeneration : RegistrationGeneration
deriving DecidableEq

/-! ## Registration -/

structure RegisterParticipantRequest where
  attempt : MutationAttemptId
  expectedEpoch : CoordinatorEpoch
  participant : ParticipantId
  boot : WorkerBootId
  scopes : ScopeSet
  policy : IncarnationPolicy := .singleIncarnation
  expectedRegistrationGeneration : Option RegistrationGeneration := none
  provenance : BoundedText := .blank
deriving DecidableEq

inductive RegistrationOutcome where
  | registered
  | idempotent
  | staleEpoch
  | staleWorkerBoot
  | alreadyActive
  | conflictingIncarnation
  | unauthorizedScope
  | malformedRequest
  | resourceLimit
  | retiredParticipant
  | conflictingAttempt
  | revalidationRequired
  | undeclared (raw : UInt8)
deriving DecidableEq

namespace RegistrationOutcome

def toWire : RegistrationOutcome → Nat
  | registered => 0
  | idempotent => 1
  | staleEpoch => 2
  | staleWorkerBoot => 3
  | alreadyActive => 4
  | conflictingIncarnation => 5
  | unauthorizedScope => 6
  | malformedRequest => 7
  | resourceLimit => 8
  | retiredParticipant => 9
  | conflictingAttempt => 10
  | revalidationRequired => 11
  | undeclared raw => raw.toNat

/-- `static_cast` from the stored value. -/
def ofRaw (raw : UInt16) : RegistrationOutcome :=
  match raw.toNat % 256 with
  | 0 => registered
  | 1 => idempotent
  | 2 => staleEpoch
  | 3 => staleWorkerBoot
  | 4 => alreadyActive
  | 5 => conflictingIncarnation
  | 6 => unauthorizedScope
  | 7 => malformedRequest
  | 8 => resourceLimit
  | 9 => retiredParticipant
  | 10 => conflictingAttempt
  | 11 => revalidationRequired
  | n => undeclared (UInt8.ofNat n)

def toText : RegistrationOutcome → Text
  | registered => str "REGISTERED"
  | idempotent => str "IDEMPOTENT"
  | staleEpoch => str "STALE_EPOCH"
  | staleWorkerBoot => str "STALE_WORKER_BOOT"
  | alreadyActive => str "ALREADY_ACTIVE"
  | conflictingIncarnation => str "CONFLICTING_INCARNATION"
  | unauthorizedScope => str "UNAUTHORIZED_SCOPE"
  | malformedRequest => str "MALFORMED_REQUEST"
  | resourceLimit => str "RESOURCE_LIMIT"
  | retiredParticipant => str "RETIRED_PARTICIPANT"
  | conflictingAttempt => str "CONFLICTING_ATTEMPT"
  | revalidationRequired => str "REVALIDATION_REQUIRED"
  | undeclared _ => str "UNKNOWN"

end RegistrationOutcome

structure RegistrationResult where
  outcome : RegistrationOutcome := .malformedRequest
  epoch : CoordinatorEpoch
  coordinatorBoot : CoordinatorBootId
  registrationGeneration : Option RegistrationGeneration := none
  incarnation : Option IncarnationSequence := none
  replayed : Bool := false
  explanation : Explanation := .ofCode .malformedRequest
deriving DecidableEq

/-! ## Fencing -/

structure FenceWorkerRequest where
  attempt : MutationAttemptId
  expectedEpoch : CoordinatorEpoch
  participant : ParticipantId
  boot : WorkerBootId
  reason : FenceReason := .explicitOperatorFence
  note : BoundedText := .blank
deriving DecidableEq

inductive FenceOutcome where
  | fenced
  | alreadyFenced
  | staleEpoch
  | unknownParticipant
  | malformedRequest
  | conflictingAttempt
  | resourceLimit
  | noFenceRequired
  | undeclared (raw : UInt8)
deriving DecidableEq

namespace FenceOutcome

def toWire : FenceOutcome → Nat
  | fenced => 0
  | alreadyFenced => 1
  | staleEpoch => 2
  | unknownParticipant => 3
  | malformedRequest => 4
  | conflictingAttempt => 5
  | resourceLimit => 6
  | noFenceRequired => 7
  | undeclared raw => raw.toNat

/-- `static_cast` from the stored value. -/
def ofRaw (raw : UInt16) : FenceOutcome :=
  match raw.toNat % 256 with
  | 0 => fenced
  | 1 => alreadyFenced
  | 2 => staleEpoch
  | 3 => unknownParticipant
  | 4 => malformedRequest
  | 5 => conflictingAttempt
  | 6 => resourceLimit
  | 7 => noFenceRequired
  | n => undeclared (UInt8.ofNat n)

def toText : FenceOutcome → Text
  | fenced => str "FENCED"
  | alreadyFenced => str "ALREADY_FENCED"
  | staleEpoch => str "STALE_EPOCH"
  | unknownParticipant => str "UNKNOWN_PARTICIPANT"
  | malformedRequest => str "MALFORMED_REQUEST"
  | conflictingAttempt => str "CONFLICTING_ATTEMPT"
  | resourceLimit => str "RESOURCE_LIMIT"
  | noFenceRequired => str "NO_FENCE_REQUIRED"
  | undeclared _ => str "UNKNOWN"

end FenceOutcome

structure FenceResult where
  outcome : FenceOutcome := .malformedRequest
  epoch : CoordinatorEpoch
  fenceGeneration : Option FencingGeneration := none
  incarnation : Option IncarnationSequence := none
  explanation : Explanation := .ofCode .malformedRequest
deriving DecidableEq

/-! ## Authority -/

inductive AuthorityCurrentness where
  | current
  | revalidationRequired
  | fenced
  | staleEpoch
  | retired
  | unknown
  | revoked
deriving DecidableEq, Repr

namespace AuthorityCurrentness

def toWire : AuthorityCurrentness → Nat
  | current => 0
  | revalidationRequired => 1
  | fenced => 2
  | staleEpoch => 3
  | retired => 4
  | unknown => 5
  | revoked => 6

def toText : AuthorityCurrentness → Text
  | current => str "CURRENT"
  | revalidationRequired => str "REVALIDATION_REQUIRED"
  | fenced => str "FENCED"
  | staleEpoch => str "STALE_EPOCH"
  | retired => str "RETIRED"
  | unknown => str "UNKNOWN"
  | revoked => str "REVOKED"

end AuthorityCurrentness

inductive AuthorityValidationCode where
  | current
  | staleEpoch
  | staleWorkerBoot
  | unknownParticipant
  | unauthorizedScope
  | revalidationRequired
  | malformed
  | retired
  | unknownGrant
  | revoked
deriving DecidableEq, Repr

def AuthorityValidationCode.toWire : AuthorityValidationCode → Nat
  | current => 0
  | staleEpoch => 1
  | staleWorkerBoot => 2
  | unknownParticipant => 3
  | unauthorizedScope => 4
  | revalidationRequired => 5
  | malformed => 6
  | retired => 7
  | unknownGrant => 8
  | revoked => 9

structure AuthorityToken where
  epoch : CoordinatorEpoch
  participant : ParticipantId
  boot : WorkerBootId
  incarnation : IncarnationSequence
  registrationGeneration : RegistrationGeneration
deriving DecidableEq

structure ValidateAuthorityRequest where
  token : AuthorityToken
  scope : AuthorityScope
  expectedGeneration : Option RegistrationGeneration := none
  grant : Option AuthorityGrantId := none
deriving DecidableEq

structure AuthorityValidation where
  code : AuthorityValidationCode := .malformed
  currentness : AuthorityCurrentness := .unknown
  epoch : CoordinatorEpoch
  coordinatorBoot : CoordinatorBootId
  registrationGeneration : Option RegistrationGeneration := none
  incarnation : Option IncarnationSequence := none
  replacedByEpoch : Option CoordinatorEpoch := none
  supersededBy : Option WorkerBootId := none
  explanation : Explanation := .ofCode .malformedRequest
deriving DecidableEq

structure GrantAuthorityRequest where
  attempt : MutationAttemptId
  expectedEpoch : CoordinatorEpoch
  participant : ParticipantId
  boot : WorkerBootId
  incarnation : IncarnationSequence
  scopes : ScopeSet
  parent : Option AuthorityGrantId := none
  provenance : BoundedText := .blank
deriving DecidableEq

inductive GrantOutcome where
  | granted
  | staleEpoch
  | staleWorkerBoot
  | unknownParticipant
  | unauthorizedScope
  | delegationRejected
  | malformedRequest
  | resourceLimit
  | conflictingAttempt
  | undeclared (raw : UInt8)
deriving DecidableEq

namespace GrantOutcome

def toWire : GrantOutcome → Nat
  | granted => 0
  | staleEpoch => 1
  | staleWorkerBoot => 2
  | unknownParticipant => 3
  | unauthorizedScope => 4
  | delegationRejected => 5
  | malformedRequest => 6
  | resourceLimit => 7
  | conflictingAttempt => 8
  | undeclared raw => raw.toNat

/-- `static_cast` from the stored value. -/
def ofRaw (raw : UInt16) : GrantOutcome :=
  match raw.toNat % 256 with
  | 0 => granted
  | 1 => staleEpoch
  | 2 => staleWorkerBoot
  | 3 => unknownParticipant
  | 4 => unauthorizedScope
  | 5 => delegationRejected
  | 6 => malformedRequest
  | 7 => resourceLimit
  | 8 => conflictingAttempt
  | n => undeclared (UInt8.ofNat n)

end GrantOutcome

structure GrantResult where
  outcome : GrantOutcome := .malformedRequest
  epoch : CoordinatorEpoch
  grant : Option AuthorityGrantId := none
  generation : Option GrantGeneration := none
  replayed : Bool := false
  explanation : Explanation := .ofCode .malformedRequest
deriving DecidableEq

structure RevokeAuthorityRequest where
  attempt : MutationAttemptId
  expectedEpoch : CoordinatorEpoch
  grant : AuthorityGrantId
  reason : FenceReason := .administrativeRevoke
  note : BoundedText := .blank
deriving DecidableEq

inductive RevokeOutcome where
  | revoked
  | alreadyRevoked
  | staleEpoch
  | unknownGrant
  | malformedRequest
  | conflictingAttempt
  | undeclared (raw : UInt8)
deriving DecidableEq

namespace RevokeOutcome

def toWire : RevokeOutcome → Nat
  | revoked => 0
  | alreadyRevoked => 1
  | staleEpoch => 2
  | unknownGrant => 3
  | malformedRequest => 4
  | conflictingAttempt => 5
  | undeclared raw => raw.toNat

/-- `static_cast` from the stored value. -/
def ofRaw (raw : UInt16) : RevokeOutcome :=
  match raw.toNat % 256 with
  | 0 => revoked
  | 1 => alreadyRevoked
  | 2 => staleEpoch
  | 3 => unknownGrant
  | 4 => malformedRequest
  | 5 => conflictingAttempt
  | n => undeclared (UInt8.ofNat n)

end RevokeOutcome

structure RevokeResult where
  outcome : RevokeOutcome := .malformedRequest
  epoch : CoordinatorEpoch
  generation : Option GrantGeneration := none
  derivedGrantsRevoked : Nat := 0
  explanation : Explanation := .ofCode .malformedRequest
deriving DecidableEq

/-! ## Retirement and epoch advancement -/

structure RetireParticipantRequest where
  attempt : MutationAttemptId
  expectedEpoch : CoordinatorEpoch
  participant : ParticipantId
  note : BoundedText := .blank
deriving DecidableEq

inductive RetireOutcome where
  | retired
  | alreadyRetired
  | staleEpoch
  | unknownParticipant
  | malformedRequest
  | conflictingAttempt
  | undeclared (raw : UInt8)
deriving DecidableEq

namespace RetireOutcome

def toWire : RetireOutcome → Nat
  | retired => 0
  | alreadyRetired => 1
  | staleEpoch => 2
  | unknownParticipant => 3
  | malformedRequest => 4
  | conflictingAttempt => 5
  | undeclared raw => raw.toNat

/-- `static_cast` from the stored value. -/
def ofRaw (raw : UInt16) : RetireOutcome :=
  match raw.toNat % 256 with
  | 0 => retired
  | 1 => alreadyRetired
  | 2 => staleEpoch
  | 3 => unknownParticipant
  | 4 => malformedRequest
  | 5 => conflictingAttempt
  | n => undeclared (UInt8.ofNat n)

def toText : RetireOutcome → Text
  | retired => str "RETIRED"
  | alreadyRetired => str "ALREADY_RETIRED"
  | staleEpoch => str "STALE_EPOCH"
  | unknownParticipant => str "UNKNOWN_PARTICIPANT"
  | malformedRequest => str "MALFORMED_REQUEST"
  | conflictingAttempt => str "CONFLICTING_ATTEMPT"
  | undeclared _ => str "UNKNOWN"

end RetireOutcome

structure RetireResult where
  outcome : RetireOutcome := .malformedRequest
  epoch : CoordinatorEpoch
  incarnationsFenced : Nat := 0
  explanation : Explanation := .ofCode .malformedRequest
deriving DecidableEq

structure EpochAdvanceRequest where
  attempt : MutationAttemptId
  expectedEpoch : CoordinatorEpoch
  cause : EpochTransitionCause := .explicitOperatorAdvance
  provenance : BoundedText := .blank
deriving DecidableEq

inductive EpochAdvanceOutcome where
  | advanced
  | staleExpectedEpoch
  | epochExhausted
  | malformedRequest
  | conflictingAttempt
  | undeclared (raw : UInt8)
deriving DecidableEq

namespace EpochAdvanceOutcome

def toWire : EpochAdvanceOutcome → Nat
  | advanced => 0
  | staleExpectedEpoch => 1
  | epochExhausted => 2
  | malformedRequest => 3
  | conflictingAttempt => 4
  | undeclared raw => raw.toNat

/-- `static_cast` from the stored value. -/
def ofRaw (raw : UInt16) : EpochAdvanceOutcome :=
  match raw.toNat % 256 with
  | 0 => advanced
  | 1 => staleExpectedEpoch
  | 2 => epochExhausted
  | 3 => malformedRequest
  | 4 => conflictingAttempt
  | n => undeclared (UInt8.ofNat n)

end EpochAdvanceOutcome

structure EpochAdvanceResult where
  outcome : EpochAdvanceOutcome := .malformedRequest
  epoch : CoordinatorEpoch
  coordinatorBoot : CoordinatorBootId
  transition : Option EpochTransitionId := none
  replayed : Bool := false
  explanation : Explanation := .ofCode .malformedRequest
deriving DecidableEq

end FabricEpoch
