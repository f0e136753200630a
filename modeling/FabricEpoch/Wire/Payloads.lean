import FabricEpoch.Runtime.Views
import FabricEpoch.Wire.Frame

/-!
# Payloads

The payload of each message, as a writer and a reader that the source writes by
hand, field by field. A decoder reads the whole payload (`decodeAll`).

Optional fields are a presence flag and a slot of fixed size. The decoder of a
registration request insists on a zero slot where the flag is clear; the others
ignore what the slot holds.
-/

namespace FabricEpoch

open ByteCodec

namespace Wire

def kMaxVersionTextLength : Nat := 64
def kMaxRoleTextLength : Nat := 32

/-! ## Fields -/

def encodeParticipant (participant : ParticipantId) : Writer := ByteWriter.string participant.text

def decodeParticipant (limits : Limits) : Reader ParticipantId :=
  decodeVia (ByteReader.string limits ParticipantId.maxLength) ParticipantId.parse
    (malformed "malformed participant identifier on the wire")

def encodeText (text : BoundedText) (limits : Limits) : Writer :=
  if BoundedText.isValid text.text limits.maxStringSize then ByteWriter.string text.text
  else Emit.fail (malformed "bounded text exceeds limits.max_string_size")

def decodeText (limits : Limits) : Reader BoundedText :=
  decodeVia (ByteReader.string limits limits.maxStringSize)
    (fun text => if BoundedText.isValid text limits.maxStringSize then some ⟨text⟩ else none)
    (malformed "malformed bounded text on the wire")

def decodeScope (limits : Limits) : Reader AuthorityScope := do
  let kind ← decodeVia ByteReader.u8 ScopeKind.fromWire
    (malformed "unknown scope kind on the wire")
  decodeVia (ByteReader.string limits AuthorityScope.maxSubjectLength)
    (AuthorityScope.parse kind) (malformed "malformed authority scope subject on the wire")

def encodeFlag (flag : Bool) : Writer := ByteWriter.u8 (if flag then 1 else 0)

/-- The slot of an optional counter; zero when there is none. -/
def encodeOptionalCounter {d : CounterDomain} (c : Option (MonotonicCounter d)) : Writer :=
  ByteWriter.u64 (match c with
    | some c => c.raw
    | none => 0)

/-- A presence flag and a 64-bit slot. -/
def decodeOptionalCounter (d : CounterDomain) (invalidFlag : EpochError) :
    Reader (Option (MonotonicCounter d)) := do
  let has ← ByteReader.u8
  let value ← ByteReader.u64
  if has = 1 then return some (.ofRaw value)
  else do
    require invalidFlag (has = 0)
    return none

/-- A presence flag and a slot of sixteen bytes. -/
def decodeOptionalId (d : IdDomain) (invalidFlag : EpochError) :
    Reader (Option (Fixed128Id d)) := do
  let has ← ByteReader.u8
  let bytes ← ByteReader.fixed 16
  if has = 1 then return some ⟨bytes⟩
  else do
    require invalidFlag (has = 0)
    return none

/-- A flag that is either zero or one. -/
def decodeFlag (invalidFlag : EpochError) : Reader Bool := do
  let flag ← ByteReader.u8
  require invalidFlag (flag ≤ 1)
  return flag == 1

/-- `static_cast<std::uint64_t>` of a `std::size_t`. -/
def encodeSize (n : Nat) : Writer := ByteWriter.u64 (UInt64.ofNat n)

def decodeSize : Reader Nat := do
  let n ← ByteReader.u64
  return n.toNat

/-- A count with a ceiling and that many elements. -/
def decodeCounted {α : Type} (tooMany : EpochError) (ceiling : Nat) (dec : Reader α) :
    Reader (List α) := do
  let count ← ByteReader.u32
  require tooMany (count ≤ ceiling)
  decodeMany dec count

/-- An outcome of at most `last`, cast from its byte. -/
def decodeOutcome {α : Type} (cast : UInt16 → α) (last : Nat) (unknown : EpochError) : Reader α :=
  decodeVia ByteReader.u8 (fun n => if n ≤ last then some (cast (UInt16.ofNat n)) else none) unknown

def encodeToken (token : AuthorityToken) : Writer := Emit.concat [
  ByteWriter.counter token.epoch,
  encodeParticipant token.participant,
  ByteWriter.fixed token.boot.bytes,
  ByteWriter.counter token.incarnation,
  ByteWriter.counter token.registrationGeneration]

def decodeToken (limits : Limits) : Reader AuthorityToken := do
  let epoch ← ByteReader.counter .coordinatorEpoch
  let participant ← decodeParticipant limits
  let boot ← ByteReader.id .workerBoot
  let incarnation ← ByteReader.counter .incarnationSequence
  let registrationGeneration ← ByteReader.counter .registrationGeneration
  return { epoch, participant, boot, incarnation, registrationGeneration }

/-! ## Explanations -/

/-- The declared value of a code. -/
def explanationCodeToWire : ExplanationCode → UInt16
  | .authorityCurrent => 1
  | .registrationAccepted => 2
  | .registrationIdempotentReplay => 3
  | .epochStale => 4
  | .workerBootFenced => 5
  | .workerBootSuperseded => 6
  | .participantUnknown => 7
  | .participantRetired => 8
  | .scopeMissing => 9
  | .revalidationRequired => 10
  | .malformedRequest => 11
  | .resourceLimitReached => 12
  | .incarnationConflict => 13
  | .attemptConflict => 14
  | .grantRevoked => 15
  | .grantSuperseded => 16
  | .epochAdvanced => 17
  | .fenceRecorded => 18
  | .fenceIdempotent => 19
  | .sessionClosed => 20
  | .delegationRejected => 21
  | .generationMismatch => 22

def explanationCodeFromWire (value : UInt16) : Option ExplanationCode :=
  match value.toNat with
  | 1 => some .authorityCurrent
  | 2 => some .registrationAccepted
  | 3 => some .registrationIdempotentReplay
  | 4 => some .epochStale
  | 5 => some .workerBootFenced
  | 6 => some .workerBootSuperseded
  | 7 => some .participantUnknown
  | 8 => some .participantRetired
  | 9 => some .scopeMissing
  | 10 => some .revalidationRequired
  | 11 => some .malformedRequest
  | 12 => some .resourceLimitReached
  | 13 => some .incarnationConflict
  | 14 => some .attemptConflict
  | 15 => some .grantRevoked
  | 16 => some .grantSuperseded
  | 17 => some .epochAdvanced
  | 18 => some .fenceRecorded
  | 19 => some .fenceIdempotent
  | 20 => some .sessionClosed
  | 21 => some .delegationRejected
  | 22 => some .generationMismatch
  | _ => none

/-- `Explanation::with` of two texts. -/
def addDetail (e : Explanation) (detail : Text × Text) : Explanation :=
  ⟨e.code, (e.details ++ [detail]).insertionSort fun a b => a.1 ≤ b.1⟩

/-- One detail of the loop of `encode_explanation_payload`. -/
def encodeDetail (limits : Limits) (detail : Text × Text) : Writer :=
  if detail.1.length > limits.maxStringSize ∨ detail.2.length > limits.maxStringSize then
    Emit.fail (malformed "explanation detail exceeds limits.max_string_size")
  else ByteWriter.string detail.1 ++ ByteWriter.string detail.2

def decodeDetail (limits : Limits) : Reader (Text × Text) := do
  let key ← ByteReader.string limits limits.maxStringSize
  let value ← ByteReader.string limits limits.maxStringSize
  return (key, value)

def encodeExplanationPayload (explanation : Explanation) (limits : Limits) : Writer := Emit.concat [
  ByteWriter.u16 (explanationCodeToWire explanation.code),
  emitList (encodeDetail limits) explanation.details]

def decodeExplanationPayload (limits : Limits) : Reader Explanation := do
  let code ← decodeVia ByteReader.u16 explanationCodeFromWire
    (malformed "unknown explanation code on the wire")
  let details ← decodeCounted
    (resourceLimit "explanation detail count exceeds the protocol bound") 64 (decodeDetail limits)
  return details.foldl addDetail (.ofCode code)

/-! ## Hello -/

structure HelloPayload where
  productVersion : Text
  role : Text
  wireVersion : UInt16
deriving DecidableEq

structure HelloAckPayload where
  epoch : CoordinatorEpoch
  coordinatorBoot : CoordinatorBootId
  session : SessionId
  productVersion : Text
deriving DecidableEq

def encodeHello (productVersion role : Text) : Writer := Emit.concat [
  ByteWriter.u16 wireProtocolVersion,
  ByteWriter.string productVersion,
  ByteWriter.string role]

def readHello (limits : Limits) : Reader HelloPayload := do
  let wireVersion ← ByteReader.u16
  require ⟨.unsupportedVersion, "hello protocol version is not supported"⟩
    (wireVersion = wireProtocolVersion)
  let productVersion ← ByteReader.string limits kMaxVersionTextLength
  let role ← ByteReader.string limits kMaxRoleTextLength
  return { productVersion, role, wireVersion }

def encodeHelloAck (ack : HelloAckPayload) : Writer := Emit.concat [
  ByteWriter.counter ack.epoch,
  ByteWriter.fixed ack.coordinatorBoot.bytes,
  ByteWriter.fixed ack.session.bytes,
  ByteWriter.string ack.productVersion]

def readHelloAck (limits : Limits) : Reader HelloAckPayload := do
  let epoch ← ByteReader.counter .coordinatorEpoch
  let coordinatorBoot ← ByteReader.id .coordinatorBoot
  let session ← ByteReader.id .session
  let productVersion ← ByteReader.string limits kMaxVersionTextLength
  return { epoch, coordinatorBoot, session, productVersion }

/-! ## Registration -/

structure RegisterWireRequest where
  request : RegisterParticipantRequest
  session : SessionId
deriving DecidableEq

def encodeRegisterRequest (wire : RegisterWireRequest) (limits : Limits) : Writer := Emit.concat [
  ByteWriter.fixed wire.request.attempt.bytes,
  ByteWriter.counter wire.request.expectedEpoch,
  encodeParticipant wire.request.participant,
  ByteWriter.fixed wire.request.boot.bytes,
  encodeScopeSetCanonical wire.request.scopes,
  ByteWriter.u8 wire.request.policy.toWire,
  encodeFlag wire.request.expectedRegistrationGeneration.isSome,
  encodeOptionalCounter wire.request.expectedRegistrationGeneration,
  encodeText wire.request.provenance limits,
  ByteWriter.fixed wire.session.bytes]

def readRegisterRequest (limits : Limits) : Reader RegisterWireRequest := do
  let attempt ← ByteReader.id .mutationAttempt
  let expectedEpoch ← ByteReader.counter .coordinatorEpoch
  let participant ← decodeParticipant limits
  let boot ← ByteReader.id .workerBoot
  let scopes ← decodeScopeSetCanonical limits
  let policy ← decodeVia ByteReader.u8 IncarnationPolicy.fromWire
    (malformed "unknown incarnation policy on the wire")
  let hasGeneration ← ByteReader.u8
  require (malformed "register request carries an invalid generation presence flag")
    (hasGeneration ≤ 1)
  let generation ← ByteReader.u64
  require (malformed "register request carries a generation value without its presence flag")
    (hasGeneration = 1 ∨ generation = 0)
  let provenance ← decodeText limits
  let session ← ByteReader.id .session
  return {
    request := {
      attempt, expectedEpoch, participant, boot, scopes, policy, provenance
      expectedRegistrationGeneration :=
        if hasGeneration = 1 then some (.ofRaw generation) else none }
    session }

def encodeRegisterResult (result : RegistrationResult) (limits : Limits) : Writer := Emit.concat [
  ByteWriter.u8 result.outcome.toWire,
  ByteWriter.counter result.epoch,
  ByteWriter.fixed result.coordinatorBoot.bytes,
  encodeFlag result.registrationGeneration.isSome,
  encodeOptionalCounter result.registrationGeneration,
  encodeFlag result.incarnation.isSome,
  encodeOptionalCounter result.incarnation,
  encodeFlag result.replayed,
  encodeExplanationPayload result.explanation limits]

def readRegisterResult (limits : Limits) : Reader RegistrationResult := do
  let outcome ← decodeOutcome RegistrationOutcome.ofRaw 11
    (malformed "register result carries an unknown outcome code")
  let epoch ← ByteReader.counter .coordinatorEpoch
  let coordinatorBoot ← ByteReader.id .coordinatorBoot
  let registrationGeneration ← decodeOptionalCounter .registrationGeneration
    (malformed "register result carries an invalid generation presence flag")
  let incarnation ← decodeOptionalCounter .incarnationSequence
    (malformed "register result carries an invalid incarnation presence flag")
  let replayed ← decodeFlag (malformed "register result carries an invalid replay flag")
  let explanation ← decodeExplanationPayload limits
  return { outcome, epoch, coordinatorBoot, registrationGeneration, incarnation, replayed,
           explanation }

/-! ## Validation -/

def encodeValidateRequest (request : ValidateAuthorityRequest) : Writer := Emit.concat [
  encodeToken request.token,
  encodeScope request.scope,
  encodeFlag request.expectedGeneration.isSome,
  encodeOptionalCounter request.expectedGeneration,
  encodeFlag request.grant.isSome,
  ByteWriter.fixed (optionalBytes request.grant)]

def readValidateRequest (limits : Limits) : Reader ValidateAuthorityRequest := do
  let token ← decodeToken limits
  let scope ← decodeScope limits
  let expectedGeneration ← decodeOptionalCounter .registrationGeneration
    (malformed "validate request carries an invalid generation presence flag")
  let grant ← decodeOptionalId .authorityGrant
    (malformed "validate request carries an invalid grant presence flag")
  return { token, scope, expectedGeneration, grant }

def validationCodeFromWire : Nat → Option AuthorityValidationCode
  | 0 => some .current
  | 1 => some .staleEpoch
  | 2 => some .staleWorkerBoot
  | 3 => some .unknownParticipant
  | 4 => some .unauthorizedScope
  | 5 => some .revalidationRequired
  | 6 => some .malformed
  | 7 => some .retired
  | 8 => some .unknownGrant
  | 9 => some .revoked
  | _ => none

def currentnessFromWire : Nat → Option AuthorityCurrentness
  | 0 => some .current
  | 1 => some .revalidationRequired
  | 2 => some .fenced
  | 3 => some .staleEpoch
  | 4 => some .retired
  | 5 => some .unknown
  | 6 => some .revoked
  | _ => none

def encodeValidation (validation : AuthorityValidation) (limits : Limits) : Writer := Emit.concat [
  ByteWriter.u8 validation.code.toWire,
  ByteWriter.u8 validation.currentness.toWire,
  ByteWriter.counter validation.epoch,
  ByteWriter.fixed validation.coordinatorBoot.bytes,
  encodeFlag validation.registrationGeneration.isSome,
  encodeOptionalCounter validation.registrationGeneration,
  encodeFlag validation.incarnation.isSome,
  encodeOptionalCounter validation.incarnation,
  encodeFlag validation.replacedByEpoch.isSome,
  encodeOptionalCounter validation.replacedByEpoch,
  encodeFlag validation.supersededBy.isSome,
  ByteWriter.fixed (optionalBytes validation.supersededBy),
  encodeExplanationPayload validation.explanation limits]

def readValidation (limits : Limits) : Reader AuthorityValidation := do
  let code ← decodeVia ByteReader.u8 validationCodeFromWire
    (malformed "validation carries an unknown result code")
  let currentness ← decodeVia ByteReader.u8 currentnessFromWire
    (malformed "validation carries an unknown currentness code")
  let epoch ← ByteReader.counter .coordinatorEpoch
  let coordinatorBoot ← ByteReader.id .coordinatorBoot
  let registrationGeneration ← decodeOptionalCounter .registrationGeneration
    (malformed "validation carries an invalid generation presence flag")
  let incarnation ← decodeOptionalCounter .incarnationSequence
    (malformed "validation carries an invalid incarnation presence flag")
  let replacedByEpoch ← decodeOptionalCounter .coordinatorEpoch
    (malformed "validation carries an invalid replaced-epoch presence flag")
  let supersededBy ← decodeOptionalId .workerBoot
    (malformed "validation carries an invalid superseded-boot presence flag")
  let explanation ← decodeExplanationPayload limits
  return { code, currentness, epoch, coordinatorBoot, registrationGeneration, incarnation,
           replacedByEpoch, supersededBy, explanation }

/-! ## Fencing -/

def encodeFenceRequest (request : FenceWorkerRequest) (limits : Limits) : Writer := Emit.concat [
  ByteWriter.fixed request.attempt.bytes,
  ByteWriter.counter request.expectedEpoch,
  encodeParticipant request.participant,
  ByteWriter.fixed request.boot.bytes,
  ByteWriter.u8 request.reason.toWire,
  encodeText request.note limits]

def readFenceRequest (limits : Limits) : Reader FenceWorkerRequest := do
  let attempt ← ByteReader.id .mutationAttempt
  let expectedEpoch ← ByteReader.counter .coordinatorEpoch
  let participant ← decodeParticipant limits
  let boot ← ByteReader.id .workerBoot
  let reason ← decodeVia ByteReader.u8 FenceReason.fromWire
    (malformed "fence request carries an unknown reason code")
  let note ← decodeText limits
  return { attempt, expectedEpoch, participant, boot, reason, note }

def encodeFenceResult (result : FenceResult) (limits : Limits) : Writer := Emit.concat [
  ByteWriter.u8 result.outcome.toWire,
  ByteWriter.counter result.epoch,
  encodeFlag result.fenceGeneration.isSome,
  encodeOptionalCounter result.fenceGeneration,
  encodeFlag result.incarnation.isSome,
  encodeOptionalCounter result.incarnation,
  encodeExplanationPayload result.explanation limits]

def readFenceResult (limits : Limits) : Reader FenceResult := do
  let outcome ← decodeOutcome FenceOutcome.ofRaw 7
    (malformed "fence result carries an unknown outcome code")
  let epoch ← ByteReader.counter .coordinatorEpoch
  let fenceGeneration ← decodeOptionalCounter .fencingGeneration
    (malformed "fence result carries an invalid generation presence flag")
  let incarnation ← decodeOptionalCounter .incarnationSequence
    (malformed "fence result carries an invalid incarnation presence flag")
  let explanation ← decodeExplanationPayload limits
  return { outcome, epoch, fenceGeneration, incarnation, explanation }

/-! ## Revocation -/

def encodeRevokeRequest (request : RevokeAuthorityRequest) (limits : Limits) : Writer := Emit.concat [
  ByteWriter.fixed request.attempt.bytes,
  ByteWriter.counter request.expectedEpoch,
  ByteWriter.fixed request.grant.bytes,
  ByteWriter.u8 request.reason.toWire,
  encodeText request.note limits]

def readRevokeRequest (limits : Limits) : Reader RevokeAuthorityRequest := do
  let attempt ← ByteReader.id .mutationAttempt
  let expectedEpoch ← ByteReader.counter .coordinatorEpoch
  let grant ← ByteReader.id .authorityGrant
  let reason ← decodeVia ByteReader.u8 FenceReason.fromWire
    (malformed "revoke request carries an unknown reason code")
  let note ← decodeText limits
  return { attempt, expectedEpoch, grant, reason, note }

def encodeRevokeResult (result : RevokeResult) (limits : Limits) : Writer := Emit.concat [
  ByteWriter.u8 result.outcome.toWire,
  ByteWriter.counter result.epoch,
  encodeFlag result.generation.isSome,
  encodeOptionalCounter result.generation,
  encodeSize result.derivedGrantsRevoked,
  encodeExplanationPayload result.explanation limits]

def readRevokeResult (limits : Limits) : Reader RevokeResult := do
  let outcome ← decodeOutcome RevokeOutcome.ofRaw 5
    (malformed "revoke result carries an unknown outcome code")
  let epoch ← ByteReader.counter .coordinatorEpoch
  let generation ← decodeOptionalCounter .grantGeneration
    (malformed "revoke result carries an invalid generation presence flag")
  let derivedGrantsRevoked ← decodeSize
  let explanation ← decodeExplanationPayload limits
  return { outcome, epoch, generation, derivedGrantsRevoked, explanation }

/-! ## Advancement -/

def encodeAdvanceRequest (request : EpochAdvanceRequest) (limits : Limits) : Writer := Emit.concat [
  ByteWriter.fixed request.attempt.bytes,
  ByteWriter.counter request.expectedEpoch,
  ByteWriter.u8 request.cause.toWire,
  encodeText request.provenance limits]

def readAdvanceRequest (limits : Limits) : Reader EpochAdvanceRequest := do
  let attempt ← ByteReader.id .mutationAttempt
  let expectedEpoch ← ByteReader.counter .coordinatorEpoch
  let cause ← decodeVia ByteReader.u8 EpochTransitionCause.fromWire
    (malformed "advance request carries an unknown transition cause")
  let provenance ← decodeText limits
  return { attempt, expectedEpoch, cause, provenance }

def encodeAdvanceResult (result : EpochAdvanceResult) (limits : Limits) : Writer := Emit.concat [
  ByteWriter.u8 result.outcome.toWire,
  ByteWriter.counter result.epoch,
  ByteWriter.fixed result.coordinatorBoot.bytes,
  encodeFlag result.transition.isSome,
  ByteWriter.fixed (optionalBytes result.transition),
  encodeFlag result.replayed,
  encodeExplanationPayload result.explanation limits]

def readAdvanceResult (limits : Limits) : Reader EpochAdvanceResult := do
  let outcome ← decodeOutcome EpochAdvanceOutcome.ofRaw 4
    (malformed "advance result carries an unknown outcome code")
  let epoch ← ByteReader.counter .coordinatorEpoch
  let coordinatorBoot ← ByteReader.id .coordinatorBoot
  let transition ← decodeOptionalId .epochTransition
    (malformed "advance result carries an invalid transition presence flag")
  let replayed ← decodeFlag (malformed "advance result carries an invalid replay flag")
  let explanation ← decodeExplanationPayload limits
  return { outcome, epoch, coordinatorBoot, transition, replayed, explanation }

/-! ## State, participants and explanations -/

def encodeEpochState (state : EpochState) : Writer := Emit.concat [
  ByteWriter.counter state.epoch,
  ByteWriter.fixed state.coordinatorBoot.bytes,
  ByteWriter.counter state.generation,
  ByteWriter.counter state.registrationFloor,
  ByteWriter.counter state.fenceFloor,
  encodeSize state.participantCount,
  encodeSize state.activeWorkerCount,
  encodeSize state.retainedFenceCount,
  encodeSize state.liveGrantCount,
  encodeSize state.transitionHistoryCount]

def readEpochState : Reader EpochState := do
  let epoch ← ByteReader.counter .coordinatorEpoch
  let coordinatorBoot ← ByteReader.id .coordinatorBoot
  let generation ← ByteReader.counter .epochGeneration
  let registrationFloor ← ByteReader.counter .registrationGeneration
  let fenceFloor ← ByteReader.counter .fencingGeneration
  let participantCount ← decodeSize
  let activeWorkerCount ← decodeSize
  let retainedFenceCount ← decodeSize
  let liveGrantCount ← decodeSize
  let transitionHistoryCount ← decodeSize
  return { epoch, coordinatorBoot, generation, registrationFloor, fenceFloor, participantCount,
           activeWorkerCount, retainedFenceCount, liveGrantCount, transitionHistoryCount }

/-- The flag byte of a participant view. -/
def viewFlags (view : ParticipantView) : Nat :=
  (if view.retired then 0x01 else 0) ||| (if view.revalidationRequired then 0x02 else 0) |||
    (if view.hasActiveIncarnation then 0x04 else 0)

def encodeParticipantView (view : ParticipantView) : Writer := Emit.concat [
  ByteWriter.string view.id.text,
  ByteWriter.counter view.registrationGeneration,
  ByteWriter.counter view.fenceGeneration,
  ByteWriter.counter view.incarnationFloor,
  ByteWriter.u8 view.policy.toWire,
  ByteWriter.u8 (viewFlags view),
  ByteWriter.fixed view.activeBoot.bytes,
  ByteWriter.counter view.activeIncarnation,
  emitList (fun boot => ByteWriter.fixed boot.bytes) view.activeBoots,
  encodeScopeSetCanonical view.scopes,
  ByteWriter.u64 view.acceptedRegistrations,
  ByteWriter.u64 view.replayHits]

def readParticipantView (limits : Limits) : Reader ParticipantView := do
  let id ← decodeParticipantId limits
  let registrationGeneration ← ByteReader.counter .registrationGeneration
  let fenceGeneration ← ByteReader.counter .fencingGeneration
  let incarnationFloor ← ByteReader.counter .incarnationSequence
  let policy ← decodeVia ByteReader.u8 IncarnationPolicy.fromWire
    (malformed "unknown incarnation policy on the wire")
  let flags ← ByteReader.u8
  require (malformed "unknown participant view flag bits set") (flags &&& 0xF8 = 0)
  let activeBoot ← ByteReader.id .workerBoot
  let activeIncarnation ← ByteReader.counter .incarnationSequence
  let activeBoots ← decodeCounted
    (resourceLimit "active boot count exceeds limits.max_active_workers")
    limits.maxActiveWorkers (ByteReader.id .workerBoot)
  let scopes ← decodeScopeSetCanonical limits
  let acceptedRegistrations ← ByteReader.u64
  let replayHits ← ByteReader.u64
  return { id, registrationGeneration, fenceGeneration, incarnationFloor, policy,
           retired := flags &&& 0x01 != 0
           revalidationRequired := flags &&& 0x02 != 0
           hasActiveIncarnation := flags &&& 0x04 != 0
           activeBoot, activeIncarnation, activeBoots, scopes, acceptedRegistrations, replayHits }

structure ExplainRequestPayload where
  participant : ParticipantId
  boot : WorkerBootId
deriving DecidableEq

def encodeExplainRequest (request : ExplainRequestPayload) : Writer := Emit.concat [
  encodeParticipant request.participant,
  ByteWriter.fixed request.boot.bytes]

def readExplainRequest (limits : Limits) : Reader ExplainRequestPayload := do
  let participant ← decodeParticipant limits
  let boot ← ByteReader.id .workerBoot
  return { participant, boot }

/-! ## Snapshots -/

def encodeWireFence (fence : FenceRecord) (limits : Limits) : Writer := Emit.concat [
  ByteWriter.fixed fence.boot.bytes,
  encodeParticipant fence.participant,
  ByteWriter.u8 fence.reason.toWire,
  ByteWriter.counter fence.generation,
  ByteWriter.counter fence.epoch,
  ByteWriter.counter fence.incarnation,
  encodeText fence.note limits]

def decodeWireFence (limits : Limits) : Reader FenceRecord := do
  let boot ← ByteReader.id .workerBoot
  let participant ← decodeParticipant limits
  let reason ← decodeVia ByteReader.u8 FenceReason.fromWire
    (malformed "snapshot carries an unknown fence reason")
  let generation ← ByteReader.counter .fencingGeneration
  let epoch ← ByteReader.counter .coordinatorEpoch
  let incarnation ← ByteReader.counter .incarnationSequence
  let note ← decodeText limits
  return { boot, participant, reason, generation, epoch, incarnation, note }

def decodeGrantView (limits : Limits) : Reader GrantView := do
  let id ← ByteReader.id .authorityGrant
  let epoch ← ByteReader.counter .coordinatorEpoch
  let participant ← decodeParticipant limits
  let boot ← ByteReader.id .workerBoot
  let generation ← ByteReader.counter .grantGeneration
  let revoked ← ByteReader.u8
  let delegated ← ByteReader.u8
  require (malformed "snapshot carries an invalid grant flag") (¬ (revoked > 1 ∨ delegated > 1))
  let scopes ← decodeScopeSetCanonical limits
  return { id, epoch, participant, boot, generation, revoked := revoked == 1
           delegated := delegated == 1, scopes }

def encodeSnapshotResponse (snapshot : AuthoritySnapshot) (limits : Limits) : Writer := Emit.concat [
  ByteWriter.fixed snapshot.id.bytes,
  ByteWriter.counter snapshot.epoch,
  ByteWriter.fixed snapshot.coordinatorBoot.bytes,
  ByteWriter.counter snapshot.generation,
  ByteWriter.counter snapshot.registrationFloor,
  ByteWriter.counter snapshot.fenceFloor,
  emitList encodeParticipantView snapshot.participants,
  emitList (fun fence => encodeWireFence fence limits) snapshot.fences,
  emitList encodeGrantView snapshot.grants,
  ByteWriter.fixed snapshot.digest]

def readSnapshotResponse (limits : Limits) : Reader AuthoritySnapshot := do
  let id ← ByteReader.id .epochSnapshot
  let epoch ← ByteReader.counter .coordinatorEpoch
  let coordinatorBoot ← ByteReader.id .coordinatorBoot
  let generation ← ByteReader.counter .epochGeneration
  let registrationFloor ← ByteReader.counter .registrationGeneration
  let fenceFloor ← ByteReader.counter .fencingGeneration
  let participants ← decodeCounted
    (resourceLimit "snapshot participant count exceeds limits.max_participants")
    limits.maxParticipants (readParticipantView limits)
  let fences ← decodeCounted
    (resourceLimit "snapshot fence count exceeds limits.max_recent_fences")
    limits.maxRecentFences (decodeWireFence limits)
  let grants ← decodeCounted
    (resourceLimit "snapshot grant count exceeds limits.max_authority_grants")
    limits.maxAuthorityGrants (decodeGrantView limits)
  let digest ← ByteReader.fixed 32
  return { id, epoch, coordinatorBoot, generation, registrationFloor, fenceFloor, participants,
           fences, grants, digest }

/-! ## Retirement -/

def encodeRetireRequest (request : RetireParticipantRequest) (limits : Limits) : Writer :=
  Emit.concat [
    ByteWriter.fixed request.attempt.bytes,
    ByteWriter.counter request.expectedEpoch,
    encodeParticipant request.participant,
    encodeText request.note limits]

def readRetireRequest (limits : Limits) : Reader RetireParticipantRequest := do
  let attempt ← ByteReader.id .mutationAttempt
  let expectedEpoch ← ByteReader.counter .coordinatorEpoch
  let participant ← decodeParticipant limits
  let note ← decodeText limits
  return { attempt, expectedEpoch, participant, note }

def encodeRetireResult (result : RetireResult) (limits : Limits) : Writer := Emit.concat [
  ByteWriter.u8 result.outcome.toWire,
  ByteWriter.counter result.epoch,
  encodeSize result.incarnationsFenced,
  encodeExplanationPayload result.explanation limits]

def readRetireResult (limits : Limits) : Reader RetireResult := do
  let outcome ← decodeOutcome RetireOutcome.ofRaw 5
    (malformed "retire result carries an unknown outcome code")
  let epoch ← ByteReader.counter .coordinatorEpoch
  let incarnationsFenced ← decodeSize
  let explanation ← decodeExplanationPayload limits
  return { outcome, epoch, incarnationsFenced, explanation }

end Wire

end FabricEpoch
