import FabricEpoch.Runtime.Grants

/-!
# Views of the state

What the read-only calls hand out: the counters of the store
(`Impl.buildState`), one participant (`Impl.queryParticipant`), the whole
authority state at one generation (`Impl.buildSnapshot`), and why a boot has
authority or not (`Impl.explainAuthority`). A snapshot lists its records by key
and carries a digest of what it lists.
-/

namespace FabricEpoch

open ByteCodec

structure ParticipantView where
  id : ParticipantId
  registrationGeneration : RegistrationGeneration
  fenceGeneration : FencingGeneration
  incarnationFloor : IncarnationSequence
  policy : IncarnationPolicy
  retired : Bool
  revalidationRequired : Bool
  hasActiveIncarnation : Bool
  activeBoot : WorkerBootId
  activeIncarnation : IncarnationSequence
  activeBoots : List WorkerBootId
  scopes : ScopeSet
  acceptedRegistrations : UInt64
  replayHits : UInt64
deriving DecidableEq

structure GrantView where
  id : AuthorityGrantId
  epoch : CoordinatorEpoch
  participant : ParticipantId
  boot : WorkerBootId
  generation : GrantGeneration
  revoked : Bool
  delegated : Bool
  scopes : ScopeSet
deriving DecidableEq

structure AuthoritySnapshot where
  id : EpochSnapshotId
  epoch : CoordinatorEpoch
  coordinatorBoot : CoordinatorBootId
  generation : EpochGeneration
  registrationFloor : RegistrationGeneration
  fenceFloor : FencingGeneration
  participants : List ParticipantView
  fences : List FenceRecord
  grants : List GrantView
  digest : SnapshotDigest
deriving DecidableEq

/-- The snapshot describes this epoch and this generation. -/
def AuthoritySnapshot.isCurrentFor (snapshot : AuthoritySnapshot) (currentEpoch : CoordinatorEpoch)
    (currentGeneration : EpochGeneration) : Bool :=
  snapshot.epoch == currentEpoch && snapshot.generation == currentGeneration

structure EpochState where
  epoch : CoordinatorEpoch
  coordinatorBoot : CoordinatorBootId
  generation : EpochGeneration
  registrationFloor : RegistrationGeneration
  fenceFloor : FencingGeneration
  participantCount : Nat
  activeWorkerCount : Nat
  retainedFenceCount : Nat
  liveGrantCount : Nat
  transitionHistoryCount : Nat
deriving DecidableEq

/-! ## Records as views -/

/-- `to_view`. -/
def DurableParticipant.toView (participant : DurableParticipant) : ParticipantView where
  id := participant.id
  registrationGeneration := participant.registrationGeneration
  fenceGeneration := participant.fenceGeneration
  incarnationFloor := participant.incarnationFloor
  policy := participant.policy
  retired := participant.retired
  revalidationRequired := participant.revalidationRequired
  hasActiveIncarnation := participant.hasActiveBoot
  activeBoot := participant.activeBoot
  activeIncarnation := participant.activeIncarnation
  activeBoots := participant.extraIncarnations.map (·.boot)
  scopes := participant.scopes
  acceptedRegistrations := participant.acceptedRegistrations
  replayHits := participant.replayHits

def AuthorityGrant.toView (grant : AuthorityGrant) : GrantView where
  id := grant.id
  epoch := grant.epoch
  participant := grant.participant
  boot := grant.boot
  generation := grant.generation
  revoked := grant.revoked
  delegated := grant.parent.isSome
  scopes := grant.scopes

/-- By participant, then by boot, then by generation. -/
def FenceRecord.before (a b : FenceRecord) : Bool :=
  if a.participant ≠ b.participant then a.participant ≤ b.participant
  else if a.boot ≠ b.boot then a.boot.bytes.bytes ≤ b.boot.bytes.bytes
  else a.generation ≤ b.generation

/-! ## The digest of a snapshot -/

def encodeSnapshotParticipant (p : ParticipantView) : Writer := Emit.concat [
  ByteWriter.string p.id.text,
  ByteWriter.counter p.registrationGeneration,
  ByteWriter.counter p.fenceGeneration,
  ByteWriter.counter p.incarnationFloor,
  ByteWriter.u8 p.policy.toWire,
  ByteWriter.u8 (if p.retired then 1 else 0),
  ByteWriter.u8 (if p.revalidationRequired then 1 else 0),
  ByteWriter.fixed p.activeBoot.bytes,
  ByteWriter.counter p.activeIncarnation,
  emitList (fun boot => ByteWriter.fixed boot.bytes)
    (p.activeBoots.insertionSort fun a b => a.bytes.bytes ≤ b.bytes.bytes),
  encodeScopeSetCanonical p.scopes]

def encodeSnapshotFence (f : FenceRecord) : Writer := Emit.concat [
  ByteWriter.fixed f.boot.bytes,
  ByteWriter.string f.participant.text,
  ByteWriter.u8 f.reason.toWire,
  ByteWriter.counter f.generation,
  ByteWriter.counter f.epoch,
  ByteWriter.counter f.incarnation]

def encodeGrantView (g : GrantView) : Writer := Emit.concat [
  ByteWriter.fixed g.id.bytes,
  ByteWriter.counter g.epoch,
  ByteWriter.string g.participant.text,
  ByteWriter.fixed g.boot.bytes,
  ByteWriter.counter g.generation,
  ByteWriter.u8 (if g.revoked then 1 else 0),
  ByteWriter.u8 (if g.delegated then 1 else 0),
  encodeScopeSetCanonical g.scopes]

/-- `compute_snapshot_digest`. The identifier of the snapshot is left out. -/
def computeSnapshotDigest (snapshot : AuthoritySnapshot) : Except EpochError SnapshotDigest :=
  computeSemanticDigest (Emit.concat [
    ByteWriter.string (str "FABRIC-EPOCH-SNAPSHOT-V1"),
    ByteWriter.counter snapshot.epoch,
    ByteWriter.fixed snapshot.coordinatorBoot.bytes,
    ByteWriter.counter snapshot.generation,
    ByteWriter.counter snapshot.registrationFloor,
    ByteWriter.counter snapshot.fenceFloor,
    emitList encodeSnapshotParticipant
      (snapshot.participants.insertionSort fun a b => a.id ≤ b.id),
    emitList encodeSnapshotFence (snapshot.fences.insertionSort fun a b => a.before b),
    emitList encodeGrantView
      (snapshot.grants.insertionSort fun a b => a.id.bytes.bytes ≤ b.id.bytes.bytes)])

/-! ## The calls -/

namespace Impl

/-- `build_snapshot`. `entropy` is the generated identifier. -/
def buildSnapshot (entropy : Entropy) (impl : Impl) : Except EpochError AuthoritySnapshot := do
  let id ← entropy
  let snapshot : AuthoritySnapshot := {
    id := ⟨id⟩
    epoch := impl.state.currentEpoch
    coordinatorBoot := impl.state.coordinatorBoot
    generation := impl.state.generation
    registrationFloor := impl.state.registrationFloor
    fenceFloor := impl.state.fenceFloor
    participants := (impl.state.participants.map (·.toView)).insertionSort fun a b => a.id ≤ b.id
    fences := impl.state.recentFences.insertionSort fun a b => a.before b
    grants := (impl.state.grants.map (·.toView)).insertionSort fun a b =>
      a.id.bytes.bytes ≤ b.id.bytes.bytes
    digest := Block.zero 32 }
  let digest ← computeSnapshotDigest snapshot
  return { snapshot with digest }

/-- `build_state`. -/
def buildState (impl : Impl) : EpochState where
  epoch := impl.state.currentEpoch
  coordinatorBoot := impl.state.coordinatorBoot
  generation := impl.state.generation
  registrationFloor := impl.state.registrationFloor
  fenceFloor := impl.state.fenceFloor
  participantCount := impl.state.participants.length
  activeWorkerCount := impl.activeWorkers
  retainedFenceCount := impl.state.recentFences.length
  liveGrantCount := impl.state.grants.countP fun g => !g.revoked
  transitionHistoryCount := impl.state.transitions.length

/-- `query_participant`. -/
def queryParticipant (impl : Impl) (id : ParticipantId) : Option ParticipantView :=
  (impl.findParticipant id).map (·.toView)

/-- `explain_authority`, where the boot is not current. -/
def explainLost (impl : Impl) (participant : ParticipantId) (owner : DurableParticipant)
    (boot : WorkerBootId) (explanation : Explanation) : Explanation :=
  let fence := impl.lookupFence participant boot
  if fence.fenced then
    let explanation := (explanation.withCode .workerBootFenced).withDetail "fence_reason"
      (fence.record.elim (str "RETAINED") (·.reason.toText))
    let explanation := fence.record.elim explanation fun record => explanation
      |>.withDetail "fenced_at_epoch" record.epoch.toText
      |>.withDetail "fence_generation" record.generation.toText
    explanation.withDetail "replaced_by_epoch" impl.state.currentEpoch.toText
  else if !owner.hasCurrent then
    if owner.revalidationRequired then
      (explanation.withCode .revalidationRequired).withDetail "reason"
        (str "coordinator authority advanced; register a fresh worker incarnation")
    else
      (explanation.withCode .workerBootFenced).withDetail "reason"
        (str "participant holds no current incarnation")
  else
    (explanation.withCode .workerBootSuperseded)
      |>.withDetail "active_boot" (owner.incumbent.elim [] (·.toText))
      |>.withDetail "reason" (str "a different worker incarnation holds current authority")

/-- `explain_authority`. -/
def explainAuthority (impl : Impl) (participant : ParticipantId) (boot : WorkerBootId) :
    Explanation :=
  let explanation := (Explanation.ofCode .participantUnknown)
    |>.withDetail "participant" participant.text
    |>.withDetail "boot" boot.toText
    |>.withDetail "current_epoch" impl.state.currentEpoch.toText
    |>.withDetail "coordinator_boot" impl.state.coordinatorBoot.toText
  match impl.findParticipant participant with
  | none => explanation
  | some owner =>
    let explanation := explanation
      |>.withDetail "registration_generation" owner.registrationGeneration.toText
      |>.withDetail "fence_generation" owner.fenceGeneration.toText
      |>.withDetail "incarnation_floor" owner.incarnationFloor.toText
    if owner.retired then explanation.withCode .participantRetired
    else
      match owner.findIncarnation boot with
      | some current =>
        (explanation.withCode .authorityCurrent).withDetail "incarnation" current.toText
      | none => impl.explainLost participant owner boot explanation

end Impl

end FabricEpoch
