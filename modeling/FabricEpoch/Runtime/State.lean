import FabricEpoch.Lib.Table
import FabricEpoch.Lib.Transaction
import FabricEpoch.Runtime.Types
import FabricEpoch.Store

/-!
# The runtime's memory

`Impl` is what an open coordinator keeps in memory: its options, the durable
state, position indexes over the records, and the session tables. Lookups go
through the indexes; the indexes are rebuilt from the records when a runtime
opens and at every durability barrier, and between two barriers only some of
them are kept up to date.

Every mutating operation is an `Op`: it works on an `Impl` in place, registers
undo actions, and says whether there is anything to persist.
-/

namespace FabricEpoch

open Table Transaction

/-- The default-constructed participant, as `std::vector::resize` appends it. -/
def DurableParticipant.fresh (id : ParticipantId) (policy : IncarnationPolicy) :
    DurableParticipant :=
  { id, policy, nextIncarnation := ⟨1, one_le_maxValue⟩ }

structure Impl where
  options : EpochRuntimeOptions
  state : DurableState
  participantIndex : ParticipantId → Option Nat
  bootIndex : WorkerBootId → Option Nat
  fenceIndex : WorkerBootId → List Nat
  grantIndex : AuthorityGrantId → Option Nat
  grantChildren : AuthorityGrantId → List Nat
  sessionIndex : List SessionBinding
  bootSessionIndex : List (WorkerBootId × SessionId)
  activeWorkers : Nat

/-- An operation of the runtime. -/
abbrev Op (α : Type) := Action Impl EpochError α

namespace Impl

/-! ## Indexes -/

/-- The indexes, computed from the records. -/
def rebuildIndexes (impl : Impl) : Impl :=
  { impl with
    participantIndex := indexBy (fun p => [p.id]) impl.state.participants
    bootIndex := indexBy DurableParticipant.liveBoots impl.state.participants
    fenceIndex := groupBy (fun f => [f.boot]) impl.state.recentFences
    grantIndex := indexBy (fun g => [g.id]) impl.state.grants
    grantChildren := groupBy (fun g => g.parent.toList) impl.state.grants
    activeWorkers := (impl.state.participants.map fun p => p.liveBoots.length).sum }

def mapState (f : DurableState → DurableState) (impl : Impl) : Impl :=
  { impl with state := f impl.state }

/-- The canonical durable ordering: participants sorted by identifier. -/
def canonicalize (impl : Impl) : Impl :=
  impl.mapState fun s => { s with participants := s.participants.insertionSort fun a b => a.id ≤ b.id }

/-! ## Lookups -/

/-- `find_participant`: through the index, with a bounds check. -/
def findParticipant (impl : Impl) (id : ParticipantId) : Option DurableParticipant :=
  (impl.participantIndex id).bind fun i => impl.state.participants[i]?

/-- `find_participant` followed by a write through the pointer. -/
def updateParticipant (id : ParticipantId) (f : DurableParticipant → DurableParticipant)
    (impl : Impl) : Impl :=
  match impl.participantIndex id with
  | some i => impl.mapState fun s => { s with participants := s.participants.modify i f }
  | none => impl

/-- `raw_find_participant` followed by a write through the pointer. -/
def rawUpdateParticipant (id : ParticipantId) (f : DurableParticipant → DurableParticipant)
    (impl : Impl) : Impl :=
  impl.mapState fun s => { s with participants := modifyFirst DurableParticipant.id id f s.participants }

structure FenceLookup where
  fenced : Bool := false
  record : Option FenceRecord := none

/-- The retained record at an indexed position, if it names the participant.
The boot of the record is not compared. -/
def fenceRecordAt (impl : Impl) (participant : ParticipantId) (index : Nat) : Option FenceRecord :=
  match impl.state.recentFences[index]? with
  | some record => if record.participant = participant then some record else none
  | none => none

def lookupFence (impl : Impl) (participant : ParticipantId) (boot : WorkerBootId) : FenceLookup :=
  match (impl.fenceIndex boot).findSome? (impl.fenceRecordAt participant) with
  | some record => { fenced := true, record := some record }
  | none =>
    match impl.findParticipant participant with
    | some owner => { fenced := owner.fencedBoots.contains boot }
    | none => {}

def findGrant (impl : Impl) (id : AuthorityGrantId) : Option AuthorityGrant :=
  (impl.grantIndex id).bind fun i => impl.state.grants[i]?

/-- A write through an iterator of the grant index. -/
def updateGrant (id : AuthorityGrantId) (f : AuthorityGrant → AuthorityGrant) (impl : Impl) :
    Impl :=
  match impl.grantIndex id with
  | some i => impl.mapState fun s => { s with grants := s.grants.modify i f }
  | none => impl

end Impl

/-- `find_incarnation`. -/
def DurableParticipant.findIncarnation (participant : DurableParticipant) (boot : WorkerBootId) :
    Option IncarnationSequence :=
  if participant.hasActiveBoot = true ∧ participant.activeBoot = boot then
    some participant.activeIncarnation
  else (participant.extraIncarnations.find? fun e => e.boot = boot).map (·.sequence)

/-- The participant has a current incarnation. -/
def DurableParticipant.hasCurrent (participant : DurableParticipant) : Bool :=
  participant.hasActiveBoot || !participant.extraIncarnations.isEmpty

/-- The boot that holds current authority: the active one, else the first extra. -/
def DurableParticipant.incumbent (participant : DurableParticipant) : Option WorkerBootId :=
  if participant.hasActiveBoot then some participant.activeBoot
  else participant.extraIncarnations.head?.map (·.boot)

structure IncarnationEvaluation where
  code : AuthorityValidationCode := .malformed
  currentness : AuthorityCurrentness := .unknown
  incarnation : Option IncarnationSequence := none
  supersededBy : Option WorkerBootId := none
  replacedByEpoch : Option CoordinatorEpoch := none
  fenceReason : Option FenceReason := none

/-- `evaluate_incarnation`. -/
def Impl.evaluateIncarnation (impl : Impl) (participant : DurableParticipant)
    (boot : WorkerBootId) (claimed : IncarnationSequence) : IncarnationEvaluation :=
  match participant.findIncarnation boot with
  | some current =>
    if claimed.value ≠ 0 ∧ claimed ≠ current then
      { code := .staleWorkerBoot, currentness := .fenced, incarnation := some current }
    else { code := .current, currentness := .current, incarnation := some current }
  | none =>
    let fence := impl.lookupFence participant.id boot
    if fence.fenced then
      { code := .staleWorkerBoot
        currentness := .fenced
        fenceReason := fence.record.map (·.reason)
        incarnation := fence.record.bind fun r =>
          if r.incarnation.isZero then none else some r.incarnation
        replacedByEpoch := fence.record.bind fun r =>
          if r.epoch.value ≠ 0 then some r.epoch else none
        supersededBy := participant.incumbent }
    else if claimed.value ≠ 0 ∧ claimed ≤ participant.incarnationFloor then
      { code := .staleWorkerBoot, currentness := .fenced }
    else if !participant.hasCurrent then
      if participant.revalidationRequired then
        { code := .revalidationRequired, currentness := .revalidationRequired }
      else { code := .staleWorkerBoot, currentness := .fenced }
    else
      { code := .staleWorkerBoot, currentness := .fenced, supersededBy := participant.incumbent }

/-! ## Idempotency -/

/-- `find_attempt`. -/
def findAttempt (table : List IdempotencyRecord) (attempt : MutationAttemptId) :
    Option IdempotencyRecord :=
  table.find? fun r => r.attempt = attempt

/-- `remember_attempt`. -/
def rememberAttempt (limits : Limits) (record : IdempotencyRecord)
    (table : List IdempotencyRecord) : List IdempotencyRecord :=
  evictPush limits.maxIdempotencyRecordsPerParticipant table record

/-! ## Semantic digests -/

/-- `compute_semantic_digest` of what a writer produces. -/
def computeSemanticDigest (canonical : Writer) : Except EpochError SnapshotDigest :=
  match canonical with
  | .ok bytes => .ok (Sha256.hash bytes)
  | .error e => .error e

/-- The canonical text of a request, which its digest stands for. -/
def RegisterParticipantRequest.semantic (request : RegisterParticipantRequest) : Writer :=
  ByteCodec.Emit.concat [
    ByteWriter.u8 OperationKind.registerParticipant.toWire,
    ByteWriter.string request.participant.text,
    ByteWriter.fixed request.boot.bytes,
    ByteWriter.u8 request.policy.toWire,
    encodeScopeSetCanonical request.scopes]

def FenceWorkerRequest.semantic (request : FenceWorkerRequest) : Writer :=
  ByteCodec.Emit.concat [
    ByteWriter.u8 OperationKind.fenceWorker.toWire,
    ByteWriter.string request.participant.text,
    ByteWriter.fixed request.boot.bytes,
    ByteWriter.u8 request.reason.toWire]

def GrantAuthorityRequest.semantic (request : GrantAuthorityRequest) : Writer :=
  ByteCodec.Emit.concat [
    ByteWriter.u8 OperationKind.grantAuthority.toWire,
    ByteWriter.string request.participant.text,
    ByteWriter.fixed request.boot.bytes,
    ByteWriter.counter request.incarnation,
    encodeScopeSetCanonical request.scopes,
    ByteWriter.fixed (optionalBytes request.parent)]

def RevokeAuthorityRequest.semantic (request : RevokeAuthorityRequest) : Writer :=
  ByteCodec.Emit.concat [
    ByteWriter.u8 OperationKind.revokeAuthority.toWire,
    ByteWriter.fixed request.grant.bytes,
    ByteWriter.u8 request.reason.toWire]

def RetireParticipantRequest.semantic (request : RetireParticipantRequest) : Writer :=
  ByteCodec.Emit.concat [
    ByteWriter.u8 OperationKind.retireParticipant.toWire,
    ByteWriter.string request.participant.text]

def EpochAdvanceRequest.semantic (request : EpochAdvanceRequest) : Writer :=
  ByteCodec.Emit.concat [
    ByteWriter.u8 OperationKind.advanceEpoch.toWire,
    ByteWriter.u8 request.cause.toWire]

/-! ## Generations -/

def Impl.setGeneration (generation : EpochGeneration) (impl : Impl) : Impl :=
  impl.mapState fun s => { s with generation }

def bumpGeneration : Op Unit := do
  let impl ← Action.current
  let previous := impl.state.generation
  Action.pushUndo (Impl.setGeneration previous)
  let next ← Action.orFail previous.next
    (overflow "durable state generation counter is exhausted")
  Action.modify (Impl.setGeneration next)

/-- `bump_generation` under a condition. -/
def bumpWhen (condition : Bool) : Op Unit := if condition then bumpGeneration else pure ()

end FabricEpoch
