import FabricEpoch.Runtime.Grants

/-!
# Epochs and retirement

`mutateEpoch` advances the epoch; with `invalidateLive` it ends every live
incarnation. It serves the opening of a runtime and `advanceEpoch`.
`applyRetire` fences every live incarnation of a participant, closes its
allocator and keeps the record.
-/

namespace FabricEpoch

open Table Transaction

/-! ## Advancing the epoch -/

namespace DurableParticipant

/-- The epoch change ends the live incarnations of the record. -/
def invalidate (p : DurableParticipant) : DurableParticipant :=
  { p with
    revalidationRequired := p.revalidationRequired || p.hasCurrent
    hasActiveBoot := false
    activeBoot := .nil
    activeIncarnation := .zero
    extraIncarnations := [] }

end DurableParticipant

/-- The default-constructed transition. -/
def EpochTransitionRecord.blank : EpochTransitionRecord where
  id := .nil
  fromEpoch := .zero
  toEpoch := .zero
  cause := .coordinatorStart
  coordinatorBoot := .nil
  generation := .zero
  provenance := .blank

namespace Impl

/-- The new epoch and the coordinator that established it. -/
def enterEpoch (epoch : CoordinatorEpoch) (boot : CoordinatorBootId) (impl : Impl) : Impl :=
  impl.mapState fun s => { s with currentEpoch := epoch, coordinatorBoot := boot }

def invalidateLive (impl : Impl) : Impl :=
  impl.mapState fun s => { s with participants := s.participants.map (·.invalidate) }

def pushTransition (transition : EpochTransitionRecord) (impl : Impl) : Impl :=
  impl.mapState fun s =>
    { s with transitions := evictPush impl.options.limits.maxTransitionHistory s.transitions transition }

def undoEpoch (before impl : Impl) : Impl :=
  impl.mapState fun s =>
    { s with
      currentEpoch := before.state.currentEpoch
      coordinatorBoot := before.state.coordinatorBoot
      generation := before.state.generation
      participants := before.state.participants
      transitions := resize .blank before.state.transitions.length s.transitions }

/-- The transition that is recorded. -/
def newTransition (impl : Impl) (id : EpochTransitionId) (epoch : CoordinatorEpoch)
    (generation : EpochGeneration) (boot : CoordinatorBootId) (cause : EpochTransitionCause) :
    EpochTransitionRecord where
  id := id
  fromEpoch := impl.state.currentEpoch
  toEpoch := epoch
  cause := cause
  coordinatorBoot := boot
  generation := generation
  provenance := impl.options.provenance

end Impl

/-- `mutate_epoch`. -/
def mutateEpoch (entropy : Entropy) (boot : CoordinatorBootId) (cause : EpochTransitionCause)
    (invalidateLive : Bool) : Op Unit := do
  let impl ← Action.current
  let epoch ← Action.orFail impl.state.currentEpoch.next
    (overflow "CoordinatorEpoch cannot advance: the maximum representable epoch is in use")
  Action.pushUndo impl.undoEpoch
  Action.modify (Impl.enterEpoch epoch boot)
  let generation ← Action.orFail impl.state.generation.next
    (overflow "durable state generation counter is exhausted")
  Action.modify (Impl.setGeneration generation)
  Action.modify fun s => if invalidateLive then s.invalidateLive else s
  let id ← Action.ofExcept entropy
  Action.modify (Impl.pushTransition (impl.newTransition ⟨id⟩ epoch generation boot cause))

namespace Impl

def advanceResult (impl : Impl) (outcome : EpochAdvanceOutcome) (explanation : Explanation) :
    EpochAdvanceResult where
  outcome := outcome
  epoch := impl.state.currentEpoch
  coordinatorBoot := impl.state.coordinatorBoot
  explanation := explanation

/-- The answer of the replay table, which precedes the expected-epoch check. -/
def replayedAdvance (impl : Impl) (request : EpochAdvanceRequest) (digest : SnapshotDigest)
    (previous : IdempotencyRecord) : EpochAdvanceResult :=
  if previous.semantic ≠ digest then
    impl.advanceResult .conflictingAttempt
      ((Explanation.ofCode .attemptConflict).withDetail "attempt" request.attempt.toText)
  else
    let epoch : CoordinatorEpoch := MonotonicCounter.ofRaw previous.auxiliary
    { impl.advanceResult (EpochAdvanceOutcome.ofRaw previous.outcome)
        ((Explanation.ofCode .registrationIdempotentReplay)
          |>.withDetail "attempt" request.attempt.toText
          |>.withDetail "epoch" epoch.toText) with
      epoch
      transition :=
        if previous.auxiliaryHigh ≠ 0 ∧ epoch = impl.state.currentEpoch then
          impl.state.transitions.getLast?.map (·.id)
        else none
      replayed := true }

/-- The checks between the replay table and the mutation. -/
def refusedAdvance (impl : Impl) (request : EpochAdvanceRequest) : Option EpochAdvanceResult :=
  if request.expectedEpoch ≠ impl.state.currentEpoch then
    some (impl.advanceResult .staleExpectedEpoch ((Explanation.ofCode .epochStale)
      |>.withDetail "expected_epoch" request.expectedEpoch.toText
      |>.withDetail "current_epoch" impl.state.currentEpoch.toText))
  else if impl.state.currentEpoch.isMax then
    some (impl.advanceResult .epochExhausted ((Explanation.ofCode .resourceLimitReached)
      |>.withDetail "limit" (str "CoordinatorEpoch")
      |>.withDetail "reason" (str "the maximum representable epoch is already authoritative")
      |>.withDetail "epoch" impl.state.currentEpoch.toText))
  else none

end Impl

def EpochAdvanceRequest.record (request : EpochAdvanceRequest) (digest : SnapshotDigest)
    (epoch : CoordinatorEpoch) : IdempotencyRecord where
  attempt := request.attempt
  operation := .advanceEpoch
  semantic := digest
  outcome := UInt16.ofNat EpochAdvanceOutcome.advanced.toWire
  auxiliary := epoch.raw
  auxiliaryHigh := 1

/-- The part of `advance_epoch` that mutates. -/
def commitAdvance (entropy : Entropy) (request : EpochAdvanceRequest) (digest : SnapshotDigest) :
    Op EpochAdvanceResult := do
  let before ← Action.current
  mutateEpoch entropy before.state.coordinatorBoot request.cause true
  let impl ← Action.current
  -- the replay record is not covered by an undo action
  Action.modify (Impl.rememberControl (request.record digest impl.state.currentEpoch))
  Action.markMutated
  return { impl.advanceResult .advanced ((Explanation.ofCode .epochAdvanced)
      |>.withDetail "epoch" impl.state.currentEpoch.toText
      |>.withDetail "cause" request.cause.toText
      |>.withDetail "coordinator_boot" impl.state.coordinatorBoot.toText) with
    transition := impl.state.transitions.getLast?.map (·.id) }

/-- `EpochRuntime::advance_epoch` up to the durability barrier. -/
def advanceEpoch (entropy : Entropy) (request : EpochAdvanceRequest) : Op EpochAdvanceResult := do
  let impl ← Action.current
  if request.attempt.isNil then
    return impl.advanceResult .malformedRequest ((Explanation.ofCode .malformedRequest).withDetail
      "reason" (str "attempt identifier is nil"))
  else
    let digest ← Action.ofExcept (computeSemanticDigest request.semantic)
    match findAttempt impl.state.controlAttempts request.attempt, impl.refusedAdvance request with
    | some previous, _ => return impl.replayedAdvance request digest previous
    | none, some result => return result
    | none, none => commitAdvance entropy request digest

/-! ## Fencing by request -/

namespace Impl

def fenceResult (impl : Impl) (outcome : FenceOutcome) (explanation : Explanation) :
    FenceResult where
  outcome := outcome
  epoch := impl.state.currentEpoch
  explanation := explanation

/-- The checks of the request and of the epoch. -/
def malformedFence (impl : Impl) (request : FenceWorkerRequest) : Option FenceResult :=
  let malformed (reason : String) :=
    some (impl.fenceResult .malformedRequest
      ((Explanation.ofCode .malformedRequest).withDetail "reason" (str reason)))
  if request.attempt.isNil then malformed "attempt identifier is nil"
  else if request.participant.empty || request.boot.isNil then
    malformed "fence request is structurally invalid"
  else if request.expectedEpoch ≠ impl.state.currentEpoch then
    some (impl.fenceResult .staleEpoch ((Explanation.ofCode .epochStale)
      |>.withDetail "request_epoch" request.expectedEpoch.toText
      |>.withDetail "current_epoch" impl.state.currentEpoch.toText))
  else none

/-- The answer of the replay table. -/
def replayedFence (impl : Impl) (request : FenceWorkerRequest) (digest : SnapshotDigest)
    (previous : IdempotencyRecord) : FenceResult :=
  if previous.semantic ≠ digest then
    impl.fenceResult .conflictingAttempt
      ((Explanation.ofCode .attemptConflict).withDetail "attempt" request.attempt.toText)
  else
    { impl.fenceResult (FenceOutcome.ofRaw previous.outcome) ((Explanation.ofCode .fenceIdempotent)
        |>.withDetail "attempt" request.attempt.toText
        |>.withDetail "replay" (str "true")) with
      fenceGeneration := if previous.auxiliary ≠ 0 then
        some (MonotonicCounter.ofRaw previous.auxiliary) else none }

end Impl

def FenceWorkerRequest.record (request : FenceWorkerRequest) (digest : SnapshotDigest)
    (result : FenceResult) : IdempotencyRecord where
  attempt := request.attempt
  operation := .fenceWorker
  semantic := digest
  outcome := UInt16.ofNat result.outcome.toWire
  auxiliary := (result.fenceGeneration.map (·.raw)).getD 0
  auxiliaryHigh := (result.incarnation.map (·.raw)).getD 0

/-- The replay record of a fence that mutated. No undo action covers it. -/
def rememberFence (request : FenceWorkerRequest) (digest : SnapshotDigest) (result : FenceResult)
    (mutated : Bool) : Op Unit := do
  let impl ← Action.current
  Action.modify fun s =>
    if mutated then
      s.updateParticipant request.participant
        (·.remember impl.options.limits (request.record digest result))
    else s

/-- The part of `fence_worker` that mutates. -/
def commitFence (request : FenceWorkerRequest) (digest : SnapshotDigest) : Op FenceResult := do
  let result ← recordFence request.participant request.boot request.reason request.note true
  rememberFence request digest result (← Action.hasMutated)
  return result

/-- `EpochRuntime::fence_worker` up to the durability barrier. -/
def fenceWorker (request : FenceWorkerRequest) : Op FenceResult := do
  let impl ← Action.current
  match impl.malformedFence request, impl.findParticipant request.participant with
  | some result, _ => return result
  | none, none =>
    return impl.fenceResult .unknownParticipant
      ((Explanation.ofCode .participantUnknown).withDetail "participant" request.participant.text)
  | none, some participant =>
    let digest ← Action.ofExcept (computeSemanticDigest request.semantic)
    match findAttempt participant.idempotency request.attempt with
    | some previous => return impl.replayedFence request digest previous
    | none => commitFence request digest

/-! ## Retirement -/

namespace DurableParticipant

/-- The greatest sequence the allocator can have issued. -/
def highestIssued (p : DurableParticipant) : IncarnationSequence :=
  ⟨p.nextIncarnation.value - 1, Nat.le_trans (Nat.sub_le _ _) p.nextIncarnation.le_max⟩

/-- Close the allocator and mark the record. -/
def retire (p : DurableParticipant) : DurableParticipant :=
  let closed := if p.nextIncarnation.isZero then p else p.raiseFloor p.highestIssued
  { closed with retired := true, revalidationRequired := false }

/-- What the undo of a retirement restores. -/
def restoreRetirement (before p : DurableParticipant) : DurableParticipant :=
  { p with
    incarnationFloor := before.incarnationFloor
    retired := before.retired
    revalidationRequired := before.revalidationRequired }

end DurableParticipant

namespace Impl

def retireResult (impl : Impl) (outcome : RetireOutcome) (explanation : Explanation) :
    RetireResult where
  outcome := outcome
  epoch := impl.state.currentEpoch
  explanation := explanation

def malformedRetire (impl : Impl) (request : RetireParticipantRequest) : Option RetireResult :=
  if request.attempt.isNil || request.participant.empty then
    some (impl.retireResult .malformedRequest ((Explanation.ofCode .malformedRequest).withDetail
      "reason" (str "retirement request is structurally invalid")))
  else if request.expectedEpoch ≠ impl.state.currentEpoch then
    some (impl.retireResult .staleEpoch ((Explanation.ofCode .epochStale)
      |>.withDetail "request_epoch" request.expectedEpoch.toText
      |>.withDetail "current_epoch" impl.state.currentEpoch.toText))
  else none

/-- The answer of the replay table. -/
def replayedRetire (impl : Impl) (request : RetireParticipantRequest) (digest : SnapshotDigest)
    (previous : IdempotencyRecord) : RetireResult :=
  if previous.semantic ≠ digest then
    impl.retireResult .conflictingAttempt
      ((Explanation.ofCode .attemptConflict).withDetail "attempt" request.attempt.toText)
  else
    let outcome := RetireOutcome.ofRaw previous.outcome
    { impl.retireResult outcome ((Explanation.ofCode .registrationIdempotentReplay)
        |>.withDetail "attempt" request.attempt.toText
        |>.withDetail "outcome" outcome.toText) with
      incarnationsFenced := previous.auxiliary.toNat }

end Impl

def RetireParticipantRequest.record (request : RetireParticipantRequest) (digest : SnapshotDigest)
    (incarnationsFenced : Nat) : IdempotencyRecord where
  attempt := request.attempt
  operation := .retireParticipant
  semantic := digest
  outcome := UInt16.ofNat RetireOutcome.retired.toWire
  auxiliary := UInt64.ofNat incarnationsFenced

/-- Fence the boots that were live, one after the other, and count them. -/
def fenceAll (id : ParticipantId) (note : BoundedText) : List WorkerBootId → Op Nat
  | [] => return 0
  | boot :: boots => do
    let fence ← recordFence id boot .administrativeRevoke note false
    let impl ← Action.current
    if (impl.findParticipant id).isNone then
      Action.fail (invariant "participant disappeared while being retired")
    else
      let rest ← fenceAll id note boots
      return (if fence.outcome = .fenced ∨ fence.outcome = .alreadyFenced then 1 else 0) + rest

/-- The part of a retirement that mutates. -/
def commitRetire (request : RetireParticipantRequest) (digest : SnapshotDigest)
    (participant : DurableParticipant) : Op RetireResult := do
  let incarnationsFenced ← fenceAll request.participant request.note participant.liveBoots
  let impl ← Action.current
  let fenced := (impl.findParticipant request.participant).getD participant
  Action.pushUndo (Impl.rawUpdateParticipant request.participant fenced.restoreRetirement)
  Action.modify (Impl.updateParticipant request.participant (·.retire))
  bumpGeneration
  -- the replay record is not covered by an undo action
  Action.modify (Impl.updateParticipant request.participant
    (·.remember impl.options.limits (request.record digest incarnationsFenced)))
  Action.markMutated
  return { impl.retireResult .retired ((Explanation.ofCode .participantRetired)
      |>.withDetail "participant" request.participant.text
      |>.withDetail "incarnations_fenced" (natText incarnationsFenced)
      |>.withDetail "epoch" impl.state.currentEpoch.toText) with
    incarnationsFenced }

/-- `apply_retire`. -/
def applyRetire (request : RetireParticipantRequest) : Op RetireResult := do
  let impl ← Action.current
  match impl.malformedRetire request, impl.findParticipant request.participant with
  | some result, _ => return result
  | none, none =>
    return impl.retireResult .unknownParticipant
      ((Explanation.ofCode .participantUnknown).withDetail "participant" request.participant.text)
  | none, some participant =>
    let digest ← Action.ofExcept (computeSemanticDigest request.semantic)
    match findAttempt participant.idempotency request.attempt with
    | some previous => return impl.replayedRetire request digest previous
    | none =>
      if participant.retired then
        return impl.retireResult .alreadyRetired
          ((Explanation.ofCode .participantRetired).withDetail "participant" participant.id.text)
      else commitRetire request digest participant

end FabricEpoch
