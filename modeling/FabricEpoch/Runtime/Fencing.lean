import FabricEpoch.Runtime.State

/-!
# Fencing

`recordFence` removes one worker boot from the live incarnations of its
participant, or writes a preventive record for a boot that is not live. It is
idempotent: a boot that is already fenced is left alone. Everything a fence
that returns can have done is written down in `recordFence_cases`.
-/

namespace FabricEpoch

open Table Transaction

/-! ## Records -/

namespace DurableParticipant

/-- Take a boot out of the live incarnations. The first extra incarnation moves
into the active slot when that is emptied. -/
def removeIncarnation (boot : WorkerBootId) (p : DurableParticipant) : DurableParticipant :=
  if p.hasActiveBoot = true ∧ p.activeBoot = boot then
    match p.extraIncarnations with
    | first :: rest =>
      { p with
        activeBoot := first.boot
        activeIncarnation := first.sequence
        extraIncarnations := rest }
    | [] =>
      { p with hasActiveBoot := false, activeBoot := .nil, activeIncarnation := .zero }
  else
    { p with extraIncarnations := p.extraIncarnations.filter fun e => e.boot ≠ boot }

/-- The fencing floor covers the incarnation. -/
def raiseFloor (incarnation : IncarnationSequence) (p : DurableParticipant) :
    DurableParticipant :=
  if incarnation > p.incarnationFloor then { p with incarnationFloor := incarnation } else p

def setFenceGeneration (generation : FencingGeneration) (p : DurableParticipant) :
    DurableParticipant :=
  { p with fenceGeneration := generation }

/-- Bounded retention of fenced boots. -/
def retainFenced (limits : Limits) (boot : WorkerBootId) (p : DurableParticipant) :
    DurableParticipant :=
  { p with fencedBoots := evictPush limits.maxFencedBootsPerParticipant p.fencedBoots boot }

/-- Everything a fence does to the record of a live boot. -/
def fence (limits : Limits) (boot : WorkerBootId) (incarnation : IncarnationSequence)
    (generation : FencingGeneration) (p : DurableParticipant) : DurableParticipant :=
  (((p.removeIncarnation boot).raiseFloor incarnation).setFenceGeneration generation).retainFenced
    limits boot

/-- What the undo of a fence restores. -/
def restoreFence (before p : DurableParticipant) : DurableParticipant :=
  { p with
    fenceGeneration := before.fenceGeneration
    incarnationFloor := before.incarnationFloor
    hasActiveBoot := before.hasActiveBoot
    activeBoot := before.activeBoot
    activeIncarnation := before.activeIncarnation
    extraIncarnations := before.extraIncarnations
    fencedBoots := before.fencedBoots }

end DurableParticipant

/-- The default-constructed record. -/
def FenceRecord.blank : FenceRecord where
  boot := .nil
  participant := ⟨[]⟩
  reason := .explicitOperatorFence
  generation := .zero
  epoch := .zero
  incarnation := .zero
  note := .blank

namespace Impl

/-- `state.fence_floor = generation`. -/
def setFenceFloor (generation : FencingGeneration) (impl : Impl) : Impl :=
  impl.mapState fun s => { s with fenceFloor := generation }

/-- `state.recent_fences.resize(n)`. -/
def resizeFences (n : Nat) (impl : Impl) : Impl :=
  impl.mapState fun s => { s with recentFences := resize .blank n s.recentFences }

def setActiveWorkers (n : Nat) (impl : Impl) : Impl := { impl with activeWorkers := n }

/-! ## Preventive fences -/

/-- The record of a boot that is no current incarnation. -/
def preventiveRecord (impl : Impl) (id : ParticipantId) (boot : WorkerBootId)
    (reason : FenceReason) (note : BoundedText) (generation : FencingGeneration) : FenceRecord where
  boot := boot
  participant := id
  reason := reason
  generation := generation
  epoch := impl.state.currentEpoch
  incarnation := .zero
  note := note

def applyPreventive (id : ParticipantId) (record : FenceRecord) (impl : Impl) : Impl :=
  (updateParticipant id (·.setFenceGeneration record.generation)
    (impl.setFenceFloor record.generation)).mapState
    fun s => { s with recentFences := s.recentFences ++ [record] }

def undoPreventive (before : Impl) (id : ParticipantId) (participant : DurableParticipant)
    (impl : Impl) : Impl :=
  rawUpdateParticipant id (·.setFenceGeneration participant.fenceGeneration)
    (resizeFences before.state.recentFences.length (impl.setFenceFloor before.state.fenceFloor))

/-! ## Fences of live incarnations -/

def liveRecord (impl : Impl) (id : ParticipantId) (boot : WorkerBootId)
    (incarnation : IncarnationSequence) (reason : FenceReason) (note : BoundedText)
    (generation : FencingGeneration) : FenceRecord :=
  { impl.preventiveRecord id boot reason note generation with incarnation }

/-- Take the boot out of the live set. -/
def applyRemoval (id : ParticipantId) (boot : WorkerBootId) (incarnation : IncarnationSequence)
    (impl : Impl) : Impl :=
  (impl.updateParticipant id (·.removeIncarnation boot)
    |>.setActiveWorkers (impl.activeWorkers - 1)).updateParticipant id (·.raiseFloor incarnation)

def applyFence (id : ParticipantId) (record : FenceRecord) (impl : Impl) : Impl :=
  ((impl.setFenceFloor record.generation).updateParticipant id fun p =>
    (p.setFenceGeneration record.generation).retainFenced impl.options.limits record.boot).mapState
    fun s => { s with recentFences := evictPush impl.options.limits.maxRecentFences s.recentFences record }

def undoFence (before : Impl) (id : ParticipantId) (participant : DurableParticipant)
    (impl : Impl) : Impl :=
  rawUpdateParticipant id (DurableParticipant.restoreFence participant)
    ((resizeFences before.state.recentFences.length
      (impl.setFenceFloor before.state.fenceFloor)).setActiveWorkers before.activeWorkers)

end Impl

/-! ## The operation -/

def fencingExhausted : EpochError := overflow "fencing generation counter is exhausted"

def recordPreventiveFence (id : ParticipantId) (participant : DurableParticipant)
    (boot : WorkerBootId) (reason : FenceReason) (note : BoundedText) : Op FenceResult := do
  let impl ← Action.current
  let generation ← Action.orFail impl.state.fenceFloor.next fencingExhausted
  Action.pushUndo (impl.undoPreventive id participant)
  Action.modify (Impl.applyPreventive id (impl.preventiveRecord id boot reason note generation))
  bumpGeneration
  Action.markMutated
  return {
    outcome := .fenced
    epoch := impl.state.currentEpoch
    fenceGeneration := some generation
    explanation := (Explanation.ofCode .fenceRecorded)
      |>.withDetail "boot" boot.toText
      |>.withDetail "reason" reason.toText
      |>.withDetail "kind" (str "preventive") }

def fenceIncarnation (id : ParticipantId) (participant : DurableParticipant)
    (boot : WorkerBootId) (incarnation : IncarnationSequence) (reason : FenceReason)
    (note : BoundedText) : Op FenceResult := do
  let impl ← Action.current
  Action.pushUndo (impl.undoFence id participant)
  Action.modify (Impl.applyRemoval id boot incarnation)
  let generation ← Action.orFail impl.state.fenceFloor.next fencingExhausted
  Action.modify (Impl.applyFence id (impl.liveRecord id boot incarnation reason note generation))
  bumpGeneration
  Action.markMutated
  return {
    outcome := .fenced
    epoch := impl.state.currentEpoch
    fenceGeneration := some generation
    incarnation := some incarnation
    explanation := (Explanation.ofCode .fenceRecorded)
      |>.withDetail "boot" boot.toText
      |>.withDetail "participant" id.text
      |>.withDetail "reason" reason.toText
      |>.withDetail "incarnation" incarnation.toText
      |>.withDetail "epoch" impl.state.currentEpoch.toText }

/-- `record_fence`. -/
def recordFence (id : ParticipantId) (boot : WorkerBootId) (reason : FenceReason)
    (note : BoundedText) (allowDefensive : Bool) : Op FenceResult := do
  let impl ← Action.current
  match impl.findParticipant id with
  | none =>
    return {
      outcome := .unknownParticipant
      epoch := impl.state.currentEpoch
      explanation := (Explanation.ofCode .participantUnknown).withDetail "participant" id.text }
  | some participant =>
    let existing := impl.lookupFence id boot
    if existing.fenced then
      return {
        outcome := .alreadyFenced
        epoch := impl.state.currentEpoch
        fenceGeneration := some participant.fenceGeneration
        incarnation := existing.record.map (·.incarnation)
        explanation := (Explanation.ofCode .fenceIdempotent)
          |>.withDetail "boot" boot.toText
          |>.withDetail "fence_generation" participant.fenceGeneration.toText }
    else
      match participant.findIncarnation boot with
      | some incarnation => fenceIncarnation id participant boot incarnation reason note
      | none =>
        if !allowDefensive then
          return {
            outcome := .alreadyFenced
            epoch := impl.state.currentEpoch
            fenceGeneration := some participant.fenceGeneration
            explanation := (Explanation.ofCode .fenceIdempotent)
              |>.withDetail "boot" boot.toText
              |>.withDetail "reason" (str "the boot is not a current incarnation") }
        else if impl.state.recentFences.length ≥ impl.options.limits.maxRecentFences then
          -- a descriptive record never evicts a semantically required one
          return {
            outcome := .resourceLimit
            epoch := impl.state.currentEpoch
            explanation := (Explanation.ofCode .resourceLimitReached)
              |>.withDetail "limit" (str "max_recent_fences") }
        else recordPreventiveFence id participant boot reason note

end FabricEpoch
