import FabricEpoch.Lib.Machine
import FabricEpoch.Runtime.Epoch
import FabricEpoch.Runtime.Validation

/-!
# Public calls and the coordinator as a machine

A mutating call runs its operation and, if that asks for it, passes the
durability barrier: the records are brought into canonical order, the state is
saved, the indexes are rebuilt. When the operation or the save throws, the undo
actions run.

- `transact`: an operation behind its barrier;
- `Call`, `callRuntime`: the public mutating calls;
- `openRuntime`: the constructor over a disk;
- `coordinator`: the machine of one runtime at a time over one disk;
- `replicas`: the machine of several runtimes over one disk, each step one call
  or one opening.
-/

namespace FabricEpoch

open Transaction

/-- What a call leaves behind: memory, disk and its answer or exception. -/
structure Transacted (α : Type) where
  impl : Impl
  disk : Disk
  result : Except EpochError α

namespace Transacted

def map {α β : Type} (f : α → β) (x : Transacted α) : Transacted β :=
  ⟨x.impl, x.disk, x.result.map f⟩

end Transacted

/-- `persist`: the durability barrier behind an operation that returned `a`. -/
def persist {α : Type} (fault : Option SaveFault) (disk : Disk) (t : Txn Impl) (a : α) :
    Transacted α :=
  let canonical := t.state.canonicalize
  let saved := EpochStore.save (EpochStore.runtimeOptions t.state.options.limits) fault disk
    canonical.state
  match saved.error with
  | some e => ⟨({ t with state := canonical }).rollback.rebuildIndexes, saved.disk, .error e⟩
  | none => ⟨canonical.rebuildIndexes, saved.disk, .ok a⟩

/-- An operation behind its barrier. An operation that threw, or that has
nothing to persist, is rolled back by the destructor of its undo log. -/
def transact {α : Type} (op : Op α) (fault : Option SaveFault) (disk : Disk) (impl : Impl) :
    Transacted α :=
  match op (Txn.start impl) with
  | .error e t => ⟨t.rollback, disk, .error e⟩
  | .ok a t =>
    if t.mutated then persist fault disk t a
    else ⟨t.rollback, disk, .ok a⟩

/-! ## Sessions -/

namespace Impl

/-- `erase_session`. -/
def eraseSession (binding : SessionBinding) (impl : Impl) : Impl :=
  { impl with
    sessionIndex := impl.sessionIndex.filter fun s => s.id ≠ binding.id
    bootSessionIndex := impl.bootSessionIndex.filter fun s => s.1 ≠ binding.boot }

/-- The conditions under which a session is bound at all. -/
def bindable (impl : Impl) (binding : SessionBinding) : Bool :=
  if binding.epoch ≠ impl.state.currentEpoch then false
  else
    match impl.findParticipant binding.participant with
    | none => false
    | some participant =>
      !participant.retired && participant.findIncarnation binding.boot == some binding.incarnation &&
        !(impl.bootSessionIndex.any fun s => s.1 == binding.boot)

/-- `EpochRuntime::bind_session`. -/
def bindSession (binding : SessionBinding) (impl : Impl) : Except EpochError (Bool × Impl) :=
  if !impl.bindable binding then .ok (false, impl)
  else if impl.sessionIndex.length ≥ impl.options.limits.maxSessions then
    .error (resourceLimit "session count exceeds limits.max_sessions")
  else
    .ok (true, { impl with
      sessionIndex := impl.sessionIndex.filter (fun s => s.id ≠ binding.id) ++ [binding]
      bootSessionIndex := impl.bootSessionIndex ++ [(binding.boot, binding.id)] })

/-- The answer of a closed session that fences nothing. -/
def sessionClosed (impl : Impl) (session : SessionId) (reason : String) : FenceResult :=
  impl.fenceResult .noFenceRequired ((Explanation.ofCode .sessionClosed)
    |>.withDetail "session" session.toText
    |>.withDetail "reason" (str reason))

end Impl

/-- `EpochRuntime::close_session` behind the erasure of the session. -/
def fenceSession (session : SessionId) (binding : SessionBinding) (reason : SessionClosureReason) :
    Op FenceResult := do
  let impl ← Action.current
  if !impl.options.fenceOnSessionLoss then
    let closed :=
      impl.sessionClosed session "runtime is configured as a durable-incarnation model"
    return { closed with explanation := closed.explanation.withDetail "closure" reason.toText }
  else
    match impl.findParticipant binding.participant with
    | none => return impl.sessionClosed session "participant no longer exists"
    | some participant =>
      match participant.findIncarnation binding.boot with
      | none =>
        return impl.sessionClosed session "the incarnation is already superseded or fenced"
      | some _ =>
        recordFence binding.participant binding.boot reason.fenceReason .blank false

/-- `EpochRuntime::close_session`. The session is gone whatever happens next. -/
def closeSession (session : SessionId) (reason : SessionClosureReason) (fault : Option SaveFault)
    (disk : Disk) (impl : Impl) : Transacted FenceResult :=
  match impl.sessionIndex.find? fun s => s.id = session with
  | none => ⟨impl, disk, .ok (impl.sessionClosed session "session is not bound")⟩
  | some binding =>
    transact (fenceSession session binding reason) fault disk (impl.eraseSession binding)

/-! ## Calls -/

/-- The public mutating calls. -/
inductive Call where
  | register (request : RegisterParticipantRequest)
  | registerBatch (requests : List RegisterParticipantRequest)
  | fence (request : FenceWorkerRequest)
  | grant (request : GrantAuthorityRequest)
  | revoke (request : RevokeAuthorityRequest)
  | advance (request : EpochAdvanceRequest)
  | retire (request : RetireParticipantRequest)
  | bind (binding : SessionBinding)
  | close (session : SessionId) (reason : SessionClosureReason)
  | flush

/-- What a call returns. -/
inductive Reply where
  | registered (result : RegistrationResult)
  | registeredBatch (results : List RegistrationResult)
  | fenced (result : FenceResult)
  | granted (result : GrantResult)
  | revoked (result : RevokeResult)
  | advanced (result : EpochAdvanceResult)
  | retired (result : RetireResult)
  | bound (accepted : Bool)
  | flushed
  | opened

/-- One public call. `entropy` is what the identifier generator hands out. -/
def callRuntime (call : Call) (entropy : Entropy) (fault : Option SaveFault) (disk : Disk)
    (impl : Impl) : Transacted Reply :=
  match call with
  | .register request =>
    (transact (applyRegistration request true) fault disk impl).map .registered
  | .registerBatch requests => (transact (registerBatch requests) fault disk impl).map .registeredBatch
  | .fence request => (transact (fenceWorker request) fault disk impl).map .fenced
  | .grant request => (transact (applyGrant entropy request) fault disk impl).map .granted
  | .revoke request => (transact (applyRevoke request) fault disk impl).map .revoked
  | .advance request => (transact (advanceEpoch entropy request) fault disk impl).map .advanced
  | .retire request => (transact (applyRetire request) fault disk impl).map .retired
  | .bind binding =>
    match impl.bindSession binding with
    | .error e => ⟨impl, disk, .error e⟩
    | .ok (accepted, impl) => ⟨impl, disk, .ok (.bound accepted)⟩
  | .close session reason => (closeSession session reason fault disk impl).map .fenced
  | .flush =>
    let saved := EpochStore.save (EpochStore.runtimeOptions impl.options.limits) fault disk impl.state
    match saved.error with
    | some e => ⟨impl, saved.disk, .error e⟩
    | none => ⟨impl, saved.disk, .ok .flushed⟩

/-! ## Opening -/

/-- What the constructor is given besides the disk: the options, the generated
coordinator identity and the generated transition identifier. -/
structure Opening where
  options : EpochRuntimeOptions
  generatedBoot : Entropy
  transition : Entropy

/-- The memory of a runtime over a loaded state, before any epoch is
established. -/
def Impl.ofState (options : EpochRuntimeOptions) (state : DurableState) : Impl :=
  Impl.rebuildIndexes {
    options
    state
    participantIndex := fun _ => none
    bootIndex := fun _ => none
    fenceIndex := fun _ => []
    grantIndex := fun _ => none
    grantChildren := fun _ => []
    sessionIndex := []
    bootSessionIndex := []
    activeWorkers := 0 }

/-- `establish_epoch`, as an operation. -/
def establishEpoch (entropy : Entropy) (boot : CoordinatorBootId) (cause : EpochTransitionCause)
    (invalidateLive : Bool) : Op Unit := do
  mutateEpoch entropy boot cause invalidateLive
  Action.markMutated

/-- The coordinator identity: the configured one, or a generated one. -/
def Opening.boot (opening : Opening) : Except EpochError CoordinatorBootId :=
  match opening.options.coordinatorBoot with
  | some boot => .ok boot
  | none => opening.generatedBoot.map fun bytes => ⟨bytes⟩

/-- The loaded state and the coordinator identity, or why there is none. -/
def loadRuntime (opening : Opening) (disk : Disk) :
    Except EpochError (DurableState × CoordinatorBootId) := do
  Checks.refuseIf (isViable opening.options.limits = false)
    (invalidArgument "runtime limits are not viable")
  let state ← EpochStore.load (EpochStore.runtimeOptions opening.options.limits) disk
  let boot ← opening.boot
  return (state, boot)

theorem loadRuntime_ok {opening : Opening} {disk : Disk} {state : DurableState}
    {boot : CoordinatorBootId} (h : loadRuntime opening disk = .ok (state, boot)) :
    isViable opening.options.limits = true ∧
      EpochStore.load (EpochStore.runtimeOptions opening.options.limits) disk = .ok state ∧
      opening.boot = .ok boot := by
  unfold loadRuntime at h
  rw [Checks.bind_refuseIf, Checks.bind_ok] at h
  obtain ⟨hviable, s, hload, h⟩ := h
  obtain ⟨b, hboot, h⟩ := Checks.bind_ok.mp h
  cases h
  exact ⟨by simpa using hviable, hload, hboot⟩

/-- The constructor: no runtime when it throws. -/
def openRuntime (opening : Opening) (fault : Option SaveFault) (disk : Disk) :
    Option Impl × Disk × Except EpochError Reply :=
  match loadRuntime opening disk with
  | .error e => (none, disk, .error e)
  | .ok (state, boot) =>
    let impl := Impl.ofState { opening.options with coordinatorBoot := some boot } state
    let established := !state.currentEpoch.isZero
    if opening.options.advanceEpochOnOpen then
      let cause := if established then EpochTransitionCause.coordinatorRestart else .coordinatorStart
      let opened := transact (establishEpoch opening.transition boot cause established) fault disk impl
      match opened.result with
      | .error e => (none, opened.disk, .error e)
      | .ok _ => (some opened.impl, opened.disk, .ok .opened)
    else if established then (some impl, disk, .ok .opened)
    else (none, disk, .error (invalidArgument
      "durable store has no established epoch and advance_epoch_on_open is false"))

/-! ## Machines -/

/-- What the environment does next: open a runtime, or call the open one, each
with what the generators hand out and where the file system fails. -/
inductive Input where
  | open (opening : Opening) (fault : Option SaveFault)
  | call (call : Call) (entropy : Entropy) (fault : Option SaveFault)

/-- The answer to an input: nothing when there is no runtime to call. -/
abbrev Answer := Option (Except EpochError Reply)

/-- One step of one runtime over a disk. -/
def stepRuntime (input : Input) (disk : Disk) (runtime : Option Impl) :
    Option Impl × Disk × Answer :=
  match input, runtime with
  | .open opening fault, _ =>
    let (impl, disk, result) := openRuntime opening fault disk
    (impl, disk, some result)
  | .call call entropy fault, some impl =>
    let done := callRuntime call entropy fault disk impl
    (some done.impl, done.disk, some done.result)
  | .call .., none => (none, disk, none)

/-- A disk and the runtime that is open over it, if any. -/
structure Host where
  disk : Disk
  runtime : Option Impl

/-- One runtime at a time; an opening replaces the one before. -/
def coordinator : Machine Host Input Answer where
  init := ⟨.blank, none⟩
  step host input :=
    let (runtime, disk, answer) := stepRuntime input host.disk host.runtime
    (⟨disk, runtime⟩, answer)

/-- A call of the open runtime. -/
theorem coordinator_call {host : Host} {impl : Impl} (h : host.runtime = some impl) (call : Call)
    (entropy : Entropy) (fault : Option SaveFault) :
    coordinator.step host (.call call entropy fault) =
      (⟨(callRuntime call entropy fault host.disk impl).disk,
        some (callRuntime call entropy fault host.disk impl).impl⟩,
        some (callRuntime call entropy fault host.disk impl).result) := by
  obtain ⟨disk, runtime⟩ := host
  cases h
  rfl

/-- Without a runtime nothing happens. -/
theorem coordinator_idle {host : Host} (h : host.runtime = none) (call : Call) (entropy : Entropy)
    (fault : Option SaveFault) : coordinator.step host (.call call entropy fault) = (host, none) := by
  obtain ⟨disk, runtime⟩ := host
  cases h
  rfl

/-- Several runtimes over one disk. -/
structure Site (κ : Type) where
  disk : Disk
  runtimes : κ → Option Impl

/-- Each step is one opening or one call of one of the runtimes. -/
def replicas (κ : Type) [DecidableEq κ] : Machine (Site κ) (κ × Input) Answer where
  init := ⟨.blank, fun _ => none⟩
  step site input :=
    let (runtime, disk, answer) := stepRuntime input.2 site.disk (site.runtimes input.1)
    (⟨disk, fun k => if k = input.1 then runtime else site.runtimes k⟩, answer)

/-! ## Inputs of the test runs -/

/-- The image cannot be written. -/
def brokenDisk : SaveFault :=
  ⟨.writeTemporary, ioFailure "durability barrier failed while persisting durable store"⟩

/-- A scope of the test runs. -/
def testScope : AuthorityScope := ⟨.site, str "a"⟩

def testScopes : ScopeSet := ⟨[testScope], List.pairwise_singleton _ _⟩

/-- Generated bytes of the test runs. -/
def testEntropy (n : UInt8) : Entropy := .ok (smallId n : AuthorityGrantId).bytes

/-- A participant of the test runs. -/
def testParticipant (name : String) : ParticipantId := ⟨str name⟩

/-- Open a store with these options. -/
def testOpen (options : EpochRuntimeOptions) (n : UInt8) : Input :=
  .open ⟨options, testEntropy n, testEntropy n⟩ none

/-- Register a boot under the attempt `n`, in epoch one. -/
def testRegister (n : UInt8) (participant : ParticipantId) (boot : WorkerBootId) :
    RegisterParticipantRequest where
  attempt := smallId n
  expectedEpoch := smallCounter 1
  participant := participant
  boot := boot
  scopes := testScopes

/-- Grant the test scope to an incarnation, in epoch one. -/
def testGrant (n : UInt8) (participant : ParticipantId) (boot : WorkerBootId)
    (incarnation : IncarnationSequence) : GrantAuthorityRequest where
  attempt := smallId n
  expectedEpoch := smallCounter 1
  participant := participant
  boot := boot
  incarnation := incarnation
  scopes := testScopes

/-- Fence a boot, in epoch one. -/
def testFence (n : UInt8) (participant : ParticipantId) (boot : WorkerBootId) :
    FenceWorkerRequest where
  attempt := smallId n
  expectedEpoch := smallCounter 1
  participant := participant
  boot := boot

def callOf (call : Call) : Input := .call call (testEntropy 9) none

end FabricEpoch
