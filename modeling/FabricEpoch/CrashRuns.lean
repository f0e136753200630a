import FabricEpoch.Crashes
import FabricEpoch.Lib.Accounts
import FabricEpoch.Runtime.Barrier

/-!
# Runs with crashes

The process of a coordinator may die at any moment: between two calls, or over a
call, with its save cut short at any stage. What was in memory is gone then, and
whoever called is told nothing.

- `Barriered`: what a call leaves to the durability barrier, so that a call is
  one save at most (`callRuntime_barriered`);
- `mortal`: the coordinator that may die;
- `Behind`, `Watched`: the disk of a crash is the disk without it, but for a
  watermark that may be behind;
- `crashes_simulated`: each step of the mortal coordinator stands for at most one
  step of a coordinator that never dies;
- `crashAtomic`: so every run with crashes is told as one without.
-/

namespace FabricEpoch

open Transaction
open ByteCodec (Bytes)

/-! ## The epoch in memory -/

theorem epoch_updateParticipant {E : Nat} {s : Impl} (id : ParticipantId)
    {f : DurableParticipant → DurableParticipant} (h : E ≤ s.state.currentEpoch.value) :
    E ≤ (s.updateParticipant id f).state.currentEpoch.value := by
  unfold Impl.updateParticipant
  split <;> exact h

theorem epoch_updateGrant {E : Nat} {s : Impl} (id : AuthorityGrantId)
    {f : AuthorityGrant → AuthorityGrant} (h : E ≤ s.state.currentEpoch.value) :
    E ≤ (s.updateGrant id f).state.currentEpoch.value := by
  unfold Impl.updateGrant
  split <;> exact h

/-- **Whatever throws, the memory never falls back behind an epoch it has
reached**: an undo action puts back the epoch its operation began in. -/
theorem epoch_stable (E : Nat) : Stable fun s => E ≤ s.state.currentEpoch.value where
  generation _ h := h
  floor _ h := h
  removal {s} id boot i h := by
    have hremoved := epoch_updateParticipant (E := E) id (f := (·.removeIncarnation boot)) h
    exact epoch_updateParticipant (s := (s.updateParticipant id (·.removeIncarnation
      boot)).setActiveWorkers (s.activeWorkers - 1)) id hremoved
  fence {s} id record h :=
    epoch_updateParticipant (s := s.setFenceFloor record.generation) (E := E) id (f := fun p =>
      (p.setFenceGeneration record.generation).retainFenced s.options.limits record.boot) h
  undoFence _ _ h := h
  preventive {s} id record h :=
    epoch_updateParticipant (s := s.setFenceFloor record.generation) (E := E) id
      (f := (·.setFenceGeneration record.generation)) h
  undoPreventive _ _ h := h
  create _ _ h := h
  pop h := h
  restore _ _ h := h
  register {s} request digest g i next h _ _ :=
    epoch_updateParticipant (s := s) (E := E) request.participant
      (f := (·.register s.options.limits request digest g i next)) h
  pushGrant _ h := h
  popGrant h := h
  stamp _ _ h := h
  remember id _ _ h := epoch_updateParticipant id h
  revoke id h := Impl.revokeFrom_keeps (P := fun s => E ≤ s.state.currentEpoch.value)
    (fun _ id _ hs => epoch_updateGrant id hs) id h
  undoRevoke g _ h := Impl.undoRevoke_keeps (P := fun s => E ≤ s.state.currentEpoch.value)
    (fun _ id _ hs => epoch_updateGrant id hs) (fun _ _ hs => hs) _ g h
  restamp id _ h := epoch_updateGrant id h
  control _ h := h
  enter {s epoch} boot h hnext := by
    have hsucc := MonotonicCounter.next_eq_some hnext
    show E ≤ epoch.value
    omega
  undoEpoch hbefore _ := hbefore
  invalidate h := h
  transition _ h := h
  retire id h := epoch_updateParticipant id h
  undoRetire _ _ h := h
  canonicalize h := h
  rebuild h := h

/-! ## One save at most -/

/-- What a call leaves to its barrier: nothing any more, or a memory to save, with
the memory behind a save that throws and the answer behind one that returns. -/
inductive Barriered (α : Type) where
  | clear (impl : Impl) (result : Except EpochError α)
  | due (limits : Limits) (saved restored : Impl) (answer : α)

namespace Barriered

variable {α β : Type}

def perform (fault : Option SaveFault) (disk : Disk) : Barriered α → Transacted α
  | .clear impl result => ⟨impl, disk, result⟩
  | .due limits saved restored answer =>
    let done := EpochStore.save (EpochStore.runtimeOptions limits) fault disk saved.state
    match done.error with
    | some e => ⟨restored, done.disk, .error e⟩
    | none => ⟨saved, done.disk, .ok answer⟩

def map (f : α → β) : Barriered α → Barriered β
  | .clear impl result => .clear impl (result.map f)
  | .due limits saved restored answer => .due limits saved restored (f answer)

theorem perform_map (f : α → β) (fault : Option SaveFault) (disk : Disk) (b : Barriered α) :
    (b.map f).perform fault disk = (b.perform fault disk).map f := by
  cases b with
  | clear impl result => rfl
  | due limits saved restored answer =>
    show Barriered.perform fault disk (.due limits saved restored (f answer)) = _
    unfold perform
    dsimp only
    split <;> rfl

end Barriered

/-- The operation up to its barrier. -/
def barrierOf {α : Type} (op : Op α) (impl : Impl) : Barriered α :=
  match op (Txn.start impl) with
  | .error e t => .clear t.rollback (.error e)
  | .ok a t =>
    if t.mutated then
      .due t.state.options.limits t.state.canonicalize.rebuildIndexes
        ({ t with state := t.state.canonicalize }).rollback.rebuildIndexes a
    else .clear t.rollback (.ok a)

theorem transact_barriered {α : Type} (op : Op α) (fault : Option SaveFault) (disk : Disk)
    (impl : Impl) : transact op fault disk impl = (barrierOf op impl).perform fault disk := by
  unfold transact barrierOf
  cases op (Txn.start impl) with
  | error e t => rfl
  | ok a t =>
    dsimp only
    by_cases hmutated : t.mutated = true
    · rw [if_pos hmutated, if_pos hmutated]
      rfl
    · rw [if_neg hmutated, if_neg hmutated]
      rfl

/-- A call up to its barrier. -/
def callBarrier (call : Call) (entropy : Entropy) (impl : Impl) : Barriered Reply :=
  match call with
  | .register request => (barrierOf (applyRegistration request true) impl).map .registered
  | .registerBatch requests => (barrierOf (registerBatch requests) impl).map .registeredBatch
  | .fence request => (barrierOf (fenceWorker request) impl).map .fenced
  | .grant request => (barrierOf (applyGrant entropy request) impl).map .granted
  | .revoke request => (barrierOf (applyRevoke request) impl).map .revoked
  | .advance request => (barrierOf (advanceEpoch entropy request) impl).map .advanced
  | .retire request => (barrierOf (applyRetire request) impl).map .retired
  | .bind binding =>
    match impl.bindSession binding with
    | .error e => .clear impl (.error e)
    | .ok (accepted, impl) => .clear impl (.ok (.bound accepted))
  | .close session reason =>
    match impl.sessionIndex.find? fun s => s.id = session with
    | none => .clear impl (.ok (.fenced (impl.sessionClosed session "session is not bound")))
    | some binding =>
      (barrierOf (fenceSession session binding reason) (impl.eraseSession binding)).map .fenced
  | .flush => .due impl.options.limits impl impl .flushed

/-- **A call is one save at most**, and whatever leads up to it does not look at
the disk. -/
theorem callRuntime_barriered (call : Call) (entropy : Entropy) (fault : Option SaveFault)
    (disk : Disk) (impl : Impl) :
    callRuntime call entropy fault disk impl = (callBarrier call entropy impl).perform fault disk := by
  have htransact : ∀ {α : Type} (op : Op α) (f : α → Reply) (impl : Impl),
      (transact op fault disk impl).map f = ((barrierOf op impl).map f).perform fault disk := by
    intro α op f impl
    rw [transact_barriered, Barriered.perform_map]
  cases call with
  | bind binding =>
    simp only [callRuntime, callBarrier]
    cases impl.bindSession binding with
    | error e => rfl
    | ok bound => rfl
  | close session reason =>
    simp only [callRuntime, closeSession, callBarrier]
    cases impl.sessionIndex.find? fun s => s.id = session with
    | none => rfl
    | some binding => exact htransact _ _ _
  | flush => rfl
  | _ => exact htransact _ _ _

/-- An opening up to its barrier. -/
def Opening.barrier (opening : Opening) (state : DurableState) (boot : CoordinatorBootId) :
    Barriered Reply :=
  let established := !state.currentEpoch.isZero
  if opening.options.advanceEpochOnOpen then
    let cause := if established then EpochTransitionCause.coordinatorRestart else .coordinatorStart
    (barrierOf (establishEpoch opening.transition boot cause established)
      (opening.impl state boot)).map fun _ => .opened
  else if established then .clear (opening.impl state boot) (.ok .opened)
  else .clear (opening.impl state boot) (.error (invalidArgument
    "durable store has no established epoch and advance_epoch_on_open is false"))

/-- The runtime that a constructor leaves: none when it throws. -/
def constructed (impl : Impl) : Except EpochError Reply → Option Impl
  | .ok _ => some impl
  | .error _ => none

/-- **So is an opening**, once the image has been loaded. -/
theorem openRuntime_barriered {opening : Opening} {disk : Disk} {state : DurableState}
    {boot : CoordinatorBootId} (hload : loadRuntime opening disk = .ok (state, boot))
    (fault : Option SaveFault) : openRuntime opening fault disk =
      (constructed ((opening.barrier state boot).perform fault disk).impl
        ((opening.barrier state boot).perform fault disk).result,
        ((opening.barrier state boot).perform fault disk).disk,
        ((opening.barrier state boot).perform fault disk).result) := by
  unfold openRuntime Opening.barrier
  rw [hload]
  dsimp only
  by_cases hadvance : opening.options.advanceEpochOnOpen = true
  · rw [if_pos hadvance, if_pos hadvance, Barriered.perform_map, ← transact_barriered]
    generalize (if (!state.currentEpoch.isZero) = true then EpochTransitionCause.coordinatorRestart
      else EpochTransitionCause.coordinatorStart) = cause
    have hsame : opening.impl state boot =
        Impl.ofState { opening.options with coordinatorBoot := some boot } state := rfl
    rw [hsame]
    generalize transact _ fault disk _ = done
    obtain ⟨impl', disk', result⟩ := done
    cases result with
    | error e => rfl
    | ok u => rfl
  · rw [if_neg hadvance, if_neg hadvance]
    by_cases hestablished : (!state.currentEpoch.isZero) = true
    · rw [if_pos hestablished, if_pos hestablished]
      rfl
    · rw [if_neg hestablished, if_neg hestablished]
      rfl

/-! ## What a save leaves on two disks -/

/-- The watermark of the disk is read as `w`. -/
def Disk.Marked (disk : Disk) (w : Nat) : Prop :=
  ∀ limits, EpochStore.readWatermark (EpochStore.runtimeOptions limits) disk = .ok w

theorem Disk.marked_blank : Disk.blank.Marked 0 := fun _ => rfl

/-- The watermark does not depend on the image. -/
theorem Disk.Marked.image {disk : Disk} {w : Nat} (h : disk.Marked w) (image : Option Bytes) :
    Disk.Marked { disk with image } w := h

theorem Disk.Marked.written {disk : Disk} {w : Nat} (h : disk.Marked w) (s : DurableState)
    (image : Bytes) : (EpochStore.writtenDisk disk s image w).Marked (max w s.currentEpoch.value) := by
  intro limits
  unfold EpochStore.writtenDisk
  by_cases hraise : s.currentEpoch.value > w
  · rw [if_pos hraise, Nat.max_eq_right (Nat.le_of_lt hraise)]
    exact EpochStore.parseWatermark_text _
  · rw [if_neg hraise, Nat.max_eq_left (by omega)]
    exact h limits

/-- What is decoded of the image; a store without one holds the initial state. -/
def Disk.recorded (limits : Limits) (disk : Disk) : Except EpochError DurableState :=
  match disk.image with
  | none => .ok initialState
  | some image => EpochStore.decode (EpochStore.runtimeOptions limits) image

/-- A watermark that is not above what is recorded does not stop a load. -/
theorem load_recorded {limits : Limits} {disk : Disk} {w : Nat} (hmarked : disk.Marked w)
    (hbelow : ∀ state, disk.recorded limits = .ok state → w ≤ state.currentEpoch.value) :
    EpochStore.load (EpochStore.runtimeOptions limits) disk = disk.recorded limits := by
  unfold EpochStore.load
  cases himage : disk.image with
  | none =>
    rw [Disk.recorded, himage]
    rfl
  | some image =>
    have hrecorded : disk.recorded limits =
        EpochStore.decode (EpochStore.runtimeOptions limits) image := by
      rw [Disk.recorded, himage]
    rw [hrecorded] at hbelow ⊢
    dsimp only
    cases hdecode : EpochStore.decode (EpochStore.runtimeOptions limits) image with
    | error e => rfl
    | ok state =>
      have hle : w ≤ state.currentEpoch.value := hbelow state hdecode
      have henabled : (EpochStore.runtimeOptions limits).enableRollbackWatermark = true := rfl
      refine Checks.bind_ok.mpr ⟨state, rfl, ?_⟩
      rw [if_pos henabled]
      exact Checks.bind_ok.mpr ⟨w, hmarked limits, Checks.bind_refuseIf.mpr ⟨by omega, rfl⟩⟩

/-- A save leaves the disk alone, or replaces the image, or raises the watermark
behind it as well. -/
theorem save_leaves {limits : Limits} {fault : Option SaveFault} {disk : Disk} {s : DurableState}
    {w : Nat} (hmarked : disk.Marked w) :
    (EpochStore.save (EpochStore.runtimeOptions limits) fault disk s).disk = disk ∨
      ∃ image, EpochStore.encode s = .ok image ∧
        ((EpochStore.save (EpochStore.runtimeOptions limits) fault disk s).disk =
            { disk with image := some image } ∨
          (EpochStore.save (EpochStore.runtimeOptions limits) fault disk s).disk =
            EpochStore.writtenDisk disk s image w) := by
  have hcase := EpochStore.save_cases limits fault disk s
  generalize EpochStore.save (EpochStore.runtimeOptions limits) fault disk s = done at hcase ⊢
  cases hcase with
  | unchanged e => exact .inl rfl
  | torn e encoded _ _ _ => exact .inr ⟨_, encoded, .inl rfl⟩
  | saved encoded read =>
    obtain rfl := Except.ok.inj ((hmarked limits).symm.trans read)
    exact .inr ⟨_, encoded, .inr rfl⟩

/-- What a barrier does to every disk whose watermark can be read: it leaves all of
them alone, or it saves one and the same state. -/
inductive BarrierCase {α : Type} (b : Barriered α) : Prop
  | settled (impl : Impl) (result : Except EpochError α)
      (alone : ∀ fault disk, (b.perform fault disk).disk = disk)
      (performed : ∀ disk w, disk.Marked w → b.perform none disk = ⟨impl, disk, result⟩)
  | saves (impl : Impl) (answer : α) (image : Bytes)
      (encoded : EpochStore.encode impl.state = .ok image)
      (performed : ∀ disk w, disk.Marked w → b.perform none disk =
        ⟨impl, EpochStore.writtenDisk disk impl.state image w, .ok answer⟩)
      (cut : ∀ fault disk w, disk.Marked w → (b.perform fault disk).disk = disk ∨
        (b.perform fault disk).disk = { disk with image := some image } ∨
        (b.perform fault disk).disk = EpochStore.writtenDisk disk impl.state image w)

theorem Barriered.cases {α : Type} (b : Barriered α) : BarrierCase b := by
  cases b with
  | clear impl result => exact .settled impl result (fun _ _ => rfl) fun _ _ _ => rfl
  | due limits saved restored answer =>
    have hdisk : ∀ fault disk, (perform fault disk (.due limits saved restored answer)).disk =
        (EpochStore.save (EpochStore.runtimeOptions limits) fault disk saved.state).disk := by
      intro fault disk
      unfold perform
      dsimp only
      split <;> rfl
    cases hencode : EpochStore.encode saved.state with
    | error e =>
      refine .settled restored (.error e) (fun fault disk => ?_) fun disk w hmarked => ?_
      · rw [hdisk]
        have hcase := EpochStore.save_cases limits fault disk saved.state
        generalize EpochStore.save (EpochStore.runtimeOptions limits) fault disk saved.state = done
          at hcase ⊢
        cases hcase with
        | unchanged e => rfl
        | torn e encoded _ _ _ =>
          rw [hencode] at encoded
          cases encoded
        | saved encoded _ =>
          rw [hencode] at encoded
          cases encoded
      · have hsave : EpochStore.save (EpochStore.runtimeOptions limits) none disk saved.state =
            ⟨some e, disk⟩ := by
          simp only [EpochStore.save, EpochStore.faultAt_none, hmarked limits, hencode]
        simp only [perform, hsave]
    | ok image =>
      refine .saves saved answer image hencode (fun disk w hmarked => ?_) fun fault disk w hmarked => ?_
      · have hsave := EpochStore.save_of_encode hencode (hmarked limits)
        simp only [perform, hsave]
      · rw [hdisk]
        rcases save_leaves (s := saved.state) hmarked with hsame | ⟨image', hencode', hdone⟩
        · exact .inl hsame
        · rw [hencode] at hencode'
          cases hencode'
          exact .inr hdone

/-! ## The coordinator that may die -/

/-- The input, with the file system failing where it is told to. -/
def Input.withFault (fault : Option SaveFault) : Input → Input
  | .open opening _ => .open opening fault
  | .call c entropy _ => .call c entropy fault

/-- What happens to a process and the store behind it. -/
inductive Incident where
  /-- An input, on a file system that performs every write. -/
  | step (input : Input)
  /-- The process dies over an input, its save cut short at the fault of the
  input, if there is one. -/
  | crash (input : Input)

/-- A coordinator that may die. What is on disk stays there; the memory is gone,
and there is no answer. -/
def mortal : Machine Host Incident Answer where
  init := ⟨.blank, none⟩
  step host
    | .step input => coordinator.step host (input.withFault none)
    | .crash input => (⟨(coordinator.step host input).1.disk, none⟩, none)

/-- The stages of a save are what a process can die at: however many file
operations of the save were performed, the two files are what some fault leaves. -/
theorem crash_isFault {limits : Limits} {dir : EpochStore.StoreDirectory} {a : EpochStore.Attempt}
    {cs : List (Directory.Command EpochStore.StoreFile UInt8)}
    (h : a.saveCommands (EpochStore.runtimeOptions limits) dir = .ok cs) (k : Nat) :
    ∃ fault, EpochStore.diskOf (dir.performAll (cs.take k)) =
      (EpochStore.save (EpochStore.runtimeOptions limits) fault (EpochStore.diskOf dir) a.state).disk := by
  have hall : (EpochStore.save (EpochStore.runtimeOptions limits) none (EpochStore.diskOf dir)
      a.state).disk = EpochStore.diskOf (dir.performAll cs) := by
    rw [EpochStore.saveCommands_save, h]
  obtain ⟨previous, image, hread, hencode, rfl⟩ := EpochStore.saveCommands_ok.mp h
  rcases EpochStore.diskOf_take (EpochStore.runtimeOptions limits) dir a image previous k with
    ⟨hlong, hdisk⟩ | ⟨hshort, hdisk | hdisk⟩
  · -- the save was complete
    refine ⟨none, ?_⟩
    rw [hall, List.take_of_length_le hlong]
  · -- the image is still the old one
    refine ⟨some ⟨.writeTemporary, ioFailure ""⟩, ?_⟩
    rw [hdisk]
    unfold EpochStore.save
    simp [EpochStore.faultAt, hread, hencode, EpochStore.writeImage]
  · by_cases hdue : a.state.currentEpoch.value > previous
    · -- the image is in place, the watermark is still due
      refine ⟨some ⟨.writeWatermark, ioFailure ""⟩, ?_⟩
      have hraise : (EpochStore.runtimeOptions limits).enableRollbackWatermark = true ∧
          a.state.currentEpoch.value > previous := ⟨rfl, hdue⟩
      rw [hdisk]
      unfold EpochStore.save
      simp only [EpochStore.faultAt, hread, hencode, EpochStore.writeImage]
      simp [hraise]
      rfl
    · refine ⟨none, ?_⟩
      rw [hdisk, EpochStore.save_of_encode hencode hread, EpochStore.writtenDisk, if_neg hdue]
      rfl

/-- How an event is told to have happened: as it was answered; not at all, since
nobody was there or the process died too early; or as a whole, though nobody heard
of it. -/
inductive Told : Incident → Answer → List (Input × Answer) → Prop
  | answered (input : Input) (result : Except EpochError Reply) :
      Told (.step input) (some result) [(input.withFault none, some result)]
  | idle (input : Input) : Told (.step input) none []
  | lost (input : Input) : Told (.crash input) none []
  | unheard (input : Input) (reply : Reply) :
      Told (.crash input) none [(input.withFault none, some (.ok reply))]

/-- The file system performs every write of the input. -/
def Input.Unfailing (input : Input) : Prop := input.withFault none = input

theorem Input.unfailing_withFault (input : Input) : (input.withFault none).Unfailing := by
  cases input <;> rfl

/-! ## The simulation -/

/-- The watermark is not above what is recorded, nor above the memory. -/
structure Watched (host : Host) (w : Nat) : Prop where
  marked : host.disk.Marked w
  recorded : ∀ limits state, host.disk.recorded limits = .ok state → w ≤ state.currentEpoch.value
  memory : ∀ impl ∈ host.runtime, w ≤ impl.state.currentEpoch.value

/-- The disk with the crashes is the disk without them, under a watermark that may
be behind. -/
structure Behind (disk : Disk) (host : Host) : Prop where
  image : disk.image = host.disk.image
  watermark : ∃ w w', disk.Marked w ∧ Watched host w' ∧ w ≤ w'

/-- The host with the crashes follows the one without: its runtime is that of the
other one, unless it has died. -/
structure Follows (host host' : Host) : Prop where
  disk : Behind host.disk host'
  runtime : host.runtime = none ∨ host.runtime = host'.runtime

theorem follows_init : Follows mortal.init coordinator.init where
  disk := by
    refine ⟨rfl, 0, 0, Disk.marked_blank, ⟨Disk.marked_blank, ?_, ?_⟩, Nat.le_refl _⟩
    · intro _ _ _
      exact Nat.zero_le _
    · intro _ _
      exact Nat.zero_le _
  runtime := .inl rfl

/-- The disk behind a save: the image is that of the memory. -/
theorem Watched.written {host : Host} {w : Nat} (h : Watched host w) {impl : Impl} {image : Bytes}
    (hencode : EpochStore.encode impl.state = .ok image) (hle : w ≤ impl.state.currentEpoch.value) :
    Watched ⟨EpochStore.writtenDisk host.disk impl.state image w, some impl⟩
      (max w impl.state.currentEpoch.value) where
  marked := h.marked.written impl.state image
  recorded := by
    intro limits state hrecorded
    have hdecode : EpochStore.decode (EpochStore.runtimeOptions limits) image = .ok state := hrecorded
    rw [EpochStore.decode_only hencode hdecode]
    exact Nat.max_le.mpr ⟨hle, Nat.le_refl _⟩
  memory := by
    intro impl' himpl'
    cases himpl'
    exact Nat.max_le.mpr ⟨hle, Nat.le_refl _⟩

/-- The host behind a barrier, when `keep` says what becomes of the memory. -/
def Transacted.host (keep : Impl → Except EpochError Reply → Option Impl)
    (done : Transacted Reply) : Host :=
  ⟨done.disk, keep done.impl done.result⟩

section Barriers

variable {disk : Disk} {host : Host} {b : Barriered Reply}
  {keep : Impl → Except EpochError Reply → Option Impl}

theorem Watched.passed {w : Nat} (h : Watched host w)
    (hkeep : ∀ impl reply, keep impl (.ok reply) = some impl) {impl : Impl} {answer : Reply}
    {image : Bytes} (hencode : EpochStore.encode impl.state = .ok image)
    (hkept : ∀ impl' ∈ keep impl (.ok answer), w ≤ impl'.state.currentEpoch.value) :
    Watched (Transacted.host keep
      ⟨impl, EpochStore.writtenDisk host.disk impl.state image w, .ok answer⟩)
      (max w impl.state.currentEpoch.value) := by
  have hsame : Transacted.host keep
      ⟨impl, EpochStore.writtenDisk host.disk impl.state image w, .ok answer⟩ =
        ⟨EpochStore.writtenDisk host.disk impl.state image w, some impl⟩ := by
    unfold Transacted.host
    rw [hkeep]
  rw [hsame]
  exact h.written hencode (hkept impl (hkeep impl answer))

variable (b keep) in
/-- **A barrier that is passed on both disks** leads to the same memory and the
same answer. -/
theorem Behind.performed (h : Behind disk host)
    (hkeep : ∀ impl reply, keep impl (.ok reply) = some impl)
    (hmemory : ∀ w, (∀ impl ∈ host.runtime, w ≤ impl.state.currentEpoch.value) →
      (∀ limits state, host.disk.recorded limits = .ok state → w ≤ state.currentEpoch.value) →
      ∀ impl ∈ ((b.perform none host.disk).host keep).runtime, w ≤ impl.state.currentEpoch.value) :
    (b.perform none disk).result = (b.perform none host.disk).result ∧
      Follows ((b.perform none disk).host keep) ((b.perform none host.disk).host keep) := by
  obtain ⟨himage, w, w', hmarked, hwatched, hle⟩ := h
  have hkept := hmemory w' hwatched.memory hwatched.recorded
  cases b.cases with
  | settled impl result alone performed =>
    rw [performed disk w hmarked, performed host.disk w' hwatched.marked] at *
    refine ⟨rfl, ⟨himage, w, w', hmarked, ?_, hle⟩, .inr rfl⟩
    exact ⟨hwatched.marked, hwatched.recorded, hkept⟩
  | saves impl answer image encoded performed cut =>
    rw [performed disk w hmarked, performed host.disk w' hwatched.marked] at *
    exact ⟨rfl, ⟨rfl, _, _, hmarked.written _ _, hwatched.passed hkeep encoded hkept, by omega⟩, .inr rfl⟩

variable (b keep) in
/-- **A barrier at which the process dies**: it was not passed, or it was passed as
a whole. -/
theorem Behind.died (h : Behind disk host) (fault : Option SaveFault)
    (hkeep : ∀ impl reply, keep impl (.ok reply) = some impl)
    (hmemory : ∀ w, (∀ impl ∈ host.runtime, w ≤ impl.state.currentEpoch.value) →
      (∀ limits state, host.disk.recorded limits = .ok state → w ≤ state.currentEpoch.value) →
      ∀ impl ∈ ((b.perform none host.disk).host keep).runtime, w ≤ impl.state.currentEpoch.value) :
    (b.perform fault disk).disk = disk ∨ (∃ reply, (b.perform none host.disk).result = .ok reply) ∧
      Behind (b.perform fault disk).disk ((b.perform none host.disk).host keep) := by
  obtain ⟨himage, w, w', hmarked, hwatched, hle⟩ := h
  have hkept := hmemory w' hwatched.memory hwatched.recorded
  cases b.cases with
  | settled impl result alone performed => exact .inl (alone fault disk)
  | saves impl answer image encoded performed cut =>
    rw [performed host.disk w' hwatched.marked] at *
    have hall := hwatched.passed hkeep encoded hkept
    rcases cut fault disk w hmarked with hsame | himageOnly | hwritten
    · exact .inl hsame
    · -- the image is in place, the watermark is not raised
      rw [himageOnly]
      exact .inr ⟨⟨answer, rfl⟩, rfl, w, _, hmarked.image _, hall, by omega⟩
    · rw [hwritten]
      exact .inr ⟨⟨answer, rfl⟩, rfl, _, _, hmarked.written _ _, hall, by omega⟩

end Barriers

/-- What was loaded is what is recorded. -/
theorem recorded_of_load {limits : Limits} {disk : Disk} {state : DurableState}
    (h : EpochStore.load (EpochStore.runtimeOptions limits) disk = .ok state) :
    disk.recorded limits = .ok state := by
  unfold EpochStore.load at h
  unfold Disk.recorded
  cases himage : disk.image with
  | none =>
    rw [himage] at h
    exact h
  | some image =>
    rw [himage] at h
    obtain ⟨s, hdecode, h⟩ := Checks.bind_ok.mp h
    have henabled : (EpochStore.runtimeOptions limits).enableRollbackWatermark = true := rfl
    rw [if_pos henabled] at h
    obtain ⟨w, -, h⟩ := Checks.bind_ok.mp h
    rw [Checks.bind_refuseIf] at h
    rw [Checks.pure_ok.mp h.2]
    exact hdecode

/-- Both disks are loaded alike. -/
theorem Behind.loadRuntime {disk : Disk} {host : Host} (h : Behind disk host) (opening : Opening) :
    loadRuntime opening disk = loadRuntime opening host.disk := by
  obtain ⟨himage, w, w', hmarked, hwatched, hle⟩ := h
  have hrecorded : ∀ limits, disk.recorded limits = host.disk.recorded limits := by
    intro limits
    rw [Disk.recorded, Disk.recorded, himage]
  have hload : EpochStore.load (EpochStore.runtimeOptions opening.options.limits) disk =
      EpochStore.load (EpochStore.runtimeOptions opening.options.limits) host.disk := by
    rw [load_recorded hwatched.marked (hwatched.recorded _), load_recorded hmarked, hrecorded]
    intro state hstate
    rw [hrecorded] at hstate
    exact Nat.le_trans hle (hwatched.recorded _ state hstate)
  unfold FabricEpoch.loadRuntime
  rw [hload]

/-- A call keeps its memory, whatever it answers. -/
def called (impl : Impl) (_ : Except EpochError Reply) : Option Impl := some impl

section Steps

variable {host host' : Host} {impl : Impl}

/-- A call of a live runtime, as its barrier. -/
theorem call_barriered (himpl : host.runtime = some impl) (c : Call) (entropy : Entropy)
    (fault : Option SaveFault) : coordinator.step host (.call c entropy fault) =
      (((callBarrier c entropy impl).perform fault host.disk).host called,
        some ((callBarrier c entropy impl).perform fault host.disk).result) := by
  rw [coordinator_call himpl, callRuntime_barriered]
  rfl

/-- An opening that has loaded the image, as its barrier. -/
theorem open_barriered {opening : Opening} {state : DurableState} {boot : CoordinatorBootId}
    (hload : loadRuntime opening host.disk = .ok (state, boot)) (fault : Option SaveFault) :
    coordinator.step host (.open opening fault) =
      (((opening.barrier state boot).perform fault host.disk).host constructed,
        some ((opening.barrier state boot).perform fault host.disk).result) := by
  show ((⟨(openRuntime opening fault host.disk).2.1, (openRuntime opening fault host.disk).1⟩ : Host),
    some (openRuntime opening fault host.disk).2.2) = _
  rw [openRuntime_barriered hload]
  rfl

/-- An opening that cannot load leaves the disk alone and no runtime behind. -/
theorem open_refused {opening : Opening} {e : EpochError}
    (hload : loadRuntime opening host.disk = .error e) (fault : Option SaveFault) :
    coordinator.step host (.open opening fault) = (⟨host.disk, none⟩, some (.error e)) := by
  show ((⟨(openRuntime opening fault host.disk).2.1, (openRuntime opening fault host.disk).1⟩ : Host),
    some (openRuntime opening fault host.disk).2.2) = _
  unfold openRuntime
  rw [hload]

/-- The memory behind a call is not behind what the memory in front of it had
reached. -/
theorem call_watched (himpl : host.runtime = some impl) (c : Call) (entropy : Entropy) (w : Nat)
    (h : ∀ impl ∈ host.runtime, w ≤ impl.state.currentEpoch.value) :
    ∀ impl' ∈ (((callBarrier c entropy impl).perform none host.disk).host called).runtime,
      w ≤ impl'.state.currentEpoch.value := by
  intro impl' himpl'
  cases himpl'
  rw [← callRuntime_barriered]
  exact (epoch_stable w).upholds.callRuntime (fun _ _ _ h => h) (h impl himpl) c entropy none _

/-- Nor is that behind an opening behind the image. -/
theorem open_watched {opening : Opening} {state : DurableState} {boot : CoordinatorBootId}
    (hload : loadRuntime opening host.disk = .ok (state, boot)) (w : Nat)
    (h : ∀ limits state, host.disk.recorded limits = .ok state → w ≤ state.currentEpoch.value) :
    ∀ impl' ∈ (((opening.barrier state boot).perform none host.disk).host constructed).runtime,
      w ≤ impl'.state.currentEpoch.value := by
  intro impl' himpl'
  have hopen : (openRuntime opening none host.disk).1 = some impl' := by
    rw [openRuntime_barriered hload]
    exact himpl'
  refine (epoch_stable w).upholds.openRuntime (fun state' boot' hload' => ?_) hopen
  obtain ⟨-, hloaded, -⟩ := loadRuntime_ok hload'
  exact h _ state' (recorded_of_load hloaded)

end Steps

section Events

variable {host host' : Host}

/-- A live process is the one that never dies. -/
theorem Follows.alive {host host' : Host} (h : Follows host host') {impl : Impl}
    (himpl : host.runtime = some impl) : host'.runtime = some impl := by
  rcases h.runtime with hdead | hlive
  · rw [himpl] at hdead
    cases hdead
  · rw [← hlive, himpl]

/-- An opening leads both to the same memory, with the same answer. -/
theorem Follows.opened (h : Follows host host') (opening : Opening) : ∃ result,
    (coordinator.step host (.open opening none)).2 = some result ∧
      (coordinator.step host' (.open opening none)).2 = some result ∧
        Follows (coordinator.step host (.open opening none)).1
          (coordinator.step host' (.open opening none)).1 := by
  have hsame := h.disk.loadRuntime opening
  cases hload : loadRuntime opening host'.disk with
  | error e =>
    rw [hload] at hsame
    rw [open_refused hsame, open_refused hload]
    obtain ⟨himage, w, w', hmarked, hwatched, hle⟩ := h.disk
    refine ⟨.error e, rfl, rfl, ⟨himage, w, w', hmarked, ?_, hle⟩, .inl rfl⟩
    exact ⟨hwatched.marked, hwatched.recorded, fun _ himpl => by cases himpl⟩
  | ok loaded =>
    obtain ⟨state, boot⟩ := loaded
    rw [hload] at hsame
    rw [open_barriered hsame, open_barriered hload]
    obtain ⟨hresult, hfollows⟩ := h.disk.performed (opening.barrier state boot)
      constructed (fun _ _ => rfl) fun w _ => open_watched hload w
    exact ⟨_, congrArg some hresult, rfl, hfollows⟩

/-- A call of the live runtime leads both to the same memory, with the same
answer. -/
theorem Follows.called (h : Follows host host') {impl : Impl} (himpl : host.runtime = some impl)
    (c : Call) (entropy : Entropy) : ∃ result,
    (coordinator.step host (.call c entropy none)).2 = some result ∧
      (coordinator.step host' (.call c entropy none)).2 = some result ∧
        Follows (coordinator.step host (.call c entropy none)).1
          (coordinator.step host' (.call c entropy none)).1 := by
  have himpl' := h.alive himpl
  rw [call_barriered himpl, call_barriered himpl']
  obtain ⟨hresult, hfollows⟩ := h.disk.performed (callBarrier c entropy impl)
    FabricEpoch.called (fun _ _ => rfl) fun w hw _ => call_watched himpl' c entropy w hw
  exact ⟨_, congrArg some hresult, rfl, hfollows⟩

/-- **A process that dies over an input** has left the disk alone, or the disk is
what the input makes of it. -/
theorem Follows.died (h : Follows host host') (input : Input) :
    (coordinator.step host input).1.disk = host.disk ∨
      (∃ reply, (coordinator.step host' (input.withFault none)).2 = some (.ok reply)) ∧
        Behind (coordinator.step host input).1.disk
          (coordinator.step host' (input.withFault none)).1 := by
  cases input with
  | «open» opening fault =>
    show _ ∨ (∃ reply, (coordinator.step host' (.open opening none)).2 = some (.ok reply)) ∧
      Behind _ (coordinator.step host' (.open opening none)).1
    have hsame := h.disk.loadRuntime opening
    cases hload : loadRuntime opening host'.disk with
    | error e =>
      rw [hload] at hsame
      rw [open_refused hsame]
      exact .inl rfl
    | ok loaded =>
      obtain ⟨state, boot⟩ := loaded
      rw [hload] at hsame
      rw [open_barriered hsame, open_barriered hload]
      rcases h.disk.died (opening.barrier state boot) constructed fault
        (fun _ _ => rfl) (fun w _ => open_watched hload w) with hleft | ⟨⟨reply, hreply⟩, hbehind⟩
      · exact .inl hleft
      · exact .inr ⟨⟨reply, congrArg some hreply⟩, hbehind⟩
  | call c entropy fault =>
    show _ ∨ (∃ reply, (coordinator.step host' (.call c entropy none)).2 = some (.ok reply)) ∧
      Behind _ (coordinator.step host' (.call c entropy none)).1
    cases himpl : host.runtime with
    | none =>
      rw [coordinator_idle himpl]
      exact .inl rfl
    | some impl =>
      have himpl' := h.alive himpl
      rw [call_barriered himpl, call_barriered himpl']
      rcases h.disk.died (callBarrier c entropy impl) FabricEpoch.called fault
        (fun _ _ => rfl) (fun w hw _ => call_watched himpl' c entropy w hw) with
        hleft | ⟨⟨reply, hreply⟩, hbehind⟩
      · exact .inl hleft
      · exact .inr ⟨⟨reply, congrArg some hreply⟩, hbehind⟩

/-- **One event** stands for at most one step of the coordinator that never
dies. -/
theorem crashes_simulated :
    Machine.Simulation mortal coordinator Follows Input.Unfailing Told where
  step host host' event h := by
    -- the other one does nothing
    have hnothing : Follows (mortal.step host event).1 host' →
        Told event (mortal.step host event).2 [] → ∃ inputs : List Input,
          (∀ input ∈ inputs, input.Unfailing) ∧
            Follows (mortal.step host event).1 (coordinator.run host' inputs) ∧
              Told event (mortal.step host event).2 (coordinator.history host' inputs) := by
      intro hfollows htold
      exact ⟨[], by simp, hfollows, htold⟩
    -- the other one takes the input
    have hone : ∀ input : Input, Follows (mortal.step host event).1
        (coordinator.step host' (input.withFault none)).1 → Told event (mortal.step host event).2
          [(input.withFault none, (coordinator.step host' (input.withFault none)).2)] →
        ∃ inputs : List Input, (∀ input ∈ inputs, input.Unfailing) ∧
          Follows (mortal.step host event).1 (coordinator.run host' inputs) ∧
            Told event (mortal.step host event).2 (coordinator.history host' inputs) := by
      intro input hfollows htold
      refine ⟨[input.withFault none], ?_, hfollows, htold⟩
      intro i hi
      rw [List.mem_singleton.mp hi]
      exact input.unfailing_withFault
    cases event with
    | step input =>
      cases input with
      | «open» opening fault =>
        obtain ⟨result, hanswer, hanswer', hfollows⟩ := h.opened opening
        refine hone (.open opening fault) hfollows ?_
        show Told _ (coordinator.step host (.open opening none)).2
          [(_, (coordinator.step host' (.open opening none)).2)]
        rw [hanswer, hanswer']
        exact .answered _ _
      | call c entropy fault =>
        cases himpl : host.runtime with
        | none =>
          have hidle : mortal.step host (.step (.call c entropy fault)) = (host, none) :=
            coordinator_idle himpl c entropy none
          rw [hidle] at hnothing ⊢
          exact hnothing h (.idle _)
        | some impl =>
          obtain ⟨result, hanswer, hanswer', hfollows⟩ := h.called himpl c entropy
          refine hone (.call c entropy fault) hfollows ?_
          show Told _ (coordinator.step host (.call c entropy none)).2
            [(_, (coordinator.step host' (.call c entropy none)).2)]
          rw [hanswer, hanswer']
          exact .answered _ _
    | crash input =>
      rcases h.died input with hleft | ⟨⟨reply, hreply⟩, hbehind⟩
      · refine hnothing ⟨?_, .inl rfl⟩ (.lost input)
        show Behind (coordinator.step host input).1.disk host'
        rw [hleft]
        exact h.disk
      · refine hone input ⟨hbehind, .inl rfl⟩ ?_
        show Told _ none [(_, (coordinator.step host' (input.withFault none)).2)]
        rw [hreply]
        exact .unheard input reply

end Events

/-- **Crashes are atomic.** Whenever the process dies, between two calls or over
one, with its save cut short at any stage: there is a run that never dies, on a
file system that performs every write, in which every call that was answered is
answered the same way, in the same order, and every call that was cut short happens
as a whole or not at all. The image on disk is the same, and so is the memory while
the process is alive. -/
theorem crashAtomic (events : List Incident) : ∃ inputs : List Input,
    (∀ input ∈ inputs, input.Unfailing) ∧
      Accounts Told (mortal.history mortal.init events)
        (coordinator.history coordinator.init inputs) ∧
      (mortal.run mortal.init events).disk.image =
        (coordinator.run coordinator.init inputs).disk.image ∧
      ((mortal.run mortal.init events).runtime = none ∨
        (mortal.run mortal.init events).runtime =
          (coordinator.run coordinator.init inputs).runtime) := by
  obtain ⟨inputs, hunfailing, hfollows, htold⟩ := crashes_simulated.run follows_init events
  exact ⟨inputs, hunfailing, htold, hfollows.disk.image, hfollows.runtime⟩

end FabricEpoch
