import FabricEpoch.Runtime.Ordering
import FabricEpoch.Runtime.Runs

/-!
# What becomes of a transaction

An operation throws, or has nothing to persist, or passes the durability
barrier, or fails at it. A save that fails has left the disk alone, or it has
replaced the image and could not raise the watermark.

- `SaveThrows`: the operation reaches its barrier, and the save throws;
- `TransactCase`: the four outcomes, with the memory and the disk they leave;
- `OpeningCase`: what becomes of an opening;
- `Stored.transact`: what an operation that persists has made true is true of
  the image;
- `Upholds.reachable_stored`: what is upheld in the memory holds of the image
  too, whatever fails on the way;
- `RecordStable.reachable`: so what every write to a record preserves holds of
  every record that is ever reached.
-/

namespace FabricEpoch

open Table Transaction
open ByteCodec (Bytes)

/-! ## A save that throws -/

/-- The operation has something to persist, and the save throws. -/
def SaveThrows {α : Type} (op : Op α) (fault : Option SaveFault) (disk : Disk) (impl : Impl) :
    Prop :=
  ∃ a t, op (Txn.start impl) = .ok a t ∧ t.mutated = true ∧
    (EpochStore.save (EpochStore.runtimeOptions t.state.options.limits) fault disk
      t.state.canonicalize.state).error ≠ none

instance {α : Type} (op : Op α) (fault : Option SaveFault) (disk : Disk) (impl : Impl) :
    Decidable (SaveThrows op fault disk impl) :=
  match h : op (Txn.start impl) with
  | .ok a t =>
    decidable_of_iff (t.mutated = true ∧
      (EpochStore.save (EpochStore.runtimeOptions t.state.options.limits) fault disk
        t.state.canonicalize.state).error ≠ none)
      ⟨fun hthrows => ⟨a, t, h, hthrows⟩, fun ⟨_, _, hrun, hthrows⟩ => by
        rw [h] at hrun
        cases hrun
        exact hthrows⟩
  | .error _ _ => isFalse fun ⟨_, _, hrun, _⟩ => by
      rw [h] at hrun
      cases hrun

/-- The memory behind a save that throws: the undo actions run on the canonical
state. -/
theorem SaveThrows.transact_impl {α : Type} {op : Op α} {fault : Option SaveFault} {disk : Disk}
    {impl : Impl} (h : SaveThrows op fault disk impl) :
    ∃ a t, op (Txn.start impl) = .ok a t ∧ t.mutated = true ∧
      (transact op fault disk impl).impl =
        ({ t with state := t.state.canonicalize }).rollback.rebuildIndexes := by
  obtain ⟨a, t, hrun, hmutated, hthrows⟩ := h
  refine ⟨a, t, hrun, hmutated, ?_⟩
  unfold transact
  rw [hrun]
  dsimp only
  rw [if_pos hmutated]
  unfold persist
  dsimp only
  cases herror : (EpochStore.save (EpochStore.runtimeOptions t.state.options.limits) fault disk
      t.state.canonicalize.state).error with
  | none => exact absurd herror hthrows
  | some e => rfl

/-! ## Outcomes -/

/-- The image was replaced by that of the state, or the disk was left alone. -/
def MayHold (disk disk' : Disk) (s : DurableState) : Prop :=
  disk' = disk ∨ ∃ image, EpochStore.encode s = .ok image ∧ disk'.image = some image

/-- **The four outcomes of a transaction.** -/
inductive TransactCase {α : Type} (op : Op α) (fault : Option SaveFault) (disk : Disk)
    (impl : Impl) : Transacted α → Prop
  | threw {e : EpochError} {t : Txn Impl} (run : op (Txn.start impl) = .error e t) :
      TransactCase op fault disk impl ⟨t.rollback, disk, .error e⟩
  | idle {a : α} {t : Txn Impl} (run : op (Txn.start impl) = .ok a t) (idle : t.mutated = false) :
      TransactCase op fault disk impl ⟨t.rollback, disk, .ok a⟩
  | failed {a : α} {t : Txn Impl} {e : EpochError} {disk' : Disk}
      (threw : SaveThrows op fault disk impl) (run : op (Txn.start impl) = .ok a t)
      (mutated : t.mutated = true) (written : MayHold disk disk' t.state.canonicalize.state) :
      TransactCase op fault disk impl
        ⟨(t.apply Impl.canonicalize).rollback.rebuildIndexes, disk', .error e⟩
  | saved {a : α} {t : Txn Impl} {image : Bytes} {disk' : Disk}
      (run : op (Txn.start impl) = .ok a t) (mutated : t.mutated = true)
      (encoded : EpochStore.encode t.state.canonicalize.state = .ok image)
      (written : disk'.image = some image) :
      TransactCase op fault disk impl ⟨t.state.canonicalize.rebuildIndexes, disk', .ok a⟩

theorem transact_cases {α : Type} (op : Op α) (fault : Option SaveFault) (disk : Disk)
    (impl : Impl) : TransactCase op fault disk impl (transact op fault disk impl) := by
  unfold transact
  cases hrun : op (Txn.start impl) with
  | error e t => exact .threw hrun
  | ok a t =>
    dsimp only
    by_cases hmutated : t.mutated = true
    swap
    · rw [if_neg hmutated]
      exact .idle hrun (by simpa using hmutated)
    rw [if_pos hmutated]
    unfold persist
    dsimp only
    have hsave := EpochStore.save_cases t.state.options.limits fault disk
      t.state.canonicalize.state
    have hthrows : (EpochStore.save (EpochStore.runtimeOptions t.state.options.limits) fault disk
        t.state.canonicalize.state).error ≠ none → SaveThrows op fault disk impl :=
      fun herror => ⟨a, t, hrun, hmutated, herror⟩
    generalize EpochStore.save (EpochStore.runtimeOptions t.state.options.limits) fault disk
      t.state.canonicalize.state = saved at hsave hthrows
    cases hsave with
    | unchanged e => exact .failed (hthrows (Option.some_ne_none e)) hrun hmutated (.inl rfl)
    | torn e encoded _ _ _ =>
      exact .failed (hthrows (Option.some_ne_none e)) hrun hmutated (.inr ⟨_, encoded, rfl⟩)
    | saved encoded _ => exact .saved hrun hmutated encoded rfl

/-- **The outcomes of an opening.** -/
inductive OpeningCase (opening : Opening) (fault : Option SaveFault) (disk : Disk) :
    Option Impl × Disk × Except EpochError Reply → Prop
  | refused {e : EpochError} : OpeningCase opening fault disk (none, disk, .error e)
  | kept {state : DurableState} {boot : CoordinatorBootId}
      (loaded : loadRuntime opening disk = .ok (state, boot)) :
      OpeningCase opening fault disk (some (opening.impl state boot), disk, .ok .opened)
  | established {state : DurableState} {boot : CoordinatorBootId} {cause : EpochTransitionCause}
      {u : Unit} {done : Transacted Unit}
      (loaded : loadRuntime opening disk = .ok (state, boot))
      (ran : transact (establishEpoch opening.transition boot cause (!state.currentEpoch.isZero))
        fault disk (opening.impl state boot) = done)
      (returned : done.result = .ok u) :
      OpeningCase opening fault disk (some done.impl, done.disk, .ok .opened)
  | thrown {state : DurableState} {boot : CoordinatorBootId} {cause : EpochTransitionCause}
      {e : EpochError} {done : Transacted Unit}
      (loaded : loadRuntime opening disk = .ok (state, boot))
      (ran : transact (establishEpoch opening.transition boot cause (!state.currentEpoch.isZero))
        fault disk (opening.impl state boot) = done)
      (threw : done.result = .error e) :
      OpeningCase opening fault disk (none, done.disk, .error e)

theorem openRuntime_cases (opening : Opening) (fault : Option SaveFault) (disk : Disk) :
    OpeningCase opening fault disk (openRuntime opening fault disk) := by
  unfold openRuntime
  cases hload : loadRuntime opening disk with
  | error e => exact .refused
  | ok loaded =>
    obtain ⟨state, boot⟩ := loaded
    dsimp only
    split
    · generalize (if (!state.currentEpoch.isZero) = true then
        EpochTransitionCause.coordinatorRestart else EpochTransitionCause.coordinatorStart) = cause
      generalize hdone : transact (establishEpoch opening.transition boot cause
        (!state.currentEpoch.isZero)) fault disk
          (Impl.ofState { opening.options with coordinatorBoot := some boot } state) = done
      cases hresult : done.result with
      | error e => exact .thrown hload hdone hresult
      | ok u => exact .established hload hdone hresult
    · split
      · exact .kept hload
      · exact .refused

section Stored

variable {P : DurableState → Prop} {disk disk' : Disk} {s : DurableState}

theorem Stored.mayHold (h : Stored P disk) (hwritten : MayHold disk disk' s)
    (hs : ValidDurable s → P s) : Stored P disk' := by
  rcases hwritten with rfl | ⟨image, hencode, himage⟩
  · exact h
  obtain ⟨-, hvalid, -⟩ := EpochStore.encode_ok.mp hencode
  refine ⟨fun hnone => ?_, fun image' himage' => ⟨s, ?_, hs hvalid⟩⟩
  · rw [himage] at hnone
    cases hnone
  · rw [himage] at himage'
    rw [hencode, Option.some.inj himage']

/-- **What holds of every state that an operation persists** holds of the image. -/
theorem Stored.transact {α : Type} {op : Op α} {impl : Impl} (h : Stored P disk)
    (hop : ∀ a t, op (Txn.start impl) = .ok a t → t.mutated = true →
      ValidDurable t.state.canonicalize.state → P t.state.canonicalize.state)
    (fault : Option SaveFault) : Stored P (FabricEpoch.transact op fault disk impl).disk := by
  have hcase := transact_cases op fault disk impl
  generalize FabricEpoch.transact op fault disk impl = done at hcase ⊢
  cases hcase with
  | threw _ => exact h
  | idle _ _ => exact h
  | failed _ run mutated written => exact h.mayHold written (hop _ _ run mutated)
  | saved run mutated encoded written =>
    exact h.mayHold (.inr ⟨_, encoded, written⟩) (hop _ _ run mutated)

/-- Flushing writes what the memory holds. -/
theorem Stored.flush {impl : Impl} (h : Stored P disk) (himpl : P impl.state) (entropy : Entropy)
    (fault : Option SaveFault) : Stored P (callRuntime .flush entropy fault disk impl).disk := by
  have hsave := EpochStore.save_cases impl.options.limits fault disk impl.state
  rw [callRuntime]
  generalize EpochStore.save (EpochStore.runtimeOptions impl.options.limits) fault disk impl.state =
    saved at hsave
  cases hsave with
  | unchanged e => exact h
  | torn e encoded _ _ _ => exact h.mayHold (.inr ⟨_, encoded, rfl⟩) fun _ => himpl
  | saved encoded _ => exact h.mayHold (.inr ⟨_, encoded, rfl⟩) fun _ => himpl

end Stored

/-! ## What is upheld holds of the image -/

namespace Upholds

variable {J : Impl → Prop} {I : Impl → Txn Impl → Prop} {P : DurableState → Prop} {impl : Impl}
  {disk : Disk}

/-- What is upheld holds behind a barrier, so it holds of what was saved there. -/
theorem transact_stored (h : Upholds J I) (hstate : ∀ s, J s → P s.state) {α : Type} {op : Op α}
    (hop : Composed op) (himpl : J impl) (fault : Option SaveFault) (hdisk : Stored P disk) :
    Stored P (FabricEpoch.transact op fault disk impl).disk := by
  refine hdisk.transact (fun a t hr _ _ => ?_) fault
  have hkept : I impl (after (op (Txn.start impl))) :=
    hop _ (h.primitives himpl) _ rfl (h.start himpl)
  rw [hr] at hkept
  exact hstate t.state.canonicalize.rebuildIndexes (h.committed himpl hkept)

theorem callRuntime_stored (h : Upholds J I) (hfree : SessionFree J)
    (hstate : ∀ s, J s → P s.state) (himpl : J impl) (call : Call) (entropy : Entropy)
    (fault : Option SaveFault) (hdisk : Stored P disk) :
    Stored P (FabricEpoch.callRuntime call entropy fault disk impl).disk := by
  cases call with
  | register request =>
    exact h.transact_stored hstate (stepwise_applyRegistration request true).composed himpl fault hdisk
  | registerBatch requests =>
    exact h.transact_stored hstate (stepwise_registerBatch requests).composed himpl fault hdisk
  | fence request =>
    exact h.transact_stored hstate (stepwise_fenceWorker request).composed himpl fault hdisk
  | grant request =>
    exact h.transact_stored hstate (composed_applyGrant entropy request) himpl fault hdisk
  | revoke request => exact h.transact_stored hstate (composed_applyRevoke request) himpl fault hdisk
  | advance request =>
    exact h.transact_stored hstate (stepwise_advanceEpoch entropy request).composed himpl fault hdisk
  | retire request =>
    exact h.transact_stored hstate (stepwise_applyRetire request).composed himpl fault hdisk
  | bind binding =>
    rw [FabricEpoch.callRuntime]
    split <;> exact hdisk
  | close session reason =>
    show Stored P (closeSession session reason fault disk impl).disk
    unfold closeSession
    split
    · exact hdisk
    · next binding _ =>
      exact h.transact_stored hstate (stepwise_fenceSession session binding reason).composed
        (hfree impl _ _ himpl) fault hdisk
  | flush => exact hdisk.flush (hstate impl himpl) entropy fault

theorem openRuntime_stored (h : Upholds J I) (hstate : ∀ s, J s → P s.state)
    {opening : Opening} (fault : Option SaveFault) (hdisk : Stored P disk)
    (hload : ∀ state boot, loadRuntime opening disk = .ok (state, boot) → J (opening.impl state boot)) :
    Stored P (FabricEpoch.openRuntime opening fault disk).2.1 := by
  have hcase := openRuntime_cases opening fault disk
  generalize FabricEpoch.openRuntime opening fault disk = opened at hcase ⊢
  cases hcase with
  | refused => exact hdisk
  | kept _ => exact hdisk
  | established loaded ran _ =>
    rw [← ran]
    exact h.transact_stored hstate (stepwise_establishEpoch _ _ _ _).composed (hload _ _ loaded) fault
      hdisk
  | thrown loaded ran _ =>
    rw [← ran]
    exact h.transact_stored hstate (stepwise_establishEpoch _ _ _ _).composed (hload _ _ loaded) fault
      hdisk

/-- **Invariant rule**: the memory keeps `J` and the image `P`, whatever fails
on the way, if a valid image with `P` is loaded into `J`. -/
theorem reachable_stored (h : Upholds J I) (hfree : SessionFree J) (hstate : ∀ s, J s → P s.state)
    (hblank : P initialState)
    (hload : ∀ options state, P state → ValidDurable state → J (Impl.ofState options state))
    {host : Host} (hreach : coordinator.Reaches (fun _ _ => True) host) :
    (∀ impl ∈ host.runtime, J impl) ∧ Stored P host.disk := by
  refine hreach.invariant (I := fun host => (∀ impl ∈ host.runtime, J impl) ∧ Stored P host.disk)
    ?_ fun host input hi _ => ?_
  · exact ⟨fun _ himpl => (nomatch himpl), fun _ => hblank, fun _ himage => (nomatch himage)⟩
  obtain ⟨hmemory, hdisk⟩ := hi
  cases input with
  | «open» opening fault =>
    have hloaded : ∀ state boot, loadRuntime opening host.disk = .ok (state, boot) →
        J (opening.impl state boot) := by
      intro state boot hok
      obtain ⟨hP, hvalid, -⟩ := hdisk.load (loadRuntime_ok hok).2.1
      exact hload _ state hP hvalid
    exact ⟨fun impl himpl => h.openRuntime hloaded himpl,
      h.openRuntime_stored hstate fault hdisk hloaded⟩
  | call call entropy fault =>
    cases hruntime : host.runtime with
    | none =>
      rw [coordinator_idle hruntime, hruntime]
      exact ⟨fun _ himpl => (nomatch himpl), hdisk⟩
    | some impl =>
      have hJ := hmemory impl hruntime
      rw [coordinator_call hruntime]
      refine ⟨fun impl' himpl' => ?_, h.callRuntime_stored hfree hstate hJ call entropy fault hdisk⟩
      cases himpl'
      exact h.callRuntime hfree hJ call entropy fault host.disk

end Upholds

/-! ## What holds of every record -/

/-- **What every write to a record preserves holds of all records** of every
reachable runtime, whatever fails on the way. -/
theorem RecordStable.reachable {Q : DurableParticipant → Prop} (hQ : RecordStable Q) {host : Host}
    (h : coordinator.Reaches (fun _ _ => True) host) {impl : Impl} (himpl : host.runtime = some impl) :
    ∀ p ∈ impl.state.participants, Q p := by
  have hboth := hQ.stable.upholds.reachable_stored (P := fun s => ∀ p ∈ s.participants, Q p)
    (fun _ _ _ hs => hs) (fun _ hs => hs) (fun _ hp => (nomatch hp)) (fun _ _ hs _ => hs) h
  exact hboth.1 impl himpl

/-- No record lists a live boot twice. -/
def Impl.LiveOnce (impl : Impl) : Prop := ∀ p ∈ impl.state.participants, p.liveBoots.Nodup

/-- **No record of a reachable runtime lists a live boot twice**, whatever fails
on the way. -/
theorem reachable_liveOnce {host : Host} (h : coordinator.Reaches (fun _ _ => True) host)
    {impl : Impl} (himpl : host.runtime = some impl) : impl.LiveOnce :=
  recordStable_liveOnce.reachable h himpl

end FabricEpoch
