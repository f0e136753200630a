import FabricEpoch.Runtime.Commits

/-!
# Runs in which no call throws

A call that does not throw has taken the durable state through moves, and has
saved it or left it alone. So what the moves preserve holds of the memory and
of the image on disk in every state such a run reaches.

- `Settled`: the memory between two calls. Its fence lookups tell what the
  records say (`Settled.agrees`);
- `Call.Sound`, `Opening.Sound`: what is trusted of an input;
- `callRuntime_progress`, `openRuntime_progress`: one step;
- `quietRun_invariant`: the invariant rule.
-/

namespace FabricEpoch

open Table Transaction

/-! ## Memories at rest -/

namespace Impl

/-- The memory between two calls: lookups are right, the fence index included. -/
structure Settled (impl : Impl) : Prop where
  regular : impl.Regular
  fences : impl.fenceIndex = groupBy (fun f => [f.boot]) impl.state.recentFences

theorem Settled.rebuild {impl : Impl} (h : Orderly impl.state) : impl.rebuildIndexes.Settled :=
  ⟨.rebuild h, rfl⟩

/-- **A settled memory looks fences up as the records say.** -/
theorem Settled.agrees {impl : Impl} (h : impl.Settled) (id : ParticipantId)
    (boot : WorkerBootId) : impl.FenceAgrees id boot := by
  have hat : ∀ i r, impl.fenceRecordAt id i = some r ↔
      impl.state.recentFences[i]? = some r ∧ r.participant = id := by
    intro i r
    unfold fenceRecordAt
    cases impl.state.recentFences[i]? with
    | none => simp
    | some record =>
      dsimp only
      split
      · next hid =>
        rw [Option.some.injEq]
        exact ⟨fun heq => ⟨heq, heq ▸ hid⟩, fun heq => heq.1⟩
      · next hid =>
        rw [Option.some.injEq]
        exact ⟨fun heq => (nomatch heq), fun heq => absurd (heq.1 ▸ heq.2) hid⟩
  unfold FenceAgrees lookupFence DurableState.Fenced
  rw [h.fences]
  cases hsome : (groupBy (fun f => [f.boot]) impl.state.recentFences boot).findSome?
      (impl.fenceRecordAt id) with
  | some record =>
    obtain ⟨i, hi, hrecord⟩ := List.exists_of_findSome?_eq_some hsome
    obtain ⟨hget, hid⟩ := (hat i record).mp hrecord
    obtain ⟨record', hget', hboot⟩ := mem_groupBy.mp hi
    obtain rfl : record = record' := Option.some.inj (hget.symm.trans hget')
    exact iff_of_true rfl
      (.inl ⟨record, List.mem_of_getElem? hget, hid, (List.mem_singleton.mp hboot).symm⟩)
  | none =>
    rw [List.findSome?_eq_none_iff] at hsome
    have hnone : ¬ ∃ r ∈ impl.state.recentFences, r.participant = id ∧ r.boot = boot := by
      rintro ⟨r, hr, hid, rfl⟩
      obtain ⟨i, hi⟩ := List.mem_iff_getElem?.mp hr
      have := hsome i (mem_groupBy.mpr ⟨r, hi, List.mem_singleton_self _⟩)
      rw [(hat i r).mpr ⟨hi, hid⟩] at this
      cases this
    rw [or_iff_right hnone]
    dsimp only
    rw [h.regular.find]
    cases hp : impl.state.lookup id with
    | none =>
      refine iff_of_false Bool.false_ne_true ?_
      rintro ⟨p, hmem, hid, -⟩
      exact lookup_none.mp hp p hmem hid
    | some p =>
      dsimp only
      rw [List.contains_iff_mem]
      constructor
      · intro hboot
        exact ⟨p, (DurableState.mem_of_lookup hp).1, (DurableState.mem_of_lookup hp).2, hboot⟩
      · rintro ⟨q, hq, hid, hboot⟩
        rwa [h.regular.orderly.eq_of_lookup hp hq hid] at hboot

theorem Settled.lookupsAgree {impl : Impl} (h : impl.Settled)
    (request : RegisterParticipantRequest) : impl.LookupsAgree request :=
  ⟨h.agrees _ _, fun _ _ _ _ => h.agrees _ _⟩

theorem Settled.of_same {impl impl' : Impl} (h : impl.Settled) (hstate : impl'.state = impl.state)
    (hsame : SameLookups impl impl') : impl'.Settled := by
  have hids : impl'.ids = impl.ids := by rw [ids, ids, hstate]
  refine ⟨h.regular.of_same hsame hids (by rw [hstate]) (by rw [hstate]; exact h.regular.orderly),
    ?_⟩
  rw [hsame.fenceIndex, h.fences, hstate]

end Impl

/-! ## One transaction -/

/-- What a step that does not throw has done to the memory and the disk. -/
structure Progress (T : Trust) (impl : Impl) (disk : Disk) (impl' : Impl) (disk' : Disk) :
    Prop where
  settled : impl'.Settled
  options : impl'.options = impl.options
  moves : Moves T impl.options.limits impl.state impl'.state
  saved : disk' = disk ∧ impl'.state = impl.state ∨ ∃ image previous,
    EpochStore.encode impl'.state = .ok image ∧
      disk' = EpochStore.writtenDisk disk impl'.state image previous

theorem Progress.refl {T : Trust} {impl : Impl} (h : impl.Settled) (disk : Disk) :
    Progress T impl disk impl disk :=
  ⟨h, rfl, .refl, .inl ⟨rfl, rfl⟩⟩

theorem insertionSort_perm (ps : List DurableParticipant) :
    ps.Perm (ps.insertionSort fun a b => a.id ≤ b.id) :=
  (List.perm_insertionSort _ ps).symm

/-- A save that does not throw has written the image of the state. -/
theorem save_ok {limits : Limits} {fault : Option SaveFault} {disk : Disk} {state : DurableState}
    (h : (EpochStore.save (EpochStore.runtimeOptions limits) fault disk state).error = none) :
    ∃ image previous, EpochStore.encode state = .ok image ∧
      (EpochStore.save (EpochStore.runtimeOptions limits) fault disk state).disk =
        EpochStore.writtenDisk disk state image previous := by
  have hcases := EpochStore.save_cases limits fault disk state
  revert h hcases
  generalize EpochStore.save (EpochStore.runtimeOptions limits) fault disk state = saved
  intro h hcases
  cases hcases with
  | unchanged e => cases h
  | torn e _ _ _ _ => cases h
  | saved encoded read => exact ⟨_, _, encoded, rfl⟩

/-- An operation that changes nothing leaves everything as it is. -/
theorem transact_idle {α : Type} {op : Op α} {impl : Impl} {a : α}
    (h : op (Txn.start impl) = .ok a (Txn.start impl)) (fault : Option SaveFault) (disk : Disk) :
    transact op fault disk impl = ⟨impl, disk, .ok a⟩ := by
  unfold transact
  rw [h]
  rfl

/-- **A transaction that does not throw**: it had nothing to persist, or its
canonical state was saved. -/
theorem transact_ok {α : Type} {op : Op α} {fault : Option SaveFault} {disk : Disk} {impl : Impl}
    {a : α} (h : (transact op fault disk impl).result = .ok a) :
    ∃ t, op (Txn.start impl) = .ok a t ∧
      (t.mutated = false ∧ transact op fault disk impl = ⟨t.rollback, disk, .ok a⟩ ∨
        t.mutated = true ∧ ∃ image previous,
          EpochStore.encode t.state.canonicalize.state = .ok image ∧
          transact op fault disk impl = ⟨t.state.canonicalize.rebuildIndexes,
            EpochStore.writtenDisk disk t.state.canonicalize.state image previous, .ok a⟩) := by
  unfold transact at h ⊢
  cases hr : op (Txn.start impl) with
  | error e t =>
    rw [hr] at h
    cases h
  | ok b t =>
    rw [hr] at h
    dsimp only at h ⊢
    cases hmutated : t.mutated with
    | false =>
      rw [hmutated] at h
      cases h
      exact ⟨t, rfl, .inl ⟨hmutated, by simp⟩⟩
    | true =>
      rw [hmutated, if_pos rfl] at h
      rw [if_pos rfl]
      unfold persist at h ⊢
      dsimp only at h ⊢
      cases herror : (EpochStore.save (EpochStore.runtimeOptions t.state.options.limits) fault disk
          t.state.canonicalize.state).error with
      | some e =>
        rw [herror] at h
        cases h
      | none =>
        rw [herror] at h
        cases h
        obtain ⟨image, previous, hencode, hdisk⟩ := save_ok herror
        exact ⟨t, rfl, .inr ⟨hmutated, image, previous, hencode, by rw [hdisk]⟩⟩

/-- The state behind a transaction that does not throw is the one its
operation left, up to the order of the records. -/
theorem transact_state {T : Trust} {limits : Limits} {α : Type} {op : Op α}
    {fault : Option SaveFault} {disk : Disk} {impl : Impl} {a : α}
    (hop : ∀ t, op (Txn.start impl) = .ok a t → Advanced T limits (Txn.start impl) t)
    (h : (transact op fault disk impl).result = .ok a) :
    ∃ t ps, op (Txn.start impl) = .ok a t ∧ t.state.state.participants.Perm ps ∧
      (transact op fault disk impl).impl.state = { t.state.state with participants := ps } := by
  obtain ⟨t, ht, ⟨hidle, heq⟩ | ⟨-, image, previous, -, heq⟩⟩ := transact_ok h
  · rcases (hop t ht).marked with rfl | hmarked
    · refine ⟨_, impl.state.participants, ht, List.Perm.refl _, ?_⟩
      rw [heq]
      rfl
    · rw [hidle] at hmarked
      cases hmarked
  · refine ⟨t, _, ht, insertionSort_perm _, ?_⟩
    rw [heq]
    rfl

theorem transact_progress {T : Trust} {α : Type} {op : Op α} {fault : Option SaveFault}
    {disk : Disk} {impl : Impl} {a : α} (hs : impl.Settled)
    (hop : ∀ t, op (Txn.start impl) = .ok a t →
      Advanced T impl.options.limits (Txn.start impl) t)
    (h : (transact op fault disk impl).result = .ok a) :
    Progress T impl disk (transact op fault disk impl).impl (transact op fault disk impl).disk := by
  obtain ⟨t, ht, ⟨hidle, heq⟩ | ⟨hmutated, image, previous, hencode, heq⟩⟩ := transact_ok h
  · rw [heq]
    rcases (hop t ht).marked with rfl | hmarked
    · exact .refl hs disk
    · rw [hidle] at hmarked
      cases hmarked
  · rw [heq]
    have hadvanced := hop t ht
    have hmoves : Moves T impl.options.limits impl.state t.state.canonicalize.state :=
      hadvanced.moves.tail (.reorder (insertionSort_perm _))
    exact ⟨.rebuild (Moves.orderly hmoves hs.regular.orderly), hadvanced.options, hmoves,
      .inr ⟨image, previous, hencode, rfl⟩⟩

/-! ## One call -/

/-- What is trusted of a call. -/
def Call.Sound (T : Trust) (entropy : Entropy) (impl : Impl) : Call → Prop
  | .register request =>
    (T.boots → impl.NotElsewhere request) ∧ (T.texts → request.WellFormed)
  | .registerBatch requests =>
    (T.fences → AlongBatch Impl.LookupsAgree requests (Txn.start impl)) ∧
      (T.boots → AlongBatch Impl.NotElsewhere requests (Txn.start impl)) ∧
      (T.texts → ∀ request ∈ requests, request.WellFormed)
  | .fence request => T.texts → request.note.Storable
  | .grant request =>
    (T.generator → entropy.Fresh (impl.state.grants.map (·.id))) ∧ (T.texts → request.WellFormed)
  | .advance _ =>
    (T.generator → entropy.Fresh (impl.state.transitions.map (·.id))) ∧
      (T.texts → impl.options.provenance.Storable)
  | .retire request =>
    (T.boots → ∀ p, impl.state.lookup request.participant = some p →
      AlongFences request.participant request.note p.liveBoots (Txn.start impl)) ∧
      (T.texts → request.note.Storable)
  | .revoke _ => True
  | .bind _ => True
  | .close .. => True
  | .flush => True

/-- The value behind an answer, and the answer it is tagged as. -/
theorem Transacted.map_ok {α β : Type} {f : α → β} {x : Transacted α} {b : β}
    (h : (x.map f).result = .ok b) : ∃ a, x.result = .ok a ∧ b = f a := by
  have hmapped : x.result.map f = .ok b := h
  cases hr : x.result with
  | ok a =>
    rw [hr] at hmapped
    exact ⟨a, rfl, (Except.ok.inj hmapped).symm⟩
  | error e =>
    rw [hr] at hmapped
    cases hmapped

theorem Transacted.map_result_ok {α β : Type} {f : α → β} {x : Transacted α} {b : β}
    (h : (x.map f).result = .ok b) : ∃ a, x.result = .ok a := by
  obtain ⟨a, ha, -⟩ := map_ok h
  exact ⟨a, ha⟩

theorem Transacted.of_map {α β : Type} {f : α → β} (hf : Function.Injective f) {x : Transacted α}
    {a : α} (h : (x.map f).result = .ok (f a)) : x.result = .ok a := by
  obtain ⟨b, hb, heq⟩ := map_ok h
  rw [hb, hf heq]

/-- **A call that does not throw.** -/
theorem callRuntime_progress {T : Trust} (hT : T.boots → T.fences) {call : Call}
    {entropy : Entropy} {fault : Option SaveFault} {disk : Disk} {impl : Impl} {reply : Reply}
    (hs : impl.Settled) (hi : T.fences → Incumbency impl.state)
    (hsound : call.Sound T entropy impl)
    (h : (callRuntime call entropy fault disk impl).result = .ok reply) :
    Progress T impl disk (callRuntime call entropy fault disk impl).impl
      (callRuntime call entropy fault disk impl).disk := by
  cases call with
  | register request =>
    obtain ⟨a, ha⟩ := Transacted.map_result_ok h
    exact transact_progress hs (fun t ht => applyRegistration_advanced hs.regular rfl hi
      (fun _ => hs.lookupsAgree request) hsound.1 hsound.2 ht) ha
  | registerBatch requests =>
    obtain ⟨a, ha⟩ := Transacted.map_result_ok h
    exact transact_progress hs (fun t ht => registerBatch_advanced hs.regular rfl rfl hi
      hsound.1 hsound.2.1 hsound.2.2 ht) ha
  | fence request =>
    obtain ⟨a, ha⟩ := Transacted.map_result_ok h
    exact transact_progress hs (fun t ht => fenceWorker_advanced hs.regular rfl rfl hi
      (fun _ => hs.agrees _ _) hsound ht) ha
  | grant request =>
    obtain ⟨a, ha⟩ := Transacted.map_result_ok h
    exact transact_progress hs (fun t ht => applyGrant_advanced hs.regular rfl hsound.1 hsound.2 ht)
      ha
  | revoke request =>
    obtain ⟨a, ha⟩ := Transacted.map_result_ok h
    exact transact_progress hs (fun t ht => applyRevoke_advanced hs.regular rfl ht) ha
  | advance request =>
    obtain ⟨a, ha⟩ := Transacted.map_result_ok h
    exact transact_progress hs (fun t ht => advanceEpoch_advanced hs.regular hsound.1 hsound.2 ht)
      ha
  | retire request =>
    obtain ⟨a, ha⟩ := Transacted.map_result_ok h
    exact transact_progress hs (fun t ht => applyRetire_advanced hs.regular rfl hi
      (fun hb => ⟨hT hb, hsound.1 hb⟩) hsound.2 ht) ha
  | bind binding =>
    rw [callRuntime] at h ⊢
    cases hr : impl.bindSession binding with
    | error e =>
      rw [hr] at h
      cases h
    | ok bound =>
      unfold Impl.bindSession at hr
      split at hr
      · cases hr
        exact .refl hs disk
      · split at hr
        · cases hr
        · cases hr
          exact ⟨hs.of_same rfl ⟨rfl, rfl, rfl, rfl⟩, rfl, .refl, .inl ⟨rfl, rfl⟩⟩
  | close session reason =>
    obtain ⟨a, ha⟩ := Transacted.map_result_ok h
    show Progress T impl disk (closeSession session reason fault disk impl).impl
      (closeSession session reason fault disk impl).disk
    unfold closeSession at ha ⊢
    split
    · exact .refl hs disk
    · next binding hbinding =>
      simp only [hbinding] at ha
      have hs' : (impl.eraseSession binding).Settled := hs.of_same rfl ⟨rfl, rfl, rfl, rfl⟩
      obtain ⟨hsettled, hoptions, hmoves, hsaved⟩ := transact_progress (T := T) hs'
        (fun t ht => fenceSession_advanced hs'.regular rfl hi ht) ha
      exact ⟨hsettled, hoptions, hmoves, hsaved⟩
  | flush =>
    simp only [callRuntime] at h ⊢
    cases herror : (EpochStore.save (EpochStore.runtimeOptions impl.options.limits) fault disk
        impl.state).error with
    | some e =>
      simp only [herror] at h
      cases h
    | none =>
      obtain ⟨image, previous, hencode, hdisk⟩ := save_ok herror
      exact ⟨hs, rfl, .refl, .inr ⟨image, previous, hencode, hdisk⟩⟩

/-! ## One opening -/

/-- What is trusted of an opening over a loaded state. -/
def Opening.Sound (T : Trust) (state : DurableState) (opening : Opening) : Prop :=
  (T.generator → opening.transition.Fresh (state.transitions.map (·.id))) ∧
    (T.texts → opening.options.provenance.Storable)

/-- The memory an opening starts from. -/
def Opening.impl (opening : Opening) (state : DurableState) (boot : CoordinatorBootId) : Impl :=
  Impl.ofState { opening.options with coordinatorBoot := some boot } state

/-- The epoch that an opening establishes is the next one. -/
theorem establishEpoch_epoch {entropy : Entropy} {boot : CoordinatorBootId}
    {cause : EpochTransitionCause} {invalidate : Bool} {fault : Option SaveFault} {disk : Disk}
    {impl : Impl} {u : Unit}
    (h : (transact (establishEpoch entropy boot cause invalidate) fault disk impl).result = .ok u) :
    (transact (establishEpoch entropy boot cause invalidate) fault disk
      impl).impl.state.currentEpoch.value = impl.state.currentEpoch.value + 1 := by
  obtain ⟨t, ht, hcases⟩ := transact_ok h
  obtain ⟨⟨⟩, t', hmutate, hmark⟩ := Action.bind_ok.mp ht
  cases hmark
  obtain ⟨epoch, generation, id, hepoch, -, -, hstate, -⟩ := mutateEpoch_ok hmutate
  have hnext := MonotonicCounter.next_eq_some hepoch
  rcases hcases with ⟨hidle, -⟩ | ⟨-, image, previous, -, heq⟩
  · cases hidle
  · rw [heq]
    show t'.state.state.currentEpoch.value = _
    rw [hstate]
    exact hnext

/-- **How an opening can succeed**: it establishes the next epoch over the loaded
state, or takes an established state as it is. -/
inductive OpenedCase (opening : Opening) (fault : Option SaveFault) (disk : Disk)
    (state : DurableState) (boot : CoordinatorBootId) : Option Impl × Disk → Prop
  | established {cause : EpochTransitionCause} {u : Unit}
      (transition : (transact (establishEpoch opening.transition boot cause
        (!state.currentEpoch.isZero)) fault disk (opening.impl state boot)).result = .ok u) :
      OpenedCase opening fault disk state boot
        (some (transact (establishEpoch opening.transition boot cause
          (!state.currentEpoch.isZero)) fault disk (opening.impl state boot)).impl,
        (transact (establishEpoch opening.transition boot cause
          (!state.currentEpoch.isZero)) fault disk (opening.impl state boot)).disk)
  | kept (established : state.currentEpoch.value ≠ 0) :
      OpenedCase opening fault disk state boot (some (opening.impl state boot), disk)

theorem openRuntime_ok {opening : Opening} {fault : Option SaveFault} {disk : Disk} {reply : Reply}
    (h : (openRuntime opening fault disk).2.2 = .ok reply) :
    ∃ state boot, EpochStore.load (EpochStore.runtimeOptions opening.options.limits) disk =
      .ok state ∧ OpenedCase opening fault disk state boot
        ((openRuntime opening fault disk).1, (openRuntime opening fault disk).2.1) := by
  unfold openRuntime at h ⊢
  cases hr : loadRuntime opening disk with
  | error e =>
    rw [hr] at h
    cases h
  | ok loaded =>
    obtain ⟨state, boot⟩ := loaded
    rw [hr] at h
    obtain ⟨-, hload, -⟩ := loadRuntime_ok hr
    refine ⟨state, boot, hload, ?_⟩
    dsimp only at h ⊢
    split at h
    · next hadvance =>
      rw [if_pos hadvance]
      generalize (if (!state.currentEpoch.isZero) = true then
        EpochTransitionCause.coordinatorRestart else EpochTransitionCause.coordinatorStart) = cause at *
      cases hresult : (transact (establishEpoch opening.transition boot cause
          (!state.currentEpoch.isZero)) fault disk (opening.impl state boot)).result with
      | error e =>
        simp only [Opening.impl] at hresult
        simp only [hresult] at h
        cases h
      | ok u =>
        have hcase := OpenedCase.established hresult
        simp only [Opening.impl] at hresult hcase ⊢
        simp only [hresult]
        exact hcase
    · next hkeep =>
      rw [if_neg hkeep]
      split at h
      · next hestablished =>
        rw [if_pos hestablished]
        refine .kept fun hz => ?_
        have : state.currentEpoch.isZero = true := MonotonicCounter.isZero_iff.mpr hz
        rw [this] at hestablished
        cases hestablished
      · cases h

/-- An epoch that is not the first one invalidates what is live. -/
theorem isZero_not {d : CounterDomain} {c : MonotonicCounter d} (h : c.value ≠ 0) :
    (!c.isZero) = true := by
  cases hz : c.isZero with
  | false => rfl
  | true => exact absurd (MonotonicCounter.isZero_iff.mp hz) h

/-- **An opening that does not throw** moves on from the loaded state. -/
theorem openRuntime_progress {T : Trust} {opening : Opening} {fault : Option SaveFault}
    {disk : Disk} {reply : Reply}
    (hload : ∀ state, EpochStore.load (EpochStore.runtimeOptions opening.options.limits) disk =
      .ok state → Orderly state ∧ opening.Sound T state)
    (h : (openRuntime opening fault disk).2.2 = .ok reply) :
    ∃ impl' state boot, (openRuntime opening fault disk).1 = some impl' ∧
      EpochStore.load (EpochStore.runtimeOptions opening.options.limits) disk = .ok state ∧
      Progress T (opening.impl state boot) disk impl' (openRuntime opening fault disk).2.1 ∧
      impl'.state.currentEpoch.value ≠ 0 := by
  obtain ⟨state, boot, hloaded, hcase⟩ := openRuntime_ok h
  obtain ⟨horderly, hsound⟩ := hload state hloaded
  have hs : (opening.impl state boot).Settled := .rebuild horderly
  generalize (openRuntime opening fault disk).1 = opened at hcase ⊢
  generalize (openRuntime opening fault disk).2.1 = disk' at hcase ⊢
  cases hcase with
  | established transition =>
    have hprogress := transact_progress (T := T) hs (fun t ht =>
      establishEpoch_advanced hs.regular isZero_not hsound.1 hsound.2 ht) transition
    refine ⟨_, state, boot, rfl, hloaded, hprogress, ?_⟩
    rw [establishEpoch_epoch transition]
    exact Nat.succ_ne_zero _
  | kept established => exact ⟨_, state, boot, rfl, hloaded, .refl hs disk, established⟩

/-! ## Runs -/

/-- The image on disk was made of a state with the property; where there is no
image, the initial state has it. -/
structure Stored (P : DurableState → Prop) (disk : Disk) : Prop where
  blank : disk.image = none → P initialState
  image : ∀ image, disk.image = some image → ∃ s, EpochStore.encode s = .ok image ∧ P s

/-- What is loaded has the property, and is valid. -/
theorem Stored.load {P : DurableState → Prop} {disk : Disk} (h : Stored P disk)
    {limits : Limits} {state : DurableState}
    (hload : EpochStore.load (EpochStore.runtimeOptions limits) disk = .ok state) :
    P state ∧ ValidDurable state ∧ (state.currentEpoch.value ≠ 0 →
      ∃ image, disk.image = some image ∧ EpochStore.encode state = .ok image) := by
  unfold EpochStore.load at hload
  cases himage : disk.image with
  | none =>
    simp only [himage] at hload
    cases hload
    exact ⟨h.blank himage, EpochStore.validDurable_initial, fun h => absurd rfl h⟩
  | some image =>
    simp only [himage] at hload
    obtain ⟨s, hs, hP⟩ := h.image image himage
    obtain ⟨s', hdecode, hload⟩ := Checks.bind_ok.mp hload
    have heq : state = s' := by
      rw [if_pos (show (EpochStore.runtimeOptions limits).enableRollbackWatermark = true from rfl),
        Checks.bind_ok] at hload
      obtain ⟨w, -, hload⟩ := hload
      rw [Checks.bind_refuseIf, Checks.pure_ok] at hload
      exact hload.2
    subst heq
    obtain rfl := EpochStore.decode_only hs hdecode
    obtain ⟨-, hvalid, -⟩ := EpochStore.encode_ok.mp hs
    exact ⟨hP, hvalid, fun _ => ⟨image, rfl, hs⟩⟩

/-- The step does not throw. -/
def Quietly (host : Host) (input : Input) : Prop :=
  ∀ e, (coordinator.step host input).2 ≠ some (.error e)

instance (host : Host) (input : Input) : Decidable (Quietly host input) :=
  match h : (coordinator.step host input).2 with
  | some (.error e) => isFalse fun hq => hq e h
  | some (.ok _) => isTrue fun _ he => by rw [h] at he; cases he
  | none => isTrue fun _ he => by rw [h] at he; cases he

/-- A quiet step leaves a runtime behind. -/
theorem quietStep_runtime {host : Host} {impl : Impl} (himpl : host.runtime = some impl)
    {input : Input} (h : Quietly host input) :
    ∃ impl', (coordinator.step host input).1.runtime = some impl' := by
  cases input with
  | «open» opening fault =>
    cases hr : (openRuntime opening fault host.disk).2.2 with
    | error e => exact absurd (congrArg some hr) (h e)
    | ok reply =>
      show ∃ impl', (openRuntime opening fault host.disk).1 = some impl'
      revert hr
      unfold openRuntime
      split
      · intro hr
        cases hr
      · dsimp only
        split
        · split
          · intro hr
            cases hr
          · exact fun _ => ⟨_, rfl⟩
        · split
          · exact fun _ => ⟨_, rfl⟩
          · intro hr
            cases hr
  | call call entropy fault =>
    rw [coordinator_call himpl]
    exact ⟨_, rfl⟩

/-- What is trusted of an input. -/
def Input.Sound (T : Trust) (host : Host) : Input → Prop
  | .open opening _ => ∀ state, EpochStore.load
      (EpochStore.runtimeOptions opening.options.limits) host.disk = .ok state →
        opening.Sound T state
  | .call c entropy _ => ∀ impl ∈ host.runtime, c.Sound T entropy impl

/-- The property holds of the memory and of the image. -/
structure Holds (P : DurableState → Prop) (host : Host) : Prop where
  disk : Stored P host.disk
  memory : ∀ impl ∈ host.runtime, impl.Settled ∧ P impl.state ∧ ValidDurable impl.state ∧
    impl.state.currentEpoch.value ≠ 0
  saved : ∀ impl ∈ host.runtime,
    ∃ image, host.disk.image = some image ∧ EpochStore.encode impl.state = .ok image

/-- The memory is what was saved last, so what it has the image has. -/
theorem Holds.refine {P P' : DurableState → Prop} {host : Host} (h : Holds P host) {impl : Impl}
    (himpl : host.runtime = some impl) (hP : P' impl.state) : Holds P' host := by
  obtain ⟨image, himage, hencode⟩ := h.saved impl himpl
  refine ⟨⟨fun hnone => ?_, fun image' himage' => ⟨impl.state, ?_, hP⟩⟩, fun impl' himpl' => ?_,
    h.saved⟩
  · rw [himage] at hnone
    cases hnone
  · rw [himage] at himage'
    rw [hencode, Option.some.inj himage']
  · obtain rfl : impl = impl' := Option.some.inj (himpl.symm.trans himpl')
    obtain ⟨hsettled, -, hvalid, hepoch⟩ := h.memory impl himpl
    exact ⟨hsettled, hP, hvalid, hepoch⟩

/-- A property that moves preserve. -/
structure Preserved (T : Trust) (P : DurableState → Prop) : Prop where
  trust : T.boots → T.fences
  orderly : ∀ s, P s → Orderly s
  incumbency : T.fences → ∀ s, P s → Incumbency s
  moves : ∀ limits s s', Moves T limits s s' → P s → P s'

theorem Progress.holds {T : Trust} {P : DurableState → Prop} (hP : Preserved T P) {impl impl' : Impl}
    {disk disk' : Disk} (h : Progress T impl disk impl' disk') (hdisk : Stored P disk)
    (hstate : P impl.state) (hvalid : ValidDurable impl.state)
    (hsaved : ∃ image, disk.image = some image ∧ EpochStore.encode impl.state = .ok image ∨
      impl'.state.currentEpoch ≠ impl.state.currentEpoch) :
    Stored P disk' ∧ P impl'.state ∧ ValidDurable impl'.state ∧
      ∃ image, disk'.image = some image ∧ EpochStore.encode impl'.state = .ok image := by
  have hstate' := hP.moves _ _ _ h.moves hstate
  rcases h.saved with ⟨hsame, heq⟩ | ⟨image, previous, hencode, hwritten⟩
  · rw [hsame, heq]
    obtain ⟨image, hsaved | hne⟩ := hsaved
    · exact ⟨hdisk, hstate, hvalid, image, hsaved⟩
    · exact absurd (congrArg DurableState.currentEpoch heq) hne
  · obtain ⟨-, hvalid', -⟩ := EpochStore.encode_ok.mp hencode
    rw [hwritten]
    refine ⟨⟨fun hnone => (nomatch hnone), fun image' himage' => ?_⟩, hstate', hvalid', image, rfl,
      hencode⟩
    cases himage'
    exact ⟨impl'.state, hencode, hstate'⟩

/-- The epoch never goes back. -/
theorem Move.epoch_le {T : Trust} {limits : Limits} {s s' : DurableState}
    (h : Move T limits s s') : s.currentEpoch.value ≤ s'.currentEpoch.value := by
  cases h with
  | epoch source target next established fresh text =>
    have := MonotonicCounter.next_eq_some target
    exact Nat.le_of_lt (by rw [this]; exact Nat.lt_succ_self _)
  | _ => exact Nat.le_refl _

theorem Moves.epoch_le {T : Trust} {limits : Limits} {s s' : DurableState}
    (h : Moves T limits s s') : s.currentEpoch.value ≤ s'.currentEpoch.value := by
  induction h with
  | refl => exact Nat.le_refl _
  | tail _ hm ih => exact Nat.le_trans ih hm.epoch_le

/-- **One quiet step** preserves what moves preserve. -/
theorem quietStep_holds {T : Trust} {P : DurableState → Prop} (hP : Preserved T P) {host : Host}
    {input : Input} (h : Holds P host) (hsound : input.Sound T host)
    (hquiet : Quietly host input) : Holds P (coordinator.step host input).1 := by
  cases input with
  | «open» opening fault =>
    cases hr : (openRuntime opening fault host.disk).2.2 with
    | error e => exact absurd (congrArg some hr) (hquiet e)
    | ok reply =>
      obtain ⟨impl', state, boot, hopened, hload, hprogress, hepoch⟩ :=
        openRuntime_progress (T := T) (fun state hload =>
          ⟨hP.orderly _ (h.disk.load hload).1, hsound state hload⟩) hr
      obtain ⟨hstate, hvalid, himage⟩ := h.disk.load hload
      obtain ⟨hdisk', hstate', hvalid', hsaved'⟩ := hprogress.holds hP h.disk hstate hvalid (by
        by_cases hzero : state.currentEpoch.value = 0
        · refine ⟨[], .inr fun heq => hepoch ?_⟩
          rw [heq]
          exact hzero
        · obtain ⟨image, hsaved⟩ := himage hzero
          exact ⟨image, .inl hsaved⟩)
      have hall : ∀ impl, (coordinator.step host (.open opening fault)).1.runtime = some impl →
          impl = impl' := fun impl himpl => Option.some.inj (himpl.symm.trans hopened)
      refine ⟨hdisk', fun impl himpl => ?_, fun impl himpl => ?_⟩
      · rw [hall impl himpl]
        exact ⟨hprogress.settled, hstate', hvalid', hepoch⟩
      · rw [hall impl himpl]
        exact hsaved'
  | call call entropy fault =>
    cases hruntime : host.runtime with
    | none =>
      rw [coordinator_idle hruntime]
      exact h
    | some impl =>
      have hstep := coordinator_call hruntime call entropy fault
      obtain ⟨hsettled, hstate, hvalid, hepoch⟩ := h.memory impl hruntime
      cases hr : (callRuntime call entropy fault host.disk impl).result with
      | error e =>
        refine absurd ?_ (hquiet e)
        rw [hstep, hr]
      | ok reply =>
        have hprogress := callRuntime_progress hP.trust hsettled
          (fun hT => hP.incumbency hT _ hstate) (hsound impl hruntime) hr
        obtain ⟨image, hsaved⟩ := h.saved impl hruntime
        obtain ⟨hdisk', hstate', hvalid', hsaved'⟩ :=
          hprogress.holds hP h.disk hstate hvalid ⟨image, .inl hsaved⟩
        rw [hstep]
        refine ⟨hdisk', fun impl' himpl' => ?_, fun impl' himpl' => ?_⟩
        · cases himpl'
          refine ⟨hprogress.settled, hstate', hvalid', fun hzero => hepoch ?_⟩
          have := Moves.epoch_le hprogress.moves
          omega
        · cases himpl'
          exact hsaved'

/-- The conditions of a quiet run. -/
def QuietRun (T : Trust) (host : Host) (input : Input) : Prop :=
  Quietly host input ∧ input.Sound T host

theorem Holds.start {P : DurableState → Prop} (hinit : P initialState) :
    Holds P coordinator.init :=
  ⟨⟨fun _ => hinit, fun _ h => (by cases h)⟩, fun _ h => (by cases h), fun _ h => (by cases h)⟩

/-- **Invariant rule** for runs in which no call throws. -/
theorem Holds.leads {T : Trust} {P : DurableState → Prop} (hP : Preserved T P) {host host' : Host}
    (h : coordinator.Leads (QuietRun T) host host') (hhost : Holds P host) : Holds P host' :=
  h.invariant (I := Holds P) (fun _ _ hs hok => quietStep_holds hP hs hok.2 hok.1) hhost

/-- The same from the initial state. -/
theorem quietRun_invariant {T : Trust} {P : DurableState → Prop} (hP : Preserved T P)
    (hinit : P initialState) {host : Host} (h : coordinator.Reaches (QuietRun T) host) :
    Holds P host :=
  (Holds.start hinit).leads hP h

end FabricEpoch
