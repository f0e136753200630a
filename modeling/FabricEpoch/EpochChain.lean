import FabricEpoch.Runtime.Evolution
import FabricEpoch.Runtime.Frames

/-!
# The chain of epochs

An epoch is entered from the one before it, by an advance that expects that one
or by an opening, and by nothing else. So the epochs of a run are numbered
without gaps, and each has one establishment. The history keeps the last of the
transitions: it is pruned in front, so what is left is still a chain, and it ends
where the run is.

- `EpochStep`: what one step does to the epoch;
- `quietStep_epoch`: every step is one;
- `DurableState.Chained`: what the history is, and that every step keeps it so;
- `Chronicled`: what the steps of a run add up to;
- `epochChain`: the law.
-/

namespace FabricEpoch

open Table Transaction

/-! ## Establishments -/

/-- The state of a host. Nothing is established before the first opening. -/
def Host.state (host : Host) : DurableState := host.runtime.elim initialState (·.state)

theorem Host.state_of_some {host : Host} {impl : Impl} (h : host.runtime = some impl) :
    host.state = impl.state := by
  unfold Host.state
  rw [h]
  rfl

/-- An epoch, and the request that advanced to it; none where it was an opening. -/
abbrev Establishment := Option EpochAdvanceRequest × CoordinatorEpoch

/-- The epoch that a step has established: an advance that is answered so and is
no replay, or an opening that is told to. -/
def establishedBy : Host × Input × Answer → Option Establishment
  | (_, .call (.advance request) _ _, some (.ok (.advanced r))) =>
    if r.outcome = .advanced ∧ r.replayed = false then some (some request, r.epoch) else none
  | (host, .open opening fault, some (.ok _)) =>
    if opening.options.advanceEpochOnOpen then
      some (none, (coordinator.step host (.open opening fault)).1.state.currentEpoch)
    else none
  | _ => none

/-- **What a step does to the epoch**: nothing, or it enters the next one and
records that. -/
inductive EpochStep (s s' : DurableState) : Option Establishment → Prop
  | kept (epoch : s'.currentEpoch = s.currentEpoch) (transitions : s'.transitions = s.transitions)
      (generation : s.generation ≤ s'.generation) : EpochStep s s' none
  | entered {request : Option EpochAdvanceRequest} {limit : Nat} {t : EpochTransitionRecord}
      (next : s.currentEpoch.next = some s'.currentEpoch)
      (generation : s.generation.next = some s'.generation)
      (source : t.fromEpoch = s.currentEpoch) (target : t.toEpoch = s'.currentEpoch)
      (stamp : t.generation = s'.generation)
      (transitions : s'.transitions = evictPush limit s.transitions t)
      (participants : s.currentEpoch.value ≠ 0 →
        s'.participants.Perm (s.participants.map (·.invalidate)))
      (expected : ∀ r, request = some r → r.expectedEpoch = s.currentEpoch) :
      EpochStep s s' (some (request, s'.currentEpoch))

/-! ## Every step is one -/

/-- The epoch and its history. -/
abbrev epochsOf (impl : Impl) : CoordinatorEpoch × List EpochTransitionRecord :=
  (impl.state.currentEpoch, impl.state.transitions)

theorem epochsOf_updateParticipant (id : ParticipantId)
    (f : DurableParticipant → DurableParticipant) (s : Impl) :
    epochsOf (s.updateParticipant id f) = epochsOf s := by
  unfold Impl.updateParticipant
  split <;> rfl

theorem epochsOf_record : RecordFrame epochsOf where
  generation _ _ := rfl
  preventive id r s := epochsOf_updateParticipant id _ (s.setFenceFloor r.generation)
  removal id _ _ s := (epochsOf_updateParticipant id _ _).trans (epochsOf_updateParticipant id _ s)
  fence id r s := epochsOf_updateParticipant id _ (s.setFenceFloor r.generation)
  remember id _ _ s := epochsOf_updateParticipant id _ s
  retire id s := epochsOf_updateParticipant id _ s

theorem epochsOf_registration : RegistrationFrame epochsOf where
  toFenceFrame := epochsOf_record.toFenceFrame
  create _ _ _ := rfl
  floor _ _ := rfl
  register request _ _ _ _ s := epochsOf_updateParticipant request.participant _ s

theorem epochsOf_grant : GrantFrame epochsOf where
  generation _ _ := rfl
  push _ _ := rfl
  stamp _ _ _ := rfl
  remember id _ _ s := epochsOf_updateParticipant id _ s

theorem epochsOf_revoke : RevokeFrame epochsOf where
  generation _ _ := rfl
  revoke root s := by
    obtain ⟨_, hrevised, -⟩ := Impl.Revised.revokeLoop root (2 * s.state.grants.length + 2) [root] 0 s
    rw [Impl.revokeFrom, hrevised]
  stamp id f s := by
    unfold Impl.updateGrant
    split <;> rfl
  control _ _ := rfl

theorem epochsOf_framed {call : Call} (hcall : ∀ request, call ≠ .advance request) :
    call.Framed epochsOf := by
  cases call with
  | register request => exact epochsOf_registration
  | registerBatch requests => exact epochsOf_registration
  | fence request => exact epochsOf_record
  | retire request => exact epochsOf_record
  | grant request => exact epochsOf_grant
  | revoke request => exact epochsOf_revoke
  | advance request => exact absurd rfl (hcall request)
  | bind binding => exact fun _ _ _ => rfl
  | close session reason => exact ⟨epochsOf_record.toFenceFrame, fun _ _ _ => rfl⟩
  | flush => trivial

/-- **An epoch change that is committed** is such a step, whatever becomes of
the attempt table. -/
theorem mutateEpoch_step {entropy : Entropy} {boot : CoordinatorBootId}
    {cause : EpochTransitionCause} {invalidate : Bool} {impl : Impl} {t : Txn Impl}
    (hmutate : mutateEpoch entropy boot cause invalidate (Txn.start impl) = .ok () t)
    (hestablished : impl.state.currentEpoch.value ≠ 0 → invalidate = true)
    {request : Option EpochAdvanceRequest}
    (hexpected : ∀ r, request = some r → r.expectedEpoch = impl.state.currentEpoch)
    {u : Impl} {attempts : List IdempotencyRecord}
    (hu : u.state = { t.state.state with controlAttempts := attempts }) :
    EpochStep impl.state u.canonicalize.rebuildIndexes.state
      (some (request, t.state.state.currentEpoch)) := by
  obtain ⟨epoch, generation, id, hnext, hstamp, -, hstate, -⟩ := mutateEpoch_ok hmutate
  rw [hstate] at hu ⊢
  have hepoch : u.canonicalize.rebuildIndexes.state.currentEpoch = epoch :=
    congrArg DurableState.currentEpoch hu
  have hgeneration : u.canonicalize.rebuildIndexes.state.generation = generation :=
    congrArg DurableState.generation hu
  have htransitions : u.canonicalize.rebuildIndexes.state.transitions =
      evictPush impl.options.limits.maxTransitionHistory impl.state.transitions
        (impl.newTransition ⟨id⟩ epoch generation boot cause) :=
    congrArg (fun s : DurableState => s.transitions) hu
  show EpochStep impl.state u.canonicalize.rebuildIndexes.state (some (request, epoch))
  rw [← hepoch]
  refine .entered ?_ ?_ rfl hepoch.symm hgeneration.symm htransitions ?_ hexpected
  · rw [hepoch]
    exact hnext
  · rw [hgeneration]
    exact hstamp
  · intro hzero
    rw [hestablished hzero] at hu
    have hrecords : u.state.participants = impl.state.participants.map (·.invalidate) :=
      congrArg DurableState.participants hu
    rw [← hrecords]
    exact (insertionSort_perm u.state.participants).symm

/-- **An advance.** -/
theorem advance_step {request : EpochAdvanceRequest} {entropy : Entropy} {fault : Option SaveFault}
    {disk : Disk} {impl : Impl} {r : EpochAdvanceResult}
    (h : (transact (advanceEpoch entropy request) fault disk impl).result = .ok r) :
    EpochStep impl.state (transact (advanceEpoch entropy request) fault disk impl).impl.state
      (if r.outcome = .advanced ∧ r.replayed = false then some (some request, r.epoch) else none) := by
  obtain ⟨t, ht, hcommitted⟩ := transact_ok h
  rcases advanceEpoch_cases ht with ⟨rfl, hreplay⟩ | ⟨digest, hadmitted, hcommit⟩
  · -- refused, or told from the attempt table
    rw [if_neg]
    swap
    · rintro ⟨hout, hnew⟩
      rw [(hreplay hout).2] at hnew
      cases hnew
    rcases hcommitted with ⟨-, heq⟩ | ⟨hmutated, -⟩
    · rw [heq]
      exact .kept rfl rfl (Nat.le_refl _)
    · cases hmutated
  · obtain ⟨t₁, hmutate, hstate, hmutated, hout, hepoch, -⟩ := commitAdvance_ok hcommit
    rw [if_pos ⟨hout, commitAdvance_replayed hcommit⟩, hepoch]
    rcases hcommitted with ⟨hidle, -⟩ | ⟨-, image, previous, -, heq⟩
    · rw [hidle] at hmutated
      cases hmutated
    rw [heq]
    refine mutateEpoch_step hmutate (fun _ => rfl) (fun r' hr' => ?_)
      (by rw [hstate]; rfl)
    rw [← Option.some.inj hr']
    exact refusedAdvance_none hadmitted.refused

/-- **An opening**, seen from the state it has loaded. -/
theorem openRuntime_step {opening : Opening} {fault : Option SaveFault} {disk : Disk} {reply : Reply}
    (h : (openRuntime opening fault disk).2.2 = .ok reply) :
    ∃ state impl', EpochStore.load (EpochStore.runtimeOptions opening.options.limits) disk =
        .ok state ∧ (openRuntime opening fault disk).1 = some impl' ∧
      EpochStep state impl'.state
        (if opening.options.advanceEpochOnOpen then some (none, impl'.state.currentEpoch) else none) := by
  unfold openRuntime at h ⊢
  cases hr : loadRuntime opening disk with
  | error e =>
    rw [hr] at h
    cases h
  | ok loaded =>
    obtain ⟨state, boot⟩ := loaded
    rw [hr] at h
    obtain ⟨-, hload, -⟩ := loadRuntime_ok hr
    dsimp only at h ⊢
    by_cases hadvance : opening.options.advanceEpochOnOpen = true
    · simp only [if_pos hadvance] at h ⊢
      generalize hcause : (if (!state.currentEpoch.isZero) = true then
        EpochTransitionCause.coordinatorRestart else .coordinatorStart) = cause at h ⊢
      cases hresult : (transact (establishEpoch opening.transition boot cause
          (!state.currentEpoch.isZero)) fault disk
          (Impl.ofState { opening.options with coordinatorBoot := some boot } state)).result with
      | error e =>
        simp only [hresult] at h
        cases h
      | ok u =>
        refine ⟨state, _, hload, rfl, ?_⟩
        obtain ⟨t, ht, hcommitted⟩ := transact_ok hresult
        obtain ⟨⟨⟩, t₁, hmutate, hmark⟩ := Action.bind_ok.mp ht
        cases hmark
        rcases hcommitted with ⟨hidle, -⟩ | ⟨-, image, previous, -, heq⟩
        · cases hidle
        rw [heq]
        have hnone : ∀ r : EpochAdvanceRequest, none = some r →
            r.expectedEpoch = state.currentEpoch := fun _ hr' => by cases hr'
        exact mutateEpoch_step (u := t₁.state) hmutate isZero_not hnone rfl
    · simp only [if_neg hadvance] at h ⊢
      by_cases hestablished : (!state.currentEpoch.isZero) = true
      · rw [if_pos hestablished]
        exact ⟨state, _, hload, rfl, .kept rfl rfl (Nat.le_refl _)⟩
      · rw [if_neg hestablished] at h
        cases h

/-- Before the first opening of a quiet run there is no image. -/
theorem quietRun_closed {host : Host} (h : coordinator.Reaches Quietly host)
    (hclosed : host.runtime = none) : host = coordinator.init := by
  induction h with
  | refl => rfl
  | @tail before input hrun hquiet ih =>
    cases hruntime : before.runtime with
    | some impl =>
      obtain ⟨impl', himpl'⟩ := quietStep_runtime hruntime hquiet
      rw [hclosed] at himpl'
      cases himpl'
    | none =>
      cases input with
      | call call entropy fault =>
        rw [coordinator_idle hruntime]
        exact ih hruntime
      | «open» opening fault =>
        -- an opening that does not throw opens a runtime
        cases hr : (openRuntime opening fault before.disk).2.2 with
        | error e => exact absurd (congrArg some hr) (hquiet e)
        | ok reply =>
          obtain ⟨_, impl', -, hopened, -⟩ := openRuntime_step hr
          have hruntime' : (coordinator.step before (.open opening fault)).1.runtime = some impl' :=
            hopened
          rw [hclosed] at hruntime'
          cases hruntime'

/-- What is loaded in a quiet run is the state that the run is in. -/
theorem quietRun_loads {host : Host} (h : coordinator.Reaches Quietly host) {limits : Limits}
    {state : DurableState}
    (hload : EpochStore.load (EpochStore.runtimeOptions limits) host.disk = .ok state) :
    state = host.state := by
  cases hruntime : host.runtime with
  | none =>
    rw [quietRun_closed h hruntime] at hload ⊢
    cases hload
    rfl
  | some impl =>
    rw [Host.state_of_some hruntime]
    have hheld : Holds (· = impl.state) host := (quietRun_kept h).refine hruntime rfl
    exact (hheld.disk.load hload).1

/-- **Every quiet step** keeps the epoch or enters the next one. -/
theorem quietStep_epoch {host : Host} (h : coordinator.Reaches Quietly host) {input : Input}
    (hquiet : Quietly host input) :
    EpochStep host.state (coordinator.step host input).1.state
      (establishedBy (host, input, (coordinator.step host input).2)) := by
  cases input with
  | «open» opening fault =>
    cases hr : (openRuntime opening fault host.disk).2.2 with
    | error e => exact absurd (congrArg some hr) (hquiet e)
    | ok reply =>
      obtain ⟨state, impl', hload, hopened, hstep⟩ := openRuntime_step hr
      have hruntime : (coordinator.step host (.open opening fault)).1.runtime = some impl' := hopened
      have hanswer : (coordinator.step host (.open opening fault)).2 = some (.ok reply) :=
        congrArg some hr
      rw [quietRun_loads h hload] at hstep
      rw [hanswer, Host.state_of_some hruntime]
      unfold establishedBy
      dsimp only
      rw [Host.state_of_some hruntime]
      exact hstep
  | call call entropy fault =>
    cases hruntime : host.runtime with
    | none =>
      -- there is nothing to call
      rw [coordinator_idle hruntime]
      have hidle : establishedBy (host, .call call entropy fault, none) = none := by
        cases call <;> rfl
      rw [hidle]
      exact .kept rfl rfl (Nat.le_refl _)
    | some impl =>
      have hstep := coordinator_call hruntime call entropy fault
      obtain ⟨hsettled, -⟩ := (quietRun_kept h).memory impl hruntime
      have hevolves := quietRun_evolves h (.tail (.call call entropy fault) .refl hquiet) hruntime
        (by rw [hstep])
      rw [hstep, Host.state_of_some hruntime]
      cases hr : (callRuntime call entropy fault host.disk impl).result with
      | error e => exact absurd (by rw [hstep, hr]) (hquiet e)
      | ok reply =>
        by_cases hadvance : ∃ request, call = .advance request
        · obtain ⟨request, rfl⟩ := hadvance
          obtain ⟨r, hresult, rfl⟩ := Transacted.map_ok hr
          exact advance_step hresult
        · have hnone : establishedBy (host, .call call entropy fault, some (.ok reply)) = none := by
            cases call with
            | advance request => exact absurd ⟨request, rfl⟩ hadvance
            | _ => rfl
          rw [hnone]
          obtain ⟨u, hsame, hbehind⟩ := callRuntime_frame
            (epochsOf_framed fun request heq => hadvance ⟨request, heq⟩) hsettled hr
          have hepochs := (hbehind.reading (π := epochsOf) fun _ => rfl).trans hsame
          exact .kept (Prod.mk.inj hepochs).1 (Prod.mk.inj hepochs).2 hevolves.generation

/-! ## The history -/

/-- One transition after another: it starts where that one ended, at a later
generation. -/
def EpochTransitionRecord.Follows (a b : EpochTransitionRecord) : Prop :=
  b.fromEpoch = a.toEpoch ∧ a.generation.value < b.generation.value

/-- **The history is a chain** of single steps, and it ends at the current epoch. -/
structure DurableState.Chained (s : DurableState) : Prop where
  single : ∀ t ∈ s.transitions, t.toEpoch.value = t.fromEpoch.value + 1
  links : s.transitions.IsChain EpochTransitionRecord.Follows
  stamped : ∀ t ∈ s.transitions, t.generation.value ≤ s.generation.value
  ends : s.transitions.getLast?.elim initialState.currentEpoch (·.toEpoch) = s.currentEpoch

theorem chained_initial : initialState.Chained where
  single _ ht := by cases ht
  links := .nil
  stamped _ ht := by cases ht
  ends := rfl

/-- Where the epoch is not the first, the history tells how it was entered. -/
theorem DurableState.Chained.last {s : DurableState} (h : s.Chained)
    (hepoch : s.currentEpoch.value ≠ 0) :
    ∃ t, s.transitions.getLast? = some t ∧ t.toEpoch = s.currentEpoch := by
  have hends := h.ends
  cases hlast : s.transitions.getLast? with
  | none =>
    rw [hlast] at hends
    rw [← hends] at hepoch
    exact absurd rfl hepoch
  | some t =>
    rw [hlast] at hends
    exact ⟨t, rfl, hends⟩

/-- The last transition is the one that a new one follows, unless it is the first. -/
theorem DurableState.Chained.follows {s : DurableState} (h : s.Chained)
    {t a : EpochTransitionRecord} (hsource : t.fromEpoch = s.currentEpoch)
    (hstamp : s.generation.value < t.generation.value) (ha : s.transitions.getLast? = some a) :
    a.Follows t := by
  have hends := h.ends
  rw [ha] at hends
  have hmem : a ∈ s.transitions := List.mem_of_getLast? ha
  exact ⟨hsource.trans hends.symm, Nat.lt_of_le_of_lt (h.stamped a hmem) hstamp⟩

/-- **Step lemma**: pruning in front and a new last transition keep the chain. -/
theorem EpochStep.chained {s s' : DurableState} {e : Option Establishment}
    (h : EpochStep s s' e) (hs : s.Chained) : s'.Chained := by
  cases h with
  | kept epoch transitions generation =>
    constructor
    · rw [transitions]
      exact hs.single
    · rw [transitions]
      exact hs.links
    · intro t ht
      rw [transitions] at ht
      exact Nat.le_trans (hs.stamped t ht) generation
    · rw [transitions, epoch]
      exact hs.ends
  | @entered request limit t next generation source target stamp transitions participants expected =>
    have hnext := MonotonicCounter.next_eq_some next
    have hlater : s.generation.value < t.generation.value := by
      rw [stamp, MonotonicCounter.next_eq_some generation]
      exact Nat.lt_succ_self _
    have hmem : ∀ a ∈ s'.transitions, a ∈ s.transitions ∨ a = t := fun a ha =>
      mem_evictPush (transitions ▸ ha)
    constructor
    · intro a ha
      rcases hmem a ha with ha | rfl
      · exact hs.single a ha
      · rw [source, target]
        exact hnext
    · rw [transitions]
      -- pruning leaves a suffix, which ends where the new transition starts
      exact isChain_evictPush hs.links fun a ha => hs.follows source hlater ha
    · intro a ha
      rcases hmem a ha with ha | rfl
      · have := hs.stamped a ha
        rw [stamp] at hlater
        omega
      · rw [stamp]
    · rw [transitions, getLast?_evictPush]
      exact target

/-! ## Runs -/

/-- The establishments of a sequence of steps, in order. -/
def establishments (steps : List (Host × Input × Answer)) : List Establishment :=
  steps.filterMap establishedBy

/-- **What the steps of a quiet run add up to**: each epoch up to the current one
was established once, by a request only where that expected the one before it. -/
structure Chronicled (steps : List (Host × Input × Answer)) (host : Host) : Prop where
  reaches : coordinator.Reaches Quietly host
  epochs : (establishments steps).map (·.2.value) = List.range' 1 host.state.currentEpoch.value
  expected : ∀ request epoch, (some request, epoch) ∈ establishments steps →
    epoch.value = request.expectedEpoch.value + 1
  chained : host.state.Chained

theorem establishments_concat (steps : List (Host × Input × Answer)) (step : Host × Input × Answer) :
    establishments (steps ++ [step]) = establishments steps ++ (establishedBy step).toList := by
  unfold establishments
  rw [List.filterMap_append]
  cases h : establishedBy step with
  | none => simp [h]
  | some e => simp [h]

/-- **Step lemma.** -/
theorem Chronicled.step {steps : List (Host × Input × Answer)} {host : Host}
    (h : Chronicled steps host) {input : Input} (hquiet : Quietly host input) :
    Chronicled (steps ++ [(host, input, (coordinator.step host input).2)])
      (coordinator.step host input).1 := by
  have hstep := quietStep_epoch h.reaches hquiet
  have hconcat := establishments_concat steps (host, input, (coordinator.step host input).2)
  have hchained := hstep.chained h.chained
  refine ⟨h.reaches.tail input hquiet, ?_, ?_, hchained⟩
  · rw [hconcat, List.map_append, h.epochs]
    generalize establishedBy (host, input, (coordinator.step host input).2) = e at hstep
    cases hstep with
    | kept epoch =>
      rw [epoch]
      exact List.append_nil _
    | entered next =>
      have hnext := MonotonicCounter.next_eq_some next
      rw [hnext, List.range'_concat, Nat.one_mul, Nat.add_comm, ← hnext]
      rfl
  · intro request epoch hmem
    rw [hconcat] at hmem
    rcases List.mem_append.mp hmem with hmem | hmem
    · exact h.expected request epoch hmem
    · generalize establishedBy (host, input, (coordinator.step host input).2) = e at hstep hmem
      cases hstep with
      | kept => cases hmem
      | entered next _ _ _ _ _ _ hexpected =>
        obtain ⟨hrequest, hepoch⟩ := Prod.mk.inj (List.mem_singleton.mp hmem)
        rw [hepoch, hexpected request hrequest.symm]
        exact MonotonicCounter.next_eq_some next

/-- Requests that were answered with different epochs expected different ones. -/
theorem Chronicled.unrivalled {steps : List (Host × Input × Answer)} {host : Host}
    (h : Chronicled steps host) :
    (((establishments steps).filterMap (·.1)).map (·.expectedEpoch)).Nodup := by
  have hnodup : ((establishments steps).map (·.2.value)).Nodup := by
    rw [h.epochs]
    exact List.nodup_range'
  rw [List.Nodup, List.pairwise_map, List.pairwise_filterMap]
  refine (List.pairwise_map.mp hnodup).imp_of_mem ?_
  rintro ⟨_, epoch⟩ ⟨_, epoch'⟩ hmem hmem' hne request rfl request' rfl heq
  have h₁ := h.expected request epoch hmem
  have h₂ := h.expected request' epoch' hmem'
  rw [heq] at h₁
  exact hne (h₁.trans h₂.symm)

/-- **Run lemma.** -/
theorem chronicled_run {inputs : List Input}
    (h : coordinator.Allows Quietly coordinator.init inputs) :
    Chronicled (coordinator.trace coordinator.init inputs) (coordinator.run coordinator.init inputs) :=
  Machine.traced (H := Chronicled) (fun _ _ _ hT hquiet => hT.step hquiet)
    ⟨.refl, rfl, fun _ _ hmem => (by cases hmem), chained_initial⟩ h

/-- **The law of the epochs.** Of a run in which nothing throws: each epoch from
the first to the current one has one establishment, by an advance that is no
replay or by an opening; no two requests that expect the same epoch both
establish one; and the history that is retained is a chain of single steps that
ends at the current epoch. -/
theorem epochChain {inputs : List Input}
    (h : coordinator.Allows Quietly coordinator.init inputs) {impl : Impl}
    (himpl : (coordinator.run coordinator.init inputs).runtime = some impl) :
    (establishments (coordinator.trace coordinator.init inputs)).map (·.2.value) =
        List.range' 1 impl.state.currentEpoch.value ∧
      (((establishments (coordinator.trace coordinator.init inputs)).filterMap (·.1)).map
        (·.expectedEpoch)).Nodup ∧
      (∀ t ∈ impl.state.transitions, t.toEpoch.value = t.fromEpoch.value + 1) ∧
      impl.state.transitions.IsChain (fun a b =>
        b.fromEpoch = a.toEpoch ∧ a.generation.value < b.generation.value) ∧
      ∃ last, impl.state.transitions.getLast? = some last ∧
        last.toEpoch = impl.state.currentEpoch := by
  have hrun := chronicled_run h
  have hstate := Host.state_of_some himpl
  have hchained := hrun.chained
  have hepochs := hrun.epochs
  rw [hstate] at hchained hepochs
  obtain ⟨-, -, -, hepoch⟩ := (quietRun_kept hrun.reaches).memory impl himpl
  exact ⟨hepochs, hrun.unrivalled, hchained.single, hchained.links, hchained.last hepoch⟩

/-- An advance, its retry, and a rival that comes too late. -/
def rivalRun : List Input := [
  testOpen {} 1,
  callOf (.advance { attempt := smallId 2, expectedEpoch := smallCounter 1 }),
  callOf (.advance { attempt := smallId 2, expectedEpoch := smallCounter 1 }),
  callOf (.advance { attempt := smallId 3, expectedEpoch := smallCounter 1 })]

theorem epochChain_test :
    (establishments (coordinator.trace coordinator.init rivalRun)).map (·.2.value) = [1, 2] := by
  have hquiet : coordinator.Allows Quietly coordinator.init rivalRun := by decide +kernel
  have hvalue : (coordinator.run coordinator.init rivalRun).runtime.map
      (·.state.currentEpoch.value) = some 2 := by
    decide +kernel
  obtain ⟨impl, himpl, hepoch⟩ := Option.map_eq_some_iff.mp hvalue
  rw [(epochChain hquiet himpl).1, hepoch]
  rfl

end FabricEpoch
