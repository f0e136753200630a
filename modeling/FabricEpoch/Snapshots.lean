import FabricEpoch.Batches
import FabricEpoch.Runtime.Views

/-!
# What the generation of a snapshot says

A snapshot carries the generation it was taken at, and `isCurrentFor` compares
that number. The comparison is sound because no operation changes the state
under one generation:

- `Rises`: an operation left everything alone, or raised the generation and
  asks for its changes to be saved;
- `callRuntime_rises`: one call; `quietCalls_rise`: a run of calls;
- `snapshotCurrent`: a snapshot that is current is what a fresh one would be.
-/

namespace FabricEpoch

open Table Transaction

/-! ## Fences and registrations -/

/-- Everything was left alone, or there is something to save under a higher
generation. -/
def Rises (t u : Txn Impl) : Prop :=
  u = t ∨ u.mutated = true ∧ t.state.state.generation.value < u.state.state.generation.value

/-- Whatever was changed was marked, and the generation was not lowered. -/
structure Marks (t u : Txn Impl) : Prop where
  raised : Raised t u
  marked : u = t ∨ u.mutated = true

section Rises

variable {t u v : Txn Impl}

theorem Rises.marks (h : Rises t u) : Marks t u := by
  rcases h with rfl | ⟨hmutated, hlt⟩
  · exact ⟨.refl, .inl rfl⟩
  · exact ⟨⟨Nat.le_of_lt hlt, fun _ => hmutated⟩, .inr hmutated⟩

theorem Marks.trans (h₁ : Marks t u) (h₂ : Marks u v) : Marks t v := by
  refine ⟨h₁.raised.trans h₂.raised, ?_⟩
  rcases h₂.marked with rfl | hmutated
  · exact h₁.marked
  · exact .inr hmutated

/-- A stretch that leaves or raises the generation, and then one that raises it. -/
theorem Marks.then_lt (h : Marks t u) (hmutated : v.mutated = true)
    (hlt : u.state.state.generation.value < v.state.state.generation.value) : Rises t v :=
  .inr ⟨hmutated, Nat.lt_of_le_of_lt h.raised.generation hlt⟩

end Rises

/-- A fence that returns, a preventive one included. -/
theorem recordFence_rises {id : ParticipantId} {boot : WorkerBootId} {reason : FenceReason}
    {note : BoundedText} {defensive : Bool} {t u : Txn Impl} {r : FenceResult}
    (h : recordFence id boot reason note defensive t = .ok r u) : Rises t u := by
  cases recordFence_cases h with
  | unknown _ _ => exact .inl rfl
  | already _ _ => exact .inl rfl
  | notLive _ _ _ => exact .inl rfl
  | full _ _ => exact .inl rfl
  | @preventive p generation next record _ _ _ _ _ _ _ bump _ =>
    have hnext := MonotonicCounter.next_eq_some bump
    rw [generation_applyPreventive] at hnext
    refine .inr ⟨rfl, ?_⟩
    show _ < next.value
    omega
  | @live p i generation next record _ _ _ _ bump _ =>
    have hnext := MonotonicCounter.next_eq_some bump
    rw [generation_applyFence] at hnext
    refine .inr ⟨rfl, ?_⟩
    show _ < next.value
    omega

theorem Approach.rises {request : RegisterParticipantRequest} {t u : Txn Impl}
    (h : Approach request t u) : Rises t u := by
  cases h with
  | direct => exact .inl rfl
  | incumbent replace notLive =>
    rcases replaceIncumbent_fences replace with ⟨boot, r, -, hfence⟩ | ⟨rfl, -⟩
    · exact recordFence_rises hfence
    · exact .inl rfl

/-- A commit outside a batch bumps the generation itself. -/
theorem commitRegistration_rises {request : RegisterParticipantRequest} {digest : SnapshotDigest}
    {participant : Option DurableParticipant} {t u : Txn Impl} {r : RegistrationResult}
    (h : commitRegistration request digest participant true t = .ok r u) :
    u.mutated = true ∧ t.state.state.generation.value < u.state.state.generation.value := by
  obtain ⟨p, t₀, g, next, t₁, t₂, hopen, -, -, ht₁, hbump, rfl, -⟩ := commitRegistration_ok h
  obtain ⟨generation, hnext, rfl⟩ := bumpGeneration_ok hbump
  have hopened : t₀.state.state.generation = t.state.state.generation := by
    cases participant with
    | none =>
      cases hopen
      rfl
    | some q =>
      cases hopen
      rfl
  have hbefore : t₁.state.state.generation = t.state.state.generation := by
    rw [ht₁]
    show (Impl.updateParticipant _ _ _).state.generation = _
    rw [generation_updateParticipant]
    exact hopened
  have hvalue := MonotonicCounter.next_eq_some hnext
  rw [hbefore] at hvalue
  refine ⟨rfl, ?_⟩
  show _ < generation.value
  omega

theorem applyRegistration_rises {request : RegisterParticipantRequest} {t u : Txn Impl}
    {r : RegistrationResult} (h : applyRegistration request true t = .ok r u) : Rises t u := by
  cases applyRegistration_cases h with
  | answered approach _ => exact approach.rises
  | committed _ approach commit =>
    obtain ⟨hmutated, hlt⟩ := commitRegistration_rises commit
    exact approach.rises.marks.then_lt hmutated hlt

/-- An element of a batch leaves the bump to the batch, but marks what it did. -/
theorem applyRegistration_marks {request : RegisterParticipantRequest} {t u : Txn Impl}
    {r : RegistrationResult} (h : applyRegistration request false t = .ok r u) : Marks t u := by
  refine ⟨applyRegistration_raised h, ?_⟩
  cases applyRegistration_cases h with
  | answered approach _ => exact approach.rises.marks.marked
  | committed _ _ commit => exact .inr (commitRegistration_mutated commit)

theorem applyRegistrations_marks {requests : List RegisterParticipantRequest} {t u : Txn Impl}
    {rs : List RegistrationResult} (h : applyRegistrations requests t = .ok rs u) : Marks t u := by
  induction requests generalizing t rs with
  | nil =>
    obtain ⟨-, rfl⟩ := Action.pure_ok.mp h
    exact ⟨.refl, .inl rfl⟩
  | cons request requests ih =>
    obtain ⟨r, t', hfirst, h⟩ := Action.bind_ok.mp h
    obtain ⟨rs', u', hrest, h⟩ := Action.bind_ok.mp h
    obtain ⟨-, rfl⟩ := Action.pure_ok.mp h
    exact (applyRegistration_marks hfirst).trans (ih hrest)

theorem registerBatch_rises {requests : List RegisterParticipantRequest} {t u : Txn Impl}
    {rs : List RegistrationResult} (hfresh : t.mutated = false)
    (h : registerBatch requests t = .ok rs u) : Rises t u := by
  obtain ⟨rs', t₁, helements, h⟩ := Action.bind_ok.mp h
  rw [Action.bind_hasMutated] at h
  obtain ⟨⟨⟩, t₂, hbump, h⟩ := Action.bind_ok.mp h
  obtain ⟨-, rfl⟩ := Action.pure_ok.mp h
  have hmarks := applyRegistrations_marks helements
  by_cases hmutated : t₁.mutated = true
  · rw [hmutated] at hbump
    obtain ⟨g, hnext, rfl⟩ := bumpGeneration_ok hbump
    have hvalue := MonotonicCounter.next_eq_some hnext
    refine hmarks.then_lt hmutated ?_
    show _ < g.value
    omega
  · -- nothing is marked, so no element has done anything
    rcases hmarks.marked with rfl | hmarked
    · rw [hfresh] at hbump
      obtain ⟨-, rfl⟩ := Action.pure_ok.mp hbump
      exact .inl rfl
    · exact absurd hmarked hmutated

/-! ## The other operations -/

theorem commitFence_rises {request : FenceWorkerRequest} {digest : SnapshotDigest} {t u : Txn Impl}
    {r : FenceResult} (hfresh : t.mutated = false) (h : commitFence request digest t = .ok r u) :
    Rises t u := by
  obtain ⟨result, t₁, hfence, h⟩ := Action.bind_ok.mp h
  rw [Action.bind_hasMutated] at h
  obtain ⟨⟨⟩, t₂, hremember, h⟩ := Action.bind_ok.mp h
  cases h
  rcases recordFence_rises hfence with rfl | ⟨hmutated, hlt⟩
  · rw [hfresh] at hremember
    cases hremember
    exact .inl rfl
  · rw [hmutated] at hremember
    cases hremember
    refine .inr ⟨hmutated, ?_⟩
    show _ < (Impl.updateParticipant _ _ _).state.generation.value
    rw [generation_updateParticipant]
    exact hlt

theorem fenceWorker_rises {request : FenceWorkerRequest} {t u : Txn Impl} {r : FenceResult}
    (hfresh : t.mutated = false) (h : fenceWorker request t = .ok r u) : Rises t u := by
  rcases fenceWorker_cases h with ⟨rfl, -⟩ | ⟨p, digest, -, hcommit⟩
  · exact .inl rfl
  · exact commitFence_rises hfresh hcommit

theorem fenceSession_rises {session : SessionId} {binding : SessionBinding}
    {reason : SessionClosureReason} {t u : Txn Impl} {r : FenceResult}
    (h : fenceSession session binding reason t = .ok r u) : Rises t u := by
  rcases fenceSession_fences h with ⟨rfl, -⟩ | hfence
  · exact .inl rfl
  · exact recordFence_rises hfence

theorem applyGrant_rises {entropy : Entropy} {request : GrantAuthorityRequest} {t u : Txn Impl}
    {r : GrantResult} (h : applyGrant entropy request t = .ok r u) : Rises t u := by
  rcases applyGrant_cases h with ⟨rfl, -⟩ | ⟨p, digest, -, hcommit⟩
  · exact .inl rfl
  · obtain ⟨bytes, g, -, hnext, hstate, hmutated, -, -⟩ := commitGrant_ok hcommit
    have hvalue := MonotonicCounter.next_eq_some hnext
    refine .inr ⟨hmutated, ?_⟩
    rw [hstate, generation_updateParticipant]
    show _ < g.value
    omega

theorem Impl.Revised.generation {impl impl' : Impl} (h : impl.Revised impl') :
    impl'.state.generation = impl.state.generation := by
  obtain ⟨grants, rfl, -⟩ := h
  rfl

theorem applyRevoke_rises {request : RevokeAuthorityRequest} {t u : Txn Impl} {r : RevokeResult}
    (h : applyRevoke request t = .ok r u) : Rises t u := by
  rcases applyRevoke_cases h with ⟨rfl, -⟩ | ⟨digest, grant, -, hcommit⟩
  · exact .inl rfl
  · obtain ⟨g, derived, stamped, -, hnext, hstamped, hstate, hmutated, -⟩ := commitRevoke_ok hcommit
    have hrevised : t.state.Revised (t.state.revokeFrom grant.id).1 :=
      Impl.Revised.revokeLoop grant.id _ _ 0 t.state
    have hvalue := MonotonicCounter.next_eq_some hnext
    rw [hrevised.generation] at hvalue
    have hstamp : stamped.state.generation = g := by
      rw [hstamped]
      exact (Impl.Revised.updateGrant _ (fun g' => .generation g' _) _).generation
    refine .inr ⟨hmutated, ?_⟩
    rw [hstate]
    show _ < stamped.state.generation.value
    rw [hstamp]
    omega

theorem mutateEpoch_generation {entropy : Entropy} {boot : CoordinatorBootId}
    {cause : EpochTransitionCause} {invalidate : Bool} {t u : Txn Impl} {r : Unit}
    (h : mutateEpoch entropy boot cause invalidate t = .ok r u) :
    t.state.state.generation.value < u.state.state.generation.value := by
  obtain ⟨epoch, generation, id, -, hnext, -, hstate, -⟩ := mutateEpoch_ok h
  have hvalue := MonotonicCounter.next_eq_some hnext
  rw [hstate]
  show _ < generation.value
  omega

theorem advanceEpoch_rises {entropy : Entropy} {request : EpochAdvanceRequest} {t u : Txn Impl}
    {r : EpochAdvanceResult} (h : advanceEpoch entropy request t = .ok r u) : Rises t u := by
  rcases advanceEpoch_cases h with ⟨rfl, -⟩ | ⟨digest, -, hcommit⟩
  · exact .inl rfl
  · obtain ⟨t₁, hmutate, hstate, hmutated, -⟩ := commitAdvance_ok hcommit
    have hlt := mutateEpoch_generation hmutate
    refine .inr ⟨hmutated, ?_⟩
    rw [hstate]
    exact hlt

theorem fenceAll_raised {id : ParticipantId} {note : BoundedText} {boots : List WorkerBootId}
    {t u : Txn Impl} {n : Nat} (h : fenceAll id note boots t = .ok n u) : Raised t u := by
  induction boots generalizing t n with
  | nil =>
    cases h
    exact .refl
  | cons boot boots ih =>
    obtain ⟨r, t₁, hfence, h⟩ := Action.bind_ok.mp h
    rw [Action.bind_current] at h
    split at h
    · cases h
    · obtain ⟨m, t₂, hrest, h⟩ := Action.bind_ok.mp h
      cases h
      exact (recordFence_rises hfence).marks.raised.trans (ih hrest)

theorem applyRetire_rises {request : RetireParticipantRequest} {t u : Txn Impl} {r : RetireResult}
    (h : applyRetire request t = .ok r u) : Rises t u := by
  rcases applyRetire_cases h with ⟨rfl, -⟩ | ⟨p, digest, -, hcommit⟩
  · exact .inl rfl
  · obtain ⟨n, t₁, g, hfences, hnext, hstate, hmutated, -⟩ := commitRetire_ok hcommit
    have hraised := (fenceAll_raised hfences).generation
    rw [generation_updateParticipant] at hnext
    have hvalue := MonotonicCounter.next_eq_some hnext
    refine .inr ⟨hmutated, ?_⟩
    rw [hstate, generation_updateParticipant]
    show _ < g.value
    omega

/-! ## One call -/

/-- The state is the same, or its generation is higher. -/
def Stepped (s s' : DurableState) : Prop := s' = s ∨ s.generation.value < s'.generation.value

theorem Stepped.trans {s s' s'' : DurableState} (h₁ : Stepped s s') (h₂ : Stepped s' s'') :
    Stepped s s'' := by
  rcases h₁ with rfl | hlt
  · exact h₂
  · rcases h₂ with rfl | hlt'
    · exact .inr hlt
    · exact .inr (Nat.lt_trans hlt hlt')

/-- Under one generation there is one state. -/
theorem Stepped.eq_of_generation {s s' : DurableState} (h : Stepped s s')
    (heq : s'.generation = s.generation) : s' = s := by
  rcases h with rfl | hlt
  · rfl
  · rw [heq] at hlt
    exact absurd hlt (Nat.lt_irrefl _)

/-- The canonical order of the records does not touch the generation. -/
theorem transact_stepped {α : Type} {op : Op α} {fault : Option SaveFault} {disk : Disk}
    {impl : Impl} {a : α} (hop : ∀ t, op (Txn.start impl) = .ok a t → Rises (Txn.start impl) t)
    (h : (transact op fault disk impl).result = .ok a) :
    Stepped impl.state (transact op fault disk impl).impl.state := by
  obtain ⟨t, ht, ⟨hidle, heq⟩ | ⟨hmutated, image, previous, -, heq⟩⟩ := transact_ok h
  · rw [heq]
    rcases hop t ht with rfl | ⟨hmutated, -⟩
    · exact .inl rfl
    · rw [hidle] at hmutated
      cases hmutated
  · rw [heq]
    rcases hop t ht with rfl | ⟨-, hlt⟩
    · cases hmutated
    · exact .inr hlt

/-- **A call that returns** leaves the state as it is, or raises its generation. -/
theorem callRuntime_rises {call : Call} {entropy : Entropy} {fault : Option SaveFault}
    {disk : Disk} {impl : Impl} {reply : Reply}
    (h : (callRuntime call entropy fault disk impl).result = .ok reply) :
    Stepped impl.state (callRuntime call entropy fault disk impl).impl.state := by
  cases call with
  | register request =>
    obtain ⟨a, ha⟩ := Transacted.map_result_ok h
    exact transact_stepped (fun t ht => applyRegistration_rises ht) ha
  | registerBatch requests =>
    obtain ⟨a, ha⟩ := Transacted.map_result_ok h
    exact transact_stepped (fun t ht => registerBatch_rises rfl ht) ha
  | fence request =>
    obtain ⟨a, ha⟩ := Transacted.map_result_ok h
    exact transact_stepped (fun t ht => fenceWorker_rises rfl ht) ha
  | grant request =>
    obtain ⟨a, ha⟩ := Transacted.map_result_ok h
    exact transact_stepped (fun t ht => applyGrant_rises ht) ha
  | revoke request =>
    obtain ⟨a, ha⟩ := Transacted.map_result_ok h
    exact transact_stepped (fun t ht => applyRevoke_rises ht) ha
  | advance request =>
    obtain ⟨a, ha⟩ := Transacted.map_result_ok h
    exact transact_stepped (fun t ht => advanceEpoch_rises ht) ha
  | retire request =>
    obtain ⟨a, ha⟩ := Transacted.map_result_ok h
    exact transact_stepped (fun t ht => applyRetire_rises ht) ha
  | bind binding =>
    -- the sessions are no part of the durable state
    rw [callRuntime] at h ⊢
    cases hr : impl.bindSession binding with
    | error e =>
      rw [hr] at h
      cases h
    | ok bound =>
      refine .inl ?_
      unfold Impl.bindSession at hr
      split at hr
      · cases hr
        rfl
      · split at hr
        · cases hr
        · cases hr
          rfl
  | close session reason =>
    obtain ⟨a, ha⟩ := Transacted.map_result_ok h
    show Stepped impl.state (closeSession session reason fault disk impl).impl.state
    unfold closeSession at ha ⊢
    split
    · exact .inl rfl
    · next binding hbinding =>
      simp only [hbinding] at ha
      exact @transact_stepped _ _ _ _ (impl.eraseSession binding) _
        (fun t ht => fenceSession_rises ht) ha
  | flush =>
    simp only [callRuntime] at h ⊢
    cases herror : (EpochStore.save (EpochStore.runtimeOptions impl.options.limits) fault disk
        impl.state).error with
    | some e =>
      simp only [herror] at h
      cases h
    | none => exact .inl rfl

/-! ## Runs of calls -/

/-- A call of the runtime that does not throw. -/
def QuietCall (host : Host) (input : Input) : Prop :=
  (∃ call entropy fault, input = .call call entropy fault) ∧ Quietly host input

/-- The runtime is never replaced by calls, and its state only moves up. -/
theorem quietCalls_rise {host host' : Host} {impl : Impl} (himpl : host.runtime = some impl)
    (h : coordinator.Leads QuietCall host host') :
    ∃ impl', host'.runtime = some impl' ∧ Stepped impl.state impl'.state := by
  induction h with
  | refl => exact ⟨impl, himpl, .inl rfl⟩
  | @tail mid input _ hok ih =>
    obtain ⟨between, hbetween, hstepped⟩ := ih
    obtain ⟨⟨call, entropy, fault, rfl⟩, hquiet⟩ := hok
    have hstep := coordinator_call hbetween call entropy fault
    cases hr : (callRuntime call entropy fault mid.disk between).result with
    | error e =>
      refine absurd ?_ (hquiet e)
      rw [hstep, hr]
    | ok reply =>
      rw [hstep]
      exact ⟨_, rfl, hstepped.trans (callRuntime_rises hr)⟩

/-! ## Snapshots -/

/-- Two snapshots of one state differ in their identifiers only. -/
theorem Impl.buildSnapshot_again {impl impl' : Impl} {entropy : Entropy} {snapshot : AuthoritySnapshot}
    (hstate : impl'.state = impl.state) (h : impl.buildSnapshot entropy = .ok snapshot)
    (bytes : Block 16) :
    impl'.buildSnapshot (.ok bytes) = .ok { snapshot with id := ⟨bytes⟩ } := by
  unfold Impl.buildSnapshot at h ⊢
  obtain ⟨id, -, h⟩ := Checks.bind_ok.mp h
  obtain ⟨digest, hdigest, h⟩ := Checks.bind_ok.mp h
  cases h
  rw [hstate]
  -- the digest leaves the identifier out
  exact Checks.bind_ok.mpr ⟨bytes, rfl, Checks.bind_ok.mpr ⟨digest, hdigest, rfl⟩⟩

theorem Impl.buildSnapshot_ok {impl : Impl} {entropy : Entropy} {snapshot : AuthoritySnapshot}
    (h : impl.buildSnapshot entropy = .ok snapshot) :
    snapshot.epoch = impl.state.currentEpoch ∧ snapshot.generation = impl.state.generation := by
  unfold Impl.buildSnapshot at h
  obtain ⟨id, -, h⟩ := Checks.bind_ok.mp h
  obtain ⟨digest, -, h⟩ := Checks.bind_ok.mp h
  cases h
  exact ⟨rfl, rfl⟩

/-- **Currentness of a snapshot is sound.** Along calls that do not throw, one
generation is one state; each further call leaves the state alone or raises the
generation; and a snapshot that is current is the one that would be taken now,
but for its identifier. -/
theorem snapshotCurrent {host host' : Host} {impl impl' : Impl} (himpl : host.runtime = some impl)
    (hrun : coordinator.Leads QuietCall host host') (himpl' : host'.runtime = some impl') :
    (impl'.state.generation = impl.state.generation → impl'.state = impl.state) ∧
    (∀ call entropy fault, (∃ reply,
        (callRuntime call entropy fault host'.disk impl').result = .ok reply) →
      let next := (callRuntime call entropy fault host'.disk impl').impl.state
      (next ≠ impl'.state → impl'.state.generation < next.generation) ∧
        (next = impl'.state → next.generation = impl'.state.generation)) ∧
    (∀ entropy snapshot, impl.buildSnapshot entropy = .ok snapshot →
      snapshot.isCurrentFor impl'.state.currentEpoch impl'.state.generation = true →
      ∀ bytes, impl'.buildSnapshot (.ok bytes) = .ok { snapshot with id := ⟨bytes⟩ }) := by
  obtain ⟨impl'', hafter, hstepped⟩ := quietCalls_rise himpl hrun
  obtain rfl : impl'' = impl' := Option.some.inj (hafter.symm.trans himpl')
  refine ⟨hstepped.eq_of_generation, ?_, ?_⟩
  · rintro call entropy fault ⟨reply, hreply⟩
    refine ⟨fun hne => ?_, fun heq => by rw [heq]⟩
    rcases callRuntime_rises hreply with heq | hlt
    · exact absurd heq hne
    · exact hlt
  · intro entropy snapshot hsnapshot hcurrent bytes
    obtain ⟨-, hgeneration⟩ := Impl.buildSnapshot_ok hsnapshot
    rw [AuthoritySnapshot.isCurrentFor, Bool.and_eq_true, beq_iff_eq, beq_iff_eq] at hcurrent
    have hsame : impl''.state.generation = impl.state.generation :=
      hcurrent.2.symm.trans hgeneration
    exact Impl.buildSnapshot_again (hstepped.eq_of_generation hsame) hsnapshot bytes

/-- The generator's bytes of the test snapshots. -/
def snapshotBytes (n : UInt8) : Block 16 := (smallId n : EpochSnapshotId).bytes

/-- A registration that is repeated leaves a snapshot current. -/
theorem snapshotCurrent_test : ∃ (impl impl' : Impl) (snapshot : AuthoritySnapshot),
    impl.buildSnapshot (.ok (snapshotBytes 7)) = .ok snapshot ∧
      impl'.buildSnapshot (.ok (snapshotBytes 8)) = .ok { snapshot with id := ⟨snapshotBytes 8⟩ } := by
  obtain ⟨input, hinput⟩ : ∃ input, input =
    callOf (.register (testRegister 3 (testParticipant "p") (smallId 4))) := ⟨_, rfl⟩
  obtain ⟨host, hhost⟩ : ∃ host, host = coordinator.run coordinator.init [testOpen {} 1, input] :=
    ⟨_, rfl⟩
  have hquiet : Quietly host input := by
    rw [hhost, hinput]
    decide +kernel
  have hcurrent : (host.runtime.bind fun impl =>
      (coordinator.step host input).1.runtime.map fun impl' =>
        (impl.buildSnapshot (.ok (snapshotBytes 7))).toOption.map fun snapshot =>
          snapshot.isCurrentFor impl'.state.currentEpoch impl'.state.generation) =
      some (some true) := by
    rw [hhost, hinput]
    decide +kernel
  obtain ⟨impl, himpl, hafter⟩ := Option.bind_eq_some_iff.mp hcurrent
  obtain ⟨impl', himpl', hsnapshot⟩ := Option.map_eq_some_iff.mp hafter
  obtain ⟨snapshot, hbuilt, hiscurrent⟩ := Option.map_eq_some_iff.mp hsnapshot
  cases hbuild : impl.buildSnapshot (.ok (snapshotBytes 7)) with
  | error e =>
    rw [hbuild] at hbuilt
    cases hbuilt
  | ok built =>
    rw [hbuild] at hbuilt
    cases hbuilt
    have hcall : QuietCall host input := ⟨⟨_, _, _, hinput⟩, hquiet⟩
    exact ⟨impl, impl', snapshot, hbuild, (snapshotCurrent himpl (.tail input .refl hcall) himpl').2.2
      _ snapshot hbuild hiscurrent _⟩

end FabricEpoch
