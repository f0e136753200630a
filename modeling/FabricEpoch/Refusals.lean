import FabricEpoch.Batches
import FabricEpoch.Retries

/-!
# Refused requests

A request that is not answered with its success has changed nothing: neither the
state nor an index nor the disk. Each of the six operations either stops in front
of its first write or goes through to its success. Registration is the exception.
The fence of an incumbent is its first write, and one check comes behind it: the
limit of active workers. Where that refuses, the fence is there to stay, although
the newcomer is not accepted. This needs more live incarnations than the limit
admits, as behind an opening with smaller limits.

- `Reply.Succeeded`: the answer is the success of its request;
- `Call.ReplacesInVain`: the fence is followed by the refusal;
- `refusesCleanly_iff`: a refusal changes nothing exactly where this is not so;
- `reopened`: what an opening finds that establishes no epoch.
-/

namespace FabricEpoch

open Table Transaction
open ByteCodec (Bytes)

/-! ## Requests and their success -/

/-- The calls that are one request with one success. -/
def Call.IsRequest : Call → Prop
  | .register _ | .fence _ | .grant _ | .revoke _ | .retire _ | .advance _ => True
  | .registerBatch _ | .bind _ | .close _ _ | .flush => False

/-- The answer is the success of its request. -/
def Reply.Succeeded : Reply → Prop
  | .registered r => r.outcome = .registered
  | .fenced r => r.outcome = .fenced
  | .granted r => r.outcome = .granted
  | .revoked r => r.outcome = .revoked
  | .retired r => r.outcome = .retired
  | .advanced r => r.outcome = .advanced
  | .registeredBatch _ | .bound _ | .flushed | .opened => True

instance (reply : Reply) : Decidable reply.Succeeded := by
  unfold Reply.Succeeded
  split <;> infer_instance

/-- The request fences the incumbent of its participant, and without the
incumbent the limit of active workers is reached all the same. -/
def Call.ReplacesInVain (impl : Impl) : Call → Prop
  | .register request => impl.fencesIncumbent request = true ∧
      impl.options.limits.maxActiveWorkers ≤ impl.activeWorkers - 1
  | _ => False

/-! ## What a refusal leaves -/

section Operations

variable {t u : Txn Impl}

theorem applyGrant_refused {entropy : Entropy} {request : GrantAuthorityRequest} {r : GrantResult}
    (h : applyGrant entropy request t = .ok r u) (hr : r.outcome ≠ .granted) : u = t := by
  rcases applyGrant_cases h with ⟨hidle, -⟩ | ⟨p, digest, -, hcommit⟩
  · exact hidle
  · obtain ⟨_, _, _, _, _, _, hout, _⟩ := commitGrant_ok hcommit
    exact absurd hout hr

theorem applyRevoke_refused {request : RevokeAuthorityRequest} {r : RevokeResult}
    (h : applyRevoke request t = .ok r u) (hr : r.outcome ≠ .revoked) : u = t := by
  rcases applyRevoke_cases h with ⟨hidle, -⟩ | ⟨digest, grant, -, hcommit⟩
  · exact hidle
  · obtain ⟨_, _, _, _, _, _, _, _, hout, _⟩ := commitRevoke_ok hcommit
    exact absurd hout hr

theorem advanceEpoch_refused {entropy : Entropy} {request : EpochAdvanceRequest}
    {r : EpochAdvanceResult} (h : advanceEpoch entropy request t = .ok r u)
    (hr : r.outcome ≠ .advanced) : u = t := by
  rcases advanceEpoch_cases h with ⟨hidle, -⟩ | ⟨digest, -, hcommit⟩
  · exact hidle
  · obtain ⟨_, _, _, _, hout, _⟩ := commitAdvance_ok hcommit
    exact absurd hout hr

theorem applyRetire_refused {request : RetireParticipantRequest} {r : RetireResult}
    (h : applyRetire request t = .ok r u) (hr : r.outcome ≠ .retired) : u = t := by
  rcases applyRetire_cases h with ⟨hidle, -⟩ | ⟨p, digest, -, hcommit⟩
  · exact hidle
  · obtain ⟨_, _, _, _, _, _, _, hout, _⟩ := commitRetire_ok hcommit
    exact absurd hout hr

/-- A fence by request that fences nobody leaves even the replay table alone. -/
theorem fenceWorker_refused {request : FenceWorkerRequest} {r : FenceResult}
    (hfresh : t.mutated = false) (h : fenceWorker request t = .ok r u) (hr : r.outcome ≠ .fenced) :
    u = t := by
  rcases fenceWorker_cases h with ⟨hidle, -⟩ | ⟨p, digest, -, hcommit⟩
  · exact hidle
  · rcases commitFence_ok hfresh hcommit with ⟨-, hidle⟩ | ⟨hout, -⟩
    · exact hidle
    · exact absurd hout hr

variable {request : RegisterParticipantRequest} {c : Bool} {r : RegistrationResult}

/-- A registration that fences no incumbent, likewise. -/
theorem applyRegistration_refused (hcalm : t.state.fencesIncumbent request = false)
    (h : applyRegistration request c t = .ok r u) (hr : r.outcome ≠ .registered) : u = t := by
  have hview : SameView t.state t.state := ⟨rfl, rfl, rfl, fun _ => rfl, fun _ _ => rfl, rfl, rfl, rfl⟩
  rcases applyRegistration_parallel hview hcalm h h with ⟨-, hidle, -⟩ | ⟨digest, p, -, hcommit, -⟩
  · exact hidle
  · exact absurd (commitRegistration_registered hcommit) hr

theorem workers_updateParticipant (id : ParticipantId)
    (f : DurableParticipant → DurableParticipant) (s : Impl) :
    (s.updateParticipant id f).activeWorkers = s.activeWorkers := by
  unfold Impl.updateParticipant
  split <;> rfl

/-- The fence of a live incarnation frees one place. -/
theorem workers_fenced (id : ParticipantId) (boot : WorkerBootId) (i : IncarnationSequence)
    (record : FenceRecord) (s : Impl) :
    ((s.applyRemoval id boot i).applyFence id record).activeWorkers = s.activeWorkers - 1 := by
  have hremoved : (s.applyRemoval id boot i).activeWorkers = s.activeWorkers - 1 := by
    unfold Impl.applyRemoval
    rw [workers_updateParticipant]
    rfl
  unfold Impl.applyFence
  show (Impl.updateParticipant id _ _).activeWorkers = _
  rw [workers_updateParticipant]
  exact hremoved

/-- **A registration that fences an incumbent** is accepted exactly where the
place of the incumbent is one below the limit; its fence is marked either way. -/
theorem applyRegistration_replacing (hfences : t.state.fencesIncumbent request = true)
    (h : applyRegistration request c t = .ok r u) :
    (r.outcome = .registered ↔
      t.state.activeWorkers - 1 < t.state.options.limits.maxActiveWorkers) ∧
      (r.outcome ≠ .registered → u.mutated = true ∧
        t.state.state.generation.value < u.state.state.generation.value) := by
  obtain ⟨boot, i, record, next, t₁, digest, q, ht₁, hnext, hmutated, hadmit⟩ :=
    applyRegistration_replaces hfences h
  have hworkers : t₁.state.activeWorkers = t.state.activeWorkers - 1 := by
    rw [ht₁]
    exact workers_fenced _ _ _ _ _
  have hoptions : t₁.state.options = t.state.options := by
    rw [ht₁]
    exact (options_updateParticipant _ _ _).trans (options_applyRemoval t.state _ boot i)
  unfold admitRegistration at hadmit
  rw [Action.bind_current, hworkers, hoptions] at hadmit
  by_cases hfull : t.state.activeWorkers - 1 ≥ t.state.options.limits.maxActiveWorkers
  · rw [if_pos hfull] at hadmit
    obtain ⟨rfl, rfl⟩ := Action.pure_ok.mp hadmit
    constructor
    · constructor
      · intro hout
        cases hout
      · intro hroom
        omega
    · intro _
      have hvalue := MonotonicCounter.next_eq_some hnext
      refine ⟨hmutated, ?_⟩
      rw [ht₁]
      show _ < next.value
      omega
  · rw [if_neg hfull] at hadmit
    have hout := commitRegistration_registered hadmit
    exact ⟨⟨fun _ => Nat.not_le.mp hfull, fun _ => hout⟩, fun hne => absurd hout hne⟩

end Operations

/-! ## Calls -/

section Calls

variable {entropy : Entropy} {fault : Option SaveFault} {disk : Disk} {impl : Impl}

/-- A transaction that does nothing where it is refused. -/
theorem transact_refused {α : Type} {op : Op α} {tag : α → Reply} {reply : Reply}
    (hop : ∀ a u, op (Txn.start impl) = .ok a u → ¬ (tag a).Succeeded → u = Txn.start impl)
    (h : ((transact op fault disk impl).map tag).result = .ok reply) (hr : ¬ reply.Succeeded) :
    ((transact op fault disk impl).map tag).impl = impl ∧
      ((transact op fault disk impl).map tag).disk = disk := by
  obtain ⟨a, ha⟩ := Transacted.map_result_ok h
  have hreply : tag a = reply := by
    have hmap : ((transact op fault disk impl).map tag).result = .ok (tag a) := by
      show (transact op fault disk impl).result.map tag = _
      rw [ha]
      rfl
    exact Except.ok.inj (hmap.symm.trans h)
  obtain ⟨u, hu, -⟩ := transact_ok ha
  rw [hop a u hu (hreply ▸ hr)] at hu
  have hidle := transact_idle hu fault disk
  constructor
  · show (transact op fault disk impl).impl = impl
    rw [hidle]
  · show (transact op fault disk impl).disk = disk
    rw [hidle]

/-- **A refusal changes nothing**: of a request that returns, the answer is its
success or everything is as it was, unless the request replaces in vain; then it
is refused, and the incumbent stays fenced. -/
theorem refusesCleanly_iff {call : Call} (hcall : call.IsRequest) {reply : Reply}
    (h : (callRuntime call entropy fault disk impl).result = .ok reply) :
    (¬ reply.Succeeded → (callRuntime call entropy fault disk impl).impl = impl ∧
        (callRuntime call entropy fault disk impl).disk = disk) ↔
      ¬ call.ReplacesInVain impl := by
  cases call with
  | registerBatch | bind | close | flush => exact hcall.elim
  | fence request =>
    refine iff_of_true (transact_refused (fun a u hu hr => ?_) h) id
    exact fenceWorker_refused rfl hu hr
  | grant request =>
    refine iff_of_true (transact_refused (fun a u hu hr => ?_) h) id
    exact applyGrant_refused hu hr
  | revoke request =>
    refine iff_of_true (transact_refused (fun a u hu hr => ?_) h) id
    exact applyRevoke_refused hu hr
  | retire request =>
    refine iff_of_true (transact_refused (fun a u hu hr => ?_) h) id
    exact applyRetire_refused hu hr
  | advance request =>
    refine iff_of_true (transact_refused (fun a u hu hr => ?_) h) id
    exact advanceEpoch_refused hu hr
  | register request =>
    by_cases hvain : (Call.register request).ReplacesInVain impl
    · refine iff_of_false (fun hclean => ?_) (not_not.mpr hvain)
      obtain ⟨r, hresult⟩ := Transacted.map_result_ok h
      obtain ⟨u, hu, hcommitted⟩ := transact_ok hresult
      have hreplacing := applyRegistration_replacing (t := Txn.start impl) hvain.1 hu
      have hrefused : r.outcome ≠ .registered := fun hout =>
        absurd (hreplacing.1.mp hout) (Nat.not_lt.mpr hvain.2)
      obtain ⟨hmutated, hlater⟩ := hreplacing.2 hrefused
      have hreply : ¬ reply.Succeeded := by
        have hmap : (callRuntime (.register request) entropy fault disk impl).result =
            .ok (.registered r) := by
          show (transact _ _ _ _).result.map _ = _
          rw [hresult]
          rfl
        rw [← Except.ok.inj (hmap.symm.trans h)]
        exact hrefused
      -- the fence has raised the generation, and was saved
      have hsame := congrArg (·.state.generation.value) (hclean hreply).1
      rcases hcommitted with ⟨hidle, -⟩ | ⟨-, image, previous, -, heq⟩
      · rw [hmutated] at hidle
        cases hidle
      · have hgeneration : (callRuntime (.register request) entropy fault disk
            impl).impl.state.generation.value = u.state.state.generation.value := by
          show (transact _ _ _ _).impl.state.generation.value = _
          rw [heq]
          rfl
        exact absurd (hgeneration.symm.trans hsame) (Nat.ne_of_gt hlater)
    · refine iff_of_true (transact_refused (fun a u hu hr => ?_) h) hvain
      by_cases hfences : impl.fencesIncumbent request = true
      · have hroom := Nat.not_le.mp fun hfull => hvain ⟨hfences, hfull⟩
        exact absurd ((applyRegistration_replacing (t := Txn.start impl) hfences hu).1.mpr hroom) hr
      · exact applyRegistration_refused ((Bool.not_eq_true _).mp hfences) hu hr

end Calls

/-! ## A store opened again -/

/-- The payload of the state is read back under these limits. -/
def readsBack (limits : Limits) (state : DurableState) : Bool :=
  match encodeDurablePayload state with
  | .ok payload => decide (payload.length ≤ EpochStore.kAbsoluteMaxPayloadLength) &&
      (decodeDurablePayload payload limits).toOption.isSome
  | .error _ => false

/-- What is read back is the state. -/
theorem decode_of_readsBack {limits : Limits} {state : DurableState} {image : Bytes}
    (hencode : EpochStore.encode state = .ok image) (h : readsBack limits state = true) :
    EpochStore.decode (EpochStore.runtimeOptions limits) image = .ok state := by
  obtain ⟨payload, hvalid, hpayload, hlen, rfl⟩ := EpochStore.encode_ok.mp hencode
  unfold readsBack at h
  simp only [hpayload, Bool.and_eq_true, decide_eq_true_eq] at h
  obtain ⟨hmax, hsome⟩ := h
  cases hread : decodeDurablePayload payload limits with
  | error e =>
    rw [hread] at hsome
    cases hsome
  | ok state' =>
    obtain rfl := decodeDurablePayload_only hpayload hlen hread
    rw [EpochStore.decode_frame _ hlen, if_neg (Nat.not_lt.mpr hmax)]
    show (decodeDurablePayload payload limits >>= _) = _
    rw [hread]
    exact Checks.bind_ok.mpr ⟨state', rfl, Checks.bind_discard.mpr
      ⟨⟨(), validateDurableState_ok.mpr hvalid⟩, rfl⟩⟩

/-- **An opening that establishes no epoch** takes the saved state as it is,
under its own options. -/
theorem reopened {host : Host} (hreach : coordinator.Reaches Quietly host) {impl : Impl}
    (himpl : host.runtime = some impl) {opening : Opening} {boot : CoordinatorBootId}
    (hviable : isViable opening.options.limits = true) (hboot : opening.boot = .ok boot)
    (hkeep : opening.options.advanceEpochOnOpen = false)
    (hread : readsBack opening.options.limits impl.state = true) {w : Nat}
    (hwatermark : EpochStore.readWatermark (EpochStore.runtimeOptions opening.options.limits)
      host.disk = .ok w) (hle : w ≤ impl.state.currentEpoch.value) :
    coordinator.step host (.open opening none) =
      (⟨host.disk, some (opening.impl impl.state boot)⟩, some (.ok .opened)) := by
  obtain ⟨-, -, -, hepoch⟩ := (quietRun_kept hreach).memory impl himpl
  obtain ⟨image, himage, hencode⟩ := (quietRun_kept hreach).saved impl himpl
  have hload : EpochStore.load (EpochStore.runtimeOptions opening.options.limits) host.disk =
      .ok impl.state := by
    unfold EpochStore.load
    simp only [himage]
    rw [decode_of_readsBack hencode hread]
    refine Checks.bind_ok.mpr ⟨impl.state, rfl, ?_⟩
    rw [if_pos (show (EpochStore.runtimeOptions opening.options.limits).enableRollbackWatermark =
      true from rfl)]
    refine Checks.bind_ok.mpr ⟨w, hwatermark, ?_⟩
    rw [Checks.bind_refuseIf]
    exact ⟨Nat.not_lt.mpr hle, rfl⟩
  have hloaded : loadRuntime opening host.disk = .ok (impl.state, boot) := by
    unfold loadRuntime
    rw [Checks.bind_refuseIf, hload, hboot]
    exact ⟨by simp [hviable], rfl⟩
  have hopen : openRuntime opening none host.disk =
      (some (opening.impl impl.state boot), host.disk, .ok .opened) := by
    unfold openRuntime
    rw [hloaded]
    dsimp only
    rw [if_neg (by simp [hkeep]), if_pos (isZero_not hepoch)]
    rfl
  obtain ⟨disk, runtime⟩ := host
  cases himpl
  show ((⟨(openRuntime opening none disk).2.1, (openRuntime opening none disk).1⟩ : Host),
    some (openRuntime opening none disk).2.2) = _
  rw [hopen]

/-! ## A replacement in vain -/

/-- Incumbents are replaced, and so many workers may be active. -/
def crowdedOptions (workers : Nat) (advance : Bool) : EpochRuntimeOptions where
  limits := { defaultLimits with maxActiveWorkers := workers }
  replacementPolicy := .replaceIncumbent
  advanceEpochOnOpen := advance

/-- Two participants register, where two workers may be active. -/
def crowdedRun : List Input := [
  testOpen (crowdedOptions 2 true) 1,
  callOf (.register (testRegister 3 (testParticipant "p") (smallId 11))),
  callOf (.register (testRegister 4 (testParticipant "q") (smallId 12)))]

/-- The store is opened again where only one may. -/
def crowdedOpening : Opening := ⟨crowdedOptions 1 false, testEntropy 5, testEntropy 5⟩

/-- A newcomer for the first of them. -/
def newcomer : Call := .register (testRegister 6 (testParticipant "p") (smallId 13))

/-- The newcomer is refused, and who is registered has no live incarnation any
more. -/
def replacedInVain (impl : Impl) (disk : Disk) : Bool :=
  let done := callRuntime newcomer (testEntropy 9) none disk impl
  match done.result with
  | .ok reply => decide (¬ reply.Succeeded) &&
      decide ((impl.state.lookup (testParticipant "p")).map (·.liveBoots) = some [smallId 11]) &&
      decide ((done.impl.state.lookup (testParticipant "p")).map (·.liveBoots) = some []) &&
      decide (impl.fencesIncumbent (testRegister 6 (testParticipant "p") (smallId 13)) = true ∧
        impl.options.limits.maxActiveWorkers ≤ impl.activeWorkers - 1)
  | .error _ => false

/-- A reachable memory in which this happens. -/
theorem crowded : ∃ host impl, coordinator.Reaches Quietly host ∧ host.runtime = some impl ∧
    replacedInVain impl host.disk = true := by
  have hquiet : coordinator.Reaches Quietly (coordinator.run coordinator.init crowdedRun) :=
    Machine.leads_run (by decide +kernel)
  have hvalues : (coordinator.run coordinator.init crowdedRun).runtime.map (fun impl =>
      (readsBack crowdedOpening.options.limits impl.state,
        decide (1 ≤ impl.state.currentEpoch.value),
        replacedInVain (crowdedOpening.impl impl.state (smallId 5))
          (coordinator.run coordinator.init crowdedRun).disk)) = some (true, true, true) := by
    decide +kernel
  have hwatermark : (EpochStore.readWatermark
      (EpochStore.runtimeOptions crowdedOpening.options.limits)
      (coordinator.run coordinator.init crowdedRun).disk).toOption = some 1 := by
    decide +kernel
  generalize coordinator.run coordinator.init crowdedRun = host at hquiet hvalues hwatermark
  obtain ⟨impl, himpl, hvalue⟩ := Option.map_eq_some_iff.mp hvalues
  obtain ⟨hread, hrest⟩ := Prod.mk.inj hvalue
  obtain ⟨hepoch, hvain⟩ := Prod.mk.inj hrest
  cases hw : EpochStore.readWatermark (EpochStore.runtimeOptions crowdedOpening.options.limits)
      host.disk with
  | error e =>
    rw [hw] at hwatermark
    cases hwatermark
  | ok w =>
    rw [hw] at hwatermark
    obtain rfl : w = 1 := Option.some.inj hwatermark
    have hstep : coordinator.step host (.open crowdedOpening none) =
        (⟨host.disk, some (crowdedOpening.impl impl.state (smallId 5))⟩, some (.ok .opened)) :=
      reopened hquiet himpl (by decide) rfl rfl hread hw (of_decide_eq_true hepoch)
    have hreach : coordinator.Reaches Quietly
        (coordinator.step host (.open crowdedOpening none)).1 := by
      refine hquiet.tail _ ?_
      intro e he
      rw [hstep] at he
      cases he
    rw [hstep] at hreach
    exact ⟨_, _, hreach, rfl, hvain⟩

theorem refusesCleanly_iff_test : ∃ host impl reply, coordinator.Reaches Quietly host ∧
    host.runtime = some impl ∧
    (callRuntime newcomer (testEntropy 9) none host.disk impl).result = .ok reply ∧
    ¬ (¬ reply.Succeeded →
      (callRuntime newcomer (testEntropy 9) none host.disk impl).impl = impl ∧
        (callRuntime newcomer (testEntropy 9) none host.disk impl).disk = host.disk) := by
  obtain ⟨host, impl, hreach, himpl, hvain⟩ := crowded
  unfold replacedInVain at hvain
  cases hr : (callRuntime newcomer (testEntropy 9) none host.disk impl).result with
  | error e => simp only [hr, Bool.false_eq_true] at hvain
  | ok reply =>
    simp only [hr, Bool.and_eq_true, decide_eq_true_eq] at hvain
    have hrequest : newcomer.IsRequest := trivial
    exact ⟨host, impl, reply, hreach, himpl, hr,
      fun hclean => (refusesCleanly_iff hrequest hr).mp hclean hvain.2⟩

/-- **A refused newcomer costs the incumbent its place**: before the call the
participant has a live incarnation, behind it none, and the answer is a refusal. -/
theorem refusal_fences : ∃ host impl reply, coordinator.Reaches Quietly host ∧
    host.runtime = some impl ∧
    (callRuntime newcomer (testEntropy 9) none host.disk impl).result = .ok reply ∧
    ¬ reply.Succeeded ∧
    (impl.state.lookup (testParticipant "p")).map (·.liveBoots) = some [smallId 11] ∧
    ((callRuntime newcomer (testEntropy 9) none host.disk impl).impl.state.lookup
      (testParticipant "p")).map (·.liveBoots) = some [] := by
  obtain ⟨host, impl, hreach, himpl, hvain⟩ := crowded
  unfold replacedInVain at hvain
  cases hr : (callRuntime newcomer (testEntropy 9) none host.disk impl).result with
  | error e => simp only [hr, Bool.false_eq_true] at hvain
  | ok reply =>
    simp only [hr, Bool.and_eq_true, decide_eq_true_eq] at hvain
    obtain ⟨⟨⟨hrefused, hbefore⟩, hafter⟩, -⟩ := hvain
    exact ⟨host, impl, reply, hreach, himpl, hr, hrefused, hbefore, hafter⟩

end FabricEpoch
