import FabricEpoch.Client

/-!
# Remote calls are local calls

A method of the client encodes its arguments, and the server decodes them, calls the
runtime, and encodes what that returns. `RemoteCall.perform` is the same call made in
the process of the coordinator, on behalf of a session.

- `RemoteCall.asked`: the request that leaves the client is the one that the server
  dispatches on;
- `RemoteCall.served`: what the server does with it and sends for it;
- `remoteCall`: so a method returns what the local call returns, and leaves the same
  runtime and the same disk behind, however the connection is cut into pieces.
-/

namespace FabricEpoch

open ByteCodec Checks Wire Transaction

/-! ## Calls -/

/-- A call of a method of the client. `generated` is the identifier of its frame where the
method generates one. -/
inductive RemoteCall where
  | hello (generated : MutationAttemptId) (role : Text)
  | registerParticipant (request : RegisterParticipantRequest) (session : SessionId)
  | validateAuthority (generated : MutationAttemptId) (request : ValidateAuthorityRequest)
  | fenceWorker (request : FenceWorkerRequest)
  | revokeAuthority (request : RevokeAuthorityRequest)
  | retireParticipant (request : RetireParticipantRequest)
  | advanceEpoch (request : EpochAdvanceRequest)
  | epochState (generated : MutationAttemptId)
  | queryParticipant (generated : MutationAttemptId) (participant : ParticipantId)
  | snapshot (generated : MutationAttemptId)
  | explain (generated : MutationAttemptId) (participant : ParticipantId) (boot : WorkerBootId)

namespace RemoteCall

/-- What it returns. -/
def Result : RemoteCall → Type
  | hello _ _ => HelloAckPayload
  | registerParticipant _ _ => RegistrationResult
  | validateAuthority _ _ => AuthorityValidation
  | fenceWorker _ => FenceResult
  | revokeAuthority _ => RevokeResult
  | retireParticipant _ => RetireResult
  | advanceEpoch _ => EpochAdvanceResult
  | epochState _ => EpochState
  | queryParticipant _ _ => Option ParticipantView
  | snapshot _ => AuthoritySnapshot
  | explain _ _ _ => Explanation

def method (limits : Limits) : (call : RemoteCall) → Method call.Result
  | hello generated role => CoordinatorClient.hello limits generated role
  | registerParticipant request session =>
    CoordinatorClient.registerParticipant limits request session
  | validateAuthority generated request =>
    CoordinatorClient.validateAuthority limits generated request
  | fenceWorker request => CoordinatorClient.fenceWorker limits request
  | revokeAuthority request => CoordinatorClient.revokeAuthority limits request
  | retireParticipant request => CoordinatorClient.retireParticipant limits request
  | advanceEpoch request => CoordinatorClient.advanceEpoch limits request
  | epochState generated => CoordinatorClient.epochState limits generated
  | queryParticipant generated participant =>
    CoordinatorClient.queryParticipant limits generated participant
  | snapshot generated => CoordinatorClient.snapshot limits generated
  | explain generated participant boot => CoordinatorClient.explain limits generated participant boot

/-- What the server dispatches on, where the call arrives as it was made. -/
def request : RemoteCall → Request
  | hello _ role => .hello (.ok role)
  | registerParticipant request _ => .register (.ok request)
  | validateAuthority _ request => .validate (.ok request)
  | fenceWorker request => .fence (.ok request)
  | revokeAuthority request => .revoke (.ok request)
  | retireParticipant request => .retire (.ok request)
  | advanceEpoch request => .advance (.ok request)
  | epochState _ => .epochState (.ok 0)
  | queryParticipant _ participant => .queryParticipant (.ok participant)
  | snapshot _ => .snapshot (.ok 0)
  | explain _ participant boot => .explain (.ok (participant, boot))

/-- The arguments have an encoding. -/
def WellFormed (limits : Limits) : RemoteCall → Prop
  | hello _ role => role.length ≤ kMaxRoleTextLength
  | registerParticipant request _ => RegisterRequestOk limits request
  | validateAuthority _ request => ValidateRequestOk request
  | fenceWorker request => FenceRequestOk limits request
  | revokeAuthority request => TextOk limits request.note
  | retireParticipant request => RetireRequestOk limits request
  | advanceEpoch request => TextOk limits request.provenance
  | queryParticipant _ participant => participant.Parses
  | explain _ participant _ => participant.Parses
  | epochState _ | snapshot _ => True

end RemoteCall

/-! ## The same calls in the process of the coordinator -/

/-- A registration for a session: it is bound to what was registered, and at most once. -/
def Service.performRegister (s : Service) (x : Session) (request : RegisterParticipantRequest)
    (fault : Option SaveFault) : Transacted RegistrationResult :=
  if x.binding.isSome then
    ⟨s.impl, s.disk, .error
      (protocolViolation "session is already bound to a worker incarnation")⟩
  else
    let done := transact (applyRegistration request true) fault s.disk s.impl
    match done.result with
    | .error _ => done
    | .ok result =>
      if result.outcome = .registered ∨ result.outcome = .idempotent then
        if (x.candidate request result).incarnation.isZero then
          ⟨done.impl, done.disk, .error
            (protocolViolation "registration did not produce an incarnation sequence")⟩
        else
          match done.impl.bindSession (x.candidate request result) with
          | .error e => ⟨done.impl, done.disk, .error e⟩
          | .ok (false, impl) => ⟨impl, done.disk, .error
            (protocolViolation "session could not be bound to the new incarnation")⟩
          | .ok (true, impl) => ⟨impl, done.disk, .ok result⟩
      else done

namespace RemoteCall

def perform (options : ServerOptions) (s : Service) (x : Session) (entropy : Entropy)
    (fault : Option SaveFault) : (call : RemoteCall) → Transacted call.Result
  | hello _ role => ⟨s.impl, s.disk,
    if role.isEmpty then .error (malformed "HELLO carries an empty role")
    else .ok ⟨s.impl.state.currentEpoch, s.impl.state.coordinatorBoot, x.id,
      options.productVersion⟩⟩
  | registerParticipant request _ => s.performRegister x request fault
  | validateAuthority _ request => ⟨s.impl, s.disk, .ok (s.impl.validate request)⟩
  | fenceWorker request => transact (FabricEpoch.fenceWorker request) fault s.disk s.impl
  | revokeAuthority request => transact (applyRevoke request) fault s.disk s.impl
  | retireParticipant request => transact (applyRetire request) fault s.disk s.impl
  | advanceEpoch request => transact (FabricEpoch.advanceEpoch entropy request) fault s.disk s.impl
  | epochState _ => ⟨s.impl, s.disk, .ok s.impl.buildState⟩
  | queryParticipant _ participant => ⟨s.impl, s.disk, .ok (s.impl.queryParticipant participant)⟩
  | snapshot _ => ⟨s.impl, s.disk, s.impl.buildSnapshot entropy⟩
  | explain _ participant boot => ⟨s.impl, s.disk, .ok (s.impl.explainAuthority participant boot)⟩

end RemoteCall

/-! ## What leaves the client -/

/-- An encoding that is read back is read as a whole. -/
theorem decodeAll_of_roundTrips {α : Type} {dec : Reader α} {enc : Writer} {x : α} {b : Bytes}
    (h : RoundTrips dec enc x) (hb : enc.Yields b) : decodeAll dec b = .ok x := by
  obtain ⟨b', hb', hread⟩ := h
  obtain rfl := hb.unique hb'
  have hnil := hread []
  rw [List.append_nil] at hnil
  exact decodeAll_ok.mpr hnil

theorem versionString_length :
    CoordinatorClient.versionString.length ≤ kMaxVersionTextLength := by decide

theorem roundTrips_snapshotRequest : RoundTrips ByteReader.u32 encodeSnapshotRequest 0 := by
  have hu32 : RoundTrips ByteReader.u32 (ByteWriter.u32 0) 0 :=
    .of_decodes (leWord_decodes truncated (by decide)) trivial (Emit.emits_bytes _)
  rwa [encodeSnapshotRequest, Emit.concat_single]

namespace RemoteCall

variable {hash : Bytes → Block 32} {limits : Limits}

/-- **The server decodes what the client encodes.** -/
theorem ofFrame_request (hlimits : 128 ≤ limits.maxStringSize) {call : RemoteCall}
    (hcall : call.WellFormed limits) {frame : Frame}
    (htype : frame.header.type = (call.method limits).requestType)
    (hpayload : (call.method limits).payload.Yields frame.payload) :
    Request.ofFrame limits frame = call.request := by
  unfold Request.ofFrame
  rw [htype]
  cases call with
  | hello generated role =>
    have hhello := roundTrips_hello hlimits
      (show HelloOk ⟨CoordinatorClient.versionString, role, wireProtocolVersion⟩ from
        ⟨rfl, versionString_length, hcall⟩)
    exact congrArg (fun payload => Request.hello (Except.map _ payload))
      (decodeAll_of_roundTrips hhello hpayload)
  | registerParticipant request session =>
    exact congrArg (fun payload => Request.register (Except.map _ payload))
      (decodeAll_of_roundTrips (roundTrips_registerRequest hlimits (by exact hcall)) hpayload)
  | validateAuthority generated request =>
    exact congrArg Request.validate
      (decodeAll_of_roundTrips (roundTrips_validateRequest hlimits hcall) hpayload)
  | fenceWorker request =>
    exact congrArg Request.fence
      (decodeAll_of_roundTrips (roundTrips_fenceRequest hlimits hcall) hpayload)
  | revokeAuthority request =>
    exact congrArg Request.revoke (decodeAll_of_roundTrips (roundTrips_revokeRequest hcall) hpayload)
  | retireParticipant request =>
    exact congrArg Request.retire
      (decodeAll_of_roundTrips (roundTrips_retireRequest hlimits hcall) hpayload)
  | advanceEpoch request =>
    exact congrArg Request.advance
      (decodeAll_of_roundTrips (roundTrips_advanceRequest hcall) hpayload)
  | epochState generated =>
    exact congrArg (fun payload => Request.epochState (Except.map _ payload))
      (decodeAll_of_roundTrips roundTrips_snapshotRequest hpayload)
  | queryParticipant generated participant =>
    exact congrArg Request.queryParticipant
      (decodeAll_of_roundTrips (roundTrips_participant hlimits hcall _) hpayload)
  | snapshot generated =>
    exact congrArg (fun payload => Request.snapshot (Except.map _ payload))
      (decodeAll_of_roundTrips roundTrips_snapshotRequest hpayload)
  | explain generated participant boot =>
    exact congrArg (fun payload => Request.explain (Except.map _ payload))
      (decodeAll_of_roundTrips (roundTrips_explainRequest hlimits (by exact hcall)) hpayload)

/-! ## What the server sends -/

/-- The type and the payload of the answer. -/
def answer (limits : Limits) : (call : RemoteCall) → call.Result → MessageType × Writer
  | hello _ _, ack => (.helloAck, encodeHelloAck ack)
  | registerParticipant _ _, result => (.registerAck, encodeRegisterResult result limits)
  | validateAuthority _ _, validation => (.validateResult, encodeValidation validation limits)
  | fenceWorker _, result => (.fenceAck, encodeFenceResult result limits)
  | revokeAuthority _, result => (.revokeAck, encodeRevokeResult result limits)
  | retireParticipant _, result => (.retireAck, encodeRetireResult result limits)
  | advanceEpoch _, result => (.advanceEpochAck, encodeAdvanceResult result limits)
  | epochState _, state => (.epochStateResponse, encodeEpochState state)
  | queryParticipant _ _, none => (.error, encodeError 2 (str "unknown participant") limits)
  | queryParticipant _ _, some view => (.participantState, encodeParticipantView view)
  | snapshot _, taken => (.snapshotResponse, encodeSnapshotResponse taken limits)
  | explain _ _ _, explanation =>
    (.explainResponse, encodeExplanationPayload explanation limits)

/-- The session behind the call. -/
def after (x : Session) : (call : RemoteCall) → call.Result → Session
  | hello _ _, _ => { x with helloSeen := true }
  | registerParticipant request _, result =>
    if result.outcome = .registered ∨ result.outcome = .idempotent then
      { x.issue result (x.candidate request result) with
        binding := some (x.candidate request result), phase := .serving }
    else x
  | _, _ => x

/-- The session can make the call: it has said HELLO, or says it now. -/
structure Admits (s : Service) (x : Session) (call : RemoteCall) : Prop where
  running : s.stopNow = false
  serving : x.phase = .serving
  greeted : x.helloSeen = true ∨ call.request.isHello = true

variable {options : ServerOptions} {s : Service} {x : Session} {call : RemoteCall}
  {requestId : MutationAttemptId} {entropy : Entropy} {fault : Option SaveFault}
  {write : Option EpochError}

theorem Admits.serveTurn (h : Admits s x call) :
    s.serveTurn x (.frame requestId call.request) write entropy fault =
      s.dispatch x requestId call.request write entropy fault := by
  unfold Service.serveTurn
  rw [if_neg (by rw [h.running]; exact Bool.false_ne_true)]
  dsimp only
  rw [if_neg]
  rcases h.greeted with hseen | hhello
  · rw [hseen]
    exact Bool.false_ne_true
  · rw [hhello, Bool.not_true, Bool.and_false]
    exact Bool.false_ne_true

/-- An iteration without a registration to bind is a turn. -/
theorem iterate_of_serving {request : Request} {served : Served}
    (hturn : s.serveTurn x (.frame requestId request) write entropy fault = served)
    (hphase : ∀ id result candidate, served.session.phase ≠ .registered id result candidate) :
    s.iterate x requestId request write entropy fault = served := by
  unfold Service.iterate
  rw [hturn]
  dsimp only
  split
  · next id result candidate h => exact absurd h (hphase id result candidate)
  · rfl

/-- What an iteration comes to whose call has returned. -/
structure Answers (options : ServerOptions) (s : Service) (x : Session)
    (requestId : MutationAttemptId) (call : RemoteCall) (entropy : Entropy) (impl : Impl)
    (disk : Disk) (result : call.Result) (served : Served) : Prop where
  impl : served.impl = impl
  disk : served.disk = disk
  running : served.stopNow = s.stopNow
  session : served.session = call.after x result
  sent : ∃ outgoing epoch, served.sent = [(requestId, outgoing)] ∧
    outgoing.message options call.request entropy s.impl served.impl =
      some ⟨(call.answer options.limits result).1, epoch, (call.answer options.limits result).2⟩

/-- A call on the runtime that may save, acknowledged. -/
theorem acknowledge_ok {α : Type} {done : Transacted α} {result : α} {reply : α → Reply}
    (hdone : done.result = .ok result) :
    s.acknowledge x requestId (done.map reply) .ack none =
      { impl := done.impl, disk := done.disk, stopNow := s.stopNow, session := x,
        sent := [(requestId, .ack (reply result))], called := some (.ok ()) } := by
  unfold Service.acknowledge Transacted.map
  rw [hdone]
  rfl

/-- An iteration that ends in a session that goes on serving. -/
theorem iterate_of_turn {request : Request} {served : Served}
    (hturn : s.serveTurn x (.frame requestId request) write entropy fault = served)
    (hphase : served.session.phase = .serving) :
    s.iterate x requestId request write entropy fault = served := by
  refine iterate_of_serving hturn fun id result candidate h => ?_
  rw [hphase] at h
  cases h

theorem isEmpty_of_hello {role : Text} {generated : MutationAttemptId} {ack : HelloAckPayload}
    (h : (perform options s x entropy fault (.hello generated role)).result = .ok ack) :
    role.isEmpty = false ∧ ack = ⟨s.impl.state.currentEpoch, s.impl.state.coordinatorBoot, x.id,
      options.productVersion⟩ := by
  unfold perform at h
  dsimp only at h
  split at h
  · cases h
  · next hrole =>
    cases h
    exact ⟨Bool.eq_false_iff.mpr hrole, rfl⟩

/-- A registration that returns: its session is bound, or there was nothing to bind. -/
theorem performRegister_ok {request : RegisterParticipantRequest} {result : RegistrationResult}
    {done : Transacted RegistrationResult}
    (hdone : transact (applyRegistration request true) fault s.disk s.impl = done)
    (h : (s.performRegister x request fault).result = .ok result) :
    x.binding.isSome = false ∧ done.result = .ok result ∧
      ((result.outcome = .registered ∨ result.outcome = .idempotent) ∧
          (x.candidate request result).incarnation.isZero = false ∧
          (∃ impl, done.impl.bindSession (x.candidate request result) = .ok (true, impl) ∧
            s.performRegister x request fault = ⟨impl, done.disk, .ok result⟩) ∨
        ¬ (result.outcome = .registered ∨ result.outcome = .idempotent) ∧
          s.performRegister x request fault = done) := by
  unfold Service.performRegister at h ⊢
  rw [hdone] at h ⊢
  dsimp only at h ⊢
  split at h
  · cases h
  · next hbinding =>
    rw [if_neg hbinding]
    refine ⟨Bool.eq_false_iff.mpr hbinding, ?_⟩
    cases hresult : done.result with
    | error e =>
      rw [hresult] at h
      dsimp only at h
      rw [hresult] at h
      cases h
    | ok result' =>
      rw [hresult] at h
      dsimp only at h ⊢
      by_cases hbinds : result'.outcome = .registered ∨ result'.outcome = .idempotent
      · rw [if_pos hbinds] at h ⊢
        by_cases hzero : (x.candidate request result').incarnation.isZero = true
        · rw [if_pos hzero] at h
          cases h
        · rw [if_neg hzero] at h ⊢
          cases hbind : done.impl.bindSession (x.candidate request result') with
          | error e => rw [hbind] at h; cases h
          | ok bound =>
            obtain ⟨accepted, impl⟩ := bound
            cases accepted with
            | false => rw [hbind] at h; cases h
            | true =>
              rw [hbind] at h
              cases h
              exact ⟨rfl, .inl ⟨hbinds, Bool.eq_false_iff.mpr hzero, impl, hbind, rfl⟩⟩
      · rw [if_neg hbinds] at h ⊢
        rw [hresult] at h
        cases h
        exact ⟨rfl, .inr ⟨hbinds, rfl⟩⟩

/-- **A call that returns is answered**, and it is the same call. -/
theorem iterate_answers (hadmits : Admits s x call) {result : call.Result}
    (hresult : (call.perform options s x entropy fault).result = .ok result) :
    Answers options s x requestId call entropy (call.perform options s x entropy fault).impl
      (call.perform options s x entropy fault).disk result
      (s.iterate x requestId call.request none entropy fault) := by
  have hturn : s.serveTurn x (.frame requestId call.request) none entropy fault = _ :=
    hadmits.serveTurn
  cases call with
  | hello generated role =>
    obtain ⟨hrole, rfl⟩ := isEmpty_of_hello hresult
    have hdispatch : s.dispatch x requestId (.hello (.ok role)) none entropy fault =
        s.answer { x with helloSeen := true } requestId (.helloAck s.impl.state.currentEpoch
          s.impl.state.coordinatorBoot x.id) none := if_neg (by rw [hrole]; exact Bool.false_ne_true)
    rw [iterate_of_turn (hturn.trans hdispatch) hadmits.serving]
    exact ⟨rfl, rfl, rfl, rfl, _, _, rfl, rfl⟩
  | registerParticipant request session =>
    obtain ⟨done, hdone⟩ :
        ∃ done, transact (applyRegistration request true) fault s.disk s.impl = done := ⟨_, rfl⟩
    obtain ⟨hfree, hresult', hcases⟩ := performRegister_ok hdone hresult
    have hregister : s.dispatch x requestId (.register (.ok request)) none entropy fault =
        s.serveRegister x requestId request none fault :=
      if_neg (by rw [hfree]; exact Bool.false_ne_true)
    have hperform : perform options s x entropy fault (.registerParticipant request session) =
        s.performRegister x request fault := rfl
    rcases hcases with ⟨hbinds, hzero, impl, hbind, hperformed⟩ | ⟨hother, hperformed⟩
    · have hserved : s.serveRegister x requestId request none fault = { { s with
          impl := done.impl, disk := done.disk }.stay { x.issue result (x.candidate request result)
            with phase := .registered requestId result (x.candidate request result) } [] with
          called := some (.ok ()) } := by
        unfold Service.serveRegister
        rw [hdone]
        dsimp only
        rw [hresult']
        dsimp only
        rw [if_pos hbinds, if_neg (by rw [hzero]; exact Bool.false_ne_true)]
      -- the turn stops in front of `bind_session`, and the iteration goes on with it
      have hiterate : s.iterate x requestId (.register (.ok request)) none entropy fault =
          { impl := impl, disk := done.disk, stopNow := s.stopNow,
            session := { x.issue result (x.candidate request result) with
              binding := some (x.candidate request result), phase := .serving },
            sent := [(requestId, .registerAck result)], called := some (.ok ()) } := by
        have hregistered : s.serveTurn x (.frame requestId (.register (.ok request))) none entropy
            fault = _ := hturn.trans (hregister.trans hserved)
        unfold Service.iterate
        rw [hregistered]
        dsimp only [Service.stay]
        unfold Service.bindTurn
        rw [hbind]
        rfl
      rw [hperform, hperformed]
      refine ⟨?_, ?_, ?_, ?_, .registerAck result, result.epoch, ?_, rfl⟩
      · exact congrArg Served.impl hiterate
      · exact congrArg Served.disk hiterate
      · exact congrArg Served.stopNow hiterate
      · exact (congrArg Served.session hiterate).trans (if_pos hbinds).symm
      · exact congrArg Served.sent hiterate
    · have hserved : s.serveRegister x requestId request none fault =
          { { s with impl := done.impl, disk := done.disk }.answer x requestId (.registerAck result)
              none with called := some (.ok ()) } := by
        unfold Service.serveRegister
        rw [hdone]
        dsimp only
        rw [hresult']
        dsimp only
        rw [if_neg hother]
      rw [iterate_of_turn (hturn.trans (hregister.trans hserved)) hadmits.serving, hperform,
        hperformed]
      refine ⟨rfl, rfl, rfl, ?_, _, _, rfl, rfl⟩
      exact (if_neg hother).symm
  | validateAuthority generated request =>
    cases hresult
    rw [iterate_of_turn hturn hadmits.serving]
    exact ⟨rfl, rfl, rfl, rfl, _, _, rfl, rfl⟩
  | fenceWorker request =>
    rw [iterate_of_turn (hturn.trans (acknowledge_ok hresult)) hadmits.serving]
    exact ⟨rfl, rfl, rfl, rfl, _, _, rfl, rfl⟩
  | revokeAuthority request =>
    rw [iterate_of_turn (hturn.trans (acknowledge_ok hresult)) hadmits.serving]
    exact ⟨rfl, rfl, rfl, rfl, _, _, rfl, rfl⟩
  | retireParticipant request =>
    rw [iterate_of_turn (hturn.trans (acknowledge_ok hresult)) hadmits.serving]
    exact ⟨rfl, rfl, rfl, rfl, _, _, rfl, rfl⟩
  | advanceEpoch request =>
    rw [iterate_of_turn (hturn.trans (acknowledge_ok hresult)) hadmits.serving]
    exact ⟨rfl, rfl, rfl, rfl, _, _, rfl, rfl⟩
  | epochState generated =>
    cases hresult
    rw [iterate_of_turn hturn hadmits.serving]
    exact ⟨rfl, rfl, rfl, rfl, _, _, rfl, rfl⟩
  | queryParticipant generated participant =>
    cases hresult
    cases hfind : s.impl.findParticipant participant with
    | none =>
      have hdispatch : s.dispatch x requestId (.queryParticipant (.ok participant)) none entropy
          fault = s.tell x requestId 2 "unknown participant" none := by
        unfold Service.dispatch Service.decoded
        dsimp only
        rw [hfind]
      have hview : s.impl.queryParticipant participant = none := by
        unfold Impl.queryParticipant
        rw [hfind]
        rfl
      rw [iterate_of_turn (hturn.trans hdispatch) hadmits.serving, hview]
      exact ⟨rfl, rfl, rfl, rfl, _, _, rfl, rfl⟩
    | some owner =>
      have hdispatch : s.dispatch x requestId (.queryParticipant (.ok participant)) none entropy
          fault = s.answer x requestId .participantState none := by
        unfold Service.dispatch Service.decoded
        dsimp only
        rw [hfind]
      have hview : s.impl.queryParticipant participant = some owner.toView := by
        unfold Impl.queryParticipant
        rw [hfind]
        rfl
      rw [iterate_of_turn (hturn.trans hdispatch) hadmits.serving, hview]
      refine ⟨rfl, rfl, rfl, rfl, .participantState, s.impl.state.currentEpoch, rfl, ?_⟩
      show Option.map _ (s.impl.queryParticipant participant) = _
      rw [hview]
      rfl
  | snapshot generated =>
    rw [iterate_of_turn hturn hadmits.serving]
    have hbuilt : s.impl.buildSnapshot entropy = .ok result := hresult
    refine ⟨rfl, rfl, rfl, rfl, .snapshotResponse, result.epoch, rfl, ?_⟩
    unfold Outgoing.message
    dsimp only
    rw [hbuilt]
    rfl
  | explain generated participant boot =>
    cases hresult
    rw [iterate_of_turn hturn hadmits.serving]
    exact ⟨rfl, rfl, rfl, rfl, _, _, rfl, rfl⟩

/-! ## What the client makes of it -/

/-- The result has an encoding that is read back. -/
def Answerable (limits : Limits) : (call : RemoteCall) → call.Result → Prop
  | hello _ _, ack => ack.productVersion.length ≤ kMaxVersionTextLength
  | registerParticipant _ _, result => RegisterResultOk limits result
  | validateAuthority _ _, validation => ExplanationOk limits validation.explanation
  | fenceWorker _, result => FenceResultOk limits result
  | revokeAuthority _, result => RevokeResultOk limits result
  | retireParticipant _, result => RetireResultOk limits result
  | advanceEpoch _, result => AdvanceResultOk limits result
  | epochState _, state => EpochStateOk state
  | queryParticipant _ _, none => True
  | queryParticipant _ _, some view => ViewOk limits view
  | snapshot _, taken => SnapshotOk limits taken
  | explain _ _ _, explanation => ExplanationOk limits explanation

theorem answer_type (result : call.Result) :
    (call.answer limits result).1.isRequestMessage = false := by
  cases call with
  | queryParticipant generated participant => cases result <;> rfl
  | _ => rfl

theorem response_type : (call.method limits).responseType ≠ .error := by
  intro h
  cases call <;> cases h

/-- What a method makes of an answer. -/
def Reads {α : Type} (m : Method α) (frame : Frame) (result : α) : Prop :=
  if frame.header.type = .error then
    m.rejected frame.payload = .ok result ∧ ∀ client, m.learn result client = client
  else frame.header.type = m.responseType ∧ m.decode frame.payload = .ok result

/-- The answer is encoded, and read as what the call returned. -/
structure Conveys (limits : Limits) (call : RemoteCall) (result : call.Result) (payload : Bytes) :
    Prop where
  yields : (call.answer limits result).2.Yields payload
  reads : ∀ frame : Frame, frame.header.type = (call.answer limits result).1 →
    frame.payload = payload → Reads (call.method limits) frame result

/-- The answers other than an error frame. -/
theorem conveys_of_roundTrips {α : Type} {dec : Reader α} {result : call.Result} {value : α}
    {convert : α → call.Result} (h : RoundTrips dec (call.answer limits result).2 value)
    (htype : (call.answer limits result).1 = (call.method limits).responseType)
    (hdecode : (call.method limits).decode = fun payload => (decodeAll dec payload).map convert)
    (hvalue : convert value = result) : ∃ payload, Conveys limits call result payload := by
  have hread := h
  obtain ⟨payload, hyields, -⟩ := h
  refine ⟨payload, hyields, ?_⟩
  rintro frame hframe rfl
  unfold Reads
  rw [if_neg (by rw [hframe, htype]; exact response_type), hframe, htype, hdecode]
  refine ⟨rfl, ?_⟩
  dsimp only
  rw [decodeAll_of_roundTrips hread hyields, ← hvalue]
  rfl

theorem map_id {α : Type} {decode : Bytes → Except EpochError α} :
    decode = fun payload => (decode payload).map id := by
  funext payload
  cases decode payload <;> rfl

theorem roundTrips_error {code : UInt16} {message : Text}
    (hmessage : message.length ≤ ByteReader.kAbsoluteMaxBytes) :
    RoundTrips (readError limits) (encodeError code message limits)
      ⟨code, message.take limits.maxStringSize⟩ := by
  have htaken : (if message.length > limits.maxStringSize then message.take limits.maxStringSize
      else message) = message.take limits.maxStringSize := by
    split
    · rfl
    · next h => exact (List.take_of_length_le (Nat.not_lt.mp h)).symm
  have hlength : (message.take limits.maxStringSize).length ≤ message.length :=
    List.length_take_le' _ _
  unfold encodeError
  rw [htaken]
  exact .field (roundTrips_u16 code) <| .field (roundTrips_string
    ⟨Nat.le_trans hlength hmessage, List.length_take_le _ _, List.length_take_le _ _⟩) <| .done rfl

/-- **The client decodes what the server encodes.** -/
theorem answer_conveys (hlimits : 128 ≤ limits.maxStringSize) {result : call.Result}
    (hanswer : call.Answerable limits result) : ∃ payload, Conveys limits call result payload := by
  cases call with
  | hello generated role =>
    exact conveys_of_roundTrips (roundTrips_helloAck hlimits hanswer) rfl map_id rfl
  | registerParticipant request session =>
    exact conveys_of_roundTrips (roundTrips_registerResult hanswer) rfl map_id rfl
  | validateAuthority generated request =>
    exact conveys_of_roundTrips (roundTrips_validation hanswer) rfl map_id rfl
  | fenceWorker request =>
    exact conveys_of_roundTrips (roundTrips_fenceResult hanswer) rfl map_id rfl
  | revokeAuthority request =>
    exact conveys_of_roundTrips (roundTrips_revokeResult hanswer) rfl map_id rfl
  | retireParticipant request =>
    exact conveys_of_roundTrips (roundTrips_retireResult hanswer) rfl map_id rfl
  | advanceEpoch request =>
    exact conveys_of_roundTrips (roundTrips_advanceResult hanswer) rfl map_id rfl
  | epochState generated =>
    exact conveys_of_roundTrips (roundTrips_epochState hanswer) rfl map_id rfl
  | queryParticipant generated participant =>
    cases result with
    | none =>
      obtain ⟨payload, hyields, -⟩ : RoundTrips (readError limits)
        (encodeError 2 (str "unknown participant") limits) _ := roundTrips_error (by decide)
      refine ⟨payload, hyields, fun frame hframe _ => ?_⟩
      have herror : frame.header.type = .error := hframe
      unfold Reads
      rw [if_pos herror]
      exact ⟨rfl, fun _ => rfl⟩
    | some view =>
      exact conveys_of_roundTrips (roundTrips_view hlimits hanswer) rfl rfl rfl
  | snapshot generated =>
    exact conveys_of_roundTrips (roundTrips_snapshot hlimits hanswer) rfl map_id rfl
  | explain generated participant boot =>
    exact conveys_of_roundTrips (roundTrips_explanation hanswer) rfl map_id rfl

theorem hear_ok {α : Type} {m : Method α} {client : CoordinatorClient} {back back' : Socket}
    {frame : Frame} {result : α}
    (hreceive : receive hash client.limits back = .ok (some (frame, back')))
    (hreads : Reads m frame result) :
    m.hear hash client back = .ok (result, m.learn result client, back') := by
  unfold Reads at hreads
  unfold Method.hear
  rw [hreceive]
  show (if frame.header.type = .error then _ else _) = _
  split at hreads
  · next herror =>
    rw [if_pos herror, hreads.1, hreads.2]
    rfl
  · next herror =>
    rw [if_neg herror, refuseIf, if_neg (not_not.mpr hreads.1), hreads.2]
    rfl

/-! ## Frames on both ways -/

/-- What fits is sent, and as it is. -/
theorem sent_of_fits (hash : Bytes → Block 32) (sequence : UInt64) (epoch : CoordinatorEpoch)
    (requestId : MutationAttemptId) {type : MessageType} {payload : Bytes} (hword : limits.maxFramePayload < 2 ^ 32)
    (hfits : FrameFits limits type payload) :
    ∃ bytes frame, encodeFrame hash type sequence epoch requestId payload limits = .ok bytes ∧
      Frame.Sent hash limits frame bytes ∧ frame.header.type = type ∧ frame.payload = payload := by
  obtain ⟨b, hb, -⟩ := hashedFields_yields
    (sentHeader type sequence epoch requestId payload (Block.zero 32))
  have hencode : encodeFrame hash type sequence epoch requestId payload limits = .ok _ :=
    (encodeFrame_ok hb).mpr ⟨hfits, rfl⟩
  have hsize : payload.length < 2 ^ 32 := Nat.lt_of_le_of_lt hfits.1 hword
  exact ⟨_, _, hencode, ⟨type, sequence, epoch, requestId, payload, hsize, hencode, rfl⟩, rfl, rfl⟩

/-- What a method sends is the frame of its request. -/
theorem ask_sent {α : Type} {m : Method α} {client : CoordinatorClient} {bytes : Bytes}
    (hword : client.limits.maxFramePayload < 2 ^ 32) (hask : (m.ask hash client).1 = .ok bytes) :
    ∃ frame, Frame.Sent hash client.limits frame bytes ∧ frame.header.type = m.requestType ∧
      (⟨frame.header.requestId⟩ : MutationAttemptId) = m.requestId ∧
      m.payload.Yields frame.payload := by
  unfold Method.ask CoordinatorClient.send at hask
  split at hask
  · cases hask
  · split at hask
    · cases hask
    · next payload hpayload =>
      split at hask
      · cases hask
      · have hsize : payload.length < 2 ^ 32 := by
          obtain ⟨b, hb, -⟩ := hashedFields_yields (sentHeader m.requestType client.sequence
            client.epoch m.requestId payload (Block.zero 32))
          exact Nat.lt_of_le_of_lt ((encodeFrame_ok hb).mp hask).1.1 hword
        exact ⟨_, ⟨_, _, _, _, payload, hsize, hask, rfl⟩, rfl, rfl, hpayload⟩

/-- Asking moves the sequence on. -/
theorem ask_client {α : Type} {m : Method α} {client : CoordinatorClient} {bytes : Bytes}
    (hask : (m.ask hash client).1 = .ok bytes) :
    (m.ask hash client).2 = { client with sequence := client.sequence + 1 } := by
  unfold Method.ask CoordinatorClient.send at hask ⊢
  split at hask
  · cases hask
  · split at hask
    · cases hask
    · split at hask
      · cases hask
      · rfl

/-- An answer that can be encoded is what an iteration sends. -/
theorem serveFrame_sent {sequence : UInt64} {frame : Frame} {outgoing : Outgoing} {message : Message}
    {bytes : Bytes}
    (hsent : (s.iterate x ⟨frame.header.requestId⟩ (Request.ofFrame options.limits frame) none
      entropy fault).sent = [(requestId, outgoing)])
    (hmessage : outgoing.message options (Request.ofFrame options.limits frame) entropy s.impl
      (s.iterate x ⟨frame.header.requestId⟩ (Request.ofFrame options.limits frame) none entropy
        fault).impl = some message)
    (hwrite : writeFrame hash options sequence requestId message = .ok bytes) :
    s.serveFrame hash options x sequence frame entropy fault =
      (s.iterate x ⟨frame.header.requestId⟩ (Request.ofFrame options.limits frame) none entropy
        fault, bytes) := by
  have hall : writeAll hash options (Request.ofFrame options.limits frame) entropy s.impl
      (s.iterate x ⟨frame.header.requestId⟩ (Request.ofFrame options.limits frame) none entropy
        fault).impl sequence [(requestId, outgoing)] = .ok bytes := by
    unfold writeAll
    rw [hmessage]
    dsimp only
    rw [hwrite]
    show Except.ok (bytes ++ []) = _
    rw [List.append_nil]
  unfold Service.serveFrame
  dsimp only
  rw [hsent, hall]

/-! ## Refusals -/

/-- What an iteration comes to whose call has thrown: the session ends, and the error is
what is sent. -/
structure Refuses (impl : Impl) (disk : Disk) (e : EpochError) (served : Served) : Prop where
  impl : served.impl = impl
  disk : served.disk = disk
  phase : served.session.phase = .closing true
  sent : ∃ id code, served.sent = [(id, .error code e.message)]

theorem caught_refuses (e : EpochError) : Refuses s.impl s.disk e (s.caught x e) :=
  ⟨rfl, rfl, rfl, _, _, rfl⟩

theorem violate_refuses (code : Nat) (message : String) :
    Refuses s.impl s.disk (protocolViolation message) (s.violate x requestId code message) :=
  ⟨rfl, rfl, rfl, _, _, rfl⟩

theorem acknowledge_error {α : Type} {done : Transacted α} {e : EpochError} {reply : α → Reply}
    (hdone : done.result = .error e) :
    Refuses done.impl done.disk e (s.acknowledge x requestId (done.map reply) .ack write) := by
  unfold Service.acknowledge Transacted.map
  rw [hdone]
  exact ⟨rfl, rfl, rfl, _, _, rfl⟩

theorem iterate_refuses_of_turn {request : Request} {served : Served} {impl : Impl} {disk : Disk}
    {e : EpochError} (hturn : s.serveTurn x (.frame requestId request) write entropy fault = served)
    (h : Refuses impl disk e served) :
    Refuses impl disk e (s.iterate x requestId request write entropy fault) := by
  rw [iterate_of_serving hturn fun id result candidate hphase => ?_]
  · exact h
  · rw [h.phase] at hphase
    cases hphase

/-- A registration that is refused: the session is bound already, the call throws, it
gave no incarnation, or the session cannot be bound to it. -/
theorem iterate_refuses_register {request : RegisterParticipantRequest} {e : EpochError}
    (hturn : s.serveTurn x (.frame requestId (.register (.ok request))) write entropy fault =
      s.dispatch x requestId (.register (.ok request)) write entropy fault)
    (h : (s.performRegister x request fault).result = .error e) :
    Refuses (s.performRegister x request fault).impl (s.performRegister x request fault).disk e
      (s.iterate x requestId (.register (.ok request)) write entropy fault) := by
  have hdispatch : s.dispatch x requestId (.register (.ok request)) write entropy fault =
      if x.binding.isSome then
        s.violate x requestId 4 "session is already bound to a worker incarnation"
      else s.serveRegister x requestId request write fault := rfl
  rw [hdispatch] at hturn
  unfold Service.performRegister at h ⊢
  by_cases hbound : x.binding.isSome = true
  · rw [if_pos hbound] at h hturn ⊢
    cases h
    exact iterate_refuses_of_turn hturn (violate_refuses 4 _)
  rw [if_neg hbound] at h hturn ⊢
  unfold Service.serveRegister at hturn
  generalize transact (applyRegistration request true) fault s.disk s.impl = done at h hturn ⊢
  obtain ⟨impl, disk, result⟩ := done
  cases result with
  | error e' =>
    cases h
    exact iterate_refuses_of_turn hturn ⟨rfl, rfl, rfl, _, _, rfl⟩
  | ok result =>
    dsimp only at h hturn ⊢
    by_cases hbinds : result.outcome = .registered ∨ result.outcome = .idempotent
    · rw [if_pos hbinds] at h hturn ⊢
      by_cases hzero : (x.candidate request result).incarnation.isZero = true
      · rw [if_pos hzero] at h hturn ⊢
        cases h
        exact iterate_refuses_of_turn hturn ⟨rfl, rfl, rfl, _, _, rfl⟩
      · rw [if_neg hzero] at h hturn ⊢
        -- the turn is over, and what refuses is `bind_session`
        unfold Service.iterate
        rw [hturn]
        dsimp only [Service.stay]
        unfold Service.bindTurn
        dsimp only
        cases hbind : impl.bindSession (x.candidate request result) with
        | error e' =>
          rw [hbind] at h
          cases h
          exact ⟨rfl, rfl, rfl, _, _, rfl⟩
        | ok bound =>
          obtain ⟨accepted, impl'⟩ := bound
          rw [hbind] at h
          cases accepted with
          | true => cases h
          | false =>
            cases h
            exact ⟨rfl, rfl, rfl, _, _, rfl⟩
    · rw [if_neg hbinds] at h
      cases h

/-- **A call that throws is refused**: in the iteration, or, where it is the encoding of a
snapshot that fails, when that is noticed. -/
theorem iterate_refuses (hadmits : Admits s x call) {e : EpochError}
    (hresult : (call.perform options s x entropy fault).result = .error e) :
    (∀ write, Refuses (call.perform options s x entropy fault).impl
      (call.perform options s x entropy fault).disk e
      (s.iterate x requestId call.request write entropy fault)) ∨
    Refuses (call.perform options s x entropy fault).impl
        (call.perform options s x entropy fault).disk e
        (s.iterate x requestId call.request (some e) entropy fault) ∧
      ∃ message outgoing, (s.iterate x requestId call.request none entropy fault).sent =
          [(requestId, outgoing)] ∧ message.payload = Emit.fail e ∧
        ∀ now, outgoing.message options call.request entropy s.impl now = some message := by
  have hturn : ∀ write, s.serveTurn x (.frame requestId call.request) write entropy fault =
      s.dispatch x requestId call.request write entropy fault := fun _ => hadmits.serveTurn
  cases call with
  | hello generated role =>
    refine .inl fun write => ?_
    have hrole : role.isEmpty = true ∧ malformed "HELLO carries an empty role" = e := by
      unfold perform at hresult
      dsimp only at hresult
      split at hresult
      · next hempty =>
        cases hresult
        exact ⟨hempty, rfl⟩
      · cases hresult
    obtain ⟨hempty, rfl⟩ := hrole
    have hdispatch : s.dispatch x requestId (.hello (.ok role)) write entropy fault =
        s.caught x (malformed "HELLO carries an empty role") := if_pos hempty
    exact iterate_refuses_of_turn ((hturn write).trans hdispatch) (caught_refuses _)
  | registerParticipant request session =>
    exact .inl fun write => iterate_refuses_register (hturn write) hresult
  | validateAuthority generated request => cases hresult
  | fenceWorker request =>
    exact .inl fun write => iterate_refuses_of_turn (hturn write) (acknowledge_error hresult)
  | revokeAuthority request =>
    exact .inl fun write => iterate_refuses_of_turn (hturn write) (acknowledge_error hresult)
  | retireParticipant request =>
    exact .inl fun write => iterate_refuses_of_turn (hturn write) (acknowledge_error hresult)
  | advanceEpoch request =>
    exact .inl fun write => iterate_refuses_of_turn (hturn write) (acknowledge_error hresult)
  | epochState generated => cases hresult
  | queryParticipant generated participant => cases hresult
  | snapshot generated =>
    have hbuilt : s.impl.buildSnapshot entropy = .error e := hresult
    refine .inr ⟨iterate_refuses_of_turn (hturn (some e)) (caught_refuses e),
      ⟨.snapshotResponse, s.impl.state.currentEpoch, Emit.fail e⟩, .snapshotResponse, ?_, rfl, ?_⟩
    · exact congrArg Served.sent (iterate_of_turn (hturn none) hadmits.serving)
    · intro now
      unfold Outgoing.message
      dsimp only
      rw [hbuilt]
  | explain generated participant boot => cases hresult

/-- What comes in front of the message of a refusal. -/
def refusal : RemoteCall → String
  | hello _ _ => "HELLO rejected: "
  | _ => "coordinator rejected the request: "

/-- An error frame can always be written where a string and its length fit into one. -/
theorem refuses_written (hash : Bytes → Block 32) (hword : options.limits.maxFramePayload < 2 ^ 32)
    (hroom : options.limits.maxStringSize + 6 ≤ options.limits.maxFramePayload) {e : EpochError}
    (hmessage : (str e.message).length ≤ ByteReader.kAbsoluteMaxBytes) {impl before : Impl}
    {disk : Disk} {served : Served} (h : Refuses impl disk e served) (request : Request)
    (entropy : Entropy) (sequence : UInt64) :
    ∃ reply code error,
      writeAll hash options request entropy before served.impl sequence served.sent = .ok reply ∧
        Frame.Sent hash options.limits error reply ∧ error.header.type = .error ∧
        decodeAll (readError options.limits) error.payload =
          .ok ⟨code, (str e.message).take options.limits.maxStringSize⟩ := by
  obtain ⟨id, code, hsent⟩ := h.sent
  have hreads : RoundTrips (readError options.limits)
      (encodeError (UInt16.ofNat code) (str e.message) options.limits) _ := roundTrips_error hmessage
  have hwhole := hreads
  obtain ⟨payload, hyields, -⟩ := hreads
  have hlength : payload.length ≤ options.limits.maxFramePayload := by
    have htakes := ((takes_u16 (UInt16.ofNat code)).field
      ((takes_string _).field Emit.takes_nil)) payload hyields
    have hshort : (if (str e.message).length > options.limits.maxStringSize then
        (str e.message).take options.limits.maxStringSize else str e.message).length ≤
          options.limits.maxStringSize := by
      split
      · exact List.length_take_le _ _
      · next h => exact Nat.not_lt.mp h
    omega
  have hfits : FrameFits options.limits .error payload := ⟨hlength, fun h => (by cases h.1)⟩
  obtain ⟨reply, error, hencode, hreply, htype, hpayload⟩ :=
    sent_of_fits hash sequence served.impl.state.currentEpoch id hword hfits
  refine ⟨reply, UInt16.ofNat code, error, ?_, hreply, htype, ?_⟩
  · rw [hsent]
    unfold writeAll
    show Except.bind (Except.bind (encodeError (UInt16.ofNat code) (str e.message) options.limits) _)
      _ = _
    rw [hyields]
    show Except.bind (encodeFrame hash .error sequence served.impl.state.currentEpoch id payload
      options.limits) _ = _
    rw [hencode]
    show Except.ok (reply ++ []) = _
    rw [List.append_nil]
  · rw [hpayload]
    exact decodeAll_of_roundTrips hwhole hyields

/-- A refusal is sent as an error frame. -/
theorem serveFrame_refused (hword : options.limits.maxFramePayload < 2 ^ 32)
    (hroom : options.limits.maxStringSize + 6 ≤ options.limits.maxFramePayload)
    (hadmits : Admits s x call) {e : EpochError}
    (hmessage : (str e.message).length ≤ ByteReader.kAbsoluteMaxBytes)
    (hresult : (call.perform options s x entropy fault).result = .error e) {frame : Frame}
    (hrequest : Request.ofFrame options.limits frame = call.request) (sequence : UInt64) :
    ∃ served reply code error, s.serveFrame hash options x sequence frame entropy fault =
        (served, reply) ∧
      Refuses (call.perform options s x entropy fault).impl
        (call.perform options s x entropy fault).disk e served ∧
      Frame.Sent hash options.limits error reply ∧ error.header.type = .error ∧
      decodeAll (readError options.limits) error.payload =
        .ok ⟨code, (str e.message).take options.limits.maxStringSize⟩ := by
  rcases @iterate_refuses _ s x call ⟨frame.header.requestId⟩ entropy fault hadmits e hresult with
    hrefuses | ⟨hrefuses, message, outgoing, hsent, hfails, hwritten⟩
  · obtain ⟨reply, code, error, hwrite, hreply, htype, hreads⟩ :=
      refuses_written hash hword hroom hmessage (hrefuses none) call.request entropy sequence
    refine ⟨_, reply, code, error, ?_, hrefuses none, hreply, htype, hreads⟩
    unfold Service.serveFrame
    rw [hrequest]
    dsimp only
    rw [hwrite]
  · obtain ⟨reply, code, error, hwrite, hreply, htype, hreads⟩ :=
      refuses_written hash hword hroom hmessage hrefuses call.request entropy sequence
    refine ⟨_, reply, code, error, ?_, hrefuses, hreply, htype, hreads⟩
    have hfailed : ∀ now, writeAll hash options call.request entropy s.impl now sequence
        [(⟨frame.header.requestId⟩, outgoing)] = .error e := by
      intro now
      unfold writeAll
      rw [hwritten now]
      show Except.bind (Except.bind message.payload _) _ = _
      rw [hfails]
      rfl
    unfold Service.serveFrame
    rw [hrequest]
    dsimp only
    rw [hsent, hfailed]
    dsimp only
    rw [hwrite]
    rfl

/-- **The request arrives** as it was made, however the connection is cut. -/
theorem request_arrives {client : CoordinatorClient} {bytes later : Bytes} {inbound : Socket}
    (hlimits : 128 ≤ client.limits.maxStringSize)
    (hword : client.limits.maxFramePayload < 2 ^ 32) (hcall : call.WellFormed client.limits)
    (hask : ((call.method client.limits).ask hash client).1 = .ok bytes)
    (hinbound : inbound.pieces.flatten = bytes ++ later) :
    ∃ frame inbound', readFrame hash client.limits inbound = .ok (some (frame, inbound')) ∧
      inbound'.pieces.flatten = later ∧ Request.ofFrame client.limits frame = call.request := by
  obtain ⟨frame, hframe, htype, -, hpayload⟩ := ask_sent hword hask
  obtain ⟨inbound', hread, hlater⟩ := receiveFrame_sent hframe hinbound
  exact ⟨frame, inbound', hread, hlater, ofFrame_request hlimits hcall htype hpayload⟩

/-- What a method throws for an error frame. -/
theorem hear_refused {client : CoordinatorClient} {back back' : Socket} {error : Frame}
    {code : UInt16} {message : Text} {e : EpochError}
    (hresult : (call.perform options s x entropy fault).result = .error e)
    (hreceive : receive hash client.limits back = .ok (some (error, back')))
    (htype : error.header.type = .error)
    (hreads : decodeAll (readError limits) error.payload = .ok ⟨code, message⟩) :
    (call.method limits).hear hash client back =
      .error (protocolViolation (call.refusal ++ Text.asString message)) := by
  have hrejected : (call.method limits).rejected error.payload =
      .error (protocolViolation (call.refusal ++ Text.asString message)) := by
    have hthrown : ∀ (α : Type) (what : String), (rejectRequest limits what error.payload :
        Except EpochError α) = .error (protocolViolation (what ++ Text.asString message)) := by
      intro α what
      unfold rejectRequest
      rw [hreads]
      rfl
    cases call with
    | queryParticipant generated participant => cases hresult
    | _ => exact hthrown _ _
  unfold Method.hear
  rw [hreceive]
  show (if error.header.type = .error then _ else _) = _
  rw [if_pos htype, hrejected]
  rfl

end RemoteCall

/-- **A remote call is a local call.** The request is read from the connection however
that is cut; the server makes the same call on the runtime, with the same effect on it
and on the disk; and what it sends is read by the client, however that is cut, as what
the call returned. -/
theorem remoteCall (hash : Bytes → Block 32) (options : ServerOptions)
    (hlimits : 128 ≤ options.limits.maxStringSize) (hword : options.limits.maxFramePayload < 2 ^ 32)
    (s : Service) (x : Session) (client : CoordinatorClient) (hclient : client.limits = options.limits)
    (call : RemoteCall) (hcall : call.WellFormed options.limits) (hadmits : call.Admits s x)
    (entropy : Entropy) (fault : Option SaveFault) (result : call.Result)
    (hresult : (call.perform options s x entropy fault).result = .ok result)
    (hanswer : call.Answerable options.limits result)
    (hfits : ∀ payload, (call.answer options.limits result).2.Yields payload →
      payload.length ≤ options.limits.maxFramePayload)
    (bytes later : Bytes) (hask : ((call.method options.limits).ask hash client).1 = .ok bytes)
    (inbound : Socket) (hinbound : inbound.pieces.flatten = bytes ++ later) (sequence : UInt64) :
    ∃ frame inbound', readFrame hash options.limits inbound = .ok (some (frame, inbound')) ∧
      inbound'.pieces.flatten = later ∧
      ∃ served reply, s.serveFrame hash options x sequence frame entropy fault = (served, reply) ∧
        served.impl = (call.perform options s x entropy fault).impl ∧
        served.disk = (call.perform options s x entropy fault).disk ∧
        served.session = call.after x result ∧
        ∀ (back : Socket) (rest : Bytes), back.pieces.flatten = reply ++ rest →
          ∃ back', (call.method options.limits).hear hash
              ((call.method options.limits).ask hash client).2 back =
                .ok (result, (call.method options.limits).learn result
                  { client with sequence := client.sequence + 1 }, back') ∧
            back'.pieces.flatten = rest := by
  obtain ⟨limits, version⟩ := options
  dsimp only at hlimits hword hclient hcall hanswer hfits hask ⊢
  subst hclient
  obtain ⟨frame, inbound', hread, hlater, hrequest⟩ :=
    RemoteCall.request_arrives hlimits hword hcall hask hinbound
  refine ⟨frame, inbound', hread, hlater, ?_⟩
  have hiterate : RemoteCall.Answers _ _ _ ⟨frame.header.requestId⟩ _ _ _ _ _ _ :=
    RemoteCall.iterate_answers hadmits hresult
  obtain ⟨outgoing, epoch, hsent, hmessage⟩ := hiterate.sent
  obtain ⟨payload, hconveys⟩ := RemoteCall.answer_conveys hlimits hanswer
  have hframeFits : FrameFits client.limits (call.answer client.limits result).1 payload := by
    refine ⟨hfits payload hconveys.yields, fun h => ?_⟩
    rw [RemoteCall.answer_type] at h
    cases h.1
  obtain ⟨reply, answered, hencode, hreply, hansweredType, hansweredPayload⟩ :=
    RemoteCall.sent_of_fits hash sequence epoch ⟨frame.header.requestId⟩ hword hframeFits
  have hserve : s.serveFrame hash ⟨client.limits, version⟩ x sequence frame entropy fault =
      (s.iterate x ⟨frame.header.requestId⟩ (Request.ofFrame client.limits frame) none entropy
        fault, reply) := by
    refine RemoteCall.serveFrame_sent (by rw [hrequest]; exact hsent) (by rw [hrequest]; exact hmessage) ?_
    show Except.bind (call.answer client.limits result).2 _ = _
    rw [hconveys.yields]
    exact hencode
  refine ⟨_, reply, hserve, ?_, ?_, ?_, ?_⟩
  · rw [hrequest, hiterate.impl]
  · rw [hrequest, hiterate.disk]
  · rw [hrequest, hiterate.session]
  · intro back rest hback
    obtain ⟨back', hreceive, hrest⟩ := receiveFrame_sent hreply hback
    refine ⟨back', ?_, hrest⟩
    rw [RemoteCall.ask_client hask]
    exact RemoteCall.hear_ok hreceive (hconveys.reads answered hansweredType hansweredPayload)

/-- **A refused call is told**: what the local call throws is what the method throws, as a
violation with the message behind its own words. -/
theorem remoteRefusal (hash : Bytes → Block 32) (options : ServerOptions)
    (hlimits : 128 ≤ options.limits.maxStringSize) (hword : options.limits.maxFramePayload < 2 ^ 32)
    (hroom : options.limits.maxStringSize + 6 ≤ options.limits.maxFramePayload)
    (s : Service) (x : Session) (client : CoordinatorClient) (hclient : client.limits = options.limits)
    (call : RemoteCall) (hcall : call.WellFormed options.limits) (hadmits : call.Admits s x)
    (entropy : Entropy) (fault : Option SaveFault) (e : EpochError)
    (hresult : (call.perform options s x entropy fault).result = .error e)
    (hmessage : (str e.message).length ≤ ByteReader.kAbsoluteMaxBytes)
    (bytes later : Bytes) (hask : ((call.method options.limits).ask hash client).1 = .ok bytes)
    (inbound : Socket) (hinbound : inbound.pieces.flatten = bytes ++ later) (sequence : UInt64) :
    ∃ frame inbound', readFrame hash options.limits inbound = .ok (some (frame, inbound')) ∧
      inbound'.pieces.flatten = later ∧
      ∃ served reply, s.serveFrame hash options x sequence frame entropy fault = (served, reply) ∧
        served.impl = (call.perform options s x entropy fault).impl ∧
        served.disk = (call.perform options s x entropy fault).disk ∧
        served.session.phase = .closing true ∧
        ∀ (back : Socket) (rest : Bytes), back.pieces.flatten = reply ++ rest →
          (call.method options.limits).hear hash
              ((call.method options.limits).ask hash client).2 back =
            .error (protocolViolation (call.refusal ++
              Text.asString ((str e.message).take options.limits.maxStringSize))) := by
  obtain ⟨limits, version⟩ := options
  dsimp only at hlimits hword hroom hclient hcall hask ⊢
  subst hclient
  obtain ⟨frame, inbound', hread, hlater, hrequest⟩ :=
    RemoteCall.request_arrives hlimits hword hcall hask hinbound
  obtain ⟨served, reply, code, error, hserve, hrefuses, hreply, htype, hreads⟩ :=
    @RemoteCall.serveFrame_refused hash ⟨client.limits, version⟩ s x call entropy fault hword hroom
      hadmits e hmessage hresult frame hrequest sequence
  refine ⟨frame, inbound', hread, hlater, served, reply, hserve, hrefuses.impl, hrefuses.disk,
    hrefuses.phase, fun back rest hback => ?_⟩
  obtain ⟨back', hreceive, -⟩ := receiveFrame_sent hreply hback
  rw [RemoteCall.ask_client hask]
  exact RemoteCall.hear_refused hresult hreceive htype hreads

/-! ## Conversations -/

/-- A call, with what the coordinator meets while it serves it, and the sequence number of
the frame that it answers with. -/
structure Asked where
  call : RemoteCall
  entropy : Entropy
  fault : Option SaveFault
  sequence : UInt64

/-- What calls came to, up to the first that threw, and what they left behind. -/
structure Conversation where
  outcomes : List (Σ call : RemoteCall, Except EpochError call.Result)
  impl : Impl
  disk : Disk

/-- The outcome of a call in front of the others. -/
def Conversation.cons (call : RemoteCall) (outcome : Except EpochError call.Result)
    (rest : Conversation) : Conversation :=
  { rest with outcomes := ⟨call, outcome⟩ :: rest.outcomes }

/-- One call after the other over a connection. `wire` hands the bytes of a frame out on
the other side. -/
def converse (hash : Bytes → Block 32) (options : ServerOptions) (wire : Bytes → Socket) :
    Service → Session → CoordinatorClient → List Asked → Conversation
  | s, _, _, [] => ⟨[], s.impl, s.disk⟩
  | s, x, client, a :: rest =>
    let m := a.call.method client.limits
    match (m.ask hash client).1 with
    | .error e => ⟨[⟨a.call, .error e⟩], s.impl, s.disk⟩
    | .ok bytes =>
      match readFrame hash options.limits (wire bytes) with
      | .ok (some (frame, _)) =>
        let answered := s.serveFrame hash options x a.sequence frame a.entropy a.fault
        match m.hear hash (m.ask hash client).2 (wire answered.2) with
        | .ok (result, client, _) =>
          (converse hash options wire { s with impl := answered.1.impl, disk := answered.1.disk }
            answered.1.session client rest).cons a.call (.ok result)
        | .error e => ⟨[⟨a.call, .error e⟩], answered.1.impl, answered.1.disk⟩
      | _ => ⟨[], s.impl, s.disk⟩

/-- The error that a client is left with. -/
def RemoteCall.told (limits : Limits) (call : RemoteCall) (e : EpochError) : EpochError :=
  protocolViolation (call.refusal ++ Text.asString ((str e.message).take limits.maxStringSize))

/-- The same calls in the process of the coordinator. -/
def performAll (options : ServerOptions) : Service → Session → List Asked → Conversation
  | s, _, [] => ⟨[], s.impl, s.disk⟩
  | s, x, a :: rest =>
    let done := a.call.perform options s x a.entropy a.fault
    match done.result with
    | .ok result =>
      (performAll options { s with impl := done.impl, disk := done.disk } (a.call.after x result)
        rest).cons a.call (.ok result)
    | .error e => ⟨[⟨a.call, .error (a.call.told options.limits e)⟩], done.impl, done.disk⟩

/-- Every request and every answer has an encoding that fits into a frame, and the session
can make the calls. -/
def Transmissible (hash : Bytes → Block 32) (options : ServerOptions) :
    Service → Session → CoordinatorClient → List Asked → Prop
  | _, _, _, [] => True
  | s, x, client, a :: rest =>
    a.call.WellFormed options.limits ∧ a.call.Admits s x ∧
    (∃ bytes, ((a.call.method options.limits).ask hash client).1 = .ok bytes) ∧
    (∀ e, (a.call.perform options s x a.entropy a.fault).result = .error e →
      (str e.message).length ≤ ByteReader.kAbsoluteMaxBytes) ∧
    ∀ result, (a.call.perform options s x a.entropy a.fault).result = .ok result →
      a.call.Answerable options.limits result ∧
      (∀ payload, (a.call.answer options.limits result).2.Yields payload →
        payload.length ≤ options.limits.maxFramePayload) ∧
      Transmissible hash options
        { s with impl := (a.call.perform options s x a.entropy a.fault).impl,
                 disk := (a.call.perform options s x a.entropy a.fault).disk }
        (a.call.after x result)
        ((a.call.method options.limits).learn result { client with sequence := client.sequence + 1 })
        rest

/-- What a method learns are no limits. -/
theorem learn_limits {limits : Limits} {call : RemoteCall} (result : call.Result)
    (client : CoordinatorClient) :
    ((call.method limits).learn result client).limits = client.limits := by
  cases call <;> rfl

/-- **A conversation over a connection** comes to what the same calls come to in the
process of the coordinator, and leaves the same runtime and the same disk behind,
wherever the bytes are cut on their ways. -/
theorem conversation_local (hash : Bytes → Block 32) (options : ServerOptions)
    (hlimits : 128 ≤ options.limits.maxStringSize) (hword : options.limits.maxFramePayload < 2 ^ 32)
    (hroom : options.limits.maxStringSize + 6 ≤ options.limits.maxFramePayload)
    (wire : Bytes → Socket) (hwire : ∀ bytes, (wire bytes).pieces.flatten = bytes)
    (s : Service) (x : Session) (client : CoordinatorClient) (hclient : client.limits = options.limits)
    (asked : List Asked) (h : Transmissible hash options s x client asked) :
    converse hash options wire s x client asked = performAll options s x asked := by
  induction asked generalizing s x client with
  | nil => rfl
  | cons a rest ih =>
    obtain ⟨hcall, hadmits, ⟨bytes, hask⟩, herror, hok⟩ := h
    have hinbound : (wire bytes).pieces.flatten = bytes ++ [] := by
      rw [hwire, List.append_nil]
    unfold converse performAll
    dsimp only
    rw [hclient, hask]
    dsimp only
    cases hresult : (a.call.perform options s x a.entropy a.fault).result with
    | ok result =>
      obtain ⟨hanswer, hfits, hrest⟩ := hok result hresult
      obtain ⟨frame, inbound', hread, -, served, reply, hserve, himpl, hdisk, hsession, hheard⟩ :=
        remoteCall hash options hlimits hword s x client hclient a.call hcall hadmits a.entropy
          a.fault result hresult hanswer hfits bytes [] hask (wire bytes) hinbound a.sequence
      obtain ⟨back', hhear, -⟩ := hheard (wire reply) [] (by rw [hwire, List.append_nil])
      rw [hread]
      dsimp only
      rw [hserve]
      dsimp only
      rw [hhear]
      dsimp only
      rw [himpl, hdisk, hsession]
      exact congrArg (Conversation.cons a.call (.ok result))
        (ih _ _ _ ((learn_limits result _).trans hclient) hrest)
    | error e =>
      obtain ⟨frame, inbound', hread, -, served, reply, hserve, himpl, hdisk, -, hheard⟩ :=
        remoteRefusal hash options hlimits hword hroom s x client hclient a.call hcall hadmits
          a.entropy a.fault e hresult (herror e hresult) bytes [] hask (wire bytes) hinbound
          a.sequence
      rw [hread]
      dsimp only
      rw [hserve]
      dsimp only
      rw [hheard (wire reply) [] (by rw [hwire, List.append_nil]), himpl, hdisk]
      rfl

/-! ### A conversation -/

theorem ask_ok {α : Type} (hash : Bytes → Block 32) {m : Method α} {client : CoordinatorClient}
    {payload : Bytes} (hword : client.limits.maxFramePayload < 2 ^ 32)
    (hcheck : m.check client = .ok ()) (hconnected : client.connected = true)
    (hpayload : m.payload.Yields payload) (hfits : FrameFits client.limits m.requestType payload) :
    ∃ bytes, (m.ask hash client).1 = .ok bytes := by
  obtain ⟨bytes, -, hencode, -⟩ := RemoteCall.sent_of_fits hash client.sequence client.epoch
    m.requestId hword hfits
  refine ⟨bytes, ?_⟩
  unfold Method.ask CoordinatorClient.send CoordinatorClient.ensureConnected
  rw [hcheck, hconnected]
  dsimp only
  rw [hpayload]
  exact hencode

/-- A worker says HELLO and asks for a participant that nobody has registered. -/
def testAsked : List Asked := [
  ⟨.hello (smallId 51) (str "worker"), testEntropy 8, none, 1⟩,
  ⟨.queryParticipant (smallId 52) (testParticipant "p"), testEntropy 8, none, 2⟩]

def testOptions : ServerOptions := ⟨defaultLimits, str "1.0.0"⟩

def testClient : CoordinatorClient := { limits := defaultLimits, connected := true }

theorem testAsked_transmissible (hash : Bytes → Block 32) {s : Service} (hstop : s.stopNow = false)
    (hunknown : s.impl.queryParticipant (testParticipant "p") = none) :
    Transmissible hash testOptions s { id := smallId 61 } testClient testAsked := by
  have hword : defaultLimits.maxFramePayload < 2 ^ 32 := by decide
  have hparses : (testParticipant "p").Parses := by decide +kernel
  refine ⟨show (str "worker").length ≤ kMaxRoleTextLength by decide, ⟨hstop, rfl, .inr rfl⟩,
    ?_, ?_, ?_⟩
  · have hhello : HelloOk ⟨CoordinatorClient.versionString, str "worker", wireProtocolVersion⟩ :=
      ⟨rfl, by decide, by decide⟩
    obtain ⟨payload, hyields, -⟩ : RoundTrips (readHello defaultLimits) _ _ :=
      roundTrips_hello (by decide) hhello
    have hlength := ((takes_u16 _).field ((takes_string _).field ((takes_string _).field
      Emit.takes_nil))) payload hyields
    refine ask_ok hash hword rfl rfl hyields ⟨?_, fun h => ?_⟩
    · rw [hlength]
      decide
    · rw [hlength] at h
      exact absurd h.2 (by decide)
  · intro e he
    cases he
  · intro ack hack
    cases hack
    refine ⟨show (str "1.0.0").length ≤ kMaxVersionTextLength by decide, fun payload hyields => ?_,
      hparses, ⟨hstop, rfl, .inl rfl⟩, ?_, ?_, ?_⟩
    · have hlength := ((takes_counter _).field ((takes_fixed _).field ((takes_fixed _).field
        ((takes_string _).field Emit.takes_nil)))) payload hyields
      rw [hlength]
      show 8 + (16 + (16 + (4 + (str "1.0.0").length + 0))) ≤ defaultLimits.maxFramePayload
      decide
    · obtain ⟨payload, hyields, -⟩ : RoundTrips (decodeVia (ByteReader.string defaultLimits _) _ _)
        _ _ := roundTrips_participant (by decide) hparses truncated
      have hlength := takes_string _ payload hyields
      have hsmall : 4 + (testParticipant "p").text.length ≤ defaultLimits.maxFramePayload ∧
          ¬ 4 + (testParticipant "p").text.length > defaultLimits.maxRequestSize := by decide
      refine ask_ok hash hword rfl rfl hyields ⟨?_, fun h => ?_⟩
      · rw [hlength]
        exact hsmall.1
      · rw [hlength] at h
        exact hsmall.2 h.2
    · intro e he
      cases he
    · intro view hview
      have hnone : (.ok (s.impl.queryParticipant (testParticipant "p")) :
          Except EpochError (Option ParticipantView)) = .ok view := hview
      rw [hunknown] at hnone
      cases hnone
      refine ⟨trivial, fun payload hyields => ?_, trivial⟩
      have hlength := ((takes_u16 _).field ((takes_string _).field Emit.takes_nil)) payload hyields
      rw [hlength]
      decide

/-- It is told so, as the coordinator would be. -/
theorem conversation_local_test : ∃ impl disk,
    (converse Sha256.hash testOptions (fun bytes => ⟨[bytes], .closed⟩) { impl, disk }
      { id := smallId 61 } testClient testAsked) =
        performAll testOptions { impl, disk } { id := smallId 61 } testAsked := by
  have hrun : (coordinator.run coordinator.init [testOpen {} 9]).runtime.map
      (fun impl => impl.queryParticipant (testParticipant "p")) = some none := by decide +kernel
  obtain ⟨impl, -, hunknown⟩ := Option.map_eq_some_iff.mp hrun
  refine ⟨impl, (coordinator.run coordinator.init [testOpen {} 9]).disk, ?_⟩
  exact conversation_local Sha256.hash testOptions (by decide) (by decide) (by decide) _
    (fun bytes => by simp) _ _ testClient rfl testAsked (testAsked_transmissible _ rfl hunknown)

end FabricEpoch
