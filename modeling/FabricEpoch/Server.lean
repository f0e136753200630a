import FabricEpoch.Runtime.Calls

/-!
# The coordinator server

Every accepted connection is served by a thread of its own. A thread reads one
frame a turn, calls the runtime, and answers. Each call on the runtime is atomic;
between two calls of a thread the others run. So a turn is cut where the source
calls the runtime a second time: a registration and the binding of its session
are two steps, and so are the end of the loop and the closing of the session.

- `Session`: the locals of one `serve`, and where in its code it is;
- `Service.serveTurn`, `Service.bindTurn`, `Service.closeTurn`: the pieces of `serve`;
- `server`: the machine of one runtime, its disk, and any number of sessions.

What the socket does is part of the input: which frame comes, whether its
payload decodes, and whether encoding and sending the answer throws.
-/

namespace FabricEpoch

open Transaction

/-! ## Frames -/

/-- A frame that `serve` dispatches on, with what the decoder of its payload
returns or throws. -/
inductive Request where
  | hello (role : Except EpochError Text)
  | shutdown
  | register (payload : Except EpochError RegisterParticipantRequest)
  | validate (payload : Except EpochError ValidateAuthorityRequest)
  | fence (payload : Except EpochError FenceWorkerRequest)
  | revoke (payload : Except EpochError RevokeAuthorityRequest)
  | advance (payload : Except EpochError EpochAdvanceRequest)
  | retire (payload : Except EpochError RetireParticipantRequest)
  | epochState (reserved : Except EpochError UInt32)
  | queryParticipant (payload : Except EpochError ParticipantId)
  | snapshot (reserved : Except EpochError UInt32)
  | explain (payload : Except EpochError (ParticipantId × WorkerBootId))
  | unaccepted

/-- The type of the frame is HELLO. -/
def Request.isHello : Request → Bool
  | .hello _ => true
  | _ => false

/-- What waiting for a frame and reading it comes to. -/
inductive Incoming where
  | idle
  | closed
  | broken (error : EpochError)
  | frame (requestId : MutationAttemptId) (request : Request)

/-- A frame that is written. `ack` stands for the four acknowledgements whose
payload is the reply of a call; of the read-only answers the payload is left out. -/
inductive Outgoing where
  | helloAck (epoch : CoordinatorEpoch) (boot : CoordinatorBootId) (session : SessionId)
  | registerAck (result : RegistrationResult)
  | validateResult (validation : AuthorityValidation)
  | ack (reply : Reply)
  | epochStateResponse
  | participantState
  | snapshotResponse
  | explainResponse
  | error (code : Nat) (message : String)

/-- The number of a category on the wire. -/
def ErrorCategory.toCode : ErrorCategory → Nat
  | .malformedEncoding => 0
  | .unsupportedVersion => 1
  | .integrityFailure => 2
  | .corruptState => 3
  | .ioFailure => 4
  | .resourceLimit => 5
  | .overflow => 6
  | .invalidArgument => 7
  | .protocolViolation => 8
  | .internalInvariant => 9

/-! ## Sessions -/

/-- Where in `serve` a session is. -/
inductive Phase where
  /-- At the top of the loop. -/
  | serving
  /-- Behind a registration, in front of `bind_session`. -/
  | registered (requestId : MutationAttemptId) (result : RegistrationResult)
      (candidate : SessionBinding)
  /-- Behind the loop, in front of `close_session`. -/
  | closing (protocolViolation : Bool)
  | ended

/-- One `serve`. `binding` holds a value where the source has `bound` set.
`issued` is no local of the source: it keeps the registrations that were
accepted on the session and were no replays. -/
structure Session where
  id : SessionId
  helloSeen : Bool := false
  binding : Option SessionBinding := none
  phase : Phase := .serving
  issued : List SessionBinding := []

namespace Session

/-- The loop is left. -/
def leave (protocolViolation : Bool) (x : Session) : Session :=
  { x with phase := .closing protocolViolation }

/-- The binding a session asks for. -/
def candidate (x : Session) (request : RegisterParticipantRequest) (result : RegistrationResult) :
    SessionBinding where
  id := x.id
  participant := request.participant
  boot := request.boot
  incarnation := result.incarnation.getD .zero
  epoch := result.epoch
  registrationGeneration := result.registrationGeneration.getD .zero

/-- Keep a registration that was no replay. -/
def issue (result : RegistrationResult) (candidate : SessionBinding) (x : Session) : Session :=
  if result.outcome = .registered ∧ result.replayed = false then
    { x with issued := x.issued ++ [candidate] }
  else x

end Session

/-- `classify_close`. -/
def classifyClose (protocolViolation serverStop : Bool) : SessionClosureReason :=
  if protocolViolation then .protocolViolation
  else if serverStop then .serverShutdown
  else .peerDisconnect

/-! ## The service -/

/-- One runtime with its disk, the stop flag, and every session there was. -/
structure Service where
  impl : Impl
  disk : Disk
  stopNow : Bool := false
  sessions : List Session := []

/-- What a step does: the session behind it, the frames that were sent, and how a
call went that may save. The last frame of a session is listed whether it could
be sent or not. -/
structure Served where
  impl : Impl
  disk : Disk
  stopNow : Bool
  session : Session
  sent : List (MutationAttemptId × Outgoing) := []
  called : Option (Except EpochError Unit) := none

namespace Service

variable (s : Service) (x : Session)

/-- The runtime is not touched. -/
def stay (session : Session) (sent : List (MutationAttemptId × Outgoing)) : Served where
  impl := s.impl
  disk := s.disk
  stopNow := s.stopNow
  session := session
  sent := sent

/-- The loop ends. -/
def finish : Served := s.stay (x.leave false) []

/-- A violation that is reported under its own code. -/
def violate (requestId : MutationAttemptId) (code : Nat) (message : String) : Served :=
  s.stay (x.leave true) [(requestId, .error code message)]

/-- The handler behind the loop. -/
def caught (e : EpochError) : Served :=
  s.stay (x.leave true) [(.nil, .error e.category.toCode e.message)]

/-- The answer is encoded and sent, and the loop goes on; or that throws. -/
def answer (requestId : MutationAttemptId) (frame : Outgoing) (write : Option EpochError) : Served :=
  match write with
  | none => s.stay x [(requestId, frame)]
  | some e => s.caught x e

/-- An error frame that does not end the session. What sending it throws is
dropped by `write_error`. -/
def tell (requestId : MutationAttemptId) (code : Nat) (message : String)
    (write : Option EpochError) : Served :=
  match write with
  | none => s.stay x [(requestId, .error code message)]
  | some _ => s.stay x []

/-- A call that may save, and its acknowledgement. -/
def acknowledge {α : Type} (requestId : MutationAttemptId) (done : Transacted α)
    (ack : α → Outgoing) (write : Option EpochError) : Served :=
  match done.result with
  | .error e =>
    { ({ s with impl := done.impl, disk := done.disk }).caught x e with called := some (.error e) }
  | .ok a =>
    { ({ s with impl := done.impl, disk := done.disk }).answer x requestId (ack a) write with
      called := some (.ok ()) }

/-- The payload of the frame, or the handler. -/
def decoded {α : Type} (payload : Except EpochError α) (handle : α → Served) : Served :=
  match payload with
  | .error e => s.caught x e
  | .ok a => handle a

/-- `register_participant`, up to `bind_session`. -/
def serveRegister (requestId : MutationAttemptId) (request : RegisterParticipantRequest)
    (write : Option EpochError) (fault : Option SaveFault) : Served :=
  let done := transact (applyRegistration request true) fault s.disk s.impl
  let s' := { s with impl := done.impl, disk := done.disk }
  match done.result with
  | .error e => { s'.caught x e with called := some (.error e) }
  | .ok result =>
    if result.outcome = .registered ∨ result.outcome = .idempotent then
      let candidate := x.candidate request result
      let x' := x.issue result candidate
      if candidate.incarnation.isZero then
        { s'.violate x' requestId 5 "registration did not produce an incarnation sequence" with
          called := some (.ok ()) }
      else
        { s'.stay { x' with phase := .registered requestId result candidate } [] with
          called := some (.ok ()) }
    else { s'.answer x requestId (.registerAck result) write with called := some (.ok ()) }

/-- One frame behind the check for HELLO. -/
def dispatch (requestId : MutationAttemptId) (request : Request) (write : Option EpochError)
    (entropy : Entropy) (fault : Option SaveFault) : Served :=
  match request with
  | .hello role => s.decoded x role fun role =>
    if role.isEmpty then s.caught x (malformed "HELLO carries an empty role")
    else
      s.answer { x with helloSeen := true } requestId
        (.helloAck s.impl.state.currentEpoch s.impl.state.coordinatorBoot x.id) write
  | .shutdown => { s.finish x with stopNow := true }
  | .register payload =>
    if x.binding.isSome then
      s.violate x requestId 4 "session is already bound to a worker incarnation"
    else s.decoded x payload fun request => s.serveRegister x requestId request write fault
  | .validate payload => s.decoded x payload fun request =>
    s.answer x requestId (.validateResult (s.impl.validate request)) write
  | .fence payload => s.decoded x payload fun request =>
    s.acknowledge x requestId (callRuntime (.fence request) entropy fault s.disk s.impl) .ack write
  | .revoke payload => s.decoded x payload fun request =>
    s.acknowledge x requestId (callRuntime (.revoke request) entropy fault s.disk s.impl) .ack write
  | .advance payload => s.decoded x payload fun request =>
    s.acknowledge x requestId (callRuntime (.advance request) entropy fault s.disk s.impl) .ack write
  | .retire payload => s.decoded x payload fun request =>
    s.acknowledge x requestId (callRuntime (.retire request) entropy fault s.disk s.impl) .ack write
  | .epochState reserved => s.decoded x reserved fun reserved =>
    if reserved ≠ 0 then
      s.caught x (malformed "epoch state request carries unsupported reserved bits")
    else s.answer x requestId .epochStateResponse write
  | .queryParticipant payload => s.decoded x payload fun participant =>
    match s.impl.findParticipant participant with
    | none => s.tell x requestId 2 "unknown participant" write
    | some _ => s.answer x requestId .participantState write
  | .snapshot reserved => s.decoded x reserved fun reserved =>
    if reserved ≠ 0 then s.caught x (malformed "snapshot request carries unsupported reserved bits")
    else s.answer x requestId .snapshotResponse write
  | .explain payload => s.decoded x payload fun _ => s.answer x requestId .explainResponse write
  | .unaccepted => s.violate x requestId 3 "message type is not accepted here"

/-- `serve`, one turn of its loop. -/
def serveTurn (incoming : Incoming) (write : Option EpochError) (entropy : Entropy)
    (fault : Option SaveFault) : Served :=
  if s.stopNow then s.finish x
  else
    match incoming with
    | .idle => s.stay x []
    | .closed => s.finish x
    | .broken e => s.caught x e
    | .frame requestId request =>
      if !x.helloSeen && !request.isHello then
        s.violate x requestId 1 "first message must be HELLO"
      else s.dispatch x requestId request write entropy fault

/-- `serve` from `bind_session` to the acknowledgement of the registration. -/
def bindTurn (requestId : MutationAttemptId) (result : RegistrationResult)
    (candidate : SessionBinding) (write : Option EpochError) : Served :=
  match s.impl.bindSession candidate with
  | .error e => s.caught x e
  | .ok (false, impl) =>
    { s with impl }.violate x requestId 6 "session could not be bound to the new incarnation"
  | .ok (true, impl) =>
    { s with impl }.answer { x with binding := some candidate, phase := .serving } requestId
      (.registerAck result) write

/-- `serve` behind its loop. What `close_session` throws ends the thread. -/
def closeTurn (protocolViolation : Bool) (fault : Option SaveFault) : Served :=
  match x.binding with
  | none => s.stay { x with phase := .ended } []
  | some binding =>
    let done := closeSession binding.id (classifyClose protocolViolation s.stopNow) fault s.disk
      s.impl
    { { s with impl := done.impl, disk := done.disk }.stay { x with phase := .ended } [] with
      called := some (done.result.map fun _ => ()) }

end Service

/-! ## The machine -/

/-- What can happen next. The session of a step is named by its place. -/
inductive Event where
  | accept (id : SessionId)
  | stop
  | turn (n : Nat) (incoming : Incoming) (write : Option EpochError) (entropy : Entropy)
      (fault : Option SaveFault)
  | bind (n : Nat) (write : Option EpochError)
  | close (n : Nat) (fault : Option SaveFault)

namespace Service

/-- The piece of `serve` that an event lets a session do. -/
def piece (s : Service) (x : Session) : Event → Option Served
  | .turn _ incoming write entropy fault =>
    match x.phase with
    | .serving => some (s.serveTurn x incoming write entropy fault)
    | _ => none
  | .bind _ write =>
    match x.phase with
    | .registered requestId result candidate => some (s.bindTurn x requestId result candidate write)
    | _ => none
  | .close _ fault =>
    match x.phase with
    | .closing protocolViolation => some (s.closeTurn x protocolViolation fault)
    | _ => none
  | _ => none

/-- The service behind a step of the session at a place. -/
def resume (s : Service) (n : Nat) (served : Served) : Service where
  impl := served.impl
  disk := served.disk
  stopNow := served.stopNow
  sessions := s.sessions.set n served.session

/-- The place of the session that an event is about. -/
def place : Event → Option Nat
  | .turn n _ _ _ _ => some n
  | .bind n _ => some n
  | .close n _ => some n
  | _ => none

/-- What the session of the event does, if it is where the event takes place. -/
def served (s : Service) (event : Event) : Option (Nat × Served) :=
  (place event).bind fun n => s.sessions[n]?.bind fun x => (s.piece x event).map fun r => (n, r)

def step (s : Service) (event : Event) : Service × Option Served :=
  match event with
  | .accept id => if s.stopNow then (s, none) else ({ s with sessions := s.sessions ++ [{ id }] }, none)
  | .stop => ({ s with stopNow := true }, none)
  | _ =>
    match s.served event with
    | some (n, served) => (s.resume n served, some served)
    | none => (s, none)

end Service

/-- **What an event comes to**: a session more, the stop flag, a piece of one
session, or nothing. -/
inductive StepCase (s : Service) : Event → Prop
  | accepted (id : SessionId) (running : s.stopNow = false)
      (step : s.step (.accept id) = ({ s with sessions := s.sessions ++ [{ id }] }, none)) :
      StepCase s (.accept id)
  | stopped (step : s.step .stop = ({ s with stopNow := true }, none)) : StepCase s .stop
  | piece {event : Event} (n : Nat) (x : Session) (r : Served) (place : Service.place event = some n)
      (session : s.sessions[n]? = some x) (piece : s.piece x event = some r)
      (step : s.step event = (s.resume n r, some r)) : StepCase s event
  | silent {event : Event} (step : s.step event = (s, none)) : StepCase s event

theorem served_case {s : Service} {event : Event}
    (hstep : s.step event = match s.served event with
      | some (n, r) => (s.resume n r, some r)
      | none => (s, none)) : StepCase s event := by
  cases hserved : s.served event with
  | none =>
    rw [hserved] at hstep
    exact .silent hstep
  | some served =>
    obtain ⟨n, r⟩ := served
    rw [hserved] at hstep
    obtain ⟨n', hplace, hserved⟩ := Option.bind_eq_some_iff.mp hserved
    obtain ⟨x, hx, hserved⟩ := Option.bind_eq_some_iff.mp hserved
    obtain ⟨r', hr, heq⟩ := Option.map_eq_some_iff.mp hserved
    cases heq
    exact .piece n x r hplace hx hr hstep

theorem step_case (s : Service) (event : Event) : StepCase s event := by
  cases event with
  | accept id =>
    have hstep : s.step (.accept id) =
        if s.stopNow then (s, none) else ({ s with sessions := s.sessions ++ [{ id }] }, none) := rfl
    by_cases hstop : s.stopNow = true
    · rw [if_pos hstop] at hstep
      exact .silent hstep
    · rw [if_neg hstop] at hstep
      exact .accepted id (Bool.eq_false_iff.mpr hstop) hstep
  | stop => exact .stopped rfl
  | turn n incoming write entropy fault => exact served_case rfl
  | bind n write => exact served_case rfl
  | close n fault => exact served_case rfl

/-- The server in front of a runtime. -/
def server (impl : Impl) (disk : Disk) : Machine Service Event (Option Served) where
  init := { impl, disk }
  step := Service.step

end FabricEpoch
