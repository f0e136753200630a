import FabricEpoch.Server
import FabricEpoch.Wire.RoundTrip
import FabricEpoch.Wire.Stream

/-!
# The two ends of a connection

Server and client as they read and write bytes.

- `Request.ofFrame`, `Outgoing.message`: what the server makes of a frame that it
  has read, and what it writes for an answer;
- `Service.serveFrame`: one iteration of its loop on a frame;
- `Method.ask`, `Method.hear`: what a method of the client sends, and what it makes
  of the bytes that come back. The methods are instances.

An iteration of `serve` is taken in one go here: a registration and the binding of
its session, with no step of another session between them.
-/

namespace FabricEpoch

open ByteCodec Checks Wire Transaction

/-! ## Small payloads -/

namespace Wire

structure ErrorPayload where
  code : UInt16
  message : Text
deriving DecidableEq

def encodeError (code : UInt16) (message : Text) (limits : Limits) : Writer := Emit.concat [
  ByteWriter.u16 code,
  ByteWriter.string
    (if message.length > limits.maxStringSize then message.take limits.maxStringSize else message)]

def readError (limits : Limits) : Reader ErrorPayload := do
  let code ← ByteReader.u16
  let message ← ByteReader.string limits limits.maxStringSize
  return { code, message }

def encodeSnapshotRequest : Writer := Emit.concat [ByteWriter.u32 0]

/-- `decode_snapshot_request_stub`. -/
def decodeSnapshotRequestStub (payload : Bytes) : Except EpochError UInt32 :=
  (decodeAll ByteReader.u32 payload).map UInt32.ofNat

end Wire

/-- `to_string` of a message type. -/
def MessageType.toString : MessageType → String
  | hello => "HELLO"
  | helloAck => "HELLO_ACK"
  | registerParticipant => "REGISTER_PARTICIPANT"
  | registerAck => "REGISTER_ACK"
  | fenceWorker => "FENCE_WORKER"
  | fenceAck => "FENCE_ACK"
  | validateAuthority => "VALIDATE_AUTHORITY"
  | validateResult => "VALIDATE_RESULT"
  | advanceEpoch => "ADVANCE_EPOCH"
  | epochStateRequest => "EPOCH_STATE_REQUEST"
  | epochStateResponse => "EPOCH_STATE_RESPONSE"
  | revokeAuthority => "REVOKE_AUTHORITY"
  | revokeAck => "REVOKE_ACK"
  | queryParticipant => "QUERY_PARTICIPANT"
  | participantState => "PARTICIPANT_STATE"
  | snapshotRequest => "SNAPSHOT_REQUEST"
  | snapshotResponse => "SNAPSHOT_RESPONSE"
  | explainRequest => "EXPLAIN_REQUEST"
  | explainResponse => "EXPLAIN_RESPONSE"
  | shutdown => "SHUTDOWN"
  | error => "ERROR"
  | advanceEpochAck => "ADVANCE_EPOCH_ACK"
  | retireParticipant => "RETIRE_PARTICIPANT"
  | retireAck => "RETIRE_ACK"

/-! ## The server -/

/-- The decoder that `serve` picks for a frame. -/
def Request.ofFrame (limits : Limits) (frame : Frame) : Request :=
  match frame.header.type with
  | .hello => .hello ((decodeAll (readHello limits) frame.payload).map (·.role))
  | .shutdown => .shutdown
  | .registerParticipant =>
    .register ((decodeAll (readRegisterRequest limits) frame.payload).map (·.request))
  | .validateAuthority => .validate (decodeAll (readValidateRequest limits) frame.payload)
  | .fenceWorker => .fence (decodeAll (readFenceRequest limits) frame.payload)
  | .revokeAuthority => .revoke (decodeAll (readRevokeRequest limits) frame.payload)
  | .advanceEpoch => .advance (decodeAll (readAdvanceRequest limits) frame.payload)
  | .retireParticipant => .retire (decodeAll (readRetireRequest limits) frame.payload)
  | .epochStateRequest => .epochState (decodeSnapshotRequestStub frame.payload)
  | .queryParticipant => .queryParticipant (decodeAll (Wire.decodeParticipant limits) frame.payload)
  | .snapshotRequest => .snapshot (decodeSnapshotRequestStub frame.payload)
  | .explainRequest =>
    .explain ((decodeAll (readExplainRequest limits) frame.payload).map fun request =>
      (request.participant, request.boot))
  | _ => .unaccepted

/-- What `write_frame` is called with. -/
structure Message where
  type : MessageType
  epoch : CoordinatorEpoch
  payload : Writer

/-- What the server does not change. -/
structure ServerOptions where
  limits : Limits
  productVersion : Text

/-- The frame of an answer to a request. `impl` is the runtime when the request came in,
`now` when the answer is written; a snapshot is given the identifier that is generated
for it. -/
def Outgoing.message (options : ServerOptions) (request : Request) (entropy : Entropy)
    (impl now : Impl) : Outgoing → Option Message
  | .helloAck epoch boot session =>
    some ⟨.helloAck, epoch, encodeHelloAck ⟨epoch, boot, session, options.productVersion⟩⟩
  | .registerAck result =>
    some ⟨.registerAck, result.epoch, encodeRegisterResult result options.limits⟩
  | .validateResult validation =>
    some ⟨.validateResult, impl.state.currentEpoch, encodeValidation validation options.limits⟩
  | .ack (.fenced result) =>
    some ⟨.fenceAck, result.epoch, encodeFenceResult result options.limits⟩
  | .ack (.revoked result) =>
    some ⟨.revokeAck, result.epoch, encodeRevokeResult result options.limits⟩
  | .ack (.advanced result) =>
    some ⟨.advanceEpochAck, result.epoch, encodeAdvanceResult result options.limits⟩
  | .ack (.retired result) =>
    some ⟨.retireAck, result.epoch, encodeRetireResult result options.limits⟩
  | .ack _ => none
  | .epochStateResponse =>
    some ⟨.epochStateResponse, impl.buildState.epoch, encodeEpochState impl.buildState⟩
  | .participantState =>
    match request with
    | .queryParticipant (.ok id) => (impl.queryParticipant id).map fun view =>
      ⟨.participantState, impl.state.currentEpoch, encodeParticipantView view⟩
    | _ => none
  | .snapshotResponse =>
    match impl.buildSnapshot entropy with
    | .ok snapshot =>
      some ⟨.snapshotResponse, snapshot.epoch, encodeSnapshotResponse snapshot options.limits⟩
    | .error e => some ⟨.snapshotResponse, impl.state.currentEpoch, Emit.fail e⟩
  | .explainResponse =>
    match request with
    | .explain (.ok (participant, boot)) =>
      some ⟨.explainResponse, impl.state.currentEpoch,
        encodeExplanationPayload (impl.explainAuthority participant boot) options.limits⟩
    | _ => none
  | .error code message =>
    some ⟨.error, now.state.currentEpoch,
      encodeError (UInt16.ofNat code) (str message) options.limits⟩

section Serve

variable (hash : Bytes → Block 32) (options : ServerOptions)

/-- `write_frame`, up to `send_all`. -/
def writeFrame (sequence : UInt64) (requestId : MutationAttemptId) (message : Message) :
    Except EpochError Bytes := do
  let payload ← (message.payload : Except EpochError Bytes)
  encodeFrame hash message.type sequence message.epoch requestId payload options.limits

/-- The frames of an iteration, as bytes. -/
def writeAll (request : Request) (entropy : Entropy) (impl now : Impl) (sequence : UInt64) :
    List (MutationAttemptId × Outgoing) → Except EpochError Bytes
  | [] => .ok []
  | (requestId, outgoing) :: sent =>
    match outgoing.message options request entropy impl now with
    | none => writeAll request entropy impl now sequence sent
    | some message => do
      let frame ← writeFrame hash options sequence requestId message
      let rest ← writeAll request entropy impl now (sequence + 1) sent
      return frame ++ rest

namespace Service

variable (s : Service) (x : Session)

/-- An iteration of the loop of `serve` on a frame. -/
def iterate (requestId : MutationAttemptId) (request : Request) (write : Option EpochError)
    (entropy : Entropy) (fault : Option SaveFault) : Served :=
  let served := s.serveTurn x (.frame requestId request) write entropy fault
  match served.session.phase with
  | .registered requestId result candidate =>
    { { s with impl := served.impl, disk := served.disk }.bindTurn served.session requestId result
        candidate write with called := served.called }
  | _ => served

/-- The iteration, and the bytes it sends. Where the answer cannot be encoded that is
thrown, and what cannot be encoded then is dropped. -/
def serveFrame (sequence : UInt64) (frame : Frame) (entropy : Entropy)
    (fault : Option SaveFault) : Served × Bytes :=
  let requestId : MutationAttemptId := ⟨frame.header.requestId⟩
  let request := Request.ofFrame options.limits frame
  let served := s.iterate x requestId request none entropy fault
  match writeAll hash options request entropy s.impl served.impl sequence served.sent with
  | .ok bytes => (served, bytes)
  | .error e =>
    let served := s.iterate x requestId request (some e) entropy fault
    (served, (writeAll hash options request entropy s.impl served.impl sequence
      served.sent).toOption.getD [])

end Service

end Serve

/-! ## The client -/

structure CoordinatorClient where
  limits : Limits
  session : SessionId := .nil
  epoch : CoordinatorEpoch := .zero
  sequence : UInt64 := 1
  connected : Bool := false
  helloDone : Bool := false

namespace CoordinatorClient

def ensureConnected (client : CoordinatorClient) : Except EpochError Unit :=
  refuseIf (client.connected = false) (ioFailure "client is not connected to a coordinator")

def ensureHello (client : CoordinatorClient) : Except EpochError Unit :=
  refuseIf (client.helloDone = false)
    (protocolViolation "HELLO must complete before any other request")

/-- `send`. The sequence moves on before anything can be thrown by the encoder. -/
def send (hash : Bytes → Block 32) (type : MessageType) (requestId : MutationAttemptId)
    (payload : Bytes) (client : CoordinatorClient) : Except EpochError Bytes × CoordinatorClient :=
  match client.ensureConnected with
  | .error e => (.error e, client)
  | .ok _ =>
    (encodeFrame hash type client.sequence client.epoch requestId payload client.limits,
      { client with sequence := client.sequence + 1 })

end CoordinatorClient

/-- The contents of a `std::string`, byte by byte. -/
def Text.asString (text : Text) : String := String.ofList (text.map fun b => Char.ofNat b.toNat)

/-- What is thrown for an ERROR frame. -/
def rejectRequest {α : Type} (limits : Limits) (what : String) (payload : Bytes) :
    Except EpochError α := do
  let error ← decodeAll (readError limits) payload
  throw (protocolViolation (what ++ Text.asString error.message))

/-- What the methods of `CoordinatorClient` differ in. -/
structure Method (α : Type) where
  requestType : MessageType
  responseType : MessageType
  requestId : MutationAttemptId
  payload : Writer
  decode : Bytes → Except EpochError α
  /-- What an ERROR frame comes to. -/
  rejected : Bytes → Except EpochError α
  check : CoordinatorClient → Except EpochError Unit := CoordinatorClient.ensureHello
  closed : EpochError := ioFailure "coordinator closed the connection before responding"
  unexpected : MessageType → EpochError := fun type =>
    protocolViolation ("unexpected response type " ++ type.toString)
  learn : α → CoordinatorClient → CoordinatorClient := fun _ client => client

namespace Method

variable {α : Type} (hash : Bytes → Block 32) (m : Method α)

/-- The first half of a method: the bytes that are sent. -/
def ask (client : CoordinatorClient) : Except EpochError Bytes × CoordinatorClient :=
  match m.check client with
  | .error e => (.error e, client)
  | .ok _ =>
    match (m.payload : Except EpochError Bytes) with
    | .error e => (.error e, client)
    | .ok payload => client.send hash m.requestType m.requestId payload

/-- The second half: what it makes of the connection. -/
def hear (client : CoordinatorClient) (socket : Socket) :
    Except EpochError (α × CoordinatorClient × Socket) := do
  match ← receive hash client.limits socket with
  | none => throw m.closed
  | some (frame, socket) =>
    if frame.header.type = .error then
      let answer ← m.rejected frame.payload
      return (answer, client, socket)
    else
      refuseIf (frame.header.type ≠ m.responseType) (m.unexpected frame.header.type)
      let answer ← m.decode frame.payload
      return (answer, m.learn answer client, socket)

end Method

namespace CoordinatorClient

/-- `version_string`. -/
def versionString : Text := str "1.0.0"

def hello (limits : Limits) (generated : MutationAttemptId) (role : Text) :
    Method HelloAckPayload where
  requestType := .hello
  responseType := .helloAck
  requestId := generated
  payload := encodeHello versionString role
  decode := decodeAll (readHelloAck limits)
  rejected := rejectRequest limits "HELLO rejected: "
  check := ensureConnected
  closed := ioFailure "coordinator closed the connection during HELLO"
  unexpected _ := protocolViolation "coordinator did not answer HELLO with HELLO_ACK"
  learn ack client := { client with session := ack.session, epoch := ack.epoch, helloDone := true }

/-- `exchange`: a request, its answer, and an error frame for a refusal. -/
def exchange {α : Type} (limits : Limits) (requestType responseType : MessageType)
    (requestId : MutationAttemptId) (payload : Writer) (dec : Reader α)
    (learn : α → CoordinatorClient → CoordinatorClient) : Method α where
  requestType := requestType
  responseType := responseType
  requestId := requestId
  payload := payload
  decode := decodeAll dec
  rejected := rejectRequest limits "coordinator rejected the request: "
  learn := learn

def registerParticipant (limits : Limits) (request : RegisterParticipantRequest)
    (session : SessionId) : Method RegistrationResult :=
  exchange limits .registerParticipant .registerAck request.attempt
    (encodeRegisterRequest ⟨request, session⟩ limits) (readRegisterResult limits) fun _ c => c

def validateAuthority (limits : Limits) (generated : MutationAttemptId)
    (request : ValidateAuthorityRequest) : Method AuthorityValidation :=
  exchange limits .validateAuthority .validateResult generated (encodeValidateRequest request)
    (readValidation limits) fun _ c => c

def fenceWorker (limits : Limits) (request : FenceWorkerRequest) : Method FenceResult :=
  exchange limits .fenceWorker .fenceAck request.attempt (encodeFenceRequest request limits)
    (readFenceResult limits) fun _ c => c

def revokeAuthority (limits : Limits) (request : RevokeAuthorityRequest) : Method RevokeResult :=
  exchange limits .revokeAuthority .revokeAck request.attempt (encodeRevokeRequest request limits)
    (readRevokeResult limits) fun _ c => c

def retireParticipant (limits : Limits) (request : RetireParticipantRequest) :
    Method RetireResult :=
  exchange limits .retireParticipant .retireAck request.attempt
    (encodeRetireRequest request limits) (readRetireResult limits) fun _ c => c

def advanceEpoch (limits : Limits) (request : EpochAdvanceRequest) : Method EpochAdvanceResult :=
  exchange limits .advanceEpoch .advanceEpochAck request.attempt
    (encodeAdvanceRequest request limits) (readAdvanceResult limits)
    fun result client => { client with epoch := result.epoch }

def epochState (limits : Limits) (generated : MutationAttemptId) : Method EpochState :=
  exchange limits .epochStateRequest .epochStateResponse generated encodeSnapshotRequest
    readEpochState fun state client => { client with epoch := state.epoch }

/-- Any error frame means that there is no such participant. -/
def queryParticipant (limits : Limits) (generated : MutationAttemptId)
    (participant : ParticipantId) : Method (Option ParticipantView) where
  requestType := .queryParticipant
  responseType := .participantState
  requestId := generated
  payload := Wire.encodeParticipant participant
  decode payload := (decodeAll (readParticipantView limits) payload).map some
  rejected _ := .ok none
  unexpected _ := protocolViolation "unexpected response type for a participant query"

def snapshot (limits : Limits) (generated : MutationAttemptId) : Method AuthoritySnapshot :=
  exchange limits .snapshotRequest .snapshotResponse generated encodeSnapshotRequest
    (readSnapshotResponse limits) fun _ c => c

def explain (limits : Limits) (generated : MutationAttemptId) (participant : ParticipantId)
    (boot : WorkerBootId) : Method Explanation :=
  exchange limits .explainRequest .explainResponse generated
    (encodeExplainRequest ⟨participant, boot⟩) (decodeExplanationPayload limits) fun _ c => c

end CoordinatorClient

end FabricEpoch
