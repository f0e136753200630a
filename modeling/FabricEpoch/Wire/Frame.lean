import FabricEpoch.DurableCodec
import FabricEpoch.Lib.Checks
import FabricEpoch.Sha256

/-!
# Frames

A frame is a header of fixed size followed by a payload. `encodeFrame` writes
the header fields, the digest of the fields and the payload, and the payload;
`decodeFrame` is given the header bytes and the payload bytes apart, as they come
off the connection.

Both functions check the size of the payload against the transport bound and,
for a request, against the request bound. `decodeFrame_iff` says that together
they accept the same frames. The digest is a parameter.
-/

namespace FabricEpoch

open ByteCodec Checks

/-! ## Message types -/

inductive MessageType where
  | hello
  | helloAck
  | registerParticipant
  | registerAck
  | fenceWorker
  | fenceAck
  | validateAuthority
  | validateResult
  | advanceEpoch
  | epochStateRequest
  | epochStateResponse
  | revokeAuthority
  | revokeAck
  | queryParticipant
  | participantState
  | snapshotRequest
  | snapshotResponse
  | explainRequest
  | explainResponse
  | shutdown
  | error
  | advanceEpochAck
  | retireParticipant
  | retireAck
deriving DecidableEq, Repr

namespace MessageType

def toWire : MessageType → UInt16
  | hello => 1
  | helloAck => 2
  | registerParticipant => 3
  | registerAck => 4
  | fenceWorker => 5
  | fenceAck => 6
  | validateAuthority => 7
  | validateResult => 8
  | advanceEpoch => 9
  | epochStateRequest => 10
  | epochStateResponse => 11
  | revokeAuthority => 12
  | revokeAck => 13
  | queryParticipant => 14
  | participantState => 15
  | snapshotRequest => 16
  | snapshotResponse => 17
  | explainRequest => 18
  | explainResponse => 19
  | shutdown => 20
  | error => 21
  | advanceEpochAck => 22
  | retireParticipant => 23
  | retireAck => 24

/-- `message_type_from_wire`. -/
def fromWire (value : UInt16) : Option MessageType :=
  match value.toNat with
  | 1 => some hello
  | 2 => some helloAck
  | 3 => some registerParticipant
  | 4 => some registerAck
  | 5 => some fenceWorker
  | 6 => some fenceAck
  | 7 => some validateAuthority
  | 8 => some validateResult
  | 9 => some advanceEpoch
  | 10 => some epochStateRequest
  | 11 => some epochStateResponse
  | 12 => some revokeAuthority
  | 13 => some revokeAck
  | 14 => some queryParticipant
  | 15 => some participantState
  | 16 => some snapshotRequest
  | 17 => some snapshotResponse
  | 18 => some explainRequest
  | 19 => some explainResponse
  | 20 => some shutdown
  | 21 => some error
  | 22 => some advanceEpochAck
  | 23 => some retireParticipant
  | 24 => some retireAck
  | _ => none

/-- `is_request_message`: what carries the input of a caller. -/
def isRequestMessage : MessageType → Bool
  | hello | registerParticipant | fenceWorker | validateAuthority | advanceEpoch
  | epochStateRequest | revokeAuthority | queryParticipant | snapshotRequest | explainRequest
  | retireParticipant => true
  | _ => false

@[simp] theorem fromWire_toWire (type : MessageType) : fromWire type.toWire = some type := by
  cases type <;> rfl

theorem toWire_of_fromWire {value : UInt16} {type : MessageType} (h : fromWire value = some type) :
    type.toWire = value := by
  have hvalue : value = UInt16.ofNat value.toNat := UInt16.ofNat_toNat.symm
  unfold fromWire at h
  split at h <;> cases h <;> (next hn => rw [hn] at hvalue; rw [hvalue]; rfl)

end MessageType

/-! ## Headers -/

def wireProtocolMagic : Nat := 0x46455031
def wireProtocolVersion : UInt16 := 1

/-- The header, the digest included. -/
def frameHeaderSize : Nat := 4 + 2 + 2 + 2 + 4 + 8 + 8 + 16 + 32

/-- The header in front of the digest. -/
def frameIntegrityOffset : Nat := 4 + 2 + 2 + 2 + 4 + 8 + 8 + 16

structure FrameHeader where
  magic : Nat
  protocolVersion : UInt16
  type : MessageType
  flags : UInt16
  payloadLength : Nat
  sequence : UInt64
  epoch : UInt64
  requestId : Block 16
  integrity : Block 32
deriving DecidableEq

structure Frame where
  header : FrameHeader
  payload : Bytes
deriving DecidableEq

/-- The fields of a header, one after the other. -/
def headerFields (header : FrameHeader) : List Writer := [
  ByteWriter.u32 header.magic,
  ByteWriter.u16 header.protocolVersion,
  ByteWriter.u16 header.type.toWire,
  ByteWriter.u16 header.flags,
  ByteWriter.u32 header.payloadLength,
  ByteWriter.u64 header.sequence,
  ByteWriter.u64 header.epoch,
  ByteWriter.fixed header.requestId,
  ByteWriter.fixed header.integrity]

def encodeFrame (hash : Bytes → Block 32) (type : MessageType) (sequence : UInt64)
    (epoch : CoordinatorEpoch) (requestId : MutationAttemptId) (payload : Bytes)
    (limits : Limits) : Except EpochError Bytes := do
  refuseIf (payload.length > limits.maxFramePayload)
    (resourceLimit "frame payload exceeds limits.max_frame_payload")
  refuseIf (type.isRequestMessage = true ∧ payload.length > limits.maxRequestSize)
    (resourceLimit "request payload exceeds limits.max_request_size")
  let writer ← (Emit.concat [
    ByteWriter.u32 wireProtocolMagic,
    ByteWriter.u16 wireProtocolVersion,
    ByteWriter.u16 type.toWire,
    ByteWriter.u16 0,
    ByteWriter.u32 payload.length,
    ByteWriter.u64 sequence,
    ByteWriter.counter epoch,
    ByteWriter.fixed requestId.bytes] : Except EpochError Bytes)
  refuseIf (writer.length ≠ frameIntegrityOffset)
    (invariant "frame header layout does not match the declared integrity offset")
  return writer ++ (hash (writer ++ payload)).bytes ++ payload

/-- The reads and checks of `decode_frame_header`. -/
def readFrameHeader (limits : Limits) : Reader FrameHeader := do
  let magic ← ByteReader.u32
  require (malformed "frame magic does not match Fabric Epoch") (magic = wireProtocolMagic)
  let protocolVersion ← ByteReader.u16
  require ⟨.unsupportedVersion, "frame protocol version is not supported"⟩
    (protocolVersion = wireProtocolVersion)
  let type ← decodeVia ByteReader.u16 MessageType.fromWire
    (malformed "frame carries an unknown message type")
  let flags ← ByteReader.u16
  require (malformed "frame carries unsupported flag bits") (flags = 0)
  let payloadLength ← ByteReader.u32
  require (resourceLimit "frame payload length exceeds limits.max_frame_payload")
    (payloadLength ≤ limits.maxFramePayload)
  require (resourceLimit "request payload length exceeds limits.max_request_size")
    (¬ (type.isRequestMessage = true ∧ payloadLength > limits.maxRequestSize))
  let sequence ← ByteReader.u64
  let epoch ← ByteReader.u64
  let requestId ← ByteReader.fixed 16
  let integrity ← ByteReader.fixed 32
  return { magic, protocolVersion, type, flags, payloadLength, sequence, epoch, requestId,
           integrity }

/-- `require_end` behind a record. -/
def decodeAll {α : Type} (dec : Reader α) (payload : Bytes) : Except EpochError α :=
  match (do
    let value ← dec
    requireEnd (malformed "trailing bytes after decoded record")
    return value) payload with
  | .ok (value, _) => .ok value
  | .error e => .error e

def decodeFrameHeader (headerBytes : Bytes) (limits : Limits) : Except EpochError FrameHeader := do
  refuseIf (headerBytes.length ≠ frameHeaderSize)
    (malformed "frame header has an unexpected length")
  decodeAll (readFrameHeader limits) headerBytes

def decodeFrame (hash : Bytes → Block 32) (headerBytes payload : Bytes) (limits : Limits) :
    Except EpochError Frame := do
  let header ← decodeFrameHeader headerBytes limits
  refuseIf (header.payloadLength ≠ payload.length)
    (malformed "frame payload length does not match the bytes received")
  let digest := hash (headerBytes.take frameIntegrityOffset ++ payload)
  refuseIf (digest ≠ header.integrity)
    ⟨.integrityFailure, "frame integrity digest does not match"⟩
  return { header, payload }

/-! ## Whole records -/

/-- A record is read as a whole when nothing is left behind it. -/
theorem decodeAll_ok {α : Type} {dec : Reader α} {payload : Bytes} {x : α} :
    decodeAll dec payload = .ok x ↔ dec payload = .ok (x, []) := by
  unfold decodeAll
  rw [bind_apply]
  cases hd : dec payload with
  | error e => simp
  | ok read =>
    obtain ⟨y, rest⟩ := read
    dsimp only
    rw [bind_apply, requireEnd]
    by_cases hrest : rest = []
    · simp [hrest]
    · simp [hrest]

/-- What is read as a whole is the encoding of what is returned. -/
theorem decodeAll_inverts {α : Type} {dec : Reader α} {enc : α → Writer} (h : Inverts dec enc)
    {payload : Bytes} {x : α} (hd : decodeAll dec payload = .ok x) : (enc x).Yields payload := by
  obtain ⟨a, ha, heq⟩ := h payload [] x (decodeAll_ok.mp hd)
  rwa [heq, List.append_nil]

/-- An encoding that is accepted is read as a whole. -/
theorem decodeAll_decodes {α : Type} {wf : Prop} {dec : Reader α} {enc : Writer} {x : α}
    (h : Decodes wf dec enc x) (hwf : wf) {payload : Bytes} (hb : enc.Yields payload) :
    decodeAll dec payload = .ok x := by
  refine decodeAll_ok.mpr ?_
  have hread := h.accepts hwf [] hb
  rwa [List.append_nil] at hread

/-! ## One header, one encoding -/

/-- What a header must be to be accepted. -/
structure FrameHeader.Accepted (limits : Limits) (header : FrameHeader) : Prop where
  magic : header.magic = wireProtocolMagic
  version : header.protocolVersion = wireProtocolVersion
  flags : header.flags = 0
  frame : header.payloadLength ≤ limits.maxFramePayload
  request : ¬ (header.type.isRequestMessage = true ∧ header.payloadLength > limits.maxRequestSize)

theorem readFrameHeader_inverts (limits : Limits) :
    Inverts (readFrameHeader limits) fun header => Emit.concat (headerFields header) := by
  have htype : Inverts (decodeVia ByteReader.u16 MessageType.fromWire
      (malformed "frame carries an unknown message type")) fun type =>
        ByteWriter.u16 type.toWire :=
    u16_inverts.via fun _ _ h => by rw [MessageType.toWire_of_fromWire h]
  exact (InvertsAfter.field u32_inverts fun _ => .check fun _ => .field u16_inverts fun _ =>
    .check fun _ => .field htype fun _ => .field u16_inverts fun _ => .check fun _ =>
    .field u32_inverts fun _ => .check fun _ => .check fun _ => .field u64_inverts fun _ =>
    .field u64_inverts fun _ => .field (fixed_inverts 16) fun _ =>
    .field (fixed_inverts 32) fun _ => .done (by rfl)).inverts

theorem readFrameHeader_returns (limits : Limits) :
    Returns (FrameHeader.Accepted limits) (readFrameHeader limits) :=
  Returns.skip fun _ => Returns.check fun hmagic => Returns.skip fun _ =>
    Returns.check fun hversion => Returns.skip fun _ => Returns.skip fun _ =>
    Returns.check fun hflags => Returns.skip fun _ => Returns.check fun hframe =>
    Returns.check fun hrequest => Returns.skip fun _ => Returns.skip fun _ =>
    Returns.skip fun _ => Returns.skip fun _ =>
    Returns.pure ⟨hmagic, hversion, hflags, hframe, hrequest⟩

theorem readFrameHeader_decodes {limits : Limits} {header : FrameHeader}
    (hlength : header.payloadLength < 2 ^ 32) (hmagic : header.magic = wireProtocolMagic) :
    Decodes (header.Accepted limits) (readFrameHeader limits)
      (Emit.concat (headerFields header)) header := by
  have hu32 : ∀ {n : Nat}, n < 2 ^ 32 → Decodes True ByteReader.u32 (ByteWriter.u32 n) n :=
    fun h => Decodes.leWord _ (by simpa using h)
  have htype : Decodes (True ∧ True) (decodeVia ByteReader.u16 MessageType.fromWire
      (malformed "frame carries an unknown message type"))
      (ByteWriter.u16 header.type.toWire) header.type :=
    (u16_decodes header.type.toWire).via
      (fun _ h => Option.some.inj (h.symm.trans (MessageType.fromWire_toWire _)))
      fun _ => MessageType.fromWire_toWire _
  have hmax : header.magic < 2 ^ 32 := by rw [hmagic]; decide
  exact Decodes.mono ((hu32 hmax).field <| Decodes.check <|
    (u16_decodes header.protocolVersion).field <| Decodes.check <| htype.field <|
    (u16_decodes header.flags).field <| Decodes.check <| (hu32 hlength).field <|
    Decodes.check <| Decodes.check <| (u64_decodes header.sequence).field <|
    (u64_decodes header.epoch).field <| (fixed_decodes header.requestId).field <|
    (fixed_decodes header.integrity).field <| Decodes.done rfl) fun h =>
      ⟨trivial, h.magic, trivial, h.version, ⟨trivial, trivial⟩, trivial, h.flags, trivial,
        h.frame, h.request, trivial, trivial, trivial, trivial, trivial⟩

/-! ## Frames that are sent and frames that are accepted -/

section Frames

variable {hash : Bytes → Block 32} {limits : Limits} {headerBytes payload : Bytes}

/-- The header of a frame that is sent, with its digest. -/
def sentHeader (type : MessageType) (sequence : UInt64) (epoch : CoordinatorEpoch)
    (requestId : MutationAttemptId) (payload : Bytes) (integrity : Block 32) : FrameHeader where
  magic := wireProtocolMagic
  protocolVersion := wireProtocolVersion
  type := type
  flags := 0
  payloadLength := payload.length
  sequence := sequence
  epoch := epoch.raw
  requestId := requestId.bytes
  integrity := integrity

/-- The fields in front of the digest. -/
def hashedFields (header : FrameHeader) : List Writer := (headerFields header).dropLast

/-- They take up the bytes in front of the integrity offset. -/
theorem hashedFields_yields (header : FrameHeader) :
    ∃ b, (Emit.concat (hashedFields header)).Yields b ∧ b.length = frameIntegrityOffset := by
  have htakes : (Emit.concat (hashedFields header)).Takes frameIntegrityOffset :=
    (Emit.takes_bytes (length_leBytes _ _)).field <| (takes_u16 _).field <|
      (takes_u16 _).field <| (takes_u16 _).field <|
      (Emit.takes_bytes (length_leBytes _ _)).field <| (takes_u64 _).field <|
      (takes_u64 _).field <| (takes_fixed _).field Emit.takes_nil
  exact ⟨_, rfl, htakes _ rfl⟩

/-- The header is what is hashed, and the digest. -/
theorem headerFields_yields {header : FrameHeader} {b : Bytes}
    (hb : (Emit.concat (hashedFields header)).Yields b) :
    (Emit.concat (headerFields header)).Yields (b ++ header.integrity.bytes) :=
  hb.concat_snoc rfl

/-- The size bounds of a frame: the same on both sides. -/
def FrameFits (limits : Limits) (type : MessageType) (payload : Bytes) : Prop :=
  payload.length ≤ limits.maxFramePayload ∧
    ¬ (type.isRequestMessage = true ∧ payload.length > limits.maxRequestSize)

/-- **What is sent**: the hashed fields, their digest and the payload. -/
theorem encodeFrame_ok {type : MessageType} {sequence : UInt64} {epoch : CoordinatorEpoch}
    {requestId : MutationAttemptId} {integrity : Block 32} {b frame : Bytes}
    (hb : (Emit.concat (hashedFields
      (sentHeader type sequence epoch requestId payload integrity))).Yields b) :
    encodeFrame hash type sequence epoch requestId payload limits = .ok frame ↔
      FrameFits limits type payload ∧ frame = b ++ (hash (b ++ payload)).bytes ++ payload := by
  have hwriter : (Emit.concat (hashedFields
      (sentHeader type sequence epoch requestId payload integrity)) : Except EpochError Bytes) =
        .ok b := hb
  have hlen : b.length = frameIntegrityOffset := by
    obtain ⟨b', hb', hlen⟩ := hashedFields_yields
      (sentHeader type sequence epoch requestId payload integrity)
    rw [hb.unique hb', hlen]
  unfold encodeFrame
  rw [bind_refuseIf, bind_refuseIf]
  constructor
  · rintro ⟨hframe, hrequest, h⟩
    obtain ⟨w, hw, h⟩ := bind_ok.mp h
    obtain rfl : b = w := Except.ok.inj (hwriter.symm.trans hw)
    rw [bind_refuseIf, pure_ok] at h
    exact ⟨⟨Nat.not_lt.mp hframe, hrequest⟩, h.2⟩
  · rintro ⟨⟨hframe, hrequest⟩, rfl⟩
    refine ⟨Nat.not_lt.mpr hframe, hrequest, bind_ok.mpr ⟨b, hwriter, ?_⟩⟩
    rw [bind_refuseIf, pure_ok]
    exact ⟨not_not.mpr hlen, rfl⟩

/-- **What is accepted** are the bytes of one header, with the digest of its
fields and the payload. -/
theorem decodeFrame_accepted {frame : Frame}
    (h : decodeFrame hash headerBytes payload limits = .ok frame) :
    ∃ b, (Emit.concat (hashedFields frame.header)).Yields b ∧
      headerBytes = b ++ (hash (b ++ payload)).bytes ∧ frame.header.Accepted limits ∧
      frame.header.payloadLength = payload.length ∧ frame.payload = payload ∧
      frame.header.integrity = hash (b ++ payload) := by
  unfold decodeFrame at h
  obtain ⟨header, hheader, h⟩ := bind_ok.mp h
  rw [bind_refuseIf, bind_refuseIf, pure_ok] at h
  obtain ⟨hlength, hdigest, rfl⟩ := h
  unfold decodeFrameHeader at hheader
  rw [bind_refuseIf] at hheader
  obtain ⟨-, hread⟩ := hheader
  have haccepted := readFrameHeader_returns limits _ _ _ (decodeAll_ok.mp hread)
  have hbytes := decodeAll_inverts (readFrameHeader_inverts limits) hread
  obtain ⟨b, hb, hlen⟩ := hashedFields_yields header
  -- the bytes that were read split at the integrity offset
  obtain rfl := hbytes.unique (headerFields_yields hb)
  have htake : (b ++ header.integrity.bytes).take frameIntegrityOffset = b := List.take_left' hlen
  rw [htake, not_not] at hdigest
  exact ⟨b, hb, by rw [hdigest], haccepted, not_not.mp hlength, rfl, hdigest.symm⟩

/-- A frame that was sent is accepted, with the values it was sent with. -/
theorem decodeFrame_sent {type : MessageType} {sequence : UInt64} {epoch : CoordinatorEpoch}
    {requestId : MutationAttemptId} (hsize : payload.length < 2 ^ 32)
    (h : encodeFrame hash type sequence epoch requestId payload limits =
      .ok (headerBytes ++ payload)) :
    ∃ integrity, decodeFrame hash headerBytes payload limits =
      .ok ⟨sentHeader type sequence epoch requestId payload integrity, payload⟩ := by
  obtain ⟨b, hb, hlen⟩ := hashedFields_yields
    (sentHeader type sequence epoch requestId payload (Block.zero 32))
  obtain ⟨hfits, hframe⟩ := (encodeFrame_ok hb).mp h
  obtain rfl := List.append_cancel_right hframe
  generalize hdigest : hash (b ++ payload) = digest
  refine ⟨digest, ?_⟩
  have hbytes : (Emit.concat (headerFields
      (sentHeader type sequence epoch requestId payload digest))).Yields (b ++ digest.bytes) :=
    hb.concat_snoc rfl
  have hdecodes : Decodes _ (readFrameHeader limits) _
      (sentHeader type sequence epoch requestId payload digest) := readFrameHeader_decodes hsize rfl
  have hread := decodeAll_decodes hdecodes ⟨rfl, rfl, rfl, hfits.1, hfits.2⟩ hbytes
  have hsplit : (b ++ digest.bytes).length = frameHeaderSize := by
    rw [List.length_append, hlen, digest.size_eq]
    rfl
  have hheader : decodeFrameHeader (b ++ digest.bytes) limits =
      .ok (sentHeader type sequence epoch requestId payload digest) := by
    rw [decodeFrameHeader, bind_refuseIf]
    exact ⟨not_not.mpr hsplit, hread⟩
  rw [decodeFrame, bind_ok]
  refine ⟨_, hheader, ?_⟩
  rw [bind_refuseIf, bind_refuseIf, pure_ok, List.take_left' hlen, hdigest]
  exact ⟨not_not.mpr rfl, not_not.mpr rfl, rfl⟩

/-- **The decoder accepts exactly what the encoder sends**, and returns the
values it was sent with. -/
theorem decodeFrame_iff (hash : Bytes → Block 32) (limits : Limits) (headerBytes payload : Bytes)
    (hsize : payload.length < 2 ^ 32) :
    ((∃ frame, decodeFrame hash headerBytes payload limits = .ok frame) ↔
      ∃ type sequence epoch requestId,
        encodeFrame hash type sequence epoch requestId payload limits =
          .ok (headerBytes ++ payload)) ∧
    ∀ frame type sequence epoch requestId,
      decodeFrame hash headerBytes payload limits = .ok frame →
      encodeFrame hash type sequence epoch requestId payload limits =
        .ok (headerBytes ++ payload) →
      frame.header.type = type ∧ frame.header.sequence = sequence ∧
        frame.header.epoch = epoch.raw ∧ frame.header.requestId = requestId.bytes ∧
        frame.header.flags = 0 ∧ frame.payload = payload := by
  refine ⟨⟨?_, ?_⟩, ?_⟩
  · rintro ⟨⟨header, _⟩, h⟩
    obtain ⟨b, hb, hbytes, haccepted, hlength, -, hintegrity⟩ := decodeFrame_accepted h
    have hepoch : (MonotonicCounter.ofRaw header.epoch : CoordinatorEpoch).raw = header.epoch :=
      UInt64.ofNat_toNat
    -- the header that was read is the one that is sent with its values
    have hsent : sentHeader header.type header.sequence (.ofRaw header.epoch) ⟨header.requestId⟩
        payload header.integrity = header := by
      obtain ⟨magic, version, type, flags, length, sequence, epoch, requestId, integrity⟩ := header
      obtain ⟨rfl, rfl, rfl, -, -⟩ := haccepted
      obtain rfl := hlength
      exact congrArg (fun e => FrameHeader.mk _ _ type _ _ sequence e requestId integrity) hepoch
    rw [← hsent] at hb
    refine ⟨header.type, header.sequence, .ofRaw header.epoch, ⟨header.requestId⟩,
      (encodeFrame_ok hb).mpr ⟨⟨?_, ?_⟩, by rw [hbytes]⟩⟩
    · rw [← hlength]
      exact haccepted.frame
    · rw [← hlength]
      exact haccepted.request
  · rintro ⟨type, sequence, epoch, requestId, h⟩
    obtain ⟨integrity, hdecode⟩ := decodeFrame_sent hsize h
    exact ⟨_, hdecode⟩
  · intro frame type sequence epoch requestId hdecode hencode
    obtain ⟨integrity, hsent⟩ := decodeFrame_sent hsize hencode
    obtain rfl := Except.ok.inj (hdecode.symm.trans hsent)
    exact ⟨rfl, rfl, rfl, rfl, rfl, rfl⟩

end Frames

/-- A request of two bytes is sent and accepted. -/
theorem decodeFrame_iff_test : ∃ header,
    encodeFrame Sha256.hash .hello 7 .zero .nil [1, 2] defaultLimits = .ok (header ++ [1, 2]) ∧
      ∃ frame, decodeFrame Sha256.hash header [1, 2] defaultLimits = .ok frame := by
  obtain ⟨b, hb, -⟩ :=
    hashedFields_yields (sentHeader .hello 7 .zero .nil [1, 2] (Block.zero 32))
  have hsent : encodeFrame Sha256.hash .hello 7 .zero .nil [1, 2] defaultLimits = _ :=
    (encodeFrame_ok hb).mpr ⟨⟨by decide, by decide⟩, rfl⟩
  refine ⟨_, hsent, ?_⟩
  exact (decodeFrame_iff Sha256.hash defaultLimits _ [1, 2] (by decide)).1.mpr
    ⟨.hello, 7, .zero, .nil, hsent⟩

end FabricEpoch
