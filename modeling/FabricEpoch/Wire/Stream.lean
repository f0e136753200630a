import FabricEpoch.Lib.Framing
import FabricEpoch.Wire.Frame

/-!
# Frames on a connection

The bytes of a connection come in pieces that have nothing to do with the frames.
The server and the client read a frame in the same way: the header, the payload
length out of it, the payload, and then the decoder of the frame. They differ in
two messages.

- `Socket.recvExact`, `receiveFrame`: as the source has them, with `readFrame` and
  `receive` as the two instances;
- `receiveAll`: one frame after the other until the stream ends or is refused;
- `receiveAll_iff`: that ends without an error exactly on a stream of whole frames
  that were sent, and these are what is received;
- `receiveAll_cut`: a stream that ends inside a frame.

How a connection is cut into pieces is not in the conclusions.
-/

namespace FabricEpoch

open ByteCodec Checks

/-! ## Sockets -/

/-- How a connection ends for `recv`: the peer has closed it, the receive budget is
used up, the connection is reset, or anything else. -/
inductive StreamEnd where
  | closed
  | timedOut
  | reset
  | failed
deriving DecidableEq

/-- What `recv_exact` makes of the end: nothing to report where no byte has come yet,
unless `recv` failed. -/
def StreamEnd.refusal (nothing : Bool) : StreamEnd → Option EpochError
  | .closed => if nothing then none
    else some (ioFailure "peer closed the connection in the middle of a frame")
  | .timedOut => if nothing then none
    else some (protocolViolation "peer stopped in the middle of a frame within the receive budget")
  | .reset => if nothing then none
    else some (ioFailure "connection was reset in the middle of a frame")
  | .failed => some (ioFailure "socket receive failed")

/-- A connection, from the place up to which it is read. -/
structure Socket where
  pieces : List Bytes
  ending : StreamEnd

/-- As much as one `recv` is asked for. -/
def recvCeiling : Nat := 1048576

theorem recvCeiling_pos : 0 < recvCeiling := by decide

theorem frameHeaderSize_pos : 0 < frameHeaderSize := by decide

/-- `recv_exact`. -/
def Socket.recvExact (size : Nat) (socket : Socket) :
    Except EpochError (Option (Bytes × Socket)) :=
  let data := Pieces.fill recvCeiling size socket.pieces
  if data.1.length < size then
    (socket.ending.refusal data.1.isEmpty).elim (.ok none) .error
  else .ok (some (data.1, { socket with pieces := data.2 }))

/-! ## Frames -/

/-- The reads of `peek_payload_length`. -/
def readPayloadLength : Reader Nat := do
  let _ ← ByteReader.u32
  let _ ← ByteReader.u16
  let _ ← ByteReader.u16
  let _ ← ByteReader.u16
  ByteReader.u32

def peekPayloadLength (headerBytes : Bytes) : Except EpochError Nat := do
  refuseIf (headerBytes.length < frameHeaderSize)
    (malformed "frame header is shorter than the fixed header size")
  let (length, _) ← readPayloadLength (headerBytes.take frameHeaderSize)
  return length

section Receive

variable (hash : Bytes → Block 32) (limits : Limits) (tooLarge cut : EpochError)

/-- One frame off the connection, or none where the connection ends in front of it. -/
def receiveFrame (socket : Socket) : Except EpochError (Option (Frame × Socket)) := do
  match ← socket.recvExact frameHeaderSize with
  | none => return none
  | some (header, socket) =>
    let length ← peekPayloadLength header
    refuseIf (length > limits.maxFramePayload) tooLarge
    match ← socket.recvExact length with
    | none => throw cut
    | some (payload, socket) =>
      let frame ← decodeFrame hash header payload limits
      return some (frame, socket)

/-- `read_frame` of the server. -/
def readFrame (socket : Socket) : Except EpochError (Option (Frame × Socket)) :=
  receiveFrame hash limits
    (resourceLimit "declared frame payload exceeds limits.max_frame_payload")
    (malformed "peer closed the connection in the middle of a frame payload") socket

/-- `receive` of the client. -/
def receive (socket : Socket) : Except EpochError (Option (Frame × Socket)) :=
  receiveFrame hash limits
    (resourceLimit "declared response payload exceeds limits.max_frame_payload")
    (ioFailure "coordinator closed the connection in the middle of a frame payload") socket

/-- How frames are laid out on a connection. -/
def frameLayout : Framing UInt8 EpochError Frame where
  ceiling := recvCeiling
  ceiling_pos := recvCeiling_pos
  headerSize := frameHeaderSize
  headerSize_pos := frameHeaderSize_pos
  payloadLength header := do
    let length ← peekPayloadLength header
    refuseIf (length > limits.maxFramePayload) tooLarge
    return length
  decode header payload := decodeFrame hash header payload limits

/-- What the end of a connection is for the reader of frames. -/
def StreamEnd.reading (ending : StreamEnd) : Framing.Ending EpochError where
  atFrame := ending.refusal true
  inHeader := (ending.refusal false).getD cut
  inPayload nothing := (ending.refusal nothing).getD cut

variable {hash limits tooLarge cut}

theorem refusal_false (ending : StreamEnd) : ∃ e, ending.refusal false = some e := by
  cases ending <;> exact ⟨_, rfl⟩

/-- Less than was asked for has come. -/
theorem recvExact_short {size : Nat} {socket : Socket} {data : Bytes} {pieces : List Bytes}
    (hfill : Pieces.fill recvCeiling size socket.pieces = (data, pieces))
    (h : data.length < size) :
    socket.recvExact size = (socket.ending.refusal data.isEmpty).elim (.ok none) .error := by
  unfold Socket.recvExact
  rw [hfill]
  exact if_pos h

theorem recvExact_whole {size : Nat} {socket : Socket} {data : Bytes} {pieces : List Bytes}
    (hfill : Pieces.fill recvCeiling size socket.pieces = (data, pieces))
    (h : ¬ data.length < size) :
    socket.recvExact size = .ok (some (data, ⟨pieces, socket.ending⟩)) := by
  unfold Socket.recvExact
  rw [hfill]
  exact if_neg h

theorem layoutLength_ok {header : Bytes} {length : Nat} :
    (frameLayout hash limits tooLarge).payloadLength header = .ok length ↔
      peekPayloadLength header = .ok length ∧ length ≤ limits.maxFramePayload := by
  show (peekPayloadLength header >>= fun length => _) = _ ↔ _
  rw [bind_ok]
  constructor
  · rintro ⟨length', hpeek, h⟩
    rw [bind_refuseIf, pure_ok] at h
    obtain ⟨hlarge, rfl⟩ := h
    exact ⟨hpeek, Nat.not_lt.mp hlarge⟩
  · rintro ⟨hpeek, hlarge⟩
    refine ⟨length, hpeek, ?_⟩
    rw [bind_refuseIf, pure_ok]
    exact ⟨Nat.not_lt.mpr hlarge, rfl⟩

theorem layoutLength_refused {header : Bytes} {e : EpochError}
    (h : peekPayloadLength header = .error e) :
    (frameLayout hash limits tooLarge).payloadLength header = .error e := by
  show Except.bind (peekPayloadLength header) _ = _
  rw [h]
  rfl

theorem layoutLength_tooLarge {header : Bytes} {length : Nat}
    (h : peekPayloadLength header = .ok length) (hlarge : length > limits.maxFramePayload) :
    (frameLayout hash limits tooLarge).payloadLength header = .error tooLarge := by
  show Except.bind (peekPayloadLength header) _ = _
  rw [h]
  show Except.bind (refuseIf (length > limits.maxFramePayload) tooLarge) _ = _
  rw [refuseIf, if_pos hlarge]
  rfl

/-- **A frame is received as the layout says.** -/
theorem receiveFrame_eq (socket : Socket) :
    receiveFrame hash limits tooLarge cut socket =
      ((frameLayout hash limits tooLarge).read (socket.ending.reading cut) socket.pieces).map
        (Option.map fun read => (read.1, ⟨read.2, socket.ending⟩)) := by
  unfold receiveFrame
  obtain ⟨⟨header, behind⟩, hfill⟩ :
      ∃ filled, Pieces.fill recvCeiling frameHeaderSize socket.pieces = filled := ⟨_, rfl⟩
  by_cases hheader : header.length < frameHeaderSize
  · rw [recvExact_short hfill hheader, Framing.read_short hfill hheader]
    cases header.isEmpty with
    | true =>
      rw [if_pos rfl]
      show _ = Except.map _ ((socket.ending.refusal true).elim _ _)
      cases socket.ending.refusal true <;> rfl
    | false =>
      obtain ⟨e, he⟩ := refusal_false socket.ending
      rw [if_neg Bool.false_ne_true, he]
      show _ = Except.error ((socket.ending.refusal false).getD cut)
      rw [he]
      rfl
  · rw [recvExact_whole hfill hheader]
    show Except.bind (peekPayloadLength header) _ = _
    cases hpeek : peekPayloadLength header with
    | error e =>
      rw [Framing.read_refused hfill hheader (layoutLength_refused hpeek)]
      rfl
    | ok length =>
      show Except.bind (refuseIf (length > limits.maxFramePayload) tooLarge) _ = _
      by_cases hlarge : length > limits.maxFramePayload
      · rw [Framing.read_refused hfill hheader (layoutLength_tooLarge hpeek hlarge), refuseIf,
          if_pos hlarge]
        rfl
      · rw [refuseIf, if_neg hlarge]
        have hlength : (frameLayout hash limits tooLarge).payloadLength header = .ok length :=
          layoutLength_ok.mpr ⟨hpeek, Nat.not_lt.mp hlarge⟩
        obtain ⟨⟨payload, rest⟩, hbehind⟩ :
            ∃ filled, Pieces.fill recvCeiling length behind = filled := ⟨_, rfl⟩
        show Except.bind (Socket.recvExact length ⟨behind, socket.ending⟩) _ = _
        by_cases hpayload : payload.length < length
        · rw [Framing.read_cut hfill hheader hlength hbehind hpayload,
            recvExact_short hbehind hpayload]
          show _ = Except.error ((socket.ending.refusal payload.isEmpty).getD cut)
          cases socket.ending.refusal payload.isEmpty <;> rfl
        · rw [Framing.read_whole hfill hheader hlength hbehind hpayload,
            recvExact_whole hbehind hpayload]
          show Except.bind (decodeFrame hash header payload limits) _ =
            Except.map _ (Except.map _ (decodeFrame hash header payload limits))
          cases decodeFrame hash header payload limits <;> rfl

/-! ## Sent frames -/

/-- The bytes are those of the frame as it is sent, and its digest is theirs. -/
def Frame.Sent (hash : Bytes → Block 32) (limits : Limits) (frame : Frame) (bytes : Bytes) : Prop :=
  ∃ type sequence epoch requestId payload, payload.length < 2 ^ 32 ∧
    encodeFrame hash type sequence epoch requestId payload limits = .ok bytes ∧
    frame = ⟨sentHeader type sequence epoch requestId payload
      (hash (bytes.take frameIntegrityOffset ++ payload)), payload⟩

/-- The length is read off a header as the decoder of the header reads it. -/
theorem readPayloadLength_of_header {input rest : Bytes} {header : FrameHeader}
    (h : readFrameHeader limits input = .ok (header, rest)) :
    ∃ rest', readPayloadLength input = .ok (header.payloadLength, rest') := by
  unfold readFrameHeader at h
  obtain ⟨magic, r₁, hmagic, h⟩ := bind_eq_ok h
  obtain ⟨_, r₁', hrequire, h⟩ := bind_eq_ok h
  obtain ⟨-, rfl⟩ := require_ok hrequire
  obtain ⟨version, r₂, hversion, h⟩ := bind_eq_ok h
  obtain ⟨_, r₂', hrequire, h⟩ := bind_eq_ok h
  obtain ⟨-, rfl⟩ := require_ok hrequire
  obtain ⟨type, r₃, htype, h⟩ := bind_eq_ok h
  obtain ⟨word, hword, -⟩ := decodeVia_ok htype
  obtain ⟨flags, r₄, hflags, h⟩ := bind_eq_ok h
  obtain ⟨_, r₄', hrequire, h⟩ := bind_eq_ok h
  obtain ⟨-, rfl⟩ := require_ok hrequire
  obtain ⟨length, r₅, hlength, h⟩ := bind_eq_ok h
  obtain ⟨_, _, _, h⟩ := bind_eq_ok h
  obtain ⟨_, _, _, h⟩ := bind_eq_ok h
  obtain ⟨_, _, _, h⟩ := bind_eq_ok h
  obtain ⟨_, _, _, h⟩ := bind_eq_ok h
  obtain ⟨_, _, _, h⟩ := bind_eq_ok h
  obtain ⟨_, _, _, h⟩ := bind_eq_ok h
  cases h
  refine ⟨r₅, ?_⟩
  unfold readPayloadLength
  rw [bind_apply_ok hmagic, bind_apply_ok hversion, bind_apply_ok hword, bind_apply_ok hflags]
  exact hlength

/-- A declared length fits into four bytes. -/
theorem peekPayloadLength_lt {header : Bytes} {length : Nat}
    (h : peekPayloadLength header = .ok length) : length < 2 ^ 32 := by
  unfold peekPayloadLength at h
  rw [bind_refuseIf] at h
  obtain ⟨-, h⟩ := h
  obtain ⟨⟨length', rest⟩, hread, h⟩ := bind_ok.mp h
  cases h
  have hreturns : Returns (fun n => n < 256 ^ 4) readPayloadLength :=
    Returns.skip fun _ => Returns.skip fun _ => Returns.skip fun _ => Returns.skip fun _ =>
      Returns.leWord _ 4
  exact hreturns _ _ _ hread

/-- The length that is read ahead is the one of the frame. -/
theorem peekPayloadLength_accepted {headerBytes payload : Bytes} {frame : Frame}
    (h : decodeFrame hash headerBytes payload limits = .ok frame) :
    headerBytes.length = frameHeaderSize ∧ peekPayloadLength headerBytes = .ok payload.length := by
  unfold decodeFrame at h
  obtain ⟨header, hheader, h⟩ := bind_ok.mp h
  rw [bind_refuseIf] at h
  obtain ⟨hlength, -⟩ := h
  unfold decodeFrameHeader at hheader
  rw [bind_refuseIf] at hheader
  obtain ⟨hsize, hread⟩ := hheader
  rw [not_not] at hsize hlength
  obtain ⟨rest, hpeek⟩ := readPayloadLength_of_header (decodeAll_ok.mp hread)
  refine ⟨hsize, ?_⟩
  unfold peekPayloadLength
  rw [bind_refuseIf]
  refine ⟨by omega, ?_⟩
  rw [List.take_of_length_le (by omega), bind_ok]
  exact ⟨_, hpeek, by rw [hlength]; rfl⟩

/-- **The layout has the frames that are sent.** -/
theorem encodes_iff {frame : Frame} {bytes : Bytes} :
    (frameLayout hash limits tooLarge).Encodes frame bytes ↔ frame.Sent hash limits bytes := by
  constructor
  · rintro ⟨headerBytes, payload, rfl, -, hlength, hdecode⟩
    have hsize := peekPayloadLength_lt (layoutLength_ok.mp hlength).1
    obtain ⟨b, hb, rfl, haccepted, hpayload, hsame, hintegrity⟩ := decodeFrame_accepted hdecode
    obtain ⟨header, payload'⟩ := frame
    dsimp only at hb haccepted hpayload hsame hintegrity
    subst hsame
    have hepoch : (MonotonicCounter.ofRaw header.epoch : CoordinatorEpoch).raw = header.epoch :=
      UInt64.ofNat_toNat
    have hsent : sentHeader header.type header.sequence (.ofRaw header.epoch) ⟨header.requestId⟩
        payload' header.integrity = header := by
      obtain ⟨magic, version, type, flags, length, sequence, epoch, requestId, integrity⟩ := header
      obtain ⟨rfl, rfl, rfl, -, -⟩ := haccepted
      obtain rfl := hpayload
      exact congrArg (fun e => FrameHeader.mk _ _ type _ _ sequence e requestId integrity) hepoch
    have htake : (b ++ (hash (b ++ payload')).bytes ++ payload').take frameIntegrityOffset = b := by
      obtain ⟨b', hb', hlen⟩ := hashedFields_yields header
      obtain rfl := hb.unique hb'
      rw [List.append_assoc]
      exact List.take_left' hlen
    refine ⟨header.type, header.sequence, .ofRaw header.epoch, ⟨header.requestId⟩, payload', hsize,
      ?_, ?_⟩
    · rw [← hsent] at hb
      refine (encodeFrame_ok hb).mpr ⟨⟨?_, ?_⟩, rfl⟩
      · rw [← hpayload]
        exact haccepted.frame
      · rw [← hpayload]
        exact haccepted.request
    · rw [htake, ← hintegrity, hsent]
  · rintro ⟨type, sequence, epoch, requestId, payload, hsize, hencode, rfl⟩
    obtain ⟨b, hb, hlen⟩ := hashedFields_yields
      (sentHeader type sequence epoch requestId payload (Block.zero 32))
    obtain ⟨hfits, rfl⟩ := (encodeFrame_ok hb).mp hencode
    obtain ⟨integrity, hdecode⟩ := decodeFrame_sent hsize hencode
    obtain ⟨hheader, hpeek⟩ := peekPayloadLength_accepted hdecode
    obtain ⟨b', hb', hbytes, -, -, -, hintegrity⟩ := decodeFrame_accepted hdecode
    have htake : (b ++ (hash (b ++ payload)).bytes ++ payload).take frameIntegrityOffset = b := by
      rw [List.append_assoc]
      exact List.take_left' hlen
    refine ⟨_, payload, rfl, hheader, layoutLength_ok.mpr ⟨hpeek, hfits.1⟩, ?_⟩
    show decodeFrame hash _ payload limits = _
    rw [hdecode, htake]
    -- the digest is not among the fields that are hashed
    obtain rfl := hb.unique hb'
    have hdigest : integrity = hash (b ++ payload) := hintegrity
    rw [hdigest]

/-! ## Whole connections -/

/-- What one frame is read from are the bytes. -/
theorem receiveFrame_bytes (hash : Bytes → Block 32) (limits : Limits) (tooLarge cut : EpochError)
    (socket : Socket) :
    (frameLayout hash limits tooLarge).readBytes (socket.ending.reading cut) socket.pieces.flatten =
      (receiveFrame hash limits tooLarge cut socket).map
        (Option.map fun read => (read.1, read.2.pieces.flatten)) := by
  rw [← Framing.read_eq, receiveFrame_eq]
  cases (frameLayout hash limits tooLarge).read (socket.ending.reading cut) socket.pieces with
  | error e => rfl
  | ok one => cases one <;> rfl

theorem receiveFrame_ending {socket socket' : Socket} {frame : Frame}
    (h : receiveFrame hash limits tooLarge cut socket = .ok (some (frame, socket'))) :
    socket'.ending = socket.ending := by
  rw [receiveFrame_eq] at h
  cases hread : (frameLayout hash limits tooLarge).read (socket.ending.reading cut)
      socket.pieces with
  | error e => rw [hread] at h; cases h
  | ok one =>
    rw [hread] at h
    cases one with
    | none => cases h
    | some one => cases h; rfl

/-- **A frame that was sent is received** where its bytes come first. -/
theorem receiveFrame_sent {socket : Socket} {frame : Frame} {bytes later : Bytes}
    (hframe : frame.Sent hash limits bytes) (hbytes : socket.pieces.flatten = bytes ++ later) :
    ∃ socket', receiveFrame hash limits tooLarge cut socket = .ok (some (frame, socket')) ∧
      socket'.pieces.flatten = later := by
  have hread : (frameLayout hash limits tooLarge).readBytes (socket.ending.reading cut)
      socket.pieces.flatten = .ok (some (frame, later)) :=
    Framing.readBytes_some_iff.mpr ⟨bytes, encodes_iff.mpr hframe, hbytes⟩
  rw [receiveFrame_bytes] at hread
  cases hreceive : receiveFrame hash limits tooLarge cut socket with
  | error e => rw [hreceive] at hread; cases hread
  | ok one =>
    rw [hreceive] at hread
    cases one with
    | none => cases hread
    | some one =>
      obtain ⟨frame', socket'⟩ := one
      cases hread
      exact ⟨socket', rfl, rfl⟩

theorem receiveFrame_length {socket socket' : Socket} {frame : Frame}
    (h : receiveFrame hash limits tooLarge cut socket = .ok (some (frame, socket'))) :
    socket'.pieces.flatten.length < socket.pieces.flatten.length := by
  have hbytes := receiveFrame_bytes hash limits tooLarge cut socket
  rw [h] at hbytes
  exact Framing.readBytes_length hbytes

variable (hash limits tooLarge cut)

/-- Frames until the connection ends or one is refused, and what was thrown. -/
def receiveAll (socket : Socket) : List Frame × Option EpochError :=
  match h : receiveFrame hash limits tooLarge cut socket with
  | .error e => ([], some e)
  | .ok none => ([], none)
  | .ok (some (frame, socket)) => (receiveAll socket).map (frame :: ·) id
termination_by socket.pieces.flatten.length
decreasing_by exact receiveFrame_length h

variable {hash limits tooLarge cut}

/-- **The frames of a connection are those of its bytes.** -/
theorem receiveAll_eq (socket : Socket) :
    receiveAll hash limits tooLarge cut socket =
      (frameLayout hash limits tooLarge).readAllBytes (socket.ending.reading cut)
        socket.pieces.flatten := by
  generalize hlength : socket.pieces.flatten.length = n
  induction n using Nat.strongRecOn generalizing socket with
  | ind n ih =>
    have hbytes := receiveFrame_bytes hash limits tooLarge cut socket
    rw [receiveAll]
    split
    · next e he =>
      rw [he] at hbytes
      exact (Framing.readAllBytes_error hbytes).symm
    · next he =>
      rw [he] at hbytes
      exact (Framing.readAllBytes_none hbytes).symm
    · next frame rest he =>
      have hless := receiveFrame_length he
      rw [ih _ (by omega) rest rfl, receiveFrame_ending he]
      rw [he] at hbytes
      exact (Framing.readAllBytes_some hbytes).symm

/-- The frames were sent as these messages, in this order. -/
def SentAs (hash : Bytes → Block 32) (limits : Limits) : List Frame → List Bytes → Prop :=
  List.Forall₂ (Frame.Sent hash limits)

theorem sentAs_iff (tooLarge : EpochError) {frames : List Frame} {messages : List Bytes} :
    List.Forall₂ (frameLayout hash limits tooLarge).Encodes frames messages ↔
      SentAs hash limits frames messages := by
  unfold SentAs
  have hsame : (frameLayout hash limits tooLarge).Encodes = Frame.Sent hash limits :=
    funext fun frame => funext fun bytes => propext encodes_iff
  rw [hsame]

end Receive

/-- **A connection is received to its end** without an error exactly where its bytes,
wherever they are cut, are those of frames that were sent, one after the other; and
then these frames are received. -/
theorem receiveAll_iff (hash : Bytes → Block 32) (limits : Limits) (tooLarge cut : EpochError)
    (socket : Socket) (frames : List Frame) :
    receiveAll hash limits tooLarge cut socket = (frames, none) ↔
      socket.ending ≠ .failed ∧
        ∃ messages, SentAs hash limits frames messages ∧ socket.pieces.flatten = messages.flatten := by
  have hending : (socket.ending.reading cut).atFrame = none ↔ socket.ending ≠ .failed := by
    show socket.ending.refusal true = none ↔ _
    cases socket.ending <;> simp [StreamEnd.refusal]
  rw [receiveAll_eq, Framing.readAllBytes_closed_iff, hending]
  constructor
  · rintro ⟨hclosed, messages, hframes, hbytes⟩
    exact ⟨hclosed, messages, (sentAs_iff tooLarge).mp hframes, hbytes⟩
  · rintro ⟨hclosed, messages, hframes, hbytes⟩
    exact ⟨hclosed, messages, (sentAs_iff tooLarge).mpr hframes, hbytes⟩

/-- **A connection that ends inside a frame** gives the frames in front of it, and an
error: the one for the end of the connection, or `cut` where the payload has not
begun. -/
theorem receiveAll_cut (hash : Bytes → Block 32) (limits : Limits) (tooLarge cut : EpochError)
    (socket : Socket) (frames : List Frame) (messages : List Bytes) (frame : Frame)
    (part missing : Bytes) (hframes : SentAs hash limits frames messages)
    (hframe : frame.Sent hash limits (part ++ missing)) (hpart : part ≠ []) (hmissing : missing ≠ [])
    (hbytes : socket.pieces.flatten = messages.flatten ++ part) :
    receiveAll hash limits tooLarge cut socket =
      (frames, some ((socket.ending.refusal (part.length = frameHeaderSize)).getD cut)) := by
  rw [receiveAll_eq, hbytes, Framing.readAllBytes_cut ((sentAs_iff tooLarge).mpr hframes)
    (encodes_iff.mpr hframe) hpart hmissing]
  show (frames, some (if part.length < frameHeaderSize then (socket.ending.refusal false).getD cut
    else (socket.ending.refusal (part.drop frameHeaderSize).isEmpty).getD cut)) = _
  by_cases hheader : part.length < frameHeaderSize
  · rw [if_pos hheader, decide_eq_false (by omega)]
  · have hempty : (part.drop frameHeaderSize).isEmpty = decide (part.length = frameHeaderSize) := by
      rw [Bool.eq_iff_iff, List.isEmpty_iff, List.drop_eq_nil_iff, decide_eq_true_iff]
      omega
    rw [if_neg hheader, hempty]

/-- A client that stops behind the hashed fields of its first frame. -/
theorem receiveAll_cut_test : ∃ part missing : Bytes, missing ≠ [] ∧
    encodeFrame Sha256.hash .hello 7 .zero .nil [1, 2] defaultLimits = .ok (part ++ missing) ∧
      receiveAll Sha256.hash defaultLimits (resourceLimit "large") (malformed "cut")
        ⟨[part], .timedOut⟩ = ([], some (protocolViolation
          "peer stopped in the middle of a frame within the receive budget")) := by
  obtain ⟨b, hb, hlen⟩ :=
    hashedFields_yields (sentHeader .hello 7 .zero .nil [1, 2] (Block.zero 32))
  have hsent : encodeFrame Sha256.hash .hello 7 .zero .nil [1, 2] defaultLimits =
      .ok (b ++ ((Sha256.hash (b ++ [1, 2])).bytes ++ [1, 2])) :=
    (encodeFrame_ok hb).mpr ⟨⟨by decide, by decide⟩, (List.append_assoc _ _ _).symm⟩
  have hmissing : (Sha256.hash (b ++ [1, 2])).bytes ++ [1, 2] ≠ [] :=
    List.append_ne_nil_of_right_ne_nil _ (List.cons_ne_nil _ _)
  have hpart : b ≠ [] := List.ne_nil_of_length_pos (by rw [hlen]; decide)
  refine ⟨b, _, hmissing, hsent, ?_⟩
  have hcut := receiveAll_cut Sha256.hash defaultLimits (resourceLimit "large") (malformed "cut")
    ⟨[b], .timedOut⟩ [] [] _ b _ .nil ⟨.hello, 7, .zero, .nil, [1, 2], by decide, hsent, rfl⟩ hpart
    hmissing (by rw [List.flatten_cons]; exact List.append_nil b)
  have hinside : decide (b.length = frameHeaderSize) = false := by
    rw [hlen]
    rfl
  rw [hcut, hinside]
  rfl

end FabricEpoch
