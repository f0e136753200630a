import FabricEpoch.DurableCodec
import FabricEpoch.Sha256

/-!
# The durable store

A store is two files: the image and the rollback watermark. `EpochStore.save`
reads the watermark, validates and encodes the state, replaces the image and
then raises the watermark; a `SaveFault` names the stage at which the file
system fails, and what is on disk afterwards follows from the stage
(`save_cases`).

`EpochStore.load` refuses an image whose epoch is below the watermark. `save`
makes no such check.
-/

namespace FabricEpoch

open ByteCodec Checks

/-- The two files behind a store path. -/
structure Disk where
  image : Option Bytes
  watermark : Option Bytes
deriving DecidableEq

/-- The disk of a path nothing was ever written to. -/
def Disk.blank : Disk := ⟨none, none⟩

structure StoreOptions where
  limits : Limits
  createIfMissing : Bool
  enableRollbackWatermark : Bool

/-- Where a save can be stopped by the file system. -/
inductive SaveStage where
  | readWatermark
  | createDirectory
  | writeTemporary
  | replaceImage
  | writeWatermark
deriving DecidableEq

/-- A failing file system: the stage and the error it is reported with. -/
structure SaveFault where
  stage : SaveStage
  error : EpochError
deriving DecidableEq

namespace EpochStore

def kStoreMagic : Nat := 0x46424550
def kHeaderSize : Nat := 12
def kDigestSize : Nat := 32
def kAbsoluteMaxPayloadLength : Nat := 2 ^ 30
def persistenceFormatVersion : Nat := 1

/-! ## The image -/

def header (payloadSize : Nat) : Bytes :=
  leBytes 4 kStoreMagic ++ leBytes 4 persistenceFormatVersion ++ leBytes 4 payloadSize

/-- The header and the payload, followed by their digest. -/
def frame (payload : Bytes) : Bytes :=
  header payload.length ++ payload ++ (Sha256.hash (header payload.length ++ payload)).bytes

def encode (state : DurableState) : Except EpochError Bytes := do
  validateDurableState state
  let payload ← encodeDurablePayload state
  refuseIf (payload.length > 2 ^ 32 - 1)
    (resourceLimit "durable payload exceeds the representable length")
  return frame payload

def decode (options : StoreOptions) (image : Bytes) : Except EpochError DurableState := do
  refuseIf (image.length < kHeaderSize) (corrupt "durable image is shorter than its header")
  refuseIf (leValue (image.take 4) ≠ kStoreMagic)
    (corrupt "durable image magic does not match Fabric Epoch")
  refuseIf (leValue ((image.drop 4).take 4) ≠ persistenceFormatVersion)
    ⟨.unsupportedVersion, "durable image format version is not supported"⟩
  let declaredLength := leValue ((image.drop 8).take 4)
  refuseIf (declaredLength > kAbsoluteMaxPayloadLength)
    (resourceLimit "durable payload length exceeds the absolute ceiling")
  refuseIf (image.length ≠ kHeaderSize + declaredLength + kDigestSize)
    (corrupt "durable image length does not match its declared payload length")
  let computed := Sha256.hash (image.take (image.length - kDigestSize))
  refuseIf (computed.bytes ≠ image.drop (image.length - kDigestSize))
    ⟨.integrityFailure, "durable image integrity digest does not match"⟩
  let state ← decodeDurablePayload ((image.drop kHeaderSize).take declaredLength) options.limits
  validateDurableState state
  return state

/-! ## The watermark -/

def newline : UInt8 := 10

def isBlank (c : UInt8) : Bool := c == 32 || c == 13 || c == 10

/-- `trim`: no blanks at either end. -/
def trim (text : Text) : Text := ((text.dropWhile isBlank).reverse.dropWhile isBlank).reverse

/-- The digits of the epoch value, with the 64-bit overflow check. -/
def parseEpoch : Nat → Text → Except EpochError Nat
  | epoch, [] => pure epoch
  | epoch, c :: cs => do
    refuseIf (c < 48 ∨ c > 57) (corrupt "rollback watermark file has a non-numeric epoch value")
    let digit := c.toNat - 48
    refuseIf (epoch > (maxValue - digit) / 10) (overflow "rollback watermark epoch overflows")
    parseEpoch (epoch * 10 + digit) cs

def watermarkHeader : Text := str "FabricEpochWatermark"

/-- The epoch a watermark file names. -/
def parseWatermark (text : Text) : Except EpochError Nat := do
  refuseIf (newline ∉ text) (corrupt "rollback watermark file is malformed")
  refuseIf (trim (text.takeWhile (· ≠ newline)) ≠ watermarkHeader)
    (corrupt "rollback watermark file has an unexpected header")
  let value := trim ((text.dropWhile (· ≠ newline)).drop 1)
  refuseIf (value.isEmpty = true) (corrupt "rollback watermark file has no epoch value")
  parseEpoch 0 value

def readWatermark (options : StoreOptions) (disk : Disk) : Except EpochError Nat :=
  if options.enableRollbackWatermark then
    match disk.watermark with
    | none => .ok 0
    | some text => parseWatermark text
  else .ok 0

def watermarkText (epoch : CoordinatorEpoch) : Text :=
  watermarkHeader ++ [newline] ++ epoch.toText ++ [newline]

/-! ## Loading and saving -/

def load (options : StoreOptions) (disk : Disk) : Except EpochError DurableState :=
  match disk.image with
  | none =>
    if options.createIfMissing then .ok initialState
    else .error (ioFailure "durable store does not exist and create_if_missing is false")
  | some image => do
    let state ← decode options image
    if options.enableRollbackWatermark then
      let watermark ← readWatermark options disk
      refuseIf (state.currentEpoch.value < watermark)
        (corrupt "durable epoch is lower than the persisted watermark: rollback detected")
    return state

/-- What a save leaves behind: the error it threw, if any, and the disk. -/
structure SaveResult where
  error : Option EpochError
  disk : Disk

/-- The file system fails at this stage. -/
def faultAt (fault : Option SaveFault) (stage : SaveStage) : Option EpochError :=
  match fault with
  | some f => if f.stage = stage then some f.error else none
  | none => none

@[simp] theorem faultAt_none (stage : SaveStage) : faultAt none stage = none := rfl

/-- The part of `save` that writes: the temporary file, the image, the
watermark. -/
def writeImage (options : StoreOptions) (fault : Option SaveFault) (disk : Disk)
    (state : DurableState) (image : Bytes) (previousWatermark : Nat) : SaveResult :=
  match faultAt fault .createDirectory, faultAt fault .writeTemporary,
      faultAt fault .replaceImage with
  | some e, _, _ => ⟨some e, disk⟩
  | none, some e, _ => ⟨some e, disk⟩
  | none, none, some e => ⟨some e, disk⟩
  | none, none, none =>
    let disk := { disk with image := some image }
    if options.enableRollbackWatermark ∧ state.currentEpoch.value > previousWatermark then
      match faultAt fault .writeWatermark with
      | some e => ⟨some e, disk⟩
      | none => ⟨none, { disk with watermark := some (watermarkText state.currentEpoch) }⟩
    else ⟨none, disk⟩

def save (options : StoreOptions) (fault : Option SaveFault) (disk : Disk)
    (state : DurableState) : SaveResult :=
  match faultAt fault .readWatermark with
  | some e => ⟨some e, disk⟩
  | none =>
    match readWatermark options disk with
    | .error e => ⟨some e, disk⟩
    | .ok previousWatermark =>
      match encode state with
      | .error e => ⟨some e, disk⟩
      | .ok image => writeImage options fault disk state image previousWatermark

/-! ## What the image keeps -/

theorem length_header (n : Nat) : (header n).length = kHeaderSize := by
  simp [header, kHeaderSize]

theorem length_frame (payload : Bytes) :
    (frame payload).length = kHeaderSize + payload.length + kDigestSize := by
  rw [frame, List.length_append, List.length_append, length_header, (Sha256.hash _).size_eq]
  rfl

/-- A frame is read back as the payload it was made of. -/
theorem decode_frame (options : StoreOptions) {payload : Bytes} (h : payload.length < 2 ^ 32) :
    decode options (frame payload) =
      if payload.length > kAbsoluteMaxPayloadLength then
        .error (resourceLimit "durable payload length exceeds the absolute ceiling")
      else do
        let state ← decodeDurablePayload payload options.limits
        validateDurableState state
        return state := by
  have hmagic : leValue ((frame payload).take 4) = kStoreMagic := by
    rw [frame, header, List.append_assoc, List.append_assoc, List.append_assoc,
      List.take_left' (length_leBytes _ _), leValue_leBytes (by decide)]
  have hversion : leValue (((frame payload).drop 4).take 4) = persistenceFormatVersion := by
    rw [frame, header, List.append_assoc, List.append_assoc, List.append_assoc,
      List.drop_left' (length_leBytes _ _), List.take_left' (length_leBytes _ _),
      leValue_leBytes (by decide)]
  have hdeclared : leValue (((frame payload).drop 8).take 4) = payload.length := by
    have hpre : (leBytes 4 kStoreMagic ++ leBytes 4 persistenceFormatVersion).length = 8 := by
      simp
    rw [frame, header, List.append_assoc, List.append_assoc, List.drop_left' hpre,
      List.take_left' (length_leBytes _ _), leValue_leBytes (by simpa using h)]
  have hbody : (header payload.length ++ payload).length =
      (frame payload).length - kDigestSize := by
    rw [length_frame, List.length_append, length_header, Nat.add_sub_cancel]
  have htake : (frame payload).take ((frame payload).length - kDigestSize) =
      header payload.length ++ payload := by
    rw [← hbody, frame, List.take_left]
  have hdrop : (frame payload).drop ((frame payload).length - kDigestSize) =
      (Sha256.hash (header payload.length ++ payload)).bytes := by
    rw [← hbody, frame, List.drop_left]
  have hpayload : ((frame payload).drop kHeaderSize).take payload.length = payload := by
    rw [frame, List.append_assoc, List.drop_left' (length_header _), List.take_left]
  have hsize : ¬ (frame payload).length < kHeaderSize := by
    rw [length_frame]
    omega
  unfold decode
  simp only [hmagic, hversion, hdeclared, htake, hdrop, hpayload]
  by_cases hmax : payload.length > kAbsoluteMaxPayloadLength
  · simp [refuseIf, hsize, hmax]
    rfl
  · simp [refuseIf, hmax, length_frame]
    rfl

theorem encode_ok {state : DurableState} {image : Bytes} : encode state = .ok image ↔
    ∃ payload, ValidDurable state ∧ encodeDurablePayload state = .ok payload ∧
      payload.length < 2 ^ 32 ∧ image = frame payload := by
  unfold encode
  rw [bind_discard, bind_ok]
  constructor
  · rintro ⟨⟨_, hv⟩, payload, he, hrest⟩
    rw [bind_refuseIf, pure_ok] at hrest
    exact ⟨payload, validateDurableState_ok.mp hv, he, by omega, hrest.2⟩
  · rintro ⟨payload, hv, he, hlen, rfl⟩
    refine ⟨⟨(), validateDurableState_ok.mpr hv⟩, payload, he, ?_⟩
    rw [bind_refuseIf, pure_ok]
    exact ⟨by omega, rfl⟩

/-- **An image that loads holds the state it was made of.** -/
theorem decode_only {options : StoreOptions} {state state' : DurableState} {image : Bytes}
    (he : encode state = .ok image) (hd : decode options image = .ok state') :
    state' = state := by
  obtain ⟨payload, -, hp, hlen, rfl⟩ := encode_ok.mp he
  rw [decode_frame options hlen] at hd
  split at hd
  · cases hd
  · obtain ⟨s, hs, hrest⟩ := bind_ok.mp hd
    have heq := pure_ok.mp (bind_discard.mp hrest).2
    rw [heq]
    exact decodeDurablePayload_only hp hlen hs

/-- What makes an image loadable again: texts and counts that fit, the room the
transition guard asks for, and a payload within the ceiling of the loader. -/
structure Loadable (state : DurableState) (image : Bytes) : Prop where
  storable : StorableState state
  room : TransitionRoom state
  size : image.length ≤ kHeaderSize + kAbsoluteMaxPayloadLength + kDigestSize

/-- **A loadable image is read back.** -/
theorem decode_encode {options : StoreOptions} {state : DurableState} {image : Bytes}
    (he : encode state = .ok image) (h : Loadable state image) :
    decode options image = .ok state := by
  obtain ⟨payload, hv, hp, hlen, rfl⟩ := encode_ok.mp he
  have hsize := h.size
  rw [length_frame] at hsize
  have hread : decodeDurablePayload payload options.limits = .ok state :=
    (decodeDurablePayload_eq_iff hp h.storable.counts (h.storable.fits options.limits)).mpr h.room
  rw [decode_frame options hlen, if_neg (by omega), hread]
  refine bind_ok.mpr ⟨state, rfl, bind_discard.mpr ⟨⟨(), ?_⟩, rfl⟩⟩
  exact validateDurableState_ok.mpr hv

/-- **And only a loadable image is read back.** -/
theorem decode_image_iff {options : StoreOptions} {state : DurableState} {image : Bytes}
    (he : encode state = .ok image) : decode options image = .ok state ↔ Loadable state image := by
  refine ⟨fun hd => ?_, decode_encode he⟩
  obtain ⟨payload, -, hp, hlen, rfl⟩ := encode_ok.mp he
  rw [decode_frame options hlen] at hd
  split at hd
  · cases hd
  · next hmax =>
    obtain ⟨s, hs, hrest⟩ := bind_ok.mp hd
    obtain rfl := decodeDurablePayload_only hp hlen hs
    have hstorable := decodeDurablePayload_storable hs
    refine ⟨hstorable, ?_, ?_⟩
    · exact (decodeDurablePayload_eq_iff hp hstorable.counts
        (hstorable.fits options.limits)).mp hs
    · rw [length_frame]
      omega

/-! ## What the watermark keeps -/

theorem natText_step {n : Nat} (h : 10 ≤ n) :
    natText n = natText (n / 10) ++ [UInt8.ofNat (48 + n % 10)] := by
  have hne : n ≠ 0 := by omega
  have hdiv : n / 10 ≠ 0 := by omega
  rw [natText, natText, if_neg hne, if_neg hdiv, Nat.digits_def' (by decide) (by omega)]
  simp

theorem natText_digit {n : Nat} (h : n < 10) : natText n = [UInt8.ofNat (48 + n)] := by
  rcases Nat.eq_zero_or_pos n with rfl | hpos
  · rfl
  · rw [natText, if_neg (by omega), Nat.digits_of_lt 10 n (by omega) h]
    rfl

/-- The bytes of a decimal text are digits. -/
theorem mem_natText {n : Nat} {c : UInt8} (h : c ∈ natText n) : 48 ≤ c.toNat ∧ c.toNat ≤ 57 := by
  have hdigit : ∀ d < 10, 48 ≤ (UInt8.ofNat (48 + d)).toNat ∧
      (UInt8.ofNat (48 + d)).toNat ≤ 57 := by
    decide
  induction n using Nat.strongRecOn with
  | ind n ih =>
    rcases Nat.lt_or_ge n 10 with hn | hn
    · rw [natText_digit hn, List.mem_singleton] at h
      rw [h]
      exact hdigit n hn
    · rw [natText_step hn, List.mem_append, List.mem_singleton] at h
      rcases h with h | rfl
      · exact ih (n / 10) (by omega) h
      · exact hdigit (n % 10) (Nat.mod_lt _ (by decide))

theorem parseEpoch_append {epoch value : Nat} {xs ys : Text} (h : parseEpoch epoch xs = .ok value) :
    parseEpoch epoch (xs ++ ys) = parseEpoch value ys := by
  induction xs generalizing epoch with
  | nil =>
    rw [parseEpoch, pure_ok] at h
    rw [List.nil_append, h]
  | cons c cs ih =>
    rw [parseEpoch, bind_refuseIf, bind_refuseIf] at h
    rw [List.cons_append, parseEpoch]
    simp only [refuseIf, if_neg h.1, if_neg h.2.1]
    exact ih h.2.2

theorem parseEpoch_digit {epoch d : Nat} (hd : d < 10) (h : epoch * 10 + d ≤ maxValue) :
    parseEpoch epoch [UInt8.ofNat (48 + d)] = .ok (epoch * 10 + d) := by
  have hdigit : ∀ d < 10, ¬ (UInt8.ofNat (48 + d) < 48 ∨ UInt8.ofNat (48 + d) > 57) ∧
      (UInt8.ofNat (48 + d)).toNat - 48 = d := by
    decide
  obtain ⟨hrange, hvalue⟩ := hdigit d hd
  rw [parseEpoch, bind_refuseIf, hvalue, bind_refuseIf]
  exact ⟨hrange, by omega, rfl⟩

/-- The decimal text of a value is parsed to the value. -/
theorem parseEpoch_natText {n : Nat} (h : n ≤ maxValue) : parseEpoch 0 (natText n) = .ok n := by
  induction n using Nat.strongRecOn with
  | ind n ih =>
    rcases Nat.lt_or_ge n 10 with hn | hn
    · rw [natText_digit hn]
      have hdigit : parseEpoch 0 [UInt8.ofNat (48 + n)] = .ok (0 * 10 + n) :=
        parseEpoch_digit hn (by omega)
      simpa using hdigit
    · have hdiv : n / 10 * 10 + n % 10 = n := by omega
      rw [natText_step hn, parseEpoch_append (ih (n / 10) (by omega) (by omega)),
        parseEpoch_digit (Nat.mod_lt _ (by decide)) (by omega), hdiv]

theorem natText_ne_nil (n : Nat) : natText n ≠ [] := by
  rcases Nat.lt_or_ge n 10 with hn | hn
  · simp [natText_digit hn]
  · simp [natText_step hn]

theorem dropWhile_isBlank {text : Text} (h : ∀ c ∈ text, isBlank c = false) :
    text.dropWhile isBlank = text := by
  cases text with
  | nil => rfl
  | cons c cs =>
    rw [List.dropWhile_cons, h c (List.mem_cons_self ..)]
    rfl

/-- A text without blanks is trimmed to itself. -/
theorem trim_of_noBlank {text : Text} (h : ∀ c ∈ text, isBlank c = false) : trim text = text := by
  rw [trim, dropWhile_isBlank h, dropWhile_isBlank fun c hc => h c (List.mem_reverse.mp hc),
    List.reverse_reverse]

/-- A trailing newline is trimmed. -/
theorem trim_append_newline {text : Text} (h : ∀ c ∈ text, isBlank c = false)
    (hne : text ≠ []) : trim (text ++ [newline]) = text := by
  have hfirst : (text ++ [newline]).dropWhile isBlank = text ++ [newline] := by
    cases text with
    | nil => exact absurd rfl hne
    | cons c cs =>
      rw [List.cons_append, List.dropWhile_cons, h c (List.mem_cons_self ..)]
      rfl
  have hlast : (text ++ [newline]).reverse.dropWhile isBlank = text.reverse := by
    rw [List.reverse_append, List.reverse_singleton, List.singleton_append, List.dropWhile_cons]
    exact dropWhile_isBlank fun c hc => h c (List.mem_reverse.mp hc)
  rw [trim, hfirst, hlast, List.reverse_reverse]

/-- The digits of an epoch are no blanks. -/
theorem natText_noBlank {n : Nat} {c : UInt8} (h : c ∈ natText n) : isBlank c = false := by
  have hrange := (mem_natText h).1
  have hne : ∀ b : UInt8, b.toNat < 48 → (c == b) = false := by
    intro b hb
    refine beq_eq_false_iff_ne.mpr ?_
    rintro rfl
    omega
  simp [isBlank, hne 32 (by decide), hne 13 (by decide), hne 10 (by decide)]

/-- **The watermark that was written is the one that is read.** -/
theorem parseWatermark_text (epoch : CoordinatorEpoch) :
    parseWatermark (watermarkText epoch) = .ok epoch.value := by
  have hline : ∀ c ∈ watermarkHeader, decide (c ≠ newline) = true := by decide +kernel
  have hsplit : watermarkText epoch = watermarkHeader ++ newline :: (epoch.toText ++ [newline]) := by
    simp [watermarkText]
  have htake : (watermarkText epoch).takeWhile (· ≠ newline) = watermarkHeader := by
    rw [hsplit, List.takeWhile_append_of_pos hline]
    simp
  have hdrop : (watermarkText epoch).dropWhile (· ≠ newline) =
      newline :: (epoch.toText ++ [newline]) := by
    rw [hsplit, List.dropWhile_append_of_pos hline]
    simp
  have hvalue : trim (epoch.toText ++ [newline]) = epoch.toText :=
    trim_append_newline (fun c hc => natText_noBlank hc) (natText_ne_nil _)
  have hheader : trim watermarkHeader = watermarkHeader := by decide
  have hmem : newline ∈ watermarkText epoch := by
    rw [hsplit]
    simp
  have hne : epoch.toText.isEmpty = false := List.isEmpty_eq_false_iff.mpr (natText_ne_nil _)
  rw [parseWatermark, bind_refuseIf, bind_refuseIf, htake, hdrop, hheader]
  refine ⟨not_not.mpr hmem, not_not.mpr rfl, ?_⟩
  simp only [List.drop_one, List.tail_cons, hvalue]
  rw [bind_refuseIf, hne]
  exact ⟨by simp, parseEpoch_natText epoch.le_max⟩

/-! ## What a save leaves on disk -/

/-- The store of a runtime: created when missing, with the watermark. -/
def runtimeOptions (limits : Limits) : StoreOptions := ⟨limits, true, true⟩

/-- The disk after the image was replaced and the watermark raised. -/
def writtenDisk (disk : Disk) (state : DurableState) (image : Bytes) (previous : Nat) : Disk where
  image := some image
  watermark := if state.currentEpoch.value > previous then some (watermarkText state.currentEpoch)
    else disk.watermark

/-- **Everything a save can do**: nothing, replace the image and fail to raise
the watermark, or both. -/
inductive SaveCase (limits : Limits) (fault : Option SaveFault) (disk : Disk)
    (state : DurableState) : SaveResult → Prop
  | unchanged (e : EpochError) : SaveCase limits fault disk state ⟨some e, disk⟩
  | torn {image : Bytes} {previous : Nat} (e : EpochError) (encoded : encode state = .ok image)
      (read : readWatermark (runtimeOptions limits) disk = .ok previous)
      (raised : previous < state.currentEpoch.value)
      (failed : faultAt fault .writeWatermark = some e) :
      SaveCase limits fault disk state ⟨some e, { disk with image := some image }⟩
  | saved {image : Bytes} {previous : Nat} (encoded : encode state = .ok image)
      (read : readWatermark (runtimeOptions limits) disk = .ok previous) :
      SaveCase limits fault disk state ⟨none, writtenDisk disk state image previous⟩

theorem save_cases (limits : Limits) (fault : Option SaveFault) (disk : Disk)
    (state : DurableState) :
    SaveCase limits fault disk state (save (runtimeOptions limits) fault disk state) := by
  unfold save
  split
  · exact .unchanged _
  · split
    · exact .unchanged _
    · next previous hread =>
      split
      · exact .unchanged _
      · next image hencode =>
        unfold writeImage
        split
        · exact .unchanged _
        · exact .unchanged _
        · exact .unchanged _
        · split
          · next hraise =>
            split
            · next e hfail => exact .torn e hencode hread hraise.2 hfail
            · have hsaved : SaveCase limits fault disk state _ := .saved hencode hread
              rwa [writtenDisk, if_pos hraise.2] at hsaved
          · next hkeep =>
            have hle : ¬ state.currentEpoch.value > previous := fun h => hkeep ⟨rfl, h⟩
            have hsaved : SaveCase limits fault disk state _ := .saved hencode hread
            rwa [writtenDisk, if_neg hle] at hsaved

/-- A file system that performs every write saves every state that encodes. -/
theorem save_of_encode {limits : Limits} {disk : Disk} {state : DurableState} {image : Bytes}
    {previous : Nat} (hencode : encode state = .ok image)
    (hread : readWatermark (runtimeOptions limits) disk = .ok previous) :
    save (runtimeOptions limits) none disk state =
      ⟨none, writtenDisk disk state image previous⟩ := by
  simp only [save, faultAt_none, hread, hencode, writeImage]
  by_cases h : state.currentEpoch.value > previous
  · rw [if_pos ⟨rfl, h⟩, writtenDisk, if_pos h]
  · rw [if_neg fun hc => h hc.2, writtenDisk, if_neg h]

/-- A save fails on a file system that performs every write only when the
watermark cannot be read or the state does not encode. -/
theorem save_error_noFault {limits : Limits} {disk : Disk} {state : DurableState} {e : EpochError}
    (h : (save (runtimeOptions limits) none disk state).error = some e) :
    readWatermark (runtimeOptions limits) disk = .error e ∨ encode state = .error e := by
  cases hread : readWatermark (runtimeOptions limits) disk with
  | error e' =>
    simp only [save, faultAt_none, hread, Option.some.injEq] at h
    exact Or.inl (congrArg _ h)
  | ok previous =>
    cases hencode : encode state with
    | error e' =>
      simp only [save, faultAt_none, hread, hencode, Option.some.injEq] at h
      exact Or.inr (congrArg _ h)
    | ok image =>
      rw [save_of_encode hencode hread] at h
      cases h

/-! ## What is loaded -/

theorem validDurable_initial : ValidDurable initialState :=
  ⟨⟨Nat.zero_le _, Nat.zero_le _, Nat.zero_le _, Nat.zero_le _⟩, fun _ => by decide,
    fun h => absurd rfl h⟩

theorem storableState_initial : StorableState initialState where
  participantIds _ h := nomatch h
  participantScopes _ h := nomatch h
  participantTables _ h := nomatch h
  fences _ h := nomatch h
  grants _ h := nomatch h
  grantScopes _ h := nomatch h
  transitions _ h := nomatch h
  ceilings := ⟨Nat.zero_le _, Nat.zero_le _, Nat.zero_le _, Nat.zero_le _⟩
  controlAttempts := Nat.zero_le _

/-- **What is loaded is valid and can be stored**, whatever the disk. -/
theorem load_sound {options : StoreOptions} {disk : Disk} {state : DurableState}
    (h : load options disk = .ok state) : ValidDurable state ∧ StorableState state := by
  unfold load at h
  split at h
  · split at h
    · cases h
      exact ⟨validDurable_initial, storableState_initial⟩
    · cases h
  · next image himage =>
    obtain ⟨s, hdecode, h⟩ := bind_ok.mp h
    have heq : state = s := by
      split at h
      · obtain ⟨w, -, h⟩ := bind_ok.mp h
        rw [bind_refuseIf] at h
        exact pure_ok.mp h.2
      · exact pure_ok.mp h
    subst heq
    unfold decode at hdecode
    iterate 3
      rw [bind_refuseIf] at hdecode
      replace hdecode := hdecode.2
    simp only at hdecode
    iterate 3
      rw [bind_refuseIf] at hdecode
      replace hdecode := hdecode.2
    obtain ⟨s, hpayload, hdecode⟩ := bind_ok.mp hdecode
    obtain ⟨⟨⟩, hvalid, hdecode⟩ := bind_ok.mp hdecode
    cases hdecode
    exact ⟨validateDurableState_ok.mp hvalid, decodeDurablePayload_storable hpayload⟩

end EpochStore

end FabricEpoch
