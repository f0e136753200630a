import FabricEpoch.Durable
import FabricEpoch.Lib.ByteCodec

/-!
# The durable payload codec

`encodeDurablePayload` and `decodeDurablePayload`, record by record, and what
they owe each other. Every record codec is a pair `encodeX`/`decodeX` with one
theorem `decodeX_decodes : Decodes (wf x) decodeX (encodeX x) x`; the
well-formedness conditions collect what the decoder checks of a text, a scope
set or a count.

The decoder guards each list by `count * size ≤ remaining`. The sizes are lower
bounds of the encoder's records everywhere but for transitions, where the guard
counts 65 bytes for a record that takes 61 when its provenance is empty. So the
round trip holds exactly when what follows makes up for the difference
(`decode_encode_iff`).
-/

namespace FabricEpoch

open ByteCodec

/-- A decoder that throws `EpochError`. -/
abbrev Reader := Decoder EpochError

abbrev Writer := Emit EpochError

/-! ## The byte reader and writer -/

def truncated : EpochError := malformed "truncated input while decoding"

namespace ByteWriter

def u8 (value : Nat) : Writer := Emit.bytes (leBytes 1 value)
def u16 (value : UInt16) : Writer := Emit.bytes (leBytes 2 value.toNat)
def u32 (value : Nat) : Writer := Emit.bytes (leBytes 4 value)
def u64 (value : UInt64) : Writer := Emit.bytes (leBytes 8 value.toNat)
def fixed {n : Nat} (block : Block n) : Writer := Emit.bytes block.bytes

/-- A counter is written as its raw value. -/
def counter {d : CounterDomain} (c : MonotonicCounter d) : Writer := u64 c.raw

def string (text : Text) : Writer :=
  if text.length > 2 ^ 32 - 1 then Emit.fail (resourceLimit "string too large to encode")
  else Emit.bytes (leBytes 4 text.length) ++ Emit.bytes text

end ByteWriter

namespace ByteReader

def kAbsoluteMaxBytes : Nat := 64 * 1024 * 1024

def u8 : Reader Nat := leWord truncated 1
def u16 : Reader UInt16 := do return UInt16.ofNat (← leWord truncated 2)
def u32 : Reader Nat := leWord truncated 4
def u64 : Reader UInt64 := do return UInt64.ofNat (← leWord truncated 8)

def fixed (n : Nat) : Reader (Block n) :=
  decodeVia (takeBytes truncated n)
    (fun bytes => if h : bytes.length = n then some ⟨bytes, h⟩ else none) truncated

def counter (d : CounterDomain) : Reader (MonotonicCounter d) := do
  return MonotonicCounter.ofRaw (← u64)

def id (d : IdDomain) : Reader (Fixed128Id d) := do
  return ⟨← fixed 16⟩

def string (limits : Limits) (maxLength : Nat) : Reader Text := do
  let declared ← u32
  require (resourceLimit "declared string length exceeds absolute ceiling")
    (declared ≤ kAbsoluteMaxBytes)
  require (resourceLimit "declared string length exceeds requested maximum")
    (declared ≤ maxLength)
  require (resourceLimit "declared string length exceeds limits.max_string_size")
    (declared ≤ limits.maxStringSize)
  takeBytes truncated declared

end ByteReader

section Primitives

open ByteWriter

theorem u8_decodes {n : Nat} (h : n < 256) : Decodes True ByteReader.u8 (u8 n) n :=
  Decodes.leWord _ (by simpa using h)

theorem u16_decodes (w : UInt16) : Decodes True ByteReader.u16 (u16 w) w := by
  have h : Decodes True (leWord truncated 2) (u16 w) w.toNat := Decodes.leWord _ w.toNat_lt
  have := h.map (f := UInt16.ofNat)
  rwa [UInt16.ofNat_toNat] at this

theorem u64_decodes (w : UInt64) : Decodes True ByteReader.u64 (u64 w) w := by
  have h : Decodes True (leWord truncated 8) (u64 w) w.toNat := Decodes.leWord _ w.toNat_lt
  have := h.map (f := UInt64.ofNat)
  rwa [UInt64.ofNat_toNat] at this

theorem counter_decodes {d : CounterDomain} (c : MonotonicCounter d) :
    Decodes True (ByteReader.counter d) (counter c) c := by
  have := (u64_decodes c.raw).map (f := (MonotonicCounter.ofRaw : UInt64 → MonotonicCounter d))
  rwa [MonotonicCounter.ofRaw_raw] at this

theorem fixed_decodes {n : Nat} (block : Block n) :
    Decodes True (ByteReader.fixed n) (fixed block) block := by
  have h : Decodes True (takeBytes truncated n) (fixed block) block.bytes :=
    Decodes.takeBytes _ _ block.size_eq
  refine (h.via (fun z hz => ?_) (fun _ => dif_pos block.size_eq)).mono fun _ => ⟨trivial, trivial⟩
  rw [dif_pos block.size_eq] at hz
  exact (Option.some.inj hz).symm

theorem id_decodes {d : IdDomain} (i : Fixed128Id d) :
    Decodes True (ByteReader.id d) (fixed i.bytes) i :=
  (fixed_decodes i.bytes).map

/-- The text is short enough for the reader. -/
def TextFits (limits : Limits) (maxLength : Nat) (text : Text) : Prop :=
  text.length ≤ ByteReader.kAbsoluteMaxBytes ∧ text.length ≤ maxLength ∧
    text.length ≤ limits.maxStringSize

theorem string_decodes (limits : Limits) (maxLength : Nat) (text : Text) :
    Decodes (TextFits limits maxLength text) (ByteReader.string limits maxLength)
      (string text) text := by
  unfold string
  split
  · refine ⟨fun hb => ?_, fun _ _ _ hb => ?_⟩ <;> cases hb
  · next h =>
    have hlen : Decodes True ByteReader.u32 (Emit.bytes (leBytes 4 text.length)) text.length :=
      Decodes.leWord _ (by omega)
    have hbytes : Decodes True (takeBytes truncated text.length) (Emit.bytes text) text :=
      Decodes.takeBytes _ _ rfl
    exact (hlen.bind (Decodes.check (Decodes.check (Decodes.check hbytes)))).mono
      fun ⟨h₁, h₂, h₃⟩ => ⟨trivial, h₁, h₂, h₃, trivial⟩

/-- A wire value of an enumeration. -/
theorem wire_decodes {α : Type} {fromWire : Nat → Option α} {x : α} {n : Nat} (err : EpochError)
    (h : n < 256) (hx : fromWire n = some x) :
    Decodes True (decodeVia ByteReader.u8 fromWire err) (u8 n) x :=
  ((u8_decodes h).via (fun _ hz => Option.some.inj (hz.symm.trans hx)) fun _ => hx).mono
    fun _ => ⟨trivial, trivial⟩

/-! ### One encoding each -/

theorem u8_inverts : Inverts ByteReader.u8 u8 := Inverts.leWord _ 1

theorem u32_inverts : Inverts ByteReader.u32 u32 := Inverts.leWord _ 4

theorem u16_inverts : Inverts ByteReader.u16 u16 :=
  (Inverts.leWord truncated 2).map fun n => by
    have hn : (UInt16.ofNat n).toNat = n % 256 ^ 2 := UInt16.toNat_ofNat'
    rw [u16, hn, leBytes_mod]

theorem u64_inverts : Inverts ByteReader.u64 u64 :=
  (Inverts.leWord truncated 8).map fun n => by
    have hn : (UInt64.ofNat n).toNat = n % 256 ^ 8 := UInt64.toNat_ofNat'
    rw [u64, hn, leBytes_mod]

theorem counter_inverts (d : CounterDomain) : Inverts (ByteReader.counter d) counter :=
  u64_inverts.map fun w => by
    have hraw : (MonotonicCounter.ofRaw w : MonotonicCounter d).raw = w := UInt64.ofNat_toNat
    rw [counter, hraw]

theorem fixed_inverts (n : Nat) : Inverts (ByteReader.fixed n) fixed :=
  (Inverts.takeBytes truncated n).via fun bytes block h => by
    split at h
    · cases h
      rfl
    · cases h

theorem id_inverts (d : IdDomain) :
    Inverts (ByteReader.id d) fun i => fixed i.bytes :=
  (fixed_inverts 16).map fun _ => rfl

theorem string_inverts (limits : Limits) (maxLength : Nat) :
    Inverts (ByteReader.string limits maxLength) string := by
  intro b r text hd
  obtain ⟨declared, rest, hdeclared, hbound⟩ := bind_eq_ok hd
  obtain ⟨a, ha, rfl⟩ := u32_inverts b rest declared hdeclared
  have hread : declared ≤ ByteReader.kAbsoluteMaxBytes ∧
      takeBytes truncated declared rest = .ok (text, r) := by
    obtain ⟨_, _, hceiling, hbound⟩ := bind_eq_ok hbound
    obtain ⟨hmax, rfl⟩ := require_ok hceiling
    obtain ⟨_, _, hrequested, hbound⟩ := bind_eq_ok hbound
    obtain ⟨-, rfl⟩ := require_ok hrequested
    obtain ⟨_, _, hlimit, hbound⟩ := bind_eq_ok hbound
    obtain ⟨-, rfl⟩ := require_ok hlimit
    exact ⟨hmax, hbound⟩
  obtain ⟨hmax, htake⟩ := hread
  obtain ⟨c, hc, rfl⟩ := Inverts.takeBytes truncated declared rest r text htake
  have hlen : text.length = declared := by
    unfold takeBytes at htake
    split at htake
    · next hle =>
      have htext := (Prod.mk.inj (Except.ok.inj htake)).1
      rw [← htext, List.length_take_of_le hle]
    · cases htake
  have hceiling : ByteReader.kAbsoluteMaxBytes ≤ 2 ^ 32 - 1 := by decide
  refine ⟨a ++ c, ?_, (List.append_assoc _ _ _).symm⟩
  rw [string, if_neg (by omega), hlen]
  exact Emit.Yields.append ha hc

/-- A wire value that is written as it was read. -/
theorem wire_inverts {α : Type} {fromWire : Nat → Option α} {toWire : α → Nat} (err : EpochError)
    (h : ∀ n x, fromWire n = some x → toWire x = n) :
    Inverts (decodeVia ByteReader.u8 fromWire err) fun x => u8 (toWire x) :=
  u8_inverts.via fun n x hx => by rw [h n x hx]

/-! ### Sizes -/

theorem takes_u8 (n : Nat) : (u8 n).Takes 1 := Emit.takes_bytes (length_leBytes _ _)
theorem takes_u16 (w : UInt16) : (u16 w).Takes 2 := Emit.takes_bytes (length_leBytes _ _)
theorem takes_u64 (w : UInt64) : (u64 w).Takes 8 := Emit.takes_bytes (length_leBytes _ _)

theorem takes_counter {d : CounterDomain} (c : MonotonicCounter d) : (counter c).Takes 8 :=
  takes_u64 _

theorem takes_fixed {n : Nat} (block : Block n) : (fixed block).Takes n :=
  Emit.takes_bytes block.size_eq

theorem takes_string (text : Text) : (string text).Takes (4 + text.length) := by
  unfold string
  split
  · intro b hb
    cases hb
  · exact (Emit.takes_bytes (length_leBytes _ _)).append (Emit.takes_bytes rfl)

theorem emits_string {text : Text} (h : text.length < 2 ^ 32) : (string text).Emits := by
  rw [string, if_neg (by omega)]
  exact ⟨_, rfl⟩

theorem emits_u8 (n : Nat) : (u8 n).Emits := Emit.emits_bytes _
theorem emits_u64 (w : UInt64) : (u64 w).Emits := Emit.emits_bytes _
theorem emits_fixed {n : Nat} (block : Block n) : (fixed block).Emits := Emit.emits_bytes _

theorem emits_counter {d : CounterDomain} (c : MonotonicCounter d) : (counter c).Emits :=
  Emit.emits_bytes _

end Primitives

/-! ## Scope sets -/

def structuralLimits (limits : Limits) : Limits :=
  { limits with
    maxParticipants := kAbsoluteMaxRecords
    maxActiveWorkers := kAbsoluteMaxRecords
    maxRecentFences := kAbsoluteMaxRecords
    maxAuthorityGrants := kAbsoluteMaxRecords
    maxTransitionHistory := kAbsoluteMaxRecords
    maxIdempotencyRecordsPerParticipant := kAbsoluteMaxRecords
    maxFencedBootsPerParticipant := kAbsoluteMaxRecords
    maxScopesPerGrant := kAbsoluteMaxScopesPerSet
    maxStringSize := 4096 }

def encodeScope (scope : AuthorityScope) : Writer :=
  ByteWriter.u8 scope.kind.toWire ++ ByteWriter.string scope.subject

def encodeScopeSetCanonical (set : ScopeSet) : Writer := emitList encodeScope set.scopes

/-- One scope of the loop of `decode_scope_set_canonical`. -/
def decodeScope (limits : Limits) : Reader AuthorityScope := do
  let kind ← decodeVia ByteReader.u8 ScopeKind.fromWire
    (malformed "unknown scope kind on the wire")
  decodeVia (ByteReader.string limits AuthorityScope.maxSubjectLength)
    (AuthorityScope.parse kind) (malformed "malformed authority scope subject")

/-- The loop of `decode_scope_set_canonical` over the remaining count. -/
def decodeScopes (limits : Limits) : Nat → ScopeSet → Option AuthorityScope → Reader ScopeSet
  | 0, set, _ => pure set
  | n + 1, set, previous => do
    let scope ← decodeScope limits
    -- rejects both duplicates and a non-canonical order
    require (malformed "scope set is not in canonical strictly increasing order")
      (∀ p ∈ previous, p < scope)
    let set ← ofOption (set.insert scope limits.maxScopesPerGrant)
      (resourceLimit "scope set exceeds limits.max_scopes_per_grant")
    decodeScopes limits n set (some scope)

def decodeScopeSetCanonical (limits : Limits) : Reader ScopeSet := do
  let count ← ByteReader.u32
  require (resourceLimit "scope count exceeds limits.max_scopes_per_grant")
    (count ≤ limits.maxScopesPerGrant)
  decodeScopes limits count .blank none

/-- What the decoder asks of one scope. -/
def ScopeFits (limits : Limits) (scope : AuthorityScope) : Prop :=
  scope.WellFormed ∧ TextFits limits AuthorityScope.maxSubjectLength scope.subject

theorem decodeScope_decodes (limits : Limits) (scope : AuthorityScope) :
    Decodes (ScopeFits limits scope) (decodeScope limits) (encodeScope scope) scope := by
  have hkind := wire_decodes (malformed "unknown scope kind on the wire")
    (Nat.lt_trans scope.kind.toWire_lt (by decide)) (ScopeKind.fromWire_toWire scope.kind)
  have hsubject : Decodes (TextFits limits AuthorityScope.maxSubjectLength scope.subject ∧
      scope.WellFormed)
      (decodeVia (ByteReader.string limits AuthorityScope.maxSubjectLength)
        (AuthorityScope.parse scope.kind) (malformed "malformed authority scope subject"))
      (ByteWriter.string scope.subject) scope :=
    (string_decodes limits AuthorityScope.maxSubjectLength scope.subject).via
      (fun z hz => (AuthorityScope.parse_eq_some hz).1) AuthorityScope.parse_subject
  exact (hkind.bind hsubject).mono fun h => ⟨trivial, h.2, h.1⟩

/-- The loop, with the scopes `done` already inserted. -/
theorem decodeScopes_decodes (limits : Limits) {whole : ScopeSet} {rest : List AuthorityScope}
    {set : ScopeSet} (h : whole.scopes = set.scopes ++ rest) :
    Decodes ((∀ s ∈ rest, ScopeFits limits s) ∧ whole.size ≤ limits.maxScopesPerGrant)
      (decodeScopes limits rest.length set set.scopes.getLast?) (Emit.all encodeScope rest)
      whole := by
  induction rest generalizing set with
  | nil =>
    have hset : set = whole := ScopeSet.ext (by rw [h, List.append_nil])
    exact (Decodes.done hset).mono fun _ => trivial
  | cons scope rest ih =>
    have hsorted : (set.scopes ++ scope :: rest).Pairwise (· < ·) := h ▸ whole.canonical
    have hbelow : ∀ s ∈ set.scopes, s < scope := fun s hs =>
      (List.pairwise_append.mp hsorted).2.2 s hs scope (List.mem_cons_self ..)
    have hprevious : ∀ p ∈ set.scopes.getLast?, p < scope := fun p hp =>
      hbelow p (List.mem_of_getLast? hp)
    have hsize : whole.size = set.size + (rest.length + 1) := by
      simp [ScopeSet.size, h]
    have hloop : ∀ next, set.insert scope limits.maxScopesPerGrant = some next →
        Decodes ((∀ s ∈ rest, ScopeFits limits s) ∧ whole.size ≤ limits.maxScopesPerGrant)
          (decodeScopes limits rest.length next (some scope)) (Emit.all encodeScope rest)
          whole := by
      intro next hnext
      have hscopes := ScopeSet.insert_above hbelow hnext
      have hlast : next.scopes.getLast? = some scope := by rw [hscopes]; simp
      rw [← hlast]
      exact ih (by rw [hscopes, h]; simp)
    exact ((decodeScope_decodes limits scope).bind (Decodes.check (Decodes.option hloop
      fun hw : whole.size ≤ limits.maxScopesPerGrant => by
        obtain ⟨out, hout, -⟩ := ScopeSet.insert_of_forall_lt hbelow
          (show set.size < limits.maxScopesPerGrant by omega)
        rw [hout]
        rfl))).mono fun ⟨hall, hw⟩ => ⟨hall scope (List.mem_cons_self ..), hprevious, hw,
          fun s hs => hall s (List.mem_cons_of_mem _ hs), hw⟩

/-- What the decoder asks of a scope set. -/
structure ScopesFit (limits : Limits) (set : ScopeSet) : Prop where
  size : set.size ≤ limits.maxScopesPerGrant
  each : ∀ s ∈ set.scopes, ScopeFits limits s

theorem decodeScopeSetCanonical_decodes (limits : Limits) {set : ScopeSet}
    (hsize : set.size < 2 ^ 32) :
    Decodes (ScopesFit limits set) (decodeScopeSetCanonical limits)
      (encodeScopeSetCanonical set) set := by
  have hcount : Decodes True ByteReader.u32 (Emit.bytes (leBytes 4 set.scopes.length))
      set.scopes.length := Decodes.leWord _ (by simpa [ScopeSet.size] using hsize)
  have hloop : Decodes _ (decodeScopes limits set.scopes.length .blank none) _ set :=
    @decodeScopes_decodes limits set set.scopes .blank rfl
  exact (hcount.bind (Decodes.check hloop)).mono fun h => ⟨trivial, h.size, h.each, h.size⟩

theorem atLeast_encodeScopeSetCanonical (set : ScopeSet) :
    (encodeScopeSetCanonical set).AtLeast (4 + set.size) := by
  have hscope : ∀ s ∈ set.scopes, (encodeScope s).AtLeast 1 := fun s _ =>
    ((takes_u8 _).atLeast.append (takes_string _).atLeast).mono (by omega)
  exact (Emit.AtLeast.list hscope).mono (by simp [ScopeSet.size])

/-! ## Identifiers and texts of records -/

def decodeParticipantId (limits : Limits) : Reader ParticipantId :=
  decodeVia (ByteReader.string limits ParticipantId.maxLength) ParticipantId.parse
    (malformed "malformed participant identifier")

def decodeBoundedText (limits : Limits) : Reader BoundedText :=
  decodeVia (ByteReader.string limits limits.maxStringSize)
    (fun text => if BoundedText.isValid text limits.maxStringSize then some ⟨text⟩ else none)
    (malformed "malformed bounded text")

def IdFits (limits : Limits) (id : ParticipantId) : Prop :=
  id.Parses ∧ TextFits limits ParticipantId.maxLength id.text

def NoteFits (limits : Limits) (note : BoundedText) : Prop :=
  BoundedText.isValid note.text limits.maxStringSize = true ∧
    TextFits limits limits.maxStringSize note.text

theorem decodeParticipantId_decodes (limits : Limits) (id : ParticipantId) :
    Decodes (IdFits limits id) (decodeParticipantId limits) (ByteWriter.string id.text) id := by
  refine ((string_decodes limits ParticipantId.maxLength id.text).via (fun z hz => ?_)
    ParticipantId.parse_text).mono fun h => ⟨h.2, h.1⟩
  obtain ⟨htext, -⟩ := ParticipantId.parse_eq_some hz
  cases z
  cases id
  exact congrArg ParticipantId.mk htext

theorem decodeBoundedText_decodes (limits : Limits) (note : BoundedText) :
    Decodes (NoteFits limits note) (decodeBoundedText limits) (ByteWriter.string note.text)
      note := by
  refine ((string_decodes limits limits.maxStringSize note.text).via (fun z hz => ?_)
    (fun h => if_pos h)).mono fun h => ⟨h.2, h.1⟩
  split at hz
  · exact (Option.some.inj hz).symm
  · cases hz

/-! ## Idempotency records -/

def encodeIdempotencyRecord (r : IdempotencyRecord) : Writer := Emit.concat [
  ByteWriter.fixed r.attempt.bytes,
  ByteWriter.u8 r.operation.toWire,
  ByteWriter.fixed r.semantic,
  ByteWriter.u16 r.outcome,
  ByteWriter.u64 r.auxiliary,
  ByteWriter.u64 r.auxiliaryHigh,
  ByteWriter.fixed r.auxiliaryId]

/-- The error names the table the record stands in. -/
def decodeIdempotencyRecord (unknownOperation : EpochError) : Reader IdempotencyRecord := do
  let attempt ← ByteReader.id .mutationAttempt
  let operation ← decodeVia ByteReader.u8 OperationKind.fromWire unknownOperation
  let semantic ← ByteReader.fixed 32
  let outcome ← ByteReader.u16
  let auxiliary ← ByteReader.u64
  let auxiliaryHigh ← ByteReader.u64
  let auxiliaryId ← ByteReader.fixed 16
  return { attempt, operation, semantic, outcome, auxiliary, auxiliaryHigh, auxiliaryId }

theorem decodeIdempotencyRecord_decodes (err : EpochError) (r : IdempotencyRecord) :
    Decodes True (decodeIdempotencyRecord err) (encodeIdempotencyRecord r) r := by
  have hop := wire_decodes err (Nat.lt_trans r.operation.toWire_lt (by decide))
    (OperationKind.fromWire_toWire r.operation)
  exact Decodes.mono ((id_decodes r.attempt).field <| hop.field <|
    (fixed_decodes r.semantic).field <| (u16_decodes r.outcome).field <|
    (u64_decodes r.auxiliary).field <| (u64_decodes r.auxiliaryHigh).field <|
    (fixed_decodes r.auxiliaryId).field <| Decodes.done rfl) fun _ => by simp

theorem takes_encodeIdempotencyRecord (r : IdempotencyRecord) :
    (encodeIdempotencyRecord r).Takes 83 :=
  (takes_fixed _).field <| (takes_u8 _).field <| (takes_fixed _).field <| (takes_u16 _).field <|
    (takes_u64 _).field <| (takes_u64 _).field <| (takes_fixed _).field Emit.takes_nil

/-! ## Participants -/

def encodeActiveIncarnation (e : ActiveIncarnation) : Writer := Emit.concat [
  ByteWriter.fixed e.boot.bytes,
  ByteWriter.counter e.sequence,
  ByteWriter.counter e.registeredAtGeneration]

def decodeActiveIncarnation : Reader ActiveIncarnation := do
  let boot ← ByteReader.id .workerBoot
  let sequence ← ByteReader.counter .incarnationSequence
  let registeredAtGeneration ← ByteReader.counter .registrationGeneration
  return { boot, sequence, registeredAtGeneration }

theorem decodeActiveIncarnation_decodes (e : ActiveIncarnation) :
    Decodes True decodeActiveIncarnation (encodeActiveIncarnation e) e :=
  Decodes.mono ((id_decodes e.boot).field <| (counter_decodes e.sequence).field <|
    (counter_decodes e.registeredAtGeneration).field <| Decodes.done rfl) fun _ => by simp

theorem takes_encodeActiveIncarnation (e : ActiveIncarnation) :
    (encodeActiveIncarnation e).Takes 32 :=
  (takes_fixed _).field <| (takes_counter _).field <| (takes_counter _).field Emit.takes_nil

/-- The flag byte of a participant record. -/
def participantFlags (p : DurableParticipant) : Nat :=
  (if p.retired then 0x01 else 0) ||| (if p.revalidationRequired then 0x02 else 0) |||
    (if p.hasActiveBoot then 0x04 else 0)

def encodeParticipant (p : DurableParticipant) : Writer := Emit.concat [
  ByteWriter.string p.id.text,
  ByteWriter.counter p.registrationGeneration,
  ByteWriter.counter p.fenceGeneration,
  ByteWriter.counter p.incarnationFloor,
  ByteWriter.u8 p.policy.toWire,
  ByteWriter.u8 (participantFlags p),
  ByteWriter.fixed p.activeBoot.bytes,
  ByteWriter.counter p.activeIncarnation,
  ByteWriter.counter p.nextIncarnation,
  emitList encodeActiveIncarnation p.extraIncarnations,
  encodeScopeSetCanonical p.scopes,
  ByteWriter.u64 p.acceptedRegistrations,
  ByteWriter.u64 p.replayHits,
  emitList (fun boot => ByteWriter.fixed boot.bytes) p.fencedBoots,
  emitList encodeIdempotencyRecord p.idempotency]

def decodeParticipant (limits : Limits) : Reader DurableParticipant := do
  let id ← decodeParticipantId limits
  let registrationGeneration ← ByteReader.counter .registrationGeneration
  let fenceGeneration ← ByteReader.counter .fencingGeneration
  let incarnationFloor ← ByteReader.counter .incarnationSequence
  let policy ← decodeVia ByteReader.u8 IncarnationPolicy.fromWire
    (malformed "unknown incarnation policy in durable image")
  let flags ← ByteReader.u8
  require (malformed "unknown participant flag bits in durable image") (flags &&& 0xF8 = 0)
  let activeBoot ← ByteReader.id .workerBoot
  let activeIncarnation ← ByteReader.counter .incarnationSequence
  let nextIncarnation ← ByteReader.counter .incarnationSequence
  let extraIncarnations ← decodeList truncated
    (resourceLimit "extra incarnation count exceeds limits.max_active_workers")
    (malformed "extra incarnation count exceeds remaining durable input")
    limits.maxActiveWorkers 32 decodeActiveIncarnation
  let scopes ← decodeScopeSetCanonical limits
  let acceptedRegistrations ← ByteReader.u64
  let replayHits ← ByteReader.u64
  let fencedBoots ← decodeList truncated
    (resourceLimit "fenced boot count exceeds limits.max_fenced_boots_per_participant")
    (malformed "fenced boot count exceeds remaining durable input")
    limits.maxFencedBootsPerParticipant 16 (ByteReader.id .workerBoot)
  let idempotency ← decodeList truncated
    (resourceLimit "idempotency count exceeds limits.max_idempotency_records_per_participant")
    (malformed "idempotency count exceeds remaining durable input")
    limits.maxIdempotencyRecordsPerParticipant 83
    (decodeIdempotencyRecord (malformed "unknown operation kind in durable image"))
  return { id, registrationGeneration, fenceGeneration, incarnationFloor, policy,
           retired := flags &&& 0x01 != 0
           revalidationRequired := flags &&& 0x02 != 0
           hasActiveBoot := flags &&& 0x04 != 0
           activeBoot, activeIncarnation, nextIncarnation, extraIncarnations, scopes,
           acceptedRegistrations, replayHits, fencedBoots, idempotency }

/-- The counts of a participant record fit the 32-bit fields that declare them. -/
structure ParticipantCounts (p : DurableParticipant) : Prop where
  extras : p.extraIncarnations.length < 2 ^ 32
  scopes : p.scopes.size < 2 ^ 32
  fencedBoots : p.fencedBoots.length < 2 ^ 32
  idempotency : p.idempotency.length < 2 ^ 32

/-- What the decoder asks of a participant record. -/
structure ParticipantFits (limits : Limits) (p : DurableParticipant) : Prop where
  id : IdFits limits p.id
  extras : p.extraIncarnations.length ≤ limits.maxActiveWorkers
  scopes : ScopesFit limits p.scopes
  fencedBoots : p.fencedBoots.length ≤ limits.maxFencedBootsPerParticipant
  idempotency : p.idempotency.length ≤ limits.maxIdempotencyRecordsPerParticipant

theorem participantFlags_lt (p : DurableParticipant) : participantFlags p < 256 := by
  unfold participantFlags
  cases p.retired <;> cases p.revalidationRequired <;> cases p.hasActiveBoot <;> decide

theorem participantFlags_spec (p : DurableParticipant) :
    participantFlags p &&& 0xF8 = 0 ∧ (participantFlags p &&& 0x01 != 0) = p.retired ∧
      (participantFlags p &&& 0x02 != 0) = p.revalidationRequired ∧
      (participantFlags p &&& 0x04 != 0) = p.hasActiveBoot := by
  unfold participantFlags
  cases p.retired <;> cases p.revalidationRequired <;> cases p.hasActiveBoot <;> decide

theorem decodeParticipant_decodes (limits : Limits) {p : DurableParticipant}
    (hc : ParticipantCounts p) :
    Decodes (ParticipantFits limits p) (decodeParticipant limits) (encodeParticipant p) p := by
  have hpolicy := wire_decodes (malformed "unknown incarnation policy in durable image")
    (Nat.lt_trans p.policy.toWire_lt (by decide)) (IncarnationPolicy.fromWire_toWire p.policy)
  obtain ⟨hunknown, hretired, hrevalidation, hactive⟩ := participantFlags_spec p
  exact Decodes.mono ((decodeParticipantId_decodes limits p.id).field <|
    (counter_decodes p.registrationGeneration).field <|
    (counter_decodes p.fenceGeneration).field <|
    (counter_decodes p.incarnationFloor).field <| hpolicy.field <|
    (u8_decodes (participantFlags_lt p)).field <| Decodes.check <|
    (id_decodes p.activeBoot).field <| (counter_decodes p.activeIncarnation).field <|
    (counter_decodes p.nextIncarnation).field <|
    (Decodes.list hc.extras (fun e _ => decodeActiveIncarnation_decodes e)
      fun e _ => (takes_encodeActiveIncarnation e).atLeast).field <|
    (decodeScopeSetCanonical_decodes limits hc.scopes).field <|
    (u64_decodes p.acceptedRegistrations).field <| (u64_decodes p.replayHits).field <|
    (Decodes.list hc.fencedBoots (fun b _ => id_decodes b)
      fun _ _ => (takes_fixed _).atLeast).field <|
    (Decodes.list hc.idempotency (fun r _ => decodeIdempotencyRecord_decodes _ r)
      fun r _ => (takes_encodeIdempotencyRecord r).atLeast).field <|
    Decodes.done (by rw [hretired, hrevalidation, hactive])) fun h => by
      simp [h.id, h.extras, h.scopes, h.fencedBoots, h.idempotency, hunknown]

/-! ## Fences, grants, transitions -/

def encodeFence (f : FenceRecord) : Writer := Emit.concat [
  ByteWriter.fixed f.boot.bytes,
  ByteWriter.string f.participant.text,
  ByteWriter.u8 f.reason.toWire,
  ByteWriter.counter f.generation,
  ByteWriter.counter f.epoch,
  ByteWriter.counter f.incarnation,
  ByteWriter.string f.note.text]

def decodeFence (limits : Limits) : Reader FenceRecord := do
  let boot ← ByteReader.id .workerBoot
  let participant ← decodeParticipantId limits
  let reason ← decodeVia ByteReader.u8 FenceReason.fromWire
    (malformed "unknown fence reason in durable image")
  let generation ← ByteReader.counter .fencingGeneration
  let epoch ← ByteReader.counter .coordinatorEpoch
  let incarnation ← ByteReader.counter .incarnationSequence
  let note ← decodeBoundedText limits
  return { boot, participant, reason, generation, epoch, incarnation, note }

structure FenceFits (limits : Limits) (f : FenceRecord) : Prop where
  participant : IdFits limits f.participant
  note : NoteFits limits f.note

theorem decodeFence_decodes (limits : Limits) (f : FenceRecord) :
    Decodes (FenceFits limits f) (decodeFence limits) (encodeFence f) f := by
  have hreason := wire_decodes (malformed "unknown fence reason in durable image")
    (Nat.lt_trans f.reason.toWire_lt (by decide)) (FenceReason.fromWire_toWire f.reason)
  exact Decodes.mono ((id_decodes f.boot).field <|
    (decodeParticipantId_decodes limits f.participant).field <| hreason.field <|
    (counter_decodes f.generation).field <| (counter_decodes f.epoch).field <|
    (counter_decodes f.incarnation).field <| (decodeBoundedText_decodes limits f.note).field <|
    Decodes.done rfl) fun h => by simp [h.participant, h.note]

theorem atLeast_encodeFence (f : FenceRecord) : (encodeFence f).AtLeast 49 := by
  have h : (encodeFence f).Takes _ :=
    (takes_fixed _).field <| (takes_string _).field <| (takes_u8 _).field <|
      (takes_counter _).field <| (takes_counter _).field <| (takes_counter _).field <|
      (takes_string _).field Emit.takes_nil
  exact h.atLeast.mono (by omega)

/-- The flag byte of a grant record. -/
def grantFlags (g : AuthorityGrant) : Nat :=
  (if g.parent.isSome then 0x01 else 0) ||| (if g.delegatorBoot.isSome then 0x02 else 0) |||
    (if g.revoked then 0x04 else 0)

/-- The bytes of an optional identifier; all zero when there is none. -/
def optionalBytes {d : IdDomain} (id : Option (Fixed128Id d)) : Block 16 :=
  match id with
  | some id => id.bytes
  | none => Block.zero 16

def encodeGrant (g : AuthorityGrant) : Writer := Emit.concat [
  ByteWriter.fixed g.id.bytes,
  ByteWriter.counter g.epoch,
  ByteWriter.string g.participant.text,
  ByteWriter.fixed g.boot.bytes,
  ByteWriter.counter g.incarnation,
  encodeScopeSetCanonical g.scopes,
  ByteWriter.counter g.generation,
  ByteWriter.u8 (grantFlags g),
  ByteWriter.fixed (optionalBytes g.parent),
  ByteWriter.fixed (optionalBytes g.delegatorBoot),
  ByteWriter.counter g.revokedAtEpoch,
  ByteWriter.string g.provenance.text]

def decodeGrant (limits : Limits) : Reader AuthorityGrant := do
  let id ← ByteReader.id .authorityGrant
  let epoch ← ByteReader.counter .coordinatorEpoch
  let participant ← decodeParticipantId limits
  let boot ← ByteReader.id .workerBoot
  let incarnation ← ByteReader.counter .incarnationSequence
  let scopes ← decodeScopeSetCanonical limits
  let generation ← ByteReader.counter .grantGeneration
  let flags ← ByteReader.u8
  require (malformed "unknown grant flag bits in durable image") (flags &&& 0xF8 = 0)
  let parentBytes ← ByteReader.fixed 16
  let delegatorBytes ← ByteReader.fixed 16
  let revokedAtEpoch ← ByteReader.counter .coordinatorEpoch
  let provenance ← decodeBoundedText limits
  return { id, epoch, participant, boot, incarnation, scopes, generation
           parent := if flags &&& 0x01 ≠ 0 then some ⟨parentBytes⟩ else none
           delegatorBoot := if flags &&& 0x02 ≠ 0 then some ⟨delegatorBytes⟩ else none
           revoked := flags &&& 0x04 != 0
           revokedAtEpoch, provenance }

structure GrantFits (limits : Limits) (g : AuthorityGrant) : Prop where
  participant : IdFits limits g.participant
  scopes : ScopesFit limits g.scopes
  provenance : NoteFits limits g.provenance

theorem grantFlags_lt (g : AuthorityGrant) : grantFlags g < 256 := by
  unfold grantFlags
  cases g.parent.isSome <;> cases g.delegatorBoot.isSome <;> cases g.revoked <;> decide

theorem grantFlags_spec (g : AuthorityGrant) :
    grantFlags g &&& 0xF8 = 0 ∧ (grantFlags g &&& 0x01 ≠ 0 ↔ g.parent.isSome) ∧
      (grantFlags g &&& 0x02 ≠ 0 ↔ g.delegatorBoot.isSome) ∧
      (grantFlags g &&& 0x04 != 0) = g.revoked := by
  unfold grantFlags
  cases g.parent.isSome <;> cases g.delegatorBoot.isSome <;> cases g.revoked <;> decide

theorem optionalBytes_read {d : IdDomain} {id : Option (Fixed128Id d)} {p : Prop} [Decidable p]
    (h : p ↔ id.isSome = true) : (if p then some ⟨optionalBytes id⟩ else none) = id := by
  cases id with
  | none => exact if_neg (by simp [h])
  | some id => exact if_pos (by simp [h])

theorem decodeGrant_decodes (limits : Limits) {g : AuthorityGrant}
    (hc : g.scopes.size < 2 ^ 32) :
    Decodes (GrantFits limits g) (decodeGrant limits) (encodeGrant g) g := by
  obtain ⟨hunknown, hparent, hdelegator, hrevoked⟩ := grantFlags_spec g
  exact Decodes.mono ((id_decodes g.id).field <| (counter_decodes g.epoch).field <|
    (decodeParticipantId_decodes limits g.participant).field <| (id_decodes g.boot).field <|
    (counter_decodes g.incarnation).field <|
    (decodeScopeSetCanonical_decodes limits hc).field <| (counter_decodes g.generation).field <|
    (u8_decodes (grantFlags_lt g)).field <| Decodes.check <|
    (fixed_decodes (optionalBytes g.parent)).field <|
    (fixed_decodes (optionalBytes g.delegatorBoot)).field <|
    (counter_decodes g.revokedAtEpoch).field <|
    (decodeBoundedText_decodes limits g.provenance).field <|
    Decodes.done (by
      rw [hrevoked, optionalBytes_read hparent, optionalBytes_read hdelegator])) fun h => by
    simp [h.participant, h.scopes, h.provenance, hunknown]

theorem atLeast_encodeGrant (g : AuthorityGrant) : (encodeGrant g).AtLeast 89 := by
  have h : (encodeGrant g).AtLeast _ :=
    (takes_fixed _).atLeast.field <| (takes_counter _).atLeast.field <|
      (takes_string _).atLeast.field <| (takes_fixed _).atLeast.field <|
      (takes_counter _).atLeast.field <| (atLeast_encodeScopeSetCanonical _).field <|
      (takes_counter _).atLeast.field <| (takes_u8 _).atLeast.field <|
      (takes_fixed _).atLeast.field <| (takes_fixed _).atLeast.field <|
      (takes_counter _).atLeast.field <| (takes_string _).atLeast.field Emit.takes_nil.atLeast
  exact h.mono (by omega)

def encodeTransition (t : EpochTransitionRecord) : Writer := Emit.concat [
  ByteWriter.fixed t.id.bytes,
  ByteWriter.counter t.fromEpoch,
  ByteWriter.counter t.toEpoch,
  ByteWriter.u8 t.cause.toWire,
  ByteWriter.fixed t.coordinatorBoot.bytes,
  ByteWriter.counter t.generation,
  ByteWriter.string t.provenance.text]

def decodeTransition (limits : Limits) : Reader EpochTransitionRecord := do
  let id ← ByteReader.id .epochTransition
  let fromEpoch ← ByteReader.counter .coordinatorEpoch
  let toEpoch ← ByteReader.counter .coordinatorEpoch
  let cause ← decodeVia ByteReader.u8 EpochTransitionCause.fromWire
    (malformed "unknown transition cause in durable image")
  let coordinatorBoot ← ByteReader.id .coordinatorBoot
  let generation ← ByteReader.counter .epochGeneration
  let provenance ← decodeBoundedText limits
  return { id, fromEpoch, toEpoch, cause, coordinatorBoot, generation, provenance }

theorem decodeTransition_decodes (limits : Limits) (t : EpochTransitionRecord) :
    Decodes (NoteFits limits t.provenance) (decodeTransition limits) (encodeTransition t) t := by
  have hcause := wire_decodes (malformed "unknown transition cause in durable image")
    (Nat.lt_trans t.cause.toWire_lt (by decide)) (EpochTransitionCause.fromWire_toWire t.cause)
  exact Decodes.mono ((id_decodes t.id).field <| (counter_decodes t.fromEpoch).field <|
    (counter_decodes t.toEpoch).field <| hcause.field <| (id_decodes t.coordinatorBoot).field <|
    (counter_decodes t.generation).field <|
    (decodeBoundedText_decodes limits t.provenance).field <| Decodes.done rfl) fun h => by
      simp [h]

/-- A transition record takes 61 bytes and its provenance. -/
theorem takes_encodeTransition (t : EpochTransitionRecord) :
    (encodeTransition t).Takes (61 + t.provenance.text.length) := by
  have h : (encodeTransition t).Takes _ :=
    (takes_fixed _).field <| (takes_counter _).field <| (takes_counter _).field <|
      (takes_u8 _).field <| (takes_fixed _).field <| (takes_counter _).field <|
      (takes_string _).field Emit.takes_nil
  intro b hb
  rw [h b hb]
  omega

/-! ## The payload -/

def encodeState (state : DurableState) : Writer := Emit.concat [
  ByteWriter.counter state.currentEpoch,
  ByteWriter.fixed state.coordinatorBoot.bytes,
  ByteWriter.counter state.generation,
  ByteWriter.counter state.registrationFloor,
  ByteWriter.counter state.fenceFloor,
  emitList encodeParticipant state.participants,
  emitList encodeFence state.recentFences,
  emitList encodeGrant state.grants,
  emitList encodeTransition state.transitions,
  emitList encodeIdempotencyRecord state.controlAttempts]

def encodeDurablePayload (state : DurableState) : Except EpochError Bytes := encodeState state

def decodeState (limits : Limits) : Reader DurableState := do
  let currentEpoch ← ByteReader.counter .coordinatorEpoch
  let coordinatorBoot ← ByteReader.id .coordinatorBoot
  let generation ← ByteReader.counter .epochGeneration
  let registrationFloor ← ByteReader.counter .registrationGeneration
  let fenceFloor ← ByteReader.counter .fencingGeneration
  let participants ← decodeList truncated
    (resourceLimit "participant count exceeds limits.max_participants")
    (malformed "participant count exceeds remaining durable input")
    limits.maxParticipants 32 (decodeParticipant limits)
  let recentFences ← decodeList truncated
    (resourceLimit "fence count exceeds limits.max_recent_fences")
    (malformed "fence count exceeds remaining durable input")
    limits.maxRecentFences 49 (decodeFence limits)
  let grants ← decodeList truncated
    (resourceLimit "grant count exceeds limits.max_authority_grants")
    (malformed "grant count exceeds remaining durable input")
    limits.maxAuthorityGrants 89 (decodeGrant limits)
  let transitions ← decodeList truncated
    (resourceLimit "transition count exceeds limits.max_transition_history")
    (malformed "transition count exceeds remaining durable input")
    limits.maxTransitionHistory 65 (decodeTransition limits)
  let controlAttempts ← decodeList truncated
    (resourceLimit
      "control attempt count exceeds limits.max_idempotency_records_per_participant")
    (malformed "control attempt count exceeds remaining durable input")
    limits.maxIdempotencyRecordsPerParticipant 83
    (decodeIdempotencyRecord (malformed "unknown operation kind in durable control attempts"))
  return { currentEpoch, coordinatorBoot, generation, registrationFloor, fenceFloor,
           participants, recentFences, grants, transitions, controlAttempts }

def decodeDurablePayload (payload : Bytes) (rawLimits : Limits) :
    Except EpochError DurableState :=
  match (do
    let state ← decodeState (structuralLimits rawLimits)
    requireEnd (malformed "trailing bytes after decoded record")
    return state) payload with
  | .ok (state, _) => .ok state
  | .error e => .error e

/-! ## Round trip -/

/-- The counts of a state fit the 32-bit fields that declare them. -/
structure StateCounts (state : DurableState) : Prop where
  participants : state.participants.length < 2 ^ 32
  each : ∀ p ∈ state.participants, ParticipantCounts p
  recentFences : state.recentFences.length < 2 ^ 32
  grants : state.grants.length < 2 ^ 32
  grantScopes : ∀ g ∈ state.grants, g.scopes.size < 2 ^ 32
  transitions : state.transitions.length < 2 ^ 32
  controlAttempts : state.controlAttempts.length < 2 ^ 32

theorem atLeast_encodeParticipant (p : DurableParticipant) :
    (encodeParticipant p).AtLeast (32 + p.extraIncarnations.length + p.scopes.size +
      p.fencedBoots.length + p.idempotency.length) := by
  have h : (encodeParticipant p).AtLeast _ :=
    (takes_string _).atLeast.field <| (takes_counter _).atLeast.field <|
      (takes_counter _).atLeast.field <| (takes_counter _).atLeast.field <|
      (takes_u8 _).atLeast.field <| (takes_u8 _).atLeast.field <|
      (takes_fixed _).atLeast.field <| (takes_counter _).atLeast.field <|
      (takes_counter _).atLeast.field <|
      (Emit.AtLeast.list fun e _ => (takes_encodeActiveIncarnation e).atLeast).field <|
      (atLeast_encodeScopeSetCanonical _).field <| (takes_u64 _).atLeast.field <|
      (takes_u64 _).atLeast.field <|
      (Emit.AtLeast.list fun _ _ => (takes_fixed _).atLeast).field <|
      (Emit.AtLeast.list fun r _ => (takes_encodeIdempotencyRecord r).atLeast).field
        Emit.takes_nil.atLeast
  exact h.mono (by omega)

/-- The size of a payload bounds every count in it. -/
theorem stateCounts_of_length {state : DurableState} {payload : Bytes}
    (h : encodeDurablePayload state = .ok payload) (hlen : payload.length < 2 ^ 32) :
    StateCounts state := by
  have hfields : ∀ {a b c d e : Nat},
      (emitList encodeParticipant state.participants).AtLeast a →
      (emitList encodeFence state.recentFences).AtLeast b →
      (emitList encodeGrant state.grants).AtLeast c →
      (emitList encodeTransition state.transitions).AtLeast d →
      (emitList encodeIdempotencyRecord state.controlAttempts).AtLeast e →
      a + b + c + d + e ≤ payload.length := by
    intro a b c d e ha hb hc hd he
    have hall : (encodeState state).AtLeast _ :=
      (takes_counter _).atLeast.field <| (takes_fixed _).atLeast.field <|
        (takes_counter _).atLeast.field <| (takes_counter _).atLeast.field <|
        (takes_counter _).atLeast.field <| ha.field <| hb.field <| hc.field <| hd.field <|
        he.field Emit.takes_nil.atLeast
    have := hall payload h
    omega
  have hparticipants := Emit.AtLeast.list fun p (_ : p ∈ state.participants) =>
    (atLeast_encodeParticipant p).mono (show 1 ≤ _ by omega)
  have hfences := Emit.AtLeast.list fun f (_ : f ∈ state.recentFences) => atLeast_encodeFence f
  have hgrants := Emit.AtLeast.list fun g (_ : g ∈ state.grants) => atLeast_encodeGrant g
  have htransitions := Emit.AtLeast.list fun t (_ : t ∈ state.transitions) =>
    (takes_encodeTransition t).atLeast.mono (show 1 ≤ _ by omega)
  have hcontrols := Emit.AtLeast.list fun r (_ : r ∈ state.controlAttempts) =>
    (takes_encodeIdempotencyRecord r).atLeast
  have hcounts := hfields hparticipants hfences hgrants htransitions hcontrols
  refine ⟨by omega, fun p hp => ?_, by omega, by omega, fun g hg => ?_, by omega, by omega⟩
  · have := hfields (Emit.AtLeast.list_of_mem hp (atLeast_encodeParticipant p)) hfences hgrants
      htransitions hcontrols
    exact ⟨by omega, by omega, by omega, by omega⟩
  · have hscopes : (encodeGrant g).AtLeast g.scopes.size := by
      have h : (encodeGrant g).AtLeast _ :=
        (takes_fixed _).atLeast.field <| (takes_counter _).atLeast.field <|
          (takes_string _).atLeast.field <| (takes_fixed _).atLeast.field <|
          (takes_counter _).atLeast.field <| (atLeast_encodeScopeSetCanonical _).field <|
          (takes_counter _).atLeast.field <| (takes_u8 _).atLeast.field <|
          (takes_fixed _).atLeast.field <| (takes_fixed _).atLeast.field <|
          (takes_counter _).atLeast.field <|
          (takes_string _).atLeast.field Emit.takes_nil.atLeast
      exact h.mono (by omega)
    have := hfields hparticipants hfences (Emit.AtLeast.list_of_mem hg hscopes) htransitions
      hcontrols
    omega

/-- What the decoder asks of a state, the transition guard apart. -/
structure StateFits (limits : Limits) (state : DurableState) : Prop where
  participantCount : state.participants.length ≤ limits.maxParticipants
  participants : ∀ p ∈ state.participants, ParticipantFits limits p
  fenceCount : state.recentFences.length ≤ limits.maxRecentFences
  fences : ∀ f ∈ state.recentFences, FenceFits limits f
  grantCount : state.grants.length ≤ limits.maxAuthorityGrants
  grants : ∀ g ∈ state.grants, GrantFits limits g
  transitionCount : state.transitions.length ≤ limits.maxTransitionHistory
  transitions : ∀ t ∈ state.transitions, NoteFits limits t.provenance
  controlCount : state.controlAttempts.length ≤ limits.maxIdempotencyRecordsPerParticipant

/-- The bytes behind the transition count make up for what its guard counts too
much. -/
def TransitionRoom (state : DurableState) : Prop :=
  4 * state.transitions.length ≤ (state.transitions.map (·.provenance.text.length)).sum + 4 +
    83 * state.controlAttempts.length

instance (state : DurableState) : Decidable (TransitionRoom state) :=
  inferInstanceAs (Decidable (_ ≤ _))

theorem transitionRoom_iff (state : DurableState) : TransitionRoom state ↔
    state.transitions.length * 65 ≤
      (state.transitions.map fun t => 61 + t.provenance.text.length).sum +
        (4 + (state.controlAttempts.map fun _ => 83).sum + 0) := by
  have h₁ : (state.transitions.map fun t => 61 + t.provenance.text.length).sum =
      61 * state.transitions.length +
        (state.transitions.map (·.provenance.text.length)).sum := by
    rw [List.sum_map_add]
    simp [Nat.mul_comm]
  have h₂ : (state.controlAttempts.map fun _ => 83).sum = 83 * state.controlAttempts.length := by
    simp [Nat.mul_comm]
  rw [h₁, h₂, TransitionRoom]
  omega

section State

variable {state : DurableState} (limits : Limits)

theorem takes_controls : (Emit.concat
    [emitList encodeIdempotencyRecord state.controlAttempts]).Takes
      (4 + (state.controlAttempts.map fun _ => 83).sum + 0) :=
  (Emit.Takes.list fun r _ => takes_encodeIdempotencyRecord r).field Emit.takes_nil

theorem decodeState_decodes (hc : StateCounts state) :
    Decodes (StateFits limits state ∧ TransitionRoom state) (decodeState limits)
      (encodeState state) state := by
  have hcontrols : Decodes _ (do
      let controlAttempts ← decodeList truncated
        (resourceLimit
          "control attempt count exceeds limits.max_idempotency_records_per_participant")
        (malformed "control attempt count exceeds remaining durable input")
        limits.maxIdempotencyRecordsPerParticipant 83
        (decodeIdempotencyRecord (malformed "unknown operation kind in durable control attempts"))
      return { state with controlAttempts })
      (Emit.concat [emitList encodeIdempotencyRecord state.controlAttempts]) state :=
    (Decodes.list hc.controlAttempts (fun r _ => decodeIdempotencyRecord_decodes _ r)
      fun r _ => (takes_encodeIdempotencyRecord r).atLeast).field (Decodes.done rfl)
  exact Decodes.mono ((counter_decodes state.currentEpoch).field <|
    (id_decodes state.coordinatorBoot).field <| (counter_decodes state.generation).field <|
    (counter_decodes state.registrationFloor).field <|
    (counter_decodes state.fenceFloor).field <|
    (Decodes.list hc.participants (fun p hp => decodeParticipant_decodes limits (hc.each p hp))
      fun p _ => (atLeast_encodeParticipant p).mono (by omega)).field <|
    (Decodes.list hc.recentFences (fun f _ => decodeFence_decodes limits f)
      fun f _ => atLeast_encodeFence f).field <|
    (Decodes.list hc.grants (fun g hg => decodeGrant_decodes limits (hc.grantScopes g hg))
      fun g _ => atLeast_encodeGrant g).field <|
    Decodes.list_field hc.transitions (fun t _ => decodeTransition_decodes limits t)
      (fun t _ => takes_encodeTransition t) takes_controls hcontrols) fun ⟨h, hroom⟩ => by
    have := (transitionRoom_iff state).mp hroom
    exact ⟨trivial, trivial, trivial, trivial, trivial, ⟨h.participantCount, h.participants⟩,
      ⟨h.fenceCount, h.fences⟩, ⟨h.grantCount, h.grants⟩,
      ⟨h.transitionCount, h.transitions⟩, this, ⟨h.controlCount, by simp⟩, trivial⟩

/-- What is read from the bytes of a state had the room the guard asks for. -/
theorem transitionRoom_of_decodeState {state' : DurableState} {payload r : Bytes}
    (hc : StateCounts state) (hb : (encodeState state).Yields payload)
    (hd : decodeState limits payload = .ok (state', r)) : TransitionRoom state := by
  rw [← List.append_nil payload] at hd
  obtain ⟨_, hb, hd⟩ := (counter_decodes state.currentEpoch).peel hb hd
  obtain ⟨_, hb, hd⟩ := (id_decodes state.coordinatorBoot).peel hb hd
  obtain ⟨_, hb, hd⟩ := (counter_decodes state.generation).peel hb hd
  obtain ⟨_, hb, hd⟩ := (counter_decodes state.registrationFloor).peel hb hd
  obtain ⟨_, hb, hd⟩ := (counter_decodes state.fenceFloor).peel hb hd
  obtain ⟨_, hb, hd⟩ := (Decodes.list hc.participants
    (fun p hp => decodeParticipant_decodes limits (hc.each p hp))
    fun p _ => (atLeast_encodeParticipant p).mono (by omega)).peel hb hd
  obtain ⟨_, hb, hd⟩ := (Decodes.list hc.recentFences (fun f _ => decodeFence_decodes limits f)
    fun f _ => atLeast_encodeFence f).peel hb hd
  obtain ⟨_, hb, hd⟩ := (Decodes.list hc.grants
    (fun g hg => decodeGrant_decodes limits (hc.grantScopes g hg))
    fun g _ => atLeast_encodeGrant g).peel hb hd
  rw [List.append_nil] at hd
  exact (transitionRoom_iff state).mpr (Decodes.list_room hc.transitions
    (fun t _ => takes_encodeTransition t) takes_controls hb hd)

end State

/-- **A payload that is read back is the one that was written.** -/
theorem decodeDurablePayload_only {state state' : DurableState} {payload : Bytes} {limits : Limits}
    (he : encodeDurablePayload state = .ok payload) (hlen : payload.length < 2 ^ 32)
    (hd : decodeDurablePayload payload limits = .ok state') : state' = state := by
  have hdec := decodeState_decodes (structuralLimits limits) (stateCounts_of_length he hlen)
  unfold decodeDurablePayload at hd
  split at hd
  · next s r hrun =>
    obtain ⟨s', rest, hs, hrest⟩ := bind_eq_ok hrun
    rw [← List.append_nil payload] at hs
    obtain ⟨rfl, rfl⟩ := hdec.only he hs
    cases hrest
    cases hd
    rfl
  · cases hd

/-- A state that fits is read back exactly when the transition guard has room. -/
theorem decodeDurablePayload_eq_iff {state : DurableState} {payload : Bytes} {limits : Limits}
    (he : encodeDurablePayload state = .ok payload) (hc : StateCounts state)
    (hfits : StateFits (structuralLimits limits) state) :
    decodeDurablePayload payload limits = .ok state ↔ TransitionRoom state := by
  constructor
  · intro hd
    unfold decodeDurablePayload at hd
    split at hd
    · next s r hrun =>
      obtain ⟨s', rest, hs, -⟩ := bind_eq_ok hrun
      exact transitionRoom_of_decodeState (structuralLimits limits) hc he hs
    · cases hd
  · intro hroom
    have hs := (decodeState_decodes (structuralLimits limits) hc).accepts ⟨hfits, hroom⟩ [] he
    rw [List.append_nil] at hs
    unfold decodeDurablePayload
    rw [bind_apply_ok hs]
    rfl

/-- The states the coordinator means to store: identifiers that parse, valid
texts of at most 4096 bytes, canonical sets of at most 64 well-formed scopes,
and counts within the structural ceilings. -/
structure StorableState (state : DurableState) : Prop where
  participantIds : ∀ p ∈ state.participants, p.id.Parses
  participantScopes : ∀ p ∈ state.participants, p.scopes.size ≤ kAbsoluteMaxScopesPerSet ∧
    ∀ s ∈ p.scopes.scopes, s.WellFormed
  participantTables : ∀ p ∈ state.participants,
    p.extraIncarnations.length ≤ kAbsoluteMaxRecords ∧
    p.fencedBoots.length ≤ kAbsoluteMaxRecords ∧ p.idempotency.length ≤ kAbsoluteMaxRecords
  fences : ∀ f ∈ state.recentFences, f.participant.Parses ∧
    BoundedText.isValid f.note.text 4096 = true
  grants : ∀ g ∈ state.grants, g.participant.Parses ∧
    BoundedText.isValid g.provenance.text 4096 = true
  grantScopes : ∀ g ∈ state.grants, g.scopes.size ≤ kAbsoluteMaxScopesPerSet ∧
    ∀ s ∈ g.scopes.scopes, s.WellFormed
  transitions : ∀ t ∈ state.transitions, BoundedText.isValid t.provenance.text 4096 = true
  ceilings : WithinCeilings state
  controlAttempts : state.controlAttempts.length ≤ kAbsoluteMaxRecords

namespace StorableState

theorem idFits {limits : Limits} {id : ParticipantId} (h : id.Parses) :
    IdFits (structuralLimits limits) id := by
  have hlen := h.length_le
  refine ⟨h, ?_, hlen, ?_⟩
  · exact Nat.le_trans hlen (by decide)
  · exact Nat.le_trans hlen (by simp [structuralLimits])

theorem noteFits {limits : Limits} {note : BoundedText}
    (h : BoundedText.isValid note.text 4096 = true) : NoteFits (structuralLimits limits) note := by
  have hlen := BoundedText.length_le_of_isValid h
  exact ⟨h, Nat.le_trans hlen (by decide), hlen, hlen⟩

theorem scopesFit {limits : Limits} {set : ScopeSet} (hsize : set.size ≤ kAbsoluteMaxScopesPerSet)
    (h : ∀ s ∈ set.scopes, s.WellFormed) : ScopesFit (structuralLimits limits) set := by
  refine ⟨hsize, fun s hs => ⟨h s hs, ?_⟩⟩
  have hlen := (length_le_of_isValidIdentifierText (h s hs)).2
  exact ⟨Nat.le_trans hlen (by decide), hlen,
    Nat.le_trans hlen (by simp [AuthorityScope.maxSubjectLength, structuralLimits])⟩

variable {state : DurableState}

/-- A state to store fits what the decoder asks, under any limits. -/
theorem fits (h : StorableState state) (limits : Limits) :
    StateFits (structuralLimits limits) state where
  participantCount := h.ceilings.participants
  participants p hp :=
    ⟨idFits (h.participantIds p hp), (h.participantTables p hp).1,
      scopesFit (h.participantScopes p hp).1 (h.participantScopes p hp).2,
      (h.participantTables p hp).2.1, (h.participantTables p hp).2.2⟩
  fenceCount := h.ceilings.fences
  fences f hf := ⟨idFits (h.fences f hf).1, noteFits (h.fences f hf).2⟩
  grantCount := h.ceilings.grants
  grants g hg := ⟨idFits (h.grants g hg).1,
    scopesFit (h.grantScopes g hg).1 (h.grantScopes g hg).2, noteFits (h.grants g hg).2⟩
  transitionCount := h.ceilings.transitions
  transitions t ht := noteFits (h.transitions t ht)
  controlCount := h.controlAttempts

theorem counts (h : StorableState state) : StateCounts state := by
  have hmax : kAbsoluteMaxRecords < 2 ^ 32 := by decide
  have hscopes : kAbsoluteMaxScopesPerSet < 2 ^ 32 := by decide
  refine ⟨h.ceilings.participants.trans_lt hmax, fun p hp => ?_, h.ceilings.fences.trans_lt hmax,
    h.ceilings.grants.trans_lt hmax, fun g hg => (h.grantScopes g hg).1.trans_lt hscopes,
    h.ceilings.transitions.trans_lt hmax, h.controlAttempts.trans_lt hmax⟩
  obtain ⟨h₁, h₂, h₃⟩ := h.participantTables p hp
  exact ⟨h₁.trans_lt hmax, (h.participantScopes p hp).1.trans_lt hscopes, h₂.trans_lt hmax,
    h₃.trans_lt hmax⟩

theorem emits_scopes {set : ScopeSet} (h : ∀ s ∈ set.scopes, s.WellFormed) :
    (encodeScopeSetCanonical set).Emits := by
  refine Emit.Emits.list fun s hs => (emits_u8 _).append (emits_string ?_)
  exact (length_le_of_isValidIdentifierText (h s hs)).2.trans_lt (by decide)

theorem emits_id {id : ParticipantId} (h : id.Parses) : (ByteWriter.string id.text).Emits :=
  emits_string (h.length_le.trans_lt (by decide))

theorem emits_note {text : Text} (h : BoundedText.isValid text 4096 = true) :
    (ByteWriter.string text).Emits :=
  emits_string ((BoundedText.length_le_of_isValid h).trans_lt (by decide))

theorem emits_record (r : IdempotencyRecord) : (encodeIdempotencyRecord r).Emits :=
  (emits_fixed _).field <| (emits_u8 _).field <| (emits_fixed _).field <|
    (Emit.emits_bytes _).field <| (emits_u64 _).field <| (emits_u64 _).field <|
    (emits_fixed _).field (Emit.emits_bytes _)

theorem emits_active (e : ActiveIncarnation) : (encodeActiveIncarnation e).Emits :=
  (emits_fixed _).field <| (emits_counter _).field <| (emits_counter _).field (Emit.emits_bytes _)

theorem emits_participant (h : StorableState state) {p : DurableParticipant}
    (hp : p ∈ state.participants) : (encodeParticipant p).Emits :=
  (emits_id (h.participantIds p hp)).field <| (emits_counter _).field <|
    (emits_counter _).field <| (emits_counter _).field <| (emits_u8 _).field <|
    (emits_u8 _).field <| (emits_fixed _).field <| (emits_counter _).field <|
    (emits_counter _).field <|
    (Emit.Emits.list fun e _ => emits_active e).field <|
    (emits_scopes (h.participantScopes p hp).2).field <| (emits_u64 _).field <|
    (emits_u64 _).field <| (Emit.Emits.list fun _ _ => emits_fixed _).field <|
    (Emit.Emits.list fun r _ => emits_record r).field (Emit.emits_bytes _)

theorem emits_fence (h : StorableState state) {f : FenceRecord} (hf : f ∈ state.recentFences) :
    (encodeFence f).Emits :=
  (emits_fixed _).field <| (emits_id (h.fences f hf).1).field <| (emits_u8 _).field <|
    (emits_counter _).field <| (emits_counter _).field <| (emits_counter _).field <|
    (emits_note (h.fences f hf).2).field (Emit.emits_bytes _)

theorem emits_grant (h : StorableState state) {g : AuthorityGrant} (hg : g ∈ state.grants) :
    (encodeGrant g).Emits :=
  (emits_fixed _).field <| (emits_counter _).field <| (emits_id (h.grants g hg).1).field <|
    (emits_fixed _).field <| (emits_counter _).field <|
    (emits_scopes (h.grantScopes g hg).2).field <| (emits_counter _).field <|
    (emits_u8 _).field <| (emits_fixed _).field <| (emits_fixed _).field <|
    (emits_counter _).field <| (emits_note (h.grants g hg).2).field (Emit.emits_bytes _)

theorem emits_transition (h : StorableState state) {t : EpochTransitionRecord}
    (ht : t ∈ state.transitions) : (encodeTransition t).Emits :=
  (emits_fixed _).field <| (emits_counter _).field <| (emits_counter _).field <|
    (emits_u8 _).field <| (emits_fixed _).field <| (emits_counter _).field <|
    (emits_note (h.transitions t ht)).field (Emit.emits_bytes _)

/-- A state to store encodes. -/
theorem encodes (h : StorableState state) : ∃ payload, encodeDurablePayload state = .ok payload :=
  (emits_counter _).field <| (emits_fixed _).field <| (emits_counter _).field <|
    (emits_counter _).field <| (emits_counter _).field <|
    (Emit.Emits.list fun _ hp => h.emits_participant hp).field <|
    (Emit.Emits.list fun _ hf => h.emits_fence hf).field <|
    (Emit.Emits.list fun _ hg => h.emits_grant hg).field <|
    (Emit.Emits.list fun _ ht => h.emits_transition ht).field <|
    (Emit.Emits.list fun r _ => emits_record r).field (Emit.emits_bytes _)

end StorableState

/-! ## What is read is a state to store -/

section Accepted

variable (limits : Limits)

theorem decodeParticipantId_returns :
    Returns ParticipantId.Parses (decodeParticipantId limits) :=
  Returns.via fun _ _ h => (ParticipantId.parse_eq_some h).2

theorem decodeBoundedText_returns :
    Returns (fun note => BoundedText.isValid note.text limits.maxStringSize = true)
      (decodeBoundedText limits) := by
  refine Returns.via fun text note h => ?_
  split at h
  · next hvalid =>
    cases h
    exact hvalid
  · cases h

theorem decodeScope_returns : Returns AuthorityScope.WellFormed (decodeScope limits) :=
  Returns.skip fun _ => Returns.via fun _ _ h => (AuthorityScope.parse_eq_some h).2

/-- A set within the limit, of well-formed scopes. -/
def ScopesAccepted (set : ScopeSet) : Prop :=
  set.size ≤ limits.maxScopesPerGrant ∧ ∀ s ∈ set.scopes, s.WellFormed

/-- What every scope has, every scope of the set has. -/
theorem decodeScopes_each {P : AuthorityScope → Prop} (hP : Returns P (decodeScope limits)) {n : Nat}
    {set : ScopeSet} {previous : Option AuthorityScope}
    (h : set.size ≤ limits.maxScopesPerGrant ∧ ∀ s ∈ set.scopes, P s) :
    Returns (fun set => set.size ≤ limits.maxScopesPerGrant ∧ ∀ s ∈ set.scopes, P s)
      (decodeScopes limits n set previous) := by
  induction n generalizing set previous with
  | zero => exact Returns.pure h
  | succ n ih =>
    refine Returns.bind hP fun scope hscope => Returns.check fun _ => Returns.option fun next hnext => ih ?_
    obtain ⟨hsize, hmem⟩ := ScopeSet.mem_of_insert hnext
    refine ⟨?_, fun s hs => ?_⟩
    · rcases hsize with hle | hle
      · exact Nat.le_trans hle h.1
      · exact hle
    · rcases hmem s hs with hold | rfl
      · exact h.2 s hold
      · exact hscope

theorem decodeScopeSetCanonical_each {P : AuthorityScope → Prop} (hP : Returns P (decodeScope limits)) :
    Returns (fun set => set.size ≤ limits.maxScopesPerGrant ∧ ∀ s ∈ set.scopes, P s)
      (decodeScopeSetCanonical limits) :=
  Returns.skip fun _ => Returns.check fun _ =>
    decodeScopes_each limits hP ⟨Nat.zero_le _, fun _ hs => (nomatch hs)⟩

theorem decodeScopeSetCanonical_returns :
    Returns (ScopesAccepted limits) (decodeScopeSetCanonical limits) :=
  decodeScopeSetCanonical_each limits (decodeScope_returns limits)

theorem decodeParticipant_returns : Returns (fun p => p.id.Parses ∧
    ScopesAccepted limits p.scopes ∧ p.extraIncarnations.length ≤ limits.maxActiveWorkers ∧
      p.fencedBoots.length ≤ limits.maxFencedBootsPerParticipant ∧
      p.idempotency.length ≤ limits.maxIdempotencyRecordsPerParticipant)
    (decodeParticipant limits) :=
  Returns.bind (decodeParticipantId_returns limits) fun _ hid =>
    Returns.skip fun _ => Returns.skip fun _ => Returns.skip fun _ => Returns.skip fun _ =>
    Returns.skip fun _ => Returns.check fun _ => Returns.skip fun _ => Returns.skip fun _ =>
    Returns.skip fun _ =>
    Returns.bind (Returns.list (P := fun _ => True) fun _ _ _ _ => trivial) fun _ hextras =>
    Returns.bind (decodeScopeSetCanonical_returns limits) fun _ hscopes =>
    Returns.skip fun _ => Returns.skip fun _ =>
    Returns.bind (Returns.list (P := fun _ => True) fun _ _ _ _ => trivial) fun _ hfenced =>
    Returns.bind (Returns.list (P := fun _ => True) fun _ _ _ _ => trivial) fun _ hrecords =>
    Returns.pure ⟨hid, hscopes, hextras.1, hfenced.1, hrecords.1⟩

theorem decodeFence_returns : Returns (fun f => f.participant.Parses ∧
    BoundedText.isValid f.note.text limits.maxStringSize = true) (decodeFence limits) :=
  Returns.skip fun _ => Returns.bind (decodeParticipantId_returns limits) fun _ hid =>
    Returns.skip fun _ => Returns.skip fun _ => Returns.skip fun _ => Returns.skip fun _ =>
    Returns.bind (decodeBoundedText_returns limits) fun _ hnote => Returns.pure ⟨hid, hnote⟩

theorem decodeGrant_returns : Returns (fun g => (g.participant.Parses ∧
    BoundedText.isValid g.provenance.text limits.maxStringSize = true) ∧
      ScopesAccepted limits g.scopes) (decodeGrant limits) :=
  Returns.skip fun _ => Returns.skip fun _ =>
    Returns.bind (decodeParticipantId_returns limits) fun _ hid =>
    Returns.skip fun _ => Returns.skip fun _ =>
    Returns.bind (decodeScopeSetCanonical_returns limits) fun _ hscopes =>
    Returns.skip fun _ => Returns.skip fun _ => Returns.check fun _ => Returns.skip fun _ =>
    Returns.skip fun _ => Returns.skip fun _ =>
    Returns.bind (decodeBoundedText_returns limits) fun _ hnote =>
    Returns.pure ⟨⟨hid, hnote⟩, hscopes⟩

theorem decodeTransition_returns :
    Returns (fun t => BoundedText.isValid t.provenance.text limits.maxStringSize = true)
      (decodeTransition limits) :=
  Returns.skip fun _ => Returns.skip fun _ => Returns.skip fun _ => Returns.skip fun _ =>
    Returns.skip fun _ => Returns.skip fun _ =>
    Returns.bind (decodeBoundedText_returns limits) fun _ hnote => Returns.pure hnote

theorem decodeState_returns : Returns StorableState (decodeState (structuralLimits limits)) :=
  Returns.skip fun _ => Returns.skip fun _ => Returns.skip fun _ => Returns.skip fun _ =>
    Returns.skip fun _ =>
    Returns.bind (Returns.list (decodeParticipant_returns _)) fun _ hparticipants =>
    Returns.bind (Returns.list (decodeFence_returns _)) fun _ hfences =>
    Returns.bind (Returns.list (decodeGrant_returns _)) fun _ hgrants =>
    Returns.bind (Returns.list (decodeTransition_returns _)) fun _ htransitions =>
    Returns.bind (Returns.list (P := fun _ => True) fun _ _ _ _ => trivial) fun _ hcontrols =>
    Returns.pure {
      participantIds := fun p hp => (hparticipants.2 p hp).1
      participantScopes := fun p hp => (hparticipants.2 p hp).2.1
      participantTables := fun p hp => (hparticipants.2 p hp).2.2
      fences := hfences.2
      grants := fun g hg => (hgrants.2 g hg).1
      grantScopes := fun g hg => (hgrants.2 g hg).2
      transitions := htransitions.2
      ceilings := ⟨hparticipants.1, hfences.1, hgrants.1, htransitions.1⟩
      controlAttempts := hcontrols.1 }

end Accepted

/-- **What a payload is read as is a state to store**, whatever the payload. -/
theorem decodeDurablePayload_storable {payload : Bytes} {limits : Limits} {state : DurableState}
    (h : decodeDurablePayload payload limits = .ok state) : StorableState state := by
  unfold decodeDurablePayload at h
  split at h
  · next s r hrun =>
    obtain ⟨s', rest, hs, hrest⟩ := bind_eq_ok hrun
    obtain ⟨-, _, -, hrest⟩ := bind_eq_ok hrest
    cases hrest
    cases h
    exact decodeState_returns limits _ _ _ hs
  · cases h

/-- **Durable payload round trip.** A state to store is read back as it was
written, whatever the limits of the loading process, exactly when the bytes
behind the transition count make up for the four bytes a record that its guard
counts too much. -/
theorem decode_encode_iff {state : DurableState} (h : StorableState state) (limits : Limits) :
    (∃ payload, encodeDurablePayload state = .ok payload ∧
      decodeDurablePayload payload limits = .ok state) ↔ TransitionRoom state := by
  obtain ⟨payload, he⟩ := h.encodes
  rw [← decodeDurablePayload_eq_iff he h.counts (h.fits limits)]
  constructor
  · rintro ⟨payload', he', hd⟩
    rw [he] at he'
    cases he'
    exact hd
  · intro hd
    exact ⟨payload, he, hd⟩

/-- An identifier with one significant byte. -/
def smallId {d : IdDomain} (n : UInt8) : Fixed128Id d := ⟨⟨List.replicate 15 0 ++ [n], rfl⟩⟩

/-- A counter of a literal. -/
def smallCounter {d : CounterDomain} (n : Nat)
    (h : n ≤ maxValue := by first | exact one_le_maxValue | exact two_le_maxValue | decide) :
    MonotonicCounter d := ⟨n, h⟩

/-- A store that was opened twice, with this provenance. -/
def openedTwice (provenance : BoundedText) : DurableState :=
  { currentEpoch := smallCounter 2
    coordinatorBoot := smallId 1
    generation := smallCounter 2
    transitions := [
      { id := smallId 1, fromEpoch := .zero, toEpoch := smallCounter 1, cause := .coordinatorStart
        coordinatorBoot := smallId 1, generation := smallCounter 1, provenance },
      { id := smallId 2, fromEpoch := smallCounter 1, toEpoch := smallCounter 2
        cause := .coordinatorRestart, coordinatorBoot := smallId 1
        generation := smallCounter 2, provenance }] }

theorem openedTwice_storable {provenance : BoundedText}
    (h : BoundedText.isValid provenance.text 4096 = true) :
    StorableState (openedTwice provenance) := by
  constructor <;> simp [openedTwice, h]
  constructor <;> simp [kAbsoluteMaxRecords]

theorem decode_encode_iff_test : TransitionRoom (openedTwice ⟨str "test"⟩) ∧
    ∃ payload, encodeDurablePayload (openedTwice ⟨str "test"⟩) = .ok payload ∧
      decodeDurablePayload payload defaultLimits = .ok (openedTwice ⟨str "test"⟩) :=
  ⟨by decide, (decode_encode_iff (openedTwice_storable (by decide)) defaultLimits).mpr (by decide)⟩

set_option maxRecDepth 8192 in
/-- With the default provenance, which is empty, the second transition is
refused: the store no longer loads. -/
theorem openedTwice_not_read_back :
    validateDurableState (openedTwice .blank) = .ok () ∧ StorableState (openedTwice .blank) ∧
      ∃ payload, encodeDurablePayload (openedTwice .blank) = .ok payload ∧
        decodeDurablePayload payload defaultLimits =
          .error (malformed "transition count exceeds remaining durable input") :=
  ⟨by decide, openedTwice_storable (by decide), _, rfl, rfl⟩

end FabricEpoch
