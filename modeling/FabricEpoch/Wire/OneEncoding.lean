import FabricEpoch.Wire.Payloads

/-!
# One encoding for each request and each state

A decoder that is given bytes it accepts returns a value; encoding the value
again should give the bytes back, or two payloads would stand for one request.

- the decoders of seven requests invert their encoders (`Inverts`);
- `decode_validate_request` and `decode_durable_payload` ignore the slot of an
  optional field whose flag is clear. They give the bytes back exactly when each
  such slot is zero (`oneEncoding`).
-/

namespace FabricEpoch

open ByteCodec

namespace Wire

variable (limits : Limits)

/-! ## Texts, identifiers and scopes -/

theorem participantId_inverts (err : EpochError) :
    Inverts (decodeVia (ByteReader.string limits ParticipantId.maxLength) ParticipantId.parse err)
      fun id => ByteWriter.string id.text :=
  (string_inverts limits _).via fun _ _ h => by rw [(ParticipantId.parse_eq_some h).1]

theorem boundedText_inverts (err : EpochError) :
    Inverts (decodeVia (ByteReader.string limits limits.maxStringSize)
      (fun text => if BoundedText.isValid text limits.maxStringSize then some ⟨text⟩ else none) err)
      fun text : BoundedText => ByteWriter.string text.text :=
  (string_inverts limits _).via fun _ _ h => by
    split at h
    · cases h
      rfl
    · cases h

theorem decodeText_inverts : Inverts (decodeText limits) fun text => encodeText text limits :=
  (string_inverts limits _).via fun _ _ h => by
    split at h
    · next hvalid =>
      cases h
      exact if_pos hvalid
    · cases h

/-- A scope is read as it was written, whatever the errors are. -/
theorem scope_inverts (unknown refused : EpochError) :
    Inverts (do
      let kind ← decodeVia ByteReader.u8 ScopeKind.fromWire unknown
      decodeVia (ByteReader.string limits AuthorityScope.maxSubjectLength)
        (AuthorityScope.parse kind) refused) encodeScope := by
  have hkind : Inverts (decodeVia ByteReader.u8 ScopeKind.fromWire unknown) fun k =>
      ByteWriter.u8 k.toWire := by
    refine wire_inverts unknown fun n k h => ?_
    unfold ScopeKind.fromWire at h
    split at h <;> cases h <;> rfl
  intro b r scope hd
  obtain ⟨kind, rest, hk, hs⟩ := bind_eq_ok hd
  obtain ⟨a, ha, rfl⟩ := hkind b rest kind hk
  have hsubject : Inverts (decodeVia (ByteReader.string limits AuthorityScope.maxSubjectLength)
      (AuthorityScope.parse kind) refused) fun s => ByteWriter.string s.subject :=
    (string_inverts limits _).via fun _ _ h => by rw [(AuthorityScope.parse_eq_some h).1]
  obtain ⟨c, hc, rfl⟩ := hsubject rest r scope hs
  have hsame : scope.kind = kind := by
    obtain ⟨text, rest', -, hvia⟩ := bind_eq_ok hs
    cases hparse : AuthorityScope.parse kind text with
    | none =>
      rw [hparse] at hvia
      cases hvia
    | some s =>
      rw [hparse] at hvia
      cases hvia
      rw [(AuthorityScope.parse_eq_some hparse).1]
  rw [← hsame] at ha
  exact ⟨a ++ c, ha.append hc, (List.append_assoc _ _ _).symm⟩

/-- The loop appends one scope a round: the order check leaves no other place. -/
theorem decodeScopes_reads {n : Nat} {set out : ScopeSet} {b r : Bytes}
    (hd : decodeScopes limits n set set.scopes.getLast? b = .ok (out, r)) :
    ∃ read a, out.scopes = set.scopes ++ read ∧ read.length = n ∧
      (Emit.all encodeScope read).Yields a ∧ b = a ++ r := by
  induction n generalizing set b with
  | zero =>
    cases hd
    exact ⟨[], [], (List.append_nil _).symm, rfl, rfl, rfl⟩
  | succ n ih =>
    obtain ⟨scope, rest, hscope, hround⟩ := bind_eq_ok hd
    obtain ⟨a, ha, rfl⟩ := scope_inverts limits _ _ b rest scope hscope
    obtain ⟨_, rest', hcheck, hinsert⟩ := bind_eq_ok hround
    obtain ⟨hprevious, rfl⟩ := require_ok hcheck
    have hbelow : ∀ s ∈ set.scopes, s < scope := ScopeSet.lt_of_getLast_lt hprevious
    cases hnext : set.insert scope limits.maxScopesPerGrant with
    | none =>
      rw [hnext] at hinsert
      cases hinsert
    | some next =>
      rw [hnext] at hinsert
      have hscopes : next.scopes = set.scopes ++ [scope] := ScopeSet.insert_above hbelow hnext
      have hlast : next.scopes.getLast? = some scope := by rw [hscopes]; simp
      have hloop : decodeScopes limits n next next.scopes.getLast? rest = .ok (out, r) := by
        rw [hlast]
        exact hinsert
      obtain ⟨read, c, hout, hlen, hc, rfl⟩ := ih hloop
      refine ⟨scope :: read, a ++ c, ?_, by rw [List.length_cons, hlen], ha.append hc,
        (List.append_assoc _ _ _).symm⟩
      rw [hout, hscopes, List.append_assoc]
      rfl

theorem decodeScopes_blank_reads {n : Nat} {out : ScopeSet} {b r : Bytes}
    (hd : decodeScopes limits n .blank none b = .ok (out, r)) :
    ∃ read a, out.scopes = read ∧ read.length = n ∧ (Emit.all encodeScope read).Yields a ∧
      b = a ++ r :=
  @decodeScopes_reads limits n .blank out b r hd

theorem scopeSet_inverts :
    Inverts (decodeScopeSetCanonical limits) encodeScopeSetCanonical := by
  intro b r set hd
  obtain ⟨count, rest, hcount, hrest⟩ := bind_eq_ok hd
  obtain ⟨a, ha, rfl⟩ := u32_inverts b rest count hcount
  obtain ⟨_, rest', hcheck, hloop⟩ := bind_eq_ok hrest
  obtain ⟨-, rfl⟩ := require_ok hcheck
  obtain ⟨read, c, hset, hlen, hc, rfl⟩ := decodeScopes_blank_reads limits hloop
  have hread : set.scopes = read := hset
  rw [← hlen, ← hread] at ha
  rw [← hread] at hc
  exact ⟨a ++ c, ha.append hc, (List.append_assoc _ _ _).symm⟩

/-! ## Enumerations -/

theorem policy_inverts (err : EpochError) :
    Inverts (decodeVia ByteReader.u8 IncarnationPolicy.fromWire err) fun p =>
      ByteWriter.u8 p.toWire :=
  wire_inverts err fun n p h => by
    unfold IncarnationPolicy.fromWire at h
    split at h <;> cases h <;> rfl

theorem reason_inverts (err : EpochError) :
    Inverts (decodeVia ByteReader.u8 FenceReason.fromWire err) fun p => ByteWriter.u8 p.toWire :=
  wire_inverts err fun n p h => by
    unfold FenceReason.fromWire at h
    split at h <;> cases h <;> rfl

theorem cause_inverts (err : EpochError) :
    Inverts (decodeVia ByteReader.u8 EpochTransitionCause.fromWire err) fun p =>
      ByteWriter.u8 p.toWire :=
  wire_inverts err fun n p h => by
    unfold EpochTransitionCause.fromWire at h
    split at h <;> cases h <;> rfl

theorem operation_inverts (err : EpochError) :
    Inverts (decodeVia ByteReader.u8 OperationKind.fromWire err) fun p =>
      ByteWriter.u8 p.toWire :=
  wire_inverts err fun n p h => by
    unfold OperationKind.fromWire at h
    split at h <;> cases h <;> rfl

/-! ## Requests -/

theorem registerRequest_inverts :
    Inverts (readRegisterRequest limits) fun wire => encodeRegisterRequest wire limits := by
  -- the flag and the slot are what the optional generation is written as
  have hslot : ∀ (has : Nat) (generation : UInt64), has ≤ 1 → (has = 1 ∨ generation = 0) →
      ∀ e : Option RegistrationGeneration,
        e = (if has = 1 then some (.ofRaw generation) else none) →
        encodeFlag e.isSome = ByteWriter.u8 has ∧
          encodeOptionalCounter e = ByteWriter.u64 generation := by
    rintro has generation hle hzero e rfl
    by_cases hone : has = 1
    · rw [if_pos hone, hone]
      exact ⟨rfl, congrArg ByteWriter.u64 UInt64.ofNat_toNat⟩
    · have hnone : has = 0 := by omega
      rw [if_neg hone, hnone, hzero.resolve_left hone]
      exact ⟨rfl, rfl⟩
  exact (InvertsAfter.field (id_inverts _) fun _ => .field (counter_inverts _) fun _ =>
    .field (participantId_inverts limits _) fun _ => .field (id_inverts _) fun _ =>
    .field (scopeSet_inverts limits) fun _ => .field (policy_inverts _) fun _ =>
    .field u8_inverts fun _ => .check fun hle => .field u64_inverts fun _ => .check fun hzero =>
    .field (decodeText_inverts limits) fun _ => .field (id_inverts _) fun _ => .done (by
      obtain ⟨hflag, hcounter⟩ := hslot _ _ hle hzero _ rfl
      rw [encodeRegisterRequest, hflag, hcounter]
      rfl)).inverts

theorem fenceRequest_inverts :
    Inverts (readFenceRequest limits) fun request => encodeFenceRequest request limits :=
  (InvertsAfter.field (id_inverts _) fun _ => .field (counter_inverts _) fun _ =>
    .field (participantId_inverts limits _) fun _ => .field (id_inverts _) fun _ =>
    .field (reason_inverts _) fun _ => .field (decodeText_inverts limits) fun _ =>
    .done (by rfl)).inverts

theorem revokeRequest_inverts :
    Inverts (readRevokeRequest limits) fun request => encodeRevokeRequest request limits :=
  (InvertsAfter.field (id_inverts _) fun _ => .field (counter_inverts _) fun _ =>
    .field (id_inverts _) fun _ => .field (reason_inverts _) fun _ =>
    .field (decodeText_inverts limits) fun _ => .done (by rfl)).inverts

theorem advanceRequest_inverts :
    Inverts (readAdvanceRequest limits) fun request => encodeAdvanceRequest request limits :=
  (InvertsAfter.field (id_inverts _) fun _ => .field (counter_inverts _) fun _ =>
    .field (cause_inverts _) fun _ => .field (decodeText_inverts limits) fun _ =>
    .done (by rfl)).inverts

theorem retireRequest_inverts :
    Inverts (readRetireRequest limits) fun request => encodeRetireRequest request limits :=
  (InvertsAfter.field (id_inverts _) fun _ => .field (counter_inverts _) fun _ =>
    .field (participantId_inverts limits _) fun _ => .field (decodeText_inverts limits) fun _ =>
    .done (by rfl)).inverts

theorem explainRequest_inverts : Inverts (readExplainRequest limits) encodeExplainRequest :=
  (InvertsAfter.field (participantId_inverts limits _) fun _ => .field (id_inverts _) fun _ =>
    .done (by rfl)).inverts

theorem token_inverts : Inverts (decodeToken limits) encodeToken :=
  (InvertsAfter.field (counter_inverts _) fun _ => .field (participantId_inverts limits _) fun _ =>
    .field (id_inverts _) fun _ => .field (counter_inverts _) fun _ =>
    .field (counter_inverts _) fun _ => .done (by rfl)).inverts

/-! ## Records of the durable state -/

theorem idempotencyRecord_inverts (err : EpochError) :
    Inverts (decodeIdempotencyRecord err) encodeIdempotencyRecord :=
  (InvertsAfter.field (id_inverts _) fun _ => .field (operation_inverts _) fun _ =>
    .field (fixed_inverts 32) fun _ => .field u16_inverts fun _ => .field u64_inverts fun _ =>
    .field u64_inverts fun _ => .field (fixed_inverts 16) fun _ => .done (by rfl)).inverts

theorem activeIncarnation_inverts : Inverts decodeActiveIncarnation encodeActiveIncarnation :=
  (InvertsAfter.field (id_inverts _) fun _ => .field (counter_inverts _) fun _ =>
    .field (counter_inverts _) fun _ => .done (by rfl)).inverts

/-- A byte without unknown bits is made of its three flags. -/
theorem flags_of_bits {flags : Nat} (hbyte : flags < 256) (hunknown : flags &&& 0xF8 = 0) :
    ((if flags &&& 0x01 != 0 then 0x01 else 0) ||| (if flags &&& 0x02 != 0 then 0x02 else 0) |||
      (if flags &&& 0x04 != 0 then 0x04 else 0)) = flags := by
  revert hunknown
  have h : ∀ n < 256, n &&& 0xF8 = 0 →
      ((if n &&& 0x01 != 0 then 0x01 else 0) ||| (if n &&& 0x02 != 0 then 0x02 else 0) |||
        (if n &&& 0x04 != 0 then 0x04 else 0)) = n := by
    decide +kernel
  exact h flags hbyte

theorem u8_returns : Returns (fun n => n < 256) ByteReader.u8 := Returns.leWord truncated 1

theorem participant_inverts :
    Inverts (FabricEpoch.decodeParticipant limits) FabricEpoch.encodeParticipant :=
  (InvertsAfter.field (participantId_inverts limits _) fun _ => .field (counter_inverts _) fun _ =>
    .field (counter_inverts _) fun _ => .field (counter_inverts _) fun _ =>
    .field (policy_inverts _) fun _ => .field_of u8_inverts u8_returns fun _ hbyte =>
    .check fun hunknown => .field (id_inverts _) fun _ => .field (counter_inverts _) fun _ =>
    .field (counter_inverts _) fun _ => .field activeIncarnation_inverts.list fun _ =>
    .field (scopeSet_inverts limits) fun _ => .field u64_inverts fun _ =>
    .field u64_inverts fun _ => .field (id_inverts _).list fun _ =>
    .field (idempotencyRecord_inverts _).list fun _ => .done (by
      rw [FabricEpoch.encodeParticipant, participantFlags, flags_of_bits hbyte hunknown]
      rfl)).inverts

theorem fence_inverts : Inverts (decodeFence limits) encodeFence :=
  (InvertsAfter.field (id_inverts _) fun _ => .field (participantId_inverts limits _) fun _ =>
    .field (reason_inverts _) fun _ => .field (counter_inverts _) fun _ =>
    .field (counter_inverts _) fun _ => .field (counter_inverts _) fun _ =>
    .field (boundedText_inverts limits _) fun _ => .done (by rfl)).inverts

theorem transition_inverts : Inverts (decodeTransition limits) encodeTransition :=
  (InvertsAfter.field (id_inverts _) fun _ => .field (counter_inverts _) fun _ =>
    .field (counter_inverts _) fun _ => .field (cause_inverts _) fun _ =>
    .field (id_inverts _) fun _ => .field (counter_inverts _) fun _ =>
    .field (boundedText_inverts limits _) fun _ => .done (by rfl)).inverts

/-! ## Grants with their slots -/

/-- A grant record as it stands in a payload, with the bytes of both optional
slots. -/
structure RawGrant where
  id : AuthorityGrantId
  epoch : CoordinatorEpoch
  participant : ParticipantId
  boot : WorkerBootId
  incarnation : IncarnationSequence
  scopes : ScopeSet
  generation : GrantGeneration
  flags : Nat
  parentBytes : Block 16
  delegatorBytes : Block 16
  revokedAtEpoch : CoordinatorEpoch
  provenance : BoundedText

namespace RawGrant

/-- The fields in front of the slots. -/
def front (g : RawGrant) : List Writer := [
  ByteWriter.fixed g.id.bytes,
  ByteWriter.counter g.epoch,
  ByteWriter.string g.participant.text,
  ByteWriter.fixed g.boot.bytes,
  ByteWriter.counter g.incarnation,
  encodeScopeSetCanonical g.scopes,
  ByteWriter.counter g.generation,
  ByteWriter.u8 g.flags]

/-- The fields behind them. -/
def back (g : RawGrant) : List Writer := [
  ByteWriter.counter g.revokedAtEpoch,
  ByteWriter.string g.provenance.text]

def encode (g : RawGrant) : Writer :=
  Emit.concat (g.front ++ [ByteWriter.fixed g.parentBytes, ByteWriter.fixed g.delegatorBytes] ++
    g.back)

/-- The grant a record is read as. -/
def grant (g : RawGrant) : AuthorityGrant where
  id := g.id
  epoch := g.epoch
  participant := g.participant
  boot := g.boot
  incarnation := g.incarnation
  scopes := g.scopes
  generation := g.generation
  parent := if g.flags &&& 0x01 ≠ 0 then some ⟨g.parentBytes⟩ else none
  delegatorBoot := if g.flags &&& 0x02 ≠ 0 then some ⟨g.delegatorBytes⟩ else none
  revoked := g.flags &&& 0x04 != 0
  revokedAtEpoch := g.revokedAtEpoch
  provenance := g.provenance

/-- A slot whose flag is clear is zero. -/
def SlotsZero (g : RawGrant) : Prop :=
  (g.flags &&& 0x01 = 0 → g.parentBytes = Block.zero 16) ∧
    (g.flags &&& 0x02 = 0 → g.delegatorBytes = Block.zero 16)

end RawGrant

/-- The reads of `decodeGrant`. -/
def decodeRawGrant : Reader RawGrant := do
  let id ← ByteReader.id .authorityGrant
  let epoch ← ByteReader.counter .coordinatorEpoch
  let participant ← decodeParticipantId limits
  let boot ← ByteReader.id .workerBoot
  let incarnation ← ByteReader.counter .incarnationSequence
  let scopes ← decodeScopeSetCanonical limits
  let generation ← ByteReader.counter .grantGeneration
  let flags ← ByteReader.u8
  require (malformed "unknown grant flag bits in durable image") (flags &&& 0xF8 = 0)
  let parentBytes ← ByteReader.fixed 16
  let delegatorBytes ← ByteReader.fixed 16
  let revokedAtEpoch ← ByteReader.counter .coordinatorEpoch
  let provenance ← decodeBoundedText limits
  return { id, epoch, participant, boot, incarnation, scopes, generation, flags, parentBytes,
           delegatorBytes, revokedAtEpoch, provenance }

/-- A grant is read by reading its record. -/
theorem decodeGrant_eq :
    decodeGrant limits = decodeRawGrant limits >>= fun g => pure g.grant := by
  simp only [decodeGrant, decodeRawGrant, bind_assoc, pure_bind, RawGrant.grant]

theorem rawGrant_inverts : Inverts (decodeRawGrant limits) RawGrant.encode :=
  (InvertsAfter.field (id_inverts _) fun _ => .field (counter_inverts _) fun _ =>
    .field (participantId_inverts limits _) fun _ => .field (id_inverts _) fun _ =>
    .field (counter_inverts _) fun _ => .field (scopeSet_inverts limits) fun _ =>
    .field (counter_inverts _) fun _ => .field u8_inverts fun _ => .check fun _ =>
    .field (fixed_inverts 16) fun _ => .field (fixed_inverts 16) fun _ =>
    .field (counter_inverts _) fun _ => .field (boundedText_inverts limits _) fun _ =>
    .done (by rfl)).inverts

/-- The flags of a record that is accepted. -/
def RawGrant.Flags (g : RawGrant) : Prop := g.flags < 256 ∧ g.flags &&& 0xF8 = 0

theorem rawGrant_returns : Returns RawGrant.Flags (decodeRawGrant limits) :=
  Returns.skip fun _ => Returns.skip fun _ => Returns.skip fun _ => Returns.skip fun _ =>
    Returns.skip fun _ => Returns.skip fun _ => Returns.skip fun _ =>
    Returns.bind u8_returns fun _ hbyte => Returns.check fun hunknown => Returns.skip fun _ =>
    Returns.skip fun _ => Returns.skip fun _ => Returns.skip fun _ =>
    Returns.pure ⟨hbyte, hunknown⟩

theorem isSome_slot {α : Type} {n : Nat} {x : α} :
    (if n ≠ 0 then some x else none).isSome = (n != 0) := by
  by_cases h : n = 0 <;> simp [h]

/-- The encoder writes the same record with both unused slots zero. -/
theorem encodeGrant_grant {g : RawGrant} (h : g.Flags) :
    encodeGrant g.grant = Emit.concat (g.front ++
      [ByteWriter.fixed (optionalBytes g.grant.parent),
        ByteWriter.fixed (optionalBytes g.grant.delegatorBoot)] ++ g.back) := by
  have hparent : g.grant.parent.isSome = (g.flags &&& 0x01 != 0) := isSome_slot
  have hdelegator : g.grant.delegatorBoot.isSome = (g.flags &&& 0x02 != 0) := isSome_slot
  have hflags : grantFlags g.grant = g.flags := by
    rw [grantFlags, hparent, hdelegator]
    exact flags_of_bits h.1 h.2
  rw [encodeGrant, hflags]
  rfl

/-- A slot is written back as it was read exactly when it is in use or zero. -/
theorem slot_iff {d : IdDomain} {p : Prop} [Decidable p] {slot : Block 16} :
    optionalBytes (if ¬ p then some (⟨slot⟩ : Fixed128Id d) else none) = slot ↔
      (p → slot = Block.zero 16) := by
  by_cases hp : p
  · rw [if_neg (not_not.mpr hp)]
    exact ⟨fun h _ => h.symm, fun h => (h hp).symm⟩
  · rw [if_pos hp]
    exact iff_of_true rfl fun h => absurd h hp

theorem block_eq {n : Nat} {a b : Block n} (h : a.bytes = b.bytes) : a = b := by
  cases a
  cases b
  cases h
  rfl

/-- The encoding of a grant that was read is as long as its record, and equal to
it exactly when the unused slots are zero. -/
theorem rawGrant_rewritten {g : RawGrant} (h : g.Flags) {a : Bytes} (ha : g.encode.Yields a) :
    ∃ a', (encodeGrant g.grant).Yields a' ∧ a'.length = a.length ∧ (a' = a ↔ g.SlotsZero) := by
  rw [RawGrant.encode, Emit.concat_append, Emit.concat_append] at ha
  obtain ⟨c, t, hc, ht, rfl⟩ := Emit.yields_append.mp ha
  obtain ⟨p, s, hp, hs, rfl⟩ := Emit.yields_append.mp hc
  have hslots : g.parentBytes.bytes ++ g.delegatorBytes.bytes = s := by
    have hs' := Emit.yields_bytes.mp hs
    rwa [List.append_nil] at hs'
  generalize hparent : optionalBytes g.grant.parent = parent
  generalize hdelegator : optionalBytes g.grant.delegatorBoot = delegator
  refine ⟨p ++ (parent.bytes ++ delegator.bytes) ++ t, ?_, ?_, ?_⟩
  · rw [encodeGrant_grant h, Emit.concat_append, Emit.concat_append, hparent, hdelegator,
      Emit.concat_pair]
    exact (hp.append rfl).append ht
  · rw [← hslots]
    simp [Block.size_eq]
  · rw [List.append_left_inj, List.append_right_inj, ← hslots]
    have hsplit : parent.bytes ++ delegator.bytes =
        g.parentBytes.bytes ++ g.delegatorBytes.bytes ↔
          parent = g.parentBytes ∧ delegator = g.delegatorBytes := by
      constructor
      · intro heq
        obtain ⟨h₁, h₂⟩ := List.append_inj heq (by rw [parent.size_eq, g.parentBytes.size_eq])
        exact ⟨block_eq h₁, block_eq h₂⟩
      · rintro ⟨rfl, rfl⟩
        rfl
    rw [hsplit, ← hparent, ← hdelegator]
    exact and_congr slot_iff slot_iff

/-- The same of a list of records. -/
theorem rawGrants_rewritten {gs : List RawGrant} (h : ∀ g ∈ gs, g.Flags) {a : Bytes}
    (ha : (Emit.all RawGrant.encode gs).Yields a) :
    ∃ a', (Emit.all encodeGrant (gs.map (·.grant))).Yields a' ∧ a'.length = a.length ∧
      (a' = a ↔ ∀ g ∈ gs, g.SlotsZero) := by
  induction gs generalizing a with
  | nil =>
    have hnil : [] = a := Emit.yields_bytes.mp ha
    exact ⟨[], rfl, by rw [← hnil], by simp [← hnil]⟩
  | cons g gs ih =>
    obtain ⟨c, t, hc, ht, rfl⟩ := Emit.yields_all_cons.mp ha
    obtain ⟨c', hc', hlen, hiff⟩ := rawGrant_rewritten (h g (List.mem_cons_self ..)) hc
    obtain ⟨t', ht', hlen', hiff'⟩ := ih (fun x hx => h x (List.mem_cons_of_mem _ hx)) ht
    refine ⟨c' ++ t', hc'.append ht', by rw [List.length_append, List.length_append, hlen, hlen'],
      ?_⟩
    rw [List.forall_mem_cons, ← hiff, ← hiff']
    constructor
    · exact fun heq => List.append_inj heq hlen
    · rintro ⟨rfl, rfl⟩
      rfl

/-! ## The durable payload -/

/-- The grant records of a payload, behind the participants and the fences. -/
def readGrantRecords : Reader (List RawGrant) := do
  let _ ← ByteReader.counter .coordinatorEpoch
  let _ ← ByteReader.id .coordinatorBoot
  let _ ← ByteReader.counter .epochGeneration
  let _ ← ByteReader.counter .registrationGeneration
  let _ ← ByteReader.counter .fencingGeneration
  let _ ← decodeList truncated
    (resourceLimit "participant count exceeds limits.max_participants")
    (malformed "participant count exceeds remaining durable input")
    limits.maxParticipants 32 (FabricEpoch.decodeParticipant limits)
  let _ ← decodeList truncated
    (resourceLimit "fence count exceeds limits.max_recent_fences")
    (malformed "fence count exceeds remaining durable input")
    limits.maxRecentFences 49 (decodeFence limits)
  decodeList truncated
    (resourceLimit "grant count exceeds limits.max_authority_grants")
    (malformed "grant count exceeds remaining durable input")
    limits.maxAuthorityGrants 89 (decodeRawGrant limits)

/-- Every slot of a grant record whose flag is clear is zero. -/
def GrantSlotsZero (payload : Bytes) : Prop :=
  ∀ gs rest, readGrantRecords (structuralLimits limits) payload = .ok (gs, rest) →
    ∀ g ∈ gs, g.SlotsZero

/-- A durable payload is read as a whole. -/
theorem decodeDurablePayload_eq (payload : Bytes) : decodeDurablePayload payload limits =
    decodeAll (decodeState (structuralLimits limits)) payload := by
  unfold decodeDurablePayload decodeAll
  cases (decodeState (structuralLimits limits) >>= fun state => do
    requireEnd (malformed "trailing bytes after decoded record")
    pure state) payload <;> rfl

theorem decodeState_rewritten {payload r : Bytes} {state : DurableState}
    (hd : decodeState limits payload = .ok (state, r)) :
    ∃ gs rest a, readGrantRecords limits payload = .ok (gs, rest) ∧
      (encodeState state).Yields a ∧ (a ++ r = payload ↔ ∀ g ∈ gs, g.SlotsZero) := by
  obtain ⟨epoch, r₁, h₁, hd₁⟩ := bind_eq_ok hd
  obtain ⟨boot, r₂, h₂, hd₂⟩ := bind_eq_ok hd₁
  obtain ⟨generation, r₃, h₃, hd₃⟩ := bind_eq_ok hd₂
  obtain ⟨registration, r₄, h₄, hd₄⟩ := bind_eq_ok hd₃
  obtain ⟨fence, r₅, h₅, hd₅⟩ := bind_eq_ok hd₄
  obtain ⟨participants, r₆, h₆, hd₆⟩ := bind_eq_ok hd₅
  obtain ⟨fences, r₇, h₇, hd₇⟩ := bind_eq_ok hd₆
  obtain ⟨grants, r₈, h₈, hd₈⟩ := bind_eq_ok hd₇
  obtain ⟨transitions, r₉, h₉, hd₉⟩ := bind_eq_ok hd₈
  obtain ⟨controls, r₁₀, h₁₀, hdone⟩ := bind_eq_ok hd₉
  cases hdone
  rw [decodeGrant_eq, decodeList_map] at h₈
  obtain ⟨gs, rest, hgs, hmap⟩ := bind_eq_ok h₈
  cases hmap
  refine ⟨gs, r₈, ?_⟩
  have hrecords : readGrantRecords limits payload = .ok (gs, r₈) := by
    rw [readGrantRecords, bind_apply_ok h₁, bind_apply_ok h₂, bind_apply_ok h₃, bind_apply_ok h₄,
      bind_apply_ok h₅, bind_apply_ok h₆, bind_apply_ok h₇]
    exact hgs
  obtain ⟨a₁, ha₁, rfl⟩ := counter_inverts _ _ _ _ h₁
  obtain ⟨a₂, ha₂, rfl⟩ := id_inverts _ _ _ _ h₂
  obtain ⟨a₃, ha₃, rfl⟩ := counter_inverts _ _ _ _ h₃
  obtain ⟨a₄, ha₄, rfl⟩ := counter_inverts _ _ _ _ h₄
  obtain ⟨a₅, ha₅, rfl⟩ := counter_inverts _ _ _ _ h₅
  obtain ⟨a₆, ha₆, rfl⟩ := (participant_inverts limits).list _ _ _ h₆
  obtain ⟨a₇, ha₇, rfl⟩ := (fence_inverts limits).list _ _ _ h₇
  obtain ⟨a₈, ha₈, rfl⟩ := (rawGrant_inverts limits).list _ _ _ hgs
  obtain ⟨a₉, ha₉, rfl⟩ := (transition_inverts limits).list _ _ _ h₉
  obtain ⟨a₁₀, ha₁₀, rfl⟩ := (idempotencyRecord_inverts _).list _ _ _ h₁₀
  have hflags : ∀ g ∈ gs, g.Flags := ((rawGrant_returns limits).list _ _ _ hgs).2
  obtain ⟨count, body, hcount, hbody, rfl⟩ := Emit.yields_append.mp ha₈
  obtain ⟨body', hbody', hlen, hiff⟩ := rawGrants_rewritten hflags hbody
  have hgrants : (emitList encodeGrant (gs.map (·.grant))).Yields (count ++ body') := by
    refine Emit.Yields.append ?_ hbody'
    rwa [List.length_map]
  refine ⟨_, hrecords, ha₁.append (ha₂.append (ha₃.append (ha₄.append (ha₅.append (ha₆.append
    (ha₇.append (hgrants.append (ha₉.append (ha₁₀.append (Emit.yields_bytes.mpr rfl)))))))))), ?_⟩
  rw [← hiff]
  constructor
  · intro heq
    -- only the records of the grants can differ, and they are equally long
    simp only [List.append_assoc, List.append_cancel_left_eq] at heq
    exact (List.append_inj heq hlen).1
  · rintro rfl
    simp

/-! ## The optional fields of a validation request -/

/-- The bytes of a presence flag and its slot: a slot whose flag is clear is
zero. -/
def SlotZero (field : Bytes) : Prop := field.head? = some 0 → ∀ b ∈ field.tail, b = 0

instance (field : Bytes) : Decidable (SlotZero field) :=
  inferInstanceAs (Decidable (_ → _))

/-- A validation request ends in a flag with a slot of 8 bytes and a flag with a
slot of 16. -/
def ValidateSlotsZero (payload : Bytes) : Prop :=
  SlotZero ((payload.drop (payload.length - 26)).take 9) ∧
    SlotZero (payload.drop (payload.length - 17))

instance (payload : Bytes) : Decidable (ValidateSlotsZero payload) :=
  inferInstanceAs (Decidable (_ ∧ _))

/-- What is written for an optional field: the flag, and the slot if it is set. -/
theorem slotZero_iff {has : Nat} (hflag : has = 1 ∨ has = 0) {slot slot' : Bytes}
    (hslot : slot' = if has = 1 then slot else List.replicate slot.length 0) :
    leBytes 1 has ++ slot' = leBytes 1 has ++ slot ↔ SlotZero (leBytes 1 has ++ slot) := by
  rw [List.append_right_inj, hslot]
  rcases hflag with rfl | rfl
  · rw [if_pos rfl]
    exact iff_of_true rfl fun h => absurd (Option.some.inj h) (by decide)
  · rw [if_neg (by decide), eq_comm, List.eq_replicate_iff]
    constructor
    · exact fun h _ => h.2
    · exact fun h => ⟨rfl, h rfl⟩

section Optional

variable {d : CounterDomain} {i : IdDomain} {err : EpochError} {b r : Bytes}

theorem optionalCounter_rewritten {c : Option (MonotonicCounter d)}
    (hd : decodeOptionalCounter d err b = .ok (c, r)) :
    ∃ a a', b = a ++ r ∧ a.length = 9 ∧ a'.length = 9 ∧
      (encodeFlag c.isSome ++ encodeOptionalCounter c).Yields a' ∧ (a' = a ↔ SlotZero a) := by
  obtain ⟨has, rest, hhas, hvalue⟩ := bind_eq_ok hd
  obtain ⟨value, rest', hread, hdone⟩ := bind_eq_ok hvalue
  obtain ⟨f, hf, rfl⟩ := u8_inverts b rest has hhas
  obtain ⟨s, hs, rfl⟩ := u64_inverts rest rest' value hread
  obtain rfl := Emit.yields_bytes.mp hf
  obtain rfl := Emit.yields_bytes.mp hs
  by_cases hone : has = 1
  · rw [if_pos hone] at hdone
    cases hdone
    refine ⟨leBytes 1 has ++ leBytes 8 value.toNat, leBytes 1 has ++ leBytes 8 value.toNat,
      (List.append_assoc _ _ _).symm, by simp, by simp, ?_, ?_⟩
    · rw [encodeOptionalCounter, hone, show (MonotonicCounter.ofRaw value :
        MonotonicCounter d).raw = value from UInt64.ofNat_toNat]
      rfl
    · exact slotZero_iff (.inl hone) (if_pos hone).symm
  · rw [if_neg hone] at hdone
    obtain ⟨_, _, hcheck, hnone⟩ := bind_eq_ok hdone
    obtain ⟨hzero, rfl⟩ := require_ok hcheck
    cases hnone
    refine ⟨leBytes 1 has ++ leBytes 8 value.toNat, leBytes 1 has ++ leBytes 8 0,
      (List.append_assoc _ _ _).symm, by simp, by simp, ?_, ?_⟩
    · rw [hzero]
      rfl
    · exact slotZero_iff (.inr hzero) (by rw [if_neg hone, length_leBytes]; rfl)

theorem optionalId_rewritten {c : Option (Fixed128Id i)}
    (hd : decodeOptionalId i err b = .ok (c, r)) :
    ∃ a a', b = a ++ r ∧ a.length = 17 ∧ a'.length = 17 ∧
      (encodeFlag c.isSome ++ ByteWriter.fixed (optionalBytes c)).Yields a' ∧
      (a' = a ↔ SlotZero a) := by
  obtain ⟨has, rest, hhas, hvalue⟩ := bind_eq_ok hd
  obtain ⟨block, rest', hread, hdone⟩ := bind_eq_ok hvalue
  obtain ⟨f, hf, rfl⟩ := u8_inverts b rest has hhas
  obtain ⟨s, hs, rfl⟩ := fixed_inverts 16 rest rest' block hread
  obtain rfl := Emit.yields_bytes.mp hf
  obtain rfl := Emit.yields_bytes.mp hs
  have hsize := block.size_eq
  by_cases hone : has = 1
  · rw [if_pos hone] at hdone
    cases hdone
    refine ⟨leBytes 1 has ++ block.bytes, leBytes 1 has ++ block.bytes,
      (List.append_assoc _ _ _).symm, by simp [hsize], by simp [hsize], ?_, ?_⟩
    · rw [hone]
      rfl
    · exact slotZero_iff (.inl hone) (if_pos hone).symm
  · rw [if_neg hone] at hdone
    obtain ⟨_, _, hcheck, hnone⟩ := bind_eq_ok hdone
    obtain ⟨hzero, rfl⟩ := require_ok hcheck
    cases hnone
    refine ⟨leBytes 1 has ++ block.bytes, leBytes 1 has ++ (Block.zero 16).bytes,
      (List.append_assoc _ _ _).symm, by simp [hsize], by simp [Block.zero], ?_, ?_⟩
    · rw [hzero]
      rfl
    · exact slotZero_iff (.inr hzero) (by rw [if_neg hone, hsize]; rfl)

end Optional

theorem validateRequest_rewritten {payload : Bytes} {request : ValidateAuthorityRequest}
    (hd : readValidateRequest limits payload = .ok (request, [])) :
    (encodeValidateRequest request).Yields payload ↔ ValidateSlotsZero payload := by
  obtain ⟨token, r₁, h₁, hd₁⟩ := bind_eq_ok hd
  obtain ⟨scope, r₂, h₂, hd₂⟩ := bind_eq_ok hd₁
  obtain ⟨generation, r₃, h₃, hd₃⟩ := bind_eq_ok hd₂
  obtain ⟨grant, r₄, h₄, hdone⟩ := bind_eq_ok hd₃
  cases hdone
  obtain ⟨a₁, ha₁, rfl⟩ := token_inverts limits _ _ _ h₁
  obtain ⟨a₂, ha₂, rfl⟩ := scope_inverts limits _ _ _ _ _ h₂
  obtain ⟨a₃, b₃, rfl, hlen₃, hlen₃', hb₃, hiff₃⟩ := optionalCounter_rewritten h₃
  obtain ⟨a₄, b₄, rfl, hlen₄, hlen₄', hb₄, hiff₄⟩ := optionalId_rewritten h₄
  have hwritten : (encodeValidateRequest ⟨token, scope, generation, grant⟩).Yields
      (a₁ ++ (a₂ ++ (b₃ ++ b₄))) := by
    have h := ha₁.append (ha₂.append (hb₃.append hb₄))
    rw [Emit.append_assoc (encodeFlag generation.isSome)] at h
    rwa [encodeValidateRequest, Emit.concat, Emit.concat, Emit.concat, Emit.concat,
      Emit.concat_pair]
  -- the slots are found from the end of the payload
  have hlen : (a₁ ++ (a₂ ++ (a₃ ++ (a₄ ++ [])))).length = a₁.length + a₂.length + 26 := by
    simp only [List.length_append, List.length_nil, hlen₃, hlen₄]
    omega
  have hgeneration : ((a₁ ++ (a₂ ++ (a₃ ++ (a₄ ++ [])))).drop
      ((a₁ ++ (a₂ ++ (a₃ ++ (a₄ ++ [])))).length - 26)).take 9 = a₃ := by
    rw [hlen, Nat.add_sub_cancel, ← List.append_assoc, List.drop_left' (by simp),
      List.take_left' hlen₃]
  have hgrant : (a₁ ++ (a₂ ++ (a₃ ++ (a₄ ++ [])))).drop
      ((a₁ ++ (a₂ ++ (a₃ ++ (a₄ ++ [])))).length - 17) = a₄ := by
    rw [hlen, ← List.append_assoc, ← List.append_assoc, List.drop_left', List.append_nil]
    simp only [List.length_append, hlen₃]
    omega
  rw [ValidateSlotsZero, hgeneration, hgrant, ← hiff₃, ← hiff₄]
  constructor
  · intro h
    have heq := hwritten.unique h
    rw [List.append_right_inj, List.append_right_inj, List.append_nil] at heq
    exact List.append_inj heq (hlen₃'.trans hlen₃.symm)
  · rintro ⟨rfl, rfl⟩
    rwa [List.append_nil]

/-! ## One encoding -/

/-- Whatever the decoder makes of the payload is encoded as the payload. -/
def Reencodes {α : Type} (dec : Reader α) (enc : α → Writer) (payload : Bytes) : Prop :=
  ∀ x, decodeAll dec payload = .ok x → (enc x).Yields payload

theorem Reencodes.of_inverts {α : Type} {dec : Reader α} {enc : α → Writer} (h : Inverts dec enc)
    (payload : Bytes) : Reencodes dec enc payload :=
  fun _ hd => decodeAll_inverts h hd

/-- **Which payloads are given back**: every payload of seven requests, and a
validation request or a durable payload exactly when its unused slots are zero. -/
theorem oneEncoding (payload : Bytes) :
    (Reencodes (readRegisterRequest limits) (fun x => encodeRegisterRequest x limits) payload ∧
      Reencodes (readFenceRequest limits) (fun x => encodeFenceRequest x limits) payload ∧
      Reencodes (readRevokeRequest limits) (fun x => encodeRevokeRequest x limits) payload ∧
      Reencodes (readAdvanceRequest limits) (fun x => encodeAdvanceRequest x limits) payload ∧
      Reencodes (readRetireRequest limits) (fun x => encodeRetireRequest x limits) payload ∧
      Reencodes (decodeParticipant limits) encodeParticipant payload ∧
      Reencodes (readExplainRequest limits) encodeExplainRequest payload) ∧
    (∀ request, decodeAll (readValidateRequest limits) payload = .ok request →
      ((encodeValidateRequest request).Yields payload ↔ ValidateSlotsZero payload)) ∧
    (∀ state, decodeDurablePayload payload limits = .ok state →
      (encodeDurablePayload state = .ok payload ↔ GrantSlotsZero limits payload)) := by
  refine ⟨⟨.of_inverts (registerRequest_inverts limits) _, .of_inverts (fenceRequest_inverts limits) _,
    .of_inverts (revokeRequest_inverts limits) _, .of_inverts (advanceRequest_inverts limits) _,
    .of_inverts (retireRequest_inverts limits) _, .of_inverts (participantId_inverts limits _) _,
    .of_inverts (explainRequest_inverts limits) _⟩, ?_, ?_⟩
  · exact fun request hd => validateRequest_rewritten limits (decodeAll_ok.mp hd)
  · intro state hd
    have hread : decodeState (structuralLimits limits) payload = .ok (state, []) := by
      rw [decodeDurablePayload_eq] at hd
      exact decodeAll_ok.mp hd
    obtain ⟨gs, rest, a, hrecords, ha, hiff⟩ := decodeState_rewritten _ hread
    have hzero : GrantSlotsZero limits payload ↔ ∀ g ∈ gs, g.SlotsZero := by
      constructor
      · exact fun h => h gs rest hrecords
      · intro h gs' rest' hrecords'
        rw [hrecords] at hrecords'
        cases hrecords'
        exact h
    rw [hzero, ← hiff, List.append_nil]
    constructor
    · exact fun h => Emit.Yields.unique ha h
    · rintro rfl
      exact ha

/-- A validation request without options. -/
def testValidateRequest : ValidateAuthorityRequest where
  token := {
    epoch := .zero
    participant := ⟨str "a"⟩
    boot := .nil
    incarnation := .zero
    registrationGeneration := .zero }
  scope := ⟨.site, str "a"⟩

/-- Its payload, with this byte in the slot of the absent generation. -/
def slotPayload (slot : UInt8) : Bytes :=
  List.replicate 8 0 ++ [1, 0, 0, 0, 97] ++ List.replicate 32 0 ++ [1, 1, 0, 0, 0, 97] ++
    [0, slot] ++ List.replicate 24 0

theorem oneEncoding_test :
    decodeAll (readValidateRequest defaultLimits) (slotPayload 0) = .ok testValidateRequest ∧
      (encodeValidateRequest testValidateRequest).Yields (slotPayload 0) := by
  have hread : decodeAll (readValidateRequest defaultLimits) (slotPayload 0) =
      .ok testValidateRequest := by decide +kernel
  exact ⟨hread,
    ((oneEncoding defaultLimits (slotPayload 0)).2.1 testValidateRequest hread).mpr (by decide +kernel)⟩

/-- A payload of one grant that has no parent, with this byte in the slot of the
parent. -/
def grantPayload (slot : UInt8) : Bytes :=
  List.replicate 48 0 ++ [0, 0, 0, 0, 0, 0, 0, 0, 1, 0, 0, 0] ++ List.replicate 24 0 ++
    [1, 0, 0, 0, 97] ++ List.replicate 37 0 ++ [slot] ++ List.replicate 51 0

/-- Two payloads are decoded to one request, and two to one state; the encoder
gives the first of them. -/
theorem straySlots_accepted :
    decodeAll (readValidateRequest defaultLimits) (slotPayload 0) = .ok testValidateRequest ∧
      decodeAll (readValidateRequest defaultLimits) (slotPayload 1) = .ok testValidateRequest ∧
      ¬ (encodeValidateRequest testValidateRequest).Yields (slotPayload 1) ∧
      ∃ state, decodeDurablePayload (grantPayload 0) defaultLimits = .ok state ∧
        decodeDurablePayload (grantPayload 1) defaultLimits = .ok state ∧
        encodeDurablePayload state ≠ .ok (grantPayload 1) := by
  refine ⟨by decide +kernel, by decide +kernel, ?_, ?_⟩
  · intro hstray
    have hplain : (encodeValidateRequest testValidateRequest).Yields (slotPayload 0) := by rfl
    have hsame : slotPayload 0 = slotPayload 1 := Emit.Yields.unique hplain hstray
    exact absurd hsame (by decide +kernel)
  · refine ⟨{ grants := [{
      id := .nil, epoch := .zero, participant := ⟨str "a"⟩, boot := .nil, incarnation := .zero
      scopes := .blank, parent := none, delegatorBoot := none, provenance := .blank }] },
      by decide +kernel, by decide +kernel, by decide +kernel⟩

end Wire

end FabricEpoch
