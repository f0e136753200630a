import FabricEpoch.Wire.Payloads

/-!
# Every payload is read back

- `Payload`: a value of one of the payload kinds, with its encoder and the
  matching decoder;
- `Payload.WellFormed`: identifiers that parse, valid texts, canonical sets and
  counts within the limits, declared enumeration values;
- `payload_roundTrip`: what is encoded is decoded again, to the last byte.

The reader has a ceiling of its own for a declared string, below what
`max_string_size` may be set to, so a text must also stay under that
(`longNote_refused`).
-/

namespace FabricEpoch

open ByteCodec

namespace Wire

/-! ## Values that fit -/

/-- A valid text, short enough for the reader. -/
structure TextOk (limits : Limits) (text : BoundedText) : Prop where
  valid : BoundedText.isValid text.text limits.maxStringSize = true
  ceiling : text.text.length ≤ ByteReader.kAbsoluteMaxBytes

/-- A set of well-formed scopes within the limit. -/
structure ScopesOk (limits : Limits) (set : ScopeSet) : Prop where
  size : set.size ≤ limits.maxScopesPerGrant
  count : set.size < 2 ^ 32
  scopes : ∀ s ∈ set.scopes, s.WellFormed

/-- At most 64 details in key order, under different keys, with short texts. -/
structure ExplanationOk (limits : Limits) (e : Explanation) : Prop where
  count : e.details.length ≤ 64
  sorted : e.details.Pairwise fun a b => a.1 ≤ b.1
  keys : (e.details.map (·.1)).Nodup
  texts : ∀ d ∈ e.details, d.1.length ≤ limits.maxStringSize ∧ d.2.length ≤ limits.maxStringSize ∧
    d.1.length ≤ ByteReader.kAbsoluteMaxBytes ∧ d.2.length ≤ ByteReader.kAbsoluteMaxBytes

/-- The value of a `std::size_t`. -/
def SizeOk (n : Nat) : Prop := n < 2 ^ 64

/-! ## Fields -/

section Fields

variable {limits : Limits}

theorem roundTrips_u8 {n : Nat} (h : n < 256) : RoundTrips ByteReader.u8 (ByteWriter.u8 n) n :=
  .of_decodes (u8_decodes h) trivial (emits_u8 n)

theorem roundTrips_u16 (w : UInt16) : RoundTrips ByteReader.u16 (ByteWriter.u16 w) w :=
  .of_decodes (u16_decodes w) trivial (Emit.emits_bytes _)

theorem roundTrips_u64 (w : UInt64) : RoundTrips ByteReader.u64 (ByteWriter.u64 w) w :=
  .of_decodes (u64_decodes w) trivial (emits_u64 w)

theorem roundTrips_counter {d : CounterDomain} (c : MonotonicCounter d) :
    RoundTrips (ByteReader.counter d) (ByteWriter.counter c) c :=
  .of_decodes (counter_decodes c) trivial (emits_counter c)

theorem roundTrips_fixed {n : Nat} (block : Block n) :
    RoundTrips (ByteReader.fixed n) (ByteWriter.fixed block) block :=
  .of_decodes (fixed_decodes block) trivial (emits_fixed block)

theorem roundTrips_id {d : IdDomain} (i : Fixed128Id d) :
    RoundTrips (ByteReader.id d) (ByteWriter.fixed i.bytes) i :=
  .of_decodes (id_decodes i) trivial (emits_fixed _)

theorem roundTrips_wire {α : Type} {fromWire : Nat → Option α} {x : α} {n : Nat}
    (err : EpochError) (h : n < 256) (hx : fromWire n = some x) :
    RoundTrips (decodeVia ByteReader.u8 fromWire err) (ByteWriter.u8 n) x :=
  .via (roundTrips_u8 h) hx

theorem roundTrips_string {maxLength : Nat} {text : Text} (h : TextFits limits maxLength text) :
    RoundTrips (ByteReader.string limits maxLength) (ByteWriter.string text) text := by
  have hceiling : ByteReader.kAbsoluteMaxBytes < 2 ^ 32 := by decide
  exact .of_decodes (string_decodes limits maxLength text) h
    (emits_string (Nat.lt_of_le_of_lt h.1 hceiling))

/-- A text of at most `n ≤ 128` bytes fits whatever the limits are. -/
theorem textFits (hlimits : 128 ≤ limits.maxStringSize) {n : Nat} (hn : n ≤ 128) {text : Text}
    (h : text.length ≤ n) : TextFits limits n text := by
  have hceiling : 128 ≤ ByteReader.kAbsoluteMaxBytes := by decide
  exact ⟨by omega, h, by omega⟩

theorem roundTrips_participant (hlimits : 128 ≤ limits.maxStringSize) {id : ParticipantId}
    (h : id.Parses) (err : EpochError) :
    RoundTrips (decodeVia (ByteReader.string limits ParticipantId.maxLength) ParticipantId.parse
      err) (ByteWriter.string id.text) id :=
  .via (roundTrips_string (textFits hlimits (Nat.le_refl 128) h.length_le))
    (ParticipantId.parse_text h)

theorem roundTrips_text {text : BoundedText} (h : TextOk limits text) :
    RoundTrips (decodeText limits) (encodeText text limits) text := by
  have hlen := BoundedText.length_le_of_isValid h.valid
  have hfits : TextFits limits limits.maxStringSize text.text := ⟨h.ceiling, hlen, hlen⟩
  rw [encodeText, if_pos h.valid]
  exact .via (roundTrips_string hfits) (if_pos h.valid)

theorem roundTrips_scope (hlimits : 128 ≤ limits.maxStringSize) {scope : AuthorityScope}
    (h : scope.WellFormed) : RoundTrips (decodeScope limits) (encodeScope scope) scope :=
  .bind (roundTrips_wire _ (Nat.lt_trans scope.kind.toWire_lt (by decide))
      (ScopeKind.fromWire_toWire scope.kind))
    (.via (roundTrips_string
      (textFits hlimits (Nat.le_refl 128) (length_le_of_isValidIdentifierText h).2))
      (AuthorityScope.parse_subject h))

theorem roundTrips_scopes (hlimits : 128 ≤ limits.maxStringSize) {set : ScopeSet}
    (h : ScopesOk limits set) :
    RoundTrips (decodeScopeSetCanonical limits) (encodeScopeSetCanonical set) set :=
  .of_decodes (decodeScopeSetCanonical_decodes limits h.count)
    ⟨h.size, fun s hs => ⟨h.scopes s hs,
      textFits hlimits (Nat.le_refl 128) (length_le_of_isValidIdentifierText (h.scopes s hs)).2⟩⟩
    (StorableState.emits_scopes h.scopes)

theorem roundTrips_flag (err : EpochError) (flag : Bool) :
    RoundTrips (decodeFlag err) (encodeFlag flag) flag := by
  have hbit : (if flag then 1 else 0) ≤ 1 := by cases flag <;> decide
  have hflag : ((if flag then 1 else 0) == 1) = flag := by cases flag <;> rfl
  rw [← Emit.concat_single (encodeFlag flag)]
  exact .field (roundTrips_u8 (by omega)) (.check hbit (.done hflag))

theorem roundTrips_optionalCounter {d : CounterDomain} (err : EpochError)
    (c : Option (MonotonicCounter d)) :
    RoundTrips (decodeOptionalCounter d err) (encodeFlag c.isSome ++ encodeOptionalCounter c) c := by
  rw [← Emit.concat_pair]
  cases c with
  | none =>
    have hzero : RoundTrips ByteReader.u8 (encodeFlag false) 0 := roundTrips_u8 (by decide)
    exact .field hzero (.field (roundTrips_u64 0) (.check rfl (.done rfl)))
  | some c =>
    have hone : RoundTrips ByteReader.u8 (encodeFlag true) 1 := roundTrips_u8 (by decide)
    exact .field hone (.field (roundTrips_u64 c.raw) (.done (by rw [MonotonicCounter.ofRaw_raw])))

theorem roundTrips_optionalId {d : IdDomain} (err : EpochError) (i : Option (Fixed128Id d)) :
    RoundTrips (decodeOptionalId d err)
      (encodeFlag i.isSome ++ ByteWriter.fixed (optionalBytes i)) i := by
  rw [← Emit.concat_pair]
  cases i with
  | none =>
    have hzero : RoundTrips ByteReader.u8 (encodeFlag false) 0 := roundTrips_u8 (by decide)
    exact .field hzero (.field (roundTrips_fixed (Block.zero 16)) (.check rfl (.done rfl)))
  | some i =>
    have hone : RoundTrips ByteReader.u8 (encodeFlag true) 1 := roundTrips_u8 (by decide)
    exact .field hone (.field (roundTrips_fixed i.bytes) (.done rfl))

theorem roundTrips_size {n : Nat} (h : SizeOk n) : RoundTrips decodeSize (encodeSize n) n := by
  have hn : (UInt64.ofNat n).toNat = n := by
    rw [UInt64.toNat_ofNat']
    exact Nat.mod_eq_of_lt h
  rw [← Emit.concat_single (encodeSize n)]
  exact .field (roundTrips_u64 _) (.done hn)

theorem roundTrips_counted {α : Type} {tooMany : EpochError} {ceiling : Nat} {dec : Reader α}
    {enc : α → Writer} {xs : List α} (hcount : xs.length < 2 ^ 32) (hceiling : xs.length ≤ ceiling)
    (h : ∀ x ∈ xs, RoundTrips dec (enc x) x) :
    RoundTrips (decodeCounted tooMany ceiling dec) (emitList enc xs) xs := by
  have hu32 : RoundTrips ByteReader.u32 (Emit.bytes (leBytes 4 xs.length)) xs.length :=
    .of_decodes (leWord_decodes truncated (by simpa using hcount)) trivial (Emit.emits_bytes _)
  exact .bind hu32 (.check hceiling (.many h))

theorem roundTrips_outcome {α : Type} {cast : UInt16 → α} {last n : Nat} (err : EpochError) {x : α}
    (hlast : last < 256) (hn : n ≤ last) (hx : cast (UInt16.ofNat n) = x) :
    RoundTrips (decodeOutcome cast last err) (ByteWriter.u8 n) x :=
  .via (roundTrips_u8 (by omega)) (by rw [if_pos hn, hx])

theorem roundTrips_token (hlimits : 128 ≤ limits.maxStringSize) {token : AuthorityToken}
    (h : token.participant.Parses) : RoundTrips (decodeToken limits) (encodeToken token) token :=
  .field (roundTrips_counter token.epoch) <| .field (roundTrips_participant hlimits h _) <|
    .field (roundTrips_id token.boot) <| .field (roundTrips_counter token.incarnation) <|
    .field (roundTrips_counter token.registrationGeneration) <| .done rfl

/-! ## Explanations -/

theorem explanationCode_roundTrip (code : ExplanationCode) :
    explanationCodeFromWire (explanationCodeToWire code) = some code := by
  cases code <;> rfl

/-- Details that are added in key order stay where they are added. -/
theorem foldl_addDetail {code : ExplanationCode} {done rest : List (Text × Text)}
    (h : (done ++ rest).Pairwise fun a b => a.1 ≤ b.1) :
    rest.foldl addDetail ⟨code, done⟩ = ⟨code, done ++ rest⟩ := by
  induction rest generalizing done with
  | nil => simp
  | cons d rest ih =>
    have hsplit : done ++ d :: rest = (done ++ [d]) ++ rest := by simp
    rw [hsplit] at h ⊢
    have hsorted : (done ++ [d]).Pairwise fun a b => a.1 ≤ b.1 := h.sublist (List.sublist_append_left _ _)
    have hadd : addDetail ⟨code, done⟩ d = ⟨code, done ++ [d]⟩ := by
      rw [addDetail, hsorted.insertionSort_eq]
    rw [List.foldl_cons, hadd]
    exact ih h

theorem roundTrips_detail {detail : Text × Text}
    (h : detail.1.length ≤ limits.maxStringSize ∧ detail.2.length ≤ limits.maxStringSize ∧
      detail.1.length ≤ ByteReader.kAbsoluteMaxBytes ∧
      detail.2.length ≤ ByteReader.kAbsoluteMaxBytes) :
    RoundTrips (decodeDetail limits) (encodeDetail limits detail) detail := by
  obtain ⟨hkey, hvalue, hkeyMax, hvalueMax⟩ := h
  rw [encodeDetail, if_neg (by omega), ← Emit.concat_pair]
  exact .field (roundTrips_string ⟨hkeyMax, hkey, hkey⟩) <|
    .field (roundTrips_string ⟨hvalueMax, hvalue, hvalue⟩) <| .done rfl

theorem roundTrips_explanation {e : Explanation} (h : ExplanationOk limits e) :
    RoundTrips (decodeExplanationPayload limits) (encodeExplanationPayload e limits) e := by
  have hcode : RoundTrips (decodeVia ByteReader.u16 explanationCodeFromWire
      (malformed "unknown explanation code on the wire"))
      (ByteWriter.u16 (explanationCodeToWire e.code)) e.code :=
    .via (roundTrips_u16 _) (explanationCode_roundTrip e.code)
  have hcount : e.details.length < 2 ^ 32 := Nat.lt_of_le_of_lt h.count (by decide)
  refine .field hcode (.field (roundTrips_counted hcount h.count fun d hd =>
    roundTrips_detail (h.texts d hd)) (.done ?_))
  exact foldl_addDetail h.sorted

/-! ## Views -/

/-- A view of a participant that fits. -/
structure ViewOk (limits : Limits) (view : ParticipantView) : Prop where
  id : view.id.Parses
  boots : view.activeBoots.length ≤ limits.maxActiveWorkers
  bootCount : view.activeBoots.length < 2 ^ 32
  scopes : ScopesOk limits view.scopes

theorem viewFlags_spec (view : ParticipantView) :
    viewFlags view < 256 ∧ viewFlags view &&& 0xF8 = 0 ∧
      (viewFlags view &&& 0x01 != 0) = view.retired ∧
      (viewFlags view &&& 0x02 != 0) = view.revalidationRequired ∧
      (viewFlags view &&& 0x04 != 0) = view.hasActiveIncarnation := by
  unfold viewFlags
  cases view.retired <;> cases view.revalidationRequired <;>
    cases view.hasActiveIncarnation <;> decide

theorem roundTrips_view (hlimits : 128 ≤ limits.maxStringSize) {view : ParticipantView}
    (h : ViewOk limits view) :
    RoundTrips (readParticipantView limits) (encodeParticipantView view) view := by
  obtain ⟨hflags, hunknown, hretired, hrevalidation, hactive⟩ := viewFlags_spec view
  exact .field (roundTrips_participant hlimits h.id _) <|
    .field (roundTrips_counter view.registrationGeneration) <|
    .field (roundTrips_counter view.fenceGeneration) <|
    .field (roundTrips_counter view.incarnationFloor) <|
    .field (roundTrips_wire _ (Nat.lt_trans view.policy.toWire_lt (by decide))
      (IncarnationPolicy.fromWire_toWire view.policy)) <|
    .field (roundTrips_u8 hflags) <| .check hunknown <|
    .field (roundTrips_id view.activeBoot) <| .field (roundTrips_counter view.activeIncarnation) <|
    .field (roundTrips_counted h.bootCount h.boots fun boot _ => roundTrips_id boot) <|
    .field (roundTrips_scopes hlimits h.scopes) <|
    .field (roundTrips_u64 view.acceptedRegistrations) <|
    .field (roundTrips_u64 view.replayHits) <|
    .done (by rw [hretired, hrevalidation, hactive])

/-- A fence that fits. -/
structure FenceOk (limits : Limits) (fence : FenceRecord) : Prop where
  participant : fence.participant.Parses
  note : TextOk limits fence.note

theorem roundTrips_fence (hlimits : 128 ≤ limits.maxStringSize) {fence : FenceRecord}
    (h : FenceOk limits fence) :
    RoundTrips (decodeWireFence limits) (encodeWireFence fence limits) fence :=
  .field (roundTrips_id fence.boot) <|
    .field (roundTrips_participant hlimits h.participant _) <|
    .field (roundTrips_wire _ (Nat.lt_trans fence.reason.toWire_lt (by decide))
      (FenceReason.fromWire_toWire fence.reason)) <|
    .field (roundTrips_counter fence.generation) <| .field (roundTrips_counter fence.epoch) <|
    .field (roundTrips_counter fence.incarnation) <| .field (roundTrips_text h.note) <| .done rfl

/-- A view of a grant that fits. -/
structure GrantOk (limits : Limits) (grant : GrantView) : Prop where
  participant : grant.participant.Parses
  scopes : ScopesOk limits grant.scopes

theorem roundTrips_grant (hlimits : 128 ≤ limits.maxStringSize) {grant : GrantView}
    (h : GrantOk limits grant) :
    RoundTrips (decodeGrantView limits) (encodeGrantView grant) grant := by
  have hbit : ∀ b : Bool, (if b then 1 else 0) < 256 ∧ ¬ (if b then 1 else 0) > 1 ∧
      ((if b then 1 else 0) == 1) = b := by decide
  obtain ⟨hrevoked, hrevoked', hrevokedBit⟩ := hbit grant.revoked
  obtain ⟨hdelegated, hdelegated', hdelegatedBit⟩ := hbit grant.delegated
  exact .field (roundTrips_id grant.id) <| .field (roundTrips_counter grant.epoch) <|
    .field (roundTrips_participant hlimits h.participant _) <|
    .field (roundTrips_id grant.boot) <| .field (roundTrips_counter grant.generation) <|
    .field (roundTrips_u8 hrevoked) <| .field (roundTrips_u8 hdelegated) <|
    .check (not_or.mpr ⟨hrevoked', hdelegated'⟩) <|
    .field (roundTrips_scopes hlimits h.scopes) <|
    .done (by rw [hrevokedBit, hdelegatedBit])

/-- A snapshot that fits. -/
structure SnapshotOk (limits : Limits) (snapshot : AuthoritySnapshot) : Prop where
  participantCount : snapshot.participants.length ≤ limits.maxParticipants
  participantWord : snapshot.participants.length < 2 ^ 32
  participants : ∀ p ∈ snapshot.participants, ViewOk limits p
  fenceCount : snapshot.fences.length ≤ limits.maxRecentFences
  fenceWord : snapshot.fences.length < 2 ^ 32
  fences : ∀ f ∈ snapshot.fences, FenceOk limits f
  grantCount : snapshot.grants.length ≤ limits.maxAuthorityGrants
  grantWord : snapshot.grants.length < 2 ^ 32
  grants : ∀ g ∈ snapshot.grants, GrantOk limits g

theorem roundTrips_snapshot (hlimits : 128 ≤ limits.maxStringSize) {snapshot : AuthoritySnapshot}
    (h : SnapshotOk limits snapshot) :
    RoundTrips (readSnapshotResponse limits) (encodeSnapshotResponse snapshot limits) snapshot :=
  .field (roundTrips_id snapshot.id) <| .field (roundTrips_counter snapshot.epoch) <|
    .field (roundTrips_id snapshot.coordinatorBoot) <|
    .field (roundTrips_counter snapshot.generation) <|
    .field (roundTrips_counter snapshot.registrationFloor) <|
    .field (roundTrips_counter snapshot.fenceFloor) <|
    .field (roundTrips_counted h.participantWord h.participantCount fun p hp =>
      roundTrips_view hlimits (h.participants p hp)) <|
    .field (roundTrips_counted h.fenceWord h.fenceCount fun f hf =>
      roundTrips_fence hlimits (h.fences f hf)) <|
    .field (roundTrips_counted h.grantWord h.grantCount fun g hg =>
      roundTrips_grant hlimits (h.grants g hg)) <|
    .field (roundTrips_fixed snapshot.digest) <| .done rfl

/-! ## Declared outcomes -/

theorem registrationOutcome_cast {o : RegistrationOutcome} (h : ∀ raw, o ≠ .undeclared raw) :
    o.toWire ≤ 11 ∧ RegistrationOutcome.ofRaw (UInt16.ofNat o.toWire) = o := by
  cases o with
  | undeclared raw => exact absurd rfl (h raw)
  | _ => exact ⟨by decide, rfl⟩

theorem fenceOutcome_cast {o : FenceOutcome} (h : ∀ raw, o ≠ .undeclared raw) :
    o.toWire ≤ 7 ∧ FenceOutcome.ofRaw (UInt16.ofNat o.toWire) = o := by
  cases o with
  | undeclared raw => exact absurd rfl (h raw)
  | _ => exact ⟨by decide, rfl⟩

theorem revokeOutcome_cast {o : RevokeOutcome} (h : ∀ raw, o ≠ .undeclared raw) :
    o.toWire ≤ 5 ∧ RevokeOutcome.ofRaw (UInt16.ofNat o.toWire) = o := by
  cases o with
  | undeclared raw => exact absurd rfl (h raw)
  | _ => exact ⟨by decide, rfl⟩

theorem retireOutcome_cast {o : RetireOutcome} (h : ∀ raw, o ≠ .undeclared raw) :
    o.toWire ≤ 5 ∧ RetireOutcome.ofRaw (UInt16.ofNat o.toWire) = o := by
  cases o with
  | undeclared raw => exact absurd rfl (h raw)
  | _ => exact ⟨by decide, rfl⟩

theorem advanceOutcome_cast {o : EpochAdvanceOutcome} (h : ∀ raw, o ≠ .undeclared raw) :
    o.toWire ≤ 4 ∧ EpochAdvanceOutcome.ofRaw (UInt16.ofNat o.toWire) = o := by
  cases o with
  | undeclared raw => exact absurd rfl (h raw)
  | _ => exact ⟨by decide, rfl⟩

theorem validationCode_cast (code : AuthorityValidationCode) :
    code.toWire < 256 ∧ validationCodeFromWire code.toWire = some code := by
  cases code <;> exact ⟨by decide, rfl⟩

theorem currentness_cast (currentness : AuthorityCurrentness) :
    currentness.toWire < 256 ∧ currentnessFromWire currentness.toWire = some currentness := by
  cases currentness <;> exact ⟨by decide, rfl⟩

/-! ## Requests and results -/

/-- What each payload needs. -/
structure HelloOk (hello : HelloPayload) : Prop where
  version : hello.wireVersion = wireProtocolVersion
  productVersion : hello.productVersion.length ≤ kMaxVersionTextLength
  role : hello.role.length ≤ kMaxRoleTextLength

theorem roundTrips_hello (hlimits : 128 ≤ limits.maxStringSize) {hello : HelloPayload}
    (h : HelloOk hello) :
    RoundTrips (readHello limits) (encodeHello hello.productVersion hello.role) hello :=
  .field (roundTrips_u16 wireProtocolVersion) <| .check rfl <|
    .field (roundTrips_string (textFits hlimits (by decide) h.productVersion)) <|
    .field (roundTrips_string (textFits hlimits (by decide) h.role)) <|
    .done (by rw [← h.version])

theorem roundTrips_helloAck (hlimits : 128 ≤ limits.maxStringSize) {ack : HelloAckPayload}
    (h : ack.productVersion.length ≤ kMaxVersionTextLength) :
    RoundTrips (readHelloAck limits) (encodeHelloAck ack) ack :=
  .field (roundTrips_counter ack.epoch) <| .field (roundTrips_id ack.coordinatorBoot) <|
    .field (roundTrips_id ack.session) <|
    .field (roundTrips_string (textFits hlimits (by decide) h)) <| .done rfl

structure RegisterRequestOk (limits : Limits) (request : RegisterParticipantRequest) : Prop where
  participant : request.participant.Parses
  scopes : ScopesOk limits request.scopes
  provenance : TextOk limits request.provenance

theorem roundTrips_registerRequest (hlimits : 128 ≤ limits.maxStringSize)
    {wire : RegisterWireRequest} (h : RegisterRequestOk limits wire.request) :
    RoundTrips (readRegisterRequest limits) (encodeRegisterRequest wire limits) wire := by
  have hpolicy := roundTrips_wire (malformed "unknown incarnation policy on the wire")
    (Nat.lt_trans wire.request.policy.toWire_lt (by decide))
    (IncarnationPolicy.fromWire_toWire wire.request.policy)
  obtain ⟨⟨attempt, expectedEpoch, participant, boot, scopes, policy, expected, provenance⟩,
    session⟩ := wire
  refine .field (roundTrips_id attempt) <| .field (roundTrips_counter expectedEpoch) <|
    .field (roundTrips_participant hlimits h.participant _) <| .field (roundTrips_id boot) <|
    .field (roundTrips_scopes hlimits h.scopes) <| .field hpolicy ?_
  have htail : ∀ {e : Option RegistrationGeneration}, e = expected →
      RoundTrips (do
        let provenance ← decodeText limits
        let session ← ByteReader.id .session
        return ({ request := { attempt, expectedEpoch, participant, boot, scopes, policy,
                               provenance, expectedRegistrationGeneration := e }
                  session } : RegisterWireRequest))
        (Emit.concat [encodeText provenance limits, ByteWriter.fixed session.bytes])
        ⟨⟨attempt, expectedEpoch, participant, boot, scopes, policy, expected, provenance⟩,
          session⟩ := by
    rintro e rfl
    exact .field (roundTrips_text h.provenance) <| .field (roundTrips_id session) <| .done rfl
  cases expected with
  | none =>
    have hzero : RoundTrips ByteReader.u8 (encodeFlag false) 0 := roundTrips_u8 (by decide)
    exact .field hzero <| .check (by decide) <| .field (roundTrips_u64 0) <|
      .check (Or.inr rfl) (htail rfl)
  | some generation =>
    have hone : RoundTrips ByteReader.u8 (encodeFlag true) 1 := roundTrips_u8 (by decide)
    exact .field hone <| .check (by decide) <| .field (roundTrips_u64 generation.raw) <|
      .check (Or.inl rfl) (htail (by rw [if_pos rfl, MonotonicCounter.ofRaw_raw]))

structure RegisterResultOk (limits : Limits) (result : RegistrationResult) : Prop where
  outcome : ∀ raw, result.outcome ≠ .undeclared raw
  explanation : ExplanationOk limits result.explanation

theorem roundTrips_registerResult {result : RegistrationResult}
    (h : RegisterResultOk limits result) :
    RoundTrips (readRegisterResult limits) (encodeRegisterResult result limits) result := by
  obtain ⟨hlast, hcast⟩ := registrationOutcome_cast h.outcome
  exact .field (roundTrips_outcome _ (by decide) hlast hcast) <|
    .field (roundTrips_counter result.epoch) <| .field (roundTrips_id result.coordinatorBoot) <|
    .fields (roundTrips_optionalCounter _ result.registrationGeneration) <|
    .fields (roundTrips_optionalCounter _ result.incarnation) <|
    .field (roundTrips_flag _ result.replayed) <|
    .field (roundTrips_explanation h.explanation) <| .done rfl

structure ValidateRequestOk (request : ValidateAuthorityRequest) : Prop where
  participant : request.token.participant.Parses
  scope : request.scope.WellFormed

theorem roundTrips_validateRequest (hlimits : 128 ≤ limits.maxStringSize)
    {request : ValidateAuthorityRequest} (h : ValidateRequestOk request) :
    RoundTrips (readValidateRequest limits) (encodeValidateRequest request) request :=
  .field (roundTrips_token hlimits h.participant) <| .field (roundTrips_scope hlimits h.scope) <|
    .fields (roundTrips_optionalCounter _ request.expectedGeneration) <|
    .fields (roundTrips_optionalId _ request.grant) <| .done rfl

theorem roundTrips_validation {validation : AuthorityValidation}
    (h : ExplanationOk limits validation.explanation) :
    RoundTrips (readValidation limits) (encodeValidation validation limits) validation := by
  obtain ⟨hcode, hcodeCast⟩ := validationCode_cast validation.code
  obtain ⟨hcurrentness, hcurrentnessCast⟩ := currentness_cast validation.currentness
  exact .field (roundTrips_wire _ hcode hcodeCast) <|
    .field (roundTrips_wire _ hcurrentness hcurrentnessCast) <|
    .field (roundTrips_counter validation.epoch) <|
    .field (roundTrips_id validation.coordinatorBoot) <|
    .fields (roundTrips_optionalCounter _ validation.registrationGeneration) <|
    .fields (roundTrips_optionalCounter _ validation.incarnation) <|
    .fields (roundTrips_optionalCounter _ validation.replacedByEpoch) <|
    .fields (roundTrips_optionalId _ validation.supersededBy) <|
    .field (roundTrips_explanation h) <| .done rfl

structure FenceRequestOk (limits : Limits) (request : FenceWorkerRequest) : Prop where
  participant : request.participant.Parses
  note : TextOk limits request.note

theorem roundTrips_fenceRequest (hlimits : 128 ≤ limits.maxStringSize)
    {request : FenceWorkerRequest} (h : FenceRequestOk limits request) :
    RoundTrips (readFenceRequest limits) (encodeFenceRequest request limits) request :=
  .field (roundTrips_id request.attempt) <| .field (roundTrips_counter request.expectedEpoch) <|
    .field (roundTrips_participant hlimits h.participant _) <|
    .field (roundTrips_id request.boot) <|
    .field (roundTrips_wire _ (Nat.lt_trans request.reason.toWire_lt (by decide))
      (FenceReason.fromWire_toWire request.reason)) <|
    .field (roundTrips_text h.note) <| .done rfl

structure FenceResultOk (limits : Limits) (result : FenceResult) : Prop where
  outcome : ∀ raw, result.outcome ≠ .undeclared raw
  explanation : ExplanationOk limits result.explanation

theorem roundTrips_fenceResult {result : FenceResult} (h : FenceResultOk limits result) :
    RoundTrips (readFenceResult limits) (encodeFenceResult result limits) result := by
  obtain ⟨hlast, hcast⟩ := fenceOutcome_cast h.outcome
  exact .field (roundTrips_outcome _ (by decide) hlast hcast) <|
    .field (roundTrips_counter result.epoch) <|
    .fields (roundTrips_optionalCounter _ result.fenceGeneration) <|
    .fields (roundTrips_optionalCounter _ result.incarnation) <|
    .field (roundTrips_explanation h.explanation) <| .done rfl

theorem roundTrips_revokeRequest {request : RevokeAuthorityRequest}
    (h : TextOk limits request.note) :
    RoundTrips (readRevokeRequest limits) (encodeRevokeRequest request limits) request :=
  .field (roundTrips_id request.attempt) <| .field (roundTrips_counter request.expectedEpoch) <|
    .field (roundTrips_id request.grant) <|
    .field (roundTrips_wire _ (Nat.lt_trans request.reason.toWire_lt (by decide))
      (FenceReason.fromWire_toWire request.reason)) <|
    .field (roundTrips_text h) <| .done rfl

structure RevokeResultOk (limits : Limits) (result : RevokeResult) : Prop where
  outcome : ∀ raw, result.outcome ≠ .undeclared raw
  derived : SizeOk result.derivedGrantsRevoked
  explanation : ExplanationOk limits result.explanation

theorem roundTrips_revokeResult {result : RevokeResult} (h : RevokeResultOk limits result) :
    RoundTrips (readRevokeResult limits) (encodeRevokeResult result limits) result := by
  obtain ⟨hlast, hcast⟩ := revokeOutcome_cast h.outcome
  exact .field (roundTrips_outcome _ (by decide) hlast hcast) <|
    .field (roundTrips_counter result.epoch) <|
    .fields (roundTrips_optionalCounter _ result.generation) <|
    .field (roundTrips_size h.derived) <|
    .field (roundTrips_explanation h.explanation) <| .done rfl

theorem roundTrips_advanceRequest {request : EpochAdvanceRequest}
    (h : TextOk limits request.provenance) :
    RoundTrips (readAdvanceRequest limits) (encodeAdvanceRequest request limits) request :=
  .field (roundTrips_id request.attempt) <| .field (roundTrips_counter request.expectedEpoch) <|
    .field (roundTrips_wire _ (Nat.lt_trans request.cause.toWire_lt (by decide))
      (EpochTransitionCause.fromWire_toWire request.cause)) <|
    .field (roundTrips_text h) <| .done rfl

structure AdvanceResultOk (limits : Limits) (result : EpochAdvanceResult) : Prop where
  outcome : ∀ raw, result.outcome ≠ .undeclared raw
  explanation : ExplanationOk limits result.explanation

theorem roundTrips_advanceResult {result : EpochAdvanceResult}
    (h : AdvanceResultOk limits result) :
    RoundTrips (readAdvanceResult limits) (encodeAdvanceResult result limits) result := by
  obtain ⟨hlast, hcast⟩ := advanceOutcome_cast h.outcome
  exact .field (roundTrips_outcome _ (by decide) hlast hcast) <|
    .field (roundTrips_counter result.epoch) <| .field (roundTrips_id result.coordinatorBoot) <|
    .fields (roundTrips_optionalId _ result.transition) <|
    .field (roundTrips_flag _ result.replayed) <|
    .field (roundTrips_explanation h.explanation) <| .done rfl

structure EpochStateOk (state : EpochState) : Prop where
  participants : SizeOk state.participantCount
  workers : SizeOk state.activeWorkerCount
  fences : SizeOk state.retainedFenceCount
  grants : SizeOk state.liveGrantCount
  transitions : SizeOk state.transitionHistoryCount

theorem roundTrips_epochState {state : EpochState} (h : EpochStateOk state) :
    RoundTrips readEpochState (encodeEpochState state) state :=
  .field (roundTrips_counter state.epoch) <| .field (roundTrips_id state.coordinatorBoot) <|
    .field (roundTrips_counter state.generation) <|
    .field (roundTrips_counter state.registrationFloor) <|
    .field (roundTrips_counter state.fenceFloor) <| .field (roundTrips_size h.participants) <|
    .field (roundTrips_size h.workers) <| .field (roundTrips_size h.fences) <|
    .field (roundTrips_size h.grants) <| .field (roundTrips_size h.transitions) <| .done rfl

theorem roundTrips_explainRequest (hlimits : 128 ≤ limits.maxStringSize)
    {request : ExplainRequestPayload} (h : request.participant.Parses) :
    RoundTrips (readExplainRequest limits) (encodeExplainRequest request) request :=
  .field (roundTrips_participant hlimits h _) <| .field (roundTrips_id request.boot) <| .done rfl

structure RetireRequestOk (limits : Limits) (request : RetireParticipantRequest) : Prop where
  participant : request.participant.Parses
  note : TextOk limits request.note

theorem roundTrips_retireRequest (hlimits : 128 ≤ limits.maxStringSize)
    {request : RetireParticipantRequest} (h : RetireRequestOk limits request) :
    RoundTrips (readRetireRequest limits) (encodeRetireRequest request limits) request :=
  .field (roundTrips_id request.attempt) <| .field (roundTrips_counter request.expectedEpoch) <|
    .field (roundTrips_participant hlimits h.participant _) <|
    .field (roundTrips_text h.note) <| .done rfl

structure RetireResultOk (limits : Limits) (result : RetireResult) : Prop where
  outcome : ∀ raw, result.outcome ≠ .undeclared raw
  fenced : SizeOk result.incarnationsFenced
  explanation : ExplanationOk limits result.explanation

theorem roundTrips_retireResult {result : RetireResult} (h : RetireResultOk limits result) :
    RoundTrips (readRetireResult limits) (encodeRetireResult result limits) result := by
  obtain ⟨hlast, hcast⟩ := retireOutcome_cast h.outcome
  exact .field (roundTrips_outcome _ (by decide) hlast hcast) <|
    .field (roundTrips_counter result.epoch) <| .field (roundTrips_size h.fenced) <|
    .field (roundTrips_explanation h.explanation) <| .done rfl

end Fields

/-! ## Payloads -/

/-- A value of one of the payload kinds. -/
inductive Payload where
  | hello (hello : HelloPayload)
  | helloAck (ack : HelloAckPayload)
  | registerRequest (wire : RegisterWireRequest)
  | registerResult (result : RegistrationResult)
  | validateRequest (request : ValidateAuthorityRequest)
  | validation (validation : AuthorityValidation)
  | fenceRequest (request : FenceWorkerRequest)
  | fenceResult (result : FenceResult)
  | revokeRequest (request : RevokeAuthorityRequest)
  | revokeResult (result : RevokeResult)
  | advanceRequest (request : EpochAdvanceRequest)
  | advanceResult (result : EpochAdvanceResult)
  | epochState (state : EpochState)
  | queryParticipant (id : ParticipantId)
  | participantView (view : ParticipantView)
  | explainRequest (request : ExplainRequestPayload)
  | explanation (explanation : Explanation)
  | snapshotResponse (snapshot : AuthoritySnapshot)
  | retireRequest (request : RetireParticipantRequest)
  | retireResult (result : RetireResult)

namespace Payload

/-- The encoder of the payload's kind. -/
def encode (limits : Limits) : Payload → Writer
  | hello v => encodeHello v.productVersion v.role
  | helloAck v => encodeHelloAck v
  | registerRequest v => encodeRegisterRequest v limits
  | registerResult v => encodeRegisterResult v limits
  | validateRequest v => encodeValidateRequest v
  | validation v => encodeValidation v limits
  | fenceRequest v => encodeFenceRequest v limits
  | fenceResult v => encodeFenceResult v limits
  | revokeRequest v => encodeRevokeRequest v limits
  | revokeResult v => encodeRevokeResult v limits
  | advanceRequest v => encodeAdvanceRequest v limits
  | advanceResult v => encodeAdvanceResult v limits
  | epochState v => encodeEpochState v
  | queryParticipant v => encodeParticipant v
  | participantView v => encodeParticipantView v
  | explainRequest v => encodeExplainRequest v
  | explanation v => encodeExplanationPayload v limits
  | snapshotResponse v => encodeSnapshotResponse v limits
  | retireRequest v => encodeRetireRequest v limits
  | retireResult v => encodeRetireResult v limits

/-- The decoder that matches the payload's kind. -/
def decodeLike (limits : Limits) (payload : Bytes) : Payload → Except EpochError Payload
  | hello _ => (decodeAll (readHello limits) payload).map hello
  | helloAck _ => (decodeAll (readHelloAck limits) payload).map helloAck
  | registerRequest _ => (decodeAll (readRegisterRequest limits) payload).map registerRequest
  | registerResult _ => (decodeAll (readRegisterResult limits) payload).map registerResult
  | validateRequest _ => (decodeAll (readValidateRequest limits) payload).map validateRequest
  | validation _ => (decodeAll (readValidation limits) payload).map validation
  | fenceRequest _ => (decodeAll (readFenceRequest limits) payload).map fenceRequest
  | fenceResult _ => (decodeAll (readFenceResult limits) payload).map fenceResult
  | revokeRequest _ => (decodeAll (readRevokeRequest limits) payload).map revokeRequest
  | revokeResult _ => (decodeAll (readRevokeResult limits) payload).map revokeResult
  | advanceRequest _ => (decodeAll (readAdvanceRequest limits) payload).map advanceRequest
  | advanceResult _ => (decodeAll (readAdvanceResult limits) payload).map advanceResult
  | epochState _ => (decodeAll readEpochState payload).map epochState
  | queryParticipant _ => (decodeAll (decodeParticipant limits) payload).map queryParticipant
  | participantView _ => (decodeAll (readParticipantView limits) payload).map participantView
  | explainRequest _ => (decodeAll (readExplainRequest limits) payload).map explainRequest
  | explanation _ => (decodeAll (decodeExplanationPayload limits) payload).map explanation
  | snapshotResponse _ => (decodeAll (readSnapshotResponse limits) payload).map snapshotResponse
  | retireRequest _ => (decodeAll (readRetireRequest limits) payload).map retireRequest
  | retireResult _ => (decodeAll (readRetireResult limits) payload).map retireResult

/-- Identifiers, scopes and texts are well formed and within the limits and the
reader's own ceilings, and enumeration values are declared. -/
def WellFormed (limits : Limits) : Payload → Prop
  | hello v => HelloOk v
  | helloAck v => v.productVersion.length ≤ kMaxVersionTextLength
  | registerRequest v => RegisterRequestOk limits v.request
  | registerResult v => RegisterResultOk limits v
  | validateRequest v => ValidateRequestOk v
  | validation v => ExplanationOk limits v.explanation
  | fenceRequest v => FenceRequestOk limits v
  | fenceResult v => FenceResultOk limits v
  | revokeRequest v => TextOk limits v.note
  | revokeResult v => RevokeResultOk limits v
  | advanceRequest v => TextOk limits v.provenance
  | advanceResult v => AdvanceResultOk limits v
  | epochState v => EpochStateOk v
  | queryParticipant v => v.Parses
  | participantView v => ViewOk limits v
  | explainRequest v => v.participant.Parses
  | explanation v => ExplanationOk limits v
  | snapshotResponse v => SnapshotOk limits v
  | retireRequest v => RetireRequestOk limits v
  | retireResult v => RetireResultOk limits v

end Payload

/-- A whole payload is read back. -/
theorem decodeAll_roundTrips {α : Type} {dec : Reader α} {enc : Writer} {x : α}
    (h : RoundTrips dec enc x) (f : α → Payload) :
    ∃ b, enc.Yields b ∧ (decodeAll dec b).map f = .ok (f x) := by
  obtain ⟨b, hb, hread⟩ := h
  have hall : decodeAll dec b = .ok x := by
    refine decodeAll_ok.mpr ?_
    have hnil := hread []
    rwa [List.append_nil] at hnil
  exact ⟨b, hb, by rw [hall]; rfl⟩

/-- **Every well-formed payload is encoded, and decoded to the same value.** -/
theorem payload_roundTrip (limits : Limits) (hlimits : 128 ≤ limits.maxStringSize) (p : Payload)
    (h : p.WellFormed limits) :
    ∃ b, (p.encode limits).Yields b ∧ p.decodeLike limits b = .ok p := by
  cases p with
  | hello v => exact decodeAll_roundTrips (roundTrips_hello hlimits h) _
  | helloAck v => exact decodeAll_roundTrips (roundTrips_helloAck hlimits h) _
  | registerRequest v => exact decodeAll_roundTrips (roundTrips_registerRequest hlimits h) _
  | registerResult v => exact decodeAll_roundTrips (roundTrips_registerResult h) _
  | validateRequest v => exact decodeAll_roundTrips (roundTrips_validateRequest hlimits h) _
  | validation v => exact decodeAll_roundTrips (roundTrips_validation h) _
  | fenceRequest v => exact decodeAll_roundTrips (roundTrips_fenceRequest hlimits h) _
  | fenceResult v => exact decodeAll_roundTrips (roundTrips_fenceResult h) _
  | revokeRequest v => exact decodeAll_roundTrips (roundTrips_revokeRequest h) _
  | revokeResult v => exact decodeAll_roundTrips (roundTrips_revokeResult h) _
  | advanceRequest v => exact decodeAll_roundTrips (roundTrips_advanceRequest h) _
  | advanceResult v => exact decodeAll_roundTrips (roundTrips_advanceResult h) _
  | epochState v => exact decodeAll_roundTrips (roundTrips_epochState h) _
  | queryParticipant v => exact decodeAll_roundTrips (roundTrips_participant hlimits h _) _
  | participantView v => exact decodeAll_roundTrips (roundTrips_view hlimits h) _
  | explainRequest v => exact decodeAll_roundTrips (roundTrips_explainRequest hlimits h) _
  | explanation v => exact decodeAll_roundTrips (roundTrips_explanation h) _
  | snapshotResponse v => exact decodeAll_roundTrips (roundTrips_snapshot hlimits h) _
  | retireRequest v => exact decodeAll_roundTrips (roundTrips_retireRequest hlimits h) _
  | retireResult v => exact decodeAll_roundTrips (roundTrips_retireResult h) _

/-- A registration with a note and an expected generation. -/
def testWireRequest : RegisterWireRequest where
  request := {
    attempt := .nil
    expectedEpoch := .zero
    participant := ⟨str "worker-1"⟩
    boot := .nil
    scopes := .blank
    expectedRegistrationGeneration := some .zero
    provenance := ⟨str "test"⟩ }
  session := .nil

theorem payload_roundTrip_test : 128 ≤ defaultLimits.maxStringSize ∧
    ∃ b, ((Payload.registerRequest testWireRequest).encode defaultLimits).Yields b ∧
      (Payload.registerRequest testWireRequest).decodeLike defaultLimits b =
        .ok (.registerRequest testWireRequest) :=
  ⟨by decide, payload_roundTrip defaultLimits (by decide) (.registerRequest testWireRequest)
    ⟨by decide +kernel, ⟨by decide, by decide, fun _ hs => (nomatch hs)⟩,
      ⟨by decide +kernel, by decide +kernel⟩⟩⟩

/-! ## The reader's own ceiling -/

/-- A longer note than the reader takes is encoded, and refused by the decoder. -/
theorem longText_refused {limits : Limits} (hlimits : 128 ≤ limits.maxStringSize)
    {request : RetireParticipantRequest} (hparses : request.participant.Parses)
    (hvalid : BoundedText.isValid request.note.text limits.maxStringSize = true)
    (hlong : ByteReader.kAbsoluteMaxBytes < request.note.text.length)
    (hword : request.note.text.length < 2 ^ 32) :
    ∃ b, ((Payload.retireRequest request).encode limits).Yields b ∧
      (Payload.retireRequest request).decodeLike limits b =
        .error (resourceLimit "declared string length exceeds absolute ceiling") := by
  obtain ⟨a, ha, hreadA⟩ := roundTrips_id request.attempt
  obtain ⟨c, hc, hreadC⟩ := roundTrips_counter request.expectedEpoch
  obtain ⟨p, hp, hreadP⟩ : RoundTrips (decodeParticipant limits) _ request.participant :=
    roundTrips_participant hlimits hparses _
  generalize hfield : leBytes 4 request.note.text.length ++ request.note.text = field
  have hnote : (encodeText request.note limits).Yields field := by
    rw [encodeText, if_pos hvalid, ByteWriter.string, if_neg (by omega), ← hfield]
    rfl
  have hstring : ∀ rest, ByteReader.string limits limits.maxStringSize (field ++ rest) =
      .error (resourceLimit "declared string length exceeds absolute ceiling") := by
    intro rest
    have hdeclared : ByteReader.u32
        (leBytes 4 request.note.text.length ++ (request.note.text ++ rest)) =
          .ok (request.note.text.length, request.note.text ++ rest) :=
      (leWord_decodes truncated hword).accepts trivial _ rfl
    rw [← hfield, List.append_assoc, ByteReader.string, bind_apply_ok hdeclared, bind_apply,
      require, if_neg (by omega)]
  have hread : readRetireRequest limits (a ++ (c ++ (p ++ (field ++ [])))) =
      .error (resourceLimit "declared string length exceeds absolute ceiling") := by
    rw [readRetireRequest, bind_apply_ok (hreadA _), bind_apply_ok (hreadC _),
      bind_apply_ok (hreadP _), bind_apply, decodeText, decodeVia, bind_apply, hstring]
  refine ⟨_, ha.append (hc.append (hp.append (hnote.append (Emit.yields_bytes.mpr rfl)))), ?_⟩
  show (decodeAll (readRetireRequest limits) _).map Payload.retireRequest = _
  rw [decodeAll, bind_apply, hread]
  rfl

/-- Limits that allow longer strings than the reader takes. -/
def generousLimits : Limits := { defaultLimits with maxStringSize := 2 ^ 27 }

/-- A request with a note of `n` bytes. -/
def longNoteRequest (n : Nat) : RetireParticipantRequest where
  attempt := .nil
  expectedEpoch := .zero
  participant := ⟨str "worker-1"⟩
  note := ⟨List.replicate n 65⟩

theorem longNote_valid {n maxLength : Nat} (h : n ≤ maxLength) :
    BoundedText.isValid (longNoteRequest n).note.text maxLength = true := by
  have hle : ¬ (longNoteRequest n).note.text.length > maxLength := by
    rw [show (longNoteRequest n).note.text.length = n from List.length_replicate]
    omega
  rw [BoundedText.isValid, if_neg hle]
  refine List.all_eq_true.mpr fun c hc => ?_
  rw [List.eq_of_mem_replicate hc]
  decide

/-- The texts of a request can all be valid under the limits, the encoder take
them, and the decoder refuse what the encoder wrote. -/
theorem longNote_refused : ∃ limits request, isViable limits = true ∧
    128 ≤ limits.maxStringSize ∧ request.participant.Parses ∧
    BoundedText.isValid request.note.text limits.maxStringSize = true ∧
    ∃ b, ((Payload.retireRequest request).encode limits).Yields b ∧
      (Payload.retireRequest request).decodeLike limits b =
        .error (resourceLimit "declared string length exceeds absolute ceiling") := by
  obtain ⟨n, hn⟩ : ∃ n, n = ByteReader.kAbsoluteMaxBytes + 1 := ⟨_, rfl⟩
  have hlimit : generousLimits.maxStringSize = 2 ^ 27 := rfl
  have hceiling : ByteReader.kAbsoluteMaxBytes = 2 ^ 26 := by decide
  have hlen : (longNoteRequest n).note.text.length = n := List.length_replicate
  have hparses : (longNoteRequest n).participant.Parses := by
    show isValidIdentifierText (str "worker-1") 128 = true
    decide +kernel
  have hvalid : BoundedText.isValid (longNoteRequest n).note.text generousLimits.maxStringSize =
      true := longNote_valid (by omega)
  exact ⟨generousLimits, longNoteRequest n, by decide, by decide, hparses, hvalid,
    longText_refused (by decide) hparses hvalid (by omega) (by omega)⟩

end Wire

end FabricEpoch
