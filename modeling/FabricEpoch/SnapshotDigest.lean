import FabricEpoch.CanonicalText
import FabricEpoch.Lib.Reordering
import FabricEpoch.Runtime.Views

/-!
# What the digest of a snapshot covers

A snapshot is hashed as one string: the header, and then the participants, fences and
grants, each kind counted and sorted by its key. Equal strings are equal authority
states, whatever the order in which the records were listed.

- `ParticipantView.Alike`, `FenceRecord.Alike`: one record, what the digest leaves out aside;
- `FenceRecord.before_key`: the order of fences decides their key;
- `AuthoritySnapshot.Alike`: one authority state;
- `snapshotString_iff`: the string is the authority state.
-/

namespace FabricEpoch

open ByteCodec Reordering

/-! ## Records -/

/-- The boots that are live beside the active slot, in the order that is written. -/
def ParticipantView.sortedBoots (p : ParticipantView) : List WorkerBootId :=
  p.activeBoots.insertionSort fun a b => a.bytes.bytes ≤ b.bytes.bytes

/-- One participant: what is left out are the counters and the flag of the active slot. -/
structure ParticipantView.Alike (p q : ParticipantView) : Prop where
  id : p.id = q.id
  registrationGeneration : p.registrationGeneration = q.registrationGeneration
  fenceGeneration : p.fenceGeneration = q.fenceGeneration
  incarnationFloor : p.incarnationFloor = q.incarnationFloor
  policy : p.policy = q.policy
  retired : p.retired = q.retired
  revalidationRequired : p.revalidationRequired = q.revalidationRequired
  activeBoot : p.activeBoot = q.activeBoot
  activeIncarnation : p.activeIncarnation = q.activeIncarnation
  activeBoots : p.activeBoots.Perm q.activeBoots
  scopes : p.scopes = q.scopes

/-- One fence: what is left out is the note. -/
structure FenceRecord.Alike (f g : FenceRecord) : Prop where
  boot : f.boot = g.boot
  participant : f.participant = g.participant
  reason : f.reason = g.reason
  generation : f.generation = g.generation
  epoch : f.epoch = g.epoch
  incarnation : f.incarnation = g.incarnation

/-- A scope set that can be counted and written. -/
def ScopeSet.Fits (set : ScopeSet) : Prop :=
  set.size < 2 ^ 32 ∧ ∀ s ∈ set.scopes, s.subject.length < 2 ^ 32

structure ParticipantView.Fits (p : ParticipantView) : Prop where
  id : p.id.text.length < 2 ^ 32
  activeBoots : p.activeBoots.length < 2 ^ 32
  scopes : p.scopes.Fits

structure GrantView.Fits (g : GrantView) : Prop where
  participant : g.participant.text.length < 2 ^ 32
  scopes : g.scopes.Fits

/-! ### Orders -/

theorem Fixed128Id.le_total {d : IdDomain} (a b : Fixed128Id d) :
    a.bytes.bytes ≤ b.bytes.bytes ∨ b.bytes.bytes ≤ a.bytes.bytes := List.le_total _ _

theorem Fixed128Id.le_antisymm {d : IdDomain} {a b : Fixed128Id d}
    (hab : a.bytes.bytes ≤ b.bytes.bytes) (hba : b.bytes.bytes ≤ a.bytes.bytes) : a = b := by
  obtain ⟨⟨x, hx⟩⟩ := a
  obtain ⟨⟨y, hy⟩⟩ := b
  obtain rfl : x = y := List.le_antisymm hab hba
  rfl

instance {d : IdDomain} : Std.Total fun a b : Fixed128Id d => a.bytes.bytes ≤ b.bytes.bytes :=
  ⟨Fixed128Id.le_total⟩

instance {d : IdDomain} : IsTrans (Fixed128Id d) fun a b => a.bytes.bytes ≤ b.bytes.bytes :=
  ⟨fun _ _ _ => List.le_trans⟩

instance : Std.Total fun a b : ParticipantView => a.id ≤ b.id := ⟨fun a b => a.id.le_total b.id⟩

instance : IsTrans ParticipantView fun a b => a.id ≤ b.id := ⟨fun _ _ _ => ParticipantId.le_trans⟩

instance : Std.Total fun a b : GrantView => a.id.bytes.bytes ≤ b.id.bytes.bytes :=
  ⟨fun a b => a.id.le_total b.id⟩

instance : IsTrans GrantView fun a b => a.id.bytes.bytes ≤ b.id.bytes.bytes :=
  ⟨fun _ _ _ => List.le_trans⟩

/-- The order of fences, key by key. -/
theorem FenceRecord.before_iff {a b : FenceRecord} : a.before b = true ↔
    Lexicographic (·.participant) (· ≤ ·) (Lexicographic (·.boot)
      (fun x y => x.bytes.bytes ≤ y.bytes.bytes) fun f g => f.generation ≤ g.generation) a b := by
  unfold FenceRecord.before Lexicographic
  by_cases hparticipant : a.participant = b.participant
  · by_cases hboot : a.boot = b.boot
    · simp [hparticipant, hboot]
    · simp [hparticipant, hboot]
  · simp [hparticipant]

instance : Std.Total fun a b : FenceRecord => a.before b = true where
  total a b := by
    rw [FenceRecord.before_iff, FenceRecord.before_iff]
    exact Lexicographic.total ParticipantId.le_total (Lexicographic.total Fixed128Id.le_total
      fun f g => Nat.le_total f.generation.value g.generation.value) a b

instance : IsTrans FenceRecord fun a b => a.before b = true where
  trans a b c := by
    rw [FenceRecord.before_iff, FenceRecord.before_iff, FenceRecord.before_iff]
    intro hab hbc
    refine Lexicographic.trans (fun _ _ => ParticipantId.le_antisymm)
      (fun _ _ _ => ParticipantId.le_trans) ?_ hab hbc
    intro f g h hfg hgh
    refine Lexicographic.trans (fun _ _ => Fixed128Id.le_antisymm) (fun _ _ _ => List.le_trans) ?_
      hfg hgh
    exact fun _ _ _ => Nat.le_trans

/-- What a fence is sorted by. -/
def FenceRecord.key (f : FenceRecord) : ParticipantId × WorkerBootId × FencingGeneration :=
  (f.participant, f.boot, f.generation)

/-- **The order of fences decides their key.** -/
theorem FenceRecord.before_key {a b : FenceRecord} (hab : a.before b = true)
    (hba : b.before a = true) : a.key = b.key := by
  rw [before_iff] at hab hba
  obtain ⟨hparticipant, hab, hba⟩ :=
    Lexicographic.antisymm (fun _ _ => ParticipantId.le_antisymm) hab hba
  obtain ⟨hboot, hab, hba⟩ := Lexicographic.antisymm (fun _ _ => Fixed128Id.le_antisymm) hab hba
  have hgeneration : a.generation = b.generation :=
    MonotonicCounter.ext (Nat.le_antisymm hab hba)
  exact Prod.ext hparticipant (Prod.ext hboot hgeneration)

/-- Records that are alike have one place. -/
theorem ParticipantView.Alike.ordered {p p' q q' : ParticipantView} (hp : p.Alike q)
    (hp' : p'.Alike q') (h : p.id ≤ p'.id) : q.id ≤ q'.id := by
  rw [← hp.id, ← hp'.id]
  exact h

theorem FenceRecord.Alike.ordered {f f' g g' : FenceRecord} (hf : f.Alike g) (hf' : f'.Alike g')
    (h : f.before f' = true) : g.before g' = true := by
  unfold FenceRecord.before at h ⊢
  rw [← hf.participant, ← hf'.participant, ← hf.boot, ← hf'.boot, ← hf.generation, ← hf'.generation]
  exact h

/-! ### Encodings -/

theorem ScopeSet.Fits.emits {set : ScopeSet} (h : set.Fits) : (encodeScopeSetCanonical set).Emits :=
  Emit.Emits.list fun s hs => (emits_u8 _).append (emits_string (h.2 s hs))

theorem ParticipantView.Alike.sortedBoots {p q : ParticipantView} (h : p.Alike q) :
    p.sortedBoots = q.sortedBoots :=
  (sort_eq_iff fun _ _ => Fixed128Id.le_antisymm).mpr h.activeBoots

theorem ParticipantView.Fits.sortedBoots {p : ParticipantView} (h : p.Fits) :
    p.sortedBoots.length < 2 ^ 32 := by
  rw [ParticipantView.sortedBoots, List.length_insertionSort]
  exact h.activeBoots

theorem encodeSnapshotParticipant_eq {p q : ParticipantView} (h : p.Alike q) :
    encodeSnapshotParticipant p = encodeSnapshotParticipant q := by
  have hboots := h.sortedBoots
  unfold ParticipantView.sortedBoots at hboots
  unfold encodeSnapshotParticipant
  rw [hboots, h.id, h.registrationGeneration, h.fenceGeneration, h.incarnationFloor, h.policy,
    h.retired, h.revalidationRequired, h.activeBoot, h.activeIncarnation, h.scopes]

theorem emits_snapshotParticipant {p : ParticipantView} (h : p.Fits) :
    (encodeSnapshotParticipant p).Emits := by
  have hboots : (emitList (fun boot : WorkerBootId => (ByteWriter.fixed boot.bytes : Writer))
      (p.activeBoots.insertionSort fun a b => a.bytes.bytes ≤ b.bytes.bytes)).Emits :=
    Emit.Emits.list fun boot _ => emits_fixed _
  exact (emits_string h.id).field <| (emits_counter _).field <| (emits_counter _).field <|
    (emits_counter _).field <| (emits_u8 _).field <| (emits_u8 _).field <| (emits_u8 _).field <|
    (emits_fixed _).field <| (emits_counter _).field <| hboots.field <|
    h.scopes.emits.field <| Emit.emits_bytes _

theorem tells_snapshotParticipant {p q : ParticipantView} (hp : p.Fits) (hq : q.Fits) :
    (encodeSnapshotParticipant p).Tells (encodeSnapshotParticipant q) (p.Alike q) := by
  have hboots : (emitList (fun boot : WorkerBootId => (ByteWriter.fixed boot.bytes : Writer))
      p.sortedBoots).Tells (emitList (fun boot => ByteWriter.fixed boot.bytes) q.sortedBoots)
      (p.activeBoots.Perm q.activeBoots) := by
    refine (Emit.Tells.list hp.sortedBoots hq.sortedBoots fun x _ y _ => tells_id x y).mono
      fun hall => ?_
    exact (sort_eq_iff fun _ _ => Fixed128Id.le_antisymm).mp (List.forall₂_eq_eq_eq ▸ hall)
  refine (Emit.Tells.field (tells_participant _ _) fun _ =>
    Emit.Tells.field (tells_counter _ _) fun _ => Emit.Tells.field (tells_counter _ _) fun _ =>
    Emit.Tells.field (tells_counter _ _) fun _ =>
    Emit.Tells.field (tells_wire (fun p => p.toWire_lt.trans (by decide))
      IncarnationPolicy.fromWire_toWire p.policy q.policy) fun _ =>
    Emit.Tells.field (tells_flag _ _) fun _ => Emit.Tells.field (tells_flag _ _) fun _ =>
    Emit.Tells.field (tells_id _ _) fun _ => Emit.Tells.field (tells_counter _ _) fun _ =>
    Emit.Tells.field hboots fun _ =>
    Emit.Tells.field (tells_scopes hp.scopes.1 hq.scopes.1) fun _ => Emit.Tells.nil).mono ?_
  rintro ⟨hid, hregistration, hfence, hfloor, hpolicy, hretired, hrevalidation, hboot, hactive,
    hboots, hscopes, -⟩
  exact ⟨hid, hregistration, hfence, hfloor, hpolicy, hretired, hrevalidation, hboot, hactive,
    hboots, hscopes⟩

theorem encodeSnapshotFence_eq {f g : FenceRecord} (h : f.Alike g) :
    encodeSnapshotFence f = encodeSnapshotFence g := by
  unfold encodeSnapshotFence
  rw [h.boot, h.participant, h.reason, h.generation, h.epoch, h.incarnation]

theorem emits_snapshotFence {f : FenceRecord} (h : f.participant.text.length < 2 ^ 32) :
    (encodeSnapshotFence f).Emits :=
  (emits_fixed _).field <| (emits_string h).field <| (emits_u8 _).field <|
    (emits_counter _).field <| (emits_counter _).field <| (emits_counter _).field <|
    Emit.emits_bytes _

theorem tells_snapshotFence (f g : FenceRecord) :
    (encodeSnapshotFence f).Tells (encodeSnapshotFence g) (f.Alike g) := by
  refine (Emit.Tells.field (tells_id _ _) fun _ => Emit.Tells.field (tells_participant _ _) fun _ =>
    Emit.Tells.field (tells_wire (fun r => r.toWire_lt.trans (by decide))
      FenceReason.fromWire_toWire f.reason g.reason) fun _ =>
    Emit.Tells.field (tells_counter _ _) fun _ => Emit.Tells.field (tells_counter _ _) fun _ =>
    Emit.Tells.field (tells_counter _ _) fun _ => Emit.Tells.nil).mono ?_
  rintro ⟨hboot, hparticipant, hreason, hgeneration, hepoch, hincarnation, -⟩
  exact ⟨hboot, hparticipant, hreason, hgeneration, hepoch, hincarnation⟩

theorem emits_grantView {g : GrantView} (h : g.Fits) : (encodeGrantView g).Emits :=
  (emits_fixed _).field <| (emits_counter _).field <| (emits_string h.participant).field <|
    (emits_fixed _).field <| (emits_counter _).field <| (emits_u8 _).field <| (emits_u8 _).field <|
    h.scopes.emits.field <| Emit.emits_bytes _

/-- Of a grant, nothing is left out. -/
theorem tells_grantView {g h : GrantView} (hg : g.Fits) (hh : h.Fits) :
    (encodeGrantView g).Tells (encodeGrantView h) (g = h) := by
  refine (Emit.Tells.field (tells_id _ _) fun _ => Emit.Tells.field (tells_counter _ _) fun _ =>
    Emit.Tells.field (tells_participant _ _) fun _ => Emit.Tells.field (tells_id _ _) fun _ =>
    Emit.Tells.field (tells_counter _ _) fun _ => Emit.Tells.field (tells_flag _ _) fun _ =>
    Emit.Tells.field (tells_flag _ _) fun _ =>
    Emit.Tells.field (tells_scopes hg.scopes.1 hh.scopes.1) fun _ => Emit.Tells.nil).mono ?_
  rintro ⟨hid, hepoch, hparticipant, hboot, hgeneration, hrevoked, hdelegated, hscopes, -⟩
  cases g
  cases h
  simp only at hid hepoch hparticipant hboot hgeneration hrevoked hdelegated hscopes
  simp only [hid, hepoch, hparticipant, hboot, hgeneration, hrevoked, hdelegated, hscopes]

/-! ### Sorted lists -/

section Sorted

variable {α : Type} {r : α → α → Prop} [DecidableRel r] {enc : α → Writer} {R : α → α → Prop}
  {xs ys : List α}

theorem emits_sorted (h : ∀ x ∈ xs, (enc x).Emits) : (emitList enc (xs.insertionSort r)).Emits :=
  Emit.Emits.list fun x hx => h x ((List.mem_insertionSort _).mp hx)

theorem tells_sorted (hxs : xs.length < 2 ^ 32) (hys : ys.length < 2 ^ 32)
    (h : ∀ x ∈ xs, ∀ y ∈ ys, (enc x).Tells (enc y) (R x y)) :
    (emitList enc (xs.insertionSort r)).Tells (emitList enc (ys.insertionSort r))
      (Reordered R xs ys) := by
  refine (Emit.Tells.list ?_ ?_ fun x hx y hy => ?_).mono Reordered.of_sort
  · rw [List.length_insertionSort]
    exact hxs
  · rw [List.length_insertionSort]
    exact hys
  · exact h x ((List.mem_insertionSort _).mp hx) y ((List.mem_insertionSort _).mp hy)

/-- Records that are written alike, one by one. -/
theorem emitList_eq (henc : ∀ x y, R x y → enc x = enc y) (h : List.Forall₂ R xs ys) :
    emitList enc xs = emitList enc ys := by
  have hall : Emit.all enc xs = Emit.all enc ys := by
    induction h with
    | nil => rfl
    | cons hhead _ ih => exact congrArg₂ (· ++ ·) (henc _ _ hhead) ih
  unfold emitList
  rw [h.length_eq, hall]

/-- Where no two records have one place, the order they are listed in does not matter. -/
theorem emitList_sorted [Std.Total r] [IsTrans α r] (hseparates : Separates r ys)
    (hR : ∀ x x' y y', R x y → R x' y' → r x x' → r y y') (henc : ∀ x y, R x y → enc x = enc y)
    (h : Reordered R xs ys) :
    emitList enc (xs.insertionSort r) = emitList enc (ys.insertionSort r) :=
  emitList_eq henc (h.sort hseparates hR)

end Sorted

/-! ## Snapshots -/

namespace AuthoritySnapshot

/-- The string that `computeSnapshotDigest` hashes. -/
def canonical (snapshot : AuthoritySnapshot) : Writer := Emit.concat [
  ByteWriter.string (str "FABRIC-EPOCH-SNAPSHOT-V1"),
  ByteWriter.counter snapshot.epoch,
  ByteWriter.fixed snapshot.coordinatorBoot.bytes,
  ByteWriter.counter snapshot.generation,
  ByteWriter.counter snapshot.registrationFloor,
  ByteWriter.counter snapshot.fenceFloor,
  emitList encodeSnapshotParticipant (snapshot.participants.insertionSort fun a b => a.id ≤ b.id),
  emitList encodeSnapshotFence (snapshot.fences.insertionSort fun a b => a.before b),
  emitList encodeGrantView
    (snapshot.grants.insertionSort fun a b => a.id.bytes.bytes ≤ b.id.bytes.bytes)]

theorem computeSnapshotDigest_eq (snapshot : AuthoritySnapshot) :
    computeSnapshotDigest snapshot = computeSemanticDigest snapshot.canonical := rfl

/-- Every record has a key of its own, and everything can be counted and written. -/
structure Keyed (s : AuthoritySnapshot) : Prop where
  participantIds : (s.participants.map (·.id)).Nodup
  fenceKeys : (s.fences.map (·.key)).Nodup
  grantIds : (s.grants.map (·.id)).Nodup
  participantCount : s.participants.length < 2 ^ 32
  fenceCount : s.fences.length < 2 ^ 32
  grantCount : s.grants.length < 2 ^ 32
  participants : ∀ p ∈ s.participants, p.Fits
  fences : ∀ f ∈ s.fences, f.participant.text.length < 2 ^ 32
  grants : ∀ g ∈ s.grants, g.Fits

/-- **One authority state**, whatever the order of its records. -/
structure Alike (s t : AuthoritySnapshot) : Prop where
  epoch : s.epoch = t.epoch
  coordinatorBoot : s.coordinatorBoot = t.coordinatorBoot
  generation : s.generation = t.generation
  registrationFloor : s.registrationFloor = t.registrationFloor
  fenceFloor : s.fenceFloor = t.fenceFloor
  participants : Reordered ParticipantView.Alike s.participants t.participants
  fences : Reordered FenceRecord.Alike s.fences t.fences
  grants : s.grants.Perm t.grants

/-- A snapshot that fits has a string. -/
theorem Keyed.emits {s : AuthoritySnapshot} (h : s.Keyed) : s.canonical.Emits :=
  (emits_string (by decide)).field <| (emits_counter _).field <| (emits_fixed _).field <|
    (emits_counter _).field <| (emits_counter _).field <| (emits_counter _).field <|
    (emits_sorted fun p hp => emits_snapshotParticipant (h.participants p hp)).field <|
    (emits_sorted fun f hf => emits_snapshotFence (h.fences f hf)).field <|
    (emits_sorted fun g hg => emits_grantView (h.grants g hg)).field <| Emit.emits_bytes _

theorem Keyed.separatesParticipants {s : AuthoritySnapshot} (h : s.Keyed) :
    Separates (fun a b : ParticipantView => a.id ≤ b.id) s.participants :=
  .of_key h.participantIds fun _ _ => ParticipantId.le_antisymm

theorem Keyed.separatesFences {s : AuthoritySnapshot} (h : s.Keyed) :
    Separates (fun a b : FenceRecord => a.before b = true) s.fences :=
  .of_key h.fenceKeys fun _ _ => FenceRecord.before_key

theorem Keyed.separatesGrants {s : AuthoritySnapshot} (h : s.Keyed) :
    Separates (fun a b : GrantView => a.id.bytes.bytes ≤ b.id.bytes.bytes) s.grants :=
  .of_key h.grantIds fun _ _ => Fixed128Id.le_antisymm

/-- The strings of one authority state. -/
theorem Alike.canonical_eq {s t : AuthoritySnapshot} (ht : t.Keyed) (h : s.Alike t) :
    s.canonical = t.canonical := by
  have hparticipants := emitList_sorted ht.separatesParticipants
    (fun _ _ _ _ => ParticipantView.Alike.ordered) (fun _ _ => encodeSnapshotParticipant_eq)
    h.participants
  have hfences := emitList_sorted ht.separatesFences (fun _ _ _ _ => FenceRecord.Alike.ordered)
    (fun _ _ => encodeSnapshotFence_eq) h.fences
  have hordered : ∀ g g' k k' : GrantView, g = k → g' = k' →
      g.id.bytes.bytes ≤ g'.id.bytes.bytes → k.id.bytes.bytes ≤ k'.id.bytes.bytes := by
    rintro g g' _ _ rfl rfl hle
    exact hle
  have hgrants := emitList_sorted ht.separatesGrants hordered
    (fun _ _ => congrArg encodeGrantView) (reordered_eq.mpr h.grants)
  unfold AuthoritySnapshot.canonical
  rw [h.epoch, h.coordinatorBoot, h.generation, h.registrationFloor, h.fenceFloor, hparticipants,
    hfences, hgrants]

/-- What one string says. -/
theorem tells_snapshot {s t : AuthoritySnapshot} (hs : s.Keyed) (ht : t.Keyed) :
    s.canonical.Tells t.canonical (s.Alike t) := by
  refine (Emit.Tells.field (tells_string _ _) fun _ => Emit.Tells.field (tells_counter _ _) fun _ =>
    Emit.Tells.field (tells_id _ _) fun _ => Emit.Tells.field (tells_counter _ _) fun _ =>
    Emit.Tells.field (tells_counter _ _) fun _ => Emit.Tells.field (tells_counter _ _) fun _ =>
    Emit.Tells.field (tells_sorted hs.participantCount ht.participantCount fun p hp q hq =>
      tells_snapshotParticipant (hs.participants p hp) (ht.participants q hq)) fun _ =>
    Emit.Tells.field (tells_sorted hs.fenceCount ht.fenceCount fun f _ g _ =>
      tells_snapshotFence f g) fun _ =>
    Emit.Tells.field (tells_sorted hs.grantCount ht.grantCount fun g hg k hk =>
      tells_grantView (hs.grants g hg) (ht.grants k hk)) fun _ => Emit.Tells.nil).mono ?_
  rintro ⟨-, hepoch, hboot, hgeneration, hregistration, hfence, hparticipants, hfences, hgrants, -⟩
  exact ⟨hepoch, hboot, hgeneration, hregistration, hfence, hparticipants, hfences,
    reordered_eq.mp hgrants⟩

/-- **The hashed string is the authority state**: two snapshots have one string exactly
when they agree in every field that is covered, whatever the order of their records. -/
theorem snapshotString_iff {s t : AuthoritySnapshot} (hs : s.Keyed) (ht : t.Keyed) :
    (∃ x, s.canonical.Yields x ∧ t.canonical.Yields x) ↔ s.Alike t := by
  constructor
  · rintro ⟨x, hx, hy⟩
    exact Emit.Settles.of_tells (tells_snapshot hs ht) x hx hy
  · intro h
    obtain ⟨x, hx⟩ := hs.emits
    exact ⟨x, hx, h.canonical_eq ht ▸ hx⟩

def viewOf (name : String) : ParticipantView :=
  (DurableParticipant.fresh ⟨str name⟩ .multiIncarnation).toView

def snapshotOf (participants : List ParticipantView) : AuthoritySnapshot :=
  ⟨.nil, .zero, .nil, .zero, .zero, .zero, participants, [], [], Block.zero 32⟩

/-- The order in which two participants are listed does not matter. -/
theorem snapshotString_iff_test : ∃ x, (snapshotOf [viewOf "p", viewOf "q"]).canonical.Yields x ∧
    (snapshotOf [viewOf "q", viewOf "p"]).canonical.Yields x := by
  have hfits : (viewOf "p").Fits ∧ (viewOf "q").Fits :=
    ⟨⟨by decide, by decide, by decide, by decide⟩, ⟨by decide, by decide, by decide, by decide⟩⟩
  have hs : (snapshotOf [viewOf "p", viewOf "q"]).Keyed :=
    ⟨by decide, by decide, by decide, by decide, by decide, by decide,
      List.forall_mem_cons.mpr ⟨hfits.1, List.forall_mem_singleton.mpr hfits.2⟩,
      fun _ hf => (by cases hf), fun _ hg => (by cases hg)⟩
  have ht : (snapshotOf [viewOf "q", viewOf "p"]).Keyed :=
    ⟨by decide, by decide, by decide, by decide, by decide, by decide,
      List.forall_mem_cons.mpr ⟨hfits.2, List.forall_mem_singleton.mpr hfits.1⟩,
      fun _ hf => (by cases hf), fun _ hg => (by cases hg)⟩
  have hself : ∀ p : ParticipantView, p.Alike p := fun p =>
    ⟨rfl, rfl, rfl, rfl, rfl, rfl, rfl, rfl, rfl, .refl _, rfl⟩
  refine (snapshotString_iff hs ht).mpr ⟨rfl, rfl, rfl, rfl, rfl, ?_, ⟨[], .nil, .nil⟩, .nil⟩
  exact ⟨[viewOf "q", viewOf "p"], .swap _ _ _, .cons (hself _) (.cons (hself _) .nil)⟩

end AuthoritySnapshot

end FabricEpoch
