import FabricEpoch.Lib.Fips180
import FabricEpoch.Sha256

/-!
# The streaming hasher

`update` tops up the staged block, compresses the whole blocks and stages the
rest; `finish` pads through the same `update`, a byte at a time. However a message
is cut into calls, the hasher is where the message has taken it (`Absorbed`), and
the digest is the one of the standard.

- `compress_eq`: `compress` is the compression function of the standard;
- `Absorbed.update`: what one call adds;
- `finish_updates`: the digest of a message in pieces.
-/

namespace FabricEpoch

namespace Sha256

open Fips180 (Chain)

def Words.chain (s : Words) : Chain :=
  ⟨s.a.toBitVec, s.b.toBitVec, s.c.toBitVec, s.d.toBitVec, s.e.toBitVec, s.f.toBitVec, s.g.toBitVec,
    s.h.toBitVec⟩

/-! ## One block -/

theorem rotr_eq (x : UInt32) {n : UInt32} (hpos : 0 < n.toNat) (hlt : n.toNat < 32) :
    (rotr x n).toBitVec = x.toBitVec.rotateRight n.toNat := by
  have hback : (4294967296 - n.toNat) % 32 = 32 - n.toNat := by omega
  unfold rotr
  rw [BitVec.rotateRight_def, Nat.mod_eq_of_lt hlt]
  apply BitVec.eq_of_toNat_eq
  simp [Nat.mod_eq_of_lt hlt, hback]

theorem round_eq (v : Words) (constant word : UInt32) :
    (round v constant word).chain = Fips180.step v.chain constant.toBitVec word.toBitVec := by
  have h1 : (rotr v.e 6 ^^^ rotr v.e 11 ^^^ rotr v.e 25).toBitVec =
      Fips180.bigSigma1 v.e.toBitVec := by
    rw [UInt32.toBitVec_xor, UInt32.toBitVec_xor, rotr_eq _ (by decide) (by decide),
      rotr_eq _ (by decide) (by decide), rotr_eq _ (by decide) (by decide)]
    rfl
  have h0 : (rotr v.a 2 ^^^ rotr v.a 13 ^^^ rotr v.a 22).toBitVec =
      Fips180.bigSigma0 v.a.toBitVec := by
    rw [UInt32.toBitVec_xor, UInt32.toBitVec_xor, rotr_eq _ (by decide) (by decide),
      rotr_eq _ (by decide) (by decide), rotr_eq _ (by decide) (by decide)]
    rfl
  unfold round Fips180.step Words.chain
  simp only [UInt32.toBitVec_add, h0, h1]
  rfl

/-- Four bytes behind one another. -/
theorem wordOf_eq (a b c d : UInt8) :
    ((a.toUInt32 <<< 24) ||| (b.toUInt32 <<< 16) ||| (c.toUInt32 <<< 8) ||| d.toUInt32).toBitVec =
      Fips180.wordOf a b c d := by
  apply BitVec.eq_of_getLsbD_eq
  intro i hi
  have hword : (Fips180.wordOf a b c d).getLsbD i =
      (a.toBitVec ++ b.toBitVec ++ c.toBitVec ++ d.toBitVec : BitVec (8 + 8 + 8 + 8)).getLsbD i := rfl
  have hbyte : ∀ (x : UInt8) (j : Nat), 8 ≤ j → x.toBitVec.getLsbD j = false :=
    fun x j hj => BitVec.getLsbD_of_ge _ _ hj
  rw [hword]
  simp only [BitVec.getLsbD_append, UInt32.toBitVec_or, UInt32.toBitVec_shiftLeft,
    UInt8.toBitVec_toUInt32, BitVec.getLsbD_or]
  -- the byte that the bit lies in
  by_cases h8 : i < 8
  · simp [h8, show i < 16 by omega, show i < 24 by omega, hi]
  by_cases h16 : i < 16
  · simp [h8, h16, show i < 24 by omega, hi, hbyte d i (by omega), show i - 8 < 8 by omega]
  by_cases h24 : i < 24
  · simp [h8, h16, h24, hi, hbyte d i (by omega), hbyte c (i - 8) (by omega),
      show ¬ i - 8 < 8 by omega, show ¬ 8 ≤ i - 16 by omega, Nat.sub_sub]
  · simp [h8, h16, h24, hi, hbyte d i (by omega), hbyte c (i - 8) (by omega),
      hbyte b (i - 16) (by omega), show ¬ i - 8 < 8 by omega, show 8 ≤ i - 16 by omega, Nat.sub_sub]

theorem blockWords_word (block : List UInt8) {t : Nat} (ht : t < 16) :
    ((blockWords block).getD t 0).toBitVec = Fips180.blockWord block t := by
  unfold blockWords Fips180.blockWord
  rw [List.getD_eq_getElem?_getD, List.getElem?_map, List.getElem?_range ht, Nat.mul_comm 4 t]
  exact wordOf_eq _ _ _ _

theorem smallSigma0_eq (x : UInt32) :
    (rotr x 7 ^^^ rotr x 18 ^^^ (x >>> 3)).toBitVec = Fips180.smallSigma0 x.toBitVec := by
  rw [UInt32.toBitVec_xor, UInt32.toBitVec_xor, rotr_eq _ (by decide) (by decide),
    rotr_eq _ (by decide) (by decide)]
  rfl

theorem smallSigma1_eq (x : UInt32) :
    (rotr x 17 ^^^ rotr x 19 ^^^ (x >>> 10)).toBitVec = Fips180.smallSigma1 x.toBitVec := by
  rw [UInt32.toBitVec_xor, UInt32.toBitVec_xor, rotr_eq _ (by decide) (by decide),
    rotr_eq _ (by decide) (by decide)]
  rfl

/-- The words of the schedule so far are those of the standard. -/
theorem extend_words {block : List UInt8} {ws : List UInt32} {n : Nat} (hn : 16 ≤ n)
    (hlength : ws.length = n)
    (h : ∀ t < n, (ws.getD t 0).toBitVec = Fips180.schedule block t) :
    (extend ws n).length = n + 1 ∧
      ∀ t < n + 1, ((extend ws n).getD t 0).toBitVec = Fips180.schedule block t := by
  unfold extend
  refine ⟨by rw [List.length_append, hlength]; rfl, fun t ht => ?_⟩
  by_cases hold : t < n
  · rw [List.getD_append _ _ _ _ (by omega)]
    exact h t hold
  · have heq : t = n := by omega
    subst heq
    rw [List.getD_append_right _ _ _ _ (by omega), hlength, Nat.sub_self, Fips180.schedule,
      dif_neg (by omega), ← h (t - 2) (by omega), ← h (t - 7) (by omega), ← h (t - 15) (by omega),
      ← h (t - 16) (by omega)]
    rw [List.getD_cons_zero, UInt32.toBitVec_add, UInt32.toBitVec_add, UInt32.toBitVec_add,
      smallSigma1_eq, smallSigma0_eq]
    -- the summands stand in another order
    ac_rfl

/-- **The schedule** of a block, as its recurrence has it. -/
theorem schedule_spec (block : List UInt8) : (schedule block).length = 64 ∧
    ∀ t < 64, ((schedule block).getD t 0).toBitVec = Fips180.schedule block t := by
  have hloop : ∀ n, ((List.range' 16 n).foldl extend (blockWords block)).length = 16 + n ∧
      ∀ t < 16 + n, (((List.range' 16 n).foldl extend (blockWords block)).getD t 0).toBitVec =
        Fips180.schedule block t := by
    intro n
    induction n with
    | zero =>
      refine ⟨rfl, fun t ht => ?_⟩
      rw [Fips180.schedule, dif_pos ht]
      exact blockWords_word block ht
    | succ n ih =>
      rw [List.range'_concat, List.foldl_append, Nat.one_mul]
      exact extend_words (by omega) ih.1 ih.2
  exact hloop 48

/-- The words of the table are what the standard calls them. -/
theorem kRoundConstants_eq {t : Nat} (ht : t < 64) :
    (kRoundConstants.getD t 0).toBitVec = Fips180.roundConstant t := by
  have hall : ∀ t < 64, ∃ whole < 8,
      (whole * 2 ^ 32 + (kRoundConstants.getD t 0).toBitVec.toNat) ^ 3 ≤
          Fips180.firstPrimes.getD t 0 * 2 ^ (32 * 3) ∧
        Fips180.firstPrimes.getD t 0 * 2 ^ (32 * 3) <
          (whole * 2 ^ 32 + (kRoundConstants.getD t 0).toBitVec.toNat + 1) ^ 3 := by decide +kernel
  obtain ⟨whole, -, hle, hlt⟩ := hall t ht
  unfold Fips180.roundConstant
  rw [Fips180.nth_prime ht]
  exact (Fips180.fractionalRoot_eq (by decide) hle hlt).symm

theorem init_eq : init.state.chain = Fips180.initial := by
  have hroot : ∀ (t whole : Nat) (w : UInt32), t < 64 →
      (whole * 2 ^ 32 + w.toBitVec.toNat) ^ 2 ≤ Fips180.firstPrimes.getD t 0 * 2 ^ (32 * 2) →
      Fips180.firstPrimes.getD t 0 * 2 ^ (32 * 2) < (whole * 2 ^ 32 + w.toBitVec.toNat + 1) ^ 2 →
      w.toBitVec = Fips180.fractionalRoot 2 (Nat.nth Nat.Prime t) := by
    intro t whole w ht hle hlt
    rw [Fips180.nth_prime ht]
    exact (Fips180.fractionalRoot_eq (by decide) hle hlt).symm
  unfold Fips180.initial Words.chain init
  rw [← hroot 0 1 0x6a09e667 (by decide) (by decide) (by decide),
    ← hroot 1 1 0xbb67ae85 (by decide) (by decide) (by decide),
    ← hroot 2 2 0x3c6ef372 (by decide) (by decide) (by decide),
    ← hroot 3 2 0xa54ff53a (by decide) (by decide) (by decide),
    ← hroot 4 3 0x510e527f (by decide) (by decide) (by decide),
    ← hroot 5 3 0x9b05688c (by decide) (by decide) (by decide),
    ← hroot 6 4 0x1f83d9ab (by decide) (by decide) (by decide),
    ← hroot 7 4 0x5be0cd19 (by decide) (by decide) (by decide)]

/-- **One block.** -/
theorem compress_eq (s : Words) (block : List UInt8) :
    (compress s block).chain = Fips180.compress s.chain block := by
  have hlength : (kRoundConstants.zip (schedule block)).length = 64 := by
    rw [List.length_zip, (schedule_spec block).1]
    rfl
  have hrounds : ∀ n ≤ 64, (((kRoundConstants.zip (schedule block)).take n).foldl
      (fun v kw => round v kw.1 kw.2) s).chain = Fips180.rounds block n s.chain := by
    intro n
    induction n with
    | zero => exact fun _ => rfl
    | succ n ih =>
      intro hn
      have hconstant : n < kRoundConstants.length := hn
      have hword : n < (schedule block).length := by
        rw [(schedule_spec block).1]
        exact hn
      rw [List.take_succ_eq_append_getElem (by omega), List.foldl_append, List.getElem_zip,
        List.foldl_cons, List.foldl_nil, round_eq, ih (by omega), Fips180.rounds,
        ← (schedule_spec block).2 n hn, ← kRoundConstants_eq hn, List.getD_eq_getElem _ _ hword,
        List.getD_eq_getElem _ _ hconstant]
  have hall := hrounds 64 (Nat.le_refl 64)
  rw [List.take_of_length_le (Nat.le_of_eq hlength)] at hall
  unfold compress Fips180.compress
  rw [← hall]
  generalize (kRoundConstants.zip (schedule block)).foldl (fun v kw => round v kw.1 kw.2) s = v
  simp only [Words.chain, UInt32.toBitVec_add]

/-! ## The message in pieces -/

/-- The hasher is where the message has taken it: the whole blocks are compressed,
and the rest is staged. -/
structure Absorbed (hasher : Hasher) (message : List UInt8) : Prop where
  total : hasher.totalBytes = UInt64.ofNat message.length
  short : hasher.buffer.length < 64
  front : ∃ front, message = front ++ hasher.buffer ∧ front.length % 64 = 0 ∧
    hasher.state = (Fips180.blocks front).foldl compress init.state

theorem absorbed_init : Absorbed init [] := ⟨rfl, by decide, [], rfl, rfl, rfl⟩

/-- The loop over the whole blocks. -/
theorem absorb_eq (s : Words) {data : List UInt8} {n : Nat} (hn : n ≤ data.length / 64) :
    absorb n s data = (Fips180.blocks (data.take (64 * n))).foldl compress s := by
  induction n generalizing s data with
  | zero => rw [absorb, Nat.mul_zero, List.take_zero, Fips180.blocks_short (by decide), List.foldl_nil]
  | succ n ih =>
    have hone : (data.take 64).length = 64 := by
      rw [List.length_take]
      omega
    have hsplit : data.take (64 * (n + 1)) = data.take 64 ++ (data.drop 64).take (64 * n) := by
      rw [Nat.mul_succ, Nat.add_comm, List.take_add]
    have hrest : n ≤ (data.drop 64).length / 64 := by
      rw [List.length_drop]
      omega
    rw [absorb, hsplit, Fips180.blocks_append (by omega), Fips180.blocks_one hone, List.foldl_append]
    exact ih _ hrest

/-- Whole blocks behind whole blocks. -/
theorem updateAligned_front (hasher : Hasher) {front : List UInt8} (hfront : front.length % 64 = 0)
    (hstate : hasher.state = (Fips180.blocks front).foldl compress init.state) (data : List UInt8) :
    (updateAligned hasher data).buffer.length < 64 ∧
      ∃ front', front ++ data = front' ++ (updateAligned hasher data).buffer ∧
        front'.length % 64 = 0 ∧
        (updateAligned hasher data).state = (Fips180.blocks front').foldl compress init.state := by
  unfold updateAligned blockSize
  have hlength : (data.take (64 * (data.length / 64))).length = 64 * (data.length / 64) := by
    rw [List.length_take]
    omega
  refine ⟨?_, front ++ data.take (64 * (data.length / 64)), ?_, ?_, ?_⟩
  · rw [List.length_drop]
    omega
  · dsimp only
    rw [List.append_assoc, Nat.mul_comm, List.take_append_drop]
  · rw [List.length_append, hlength]
    omega
  · dsimp only
    rw [absorb_eq _ (Nat.le_refl _), Fips180.blocks_append hfront, List.foldl_append, hstate]

theorem updateAligned_total (hasher : Hasher) (data : List UInt8) :
    (updateAligned hasher data).totalBytes = hasher.totalBytes := rfl

/-- **One call of `update`.** -/
theorem Absorbed.update {hasher : Hasher} {message : List UInt8} (h : Absorbed hasher message)
    (data : List UInt8) : Absorbed (update hasher data) (message ++ data) := by
  obtain ⟨front, hmessage, hfront, hstate⟩ := h.front
  have htotal : hasher.totalBytes + UInt64.ofNat data.length = UInt64.ofNat (message ++ data).length := by
    rw [h.total, List.length_append, UInt64.ofNat_add]
  have hshort := h.short
  unfold Sha256.update
  dsimp only
  cases hempty : hasher.buffer.isEmpty with
  | true =>
    -- nothing is staged
    rw [List.isEmpty_iff] at hempty
    rw [if_pos rfl]
    rw [hempty, List.append_nil] at hmessage
    obtain ⟨hless, front', hmessage', hfront', hstate'⟩ := updateAligned_front
      { hasher with totalBytes := hasher.totalBytes + UInt64.ofNat data.length } hfront hstate data
    exact ⟨htotal, hless, front', hmessage ▸ hmessage', hfront', hstate'⟩
  | false =>
    rw [if_neg Bool.false_ne_true]
    split
    · next hfull =>
      -- the staged block is filled and compressed
      unfold blockSize at hfull ⊢
      have hblock : (front ++ (hasher.buffer ++ data.take (64 - hasher.buffer.length))).length % 64 = 0 := by
        rw [List.length_append, hfull]
        omega
      have hstate₁ : compress hasher.state (hasher.buffer ++ data.take (64 - hasher.buffer.length)) =
          (Fips180.blocks (front ++ (hasher.buffer ++ data.take (64 - hasher.buffer.length)))).foldl
            compress init.state := by
        rw [Fips180.blocks_append hfront, Fips180.blocks_one hfull, List.foldl_append, hstate]
        rfl
      obtain ⟨hless, front', hmessage', hfront', hstate'⟩ := updateAligned_front
        { hasher with
          state := compress hasher.state (hasher.buffer ++ data.take (64 - hasher.buffer.length))
          buffer := []
          totalBytes := hasher.totalBytes + UInt64.ofNat data.length } hblock hstate₁
        (data.drop (64 - hasher.buffer.length))
      refine ⟨htotal, hless, front', ?_, hfront', hstate'⟩
      rw [← hmessage', hmessage]
      simp only [List.append_assoc, List.take_append_drop]
    · next hroom =>
      -- the block has room left
      unfold blockSize at hroom ⊢
      rw [List.length_append, List.length_take] at hroom
      have hall : data.take (64 - hasher.buffer.length) = data := List.take_of_length_le (by omega)
      rw [hall] at *
      refine ⟨htotal, ?_, front, ?_, hfront, hstate⟩
      · dsimp only
        rw [List.length_append]
        omega
      · rw [hmessage, List.append_assoc]

theorem Absorbed.updates {hasher : Hasher} {message : List UInt8} (h : Absorbed hasher message)
    (chunks : List (List UInt8)) :
    Absorbed (chunks.foldl Sha256.update hasher) (message ++ chunks.flatten) := by
  induction chunks generalizing hasher message with
  | nil =>
    rw [List.flatten_nil, List.append_nil]
    exact h
  | cons data chunks ih =>
    have hrest := ih (h.update data)
    rw [List.append_assoc] at hrest
    exact hrest

/-- What is staged is what the whole blocks leave over. -/
theorem Absorbed.staged {hasher : Hasher} {message : List UInt8} (h : Absorbed hasher message) :
    hasher.buffer.length = message.length % 64 := by
  obtain ⟨front, hmessage, hfront, -⟩ := h.front
  have hshort := h.short
  rw [hmessage, List.length_append]
  omega

/-! ## The digest -/

/-- **The loop that pads** runs out by itself. -/
theorem Absorbed.pad {hasher : Hasher} {message : List UInt8} (h : Absorbed hasher message) {k n : Nat}
    (hk : (message.length + k) % 64 = 56) (hlt : k < 64) (hn : k ≤ n) :
    Absorbed (Sha256.pad n hasher) (message ++ List.replicate k 0) ∧
      (Sha256.pad n hasher).buffer.length = 56 := by
  have hstaged := h.staged
  induction n generalizing hasher message k with
  | zero =>
    obtain rfl : k = 0 := by omega
    rw [List.replicate_zero, List.append_nil]
    exact ⟨h, by rw [Sha256.pad, hstaged]; omega⟩
  | succ n ih =>
    rw [Sha256.pad]
    by_cases hdone : hasher.buffer.length = 56
    · obtain rfl : k = 0 := by omega
      rw [if_pos hdone, List.replicate_zero, List.append_nil]
      exact ⟨h, hdone⟩
    · rw [if_neg hdone]
      obtain ⟨k, rfl⟩ : ∃ j, k = j + 1 := ⟨k - 1, by omega⟩
      have hstep := h.update [0]
      have hlength : (message ++ [0]).length = message.length + 1 := List.length_append
      have hrest := ih hstep (k := k) (by omega) (by omega) (by omega) hstep.staged
      rw [List.append_assoc] at hrest
      exact hrest

/-- One byte of a word, by a shift and by its place. -/
theorem shift_byte (w : UInt32) {n : UInt32} (hn : n.toNat < 32) :
    (w >>> n).toUInt8 = UInt8.ofBitVec (w.toBitVec.extractLsb' n.toNat 8) := by
  apply UInt8.toBitVec_inj.mp
  apply BitVec.eq_of_toNat_eq
  simp [Nat.mod_eq_of_lt hn]

theorem shift_byte_long (w : UInt64) {n : UInt64} (hn : n.toNat < 64) :
    (w >>> n).toUInt8 = UInt8.ofBitVec (w.toBitVec.extractLsb' n.toNat 8) := by
  apply UInt8.toBitVec_inj.mp
  apply BitVec.eq_of_toNat_eq
  simp [Nat.mod_eq_of_lt hn]

theorem wordBytes_eq (w : UInt32) : wordBytes w = Fips180.wordBytes w.toBitVec := by
  have hlast : w.toUInt8 = UInt8.ofBitVec (w.toBitVec.extractLsb' 0 8) := by
    have hshift := shift_byte w (n := 0) (by decide)
    rwa [UInt32.shiftRight_zero] at hshift
  unfold wordBytes Fips180.wordBytes
  rw [shift_byte w (by decide), shift_byte w (by decide), shift_byte w (by decide), hlast]
  rfl

theorem lengthBytes_eq (n : Nat) :
    lengthBytes (UInt64.ofNat n * 8) = Fips180.lengthBytes (8 * n) := by
  have hshift : ∀ i < 8, (56 - 8 * UInt64.ofNat i).toNat = 56 - 8 * i := by decide
  have hbits : (UInt64.ofNat n * 8).toBitVec = BitVec.ofNat 64 (8 * n) := by
    apply BitVec.eq_of_toNat_eq
    simp
    omega
  unfold lengthBytes Fips180.lengthBytes
  refine List.map_congr_left fun i hi => ?_
  have hi' := hshift i (List.mem_range.mp hi)
  rw [shift_byte_long _ (by omega), hi', hbits]

theorem foldl_chain (blocks : List (List UInt8)) (s : Words) :
    (blocks.foldl compress s).chain = blocks.foldl Fips180.compress s.chain := by
  induction blocks generalizing s with
  | nil => rfl
  | cons block blocks ih => rw [List.foldl_cons, List.foldl_cons, ih, compress_eq]

/-- The bytes of the chaining words. -/
theorem bytes_eq (s : Words) :
    [s.a, s.b, s.c, s.d, s.e, s.f, s.g, s.h].flatMap wordBytes = s.chain.bytes := by
  simp only [Words.chain, Chain.bytes, List.flatMap_cons, List.flatMap_nil, wordBytes_eq]

/-- The loop that pads has ended, and the digest is the one that the standard gives
the whole message. -/
theorem finish_absorbed {hasher : Hasher} {message : List UInt8} (h : Absorbed hasher message) :
    (pad 64 (update hasher [0x80])).buffer.length = 56 ∧ finish hasher = Fips180.sha256 message := by
  have hlength : (message ++ [0x80]).length = message.length + 1 := List.length_append
  obtain ⟨hmod, hlt⟩ := Fips180.zeros_spec message.length
  obtain ⟨hpadded, hfull⟩ := (h.update [0x80]).pad (n := 64) (by rwa [hlength]) hlt (Nat.le_of_lt hlt)
  refine ⟨hfull, ?_⟩
  -- the length fills the last block
  have hall := hpadded.update (lengthBytes (hasher.totalBytes * 8))
  rw [h.total, lengthBytes_eq] at hall
  have hstaged := hall.staged
  obtain ⟨front, hfront, -, hstate⟩ := hall.front
  have hpad : message ++ [0x80] ++ List.replicate (Fips180.zeros message.length) 0 ++
      Fips180.lengthBytes (8 * message.length) = Fips180.pad message := rfl
  rw [hpad, Fips180.length_pad] at hstaged
  rw [hpad, List.length_eq_zero_iff.mp hstaged, List.append_nil] at hfront
  rw [← hfront] at hstate
  unfold finish Fips180.sha256
  dsimp only
  rw [h.total, lengthBytes_eq, bytes_eq, hstate, foldl_chain, init_eq]

/-- **The digest of a message in pieces**: each block is compressed as the standard
has it, the loop that pads ends, and the digest is the one of the whole message. -/
theorem finish_updates :
    (∀ (s : Words) (block : List UInt8), (compress s block).chain = Fips180.compress s.chain block) ∧
      ∀ chunks : List (List UInt8),
        (pad 64 (update (chunks.foldl update init) [0x80])).buffer.length = 56 ∧
          finish (chunks.foldl update init) = Fips180.sha256 chunks.flatten :=
  ⟨compress_eq, fun chunks => finish_absorbed (absorbed_init.updates chunks)⟩

end Sha256

end FabricEpoch
