import Mathlib.Data.Nat.Nth
import Mathlib.Data.Nat.Prime.Nth
import Mathlib.Data.Nat.Find

/-!
# The Secure Hash Standard

SHA-256 as FIPS 180-4 describes it, over words that are bit vectors and over a
message that is whole. The constants are what the standard says they are: the
first thirty-two bits of the fractional parts of roots of primes.

- `compress`: one block, with the schedule as its recurrence;
- `pad`: a one bit, the least number of zero bits, the length;
- `sha256`: the fold over the blocks of the padded message;
- `blocks_append`: whole blocks split where the message does;
- `fractionalRoot_eq`, `nth_prime`: how a constant is recognised;
- `zeros_eq`: the least number of zero bytes in closed form.
-/

namespace Fips180

abbrev Word := BitVec 32

/-! ## Functions and constants -/

def ch (x y z : Word) : Word := (x &&& y) ^^^ (~~~x &&& z)

def maj (x y z : Word) : Word := (x &&& y) ^^^ (x &&& z) ^^^ (y &&& z)

def bigSigma0 (x : Word) : Word := x.rotateRight 2 ^^^ x.rotateRight 13 ^^^ x.rotateRight 22

def bigSigma1 (x : Word) : Word := x.rotateRight 6 ^^^ x.rotateRight 11 ^^^ x.rotateRight 25

def smallSigma0 (x : Word) : Word := x.rotateRight 7 ^^^ x.rotateRight 18 ^^^ x >>> 3

def smallSigma1 (x : Word) : Word := x.rotateRight 17 ^^^ x.rotateRight 19 ^^^ x >>> 10

/-- The first thirty-two bits of the fractional part of the `n`-th root of `a`. -/
def fractionalRoot (n a : Nat) : Word :=
  BitVec.ofNat 32 (Nat.findGreatest (fun r => r ^ n ≤ a * 2 ^ (32 * n)) (a * 2 ^ (32 * n)))

/-- The constants of the rounds. -/
noncomputable def roundConstant (t : Nat) : Word := fractionalRoot 3 (Nat.nth Nat.Prime t)

/-- The eight chaining words. -/
structure Chain where
  a : Word
  b : Word
  c : Word
  d : Word
  e : Word
  f : Word
  g : Word
  h : Word

/-- The initial hash value. -/
noncomputable def initial : Chain where
  a := fractionalRoot 2 (Nat.nth Nat.Prime 0)
  b := fractionalRoot 2 (Nat.nth Nat.Prime 1)
  c := fractionalRoot 2 (Nat.nth Nat.Prime 2)
  d := fractionalRoot 2 (Nat.nth Nat.Prime 3)
  e := fractionalRoot 2 (Nat.nth Nat.Prime 4)
  f := fractionalRoot 2 (Nat.nth Nat.Prime 5)
  g := fractionalRoot 2 (Nat.nth Nat.Prime 6)
  h := fractionalRoot 2 (Nat.nth Nat.Prime 7)

/-! ## One block -/

/-- Four bytes, the first one on top. -/
def wordOf (a b c d : UInt8) : Word := a.toBitVec ++ b.toBitVec ++ c.toBitVec ++ d.toBitVec

/-- The words of a block. -/
def blockWord (block : List UInt8) (t : Nat) : Word :=
  wordOf (block.getD (4 * t) 0) (block.getD (4 * t + 1) 0) (block.getD (4 * t + 2) 0)
    (block.getD (4 * t + 3) 0)

/-- The message schedule. -/
def schedule (block : List UInt8) (t : Nat) : Word :=
  if _h : t < 16 then blockWord block t
  else smallSigma1 (schedule block (t - 2)) + schedule block (t - 7) +
    smallSigma0 (schedule block (t - 15)) + schedule block (t - 16)
termination_by t

/-- One round. -/
def step (v : Chain) (constant word : Word) : Chain :=
  let t1 := v.h + bigSigma1 v.e + ch v.e v.f v.g + constant + word
  let t2 := bigSigma0 v.a + maj v.a v.b v.c
  ⟨t1 + t2, v.a, v.b, v.c, v.d + t1, v.e, v.f, v.g⟩

/-- The first rounds. -/
noncomputable def rounds (block : List UInt8) : Nat → Chain → Chain
  | 0, v => v
  | t + 1, v => step (rounds block t v) (roundConstant t) (schedule block t)

noncomputable def compress (s : Chain) (block : List UInt8) : Chain :=
  let v := rounds block 64 s
  ⟨s.a + v.a, s.b + v.b, s.c + v.c, s.d + v.d, s.e + v.e, s.f + v.f, s.g + v.g, s.h + v.h⟩

/-! ## The message -/

/-- The blocks that a message has, one behind the other. -/
def blocks (message : List UInt8) : List (List UInt8) :=
  (List.range (message.length / 64)).map fun i => (message.drop (64 * i)).take 64

theorem exists_zeros (length : Nat) : ∃ k, (length + 1 + k) % 64 = 56 :=
  ⟨119 - length % 64, by omega⟩

/-- The least number of zero bytes between the one bit and the length. -/
def zeros (length : Nat) : Nat := Nat.find (exists_zeros length)

/-- The bytes of a word, the top one first. -/
def wordBytes (w : Word) : List UInt8 :=
  [.ofBitVec (w.extractLsb' 24 8), .ofBitVec (w.extractLsb' 16 8), .ofBitVec (w.extractLsb' 8 8),
    .ofBitVec (w.extractLsb' 0 8)]

/-- A length in sixty-four bits, the top byte first. -/
def lengthBytes (bits : Nat) : List UInt8 :=
  (List.range 8).map fun i => .ofBitVec ((BitVec.ofNat 64 bits).extractLsb' (56 - 8 * i) 8)

/-- The padded message. -/
def pad (message : List UInt8) : List UInt8 :=
  message ++ [0x80] ++ List.replicate (zeros message.length) 0 ++ lengthBytes (8 * message.length)

def Chain.bytes (s : Chain) : List UInt8 := [s.a, s.b, s.c, s.d, s.e, s.f, s.g, s.h].flatMap wordBytes

/-- **SHA-256.** -/
noncomputable def sha256 (message : List UInt8) : List UInt8 :=
  ((blocks (pad message)).foldl compress initial).bytes

/-! ## Laws -/

/-- A constant, from an integer part that fits. -/
theorem fractionalRoot_eq {n a whole : Nat} {w : Word} (hn : n ≠ 0)
    (hle : (whole * 2 ^ 32 + w.toNat) ^ n ≤ a * 2 ^ (32 * n))
    (hlt : a * 2 ^ (32 * n) < (whole * 2 ^ 32 + w.toNat + 1) ^ n) : fractionalRoot n a = w := by
  have hroot : Nat.findGreatest (fun r => r ^ n ≤ a * 2 ^ (32 * n)) (a * 2 ^ (32 * n)) =
      whole * 2 ^ 32 + w.toNat := by
    rw [Nat.findGreatest_eq_iff]
    refine ⟨(Nat.le_self_pow hn _).trans hle, fun _ => hle, fun r hr _ hpow => ?_⟩
    have hmono : (whole * 2 ^ 32 + w.toNat + 1) ^ n ≤ r ^ n := Nat.pow_le_pow_left hr n
    omega
  unfold fractionalRoot
  rw [hroot]
  apply BitVec.eq_of_toNat_eq
  rw [BitVec.toNat_ofNat]
  have := w.isLt
  omega

def firstPrimes : List Nat := [
  2, 3, 5, 7, 11, 13, 17, 19, 23, 29, 31, 37, 41, 43, 47, 53, 59, 61, 67, 71, 73, 79, 83, 89, 97, 101,
  103, 107, 109, 113, 127, 131, 137, 139, 149, 151, 157, 163, 167, 173, 179, 181, 191, 193, 197, 199,
  211, 223, 227, 229, 233, 239, 241, 251, 257, 263, 269, 271, 277, 281, 283, 293, 307, 311]

theorem mem_firstPrimes {n : Nat} (hn : n < 312) : n ∈ firstPrimes ↔ n.Prime := by
  have hall : ∀ n < 312, n ∈ firstPrimes ↔
      2 ≤ n ∧ ∀ m < 18, 2 ≤ m → m * m ≤ n → ¬ m ∣ n := by decide +kernel
  rw [hall n hn, Nat.prime_def_le_sqrt]
  refine and_congr_right fun _ => ⟨fun h m h2 hsqrt => ?_, fun h m _ h2 hsquare => ?_⟩
  · have hsquare := Nat.le_sqrt.mp hsqrt
    have hsmall : m < 18 := by
      by_contra hlarge
      have hbig := Nat.mul_le_mul (Nat.le_of_not_lt hlarge) (Nat.le_of_not_lt hlarge)
      omega
    exact h m hsmall h2 hsquare
  · exact h m h2 (Nat.le_sqrt.mpr hsquare)

/-- The primes below, by the list. -/
theorem count_prime {p : Nat} (hp : p ≤ 312) :
    Nat.count Nat.Prime p = (firstPrimes.filter fun n => n < p).length := by
  have hnodup : (firstPrimes.filter fun n => n < p).Nodup := by
    have hlist : firstPrimes.Nodup := by decide
    exact hlist.filter _
  rw [Nat.count_eq_card_filter_range, ← List.toFinset_card_of_nodup hnodup]
  congr 1
  ext n
  rw [Finset.mem_filter, Finset.mem_range, List.mem_toFinset, List.mem_filter, decide_eq_true_eq]
  constructor
  · rintro ⟨hlt, hprime⟩
    exact ⟨(mem_firstPrimes (by omega)).mpr hprime, hlt⟩
  · rintro ⟨hmem, hlt⟩
    exact ⟨hlt, (mem_firstPrimes (by omega)).mp hmem⟩

/-- The place of a prime, by counting the ones below. -/
theorem nth_prime {t : Nat} (ht : t < 64) : Nat.nth Nat.Prime t = firstPrimes.getD t 0 := by
  have hall : ∀ t < 64, firstPrimes.getD t 0 < 312 ∧ firstPrimes.getD t 0 ∈ firstPrimes ∧
      (firstPrimes.filter fun n => n < firstPrimes.getD t 0).length = t := by decide +kernel
  obtain ⟨hlt, hmem, hcount⟩ := hall t ht
  have hnth := Nat.nth_count ((mem_firstPrimes hlt).mp hmem)
  rwa [count_prime (Nat.le_of_lt hlt), hcount] at hnth

/-- The least number of zero bytes. -/
theorem zeros_eq {length k : Nat} (hk : (length + 1 + k) % 64 = 56) (hlt : k < 64) :
    zeros length = k := by
  unfold zeros
  rw [Nat.find_eq_iff]
  refine ⟨hk, fun n hn hmod => ?_⟩
  omega

theorem zeros_spec (length : Nat) : (length + 1 + zeros length) % 64 = 56 ∧ zeros length < 64 := by
  refine ⟨Nat.find_spec (exists_zeros length), ?_⟩
  have hmin := Nat.find_min' (exists_zeros length) (m := (119 - length % 64) % 64) (by omega)
  exact hmin.trans_lt (Nat.mod_lt _ (by decide))

theorem length_lengthBytes (bits : Nat) : (lengthBytes bits).length = 8 := rfl

/-- The padded message is made of whole blocks. -/
theorem length_pad (message : List UInt8) : (pad message).length % 64 = 0 := by
  have hzeros := (zeros_spec message.length).1
  simp only [pad, List.length_append, List.length_replicate, List.length_singleton,
    length_lengthBytes]
  omega

/-- **Whole blocks split where the message does.** -/
theorem blocks_append {front : List UInt8} (hfront : front.length % 64 = 0) (rest : List UInt8) :
    blocks (front ++ rest) = blocks front ++ blocks rest := by
  have hcount : (front ++ rest).length / 64 = front.length / 64 + rest.length / 64 := by
    rw [List.length_append]
    omega
  unfold blocks
  rw [hcount, List.range_add, List.map_append, List.map_map]
  congr 1
  · refine List.map_congr_left fun i hi => ?_
    rw [List.mem_range] at hi
    rw [List.drop_append_of_le_length (by omega), List.take_append_of_le_length]
    rw [List.length_drop]
    omega
  · refine List.map_congr_left fun i _ => ?_
    have hdrop : 64 * (front.length / 64 + i) = front.length + 64 * i := by omega
    simp only [Function.comp_apply]
    rw [hdrop, List.drop_append, List.drop_eq_nil_of_le (by omega), List.nil_append]
    congr 2
    omega

/-- What does not fill a block. -/
theorem blocks_short {rest : List UInt8} (h : rest.length < 64) : blocks rest = [] := by
  unfold blocks
  rw [Nat.div_eq_of_lt h]
  rfl

/-- A block that is filled. -/
theorem blocks_one {block : List UInt8} (h : block.length = 64) : blocks block = [block] := by
  unfold blocks
  rw [h]
  simp [List.range_succ, h]

end Fips180
