import FabricEpoch.Identity

/-!
# SHA-256

The streaming hasher used for durable integrity and for the semantic digests of
requests. The other modules use that equal inputs have equal digests and that a
digest has 32 bytes; `HashStream` says which digest it is.
-/

namespace FabricEpoch

namespace Sha256

def blockSize : Nat := 64

def kRoundConstants : List UInt32 := [
  0x428a2f98, 0x71374491, 0xb5c0fbcf, 0xe9b5dba5, 0x3956c25b, 0x59f111f1, 0x923f82a4, 0xab1c5ed5,
  0xd807aa98, 0x12835b01, 0x243185be, 0x550c7dc3, 0x72be5d74, 0x80deb1fe, 0x9bdc06a7, 0xc19bf174,
  0xe49b69c1, 0xefbe4786, 0x0fc19dc6, 0x240ca1cc, 0x2de92c6f, 0x4a7484aa, 0x5cb0a9dc, 0x76f988da,
  0x983e5152, 0xa831c66d, 0xb00327c8, 0xbf597fc7, 0xc6e00bf3, 0xd5a79147, 0x06ca6351, 0x14292967,
  0x27b70a85, 0x2e1b2138, 0x4d2c6dfc, 0x53380d13, 0x650a7354, 0x766a0abb, 0x81c2c92e, 0x92722c85,
  0xa2bfe8a1, 0xa81a664b, 0xc24b8b70, 0xc76c51a3, 0xd192e819, 0xd6990624, 0xf40e3585, 0x106aa070,
  0x19a4c116, 0x1e376c08, 0x2748774c, 0x34b0bcb5, 0x391c0cb3, 0x4ed8aa4a, 0x5b9cca4f, 0x682e6ff3,
  0x748f82ee, 0x78a5636f, 0x84c87814, 0x8cc70208, 0x90befffa, 0xa4506ceb, 0xbef9a3f7, 0xc67178f2]

def rotr (value count : UInt32) : UInt32 := (value >>> count) ||| (value <<< (32 - count))

/-- The eight chaining words. -/
structure Words where
  a : UInt32
  b : UInt32
  c : UInt32
  d : UInt32
  e : UInt32
  f : UInt32
  g : UInt32
  h : UInt32

/-- A hasher: the chaining words, the partially filled block, the byte count. -/
structure Hasher where
  state : Words
  buffer : List UInt8
  totalBytes : UInt64

def init : Hasher where
  state := ⟨0x6a09e667, 0xbb67ae85, 0x3c6ef372, 0xa54ff53a,
    0x510e527f, 0x9b05688c, 0x1f83d9ab, 0x5be0cd19⟩
  buffer := []
  totalBytes := 0

/-- The sixteen big-endian words of a block. -/
def blockWords (block : List UInt8) : List UInt32 :=
  (List.range 16).map fun i =>
    ((block.getD (i * 4) 0).toUInt32 <<< 24) ||| ((block.getD (i * 4 + 1) 0).toUInt32 <<< 16) |||
      ((block.getD (i * 4 + 2) 0).toUInt32 <<< 8) ||| (block.getD (i * 4 + 3) 0).toUInt32

/-- One more word of the message schedule. -/
def extend (schedule : List UInt32) (i : Nat) : List UInt32 :=
  let w15 := schedule.getD (i - 15) 0
  let w2 := schedule.getD (i - 2) 0
  let s0 := rotr w15 7 ^^^ rotr w15 18 ^^^ (w15 >>> 3)
  let s1 := rotr w2 17 ^^^ rotr w2 19 ^^^ (w2 >>> 10)
  schedule ++ [schedule.getD (i - 16) 0 + s0 + schedule.getD (i - 7) 0 + s1]

def schedule (block : List UInt8) : List UInt32 :=
  (List.range' 16 48).foldl extend (blockWords block)

def round (v : Words) (constant word : UInt32) : Words :=
  let s1 := rotr v.e 6 ^^^ rotr v.e 11 ^^^ rotr v.e 25
  let ch := (v.e &&& v.f) ^^^ (~~~v.e &&& v.g)
  let temp1 := v.h + s1 + ch + constant + word
  let s0 := rotr v.a 2 ^^^ rotr v.a 13 ^^^ rotr v.a 22
  let maj := (v.a &&& v.b) ^^^ (v.a &&& v.c) ^^^ (v.b &&& v.c)
  let temp2 := s0 + maj
  ⟨temp1 + temp2, v.a, v.b, v.c, v.d + temp1, v.e, v.f, v.g⟩

def compress (s : Words) (block : List UInt8) : Words :=
  let v := (kRoundConstants.zip (schedule block)).foldl (fun v kw => round v kw.1 kw.2) s
  ⟨s.a + v.a, s.b + v.b, s.c + v.c, s.d + v.d, s.e + v.e, s.f + v.f, s.g + v.g, s.h + v.h⟩

/-- Compress `n` whole blocks. -/
def absorb : Nat → Words → List UInt8 → Words
  | 0, s, _ => s
  | n + 1, s, data => absorb n (compress s (data.take blockSize)) (data.drop blockSize)

/-- Whole blocks are compressed, the rest is staged. The buffer is empty. -/
def updateAligned (hasher : Hasher) (data : List UInt8) : Hasher :=
  let blocks := data.length / blockSize
  { hasher with
    state := absorb blocks hasher.state data
    buffer := data.drop (blocks * blockSize) }

def update (hasher : Hasher) (data : List UInt8) : Hasher :=
  let hasher := { hasher with totalBytes := hasher.totalBytes + UInt64.ofNat data.length }
  if hasher.buffer.isEmpty then updateAligned hasher data
  else
    let room := blockSize - hasher.buffer.length
    let buffer := hasher.buffer ++ data.take room
    if buffer.length = blockSize then
      updateAligned { hasher with state := compress hasher.state buffer, buffer := [] }
        (data.drop room)
    else { hasher with buffer := buffer }

/-- Zero bytes until the staged block holds 56; at most 63 are needed. -/
def pad : Nat → Hasher → Hasher
  | 0, hasher => hasher
  | n + 1, hasher =>
    if hasher.buffer.length = 56 then hasher else pad n (update hasher [0])

def wordBytes (w : UInt32) : List UInt8 :=
  [(w >>> 24).toUInt8, (w >>> 16).toUInt8, (w >>> 8).toUInt8, w.toUInt8]

/-- The bit length, big-endian. -/
def lengthBytes (bits : UInt64) : List UInt8 :=
  (List.range 8).map fun i => (bits >>> (56 - 8 * UInt64.ofNat i)).toUInt8

def finish (hasher : Hasher) : List UInt8 :=
  let bitLength := hasher.totalBytes * 8
  let padded := pad 64 (update hasher [0x80])
  let s := (update padded (lengthBytes bitLength)).state
  [s.a, s.b, s.c, s.d, s.e, s.f, s.g, s.h].flatMap wordBytes

def hash (data : List UInt8) : Block 32 := ⟨finish (update init data), rfl⟩

end Sha256

end FabricEpoch
