/-!
# The XXH3 hash

The 64-bit XXH3 hash of a byte sequence with seed zero and the standard secret.
Inputs of up to 16, 128 and 240 bytes are mixed directly; longer ones pass in
stripes of 64 bytes through eight accumulators, which are scrambled after every
16 stripes and merged at the end. All arithmetic is modulo 2^64.
-/

namespace FleetRing.Xxh3

/-- The standard secret, 192 bytes. -/
def secret : ByteArray :=
  ⟨#[
    0xb8, 0xfe, 0x6c, 0x39, 0x23, 0xa4, 0x4b, 0xbe, 0x7c, 0x01, 0x81, 0x2c,
    0xf7, 0x21, 0xad, 0x1c, 0xde, 0xd4, 0x6d, 0xe9, 0x83, 0x90, 0x97, 0xdb,
    0x72, 0x40, 0xa4, 0xa4, 0xb7, 0xb3, 0x67, 0x1f, 0xcb, 0x79, 0xe6, 0x4e,
    0xcc, 0xc0, 0xe5, 0x78, 0x82, 0x5a, 0xd0, 0x7d, 0xcc, 0xff, 0x72, 0x21,
    0xb8, 0x08, 0x46, 0x74, 0xf7, 0x43, 0x24, 0x8e, 0xe0, 0x35, 0x90, 0xe6,
    0x81, 0x3a, 0x26, 0x4c, 0x3c, 0x28, 0x52, 0xbb, 0x91, 0xc3, 0x00, 0xcb,
    0x88, 0xd0, 0x65, 0x8b, 0x1b, 0x53, 0x2e, 0xa3, 0x71, 0x64, 0x48, 0x97,
    0xa2, 0x0d, 0xf9, 0x4e, 0x38, 0x19, 0xef, 0x46, 0xa9, 0xde, 0xac, 0xd8,
    0xa8, 0xfa, 0x76, 0x3f, 0xe3, 0x9c, 0x34, 0x3f, 0xf9, 0xdc, 0xbb, 0xc7,
    0xc7, 0x0b, 0x4f, 0x1d, 0x8a, 0x51, 0xe0, 0x4b, 0xcd, 0xb4, 0x59, 0x31,
    0xc8, 0x9f, 0x7e, 0xc9, 0xd9, 0x78, 0x73, 0x64, 0xea, 0xc5, 0xac, 0x83,
    0x34, 0xd3, 0xeb, 0xc3, 0xc5, 0x81, 0xa0, 0xff, 0xfa, 0x13, 0x63, 0xeb,
    0x17, 0x0d, 0xdd, 0x51, 0xb7, 0xf0, 0xda, 0x49, 0xd3, 0x16, 0x55, 0x26,
    0x29, 0xd4, 0x68, 0x9e, 0x2b, 0x16, 0xbe, 0x58, 0x7d, 0x47, 0xa1, 0xfc,
    0x8f, 0xf8, 0xb8, 0xd1, 0x7a, 0xd0, 0x31, 0xce, 0x45, 0xcb, 0x3a, 0x8f,
    0x95, 0x16, 0x04, 0x28, 0xaf, 0xd7, 0xfb, 0xca, 0xbb, 0x4b, 0x40, 0x7e]⟩

/-- The byte at an offset; nothing is read behind the end. -/
def byteAt (bytes : ByteArray) (offset : Nat) : UInt64 :=
  if inside : offset < bytes.size then bytes[offset].toUInt64 else 0

/-- The little-endian 32-bit word at an offset. -/
def word32At (bytes : ByteArray) (offset : Nat) : UInt64 :=
  byteAt bytes offset ||| byteAt bytes (offset + 1) <<< 8 |||
    byteAt bytes (offset + 2) <<< 16 ||| byteAt bytes (offset + 3) <<< 24

/-- The little-endian 64-bit word at an offset. -/
def word64At (bytes : ByteArray) (offset : Nat) : UInt64 :=
  word32At bytes offset ||| word32At bytes (offset + 4) <<< 32

/-- The word of the secret at an offset. -/
def key (offset : Nat) : UInt64 :=
  word64At secret offset

def prime32a : UInt64 := 0x9E3779B1
def prime32b : UInt64 := 0x85EBCA77
def prime32c : UInt64 := 0xC2B2AE3D
def prime64a : UInt64 := 0x9E3779B185EBCA87
def prime64b : UInt64 := 0xC2B2AE3D27D4EB4F
def prime64c : UInt64 := 0x165667B19E3779F9
def prime64d : UInt64 := 0x85EBCA77C2B2AE63
def prime64e : UInt64 := 0x27D4EB2F165667C5

/-- Rotate a word to the left. -/
def rotate (word : UInt64) (count : UInt64) : UInt64 :=
  word <<< count ||| word >>> (64 - count)

/-- Reverse the bytes of a word. -/
def swapBytes (word : UInt64) : UInt64 :=
  (List.range 8).foldl (fun acc i => acc <<< 8 ||| (word >>> (8 * i).toUInt64) &&& 0xFF) 0

/-- The two halves of the 128-bit product, combined by exclusive or. -/
def foldedProduct (a b : UInt64) : UInt64 :=
  let product := a.toNat * b.toNat
  UInt64.ofNat (product % UInt64.size) ^^^ UInt64.ofNat (product / UInt64.size)

/-- The final mixing of inputs above eight bytes. -/
def avalanche (hash : UInt64) : UInt64 :=
  let hash := (hash ^^^ hash >>> 37) * 0x165667919E3779F9
  hash ^^^ hash >>> 32

/-- The final mixing of inputs of at most three bytes. -/
def shortAvalanche (hash : UInt64) : UInt64 :=
  let hash := (hash ^^^ hash >>> 33) * prime64b
  let hash := (hash ^^^ hash >>> 29) * prime64c
  hash ^^^ hash >>> 32

/-- Sixteen bytes of input mixed with sixteen bytes of the secret. -/
def mix16 (bytes : ByteArray) (offset keyOffset : Nat) : UInt64 :=
  foldedProduct (word64At bytes offset ^^^ key keyOffset)
    (word64At bytes (offset + 8) ^^^ key (keyOffset + 8))

/-- Inputs of one to three bytes. -/
def hashUpTo3 (bytes : ByteArray) : UInt64 :=
  let size := bytes.size
  let combined := byteAt bytes 0 <<< 16 ||| byteAt bytes (size / 2) <<< 24 |||
    byteAt bytes (size - 1) ||| size.toUInt64 <<< 8
  shortAvalanche (combined ^^^ (word32At secret 0 ^^^ word32At secret 4))

/-- Inputs of four to eight bytes. -/
def hashUpTo8 (bytes : ByteArray) : UInt64 :=
  let size := bytes.size
  let combined := word32At bytes (size - 4) + word32At bytes 0 <<< 32
  let hash := combined ^^^ (key 8 ^^^ key 16)
  let hash := (hash ^^^ rotate hash 49 ^^^ rotate hash 24) * 0x9FB21C651E98DF25
  let hash := (hash ^^^ (hash >>> 35 + size.toUInt64)) * 0x9FB21C651E98DF25
  hash ^^^ hash >>> 28

/-- Inputs of nine to sixteen bytes. -/
def hashUpTo16 (bytes : ByteArray) : UInt64 :=
  let size := bytes.size
  let low := word64At bytes 0 ^^^ (key 24 ^^^ key 32)
  let high := word64At bytes (size - 8) ^^^ (key 40 ^^^ key 48)
  avalanche (size.toUInt64 + swapBytes low + high + foldedProduct low high)

/-- Inputs of 17 to 128 bytes: pairs of blocks from both ends towards the middle. -/
def hashUpTo128 (bytes : ByteArray) : UInt64 :=
  let size := bytes.size
  let pairs := (size - 1) / 32 + 1
  let mixed := (List.range pairs).foldl (fun acc i =>
    acc + mix16 bytes (16 * i) (32 * i) + mix16 bytes (size - 16 * (i + 1)) (32 * i + 16))
    (size.toUInt64 * prime64a)
  avalanche mixed

/-- Inputs of 129 to 240 bytes. -/
def hashUpTo240 (bytes : ByteArray) : UInt64 :=
  let size := bytes.size
  let front := (List.range 8).foldl (fun acc i => acc + mix16 bytes (16 * i) (16 * i))
    (size.toUInt64 * prime64a)
  let middle := (List.range (size / 16 - 8)).foldl (fun acc i =>
    acc + mix16 bytes (16 * (i + 8)) (16 * i + 3)) (avalanche front)
  avalanche (middle + mix16 bytes (size - 16) 119)

/-- The eight accumulators of a long input. -/
abbrev Lanes := Vector UInt64 8

/-- The accumulators before the first stripe. -/
def startLanes : Lanes :=
  #v[prime32c, prime64a, prime64b, prime64c, prime64d, prime32b, prime64e, prime32a]

/-- Take in one stripe: each lane adds its neighbour's word and a product of its own. -/
def absorb (lanes : Lanes) (bytes : ByteArray) (offset keyOffset : Nat) : Lanes :=
  Vector.ofFn fun lane =>
    let neighbour := if lane.val % 2 = 0 then lane.val + 1 else lane.val - 1
    let keyed := word64At bytes (offset + 8 * lane.val) ^^^ key (keyOffset + 8 * lane.val)
    lanes[lane] + word64At bytes (offset + 8 * neighbour) +
      (keyed &&& (0xFFFFFFFF : UInt64)) * (keyed >>> (32 : UInt64))

/-- Scramble the accumulators at the end of a block. -/
def scramble (lanes : Lanes) : Lanes :=
  Vector.ofFn fun lane =>
    (lanes[lane] ^^^ lanes[lane] >>> 47 ^^^ key (128 + 8 * lane.val)) * prime32a

/-- Take in `count` stripes from `offset` on. -/
def absorbStripes (lanes : Lanes) (bytes : ByteArray) (offset count : Nat) : Lanes :=
  (List.range count).foldl (fun lanes i => absorb lanes bytes (offset + 64 * i) (8 * i)) lanes

/-- Combine the accumulators into one word. -/
def merge (lanes : Lanes) (size : UInt64) : UInt64 :=
  avalanche ((List.range 4).foldl (fun acc i =>
    acc + foldedProduct (lanes.toArray.getD (2 * i) 0 ^^^ key (11 + 16 * i))
      (lanes.toArray.getD (2 * i + 1) 0 ^^^ key (19 + 16 * i))) (size * prime64a))

/-- Inputs above 240 bytes: blocks of sixteen stripes, the rest, and the last 64 bytes. -/
def hashLong (bytes : ByteArray) : UInt64 :=
  let size := bytes.size
  let blocks := (size - 1) / 1024
  let lanes := (List.range blocks).foldl (fun lanes block =>
    scramble (absorbStripes lanes bytes (1024 * block) 16)) startLanes
  let rest := (size - 1 - 1024 * blocks) / 64
  let lanes := absorbStripes lanes bytes (1024 * blocks) rest
  merge (absorb lanes bytes (size - 64) 121) size.toUInt64

/-- The hash of a byte sequence. -/
def hash (bytes : ByteArray) : UInt64 :=
  if bytes.size = 0 then shortAvalanche (key 56 ^^^ key 64)
  else if bytes.size ≤ 3 then hashUpTo3 bytes
  else if bytes.size ≤ 8 then hashUpTo8 bytes
  else if bytes.size ≤ 16 then hashUpTo16 bytes
  else if bytes.size ≤ 128 then hashUpTo128 bytes
  else if bytes.size ≤ 240 then hashUpTo240 bytes
  else hashLong bytes

end FleetRing.Xxh3
