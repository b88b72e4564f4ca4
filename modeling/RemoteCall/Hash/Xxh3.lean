import RemoteCall.Bytes

/-!
XXH3 with 64 bits, without a seed and with the secret of the standard.

The hash has one rule for each range of lengths: up to 16 bytes, up to 128, up to 240,
and beyond.  All words are little-endian, and all arithmetic on them wraps.
-/

namespace RemoteCall
namespace Hash
namespace Xxh3

/-- The secret of the standard, 192 bytes. -/
def secret : Bytes :=
  [0xb8, 0xfe, 0x6c, 0x39, 0x23, 0xa4, 0x4b, 0xbe, 0x7c, 0x01, 0x81, 0x2c, 0xf7, 0x21, 0xad, 0x1c,
   0xde, 0xd4, 0x6d, 0xe9, 0x83, 0x90, 0x97, 0xdb, 0x72, 0x40, 0xa4, 0xa4, 0xb7, 0xb3, 0x67, 0x1f,
   0xcb, 0x79, 0xe6, 0x4e, 0xcc, 0xc0, 0xe5, 0x78, 0x82, 0x5a, 0xd0, 0x7d, 0xcc, 0xff, 0x72, 0x21,
   0xb8, 0x08, 0x46, 0x74, 0xf7, 0x43, 0x24, 0x8e, 0xe0, 0x35, 0x90, 0xe6, 0x81, 0x3a, 0x26, 0x4c,
   0x3c, 0x28, 0x52, 0xbb, 0x91, 0xc3, 0x00, 0xcb, 0x88, 0xd0, 0x65, 0x8b, 0x1b, 0x53, 0x2e, 0xa3,
   0x71, 0x64, 0x48, 0x97, 0xa2, 0x0d, 0xf9, 0x4e, 0x38, 0x19, 0xef, 0x46, 0xa9, 0xde, 0xac, 0xd8,
   0xa8, 0xfa, 0x76, 0x3f, 0xe3, 0x9c, 0x34, 0x3f, 0xf9, 0xdc, 0xbb, 0xc7, 0xc7, 0x0b, 0x4f, 0x1d,
   0x8a, 0x51, 0xe0, 0x4b, 0xcd, 0xb4, 0x59, 0x31, 0xc8, 0x9f, 0x7e, 0xc9, 0xd9, 0x78, 0x73, 0x64,
   0xea, 0xc5, 0xac, 0x83, 0x34, 0xd3, 0xeb, 0xc3, 0xc5, 0x81, 0xa0, 0xff, 0xfa, 0x13, 0x63, 0xeb,
   0x17, 0x0d, 0xdd, 0x51, 0xb7, 0xf0, 0xda, 0x49, 0xd3, 0x16, 0x55, 0x26, 0x29, 0xd4, 0x68, 0x9e,
   0x2b, 0x16, 0xbe, 0x58, 0x7d, 0x47, 0xa1, 0xfc, 0x8f, 0xf8, 0xb8, 0xd1, 0x7a, 0xd0, 0x31, 0xce,
   0x45, 0xcb, 0x3a, 0x8f, 0x95, 0x16, 0x04, 0x28, 0xaf, 0xd7, 0xfb, 0xca, 0xbb, 0x4b, 0x40, 0x7e]

/-! The primes of the standard. -/

def prime32_1 : UInt64 := 0x9E3779B1
def prime32_2 : UInt64 := 0x85EBCA77
def prime32_3 : UInt64 := 0xC2B2AE3D
def prime64_1 : UInt64 := 0x9E3779B185EBCA87
def prime64_2 : UInt64 := 0xC2B2AE3D27D4EB4F
def prime64_3 : UInt64 := 0x165667B19E3779F9
def prime64_4 : UInt64 := 0x85EBCA77C2B2AE63
def prime64_5 : UInt64 := 0x27D4EB2F165667C5
def primeMix_1 : UInt64 := 0x165667919E3779F9
def primeMix_2 : UInt64 := 0x9FB21C651E98DF25

/-- The word of `k` bytes that starts at `i`. -/
def wordAt (k i : Nat) (bs : Bytes) : UInt64 := UInt64.ofNat (Bytes.readLE ((bs.drop i).take k))

def word64 (i : Nat) (bs : Bytes) : UInt64 := wordAt 8 i bs

def word32 (i : Nat) (bs : Bytes) : UInt64 := wordAt 4 i bs

/-- The word of the secret that starts at `i`. -/
def secret64 (i : Nat) : UInt64 := word64 i secret

def rotate (x : UInt64) (n : UInt64) : UInt64 := x <<< n ||| x >>> (64 - n)

def lowHalf (x : UInt64) : UInt64 := x &&& 0xFFFFFFFF

def highHalf (x : UInt64) : UInt64 := x >>> 32

/-- The bytes of a word in the opposite order. -/
def swapBytes (x : UInt64) : UInt64 :=
  UInt64.ofNat (Bytes.readLE (Bytes.writeLE 8 x.toNat).reverse)

/-- Both halves of the 128-bit product, folded into one word. -/
def mulFold (a b : UInt64) : UInt64 :=
  let p := a.toNat * b.toNat
  UInt64.ofNat p ^^^ UInt64.ofNat (p >>> 64)

def avalanche (h : UInt64) : UInt64 :=
  let h := (h ^^^ h >>> 37) * primeMix_1
  h ^^^ h >>> 32

/-- The stronger mix that ends the shortest inputs. -/
def avalancheShort (h : UInt64) : UInt64 :=
  let h := (h ^^^ h >>> 33) * prime64_2
  let h := (h ^^^ h >>> 29) * prime64_3
  h ^^^ h >>> 32

/-- Mixes sixteen bytes of input with sixteen bytes of the secret. -/
def mix16 (bs : Bytes) (i s : Nat) : UInt64 :=
  mulFold (word64 i bs ^^^ secret64 s) (word64 (i + 8) bs ^^^ secret64 (s + 8))

/-! ### Up to 16 bytes -/

def hash0 : UInt64 := avalancheShort (secret64 56 ^^^ secret64 64)

def hash1to3 (bs : Bytes) : UInt64 :=
  let n := bs.length
  let combined := wordAt 1 0 bs <<< 16 ||| wordAt 1 (n / 2) bs <<< 24 ||| wordAt 1 (n - 1) bs
    ||| UInt64.ofNat n <<< 8
  avalancheShort (combined ^^^ (word32 0 secret ^^^ word32 4 secret))

def hash4to8 (bs : Bytes) : UInt64 :=
  let n := bs.length
  let h := (word32 (n - 4) bs + word32 0 bs <<< 32) ^^^ (secret64 8 ^^^ secret64 16)
  let h := (h ^^^ rotate h 49 ^^^ rotate h 24) * primeMix_2
  let h := (h ^^^ (h >>> 35) + UInt64.ofNat n) * primeMix_2
  h ^^^ h >>> 28

def hash9to16 (bs : Bytes) : UInt64 :=
  let n := bs.length
  let low := word64 0 bs ^^^ (secret64 24 ^^^ secret64 32)
  let high := word64 (n - 8) bs ^^^ (secret64 40 ^^^ secret64 48)
  avalanche (UInt64.ofNat n + swapBytes low + high + mulFold low high)

/-! ### Up to 240 bytes -/

/-- Mixes from both ends inwards, as many pairs as there are blocks of 32 bytes begun. -/
def hash17to128 (bs : Bytes) : UInt64 :=
  let n := bs.length
  let pairs := (n - 1) / 32 + 1
  avalanche <| (List.range pairs).foldl
    (fun h i => h + mix16 bs (16 * i) (32 * i) + mix16 bs (n - 16 * (i + 1)) (32 * i + 16))
    (UInt64.ofNat n * prime64_1)

def hash129to240 (bs : Bytes) : UInt64 :=
  let n := bs.length
  let head := (List.range 8).foldl (fun h i => h + mix16 bs (16 * i) (16 * i))
    (UInt64.ofNat n * prime64_1)
  let rest := (List.range (n / 16 - 8)).foldl
    (fun h i => h + mix16 bs (16 * (i + 8)) (16 * i + 3)) (avalanche head)
  avalanche (rest + mix16 bs (n - 16) 119)

/-! ### Beyond 240 bytes

The input is cut into stripes of 64 bytes, one word for each of eight lanes.  Sixteen
stripes make a block, and after each block the lanes are scrambled. -/

def lanes : List UInt64 :=
  [prime32_3, prime64_1, prime64_2, prime64_3, prime64_4, prime32_2, prime64_5, prime32_1]

/-- The lanes after a stripe, mixed with the secret from `s` on.  Every lane also takes
in the word of its neighbour. -/
def addStripe (s : Nat) (stripe : Bytes) (acc : List UInt64) : List UInt64 :=
  acc.mapIdx fun i (a : UInt64) =>
    let key := word64 (8 * i) stripe ^^^ secret64 (s + 8 * i)
    let neighbour := if i % 2 = 0 then i + 1 else i - 1
    a + word64 (8 * neighbour) stripe + lowHalf key * highHalf key

def scramble (acc : List UInt64) : List UInt64 :=
  acc.mapIdx fun i (a : UInt64) => (a ^^^ a >>> 47 ^^^ secret64 (128 + 8 * i)) * prime32_1

def addStripes (n : Nat) (bs : Bytes) (acc : List UInt64) : List UInt64 :=
  (List.range n).foldl (fun acc i => addStripe (8 * i) ((bs.drop (64 * i)).take 64) acc) acc

def addBlocks : Nat → Bytes → List UInt64 → List UInt64
  | 0, _, acc => acc
  | n + 1, bs, acc => addBlocks n (bs.drop 1024) (scramble (addStripes 16 bs acc))

/-- The word that a pair of lanes comes to. -/
def mergePair (acc : List UInt64) (i : Nat) : UInt64 :=
  mulFold (acc.getD (2 * i) 0 ^^^ secret64 (11 + 16 * i))
    (acc.getD (2 * i + 1) 0 ^^^ secret64 (19 + 16 * i))

/-- The last stripe ends with the input and may overlap the one before it. -/
def hashLong (bs : Bytes) : UInt64 :=
  let n := bs.length
  let blocks := (n - 1) / 1024
  let stripes := (n - 1 - 1024 * blocks) / 64
  let acc := addStripes stripes (bs.drop (1024 * blocks)) (addBlocks blocks bs lanes)
  let acc := addStripe 121 (bs.drop (n - 64)) acc
  avalanche <| (List.range 4).foldl (fun h i => h + mergePair acc i) (UInt64.ofNat n * prime64_1)

end Xxh3

def xxh3 (bs : Bytes) : UInt64 :=
  let n := bs.length
  if n = 0 then Xxh3.hash0
  else if n ≤ 3 then Xxh3.hash1to3 bs
  else if n ≤ 8 then Xxh3.hash4to8 bs
  else if n ≤ 16 then Xxh3.hash9to16 bs
  else if n ≤ 128 then Xxh3.hash17to128 bs
  else if n ≤ 240 then Xxh3.hash129to240 bs
  else Xxh3.hashLong bs

end Hash
end RemoteCall
