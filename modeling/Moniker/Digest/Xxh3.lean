/-!
# XXH3

The 64-bit XXH3 digest of octets, with the default secret and no seed. Inputs of up to 240
octets are folded in one pass that depends on their length; longer ones run through eight
lanes, stripe by stripe, which are scrambled after every block.
-/

namespace Moniker.Digest.Xxh3

/-- The octets that inputs are mixed with. -/
def secret : Array UInt8 := #[
  0xb8, 0xfe, 0x6c, 0x39, 0x23, 0xa4, 0x4b, 0xbe, 0x7c, 0x01, 0x81, 0x2c, 0xf7, 0x21, 0xad, 0x1c,
  0xde, 0xd4, 0x6d, 0xe9, 0x83, 0x90, 0x97, 0xdb, 0x72, 0x40, 0xa4, 0xa4, 0xb7, 0xb3, 0x67, 0x1f,
  0xcb, 0x79, 0xe6, 0x4e, 0xcc, 0xc0, 0xe5, 0x78, 0x82, 0x5a, 0xd0, 0x7d, 0xcc, 0xff, 0x72, 0x21,
  0xb8, 0x08, 0x46, 0x74, 0xf7, 0x43, 0x24, 0x8e, 0xe0, 0x35, 0x90, 0xe6, 0x81, 0x3a, 0x26, 0x4c,
  0x3c, 0x28, 0x52, 0xbb, 0x91, 0xc3, 0x00, 0xcb, 0x88, 0xd0, 0x65, 0x8b, 0x1b, 0x53, 0x2e, 0xa3,
  0x71, 0x64, 0x48, 0x97, 0xa2, 0x0d, 0xf9, 0x4e, 0x38, 0x19, 0xef, 0x46, 0xa9, 0xde, 0xac, 0xd8,
  0xa8, 0xfa, 0x76, 0x3f, 0xe3, 0x9c, 0x34, 0x3f, 0xf9, 0xdc, 0xbb, 0xc7, 0xc7, 0x0b, 0x4f, 0x1d,
  0x8a, 0x51, 0xe0, 0x4b, 0xcd, 0xb4, 0x59, 0x31, 0xc8, 0x9f, 0x7e, 0xc9, 0xd9, 0x78, 0x73, 0x64,
  0xea, 0xc5, 0xac, 0x83, 0x34, 0xd3, 0xeb, 0xc3, 0xc5, 0x81, 0xa0, 0xff, 0xfa, 0x13, 0x63, 0xeb,
  0x17, 0x0d, 0xdd, 0x51, 0xb7, 0xf0, 0xda, 0x49, 0xd3, 0x16, 0x55, 0x26, 0x29, 0xd4, 0x68, 0x9e,
  0x2b, 0x16, 0xbe, 0x58, 0x7d, 0x47, 0xa1, 0xfc, 0x8f, 0xf8, 0xb8, 0xd1, 0x7a, 0xd0, 0x31, 0xce,
  0x45, 0xcb, 0x3a, 0x8f, 0x95, 0x16, 0x04, 0x28, 0xaf, 0xd7, 0xfb, 0xca, 0xbb, 0x4b, 0x40, 0x7e]

def prime32a : UInt64 := 0x9E3779B1
def prime32b : UInt64 := 0x85EBCA77
def prime32c : UInt64 := 0xC2B2AE3D
def prime64a : UInt64 := 0x9E3779B185EBCA87
def prime64b : UInt64 := 0xC2B2AE3D27D4EB4F
def prime64c : UInt64 := 0x165667B19E3779F9
def prime64d : UInt64 := 0x85EBCA77C2B2AE63
def prime64e : UInt64 := 0x27D4EB2F165667C5

/-- The number in `width` octets from `start` on, least significant first. -/
def word (octets : Array UInt8) (start : Nat) : (width : Nat) → UInt64
  | 0 => 0
  | width + 1 => (octets.getD start 0).toUInt64 ||| (word octets (start + 1) width <<< 8)

def word64 (octets : Array UInt8) (start : Nat) : UInt64 := word octets start 8

def word32 (octets : Array UInt8) (start : Nat) : UInt64 := word octets start 4

def rotateLeft (x n : UInt64) : UInt64 := (x <<< n) ||| (x >>> (64 - n))

/-- The octets of a word in reverse order. -/
def reverseOctets (x : UInt64) : UInt64 :=
  (List.range 8).foldl (fun acc i => (acc <<< 8) ||| ((x >>> UInt64.ofNat (8 * i)) &&& 0xFF)) 0

/-- The two halves of a 128-bit product, combined. -/
def foldProduct (a b : UInt64) : UInt64 :=
  let product := a.toNat * b.toNat
  UInt64.ofNat product ^^^ UInt64.ofNat (product >>> 64)

/-- The final mixing for most lengths. -/
def avalanche (h : UInt64) : UInt64 :=
  let h := (h ^^^ (h >>> 37)) * 0x165667919E3779F9
  h ^^^ (h >>> 32)

/-- The final mixing for the shortest inputs. -/
def avalancheShort (h : UInt64) : UInt64 :=
  let h := (h ^^^ (h >>> 33)) * prime64b
  let h := (h ^^^ (h >>> 29)) * prime64c
  h ^^^ (h >>> 32)

/-- The final mixing for inputs of four to eight octets. -/
def mixLength (h length : UInt64) : UInt64 :=
  let h := (h ^^^ rotateLeft h 49 ^^^ rotateLeft h 24) * 0x9FB21C651E98DF25
  let h := (h ^^^ ((h >>> 35) + length)) * 0x9FB21C651E98DF25
  h ^^^ (h >>> 28)

/-- Sixteen octets of input, mixed with sixteen of the secret. -/
def mix16 (input : Array UInt8) (start key : Nat) : UInt64 :=
  foldProduct (word64 input start ^^^ word64 secret key)
    (word64 input (start + 8) ^^^ word64 secret (key + 8))

def digestUpTo3 (input : Array UInt8) : UInt64 :=
  let n := input.size
  let first := word input 0 1
  let middle := word input (n / 2) 1
  let last := word input (n - 1) 1
  let combined := (first <<< 16) ||| (middle <<< 24) ||| last ||| (UInt64.ofNat n <<< 8)
  avalancheShort (combined ^^^ (word32 secret 0 ^^^ word32 secret 4))

def digestUpTo8 (input : Array UInt8) : UInt64 :=
  let n := input.size
  let both := word32 input (n - 4) + (word32 input 0 <<< 32)
  mixLength (both ^^^ (word64 secret 8 ^^^ word64 secret 16)) (UInt64.ofNat n)

def digestUpTo16 (input : Array UInt8) : UInt64 :=
  let n := input.size
  let low := word64 input 0 ^^^ (word64 secret 24 ^^^ word64 secret 32)
  let high := word64 input (n - 8) ^^^ (word64 secret 40 ^^^ word64 secret 48)
  avalanche (UInt64.ofNat n + reverseOctets low + high + foldProduct low high)

/-- Pairs of pieces from both ends, from the middle outwards. -/
def digestUpTo128 (input : Array UInt8) : UInt64 :=
  let n := input.size
  let pairs := (n - 1) / 32 + 1
  avalanche ((List.range pairs).foldl
    (fun acc i =>
      acc + mix16 input (16 * i) (32 * i) + mix16 input (n - 16 * (i + 1)) (32 * i + 16))
    (UInt64.ofNat n * prime64a))

def digestUpTo240 (input : Array UInt8) : UInt64 :=
  let n := input.size
  let start := (List.range 8).foldl (fun acc i => acc + mix16 input (16 * i) (16 * i))
    (UInt64.ofNat n * prime64a)
  let rest := (List.range (n / 16 - 8)).foldl
    (fun acc i => acc + mix16 input (16 * (i + 8)) (16 * i + 3)) (avalanche start)
  avalanche (rest + mix16 input (n - 16) 119)

/-- The lanes before any input. -/
def lanes : Array UInt64 :=
  #[prime32c, prime64a, prime64b, prime64c, prime64d, prime32b, prime64e, prime32a]

/-- Takes one stripe of 64 octets into the lanes. -/
def accumulate (input : Array UInt8) (start key : Nat) (acc : Array UInt64) : Array UInt64 :=
  (List.range 8).foldl (fun (acc : Array UInt64) (i : Nat) =>
    let value := word64 input (start + 8 * i)
    let keyed : UInt64 := value ^^^ word64 secret (key + 8 * i)
    let product : UInt64 := (keyed &&& (0xFFFFFFFF : UInt64)) * (keyed >>> 32)
    (acc.modify (i ^^^ 1) (· + value)).modify i (· + product)) acc

/-- Takes stripes in a row, each with the secret moved on by eight. -/
def accumulateStripes (input : Array UInt8) (start stripes : Nat) (acc : Array UInt64) :
    Array UInt64 :=
  (List.range stripes).foldl (fun acc i => accumulate input (start + 64 * i) (8 * i) acc) acc

def scramble (acc : Array UInt64) : Array UInt64 :=
  acc.mapIdx fun i (lane : UInt64) =>
    ((lane ^^^ (lane >>> 47)) ^^^ word64 secret (128 + 8 * i)) * prime32a

/-- The word that the lanes come to. -/
def merge (acc : Array UInt64) (start : UInt64) : UInt64 :=
  avalanche ((List.range 4).foldl (fun (sum : UInt64) i =>
    sum + foldProduct (acc.getD (2 * i) 0 ^^^ word64 secret (11 + 16 * i))
      (acc.getD (2 * i + 1) 0 ^^^ word64 secret (19 + 16 * i))) start)

def digestLong (input : Array UInt8) : UInt64 :=
  let n := input.size
  let blocks := (n - 1) / 1024
  let acc := (List.range blocks).foldl
    (fun acc block => scramble (accumulateStripes input (1024 * block) 16 acc)) lanes
  let acc := accumulateStripes input (1024 * blocks) ((n - 1 - 1024 * blocks) / 64) acc
  let acc := accumulate input (n - 64) 121 acc
  merge acc (UInt64.ofNat n * prime64a)

/-- The digest of the octets. -/
def digest (octets : List UInt8) : UInt64 :=
  let input := octets.toArray
  let n := input.size
  if n = 0 then avalancheShort (word64 secret 56 ^^^ word64 secret 64)
  else if n ≤ 3 then digestUpTo3 input
  else if n ≤ 8 then digestUpTo8 input
  else if n ≤ 16 then digestUpTo16 input
  else if n ≤ 128 then digestUpTo128 input
  else if n ≤ 240 then digestUpTo240 input
  else digestLong input

end Moniker.Digest.Xxh3
