/-
  PgClient.Digest.Sha256

  The SHA-256 digest, and HMAC and PBKDF2 over it.
-/
import PgClient.Bytes

namespace PgClient.Sha256

/-! ## Constants -/

/-- The first 32 fraction bits of the cube roots of the first 64 primes. -/
def cubeRoots : List UInt32 :=
  [0x428a2f98, 0x71374491, 0xb5c0fbcf, 0xe9b5dba5, 0x3956c25b, 0x59f111f1, 0x923f82a4, 0xab1c5ed5,
   0xd807aa98, 0x12835b01, 0x243185be, 0x550c7dc3, 0x72be5d74, 0x80deb1fe, 0x9bdc06a7, 0xc19bf174,
   0xe49b69c1, 0xefbe4786, 0x0fc19dc6, 0x240ca1cc, 0x2de92c6f, 0x4a7484aa, 0x5cb0a9dc, 0x76f988da,
   0x983e5152, 0xa831c66d, 0xb00327c8, 0xbf597fc7, 0xc6e00bf3, 0xd5a79147, 0x06ca6351, 0x14292967,
   0x27b70a85, 0x2e1b2138, 0x4d2c6dfc, 0x53380d13, 0x650a7354, 0x766a0abb, 0x81c2c92e, 0x92722c85,
   0xa2bfe8a1, 0xa81a664b, 0xc24b8b70, 0xc76c51a3, 0xd192e819, 0xd6990624, 0xf40e3585, 0x106aa070,
   0x19a4c116, 0x1e376c08, 0x2748774c, 0x34b0bcb5, 0x391c0cb3, 0x4ed8aa4a, 0x5b9cca4f, 0x682e6ff3,
   0x748f82ee, 0x78a5636f, 0x84c87814, 0x8cc70208, 0x90befffa, 0xa4506ceb, 0xbef9a3f7, 0xc67178f2]

/-! ## Compression -/

/-- The chaining value. -/
structure Chain where
  a : UInt32
  b : UInt32
  c : UInt32
  d : UInt32
  e : UInt32
  f : UInt32
  g : UInt32
  h : UInt32

/-- The first 32 fraction bits of the square roots of the first eight primes. -/
def Chain.start : Chain :=
  ⟨0x6a09e667, 0xbb67ae85, 0x3c6ef372, 0xa54ff53a, 0x510e527f, 0x9b05688c, 0x1f83d9ab, 0x5be0cd19⟩

def Chain.add (s t : Chain) : Chain :=
  ⟨s.a + t.a, s.b + t.b, s.c + t.c, s.d + t.d, s.e + t.e, s.f + t.f, s.g + t.g, s.h + t.h⟩

def rotateRight (x n : UInt32) : UInt32 := (x >>> n) ||| (x <<< (32 - n))

/-- One step with the constant `k` and the message word `w`. -/
def step (s : Chain) (k w : UInt32) : Chain :=
  let s1 := rotateRight s.e 6 ^^^ rotateRight s.e 11 ^^^ rotateRight s.e 25
  let choice := (s.e &&& s.f) ^^^ (~~~s.e &&& s.g)
  let t1 := s.h + s1 + choice + k + w
  let s0 := rotateRight s.a 2 ^^^ rotateRight s.a 13 ^^^ rotateRight s.a 22
  let majority := (s.a &&& s.b) ^^^ (s.a &&& s.c) ^^^ (s.b &&& s.c)
  ⟨t1 + (s0 + majority), s.a, s.b, s.c, s.d + t1, s.e, s.f, s.g⟩

/-- The word after a window of sixteen. -/
def extend (window : List UInt32) : UInt32 :=
  let x := window.getD 1 0
  let y := window.getD 14 0
  let s0 := rotateRight x 7 ^^^ rotateRight x 18 ^^^ (x >>> 3)
  let s1 := rotateRight y 17 ^^^ rotateRight y 19 ^^^ (y >>> 10)
  window.getD 0 0 + s0 + window.getD 9 0 + s1

/-- One step for each constant; the window holds this step's word and the fifteen after it. -/
def steps (window : List UInt32) (s : Chain) : List UInt32 → Chain
  | [] => s
  | k :: ks => steps (window.drop 1 ++ [extend window]) (step s k (window.getD 0 0)) ks

def compress (s : Chain) (words : List UInt32) : Chain :=
  s.add (steps words s cubeRoots)

/-! ## Message -/

/-- The message with its end mark, zeros and bit length, a multiple of 64 bytes long. -/
def padded (message : Bytes) : Bytes :=
  let n := message.length
  message ++ 0x80 :: List.replicate ((119 - n % 64) % 64) 0 ++ Bytes.bigEndian 8 (n * 8)

/-- Big-endian words of four bytes. -/
def words : Bytes → List UInt32
  | a :: b :: c :: d :: rest => Bytes.toUInt32 [a, b, c, d] :: words rest
  | _ => []

/-- All blocks of sixteen words, compressed in turn. -/
def blocks : Nat → Chain → List UInt32 → Chain
  | 0, s, _ => s
  | n + 1, s, ws => blocks n (compress s (ws.take 16)) (ws.drop 16)

/-- The 32 bytes of the digest. -/
def digest (message : Bytes) : Bytes :=
  let ws := words (padded message)
  let s := blocks (ws.length / 16) Chain.start ws
  [s.a, s.b, s.c, s.d, s.e, s.f, s.g, s.h].flatMap Bytes.ofUInt32

/-! ## Keyed digests -/

/-- Two byte strings, combined byte by byte. -/
def xor (x y : Bytes) : Bytes := List.zipWith (· ^^^ ·) x y

/-- What is combined with the same bytes twice is as it was. -/
theorem xor_xor {x y : Bytes} (h : x.length = y.length) : xor (xor x y) y = x := by
  unfold xor
  induction x generalizing y with
  | nil => simp
  | cons a x ih =>
    cases y with
    | nil => simp at h
    | cons b y =>
      have hbyte : a ^^^ b ^^^ b = a := by rw [UInt8.xor_assoc, UInt8.xor_self, UInt8.xor_zero]
      rw [List.zipWith_cons_cons, List.zipWith_cons_cons, hbyte, ih (Nat.succ.inj h)]

/-- The key as one block of 64 bytes. -/
def blockKey (key : Bytes) : Bytes :=
  -- A key longer than a block is digested first.
  let k := if 64 < key.length then digest key else key
  k ++ List.replicate (64 - k.length) 0

def hmac (key message : Bytes) : Bytes :=
  let k := blockKey key
  digest (k.map (· ^^^ 0x5c) ++ digest (k.map (· ^^^ 0x36) ++ message))

theorem length_digest (message : Bytes) : (digest message).length = 32 := by
  simp [digest, Bytes.ofUInt32]

theorem length_hmac (key message : Bytes) : (hmac key message).length = 32 := length_digest _

/-- `rounds` further blocks, each the keyed digest of the one before, combined into `acc`. -/
def stretch (password : Bytes) : Nat → Bytes → Bytes → Bytes
  | 0, _, acc => acc
  | rounds + 1, last, acc =>
    let next := hmac password last
    stretch password rounds next (xor acc next)

/-- The first 32 bytes of a key derived from a password by `iterations` keyed digests. -/
def pbkdf2 (password salt : Bytes) (iterations : UInt32) : Bytes :=
  let first := hmac password (salt ++ [0, 0, 0, 1])
  stretch password (iterations.toNat - 1) first first

end PgClient.Sha256
