import TurnRelay.Bytes

namespace TurnRelay.Hash

def chunks {α : Type} (n : Nat) : List α → List (List α)
  | [] => []
  | x :: xs => (x :: xs.take n) :: chunks n (xs.drop n)
termination_by xs => xs.length
decreasing_by simp only [List.length_drop, List.length_cons]; omega

def rotateLeft (word amount : UInt32) : UInt32 := word <<< amount ||| word >>> (32 - amount)

/-- The message, a bit one, and zeros up to eight bytes short of a whole number of 64-byte blocks. -/
def pad (message : Bytes) : Bytes :=
  message ++ 0x80 :: zeros ((64 - (message.length + 9) % 64) % 64)

end TurnRelay.Hash

namespace TurnRelay.Md5

structure State where
  a : UInt32
  b : UInt32
  c : UInt32
  d : UInt32
  deriving DecidableEq

def State.initial : State := ⟨0x67452301, 0xefcdab89, 0x98badcfe, 0x10325476⟩

def State.add (s t : State) : State := ⟨s.a + t.a, s.b + t.b, s.c + t.c, s.d + t.d⟩

/-- The integer part of `2 ^ 32 * |sin i|` for `i` from 1 to 64. -/
def sines : List UInt32 :=
  [0xd76aa478, 0xe8c7b756, 0x242070db, 0xc1bdceee,
   0xf57c0faf, 0x4787c62a, 0xa8304613, 0xfd469501,
   0x698098d8, 0x8b44f7af, 0xffff5bb1, 0x895cd7be,
   0x6b901122, 0xfd987193, 0xa679438e, 0x49b40821,
   0xf61e2562, 0xc040b340, 0x265e5a51, 0xe9b6c7aa,
   0xd62f105d, 0x02441453, 0xd8a1e681, 0xe7d3fbc8,
   0x21e1cde6, 0xc33707d6, 0xf4d50d87, 0x455a14ed,
   0xa9e3e905, 0xfcefa3f8, 0x676f02d9, 0x8d2a4c8a,
   0xfffa3942, 0x8771f681, 0x6d9d6122, 0xfde5380c,
   0xa4beea44, 0x4bdecfa9, 0xf6bb4b60, 0xbebfbc70,
   0x289b7ec6, 0xeaa127fa, 0xd4ef3085, 0x04881d05,
   0xd9d4d039, 0xe6db99e5, 0x1fa27cf8, 0xc4ac5665,
   0xf4292244, 0x432aff97, 0xab9423a7, 0xfc93a039,
   0x655b59c3, 0x8f0ccc92, 0xffeff47d, 0x85845dd1,
   0x6fa87e4f, 0xfe2ce6e0, 0xa3014314, 0x4e0811a1,
   0xf7537e82, 0xbd3af235, 0x2ad7d2bb, 0xeb86d391]

def turns : List UInt32 :=
  [[7, 12, 17, 22], [5, 9, 14, 20], [4, 11, 16, 23], [6, 10, 15, 21]].flatMap fun row =>
    row ++ row ++ row ++ row

def mix (i : Nat) (s : State) : UInt32 × Nat :=
  if i < 16 then ((s.b &&& s.c) ||| (~~~ s.b &&& s.d), i)
  else if i < 32 then ((s.d &&& s.b) ||| (~~~ s.d &&& s.c), (5 * i + 1) % 16)
  else if i < 48 then (s.b ^^^ s.c ^^^ s.d, (3 * i + 5) % 16)
  else (s.c ^^^ (s.b ||| ~~~ s.d), 7 * i % 16)

def step (words : List UInt32) (s : State) (round : Nat × UInt32 × UInt32) : State :=
  let (i, sine, turn) := round
  let (mixed, index) := mix i s
  let sum := s.a + mixed + sine + words.getD index 0
  ⟨s.d, s.b + Hash.rotateLeft sum turn, s.b, s.c⟩

def wordsOf (block : Bytes) : List UInt32 :=
  (Hash.chunks 3 block).map fun word => UInt32.ofNat (ofBigEndian word.reverse)

def compress (s : State) (block : Bytes) : State :=
  s.add (((List.range 64).zip (sines.zip turns)).foldl (step (wordsOf block)) s)

def State.bytes (s : State) : Bytes :=
  [s.a, s.b, s.c, s.d].flatMap fun word => (bigEndian 4 word.toNat).reverse

def digest (message : Bytes) : Bytes :=
  let padded := Hash.pad message ++ (bigEndian 8 (8 * message.length)).reverse
  ((Hash.chunks 63 padded).foldl compress .initial).bytes

@[simp] theorem length_digest (message : Bytes) : (digest message).length = 16 := by
  simp [digest, State.bytes]

end TurnRelay.Md5

namespace TurnRelay.Sha1

structure State where
  a : UInt32
  b : UInt32
  c : UInt32
  d : UInt32
  e : UInt32
  deriving DecidableEq

def State.initial : State := ⟨0x67452301, 0xefcdab89, 0x98badcfe, 0x10325476, 0xc3d2e1f0⟩

def State.add (s t : State) : State := ⟨s.a + t.a, s.b + t.b, s.c + t.c, s.d + t.d, s.e + t.e⟩

def mix (i : Nat) (s : State) : UInt32 × UInt32 :=
  if i < 20 then ((s.b &&& s.c) ||| (~~~ s.b &&& s.d), 0x5a827999)
  else if i < 40 then (s.b ^^^ s.c ^^^ s.d, 0x6ed9eba1)
  else if i < 60 then ((s.b &&& s.c) ||| (s.b &&& s.d) ||| (s.c &&& s.d), 0x8f1bbcdc)
  else (s.b ^^^ s.c ^^^ s.d, 0xca62c1d6)

def step (i : Nat) (word : UInt32) (s : State) : State :=
  let (mixed, constant) := mix i s
  ⟨Hash.rotateLeft s.a 5 + mixed + s.e + constant + word, s.a, Hash.rotateLeft s.b 30, s.c, s.d⟩

def slide (window : List UInt32) : List UInt32 :=
  let next := window.getD 13 0 ^^^ window.getD 8 0 ^^^ window.getD 2 0 ^^^ window.getD 0 0
  window.drop 1 ++ [Hash.rotateLeft next 1]

def rounds : Nat → List UInt32 → State → State
  | 0, _, s => s
  | n + 1, window, s => rounds n (slide window) (step (79 - n) (window.getD 0 0) s)

def wordsOf (block : Bytes) : List UInt32 :=
  (Hash.chunks 3 block).map fun word => UInt32.ofNat (ofBigEndian word)

def compress (s : State) (block : Bytes) : State := s.add (rounds 80 (wordsOf block) s)

def State.bytes (s : State) : Bytes :=
  [s.a, s.b, s.c, s.d, s.e].flatMap fun word => bigEndian 4 word.toNat

def digest (message : Bytes) : Bytes :=
  let padded := Hash.pad message ++ bigEndian 8 (8 * message.length)
  ((Hash.chunks 63 padded).foldl compress .initial).bytes

@[simp] theorem length_digest (message : Bytes) : (digest message).length = 20 := by
  simp [digest, State.bytes]

end TurnRelay.Sha1

namespace TurnRelay.Hmac

def blockKey (key : Bytes) : Bytes :=
  let short := if 64 < key.length then Sha1.digest key else key
  short ++ zeros (64 - short.length)

def sha1 (key message : Bytes) : Bytes :=
  let inner := Sha1.digest ((blockKey key).map (· ^^^ 0x36) ++ message)
  Sha1.digest ((blockKey key).map (· ^^^ 0x5c) ++ inner)

@[simp] theorem length_sha1 (key message : Bytes) : (sha1 key message).length = 20 :=
  Sha1.length_digest _

end TurnRelay.Hmac

namespace TurnRelay.Crc32

/-- The reversed generator polynomial. -/
def generator : BitVec 32 := 0xEDB88320

def shift (register : BitVec 32) : BitVec 32 :=
  if register.getLsbD 0 then register >>> 1 ^^^ generator else register >>> 1

def shiftByte (register : BitVec 32) : BitVec 32 :=
  shift (shift (shift (shift (shift (shift (shift (shift register)))))))

def absorb (register : BitVec 32) (byte : UInt8) : BitVec 32 :=
  shiftByte (register ^^^ byte.toBitVec.setWidth 32)

def checksum (bytes : Bytes) : BitVec 32 := ~~~ bytes.foldl absorb (BitVec.allOnes 32)

end TurnRelay.Crc32
