/-
SHA-1, as `hashlib.sha1(message.encode()).hexdigest()` computes it.

Words are numbers below `2 ^ 32`; the message is padded to blocks of sixteen of them, and
each block is mixed into the five words of the state in eighty rounds.

* `sha1_length` — a digest has forty digits, whatever the message.
-/
import Mathlib.Algebra.Group.Nat.Defs

namespace Sha1

/-- `w` rotated to the left by `n` bits. -/
def rotl (n w : ℕ) : ℕ := (w <<< n ||| w >>> (32 - n)) % 2 ^ 32

/-- The big-endian words of some bytes. -/
def words : List ℕ → List ℕ
  | a :: b :: c :: d :: bytes =>
    (a * 2 ^ 24 + b * 2 ^ 16 + c * 2 ^ 8 + d) :: words bytes
  | _ => []

/-- The bytes of a message with its padding: a bit, zeros, and the length in bits. -/
def pad (message : List ℕ) : List ℕ :=
  message ++ 0x80 :: List.replicate ((119 - message.length % 64) % 64) 0
    ++ (List.range 8).map fun i => message.length * 8 / 256 ^ (7 - i) % 256

/-- `n` more words of the schedule, the latest in front. -/
def extend : ℕ → List ℕ → List ℕ
  | 0, w => w
  | n + 1, w =>
    extend n (rotl 1 (w.getD 2 0 ^^^ w.getD 7 0 ^^^ w.getD 13 0 ^^^ w.getD 15 0) :: w)

/-- The eighty words of a block. -/
def schedule (block : List ℕ) : List ℕ := (extend 64 block.reverse).reverse

/-- The five words that are hashed on. -/
structure State where
  a : ℕ
  b : ℕ
  c : ℕ
  d : ℕ
  e : ℕ

def initial : State := ⟨0x67452301, 0xEFCDAB89, 0x98BADCFE, 0x10325476, 0xC3D2E1F0⟩

/-- The function and the constant of round `t`. -/
def mix (t : ℕ) (s : State) : ℕ :=
  if t < 20 then ((s.b &&& s.c) ||| ((2 ^ 32 - 1 - s.b) &&& s.d)) + 0x5A827999
  else if t < 40 then (s.b ^^^ s.c ^^^ s.d) + 0x6ED9EBA1
  else if t < 60 then ((s.b &&& s.c) ||| (s.b &&& s.d) ||| (s.c &&& s.d)) + 0x8F1BBCDC
  else (s.b ^^^ s.c ^^^ s.d) + 0xCA62C1D6

/-- Round `t`, with its word of the schedule. -/
def round (s : State) (w t : ℕ) : State :=
  ⟨(rotl 5 s.a + mix t s + s.e + w) % 2 ^ 32, s.a, rotl 30 s.b, s.c, s.d⟩

/-- A block mixed into the state. -/
def compress (h : State) (block : List ℕ) : State :=
  let s := (schedule block).zipIdx.foldl (fun s p => round s p.1 p.2) h
  ⟨(h.a + s.a) % 2 ^ 32, (h.b + s.b) % 2 ^ 32, (h.c + s.c) % 2 ^ 32, (h.d + s.d) % 2 ^ 32,
    (h.e + s.e) % 2 ^ 32⟩

/-- The first `n` blocks. -/
def blocks : ℕ → List ℕ → List (List ℕ)
  | 0, _ => []
  | n + 1, ws => ws.take 16 :: blocks n (ws.drop 16)

/-- The state after a message. -/
def hash (message : List ℕ) : State :=
  let ws := words (pad message)
  (blocks (ws.length / 16) ws).foldl compress initial

/-- A word in eight hexadecimal digits. -/
def hexWord (w : ℕ) : List Char :=
  (List.range 8).map fun i => Nat.digitChar (w / 16 ^ (7 - i) % 16)

/-- The UTF-8 bytes of a text. -/
def encode (text : List Char) : List ℕ :=
  text.flatMap fun c => (String.utf8EncodeChar c).map UInt8.toNat

/-- `sha1(message)`. -/
def sha1 (message : List Char) : List Char :=
  let h := hash (encode message)
  hexWord h.a ++ hexWord h.b ++ hexWord h.c ++ hexWord h.d ++ hexWord h.e

theorem hexWord_length (w : ℕ) : (hexWord w).length = 8 := by
  rw [hexWord, List.length_map, List.length_range]

/-- A digest has forty digits. -/
theorem sha1_length (message : List Char) : (sha1 message).length = 40 := by
  rw [sha1]
  simp only [List.length_append, hexWord_length]

example : sha1 "abc".toList = "a9993e364706816aba3e25717850c26c9cd0d89d".toList := by
  decide +kernel

end Sha1
