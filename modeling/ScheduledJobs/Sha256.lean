/-
**SHA-256.**

The hash function on lists of bytes, over 32-bit words, and its hexadecimal digest.

Main definitions:

* `Sha256.padded` — the message with its padding, in words;
* `Sha256.compress` — one block into a hash value;
* `Sha256.hexdigest` — **the digest as text**.

Main results:

* `Sha256.length_hexdigest`, `Sha256.hexdigest_chars` — a digest is a text of 64 lowercase
  hexadecimal digits.
-/

import ScheduledJobs.Numerals

set_option relaxedAutoImplicit false
set_option autoImplicit false

namespace Sha256

abbrev Word := BitVec 32

/-- The round constants. -/
def roundConstants : List Word :=
  [0x428a2f98, 0x71374491, 0xb5c0fbcf, 0xe9b5dba5, 0x3956c25b, 0x59f111f1, 0x923f82a4, 0xab1c5ed5,
    0xd807aa98, 0x12835b01, 0x243185be, 0x550c7dc3, 0x72be5d74, 0x80deb1fe, 0x9bdc06a7, 0xc19bf174,
    0xe49b69c1, 0xefbe4786, 0x0fc19dc6, 0x240ca1cc, 0x2de92c6f, 0x4a7484aa, 0x5cb0a9dc, 0x76f988da,
    0x983e5152, 0xa831c66d, 0xb00327c8, 0xbf597fc7, 0xc6e00bf3, 0xd5a79147, 0x06ca6351, 0x14292967,
    0x27b70a85, 0x2e1b2138, 0x4d2c6dfc, 0x53380d13, 0x650a7354, 0x766a0abb, 0x81c2c92e, 0x92722c85,
    0xa2bfe8a1, 0xa81a664b, 0xc24b8b70, 0xc76c51a3, 0xd192e819, 0xd6990624, 0xf40e3585, 0x106aa070,
    0x19a4c116, 0x1e376c08, 0x2748774c, 0x34b0bcb5, 0x391c0cb3, 0x4ed8aa4a, 0x5b9cca4f, 0x682e6ff3,
    0x748f82ee, 0x78a5636f, 0x84c87814, 0x8cc70208, 0x90befffa, 0xa4506ceb, 0xbef9a3f7, 0xc67178f2]

/-- A hash value: eight words. -/
structure Hash where
  a : Word
  b : Word
  c : Word
  d : Word
  e : Word
  f : Word
  g : Word
  h : Word
  deriving DecidableEq, Repr

/-- The hash value a message starts from. -/
def initial : Hash :=
  ⟨0x6a09e667, 0xbb67ae85, 0x3c6ef372, 0xa54ff53a, 0x510e527f, 0x9b05688c, 0x1f83d9ab, 0x5be0cd19⟩

/-! ### The message in words -/

/-- The bytes of a number, the highest one first. -/
def bytesOf : ℕ → ℕ → List UInt8
  | 0, _ => []
  | w + 1, n => UInt8.ofNat (n / 256 ^ w) :: bytesOf w n

/-- The message, a one bit, zeros up to eight bytes before the end of a block, and the length of
the message in bits. -/
def padding (length : ℕ) : List UInt8 :=
  0x80 :: List.replicate ((119 - length % 64) % 64) 0 ++ bytesOf 8 (length * 8)

/-- Four bytes to a word. -/
def words : List UInt8 → List Word
  | a :: b :: c :: d :: bytes =>
      BitVec.ofNat 32 (((a.toNat * 256 + b.toNat) * 256 + c.toNat) * 256 + d.toNat) :: words bytes
  | _ => []

def padded (message : List UInt8) : List Word := words (message ++ padding message.length)

/-! ### Compression -/

/-- The next word of the schedule, after the last sixteen of them. -/
def nextWord (w : List Word) : Word :=
  let w0 := w.getD 0 0
  let w1 := w.getD 1 0
  let w9 := w.getD 9 0
  let w14 := w.getD 14 0
  w0 + (w1.rotateRight 7 ^^^ w1.rotateRight 18 ^^^ w1 >>> 3) + w9 +
    (w14.rotateRight 17 ^^^ w14.rotateRight 19 ^^^ w14 >>> 10)

/-- One round, with a constant and a word of the schedule. -/
def round (s : Hash) (k w : Word) : Hash :=
  let s1 := s.e.rotateRight 6 ^^^ s.e.rotateRight 11 ^^^ s.e.rotateRight 25
  let choice := (s.e &&& s.f) ^^^ (~~~s.e &&& s.g)
  let t1 := s.h + s1 + choice + k + w
  let s0 := s.a.rotateRight 2 ^^^ s.a.rotateRight 13 ^^^ s.a.rotateRight 22
  let majority := (s.a &&& s.b) ^^^ (s.a &&& s.c) ^^^ (s.b &&& s.c)
  ⟨t1 + s0 + majority, s.a, s.b, s.c, s.d + t1, s.e, s.f, s.g⟩

/-- The rounds with the given constants; the list holds the next sixteen words of the schedule. -/
def rounds : List Word → List Word → Hash → Hash
  | [], _, s => s
  | k :: ks, w, s => rounds ks (w.tail ++ [nextWord w]) (round s k (w.headD 0))

/-- One block into a hash value. -/
def compress (s : Hash) (block : List Word) : Hash :=
  let t := rounds roundConstants block s
  ⟨s.a + t.a, s.b + t.b, s.c + t.c, s.d + t.d, s.e + t.e, s.f + t.f, s.g + t.g, s.h + t.h⟩

/-- The blocks of a message, at most this many of them. -/
def compressAll : ℕ → List Word → Hash → Hash
  | 0, _, s => s
  | n + 1, w, s => compressAll n (w.drop 16) (compress s (w.take 16))

/-- The hash value of a message. -/
def hash (message : List UInt8) : Hash :=
  let w := padded message
  compressAll (w.length / 16) w initial

/-! ### The digest -/

/-- The last `n` hexadecimal digits of a number, the highest one first. -/
def hexDigits : ℕ → ℕ → List Char
  | 0, _ => []
  | n + 1, x => Nat.digitChar (x / 16 ^ n % 16) :: hexDigits n x

/-- **The digest of a message.** -/
def hexdigest (message : List UInt8) : String :=
  let s := hash message
  String.ofList ([s.a, s.b, s.c, s.d, s.e, s.f, s.g, s.h].flatMap fun w => hexDigits 8 w.toNat)

/-- The digest of a three-letter message. -/
example : hexdigest [0x61, 0x62, 0x63] =
    "ba7816bf8f01cfea414140de5dae2223b00361a396177a9cb410ff61f20015ad" := by
  decide +kernel

@[simp] theorem length_hexDigits (n x : ℕ) : (hexDigits n x).length = n := by
  induction n with
  | zero => rfl
  | succ n ih => rw [hexDigits, List.length_cons, ih]

theorem length_hexdigest (message : List UInt8) : (hexdigest message).length = 64 := by
  simp [hexdigest]

/-- A digest is written in lowercase. -/
theorem hexdigest_chars {message : List UInt8} {c : Char} (h : c ∈ (hexdigest message).toList) :
    '0' ≤ c ∧ c ≤ '9' ∨ 'a' ≤ c ∧ c ≤ 'f' := by
  have hdigit : ∀ d < 16, '0' ≤ Nat.digitChar d ∧ Nat.digitChar d ≤ '9' ∨
      'a' ≤ Nat.digitChar d ∧ Nat.digitChar d ≤ 'f' := by decide
  have hmem : ∀ n x, c ∈ hexDigits n x → '0' ≤ c ∧ c ≤ '9' ∨ 'a' ≤ c ∧ c ≤ 'f' := by
    intro n x hc
    induction n with
    | zero => cases hc
    | succ n ih =>
        rcases List.mem_cons.1 hc with rfl | hc
        · exact hdigit _ (Nat.mod_lt _ (by decide))
        · exact ih hc
  rw [hexdigest, String.toList_ofList, List.mem_flatMap] at h
  obtain ⟨w, _, hw⟩ := h
  exact hmem 8 w.toNat hw

end Sha256
