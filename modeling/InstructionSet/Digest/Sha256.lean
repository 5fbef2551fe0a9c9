/-!
# SHA-256

The fingerprint of a table is the SHA-256 digest of its canonical form. The message is padded to
whole blocks of sixteen 32-bit words; each block is expanded to a schedule of sixty-four words, and
the schedule stirs a state of eight words, which is the digest when no block is left.
-/

namespace InstructionSet.Digest

set_option autoImplicit false

/-- Eight 32-bit words: the state between two blocks, and the digest at the end. -/
structure Words where
  /-- First word. -/
  a : UInt32
  /-- Second word. -/
  b : UInt32
  /-- Third word. -/
  c : UInt32
  /-- Fourth word. -/
  d : UInt32
  /-- Fifth word. -/
  e : UInt32
  /-- Sixth word. -/
  f : UInt32
  /-- Seventh word. -/
  g : UInt32
  /-- Eighth word. -/
  h : UInt32
  deriving DecidableEq

/-- The words in order. -/
def Words.toList (words : Words) : List UInt32 :=
  [words.a, words.b, words.c, words.d, words.e, words.f, words.g, words.h]

/-- The words of two states added place by place, modulo `2 ^ 32`. -/
def Words.add (first second : Words) : Words where
  a := first.a + second.a
  b := first.b + second.b
  c := first.c + second.c
  d := first.d + second.d
  e := first.e + second.e
  f := first.f + second.f
  g := first.g + second.g
  h := first.h + second.h

namespace Sha256

/-- The state before the first block. -/
def start : Words where
  a := 0x6a09e667
  b := 0xbb67ae85
  c := 0x3c6ef372
  d := 0xa54ff53a
  e := 0x510e527f
  f := 0x9b05688c
  g := 0x1f83d9ab
  h := 0x5be0cd19

/-- The constants of the sixty-four rounds. -/
def constants : List UInt32 :=
  [ 0x428a2f98, 0x71374491, 0xb5c0fbcf, 0xe9b5dba5, 0x3956c25b, 0x59f111f1, 0x923f82a4, 0xab1c5ed5,
    0xd807aa98, 0x12835b01, 0x243185be, 0x550c7dc3, 0x72be5d74, 0x80deb1fe, 0x9bdc06a7, 0xc19bf174,
    0xe49b69c1, 0xefbe4786, 0x0fc19dc6, 0x240ca1cc, 0x2de92c6f, 0x4a7484aa, 0x5cb0a9dc, 0x76f988da,
    0x983e5152, 0xa831c66d, 0xb00327c8, 0xbf597fc7, 0xc6e00bf3, 0xd5a79147, 0x06ca6351, 0x14292967,
    0x27b70a85, 0x2e1b2138, 0x4d2c6dfc, 0x53380d13, 0x650a7354, 0x766a0abb, 0x81c2c92e, 0x92722c85,
    0xa2bfe8a1, 0xa81a664b, 0xc24b8b70, 0xc76c51a3, 0xd192e819, 0xd6990624, 0xf40e3585, 0x106aa070,
    0x19a4c116, 0x1e376c08, 0x2748774c, 0x34b0bcb5, 0x391c0cb3, 0x4ed8aa4a, 0x5b9cca4f, 0x682e6ff3,
    0x748f82ee, 0x78a5636f, 0x84c87814, 0x8cc70208, 0x90befffa, 0xa4506ceb, 0xbef9a3f7, 0xc67178f2 ]

/-- The word turned right by a number of bits below thirty-two. -/
def rotate (word amount : UInt32) : UInt32 :=
  (word >>> amount) ||| (word <<< (32 - amount))

/-! ## The message as blocks -/

/-- The eight bytes of a 64-bit number, the highest first. -/
def lengthBytes (number : Nat) : List UInt8 :=
  [56, 48, 40, 32, 24, 16, 8, 0].map fun shift => UInt8.ofNat (number >>> shift)

/-- The message, a one bit, as many zero bits as needed, and the message's length in bits: whole
blocks of sixty-four bytes. -/
def pad (message : List UInt8) : List UInt8 :=
  message ++ 0x80 :: List.replicate ((119 - message.length % 64) % 64) 0 ++
    lengthBytes (8 * message.length)

/-- Bytes by fours as words, the highest byte first. -/
def wordsOf : List UInt8 → List UInt32
  | a :: b :: c :: d :: rest =>
      ((a.toUInt32 <<< 24) ||| (b.toUInt32 <<< 16) ||| (c.toUInt32 <<< 8) ||| d.toUInt32) ::
        wordsOf rest
  | _ => []

/-- Words by sixteens as blocks; fewer than sixteen at the end are no block. -/
def blocksOf (words : List UInt32) : List (List UInt32) :=
  match _behind : words.drop 15 with
  | [] => []
  | _ :: rest => words.take 16 :: blocksOf rest
termination_by words.length
decreasing_by
  have shorter := congrArg List.length _behind
  simp only [List.length_drop, List.length_cons] at shorter
  omega

/-! ## One block -/

/-- The next word of a schedule, whose words so far are given from the last one back. -/
def nextWord (schedule : List UInt32) : UInt32 :=
  let word (back : Nat) := schedule.getD (back - 1) 0
  let low := word 15
  let high := word 2
  (rotate high 17 ^^^ rotate high 19 ^^^ (high >>> 10)) + word 7 +
    (rotate low 7 ^^^ rotate low 18 ^^^ (low >>> 3)) + word 16

/-- A schedule, from its last word back, with a number of further words. -/
def extend : Nat → List UInt32 → List UInt32
  | 0, schedule => schedule
  | count + 1, schedule => extend count (nextWord schedule :: schedule)

/-- The sixty-four words of the schedule of a block. -/
def schedule (block : List UInt32) : List UInt32 :=
  (extend 48 block.reverse).reverse

/-- One round: the words move on by one place, and two new ones are mixed in. -/
def round (state : Words) (input : UInt32 × UInt32) : Words :=
  let choice := (state.e &&& state.f) ^^^ (~~~ state.e &&& state.g)
  let majority := (state.a &&& state.b) ^^^ (state.a &&& state.c) ^^^ (state.b &&& state.c)
  let first := state.h + (rotate state.e 6 ^^^ rotate state.e 11 ^^^ rotate state.e 25) + choice +
    input.1 + input.2
  let second := (rotate state.a 2 ^^^ rotate state.a 13 ^^^ rotate state.a 22) + majority
  { a := first + second
    b := state.a
    c := state.b
    d := state.c
    e := state.d + first
    f := state.e
    g := state.f
    h := state.g }

/-- The state behind a block. -/
def compress (state : Words) (block : List UInt32) : Words :=
  state.add ((constants.zip (schedule block)).foldl round state)

/-- The digest of a message. -/
def digest (message : List UInt8) : Words :=
  (blocksOf (wordsOf (pad message))).foldl compress start

end Sha256

/-! ## The digest as text -/

/-- The last `count` hexadecimal digits of a number, in lower case. -/
def hexDigits : (count : Nat) → Nat → List Char
  | 0, _ => []
  | count + 1, number => hexDigits count (number / 16) ++ [Nat.digitChar (number % 16)]

/-- The words as sixty-four hexadecimal digits. -/
def Words.hex (words : Words) : String :=
  String.ofList (words.toList.flatMap fun word => hexDigits 8 word.toNat)

end InstructionSet.Digest
