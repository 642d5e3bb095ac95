import PythonSystemd.Library.BlockStream
import PythonSystemd.Library.WordBytes

/-!
# The definition of SipHash-2-4

SipHash-2-4 of a whole message, on 64-bit words: the message is read as little-endian words, the
last of which holds the bytes that are left over and the length modulo 256 in its top byte. Every
word is absorbed with two rounds, and four more follow a final constant.

This is the statement of purpose that the code of `siphash24.c` is compared with; nothing here is
taken from the code.
-/

set_option autoImplicit false
set_option relaxedAutoImplicit false

namespace PythonSystemd.Siphash24

open Library.BlockStream Library.WordBytes

/-- The four words that SipHash works on. -/
structure SipWords where
  v0 : BitVec 64
  v1 : BitVec 64
  v2 : BitVec 64
  v3 : BitVec 64
  deriving DecidableEq

def sipRound (v : SipWords) : SipWords :=
  let v0 := v.v0 + v.v1
  let v2 := v.v2 + v.v3
  let v1 := v.v1.rotateLeft 13 ^^^ v0
  let v3 := v.v3.rotateLeft 16 ^^^ v2
  let v0 := v0.rotateLeft 32
  let v2 := v2 + v1
  let v0 := v0 + v3
  let v1 := v1.rotateLeft 17 ^^^ v2
  let v3 := v3.rotateLeft 21 ^^^ v0
  let v2 := v2.rotateLeft 32
  ⟨v0, v1, v2, v3⟩

/-- One word of the message, with two rounds. -/
def absorbWord (v : SipWords) (word : BitVec 64) : SipWords :=
  let v := sipRound (sipRound { v with v3 := v.v3 ^^^ word })
  { v with v0 := v.v0 ^^^ word }

/-- The value after the last word, with four rounds. -/
def finish (v : SipWords) : BitVec 64 :=
  let v := sipRound (sipRound (sipRound (sipRound { v with v2 := v.v2 ^^^ 0xff })))
  v.v0 ^^^ v.v1 ^^^ v.v2 ^^^ v.v3

/-- Eight bytes as a little-endian word. -/
def wordOf (bytes : List UInt8) : BitVec 64 :=
  BitVec.ofNat 64 (ofBytesLE bytes)

def initialWords (key : List UInt8) : SipWords :=
  let k0 := wordOf (key.take 8)
  let k1 := wordOf ((key.drop 8).take 8)
  ⟨0x736f6d6570736575 ^^^ k0, 0x646f72616e646f6d ^^^ k1, 0x6c7967656e657261 ^^^ k0,
    0x7465646279746573 ^^^ k1⟩

/-- The bytes after the last full word, with the length modulo 256 in the top byte. -/
def lastWord (message : List UInt8) : BitVec 64 :=
  BitVec.ofNat 64 (ofBytesLE (pending 8 message) + message.length % 256 * 2 ^ 56)

/-- The full words of a message, absorbed in order. -/
def absorbBlocks (v : SipWords) (message : List UInt8) : SipWords :=
  ((blocks 8 message).map wordOf).foldl absorbWord v

/-- SipHash-2-4. -/
def sipHash24 (key message : List UInt8) : BitVec 64 :=
  finish (absorbWord (absorbBlocks (initialWords key) message) (lastWord message))

/-- The published test vector. -/
example : sipHash24 [0, 1, 2, 3, 4, 5, 6, 7, 8, 9, 10, 11, 12, 13, 14, 15]
    [0, 1, 2, 3, 4, 5, 6, 7, 8, 9, 10, 11, 12, 13, 14] = 0xa129ca6149be45e5 := by
  decide +kernel

/-! ### Absorbing a stream -/

/-- Absorbing a message and a further chunk: the full words of the message, then those of what was
pending together with the chunk. -/
theorem absorbBlocks_append (v : SipWords) (message chunk : List UInt8) :
    absorbBlocks v (message ++ chunk) =
      absorbBlocks (absorbBlocks v message) (pending 8 message ++ chunk) := by
  simp only [absorbBlocks]
  rw [blocks_append (by norm_num), List.map_append, List.foldl_append]

theorem absorbBlocks_of_lt (v : SipWords) {message : List UInt8} (h : message.length < 8) :
    absorbBlocks v message = v := by
  rw [absorbBlocks, blocks_of_lt h, List.map_nil, List.foldl_nil]

theorem absorbBlocks_block_append (v : SipWords) {block : List UInt8} (hblock : block.length = 8)
    (rest : List UInt8) :
    absorbBlocks v (block ++ rest) = absorbBlocks (absorbWord v (wordOf block)) rest := by
  simp only [absorbBlocks]
  rw [blocks_block_append (by norm_num) hblock, List.map_cons, List.foldl_cons]

end PythonSystemd.Siphash24
