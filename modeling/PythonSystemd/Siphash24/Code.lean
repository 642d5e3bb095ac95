import PythonSystemd.Library.CheckedMemory
import PythonSystemd.Siphash24.Definition

/-!
# The functions of siphash24.c

`siphash24_init`, `siphash24_compress`, `siphash24_finalize` and `siphash24`. A pointer into the
chunk is an index, and every read is checked against the length of the chunk.

`siphash24_compress` has three phases: it fills up the word that is pending from earlier chunks,
absorbs the whole words of the rest, and keeps the remaining bytes as the new pending word.
-/

set_option autoImplicit false
set_option relaxedAutoImplicit false

namespace PythonSystemd.Siphash24

open Library.CheckedMemory Library.WordBytes

/-- `struct siphash`. -/
structure Siphash where
  v0 : UInt64
  v1 : UInt64
  v2 : UInt64
  v3 : UInt64
  padding : UInt64
  inlen : UInt64

def unalignedReadLe64 (memory : List UInt8) (offset : ℕ) : Checked UInt64 := do
  let bytes ← readAt memory offset 8
  return UInt64.ofNat (ofBytesLE bytes)

/-- A right shift by 64, for `b` zero, is undefined. -/
def rotateLeft (x : UInt64) (b : UInt8) : Checked UInt64 := do
  assert (b < 64)
  if b = 0 then .error .undefinedShift
  else return x <<< b.toUInt64 ||| x >>> (64 - b.toUInt64)

def sipround (state : Siphash) : Checked Siphash := do
  let v0 := state.v0 + state.v1
  let v1 ← rotateLeft state.v1 13
  let v1 := v1 ^^^ v0
  let v0 ← rotateLeft v0 32
  let v2 := state.v2 + state.v3
  let v3 ← rotateLeft state.v3 16
  let v3 := v3 ^^^ v2
  let v0 := v0 + v3
  let v3 ← rotateLeft v3 21
  let v3 := v3 ^^^ v0
  let v2 := v2 + v1
  let v1 ← rotateLeft v1 17
  let v1 := v1 ^^^ v2
  let v2 ← rotateLeft v2 32
  return { state with v0, v1, v2, v3 }

/-- The four lines around two rounds, at each place that absorbs a word. -/
def compressWord (state : Siphash) (m : UInt64) : Checked Siphash := do
  let state := { state with v3 := state.v3 ^^^ m }
  let state ← sipround state
  let state ← sipround state
  return { state with v0 := state.v0 ^^^ m }

def siphash24Init (k : List UInt8) : Checked Siphash := do
  let k0 ← unalignedReadLe64 k 0
  let k1 ← unalignedReadLe64 k 8
  return {
    v0 := 0x736f6d6570736575 ^^^ k0
    v1 := 0x646f72616e646f6d ^^^ k1
    v2 := 0x6c7967656e657261 ^^^ k0
    v3 := 0x7465646279746573 ^^^ k1
    padding := 0
    inlen := 0 }

/-- The loop that fills up the pending word, from `index` on. -/
def fillPadding (input : List UInt8) (stop index left : ℕ) (padding : UInt64) :
    Checked (ℕ × ℕ × UInt64) :=
  if index < stop ∧ left < 8 then do
    let byte ← cellAt input index
    fillPadding input stop (index + 1) (left + 1)
      (padding ||| byte.toUInt64 <<< UInt64.ofNat (left * 8))
  else .ok (index, left, padding)
termination_by stop - index

/-- The loop over the whole words, from `index` on. -/
def compressWords (input : List UInt8) (stop index : ℕ) (state : Siphash) :
    Checked (ℕ × Siphash) :=
  if index < stop then do
    let m ← unalignedReadLe64 input index
    let state ← compressWord state m
    compressWords input stop (index + 8) state
  else .ok (index, state)
termination_by stop - index

/-- The `switch` on the number of bytes that are left: each case reads one byte and falls through
to the next smaller one. -/
def fillTail (input : List UInt8) (index : ℕ) : (left : ℕ) → (padding : UInt64) → Checked UInt64
  | 0, padding => .ok padding
  | left + 1, padding => do
    let byte ← cellAt input (index + left)
    fillTail input index left (padding ||| byte.toUInt64 <<< UInt64.ofNat (left * 8))

/-- `siphash24_compress` from the line after the pending word on. A pointer below the start of the
chunk is outside the object. -/
def compressRest (input : List UInt8) (stop index : ℕ) (state : Siphash) : Checked Siphash := do
  let excess := (state.inlen % 8).toNat
  let stop ← if excess ≤ stop then .ok (stop - excess) else .error .outOfBounds
  let (index, state) ← compressWords input stop index state
  let left := (state.inlen &&& 7).toNat
  let padding ← fillTail input index left state.padding
  return { state with padding }

def siphash24Compress (input : List UInt8) (state : Siphash) : Checked Siphash := do
  let inlen := input.length
  let stop := inlen
  let left := (state.inlen &&& 7).toNat
  let state := { state with inlen := state.inlen + UInt64.ofNat inlen }
  if left > 0 then do
    let (index, left, padding) ← fillPadding input stop 0 left state.padding
    let state := { state with padding }
    if index = stop ∧ left < 8 then return state
    else do
      let state ← compressWord state state.padding
      compressRest input stop index { state with padding := 0 }
  else compressRest input stop 0 state

def siphash24Finalize (state : Siphash) : Checked UInt64 := do
  let b := state.padding ||| state.inlen <<< 56
  let state ← compressWord state b
  let state := { state with v2 := state.v2 ^^^ 0xff }
  let state ← sipround state
  let state ← sipround state
  let state ← sipround state
  let state ← sipround state
  return state.v0 ^^^ state.v1 ^^^ state.v2 ^^^ state.v3

def siphash24 (input k : List UInt8) : Checked UInt64 := do
  let state ← siphash24Init k
  let state ← siphash24Compress input state
  siphash24Finalize state

/-- `siphash24_compress` on each chunk in order. -/
def siphash24CompressAll (chunks : List (List UInt8)) (state : Siphash) : Checked Siphash :=
  match chunks with
  | [] => .ok state
  | chunk :: chunks => do
    let state ← siphash24Compress chunk state
    siphash24CompressAll chunks state

end PythonSystemd.Siphash24
