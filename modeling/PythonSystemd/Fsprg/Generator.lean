import PythonSystemd.Fsprg.Primes

/-!
# The seekable forward-secure generator

The functions of `fsprg.c` that build, evolve, seek and read a generator, on buffers that carry
their bounds: `FSPRG_GenMK`, `FSPRG_GenState0`, `FSPRG_Evolve`, `FSPRG_GetEpoch`, `FSPRG_Seek` and
`FSPRG_GetKey`, with `gensquare`, `twopowmodphi` and the two halves of the Chinese remainder
computation. A buffer that the C function fills is passed in with whatever it held before.

Left out: `initialize_libgcrypt`, which only sets the library up.
-/

set_option autoImplicit false
set_option relaxedAutoImplicit false

namespace PythonSystemd.Fsprg

open Library.CheckedMemory

def fsprgRecommendedSecpar : ℕ := 1536

def fsprgRecommendedSeedlen : ℕ := 96 / 8

/-! ### Squares and exponents -/

def gensquare (gcrypt : Gcrypt) (n : ℕ) (seed : List UInt8) (idx : UInt32) (secpar : ℕ) :
    Checked ℕ := do
  let buflen := secpar / 8
  let buf := detRandomize gcrypt buflen seed idx
  let buf ← modifyAt buf 0 (· &&& 0x7f)
  let x ← mpiImport buf 0 buflen
  assert (x < n)
  gcryMpiMulm x x n

/-- The loop that counts the used bits of `m`. Shifting a 64-bit word by 64 is undefined. -/
def usedBitsFrom (m : UInt64) (n : ℕ) : Checked ℕ :=
  if n < 64 then
    if (1 : UInt64) <<< UInt64.ofNat n ≤ m then usedBitsFrom m (n + 1) else .ok n
  else .error .undefinedShift
termination_by 64 - n

/-- The square-and-multiply loop, with `n` bits of `m` still to do. -/
def squareAndMultiply (m : UInt64) (phi : ℕ) : (n r : ℕ) → Checked ℕ
  | 0, r => .ok r
  | n + 1, r => do
    let r ← gcryMpiMulm r r phi
    if m &&& (1 : UInt64) <<< UInt64.ofNat n ≠ 0 then
      let r := r + r
      squareAndMultiply m phi n (if r ≥ phi then r - phi else r)
    else squareAndMultiply m phi n r

def twopowmodphi (m : UInt64) (p : ℕ) : Checked ℕ := do
  let phi := p - 1
  let n ← usedBitsFrom m 0
  squareAndMultiply m phi n 1

def crtDecompose (x p q : ℕ) : Checked (ℕ × ℕ) := do
  let xp ← gcryMpiMod x p
  let xq ← gcryMpiMod x q
  return (xp, xq)

def crtCompose (xp xq p q : ℕ) : Checked ℕ := do
  let a ← gcryMpiSubm xq xp q
  let u ← gcryMpiInvm p q
  let a ← gcryMpiMulm a u q
  return p * a + xp

/-! ### Sizes -/

def fsprgMskinbytes (secpar : ℕ) : Checked ℕ := do
  assert (IsValidSecpar secpar)
  return 2 + 2 * (secpar / 2) / 8

def fsprgMpkinbytes (secpar : ℕ) : Checked ℕ := do
  assert (IsValidSecpar secpar)
  return 2 + secpar / 8

def fsprgStateinbytes (secpar : ℕ) : Checked ℕ := do
  assert (IsValidSecpar secpar)
  return 2 + 2 * secpar / 8 + 8

/-! ### Master keys -/

/-- The branch `if (msk)` of `FSPRG_GenMK`. -/
def storeMsk (msk : List UInt8) (secpar : UInt16) (p q : ℕ) : Checked (List UInt8) := do
  let msk ← storeSecpar msk 0 secpar
  let msk ← mpiExport msk (2 + 0 * (secpar.toNat / 2) / 8) ((secpar.toNat / 2) / 8) p
  mpiExport msk (2 + 1 * (secpar.toNat / 2) / 8) ((secpar.toNat / 2) / 8) q

/-- The branch `if (mpk)` of `FSPRG_GenMK`. -/
def storeMpk (mpk : List UInt8) (secpar : UInt16) (p q : ℕ) : Checked (List UInt8) := do
  let n := p * q
  assert (gcryMpiGetNbits n = secpar.toNat)
  let mpk ← storeSecpar mpk 0 secpar
  mpiExport mpk 2 (secpar.toNat / 8) n

/-- The seed that `FSPRG_GenMK` works with: fresh random bytes stand in for a null pointer. -/
def effectiveSeed (gcrypt : Gcrypt) (seed : Option (List UInt8)) : List UInt8 :=
  seed.getD (gcrypt.randomize fsprgRecommendedSeedlen)

/-- Runs `store` on a buffer that was passed, and does nothing for a null pointer. -/
def storeIfPassed (buffer : Option (List UInt8))
    (store : List UInt8 → Checked (List UInt8)) : Checked (Option (List UInt8)) :=
  match buffer with
  | none => .ok none
  | some buffer => do
    let buffer ← store buffer
    return some buffer

def fsprgGenMK (gcrypt : Gcrypt) (msk mpk : Option (List UInt8)) (seed : Option (List UInt8))
    (secpar : ℕ) : Checked (Option (List UInt8) × Option (List UInt8)) := do
  assert (IsValidSecpar secpar)
  let secpar := UInt16.ofNat secpar
  let seed := effectiveSeed gcrypt seed
  let p ← genprime3mod4 gcrypt (secpar.toNat / 2) seed rndGenP
  let q ← genprime3mod4 gcrypt (secpar.toNat / 2) seed rndGenQ
  let msk ← storeIfPassed msk fun msk ↦ storeMsk msk secpar p q
  let mpk ← storeIfPassed mpk fun mpk ↦ storeMpk mpk secpar p q
  return (msk, mpk)

/-! ### States -/

def fsprgGenState0 (gcrypt : Gcrypt) (state mpk seed : List UInt8) : Checked (List UInt8) := do
  let secpar ← readSecpar mpk 0
  let n ← mpiImport mpk 2 (secpar.toNat / 8)
  let x ← gensquare gcrypt n seed rndGenX secpar.toNat
  let header ← readAt mpk 0 (2 + secpar.toNat / 8)
  let state ← writeAt state 0 header
  let state ← mpiExport state (2 + 1 * secpar.toNat / 8) (secpar.toNat / 8) x
  writeAt state (2 + 2 * secpar.toNat / 8) (List.replicate 8 0)

def fsprgEvolve (state : List UInt8) : Checked (List UInt8) := do
  let secpar ← readSecpar state 0
  let n ← mpiImport state (2 + 0 * secpar.toNat / 8) (secpar.toNat / 8)
  let x ← mpiImport state (2 + 1 * secpar.toNat / 8) (secpar.toNat / 8)
  let epoch ← uint64Import state (2 + 2 * secpar.toNat / 8) 8
  let x ← gcryMpiMulm x x n
  let epoch := epoch + 1
  let state ← mpiExport state (2 + 1 * secpar.toNat / 8) (secpar.toNat / 8) x
  uint64Export state (2 + 2 * secpar.toNat / 8) 8 epoch

/-- `count` calls of `FSPRG_Evolve` in a row. -/
def evolveTimes : (count : ℕ) → (state : List UInt8) → Checked (List UInt8)
  | 0, state => .ok state
  | count + 1, state => do
    let state ← evolveTimes count state
    fsprgEvolve state

def fsprgGetEpoch (state : List UInt8) : Checked UInt64 := do
  let secpar ← readSecpar state 0
  uint64Import state (2 + 2 * secpar.toNat / 8) 8

def fsprgSeek (gcrypt : Gcrypt) (state : List UInt8) (epoch : UInt64) (msk seed : List UInt8) :
    Checked (List UInt8) := do
  let secpar ← readSecpar msk 0
  let p ← mpiImport msk (2 + 0 * (secpar.toNat / 2) / 8) ((secpar.toNat / 2) / 8)
  let q ← mpiImport msk (2 + 1 * (secpar.toNat / 2) / 8) ((secpar.toNat / 2) / 8)
  let n := p * q
  let x ← gensquare gcrypt n seed rndGenX secpar.toNat
  let (xp, xq) ← crtDecompose x p q
  let kp ← twopowmodphi epoch p
  let kq ← twopowmodphi epoch q
  let xp ← gcryMpiPowm xp kp p
  let xq ← gcryMpiPowm xq kq q
  let xm ← crtCompose xp xq p q
  let state ← storeSecpar state 0 secpar
  let state ← mpiExport state (2 + 0 * secpar.toNat / 8) (secpar.toNat / 8) n
  let state ← mpiExport state (2 + 1 * secpar.toNat / 8) (secpar.toNat / 8) xm
  uint64Export state (2 + 2 * secpar.toNat / 8) 8 epoch

def fsprgGetKey (gcrypt : Gcrypt) (state key : List UInt8) (idx : UInt32) :
    Checked (List UInt8) := do
  let secpar ← readSecpar state 0
  let seed ← readAt state 2 (2 * secpar.toNat / 8 + 8)
  writeAt key 0 (detRandomize gcrypt key.length seed idx)

end PythonSystemd.Fsprg
