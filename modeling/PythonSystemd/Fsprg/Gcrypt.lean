import Mathlib.Data.Int.GCD
import PythonSystemd.Library.BigEndian
import PythonSystemd.Library.CheckedMemory

/-!
# The part of libgcrypt that fsprg.c calls

`gcry_mpi_*` are exact: a multi-precision integer is a natural number and a division by zero is a
fault. The message digest and the source of random bytes are the fields of `Gcrypt`, arbitrary
functions of which only the length of the output is fixed.
-/

set_option autoImplicit false
set_option relaxedAutoImplicit false

namespace PythonSystemd.Fsprg

open Library.BigEndian Library.CheckedMemory

/-- The digest `RND_HASH` and the bytes that `gcry_randomize` fills a buffer with. -/
structure Gcrypt where
  digest : List UInt8 → List UInt8
  digest_length : ∀ message, (digest message).length = 32
  randomize : ℕ → List UInt8
  randomize_length : ∀ length, (randomize length).length = length

/-- The digest given by a table of messages, with which the generator runs on fixed inputs. -/
def Gcrypt.ofTable (table : List (List UInt8 × Vector UInt8 32)) : Gcrypt where
  digest message := ((table.lookup message).getD (Vector.replicate 32 0)).toList
  digest_length _ := Vector.length_toList
  randomize length := List.replicate length 0
  randomize_length _ := List.length_replicate

/-- `gcry_md_get_algo_dlen (RND_HASH)`. -/
abbrev rndHashDlen : ℕ := 32

abbrev gcryMpiGetNbits (x : ℕ) : ℕ := x.size

/-- `gcry_mpi_print` in the format `GCRYMPI_FMT_USG`: the bytes written and their number. -/
abbrev gcryMpiPrint (x : ℕ) : List UInt8 × ℕ := (minimalBytes x, (minimalBytes x).length)

/-- `gcry_mpi_scan` in the format `GCRYMPI_FMT_USG`. -/
abbrev gcryMpiScan (bytes : List UInt8) : ℕ := ofBytes bytes

/-- A reduction modulo `m`, which divides. -/
def reduce (x : ℤ) (m : ℕ) : Checked ℕ :=
  if m = 0 then .error .divisionByZero else .ok (x % m).toNat

def gcryMpiMod (x m : ℕ) : Checked ℕ := reduce x m

def gcryMpiMulm (u v m : ℕ) : Checked ℕ := reduce (u * v) m

def gcryMpiSubm (u v m : ℕ) : Checked ℕ := reduce (u - v) m

def gcryMpiPowm (base exponent m : ℕ) : Checked ℕ := reduce (base ^ exponent) m

/-- `gcry_mpi_invm (x, a, m)`: the inverse of `a` modulo `m`. Where there is none the call leaves
the fresh `x`, which is zero. -/
def gcryMpiInvm (a m : ℕ) : Checked ℕ :=
  if a.Coprime m then reduce (a.gcdA m) m else .ok 0

/-! ### Values of the reductions -/

theorem reduce_natCast {m : ℕ} (hm : 0 < m) (x : ℕ) : reduce x m = .ok (x % m) := by
  unfold reduce
  rw [if_neg hm.ne', ← Int.natCast_mod, Int.toNat_natCast]

theorem gcryMpiMod_eq {m : ℕ} (hm : 0 < m) (x : ℕ) : gcryMpiMod x m = .ok (x % m) :=
  reduce_natCast hm x

theorem gcryMpiMulm_eq {m : ℕ} (hm : 0 < m) (u v : ℕ) : gcryMpiMulm u v m = .ok (u * v % m) := by
  unfold gcryMpiMulm
  rw [← Nat.cast_mul, reduce_natCast hm]

theorem gcryMpiSubm_eq {m : ℕ} (hm : 0 < m) (u v : ℕ) :
    gcryMpiSubm u v m = .ok (((u : ℤ) - v) % m).toNat :=
  if_neg hm.ne'

theorem gcryMpiPowm_eq {m : ℕ} (hm : 0 < m) (base exponent : ℕ) :
    gcryMpiPowm base exponent m = .ok (base ^ exponent % m) := by
  unfold gcryMpiPowm
  rw [← Nat.cast_pow, reduce_natCast hm]

/-- The inverse exists and inverts whenever the two numbers are coprime. -/
theorem gcryMpiInvm_eq {a m : ℕ} (hm : 0 < m) (hcoprime : a.Coprime m) :
    ∃ u, gcryMpiInvm a m = .ok u ∧ a * u ≡ 1 [MOD m] := by
  refine ⟨(a.gcdA m % m).toNat, ?_, ?_⟩
  · unfold gcryMpiInvm reduce
    rw [if_pos hcoprime, if_neg hm.ne']
  · have hnonneg : 0 ≤ a.gcdA m % m := Int.emod_nonneg _ (by omega)
    have hbezout := Nat.gcd_eq_gcd_ab a m
    rw [hcoprime.gcd_eq_one] at hbezout
    rw [← Int.natCast_modEq_iff, Nat.cast_mul, Int.toNat_of_nonneg hnonneg]
    calc (a : ℤ) * (a.gcdA m % m) ≡ a * a.gcdA m [ZMOD m] :=
          Int.ModEq.mul_left _ (Int.mod_modEq _ _)
      _ ≡ a * a.gcdA m + m * a.gcdB m [ZMOD m] := (Int.modEq_add_fac_self).symm
      _ = ((1 : ℕ) : ℤ) := hbezout.symm

end PythonSystemd.Fsprg
