import Mathlib.Tactic.NormNum.Prime
import PythonSystemd.Fsprg.Layout

/-!
# Master key generation

What `FSPRG_GenMK` returns, and when it returns at all. `genprime3mod4` starts in the upper
quarter of the numbers of `secpar / 2` bits and takes the next prime that is `3` modulo `4`. The
masks bound only the start: a start with no such prime left in the range gives a prime of one bit
more, and the assertions of `mpi_export` and on the size of the modulus stop the process. Two
starts with no prime between them give the same prime twice.

`MasterPrimes` is a pair of primes for which the master keys exist.
`exists_masterPrimes_of_fsprgGenMK` says that a run of `FSPRG_GenMK` that is asked for both keys
and returns has stored such a pair, and `generatesUsableKey_iff` which starts lead to distinct
primes of the right size.
-/

set_option autoImplicit false
set_option relaxedAutoImplicit false

namespace PythonSystemd.Fsprg

open Library.BigEndian Library.CheckedMemory Library.PrimesThreeModFour

/-- Two primes from which `FSPRG_GenMK` can build both master keys: they are `3` modulo `4`, fit
half the parameter, and their product has exactly as many bits as the parameter says. -/
structure MasterPrimes (secpar : ℕ) where
  p : ℕ
  q : ℕ
  p_prime : p.Prime
  q_prime : q.Prime
  p_mod : p % 4 = 3
  q_mod : q % 4 = 3
  three_lt_p : 3 < p
  three_lt_q : 3 < q
  p_lt : p < 2 ^ (secpar / 2)
  q_lt : q < 2 ^ (secpar / 2)
  size_eq : (p * q).size = secpar

namespace MasterPrimes

variable {secpar : ℕ} (primes : MasterPrimes secpar)

/-- The modulus. -/
def n : ℕ := primes.p * primes.q

theorem n_lt : primes.n < 2 ^ secpar :=
  Nat.size_le.mp primes.size_eq.le

/-- The modulus has its upper bit set, so it is above every number that `gensquare` squares. -/
theorem le_n (h : IsValidSecpar secpar) : 2 ^ (secpar - 1) ≤ primes.n := by
  have hpos := h.2.1
  refine Nat.lt_size.mp ?_
  have hsize := primes.size_eq
  unfold n
  omega

theorem n_pos : 0 < primes.n :=
  Nat.mul_pos primes.p_prime.pos primes.q_prime.pos

theorem coprime (hne : primes.p ≠ primes.q) : primes.p.Coprime primes.q :=
  (Nat.coprime_primes primes.p_prime primes.q_prime).mpr hne

end MasterPrimes

/-! ### The primes that the search finds -/

section Search

variable {secpar : ℕ}

/-- The number at which the search for a master prime starts. -/
def masterStart (gcrypt : Gcrypt) (secpar : ℕ) (seed : List UInt8) (idx : UInt32) : ℕ :=
  primeStart (detRandomize gcrypt (secpar / 2 / 8) seed idx)

theorem detRandomize_ne_nil (gcrypt : Gcrypt) {buflen : ℕ} (hpos : 0 < buflen) (seed : List UInt8)
    (idx : UInt32) : detRandomize gcrypt buflen seed idx ≠ [] := by
  rw [← List.length_pos_iff, length_detRandomize]
  exact hpos

theorem masterStart_mod_four (h : IsValidSecpar secpar) (gcrypt : Gcrypt) (seed : List UInt8)
    (idx : UInt32) : masterStart gcrypt secpar seed idx % 4 = 3 :=
  primeStart_mod_four (detRandomize_ne_nil gcrypt (by have := h.2.1; omega) seed idx)

/-- The start has its two upper bits set. -/
theorem masterStart_ge (h : IsValidSecpar secpar) (gcrypt : Gcrypt) (seed : List UInt8)
    (idx : UInt32) : 3 * 2 ^ (secpar / 2) ≤ 4 * masterStart gcrypt secpar seed idx := by
  have hlow := h.2.1
  have hge := primeStart_ge (detRandomize_ne_nil gcrypt (by omega : 0 < secpar / 2 / 8) seed idx)
  rw [length_detRandomize] at hge
  have hpow : 256 * 256 ^ (secpar / 2 / 8 - 1) = 2 ^ (secpar / 2) := by
    rw [← pow_succ', ← h.pow_half_field]
    congr 1
    omega
  unfold masterStart
  omega

theorem three_lt_masterStart (h : IsValidSecpar secpar) (gcrypt : Gcrypt) (seed : List UInt8)
    (idx : UInt32) : 3 < masterStart gcrypt secpar seed idx := by
  have hge := masterStart_ge h gcrypt seed idx
  have hpow : 2 ^ 8 ≤ 2 ^ (secpar / 2) :=
    Nat.pow_le_pow_right (by norm_num) (by have := h.2.1; omega)
  omega

/-- The prime that the search finds from a seed and an index. -/
def masterPrime (h : IsValidSecpar secpar) (gcrypt : Gcrypt) (seed : List UInt8) (idx : UInt32) :
    ℕ :=
  searchPrime (masterStart gcrypt secpar seed idx) (masterStart_mod_four h gcrypt seed idx)

theorem genprime3mod4_eq_masterPrime (h : IsValidSecpar secpar) (gcrypt : Gcrypt)
    (seed : List UInt8) (idx : UInt32) :
    genprime3mod4 gcrypt (secpar / 2) seed idx = .ok (masterPrime h gcrypt seed idx) :=
  genprime3mod4_eq_ok gcrypt (by have := h.1; omega) (by have := h.2.1; omega) seed idx
    (masterStart_mod_four h gcrypt seed idx)

theorem masterPrime_isLeast (h : IsValidSecpar secpar) (gcrypt : Gcrypt) (seed : List UInt8)
    (idx : UInt32) :
    IsLeast (primesFrom (masterStart gcrypt secpar seed idx)) (masterPrime h gcrypt seed idx) :=
  searchPrime_isLeast _ _

/-- Two numbers from the upper quarter of `bits` bits have a product of `2 * bits` bits. -/
theorem size_mul_of_upper_quarter {bits p q : ℕ} (hbits : 2 ≤ bits) (hp : 3 * 2 ^ bits ≤ 4 * p)
    (hq : 3 * 2 ^ bits ≤ 4 * q) (hplt : p < 2 ^ bits) (hqlt : q < 2 ^ bits) :
    (p * q).size = 2 * bits := by
  have hsquare : 2 ^ (2 * bits) = 2 ^ bits * 2 ^ bits := by rw [two_mul, pow_add]
  apply le_antisymm
  · rw [Nat.size_le, hsquare]
    exact Nat.mul_lt_mul'' hplt hqlt
  · have hhalf : 2 * 2 ^ (2 * bits - 1) = 2 ^ bits * 2 ^ bits := by
      rw [← pow_succ', ← hsquare]
      congr 1
      omega
    have hproduct : 3 * 2 ^ bits * (3 * 2 ^ bits) ≤ 4 * p * (4 * q) := Nat.mul_le_mul hp hq
    have hlower : 2 ^ (2 * bits - 1) ≤ p * q := by nlinarith
    have hsize := Nat.lt_size.mpr hlower
    omega

/-- The two primes of a seed, when both fit. -/
def masterPrimes (h : IsValidSecpar secpar) (gcrypt : Gcrypt) (seed : List UInt8)
    (hp : masterPrime h gcrypt seed rndGenP < 2 ^ (secpar / 2))
    (hq : masterPrime h gcrypt seed rndGenQ < 2 ^ (secpar / 2)) : MasterPrimes secpar :=
  have hleastP := (masterPrime_isLeast h gcrypt seed rndGenP).1
  have hleastQ := (masterPrime_isLeast h gcrypt seed rndGenQ).1
  { p := masterPrime h gcrypt seed rndGenP
    q := masterPrime h gcrypt seed rndGenQ
    p_prime := hleastP.2.1
    q_prime := hleastQ.2.1
    p_mod := hleastP.2.2
    q_mod := hleastQ.2.2
    three_lt_p := (three_lt_masterStart h gcrypt seed rndGenP).trans_le hleastP.1
    three_lt_q := (three_lt_masterStart h gcrypt seed rndGenQ).trans_le hleastQ.1
    p_lt := hp
    q_lt := hq
    size_eq := by
      have hgeP := (masterStart_ge h gcrypt seed rndGenP).trans (Nat.mul_le_mul_left 4 hleastP.1)
      have hgeQ := (masterStart_ge h gcrypt seed rndGenQ).trans (Nat.mul_le_mul_left 4 hleastQ.1)
      have hlow := h.2.1
      have heven := h.1
      rw [size_mul_of_upper_quarter (by omega) hgeP hgeQ hp hq]
      omega }

end Search

/-! ### When `FSPRG_GenMK` returns -/

section GenMK

variable {secpar : ℕ} {gcrypt : Gcrypt} {seed : Option (List UInt8)} {msk mpk : List UInt8}

/-- Asked for both keys, `FSPRG_GenMK` runs both searches and then stores the two keys. -/
theorem fsprgGenMK_eq (h : IsValidSecpar secpar) (gcrypt : Gcrypt) (seed : Option (List UInt8))
    (msk mpk : Option (List UInt8)) :
    fsprgGenMK gcrypt msk mpk seed secpar = (do
      let msk ← storeIfPassed msk fun msk ↦ storeMsk msk (UInt16.ofNat secpar)
        (masterPrime h gcrypt (effectiveSeed gcrypt seed) rndGenP)
        (masterPrime h gcrypt (effectiveSeed gcrypt seed) rndGenQ)
      let mpk ← storeIfPassed mpk fun mpk ↦ storeMpk mpk (UInt16.ofNat secpar)
        (masterPrime h gcrypt (effectiveSeed gcrypt seed) rndGenP)
        (masterPrime h gcrypt (effectiveSeed gcrypt seed) rndGenQ)
      return (msk, mpk)) := by
  simp only [fsprgGenMK, assert_of h, ok_bind, h.toNat_ofNat, genprime3mod4_eq_masterPrime h]

/-- When both primes fit, each key that was asked for is stored. -/
theorem fsprgGenMK_eq_ok (h : IsValidSecpar secpar) {msk mpk : Option (List UInt8)}
    (hmsk : ∀ buffer ∈ msk, buffer.length = 2 + secpar / 16 + secpar / 16)
    (hmpk : ∀ buffer ∈ mpk, buffer.length = 2 + secpar / 8)
    (hp : masterPrime h gcrypt (effectiveSeed gcrypt seed) rndGenP < 2 ^ (secpar / 2))
    (hq : masterPrime h gcrypt (effectiveSeed gcrypt seed) rndGenQ < 2 ^ (secpar / 2)) :
    fsprgGenMK gcrypt msk mpk seed secpar =
      .ok (msk.map fun _ ↦ mskBytes secpar (masterPrimes h gcrypt _ hp hq).p
          (masterPrimes h gcrypt _ hp hq).q,
        mpk.map fun _ ↦ mpkBytes secpar (masterPrimes h gcrypt _ hp hq).n) := by
  have hstoreMsk : storeIfPassed msk (fun msk ↦ storeMsk msk (UInt16.ofNat secpar)
      (masterPrime h gcrypt (effectiveSeed gcrypt seed) rndGenP)
      (masterPrime h gcrypt (effectiveSeed gcrypt seed) rndGenQ)) =
      .ok (msk.map fun _ ↦ mskBytes secpar (masterPrimes h gcrypt _ hp hq).p
        (masterPrimes h gcrypt _ hp hq).q) := by
    cases msk with
    | none => rfl
    | some buffer =>
      rw [storeIfPassed, storeMsk_eq_ok h (hmsk buffer rfl) hp hq]
      rfl
  have hstoreMpk : storeIfPassed mpk (fun mpk ↦ storeMpk mpk (UInt16.ofNat secpar)
      (masterPrime h gcrypt (effectiveSeed gcrypt seed) rndGenP)
      (masterPrime h gcrypt (effectiveSeed gcrypt seed) rndGenQ)) =
      .ok (mpk.map fun _ ↦ mpkBytes secpar (masterPrimes h gcrypt _ hp hq).n) := by
    cases mpk with
    | none => rfl
    | some buffer =>
      have hstore := storeMpk_eq_ok h (hmpk buffer rfl) (masterPrimes h gcrypt _ hp hq).size_eq
      change storeMpk buffer (UInt16.ofNat secpar)
        (masterPrime h gcrypt (effectiveSeed gcrypt seed) rndGenP)
        (masterPrime h gcrypt (effectiveSeed gcrypt seed) rndGenQ) = _ at hstore
      rw [storeIfPassed, hstore]
      rfl
  rw [fsprgGenMK_eq h, hstoreMsk, ok_bind, hstoreMpk, ok_bind, pure_eq_ok]

/-- Asked for both keys, both are stored. -/
theorem fsprgGenMK_both_eq_ok (h : IsValidSecpar secpar)
    (hmsk : msk.length = 2 + secpar / 16 + secpar / 16) (hmpk : mpk.length = 2 + secpar / 8)
    (hp : masterPrime h gcrypt (effectiveSeed gcrypt seed) rndGenP < 2 ^ (secpar / 2))
    (hq : masterPrime h gcrypt (effectiveSeed gcrypt seed) rndGenQ < 2 ^ (secpar / 2)) :
    fsprgGenMK gcrypt (some msk) (some mpk) seed secpar =
      .ok (some (mskBytes secpar (masterPrimes h gcrypt _ hp hq).p
          (masterPrimes h gcrypt _ hp hq).q),
        some (mpkBytes secpar (masterPrimes h gcrypt _ hp hq).n)) :=
  fsprgGenMK_eq_ok h (by simpa using hmsk) (by simpa using hmpk) hp hq

/-- When a prime does not fit, an assertion stops `FSPRG_GenMK`. -/
theorem fsprgGenMK_eq_error (h : IsValidSecpar secpar)
    (hmsk : msk.length = 2 + secpar / 16 + secpar / 16) (mpk : Option (List UInt8))
    (hlarge : 2 ^ (secpar / 2) ≤ masterPrime h gcrypt (effectiveSeed gcrypt seed) rndGenP ∨
      2 ^ (secpar / 2) ≤ masterPrime h gcrypt (effectiveSeed gcrypt seed) rndGenQ) :
    fsprgGenMK gcrypt (some msk) mpk seed secpar = .error .assertion := by
  rw [fsprgGenMK_eq h]
  simp only [storeIfPassed, storeMsk_eq_error h hmsk hlarge, error_bind]

/-- A run that was asked for both keys and returned has found two primes that fit, and the
buffers hold them and their product. -/
theorem exists_masterPrimes_of_fsprgGenMK (h : IsValidSecpar secpar)
    (hmsk : msk.length = 2 + secpar / 16 + secpar / 16) (hmpk : mpk.length = 2 + secpar / 8)
    {result : Option (List UInt8) × Option (List UInt8)}
    (hrun : fsprgGenMK gcrypt (some msk) (some mpk) seed secpar = .ok result) :
    ∃ primes : MasterPrimes secpar,
      genprime3mod4 gcrypt (secpar / 2) (effectiveSeed gcrypt seed) rndGenP = .ok primes.p ∧
      genprime3mod4 gcrypt (secpar / 2) (effectiveSeed gcrypt seed) rndGenQ = .ok primes.q ∧
      result = (some (mskBytes secpar primes.p primes.q), some (mpkBytes secpar primes.n)) := by
  by_cases hfit : masterPrime h gcrypt (effectiveSeed gcrypt seed) rndGenP < 2 ^ (secpar / 2) ∧
      masterPrime h gcrypt (effectiveSeed gcrypt seed) rndGenQ < 2 ^ (secpar / 2)
  · refine ⟨masterPrimes h gcrypt _ hfit.1 hfit.2, genprime3mod4_eq_masterPrime h _ _ _,
      genprime3mod4_eq_masterPrime h _ _ _, ?_⟩
    rw [fsprgGenMK_both_eq_ok h hmsk hmpk hfit.1 hfit.2] at hrun
    exact (Except.ok.inj hrun).symm
  · rw [fsprgGenMK_eq_error h hmsk _ (by omega)] at hrun
    cases hrun

end GenMK

/-! ### Usable keys -/

section Usable

variable {secpar : ℕ} {gcrypt : Gcrypt} {seed : Option (List UInt8)} {msk mpk : List UInt8}

/-- `FSPRG_GenMK` returns, its primes are distinct and have the bits their comment promises, the
modulus has the size that the parameter names, and `CRT_compose` finds an inverse. -/
def GeneratesUsableKey (gcrypt : Gcrypt) (msk mpk : List UInt8) (seed : Option (List UInt8))
    (secpar : ℕ) : Prop :=
  ∃ p q inverse : ℕ,
    fsprgGenMK gcrypt (some msk) (some mpk) seed secpar =
      .ok (some (mskBytes secpar p q), some (mpkBytes secpar (p * q))) ∧
    p.Prime ∧ q.Prime ∧ p % 4 = 3 ∧ q % 4 = 3 ∧
    gcryMpiGetNbits p = secpar / 2 ∧ gcryMpiGetNbits q = secpar / 2 ∧ p ≠ q ∧
    gcryMpiGetNbits (p * q) = secpar ∧
    gcryMpiInvm p q = .ok inverse ∧ p * inverse ≡ 1 [MOD q]

theorem masterPrime_lt_iff (h : IsValidSecpar secpar) (seed : List UInt8) (idx : UInt32) :
    masterPrime h gcrypt seed idx < 2 ^ (secpar / 2) ↔
      ∃ r ∈ primesFrom (masterStart gcrypt secpar seed idx), r < 2 ^ (secpar / 2) :=
  searchPrime_lt_iff _

theorem masterPrime_ne_iff (h : IsValidSecpar secpar) (seed : List UInt8) (idx idx' : UInt32) :
    masterPrime h gcrypt seed idx ≠ masterPrime h gcrypt seed idx' ↔
      ∃ r ∈ primesFrom (min (masterStart gcrypt secpar seed idx)
          (masterStart gcrypt secpar seed idx')),
        r < max (masterStart gcrypt secpar seed idx) (masterStart gcrypt secpar seed idx') :=
  searchPrime_ne_iff _ _

/-- A prime that fits has all its bits, since the search starts with the upper bits set. -/
theorem size_masterPrime (h : IsValidSecpar secpar) {seed : List UInt8} {idx : UInt32}
    (hfits : masterPrime h gcrypt seed idx < 2 ^ (secpar / 2)) :
    (masterPrime h gcrypt seed idx).size = secpar / 2 := by
  have hlow := h.2.1
  have hge := masterStart_ge h gcrypt seed idx
  have hfrom := (masterPrime_isLeast h gcrypt seed idx).1.1
  have hhalf : 2 ^ (secpar / 2) = 2 * 2 ^ (secpar / 2 - 1) := by
    rw [← pow_succ']
    congr 1
    omega
  have hlower : 2 ^ (secpar / 2 - 1) ≤ masterPrime h gcrypt seed idx := by omega
  have hupper := Nat.size_le.mpr hfits
  have hsize := Nat.lt_size.mpr hlower
  omega

/-- A stored master secret key determines its primes. -/
theorem mskBytes_inj (h : IsValidSecpar secpar) {p q p' q' : ℕ} (hp : p < 2 ^ (secpar / 2))
    (hq : q < 2 ^ (secpar / 2)) (hp' : p' < 2 ^ (secpar / 2)) (hq' : q' < 2 ^ (secpar / 2))
    (heq : mskBytes secpar p q = mskBytes secpar p' q') : p = p' ∧ q = q' := by
  have hfirst := mpiImport_mskBytes_p h q hp
  have hsecond := mpiImport_mskBytes_q h p hq
  rw [heq, mpiImport_mskBytes_p h q' hp'] at hfirst
  rw [heq, mpiImport_mskBytes_q h p' hq'] at hsecond
  exact ⟨(Except.ok.inj hfirst).symm, (Except.ok.inj hsecond).symm⟩

/-- `FSPRG_GenMK` gives a usable key exactly when each of its two starts has a prime that is `3`
modulo `4` before the end of the range, and one such prime separates the two starts. -/
theorem generatesUsableKey_iff (h : IsValidSecpar secpar)
    (hmsk : fsprgMskinbytes secpar = .ok msk.length)
    (hmpk : fsprgMpkinbytes secpar = .ok mpk.length) :
    GeneratesUsableKey gcrypt msk mpk seed secpar ↔
      (∃ r ∈ primesFrom (masterStart gcrypt secpar (effectiveSeed gcrypt seed) rndGenP),
        r < 2 ^ (secpar / 2)) ∧
      (∃ r ∈ primesFrom (masterStart gcrypt secpar (effectiveSeed gcrypt seed) rndGenQ),
        r < 2 ^ (secpar / 2)) ∧
      ∃ r ∈ primesFrom (min (masterStart gcrypt secpar (effectiveSeed gcrypt seed) rndGenP)
          (masterStart gcrypt secpar (effectiveSeed gcrypt seed) rndGenQ)),
        r < max (masterStart gcrypt secpar (effectiveSeed gcrypt seed) rndGenP)
          (masterStart gcrypt secpar (effectiveSeed gcrypt seed) rndGenQ) := by
  have hmsk := h.length_msk hmsk
  have hmpk := h.length_mpk hmpk
  rw [← masterPrime_lt_iff h, ← masterPrime_lt_iff h, ← masterPrime_ne_iff h]
  constructor
  · rintro ⟨p, q, inverse, hrun, -, -, -, -, hp, hq, hne, -, -, -⟩
    obtain ⟨primes, hgenP, hgenQ, hresult⟩ :=
      exists_masterPrimes_of_fsprgGenMK h hmsk hmpk hrun
    have hplt : p < 2 ^ (secpar / 2) := Nat.size_le.mp hp.le
    have hqlt : q < 2 ^ (secpar / 2) := Nat.size_le.mp hq.le
    obtain ⟨rfl, rfl⟩ := mskBytes_inj h hplt hqlt primes.p_lt primes.q_lt
      (Option.some.inj (Prod.ext_iff.mp hresult).1)
    rw [genprime3mod4_eq_masterPrime h] at hgenP hgenQ
    have hmasterP := Except.ok.inj hgenP
    have hmasterQ := Except.ok.inj hgenQ
    rw [hmasterP, hmasterQ]
    exact ⟨hplt, hqlt, hne⟩
  · rintro ⟨hp, hq, hne⟩
    obtain ⟨inverse, hinverse, hinverts⟩ := gcryMpiInvm_eq
      (masterPrimes h gcrypt _ hp hq).q_prime.pos
      ((masterPrimes h gcrypt _ hp hq).coprime hne)
    refine ⟨_, _, inverse, fsprgGenMK_both_eq_ok h hmsk hmpk hp hq, ?_⟩
    exact ⟨(masterPrimes h gcrypt _ hp hq).p_prime, (masterPrimes h gcrypt _ hp hq).q_prime,
      (masterPrimes h gcrypt _ hp hq).p_mod, (masterPrimes h gcrypt _ hp hq).q_mod,
      size_masterPrime h hp, size_masterPrime h hq, hne, (masterPrimes h gcrypt _ hp hq).size_eq,
      hinverse, hinverts⟩

end Usable

/-! ### A small key

The smallest parameter, with the digests of the messages that two seeds lead to. -/

section SmallKey

variable {secpar : ℕ}

/-- A seed of the recommended length. -/
def sampleSeed (last : UInt8) : List UInt8 :=
  List.replicate 11 0 ++ [last]

/-- SHA-256 on the messages that `det_randomize` hashes for the seeds below. -/
def sampleGcrypt : Gcrypt :=
  .ofTable [
    (sampleSeed 1 ++ uint32Bytes rndGenP ++ uint32Bytes 0,
      #v[0x46, 0x2c, 0xb4, 0x5d, 0x81, 0xe8, 0xfc, 0xa1, 0xb7, 0x9f, 0x1b, 0x2a, 0xac,
      0x83, 0xc8, 0x42, 0xaf, 0xaf, 0x6b, 0xb5, 0x91, 0x28, 0x80, 0xde, 0x84, 0xd9,
      0xbe, 0x0b, 0x72, 0xe4, 0x14, 0xd2]),
    (sampleSeed 1 ++ uint32Bytes rndGenQ ++ uint32Bytes 0,
      #v[0x90, 0x9b, 0x45, 0x05, 0x5f, 0x1f, 0x51, 0x77, 0x06, 0x0e, 0xc8, 0x3f, 0x3b,
      0x4a, 0x57, 0x6c, 0x89, 0xf5, 0xa3, 0xd5, 0x39, 0x5a, 0xab, 0x7d, 0xdf, 0xf4,
      0xf0, 0xa0, 0xe3, 0x21, 0x4f, 0xd2]),
    (sampleSeed 1 ++ uint32Bytes rndGenX ++ uint32Bytes 0,
      #v[0xb4, 0xc0, 0xbe, 0xf4, 0x86, 0xe9, 0xe0, 0x85, 0xf7, 0x4e, 0x1b, 0x87, 0x58,
      0x99, 0x7e, 0x66, 0x13, 0xa8, 0xea, 0x66, 0x87, 0x50, 0x7d, 0xc8, 0x6e, 0x88,
      0x99, 0x45, 0x8e, 0xf2, 0x64, 0xc2]),
    (sampleSeed 8 ++ uint32Bytes rndGenP ++ uint32Bytes 0,
      #v[0x3d, 0xca, 0x42, 0xd7, 0x93, 0x4c, 0x31, 0xbb, 0x89, 0xcd, 0x42, 0x9d, 0xba,
      0xe9, 0xb0, 0x0f, 0x38, 0x32, 0x31, 0xa4, 0x63, 0xa5, 0x1b, 0xe2, 0xd0, 0x02,
      0x9f, 0x6c, 0xaf, 0x55, 0x13, 0xe9])]

theorem masterStart_sample_p : masterStart sampleGcrypt 16 (sampleSeed 1) rndGenP = 199 := by
  rw [masterStart, detRandomize_of_le _ (by decide)]
  decide

theorem masterStart_sample_q : masterStart sampleGcrypt 16 (sampleSeed 1) rndGenQ = 211 := by
  rw [masterStart, detRandomize_of_le _ (by decide)]
  decide

theorem masterStart_sample_large : masterStart sampleGcrypt 16 (sampleSeed 8) rndGenP = 255 := by
  rw [masterStart, detRandomize_of_le _ (by decide)]
  decide

/-- A search that starts at a prime ends there. -/
theorem masterPrime_eq_start (h : IsValidSecpar secpar) {gcrypt : Gcrypt} {seed : List UInt8}
    {idx : UInt32} (hprime : (masterStart gcrypt secpar seed idx).Prime) :
    masterPrime h gcrypt seed idx = masterStart gcrypt secpar seed idx :=
  (masterPrime_isLeast h gcrypt seed idx).unique
    ⟨⟨le_rfl, hprime, masterStart_mod_four h gcrypt seed idx⟩, fun _ hr ↦ hr.1⟩

theorem masterPrime_sample_p (h : IsValidSecpar 16) :
    masterPrime h sampleGcrypt (sampleSeed 1) rndGenP = 199 := by
  rw [masterPrime_eq_start h (by rw [masterStart_sample_p]; norm_num), masterStart_sample_p]

theorem masterPrime_sample_q (h : IsValidSecpar 16) :
    masterPrime h sampleGcrypt (sampleSeed 1) rndGenQ = 211 := by
  rw [masterPrime_eq_start h (by rw [masterStart_sample_q]; norm_num), masterStart_sample_q]

theorem genprime3mod4_sample_p :
    genprime3mod4 sampleGcrypt (16 / 2) (sampleSeed 1) rndGenP = .ok 199 := by
  have hvalid : IsValidSecpar 16 := by decide
  rw [genprime3mod4_eq_masterPrime hvalid, masterPrime_sample_p]

theorem genprime3mod4_sample_q :
    genprime3mod4 sampleGcrypt (16 / 2) (sampleSeed 1) rndGenQ = .ok 211 := by
  have hvalid : IsValidSecpar 16 := by decide
  rw [genprime3mod4_eq_masterPrime hvalid, masterPrime_sample_q]

/-- The two keys of the first seed. -/
theorem fsprgGenMK_sample :
    fsprgGenMK sampleGcrypt (some (List.replicate 4 0)) (some (List.replicate 4 0))
      (some (sampleSeed 1)) 16 =
        .ok (some (mskBytes 16 199 211), some (mpkBytes 16 (199 * 211))) := by
  have hvalid : IsValidSecpar 16 := by decide
  have hp := masterPrime_sample_p hvalid
  have hq := masterPrime_sample_q hvalid
  have hpLt : masterPrime hvalid sampleGcrypt (effectiveSeed sampleGcrypt (some (sampleSeed 1)))
      rndGenP < 2 ^ (16 / 2) := hp.trans_lt (by norm_num)
  have hqLt : masterPrime hvalid sampleGcrypt (effectiveSeed sampleGcrypt (some (sampleSeed 1)))
      rndGenQ < 2 ^ (16 / 2) := hq.trans_lt (by norm_num)
  rw [fsprgGenMK_both_eq_ok hvalid rfl rfl hpLt hqLt]
  simp only [MasterPrimes.n, masterPrimes, effectiveSeed, Option.getD_some, hp, hq]

/-- A seed with a usable key. -/
theorem generatesUsableKey_sample :
    GeneratesUsableKey sampleGcrypt (List.replicate 4 0) (List.replicate 4 0)
      (some (sampleSeed 1)) 16 := by
  refine (generatesUsableKey_iff (by decide) (by decide) (by decide)).mpr ?_
  simp only [effectiveSeed, Option.getD_some, masterStart_sample_p, masterStart_sample_q]
  exact ⟨⟨199, ⟨le_rfl, by norm_num, rfl⟩, by norm_num⟩,
    ⟨211, ⟨le_rfl, by norm_num, rfl⟩, by norm_num⟩,
    ⟨199, ⟨by norm_num, by norm_num, rfl⟩, by norm_num⟩⟩

/-- A seed whose search leaves the range: it starts at `255`, and the next prime has nine bits. -/
theorem not_generatesUsableKey_sample :
    fsprgGenMK sampleGcrypt (some (List.replicate 4 0)) (some (List.replicate 4 0))
        (some (sampleSeed 8)) 16 = .error .assertion ∧
      ¬ GeneratesUsableKey sampleGcrypt (List.replicate 4 0) (List.replicate 4 0)
        (some (sampleSeed 8)) 16 := by
  have hvalid : IsValidSecpar 16 := by decide
  have hlarge : 2 ^ (16 / 2) ≤ masterPrime hvalid sampleGcrypt (sampleSeed 8) rndGenP := by
    obtain ⟨hge, hprime, -⟩ := (masterPrime_isLeast hvalid sampleGcrypt (sampleSeed 8) rndGenP).1
    rw [masterStart_sample_large] at hge
    have hne : masterPrime hvalid sampleGcrypt (sampleSeed 8) rndGenP ≠ 255 := by
      intro heq
      rw [heq] at hprime
      norm_num at hprime
    omega
  have hrun : fsprgGenMK sampleGcrypt (some (List.replicate 4 0)) (some (List.replicate 4 0))
      (some (sampleSeed 8)) 16 = .error .assertion :=
    fsprgGenMK_eq_error hvalid rfl _ (.inl hlarge)
  refine ⟨hrun, ?_⟩
  rintro ⟨p, q, inverse, hok, -⟩
  rw [hrun] at hok
  cases hok

end SmallKey

end PythonSystemd.Fsprg
