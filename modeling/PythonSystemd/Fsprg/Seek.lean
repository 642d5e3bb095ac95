import Mathlib.Data.Nat.Bitwise
import PythonSystemd.Fsprg.ForwardState
import PythonSystemd.Library.CrtExponentiation

/-!
# Seeking is evolving

`FSPRG_Seek` jumps to an epoch from the two primes: it splits the first square at the primes,
raises the halves to powers of two that `twopowmodphi` reduces, and recombines. The result is the
buffer that the same number of calls of `FSPRG_Evolve` gives (`fsprgSeek_eq_evolveTimes`), for
every epoch below `2 ^ 63`, and from there on every run stays well formed
(`wellFormed_of_run`).

`twopowmodphi` counts the used bits of the epoch and then squares and doubles from the upper bit
down. The invariant of that loop is that with `n` bits to do the accumulator is `2` to the power
of the bits already done. An epoch with its upper bit set makes the count shift a 64-bit word by
64, which is undefined; hence the bound.
-/

set_option autoImplicit false
set_option relaxedAutoImplicit false

namespace PythonSystemd.Fsprg

open Library.BigEndian Library.BlumSquares Library.CheckedMemory Library.CrtExponentiation

/-! ### Powers of two modulo `p - 1` -/

section TwoPow

variable {m : UInt64}

theorem toNat_one_shiftLeft {n : ℕ} (hn : n < 64) :
    ((1 : UInt64) <<< UInt64.ofNat n).toNat = 2 ^ n := by
  have hshift : (UInt64.ofNat n).toNat = n := UInt64.toNat_ofNat_of_lt' (by norm_num; omega)
  have hlt : 2 ^ n < 2 ^ 64 := Nat.pow_lt_pow_right (by norm_num) hn
  rw [UInt64.toNat_shiftLeft, hshift, Nat.mod_eq_of_lt hn, UInt64.toNat_one, Nat.one_shiftLeft,
    Nat.mod_eq_of_lt hlt]

/-- Below `2 ^ 63` the count of the used bits ends, at a number of bits that holds `m`. -/
theorem usedBitsFrom_eq_ok (hm : m.toNat < 2 ^ 63) {n : ℕ} (hn : n ≤ 63) :
    ∃ bits ≤ 63, usedBitsFrom m n = .ok bits ∧ m.toNat < 2 ^ bits := by
  induction n using usedBitsFrom.induct m with
  | case1 n hlt hle ih =>
    have hpow : 2 ^ n ≤ m.toNat := by
      have hle := UInt64.le_iff_toNat_le.mp hle
      rwa [toNat_one_shiftLeft hlt] at hle
    have hnext : n ≠ 63 := by
      rintro rfl
      omega
    rw [usedBitsFrom, if_pos hlt, if_pos hle]
    exact ih (by omega)
  | case2 n hlt hgt =>
    refine ⟨n, hn, by rw [usedBitsFrom, if_pos hlt, if_neg hgt], ?_⟩
    have hgt := UInt64.le_iff_toNat_le.not.mp hgt
    rw [toNat_one_shiftLeft hlt] at hgt
    omega
  | case3 n hge => omega

/-- The test of one bit of the exponent. -/
theorem and_one_shiftLeft_ne_zero_iff {n : ℕ} (hn : n < 64) :
    m &&& (1 : UInt64) <<< UInt64.ofNat n ≠ 0 ↔ m.toNat / 2 ^ n % 2 = 1 := by
  have hand : (m &&& (1 : UInt64) <<< UInt64.ofNat n).toNat =
      (m.toNat.testBit n).toNat * 2 ^ n := by
    rw [UInt64.toNat_and, toNat_one_shiftLeft hn, Nat.and_two_pow]
  have hpow : 2 ^ n ≠ 0 := by positivity
  rw [Ne, ← UInt64.toNat_inj, hand, UInt64.toNat_zero, Nat.testBit_eq_decide_div_mod_eq]
  by_cases hbit : m.toNat / 2 ^ n % 2 = 1
  · simp [hbit]
  · simp [hbit]

/-- One subtraction reduces the double of a reduced number. -/
theorem double_reduced {r phi : ℕ} (hr : r < phi) :
    (if r + r ≥ phi then r + r - phi else r + r) = (r + r) % phi := by
  split_ifs with hge
  · rw [Nat.mod_eq_sub_mod hge, Nat.mod_eq_of_lt (by omega)]
  · rw [Nat.mod_eq_of_lt (by omega)]

/-- The loop keeps the accumulator at `2` to the power of the bits already done. -/
theorem squareAndMultiply_eq_ok {phi : ℕ} (hphi : 0 < phi) {n : ℕ} (hn : n ≤ 63) :
    squareAndMultiply m phi n (2 ^ (m.toNat / 2 ^ n) % phi) = .ok (2 ^ m.toNat % phi) := by
  induction n with
  | zero => rw [squareAndMultiply, pow_zero, Nat.div_one]
  | succ n ih =>
    have hhalf : m.toNat / 2 ^ (n + 1) = m.toNat / 2 ^ n / 2 := by
      rw [pow_succ, Nat.div_div_eq_div_mul]
    have hsquare : 2 ^ (m.toNat / 2 ^ (n + 1)) % phi * (2 ^ (m.toNat / 2 ^ (n + 1)) % phi) % phi =
        2 ^ (2 * (m.toNat / 2 ^ n / 2)) % phi := by
      rw [← Nat.mul_mod, ← pow_add, hhalf, two_mul]
    rw [squareAndMultiply, gcryMpiMulm_eq hphi, ok_bind, hsquare]
    by_cases hbit : m.toNat / 2 ^ n % 2 = 1
    · have hdone : 2 * (m.toNat / 2 ^ n / 2) + 1 = m.toNat / 2 ^ n := by omega
      have hdouble : (2 ^ (2 * (m.toNat / 2 ^ n / 2)) % phi +
          2 ^ (2 * (m.toNat / 2 ^ n / 2)) % phi) % phi = 2 ^ (m.toNat / 2 ^ n) % phi := by
        rw [← Nat.add_mod, ← two_mul, ← pow_succ', hdone]
      rw [if_pos ((and_one_shiftLeft_ne_zero_iff (by omega)).mpr hbit)]
      simp only [double_reduced (Nat.mod_lt _ hphi), hdouble]
      exact ih (by omega)
    · have hdone : 2 * (m.toNat / 2 ^ n / 2) = m.toNat / 2 ^ n := by omega
      rw [if_neg ((and_one_shiftLeft_ne_zero_iff (by omega)).not.mpr hbit), hdone]
      exact ih (by omega)

/-- `twopowmodphi` computes `2 ^ m` modulo `p - 1`. -/
theorem twopowmodphi_eq_ok {p : ℕ} (hp : 3 ≤ p) (hm : m.toNat < 2 ^ 63) :
    twopowmodphi m p = .ok (2 ^ m.toNat % (p - 1)) := by
  obtain ⟨bits, hbits, hused, hlt⟩ := usedBitsFrom_eq_ok hm (Nat.zero_le 63)
  have hphi : 1 < p - 1 := by omega
  have hstart : 2 ^ (m.toNat / 2 ^ bits) % (p - 1) = 1 := by
    rw [Nat.div_eq_of_lt hlt, pow_zero, Nat.mod_eq_of_lt hphi]
  have hloop := squareAndMultiply_eq_ok (m := m) (Nat.zero_lt_of_lt hphi) hbits
  rw [hstart] at hloop
  simp only [twopowmodphi, hused, ok_bind, hloop]

end TwoPow

/-! ### The jump -/

section Jump

variable {secpar : ℕ} {gcrypt : Gcrypt}

theorem crtDecompose_eq {p q : ℕ} (hp : 0 < p) (hq : 0 < q) (x : ℕ) :
    crtDecompose x p q = .ok (x % p, x % q) := by
  simp only [crtDecompose, gcryMpiMod_eq hp, gcryMpiMod_eq hq, ok_bind, pure_eq_ok]

/-- `CRT_compose` inverts `CRT_decompose` modulo the product of coprime numbers. -/
theorem crtCompose_eq {p q : ℕ} (hp : 0 < p) (hq : 0 < q) (hcoprime : p.Coprime q) (x : ℕ) :
    crtCompose (x % p) (x % q) p q = .ok (x % (p * q)) := by
  obtain ⟨inverse, hinverse, hinverts⟩ := gcryMpiInvm_eq hq hcoprime
  have hvalue := recompose_eq (x := x) hp hq hcoprime hinverts
  unfold recompose at hvalue
  simp only [crtCompose, gcryMpiSubm_eq hq, hinverse, ok_bind, gcryMpiMulm_eq hq, pure_eq_ok,
    hvalue]

/-- At one prime the reduced exponent gives the power `2 ^ m`. -/
theorem gcryMpiPowm_reduced {p : ℕ} (hp : p.Prime) (hmod : p % 4 = 3) (hlarge : 3 < p)
    (x m : ℕ) : gcryMpiPowm (x % p) (2 ^ m % (p - 1)) p = .ok (x ^ 2 ^ m % p) := by
  rw [gcryMpiPowm_eq hp.pos, ← Nat.pow_mod, pow_two_pow_mod_pred hp hmod hlarge]

/-- The exports of `FSPRG_Seek` fill any buffer of the right size. -/
theorem storeState_eq_ok (h : IsValidSecpar secpar) {state : List UInt8}
    (hstate : state.length = 2 + secpar / 8 + secpar / 8 + 8) {n x : ℕ} (hn : n < 2 ^ secpar)
    (hx : x < 2 ^ secpar) (epoch : UInt64) :
    (do
      let state ← storeSecpar state 0 (UInt16.ofNat secpar)
      let state ← mpiExport state (2 + 0 * secpar / 8) (secpar / 8) n
      let state ← mpiExport state (2 + 1 * secpar / 8) (secpar / 8) x
      uint64Export state (2 + 2 * secpar / 8) 8 epoch) = .ok (stateBytes secpar n x epoch) := by
  have hstores : Stores (stateFields secpar n x epoch) _ :=
    stores_state h.1 (h.pow_field ▸ hn) (h.pow_field ▸ hx) epoch
  have hlength : state.length = 2 + (toBytes (secpar / 8) n ++ toBytes (secpar / 8) x ++
      toBytes 8 epoch.toNat).length := by
    simp only [hstate, List.length_append, length_toBytes, Nat.add_assoc]
  have hwrites : runWrites state (withHeader secpar (stateFields secpar n x epoch)) = _ :=
    hstores.runWrites_withHeader hlength
  simp only [runWrites, withHeader, stateFields, List.foldlM_cons, List.foldlM_nil,
    FieldWrite.run, bind_pure] at hwrites
  rw [hwrites, stateBytes, List.append_assoc, List.append_assoc, List.append_assoc]

/-- `FSPRG_Seek` up to the exponents: it takes the two primes out of the key, finds the square that
the chain starts from, and reduces it modulo each prime. -/
theorem fsprgSeek_mskBytes (primes : MasterPrimes secpar) (h : IsValidSecpar secpar)
    (state : List UInt8) (epoch : UInt64) (seed : List UInt8) :
    fsprgSeek gcrypt state epoch (mskBytes secpar primes.p primes.q) seed = (do
      let kp ← twopowmodphi epoch primes.p
      let kq ← twopowmodphi epoch primes.q
      let xp ← gcryMpiPowm ((primes.state0 h gcrypt seed).residue.1 % primes.p) kp primes.p
      let xq ← gcryMpiPowm ((primes.state0 h gcrypt seed).residue.1 % primes.q) kq primes.q
      let xm ← crtCompose xp xq primes.p primes.q
      let state ← storeSecpar state 0 (UInt16.ofNat secpar)
      let state ← mpiExport state (2 + 0 * secpar / 8) (secpar / 8) primes.n
      let state ← mpiExport state (2 + 1 * secpar / 8) (secpar / 8) xm
      uint64Export state (2 + 2 * secpar / 8) 8 epoch) := by
  have hgensquare : gensquare gcrypt (primes.p * primes.q) seed rndGenX secpar =
      .ok (primes.state0 h gcrypt seed).residue.1 := by
    have hsquare := gensquare_eq h gcrypt primes.n_pos seed rndGenX
    rw [if_pos (primes.squareRoot_lt_n h gcrypt seed rndGenX)] at hsquare
    exact hsquare
  simp only [fsprgSeek, readSecpar_mskBytes h, ok_bind, h.toNat_ofNat,
    mpiImport_mskBytes_p h primes.q primes.p_lt, mpiImport_mskBytes_q h primes.p primes.q_lt,
    hgensquare, crtDecompose_eq primes.p_prime.pos primes.q_prime.pos]
  rfl

/-- `FSPRG_Seek` jumps along the chain. -/
theorem fsprgSeek_eq_after (primes : MasterPrimes secpar) (h : IsValidSecpar secpar)
    (hne : primes.p ≠ primes.q) {epoch : UInt64} (hepoch : epoch.toNat < 2 ^ 63)
    {state : List UInt8} (hstate : state.length = 2 + secpar / 8 + secpar / 8 + 8)
    (seed : List UInt8) :
    fsprgSeek gcrypt state epoch (mskBytes secpar primes.p primes.q) seed =
      .ok ((primes.state0 h gcrypt seed).after epoch.toNat).encode := by
  have hp := primes.p_prime
  have hq := primes.q_prime
  have hpowP := gcryMpiPowm_reduced hp primes.p_mod primes.three_lt_p
  have hpowQ := gcryMpiPowm_reduced hq primes.q_mod primes.three_lt_q
  have hresidue : (primes.state0 h gcrypt seed).residue.1 ^ 2 ^ epoch.toNat %
      (primes.p * primes.q) = (Residue.square^[epoch.toNat]
        (primes.state0 h gcrypt seed).residue).1 :=
    (Residue.iterate_square_val _ _).symm
  have hepochField : ((primes.state0 h gcrypt seed).after epoch.toNat).epoch = epoch := by
    rw [ForwardState.epoch_after, UInt64.ofNat_toNat]
    exact UInt64.zero_add _
  have hstore := storeState_eq_ok h hstate primes.n_lt
    ((primes.state0 h gcrypt seed).after epoch.toNat).residue_lt epoch
  simp only [fsprgSeek_mskBytes primes h, twopowmodphi_eq_ok primes.three_lt_p.le hepoch,
    twopowmodphi_eq_ok primes.three_lt_q.le hepoch, ok_bind, hpowP, hpowQ,
    crtCompose_eq hp.pos hq.pos (primes.coprime hne), hresidue]
  rw [ForwardState.encode, hepochField]
  exact hstore

/-- Recomposed residues are below the product, whether or not the moduli are coprime. -/
theorem exists_crtCompose_eq {p q xp : ℕ} (hq : 0 < q) (hxp : xp < p) (xq : ℕ) :
    ∃ x < p * q, crtCompose xp xq p q = .ok x := by
  obtain ⟨inverse, hinverse⟩ : ∃ inverse, gcryMpiInvm p q = .ok inverse := by
    unfold gcryMpiInvm reduce
    rw [if_neg hq.ne']
    split_ifs
    · exact ⟨_, rfl⟩
    · exact ⟨_, rfl⟩
  have hlt := Nat.mod_lt ((((xq : ℤ) - xp) % q).toNat * inverse) hq
  refine ⟨p * ((((xq : ℤ) - xp) % q).toNat * inverse % q) + xp, ?_, ?_⟩
  · calc p * ((((xq : ℤ) - xp) % q).toNat * inverse % q) + xp
        < p * ((((xq : ℤ) - xp) % q).toNat * inverse % q) + p := Nat.add_lt_add_left hxp _
      _ = p * ((((xq : ℤ) - xp) % q).toNat * inverse % q + 1) := (Nat.mul_succ _ _).symm
      _ ≤ p * q := Nat.mul_le_mul_left p hlt
  · simp only [crtCompose, gcryMpiSubm_eq hq, hinverse, ok_bind, gcryMpiMulm_eq hq, pure_eq_ok]

/-- Equal primes or not, `FSPRG_Seek` stores the modulus, some residue and the epoch. -/
theorem exists_fsprgSeek_eq (gcrypt : Gcrypt) (primes : MasterPrimes secpar)
    (h : IsValidSecpar secpar) {epoch : UInt64} (hepoch : epoch.toNat < 2 ^ 63)
    {state : List UInt8} (hstate : state.length = 2 + secpar / 8 + secpar / 8 + 8)
    (seed : List UInt8) :
    ∃ x, fsprgSeek gcrypt state epoch (mskBytes secpar primes.p primes.q) seed =
      .ok (stateBytes secpar primes.n x epoch) := by
  have hp := primes.p_prime
  have hq := primes.q_prime
  have hpowP := gcryMpiPowm_reduced hp primes.p_mod primes.three_lt_p
  have hpowQ := gcryMpiPowm_reduced hq primes.q_mod primes.three_lt_q
  set start := (primes.state0 h gcrypt seed).residue.1 with hstart
  obtain ⟨x, hx, hcompose⟩ := exists_crtCompose_eq hq.pos
    (Nat.mod_lt (start ^ 2 ^ epoch.toNat) hp.pos) (start ^ 2 ^ epoch.toNat % primes.q)
  refine ⟨x, ?_⟩
  simp only [fsprgSeek_mskBytes primes h, ← hstart, twopowmodphi_eq_ok primes.three_lt_p.le hepoch,
    twopowmodphi_eq_ok primes.three_lt_q.le hepoch, ok_bind, hpowP, hpowQ, hcompose]
  exact storeState_eq_ok h hstate primes.n_lt (hx.trans primes.n_lt) epoch

end Jump

/-! ### Seeking, evolving and whole runs -/

section Runs

variable {secpar : ℕ} {gcrypt : Gcrypt} {seed : Option (List UInt8)}
  {msk mpk mskOut mpkOut : List UInt8}

/-- The keys that `FSPRG_GenMK` has stored come from two primes that its searches found. -/
theorem exists_masterPrimes (h : IsValidSecpar secpar)
    (hmsk : fsprgMskinbytes secpar = .ok msk.length)
    (hmpk : fsprgMpkinbytes secpar = .ok mpk.length)
    (hgen : fsprgGenMK gcrypt (some msk) (some mpk) seed secpar = .ok (some mskOut, some mpkOut)) :
    ∃ primes : MasterPrimes secpar,
      genprime3mod4 gcrypt (secpar / 2) (effectiveSeed gcrypt seed) rndGenP = .ok primes.p ∧
      genprime3mod4 gcrypt (secpar / 2) (effectiveSeed gcrypt seed) rndGenQ = .ok primes.q ∧
      mskOut = mskBytes secpar primes.p primes.q ∧ mpkOut = mpkBytes secpar primes.n := by
  obtain ⟨primes, hp, hq, hresult⟩ :=
    exists_masterPrimes_of_fsprgGenMK h (h.length_msk hmsk) (h.length_mpk hmpk) hgen
  have hkeys := Prod.ext_iff.mp hresult
  exact ⟨primes, hp, hq, Option.some.inj hkeys.1, Option.some.inj hkeys.2⟩

/-- With two distinct primes, seeking to an epoch below `2 ^ 63` writes the buffer that as many
calls of `FSPRG_Evolve` give. -/
theorem fsprgSeek_eq_evolveTimes (h : IsValidSecpar secpar)
    (hmsk : fsprgMskinbytes secpar = .ok msk.length)
    (hmpk : fsprgMpkinbytes secpar = .ok mpk.length)
    (hgen : fsprgGenMK gcrypt (some msk) (some mpk) seed secpar = .ok (some mskOut, some mpkOut))
    {p q : ℕ}
    (hp : genprime3mod4 gcrypt (secpar / 2) (effectiveSeed gcrypt seed) rndGenP = .ok p)
    (hq : genprime3mod4 gcrypt (secpar / 2) (effectiveSeed gcrypt seed) rndGenQ = .ok q)
    (hne : p ≠ q) {epoch : UInt64} (hepoch : epoch.toNat < 2 ^ 63) {sought evolved : List UInt8}
    (hsought : fsprgStateinbytes secpar = .ok sought.length)
    (hevolved : fsprgStateinbytes secpar = .ok evolved.length) (stateSeed : List UInt8) :
    ∃ buffer, fsprgStateinbytes secpar = .ok buffer.length ∧
      fsprgSeek gcrypt sought epoch mskOut stateSeed = .ok buffer ∧
      (do
        let state ← fsprgGenState0 gcrypt evolved mpkOut stateSeed
        evolveTimes epoch.toNat state) = .ok buffer := by
  obtain ⟨primes, hgenP, hgenQ, rfl, rfl⟩ := exists_masterPrimes h hmsk hmpk hgen
  obtain rfl := Except.ok.inj (hp.symm.trans hgenP)
  obtain rfl := Except.ok.inj (hq.symm.trans hgenQ)
  refine ⟨((primes.state0 h gcrypt stateSeed).after epoch.toNat).encode,
    (wellFormed_encode _).length_eq,
    fsprgSeek_eq_after primes h hne hepoch (h.length_state hsought) stateSeed, ?_⟩
  rw [fsprgGenState0_eq_state0 primes h gcrypt (h.length_state hevolved), ok_bind,
    ForwardState.evolveTimes_encode]

/-- The fifth epoch of a small key, from an untouched buffer and from a used one. -/
theorem fsprgSeek_sample :
    ∃ buffer, fsprgStateinbytes 16 = .ok buffer.length ∧
      fsprgSeek sampleGcrypt (List.replicate 14 0) 5 (mskBytes 16 199 211) (sampleSeed 1) =
        .ok buffer ∧
      (do
        let state ← fsprgGenState0 sampleGcrypt (List.replicate 14 0xff) (mpkBytes 16 (199 * 211))
          (sampleSeed 1)
        evolveTimes (5 : UInt64).toNat state) = .ok buffer :=
  fsprgSeek_eq_evolveTimes (by decide) (by decide) (by decide) fsprgGenMK_sample
    genprime3mod4_sample_p genprime3mod4_sample_q (by decide) (by decide) (by decide) (by decide)
    (sampleSeed 1)

/-- Every run that starts with `FSPRG_GenState0` or `FSPRG_Seek` and goes on with `FSPRG_Evolve`
returns at every step, with a buffer that holds the parameter, the modulus, a square below it and
the epoch that counts the steps. -/
theorem wellFormed_of_run (h : IsValidSecpar secpar)
    (hmsk : fsprgMskinbytes secpar = .ok msk.length)
    (hmpk : fsprgMpkinbytes secpar = .ok mpk.length)
    (hgen : fsprgGenMK gcrypt (some msk) (some mpk) seed secpar = .ok (some mskOut, some mpkOut))
    {state : List UInt8} (hstate : fsprgStateinbytes secpar = .ok state.length)
    (stateSeed : List UInt8) :
    ∃ p q, genprime3mod4 gcrypt (secpar / 2) (effectiveSeed gcrypt seed) rndGenP = .ok p ∧
      genprime3mod4 gcrypt (secpar / 2) (effectiveSeed gcrypt seed) rndGenQ = .ok q ∧
      (∀ count, ∃ buffer,
        (do
          let state ← fsprgGenState0 gcrypt state mpkOut stateSeed
          evolveTimes count state) = .ok buffer ∧
        WellFormed secpar (p * q) (UInt64.ofNat count) buffer) ∧
      (p ≠ q → ∀ epoch : UInt64, epoch.toNat < 2 ^ 63 → ∀ count, ∃ buffer,
        (do
          let state ← fsprgSeek gcrypt state epoch mskOut stateSeed
          evolveTimes count state) = .ok buffer ∧
        WellFormed secpar (p * q) (UInt64.ofNat (epoch.toNat + count)) buffer) := by
  obtain ⟨primes, hgenP, hgenQ, rfl, rfl⟩ := exists_masterPrimes h hmsk hmpk hgen
  have hlength := h.length_state hstate
  refine ⟨primes.p, primes.q, hgenP, hgenQ, fun count ↦ ?_, fun hne epoch hepoch count ↦ ?_⟩
  · rw [fsprgGenState0_eq_state0 primes h gcrypt hlength, ok_bind]
    refine ⟨_, ForwardState.evolveTimes_encode _ count, ?_⟩
    have hwell := wellFormed_encode ((primes.state0 h gcrypt stateSeed).after count)
    rw [ForwardState.epoch_after] at hwell
    have hcount : (primes.state0 h gcrypt stateSeed).epoch + UInt64.ofNat count =
        UInt64.ofNat count := UInt64.zero_add _
    rwa [hcount] at hwell
  · rw [fsprgSeek_eq_after primes h hne hepoch hlength, ok_bind]
    refine ⟨_, ForwardState.evolveTimes_encode _ count, ?_⟩
    have hwell := wellFormed_encode
      (((primes.state0 h gcrypt stateSeed).after epoch.toNat).after count)
    have hcount : (((primes.state0 h gcrypt stateSeed).after epoch.toNat).after count).epoch =
        UInt64.ofNat (epoch.toNat + count) := by
      rw [ForwardState.epoch_after, ForwardState.epoch_after, UInt64.ofNat_add]
      congr 1
      exact UInt64.zero_add _
    rwa [hcount] at hwell

/-- The runs of a small key. -/
theorem wellFormed_sample_run :
    ∃ p q, genprime3mod4 sampleGcrypt (16 / 2) (sampleSeed 1) rndGenP = .ok p ∧
      genprime3mod4 sampleGcrypt (16 / 2) (sampleSeed 1) rndGenQ = .ok q ∧
      (∀ count, ∃ buffer,
        (do
          let state ← fsprgGenState0 sampleGcrypt (List.replicate 14 0) (mpkBytes 16 (199 * 211))
            (sampleSeed 1)
          evolveTimes count state) = .ok buffer ∧
        WellFormed 16 (p * q) (UInt64.ofNat count) buffer) ∧
      (p ≠ q → ∀ epoch : UInt64, epoch.toNat < 2 ^ 63 → ∀ count, ∃ buffer,
        (do
          let state ← fsprgSeek sampleGcrypt (List.replicate 14 0) epoch (mskBytes 16 199 211)
            (sampleSeed 1)
          evolveTimes count state) = .ok buffer ∧
        WellFormed 16 (p * q) (UInt64.ofNat (epoch.toNat + count)) buffer) :=
  wellFormed_of_run (by decide) (by decide) (by decide) fsprgGenMK_sample (by decide)
    (sampleSeed 1)

end Runs

end PythonSystemd.Fsprg
