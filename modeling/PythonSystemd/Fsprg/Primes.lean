import PythonSystemd.Fsprg.Codec
import PythonSystemd.Library.PrimesThreeModFour

/-!
# Deterministic random bytes and primes

`det_randomize` and `genprime3mod4` of `fsprg.c`. `det_randomize` stretches a seed and an index to
any number of bytes by hashing them with a block counter; `genprime3mod4` sets the two upper and
the two lower bits of such a byte string and searches for a prime from there.

`genprime3mod4_eq_ok` says that the search always returns, and `primeStart_ge` and
`primeStart_mod_four` what the masks give: a start in the upper quarter of the range that is
`3` modulo `4`. The prime itself is only known to lie above the start.
-/

set_option autoImplicit false
set_option relaxedAutoImplicit false

namespace PythonSystemd.Fsprg

open Library.BigEndian Library.CheckedMemory Library.PrimesThreeModFour

def rndGenP : UInt32 := 0x01

def rndGenQ : UInt32 := 0x02

def rndGenX : UInt32 := 0x03

/-- The four `gcry_md_putc` calls for an index or a block counter. -/
def uint32Bytes (x : UInt32) : List UInt8 :=
  [(x >>> 24 &&& 0xff).toUInt8, (x >>> 16 &&& 0xff).toUInt8, (x >>> 8 &&& 0xff).toUInt8,
    (x >>> 0 &&& 0xff).toUInt8]

/-- The loop of `det_randomize` from block `ctr` on; `hd` is what the digest has been given. -/
def detRandomizeFrom (gcrypt : Gcrypt) (hd : List UInt8) (ctr : UInt32) (buflen : ℕ) :
    List UInt8 :=
  if buflen = 0 then []
  else
    let cpylen := if buflen < rndHashDlen then buflen else rndHashDlen
    (gcrypt.digest (hd ++ uint32Bytes ctr)).take cpylen ++
      detRandomizeFrom gcrypt hd (ctr + 1) (buflen - cpylen)
termination_by buflen
decreasing_by
  unfold rndHashDlen
  split <;> omega

/-- The `buflen` bytes that `det_randomize` writes. -/
def detRandomize (gcrypt : Gcrypt) (buflen : ℕ) (seed : List UInt8) (idx : UInt32) : List UInt8 :=
  detRandomizeFrom gcrypt (seed ++ uint32Bytes idx) 0 buflen

def genprime3mod4 (gcrypt : Gcrypt) (bits : ℕ) (seed : List UInt8) (idx : UInt32) : Checked ℕ := do
  let buflen := bits / 8
  assert (bits % 8 = 0)
  assert (buflen > 0)
  let buf := detRandomize gcrypt buflen seed idx
  let buf ← modifyAt buf 0 (· ||| 0xc0)
  let buf ← modifyAt buf (buflen - 1) (· ||| 0x03)
  let p ← mpiImport buf 0 buflen
  -- The masks make the start `3` modulo `4` (`primeStart_mod_four`); the other branch is dead.
  if hp : p % 4 = 3 then return searchPrime p hp
  else .error .nonTermination

/-! ### The random bytes -/

@[simp] theorem length_detRandomizeFrom (gcrypt : Gcrypt) (hd : List UInt8) (ctr : UInt32)
    (buflen : ℕ) : (detRandomizeFrom gcrypt hd ctr buflen).length = buflen := by
  induction ctr, buflen using detRandomizeFrom.induct with
  | case1 ctr => rw [detRandomizeFrom, if_pos rfl, List.length_nil]
  | case2 ctr buflen hpos cpylen ih =>
    rw [detRandomizeFrom, if_neg hpos, List.length_append, List.length_take,
      gcrypt.digest_length]
    simp only [cpylen, dite_eq_ite] at ih ⊢
    rw [ih]
    simp only [rndHashDlen]
    split <;> omega

@[simp] theorem length_detRandomize (gcrypt : Gcrypt) (buflen : ℕ) (seed : List UInt8)
    (idx : UInt32) : (detRandomize gcrypt buflen seed idx).length = buflen :=
  length_detRandomizeFrom _ _ _ _

/-- Up to one digest's length the bytes are those of the first digest. -/
theorem detRandomize_of_le (gcrypt : Gcrypt) {buflen : ℕ} (hle : buflen ≤ rndHashDlen)
    (seed : List UInt8) (idx : UInt32) :
    detRandomize gcrypt buflen seed idx =
      (gcrypt.digest (seed ++ uint32Bytes idx ++ uint32Bytes 0)).take buflen := by
  unfold detRandomize
  by_cases hzero : buflen = 0
  · rw [hzero, detRandomizeFrom, if_pos rfl, List.take_zero]
  · have hcpylen : (if buflen < rndHashDlen then buflen else rndHashDlen) = buflen := by
      split_ifs <;> omega
    rw [detRandomizeFrom, if_neg hzero]
    simp only [hcpylen, Nat.sub_self]
    rw [detRandomizeFrom, if_pos rfl, List.append_nil]

/-! ### The start of the search -/

/-- The bytes after both masks. -/
def maskBytes (bytes : List UInt8) : List UInt8 :=
  (bytes.modify 0 (· ||| 0xc0)).modify (bytes.length - 1) (· ||| 0x03)

/-- The number at which `genprime3mod4` starts to search, from the bytes of `det_randomize`. -/
def primeStart (bytes : List UInt8) : ℕ :=
  ofBytes (maskBytes bytes)

@[simp] theorem length_maskBytes (bytes : List UInt8) :
    (maskBytes bytes).length = bytes.length := by
  simp [maskBytes]

theorem or_three_mod_four (byte : UInt8) : (byte ||| 0x03).toNat % 4 = 3 := by
  have hmod := Nat.or_mod_two_pow (a := byte.toNat) (b := 3) (n := 2)
  have hlow : byte.toNat % 2 ^ 2 < 4 := Nat.mod_lt _ (by norm_num)
  rw [UInt8.toNat_or]
  refine hmod.trans ?_
  interval_cases byte.toNat % 2 ^ 2 <;> rfl

/-- The lower mask reaches the last byte, also when it is the first one. -/
theorem primeStart_mod_four {bytes : List UInt8} (hbytes : bytes ≠ []) :
    primeStart bytes % 4 = 3 := by
  have hpos := List.length_pos_of_ne_nil hbytes
  obtain ⟨front, last, back, hsplit, hfront, hmodify⟩ :=
    List.exists_of_modify (· ||| (0x03 : UInt8)) (i := bytes.length - 1)
      (l := bytes.modify 0 (· ||| 0xc0)) (by rw [List.length_modify]; omega)
  have hback : back = [] := by
    have h := congrArg List.length hsplit
    rw [List.length_modify, List.length_append, List.length_cons] at h
    exact List.length_eq_zero_iff.mp (by omega)
  rw [primeStart, maskBytes, hmodify, hback, ofBytes_concat_mod_four]
  exact or_three_mod_four last

/-- The upper mask puts the start into the upper quarter of its range. The lower mask can hit the
same byte, which only adds bits to it. -/
theorem primeStart_ge {bytes : List UInt8} (hbytes : bytes ≠ []) :
    192 * 256 ^ (bytes.length - 1) ≤ primeStart bytes := by
  obtain ⟨head, tail, rfl⟩ := List.exists_cons_of_ne_nil hbytes
  have hmask : ∃ first rest, maskBytes (head :: tail) = first :: rest ∧ 192 ≤ first.toNat := by
    have hupper : 192 ≤ (head ||| 0xc0).toNat := by
      rw [UInt8.toNat_or]
      exact Nat.right_le_or
    unfold maskBytes
    rw [List.modify_zero_cons, List.modify_cons]
    split
    · refine ⟨_, _, rfl, hupper.trans ?_⟩
      rw [UInt8.toNat_or]
      exact Nat.left_le_or
    · exact ⟨_, _, rfl, hupper⟩
  obtain ⟨first, rest, hmask, hfirst⟩ := hmask
  have hlength : rest.length = tail.length := by
    have h := congrArg List.length hmask
    rw [length_maskBytes, List.length_cons, List.length_cons] at h
    omega
  rw [primeStart, hmask, ofBytes_cons, hlength, List.length_cons, Nat.add_sub_cancel]
  exact (Nat.mul_le_mul_right _ hfirst).trans (Nat.le_add_right _ _)

/-! ### The search -/

/-- `genprime3mod4` from the point where `det_randomize` has filled the buffer. -/
def genprime3mod4From (bits : ℕ) (buf : List UInt8) : Checked ℕ := do
  let buflen := bits / 8
  assert (bits % 8 = 0)
  assert (buflen > 0)
  let buf ← modifyAt buf 0 (· ||| 0xc0)
  let buf ← modifyAt buf (buflen - 1) (· ||| 0x03)
  let p ← mpiImport buf 0 buflen
  if hp : p % 4 = 3 then return searchPrime p hp
  else .error .nonTermination

theorem genprime3mod4_eq_from (gcrypt : Gcrypt) (bits : ℕ) (seed : List UInt8) (idx : UInt32) :
    genprime3mod4 gcrypt bits seed idx =
      genprime3mod4From bits (detRandomize gcrypt (bits / 8) seed idx) :=
  rfl

/-- For a bit size that is a positive multiple of eight the search returns, whatever bytes it is
given. -/
theorem genprime3mod4From_eq_ok {bits : ℕ} (hbits : bits % 8 = 0) (hpos : 0 < bits)
    {buf : List UInt8} (hlength : buf.length = bits / 8) (hstart : primeStart buf % 4 = 3) :
    genprime3mod4From bits buf = .ok (searchPrime (primeStart buf) hstart) := by
  have hbuflen : bits / 8 > 0 := by omega
  have himport : mpiImport (maskBytes buf) 0 (bits / 8) = .ok (primeStart buf) := by
    have h := mpiImport_append [] (maskBytes buf) [] List.length_nil
      (by rw [length_maskBytes, hlength])
    rwa [List.nil_append, List.append_nil] at h
  rw [maskBytes, hlength] at himport
  simp only [genprime3mod4From, assert_of hbits, assert_of hbuflen, ok_bind, modifyAt,
    List.length_modify, hlength, if_pos hbuflen,
    if_pos (show bits / 8 - 1 < bits / 8 by omega), himport, dif_pos hstart, pure_eq_ok]

/-- `genprime3mod4` returns what the search finds from the masked random bytes on. -/
theorem genprime3mod4_eq_ok (gcrypt : Gcrypt) {bits : ℕ} (hbits : bits % 8 = 0) (hpos : 0 < bits)
    (seed : List UInt8) (idx : UInt32)
    (hstart : primeStart (detRandomize gcrypt (bits / 8) seed idx) % 4 = 3) :
    genprime3mod4 gcrypt bits seed idx =
      .ok (searchPrime (primeStart (detRandomize gcrypt (bits / 8) seed idx)) hstart) := by
  rw [genprime3mod4_eq_from]
  exact genprime3mod4From_eq_ok hbits hpos (length_detRandomize _ _ _ _) hstart

/-- For any bytes in the buffer the loop stops after some number of steps of `4`, at the least
prime that is `3` modulo `4` from the masked bytes on; so does `genprime3mod4` for the bytes that
`det_randomize` writes. -/
theorem genprime3mod4_isLeast {bits : ℕ} (hbits : bits % 8 = 0) (hpos : 0 < bits) :
    (∀ buf : List UInt8, buf.length = bits / 8 → ∃ steps,
      genprime3mod4From bits buf = .ok (primeStart buf + 4 * steps) ∧
      (∀ earlier < steps, ¬ (primeStart buf + 4 * earlier).Prime) ∧
      IsLeast (primesFrom (primeStart buf)) (primeStart buf + 4 * steps)) ∧
    ∀ (gcrypt : Gcrypt) (seed : List UInt8) (idx : UInt32), ∃ p,
      genprime3mod4 gcrypt bits seed idx = .ok p ∧
      IsLeast (primesFrom (primeStart (detRandomize gcrypt (bits / 8) seed idx))) p := by
  have hfrom : ∀ buf : List UInt8, buf.length = bits / 8 → ∃ steps,
      genprime3mod4From bits buf = .ok (primeStart buf + 4 * steps) ∧
      (∀ earlier < steps, ¬ (primeStart buf + 4 * earlier).Prime) ∧
      IsLeast (primesFrom (primeStart buf)) (primeStart buf + 4 * steps) := by
    intro buf hlength
    have hbuf : buf ≠ [] := by
      rw [← List.length_pos_iff, hlength]
      omega
    have hstart := primeStart_mod_four hbuf
    obtain ⟨steps, hsteps, hearlier⟩ := exists_searchPrime_eq_add (primeStart buf) hstart
    refine ⟨steps, ?_, hearlier, ?_⟩
    · rw [genprime3mod4From_eq_ok hbits hpos hlength hstart, hsteps]
    · rw [← hsteps]
      exact searchPrime_isLeast (primeStart buf) hstart
  refine ⟨hfrom, fun gcrypt seed idx ↦ ?_⟩
  obtain ⟨steps, hresult, -, hleast⟩ :=
    hfrom (detRandomize gcrypt (bits / 8) seed idx) (length_detRandomize _ _ _ _)
  exact ⟨_, hresult, hleast⟩

/-- One byte, which both masks hit. -/
theorem genprime3mod4_isLeast_eight :
    (∀ buf : List UInt8, buf.length = 8 / 8 → ∃ steps,
      genprime3mod4From 8 buf = .ok (primeStart buf + 4 * steps) ∧
      (∀ earlier < steps, ¬ (primeStart buf + 4 * earlier).Prime) ∧
      IsLeast (primesFrom (primeStart buf)) (primeStart buf + 4 * steps)) ∧
    ∀ (gcrypt : Gcrypt) (seed : List UInt8) (idx : UInt32), ∃ p,
      genprime3mod4 gcrypt 8 seed idx = .ok p ∧
      IsLeast (primesFrom (primeStart (detRandomize gcrypt (8 / 8) seed idx))) p :=
  genprime3mod4_isLeast (by decide) (by decide)

end PythonSystemd.Fsprg
