import PythonSystemd.Fsprg.Gcrypt
import PythonSystemd.Library.WordBytes

/-!
# The fields of the key and state buffers

`mpi_export`, `mpi_import`, `uint64_export`, `uint64_import`, `store_secpar` and `read_secpar` of
`fsprg.c`, on a buffer and an offset in place of a pointer. Each writes or reads one fixed-width
big-endian field. The rules `mpiExport_append`, `mpiImport_append` and their siblings are stated
on a buffer that is cut at the field: an export replaces the field by `toBytes`, an import reads
it back by `ofBytes`.
-/

set_option autoImplicit false
set_option relaxedAutoImplicit false

namespace PythonSystemd.Fsprg

open Library.BigEndian Library.CheckedMemory Library.WordBytes

/-! ### Export and import -/

def mpiExport (memory : List UInt8) (offset buflen x : ℕ) : Checked (List UInt8) := do
  assert (0 ≤ x)
  let len := (gcryMpiGetNbits x + 7) / 8
  assert (len ≤ buflen)
  let memory ← writeAt memory offset (List.replicate buflen 0)
  let (digits, nwritten) := gcryMpiPrint x
  let memory ← writeAt memory (offset + (buflen - len)) digits
  assert (nwritten = len)
  return memory

def mpiImport (memory : List UInt8) (offset buflen : ℕ) : Checked ℕ := do
  let bytes ← readAt memory offset buflen
  let h := gcryMpiScan bytes
  let len := (gcryMpiGetNbits h + 7) / 8
  assert (len ≤ buflen)
  assert (0 ≤ h)
  return h

/-- The eight bytes that `uint64_export` stores. -/
def uint64Bytes (x : UInt64) : List UInt8 :=
  [(x >>> 56 &&& 0xff).toUInt8, (x >>> 48 &&& 0xff).toUInt8, (x >>> 40 &&& 0xff).toUInt8,
    (x >>> 32 &&& 0xff).toUInt8, (x >>> 24 &&& 0xff).toUInt8, (x >>> 16 &&& 0xff).toUInt8,
    (x >>> 8 &&& 0xff).toUInt8, (x >>> 0 &&& 0xff).toUInt8]

def uint64Export (memory : List UInt8) (offset buflen : ℕ) (x : UInt64) :
    Checked (List UInt8) := do
  assert (buflen = 8)
  writeAt memory offset (uint64Bytes x)

def uint64Import (memory : List UInt8) (offset buflen : ℕ) : Checked UInt64 := do
  assert (buflen = 8)
  let b0 ← cellAt memory offset
  let b1 ← cellAt memory (offset + 1)
  let b2 ← cellAt memory (offset + 2)
  let b3 ← cellAt memory (offset + 3)
  let b4 ← cellAt memory (offset + 4)
  let b5 ← cellAt memory (offset + 5)
  let b6 ← cellAt memory (offset + 6)
  let b7 ← cellAt memory (offset + 7)
  return b0.toUInt64 <<< 56 ||| b1.toUInt64 <<< 48 ||| b2.toUInt64 <<< 40 |||
    b3.toUInt64 <<< 32 ||| b4.toUInt64 <<< 24 ||| b5.toUInt64 <<< 16 ||| b6.toUInt64 <<< 8 |||
    b7.toUInt64 <<< 0

/-- The two bytes that `store_secpar` stores. The subtraction is in `uint16_t`. -/
def secparBytes (secpar : UInt16) : List UInt8 :=
  let secpar := secpar / 16 - 1
  [(secpar >>> 8 &&& 0xff).toUInt8, (secpar >>> 0 &&& 0xff).toUInt8]

def storeSecpar (memory : List UInt8) (offset : ℕ) (secpar : UInt16) : Checked (List UInt8) :=
  writeAt memory offset (secparBytes secpar)

/-- The result is truncated to `uint16_t`, so a header of `0xffff` reads as `0`. -/
def readSecpar (memory : List UInt8) (offset : ℕ) : Checked UInt16 := do
  let b0 ← cellAt memory offset
  let b1 ← cellAt memory (offset + 1)
  let secpar := b0.toUInt16 <<< 8 ||| b1.toUInt16 <<< 0
  return 16 * (secpar + 1)

/-! ### Multi-precision fields -/

theorem two_pow_eight_mul (width : ℕ) : 2 ^ (8 * width) = 256 ^ width := by
  rw [pow_mul]
  norm_num

theorem byteLength_le_iff {x width : ℕ} :
    (gcryMpiGetNbits x + 7) / 8 ≤ width ↔ x < 256 ^ width := by
  rw [gcryMpiGetNbits, ← two_pow_eight_mul, ← Nat.size_le]
  omega

/-- A number that fits its field is exported as the whole field. -/
theorem mpiExport_append (before field after : List UInt8) {offset buflen x : ℕ}
    (hoffset : before.length = offset) (hlength : field.length = buflen)
    (hx : x < 256 ^ buflen) :
    mpiExport (before ++ field ++ after) offset buflen x =
      .ok (before ++ toBytes buflen x ++ after) := by
  have hlen : (gcryMpiGetNbits x + 7) / 8 ≤ buflen := byteLength_le_iff.mpr hx
  have hdigits : (minimalBytes x).length = (gcryMpiGetNbits x + 7) / 8 := length_minimalBytes x
  have hzero : writeAt (before ++ field ++ after) offset (List.replicate buflen 0) =
      .ok (before ++ List.replicate buflen 0 ++ after) :=
    writeAt_append _ _ _ _ hoffset (by rw [hlength, List.length_replicate])
  have hsplit : before ++ List.replicate buflen (0 : UInt8) ++ after =
      (before ++ List.replicate (buflen - (minimalBytes x).length) 0) ++
        List.replicate (minimalBytes x).length 0 ++ after := by
    rw [List.append_assoc before, List.append_assoc before, List.append_assoc before,
      List.replicate_append_replicate, Nat.sub_add_cancel (hdigits ▸ hlen)]
  have hprint : writeAt (before ++ List.replicate buflen 0 ++ after)
      (offset + (buflen - (gcryMpiGetNbits x + 7) / 8)) (minimalBytes x) =
      .ok (before ++ toBytes buflen x ++ after) := by
    rw [hsplit, writeAt_append _ _ _ _
      (by rw [List.length_append, List.length_replicate, hoffset, hdigits]) List.length_replicate,
      List.append_assoc before, replicate_append_minimalBytes hx]
  simp only [mpiExport, assert_of (Nat.zero_le x), assert_of hlen, ok_bind, hzero,
    hprint, assert_of hdigits, pure_eq_ok]

/-- A number that does not fit its field fails the assertion of `mpi_export`. -/
theorem mpiExport_eq_error (memory : List UInt8) (offset : ℕ) {buflen x : ℕ}
    (hx : 256 ^ buflen ≤ x) : mpiExport memory offset buflen x = .error .assertion := by
  have hlen : ¬ (gcryMpiGetNbits x + 7) / 8 ≤ buflen := by
    rw [byteLength_le_iff]
    omega
  simp only [mpiExport, assert_of (Nat.zero_le x), assert_of_not hlen, ok_bind, error_bind]

/-- The assertions of `mpi_import` never fail. -/
theorem mpiImport_append (before field after : List UInt8) {offset buflen : ℕ}
    (hoffset : before.length = offset) (hlength : field.length = buflen) :
    mpiImport (before ++ field ++ after) offset buflen = .ok (ofBytes field) := by
  have hlen : (gcryMpiGetNbits (ofBytes field) + 7) / 8 ≤ buflen :=
    byteLength_le_iff.mpr (hlength ▸ ofBytes_lt field)
  simp only [mpiImport, readAt_append _ _ _ hoffset hlength, gcryMpiScan, ok_bind, assert_of hlen,
    assert_of (Nat.zero_le _), pure_eq_ok]

theorem mpiImport_lt {memory : List UInt8} {offset buflen n : ℕ}
    (himport : mpiImport memory offset buflen = .ok n) : n < 256 ^ buflen := by
  by_cases hroom : offset + buflen ≤ memory.length
  · obtain ⟨before, field, after, rfl, hoffset, hlength⟩ := exists_fields memory offset buflen hroom
    rw [mpiImport_append _ _ _ hoffset hlength] at himport
    rw [← Except.ok.inj himport, ← hlength]
    exact ofBytes_lt field
  · have hread : readAt memory offset buflen = .error .outOfBounds := if_neg hroom
    rw [mpiImport, hread, error_bind] at himport
    cases himport

/-- An exported number is imported as itself. -/
theorem mpiImport_toBytes {before after : List UInt8} {offset buflen x : ℕ}
    (hoffset : before.length = offset) (hx : x < 256 ^ buflen) :
    mpiImport (before ++ toBytes buflen x ++ after) offset buflen = .ok x := by
  rw [mpiImport_append _ _ _ hoffset (length_toBytes _ _), ofBytes_toBytes hx]

/-! ### The epoch field -/

/-- One byte of a 64-bit word. -/
theorem byte_of_shiftRight (x : UInt64) {k : ℕ} (hk : k < 8) :
    (x >>> UInt64.ofNat (8 * k) &&& 0xff).toUInt8 = UInt8.ofNat (x.toNat / 256 ^ k) := by
  apply UInt8.toNat_inj.mp
  have hshift : 8 * k % 2 ^ 64 % 64 = 8 * k := by omega
  have hmask : (0xff : UInt64).toNat = 2 ^ 8 - 1 := rfl
  rw [UInt64.toNat_toUInt8, UInt64.toNat_and, UInt64.toNat_shiftRight, UInt64.toNat_ofNat', hshift,
    Nat.shiftRight_eq_div_pow, two_pow_eight_mul, hmask, Nat.and_two_pow_sub_one_eq_mod,
    Nat.mod_mod, UInt8.toNat_ofNat']

theorem uint64Bytes_eq_toBytes (x : UInt64) : uint64Bytes x = toBytes 8 x.toNat := by
  have hbytes : toBytes 8 x.toNat =
      [7, 6, 5, 4, 3, 2, 1, 0].map fun k ↦ UInt8.ofNat (x.toNat / 256 ^ k) := by
    simp [toBytes, Nat.div_div_eq_div_mul]
  rw [hbytes]
  simp only [List.map_cons, List.map_nil, uint64Bytes]
  congr
  · exact byte_of_shiftRight x (k := 7) (by norm_num)
  · exact byte_of_shiftRight x (k := 6) (by norm_num)
  · exact byte_of_shiftRight x (k := 5) (by norm_num)
  · exact byte_of_shiftRight x (k := 4) (by norm_num)
  · exact byte_of_shiftRight x (k := 3) (by norm_num)
  · exact byte_of_shiftRight x (k := 2) (by norm_num)
  · exact byte_of_shiftRight x (k := 1) (by norm_num)
  · exact byte_of_shiftRight x (k := 0) (by norm_num)

theorem uint64Export_append (before field after : List UInt8) {offset : ℕ}
    (hoffset : before.length = offset) (hlength : field.length = 8) (x : UInt64) :
    uint64Export (before ++ field ++ after) offset 8 x =
      .ok (before ++ toBytes 8 x.toNat ++ after) := by
  have hbytes : field.length = (uint64Bytes x).length := hlength
  rw [uint64Export, assert_of rfl, ok_bind, writeAt_append _ _ _ _ hoffset hbytes,
    uint64Bytes_eq_toBytes]

theorem uint64Import_append (before field after : List UInt8) {offset : ℕ}
    (hoffset : before.length = offset) (hlength : field.length = 8) :
    uint64Import (before ++ field ++ after) offset 8 = .ok (UInt64.ofNat (ofBytes field)) := by
  match field, hlength with
  | [b0, b1, b2, b3, b4, b5, b6, b7], _ =>
    have hcell : ∀ k, (hk : k < 8) →
        cellAt (before ++ [b0, b1, b2, b3, b4, b5, b6, b7] ++ after) (offset + k) =
          .ok ([b0, b1, b2, b3, b4, b5, b6, b7][k]) := by
      intro k hk
      unfold cellAt
      rw [List.append_assoc, ← hoffset, List.getElem?_append_right (by omega),
        Nat.add_sub_cancel_left, List.getElem?_append_left hk, List.getElem?_eq_getElem hk]
    have h0 := toNat_byte_shiftLeft b0 56 (k := 56) rfl (by norm_num)
    have h1 := or_byte b1 48 (k := 48) rfl (by norm_num) h0
    have h2 := or_byte b2 40 (k := 40) rfl (by norm_num) h1
    have h3 := or_byte b3 32 (k := 32) rfl (by norm_num) h2
    have h4 := or_byte b4 24 (k := 24) rfl (by norm_num) h3
    have h5 := or_byte b5 16 (k := 16) rfl (by norm_num) h4
    have h6 := or_byte b6 8 (k := 8) rfl (by norm_num) h5
    have h7 := or_byte b7 0 (k := 0) rfl (by norm_num) h6
    have hcell0 := hcell 0 (by norm_num)
    rw [Nat.add_zero] at hcell0
    simp only [uint64Import, assert_of, ok_bind, pure_eq_ok, hcell0, hcell 1 (by norm_num),
      hcell 2 (by norm_num), hcell 3 (by norm_num), hcell 4 (by norm_num), hcell 5 (by norm_num),
      hcell 6 (by norm_num), hcell 7 (by norm_num), List.getElem_cons_zero,
      List.getElem_cons_succ]
    refine congrArg Except.ok (UInt64.toNat_inj.mp (h7.trans ?_))
    have hlt := ofBytes_lt [b0, b1, b2, b3, b4, b5, b6, b7]
    rw [UInt64.toNat_ofNat_of_lt' (by simpa using hlt)]
    simp [ofBytes]

/-! ### The header -/

/-- `ISVALID_SECPAR`. -/
def IsValidSecpar (secpar : ℕ) : Prop :=
  secpar % 16 = 0 ∧ 16 ≤ secpar ∧ secpar ≤ 16384

instance (secpar : ℕ) : Decidable (IsValidSecpar secpar) :=
  inferInstanceAs (Decidable (_ ∧ _ ∧ _))

theorem IsValidSecpar.toNat_ofNat {secpar : ℕ} (h : IsValidSecpar secpar) :
    (UInt16.ofNat secpar).toNat = secpar :=
  UInt16.toNat_ofNat_of_lt' (by have := h.2.2; norm_num; omega)

theorem IsValidSecpar.toNat_ofNat_mod {secpar : ℕ} (h : IsValidSecpar secpar) :
    (UInt16.ofNat secpar).toNat % 16 = 0 :=
  h.toNat_ofNat.symm ▸ h.1

@[simp] theorem length_secparBytes (secpar : UInt16) : (secparBytes secpar).length = 2 :=
  rfl

theorem storeSecpar_append (before field after : List UInt8) {offset : ℕ}
    (hoffset : before.length = offset) (hlength : field.length = 2) (secpar : UInt16) :
    storeSecpar (before ++ field ++ after) offset secpar =
      .ok (before ++ secparBytes secpar ++ after) :=
  writeAt_append _ _ _ _ hoffset hlength

/-- The two bytes of a 16-bit word give the word back. -/
theorem join_bytes_uint16 (word : UInt16) :
    (word >>> 8 &&& 0xff).toUInt8.toUInt16 <<< 8 ||| (word >>> 0 &&& 0xff).toUInt8.toUInt16 <<< 0 =
      word := by
  have hword := word.toNat_lt
  have hmask : (0xff : UInt16).toNat = 2 ^ 8 - 1 := rfl
  have height : (8 : UInt16).toNat = 8 := rfl
  have hzero : (0 : UInt16).toNat = 0 := rfl
  apply UInt16.toNat_inj.mp
  simp only [UInt16.toNat_or, UInt16.toNat_shiftLeft, UInt8.toNat_toUInt16, UInt16.toNat_toUInt8,
    UInt16.toNat_and, UInt16.toNat_shiftRight, hmask, height, hzero, Nat.zero_mod,
    Nat.and_two_pow_sub_one_eq_mod, Nat.shiftLeft_eq, Nat.shiftRight_eq_div_pow]
  have hhigh : word.toNat / 2 ^ (8 % 16) % 2 ^ 8 % 2 ^ 8 * 2 ^ (8 % 16) % 2 ^ 16 =
      2 ^ 8 * (word.toNat / 2 ^ 8) := by
    norm_num
    omega
  have hlow : word.toNat / 2 ^ 0 % 2 ^ 8 % 2 ^ 8 * 2 ^ 0 % 2 ^ 16 = word.toNat % 2 ^ 8 := by
    omega
  rw [hhigh, hlow, ← Nat.two_pow_add_eq_or_of_lt (Nat.mod_lt _ (by norm_num))]
  exact Nat.div_add_mod _ _

/-- Only the two bytes of the header count. -/
theorem readSecpar_of_header {header body : List UInt8} {value : UInt16}
    (hheader : header.length = 2) (hread : readSecpar (header ++ body) 0 = .ok value)
    (rest : List UInt8) : readSecpar (header ++ rest) 0 = .ok value := by
  obtain ⟨b0, b1, rfl⟩ := List.length_eq_two.mp hheader
  exact hread

/-- A stored header reads back. -/
theorem readSecpar_secparBytes {secpar : ℕ} (h : IsValidSecpar secpar) (rest : List UInt8) :
    readSecpar (secparBytes (UInt16.ofNat secpar) ++ rest) 0 = .ok (UInt16.ofNat secpar) := by
  have hread : readSecpar (secparBytes (UInt16.ofNat secpar) ++ rest) 0 =
      .ok (16 * (UInt16.ofNat secpar / 16 - 1 + 1)) := by
    simp only [readSecpar, secparBytes, List.cons_append, cellAt, List.getElem?_cons_zero, ok_bind,
      Nat.zero_add, List.getElem?_cons_succ, pure_eq_ok, join_bytes_uint16]
  rw [hread, UInt16.sub_add_cancel]
  congr 1
  apply UInt16.toNat_inj.mp
  have hsixteen : (16 : UInt16).toNat = 16 := rfl
  rw [UInt16.toNat_mul, UInt16.toNat_div, hsixteen, h.toNat_ofNat]
  have := h.1
  have := h.2.2
  omega

end PythonSystemd.Fsprg
