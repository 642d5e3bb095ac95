import PythonSystemd.Fsprg.Generator

/-!
# States cut at their offsets

`FSPRG_Evolve`, `FSPRG_GetEpoch` and `FSPRG_GetKey` find the fields of a state by the parameter in
its header. A `CutState` is a buffer that is large enough for what its header announces, cut at the
offsets that the functions compute. The rules for the three functions are proved for it once.
-/

set_option autoImplicit false
set_option relaxedAutoImplicit false

namespace PythonSystemd.Fsprg

open Library.BigEndian Library.CheckedMemory

theorem ofNat_ofBytes_toBytes (word : UInt64) :
    UInt64.ofNat (ofBytes (toBytes 8 word.toNat)) = word := by
  have hlt := word.toNat_lt
  rw [ofBytes_toBytes (by norm_num; omega), UInt64.ofNat_toNat]

/-- A buffer cut at the offsets that the functions compute from its header. -/
structure CutState where
  secpar : UInt16
  header : List UInt8
  fieldN : List UInt8
  fieldX : List UInt8
  fieldEpoch : List UInt8
  rest : List UInt8
  secpar_mod : secpar.toNat % 16 = 0
  length_header : header.length = 2
  readSecpar_header : ∀ rest, readSecpar (header ++ rest) 0 = .ok secpar
  length_fieldN : fieldN.length = secpar.toNat / 8
  length_fieldX : fieldX.length = secpar.toNat / 8
  length_fieldEpoch : fieldEpoch.length = 8

namespace CutState

variable (cut : CutState)

def bytes : List UInt8 :=
  cut.header ++ cut.fieldN ++ cut.fieldX ++ cut.fieldEpoch ++ cut.rest

def n : ℕ := ofBytes cut.fieldN

def x : ℕ := ofBytes cut.fieldX

def epoch : UInt64 := UInt64.ofNat (ofBytes cut.fieldEpoch)

/-- The residue squared and the epoch counted up, all other bytes kept. -/
def evolve : CutState :=
  { cut with
    fieldX := toBytes (cut.secpar.toNat / 8) (cut.x * cut.x % cut.n)
    fieldEpoch := toBytes 8 (cut.epoch + 1).toNat
    length_fieldX := length_toBytes _ _
    length_fieldEpoch := length_toBytes _ _ }

@[simp] theorem secpar_evolve : cut.evolve.secpar = cut.secpar :=
  rfl

theorem bytes_evolve :
    cut.evolve.bytes = cut.header ++ cut.fieldN ++
      toBytes (cut.secpar.toNat / 8) (cut.x * cut.x % cut.n) ++
      toBytes 8 (cut.epoch + 1).toNat ++ cut.rest :=
  rfl

theorem n_lt : cut.n < 256 ^ (cut.secpar.toNat / 8) :=
  cut.length_fieldN ▸ ofBytes_lt cut.fieldN

theorem x_lt : cut.x < 256 ^ (cut.secpar.toNat / 8) :=
  cut.length_fieldX ▸ ofBytes_lt cut.fieldX

theorem x_evolve (hpos : 0 < cut.n) : cut.evolve.x = cut.x * cut.x % cut.n :=
  ofBytes_toBytes ((Nat.mod_lt _ hpos).trans cut.n_lt)

theorem epoch_evolve : cut.evolve.epoch = cut.epoch + 1 :=
  ofNat_ofBytes_toBytes (cut.epoch + 1)

theorem length_bytes :
    cut.bytes.length = 2 + 2 * cut.secpar.toNat / 8 + 8 + cut.rest.length := by
  have hmod := cut.secpar_mod
  simp only [bytes, List.length_append, cut.length_header, cut.length_fieldN, cut.length_fieldX,
    cut.length_fieldEpoch]
  omega

theorem length_evolve : cut.evolve.bytes.length = cut.bytes.length := by
  rw [length_bytes, length_bytes]
  rfl

/-! ### Its fields -/

theorem readSecpar_bytes : readSecpar cut.bytes 0 = .ok cut.secpar := by
  simp only [bytes, List.append_assoc, cut.readSecpar_header]

/-- The bytes up to the residue, which are never written. -/
theorem readAt_bytes_header : readAt cut.bytes 0 2 = .ok cut.header := by
  have hread := readAt_append [] cut.header (cut.fieldN ++ cut.fieldX ++ cut.fieldEpoch ++ cut.rest)
    List.length_nil cut.length_header
  simpa only [bytes, List.nil_append, List.append_assoc] using hread

theorem readAt_bytes_n : readAt cut.bytes 2 (cut.secpar.toNat / 8) = .ok cut.fieldN := by
  have hread := readAt_append cut.header cut.fieldN (cut.fieldX ++ cut.fieldEpoch ++ cut.rest)
    cut.length_header cut.length_fieldN
  simpa only [bytes, List.append_assoc] using hread

theorem mpiImport_bytes_n : mpiImport cut.bytes 2 (cut.secpar.toNat / 8) = .ok cut.n := by
  have himport := mpiImport_append cut.header cut.fieldN
    (cut.fieldX ++ cut.fieldEpoch ++ cut.rest) cut.length_header cut.length_fieldN
  simpa only [bytes, n, List.append_assoc] using himport

theorem x_offset : (cut.header ++ cut.fieldN).length = 2 + 1 * cut.secpar.toNat / 8 := by
  rw [List.length_append, cut.length_header, cut.length_fieldN, Nat.one_mul]

theorem epoch_offset :
    (cut.header ++ cut.fieldN ++ cut.fieldX).length = 2 + 2 * cut.secpar.toNat / 8 := by
  have hmod := cut.secpar_mod
  simp only [List.length_append, cut.length_header, cut.length_fieldN, cut.length_fieldX]
  omega

theorem mpiImport_bytes_x :
    mpiImport cut.bytes (2 + 1 * cut.secpar.toNat / 8) (cut.secpar.toNat / 8) = .ok cut.x := by
  have himport := mpiImport_append _ cut.fieldX (cut.fieldEpoch ++ cut.rest) cut.x_offset
    cut.length_fieldX
  simpa only [bytes, x, List.append_assoc] using himport

theorem uint64Import_bytes :
    uint64Import cut.bytes (2 + 2 * cut.secpar.toNat / 8) 8 = .ok cut.epoch :=
  uint64Import_append _ cut.fieldEpoch cut.rest cut.epoch_offset cut.length_fieldEpoch

theorem toBytes_n : toBytes (cut.secpar.toNat / 8) cut.n = cut.fieldN :=
  toBytes_ofBytes_of_length cut.length_fieldN

theorem toBytes_x : toBytes (cut.secpar.toNat / 8) cut.x = cut.fieldX :=
  toBytes_ofBytes_of_length cut.length_fieldX

theorem toBytes_epoch : toBytes 8 cut.epoch.toNat = cut.fieldEpoch := by
  have hlt := ofBytes_lt cut.fieldEpoch
  rw [cut.length_fieldEpoch] at hlt
  rw [epoch, UInt64.toNat_ofNat_of_lt' hlt]
  exact toBytes_ofBytes_of_length cut.length_fieldEpoch

/-! ### The functions on it -/

theorem fsprgGetEpoch_bytes : fsprgGetEpoch cut.bytes = .ok cut.epoch := by
  simp only [fsprgGetEpoch, cut.readSecpar_bytes, ok_bind, cut.uint64Import_bytes]

/-- `FSPRG_Evolve` with a modulus changes the residue and the epoch and nothing else. -/
theorem fsprgEvolve_bytes (hpos : 0 < cut.n) : fsprgEvolve cut.bytes = .ok cut.evolve.bytes := by
  have hsquare : cut.x * cut.x % cut.n < 256 ^ (cut.secpar.toNat / 8) :=
    (Nat.mod_lt _ hpos).trans cut.n_lt
  have hexportX := mpiExport_append _ cut.fieldX (cut.fieldEpoch ++ cut.rest) cut.x_offset
    cut.length_fieldX hsquare
  have hexportEpoch := uint64Export_append _ cut.fieldEpoch cut.rest cut.evolve.epoch_offset
    cut.length_fieldEpoch (cut.epoch + 1)
  simp only [← List.append_assoc] at hexportX
  simp only [fsprgEvolve, cut.readSecpar_bytes, ok_bind, Nat.zero_mul, Nat.zero_div, Nat.add_zero,
    cut.mpiImport_bytes_n, cut.mpiImport_bytes_x, cut.uint64Import_bytes, gcryMpiMulm_eq hpos]
  rw [bytes, hexportX, ok_bind]
  exact hexportEpoch

/-- With the modulus zero the square is reduced by zero. -/
theorem fsprgEvolve_bytes_of_zero (hzero : cut.n = 0) :
    fsprgEvolve cut.bytes = .error .divisionByZero := by
  have hreduce : gcryMpiMulm cut.x cut.x 0 = .error .divisionByZero := rfl
  simp only [fsprgEvolve, cut.readSecpar_bytes, ok_bind, Nat.zero_mul, Nat.zero_div, Nat.add_zero,
    cut.mpiImport_bytes_n, cut.mpiImport_bytes_x, cut.uint64Import_bytes, hzero, hreduce,
    error_bind]

/-- `FSPRG_GetKey` hashes the fields behind the header. -/
theorem fsprgGetKey_bytes (gcrypt : Gcrypt) (key : List UInt8) (idx : UInt32) :
    fsprgGetKey gcrypt cut.bytes key idx = .ok (detRandomize gcrypt key.length
      (cut.fieldN ++ cut.fieldX ++ cut.fieldEpoch) idx) := by
  have hlength : (cut.fieldN ++ cut.fieldX ++ cut.fieldEpoch).length =
      2 * cut.secpar.toNat / 8 + 8 := by
    have hmod := cut.secpar_mod
    simp only [List.length_append, cut.length_fieldN, cut.length_fieldX, cut.length_fieldEpoch]
    omega
  have hread : readAt cut.bytes 2 (2 * cut.secpar.toNat / 8 + 8) =
      .ok (cut.fieldN ++ cut.fieldX ++ cut.fieldEpoch) := by
    have hread := readAt_append cut.header _ cut.rest cut.length_header hlength
    simpa only [bytes, List.append_assoc] using hread
  have hwrite := writeAt_append [] key []
    (detRandomize gcrypt key.length (cut.fieldN ++ cut.fieldX ++ cut.fieldEpoch) idx)
    List.length_nil (length_detRandomize _ _ _ _).symm
  simp only [List.nil_append, List.append_nil] at hwrite
  simp only [fsprgGetKey, cut.readSecpar_bytes, ok_bind, hread, hwrite]

end CutState

/-! ### Cutting a buffer -/

section Cutting

variable {secpar : ℕ} {state : List UInt8}

/-- A buffer that is large enough is cut into the four fields of a state and the rest. -/
theorem exists_state_fields_and_rest {width : ℕ} (hlength : 2 + width + width + 8 ≤ state.length) :
    ∃ header fieldN fieldX fieldEpoch rest,
      state = header ++ fieldN ++ fieldX ++ fieldEpoch ++ rest ∧ header.length = 2 ∧
      fieldN.length = width ∧ fieldX.length = width ∧ fieldEpoch.length = 8 := by
  obtain ⟨header, fieldN, rest, rfl, hheader, hfieldN⟩ := exists_fields state 2 width (by omega)
  have hrest : width + 8 ≤ rest.length := by
    simp only [List.length_append] at hlength
    omega
  obtain ⟨fieldX, fieldEpoch, rest, rfl, hfieldX, hfieldEpoch⟩ := exists_fields rest width 8 hrest
  exact ⟨header, fieldN, fieldX, fieldEpoch, rest, by simp only [List.append_assoc], hheader,
    hfieldN, hfieldX, hfieldEpoch⟩

/-- A buffer of the right size is cut into the four fields of a state. -/
theorem exists_state_fields (hlength : state.length = 2 + secpar / 8 + secpar / 8 + 8) :
    ∃ header fieldN fieldX fieldEpoch, state = header ++ fieldN ++ fieldX ++ fieldEpoch ∧
      header.length = 2 ∧ fieldN.length = secpar / 8 ∧ fieldX.length = secpar / 8 ∧
      fieldEpoch.length = 8 := by
  obtain ⟨header, fieldN, fieldX, fieldEpoch, rest, rfl, hheader, hfieldN, hfieldX,
    hfieldEpoch⟩ := exists_state_fields_and_rest hlength.ge
  have hrest : rest = [] := by
    simp only [List.length_append] at hlength
    exact List.length_eq_zero_iff.mp (by omega)
  exact ⟨header, fieldN, fieldX, fieldEpoch, by rw [hrest, List.append_nil], hheader, hfieldN,
    hfieldX, hfieldEpoch⟩

/-- The fields of a state, with nothing behind them. -/
def CutState.ofFields (h : IsValidSecpar secpar)
    {header fieldN fieldX fieldEpoch tail : List UInt8}
    (hread : readSecpar (header ++ tail) 0 = .ok (UInt16.ofNat secpar))
    (hheader : header.length = 2) (hfieldN : fieldN.length = secpar / 8)
    (hfieldX : fieldX.length = secpar / 8) (hfieldEpoch : fieldEpoch.length = 8) : CutState where
  secpar := UInt16.ofNat secpar
  header := header
  fieldN := fieldN
  fieldX := fieldX
  fieldEpoch := fieldEpoch
  rest := []
  secpar_mod := h.toNat_ofNat_mod
  length_header := hheader
  readSecpar_header := readSecpar_of_header hheader hread
  length_fieldN := h.toNat_ofNat.symm ▸ hfieldN
  length_fieldX := h.toNat_ofNat.symm ▸ hfieldX
  length_fieldEpoch := hfieldEpoch

theorem CutState.bytes_ofFields (h : IsValidSecpar secpar)
    {header fieldN fieldX fieldEpoch tail : List UInt8}
    (hread : readSecpar (header ++ tail) 0 = .ok (UInt16.ofNat secpar))
    (hheader : header.length = 2) (hfieldN : fieldN.length = secpar / 8)
    (hfieldX : fieldX.length = secpar / 8) (hfieldEpoch : fieldEpoch.length = 8) :
    (CutState.ofFields h hread hheader hfieldN hfieldX hfieldEpoch).bytes =
      header ++ (fieldN ++ fieldX ++ fieldEpoch) := by
  simp only [bytes, ofFields, List.append_nil, List.append_assoc]

/-- A buffer of the size for the parameter that its header is read as is a cut state with nothing
behind its fields. -/
theorem exists_cutState_of_readSecpar (h : IsValidSecpar secpar)
    (hlength : state.length = 2 + secpar / 8 + secpar / 8 + 8)
    (hread : readSecpar state 0 = .ok (UInt16.ofNat secpar)) :
    ∃ cut : CutState, cut.bytes = state ∧ cut.rest = [] ∧ cut.secpar = UInt16.ofNat secpar := by
  obtain ⟨header, fieldN, fieldX, fieldEpoch, rfl, hheader, hfieldN, hfieldX, hfieldEpoch⟩ :=
    exists_state_fields hlength
  simp only [List.append_assoc] at hread
  refine ⟨CutState.ofFields h hread hheader hfieldN hfieldX hfieldEpoch, ?_, rfl, rfl⟩
  simp only [CutState.bytes_ofFields, List.append_assoc]

end Cutting

end PythonSystemd.Fsprg
