import PythonSystemd.Fsprg.FieldWrites

/-!
# The layout of the key and state buffers

`mskBytes`, `mpkBytes` and `stateBytes` are the buffers whose fields hold given numbers. The rules
of this module say what each function of `fsprg.c` does to such a buffer: storing into any buffer
of the right size gives the layout (`storeMsk_eq_ok`, `storeMpk_eq_ok`), and `FSPRG_Evolve`,
`FSPRG_GetEpoch` and `FSPRG_GenState0` read the fields back and write new ones. All later results
about the generator use these rules and never look at offsets again.
-/

set_option autoImplicit false
set_option relaxedAutoImplicit false

namespace PythonSystemd.Fsprg

open Library.BigEndian Library.CheckedMemory

/-- The buffer of `FSPRG_mskinbytes (secpar)` bytes that holds the two primes. -/
def mskBytes (secpar p q : ℕ) : List UInt8 :=
  secparBytes (UInt16.ofNat secpar) ++ toBytes (secpar / 16) p ++ toBytes (secpar / 16) q

/-- The buffer of `FSPRG_mpkinbytes (secpar)` bytes that holds the modulus. -/
def mpkBytes (secpar n : ℕ) : List UInt8 :=
  secparBytes (UInt16.ofNat secpar) ++ toBytes (secpar / 8) n

/-- The buffer of `FSPRG_stateinbytes (secpar)` bytes that holds a modulus, a residue and an
epoch. -/
def stateBytes (secpar n x : ℕ) (epoch : UInt64) : List UInt8 :=
  secparBytes (UInt16.ofNat secpar) ++ toBytes (secpar / 8) n ++ toBytes (secpar / 8) x ++
    toBytes 8 epoch.toNat

theorem fsprgMskinbytes_eq {secpar : ℕ} (h : IsValidSecpar secpar) :
    fsprgMskinbytes secpar = .ok (2 + secpar / 16 + secpar / 16) := by
  rw [fsprgMskinbytes, assert_of h, ok_bind, pure_eq_ok]
  congr 1
  have := h.1
  omega

theorem fsprgMpkinbytes_eq {secpar : ℕ} (h : IsValidSecpar secpar) :
    fsprgMpkinbytes secpar = .ok (2 + secpar / 8) := by
  rw [fsprgMpkinbytes, assert_of h, ok_bind, pure_eq_ok]

theorem fsprgStateinbytes_eq {secpar : ℕ} (h : IsValidSecpar secpar) :
    fsprgStateinbytes secpar = .ok (2 + secpar / 8 + secpar / 8 + 8) := by
  rw [fsprgStateinbytes, assert_of h, ok_bind, pure_eq_ok]
  congr 1
  have := h.1
  omega

@[simp] theorem length_mpkBytes (secpar n : ℕ) : (mpkBytes secpar n).length = 2 + secpar / 8 := by
  simp [mpkBytes]

@[simp] theorem length_stateBytes (secpar n x : ℕ) (epoch : UInt64) :
    (stateBytes secpar n x epoch).length = 2 + secpar / 8 + secpar / 8 + 8 := by
  simp [stateBytes]
  omega

theorem IsValidSecpar.pow_field {secpar : ℕ} (h : IsValidSecpar secpar) :
    256 ^ (secpar / 8) = 2 ^ secpar := by
  rw [← two_pow_eight_mul]
  congr 1
  have := h.1
  omega

theorem IsValidSecpar.pow_half_field {secpar : ℕ} (h : IsValidSecpar secpar) :
    256 ^ (secpar / 16) = 2 ^ (secpar / 2) := by
  rw [← two_pow_eight_mul]
  congr 1
  have := h.1
  omega

variable {secpar : ℕ}

theorem IsValidSecpar.length_msk (h : IsValidSecpar secpar) {msk : List UInt8}
    (hmsk : fsprgMskinbytes secpar = .ok msk.length) :
    msk.length = 2 + secpar / 16 + secpar / 16 :=
  Except.ok.inj (hmsk.symm.trans (fsprgMskinbytes_eq h))

theorem IsValidSecpar.length_mpk (h : IsValidSecpar secpar) {mpk : List UInt8}
    (hmpk : fsprgMpkinbytes secpar = .ok mpk.length) : mpk.length = 2 + secpar / 8 :=
  Except.ok.inj (hmpk.symm.trans (fsprgMpkinbytes_eq h))

theorem IsValidSecpar.length_state (h : IsValidSecpar secpar) {state : List UInt8}
    (hstate : fsprgStateinbytes secpar = .ok state.length) :
    state.length = 2 + secpar / 8 + secpar / 8 + 8 :=
  Except.ok.inj (hstate.symm.trans (fsprgStateinbytes_eq h))

/-! ### Storing the master keys -/

theorem mskBytes_p_offset (secpar : ℕ) :
    (secparBytes (UInt16.ofNat secpar)).length = 2 + 0 * (secpar / 2) / 8 := by
  rw [length_secparBytes, Nat.zero_mul, Nat.zero_div]

/-- The primes are stored when both fit half the parameter. -/
theorem storeMsk_eq_ok (h : IsValidSecpar secpar) {msk : List UInt8}
    (hmsk : msk.length = 2 + secpar / 16 + secpar / 16) {p q : ℕ} (hp : p < 2 ^ (secpar / 2))
    (hq : q < 2 ^ (secpar / 2)) :
    storeMsk msk (UInt16.ofNat secpar) p q = .ok (mskBytes secpar p q) := by
  have hstores : Stores (mskFields secpar p q) _ :=
    stores_msk (h.pow_half_field ▸ hp) (h.pow_half_field ▸ hq)
  have hlength : msk.length = 2 + (toBytes (secpar / 16) p ++ toBytes (secpar / 16) q).length := by
    rw [hmsk, List.length_append, length_toBytes, length_toBytes, Nat.add_assoc]
  rw [storeMsk_eq_runWrites h, hstores.runWrites_withHeader hlength, mskBytes, List.append_assoc]

/-- A prime that does not fit half the parameter fails the assertion of `mpi_export`. -/
theorem storeMsk_eq_error (h : IsValidSecpar secpar) {msk : List UInt8}
    (hmsk : msk.length = 2 + secpar / 16 + secpar / 16) {p q : ℕ}
    (hlarge : 2 ^ (secpar / 2) ≤ p ∨ 2 ^ (secpar / 2) ≤ q) :
    storeMsk msk (UInt16.ofNat secpar) p q = .error .assertion := by
  obtain ⟨header, fieldP, fieldQ, rfl, hheader, hfieldP⟩ :=
    exists_fields msk 2 (secpar / 16) (by omega)
  have hfirst : secpar / 2 / 8 = secpar / 16 := by omega
  have hstore := storeSecpar_append [] header (fieldP ++ fieldQ) List.length_nil hheader
    (UInt16.ofNat secpar)
  simp only [List.nil_append, ← List.append_assoc] at hstore
  by_cases hp : p < 2 ^ (secpar / 2)
  · have hq : 2 ^ (secpar / 2) ≤ q := hlarge.resolve_left (by omega)
    have hexportP := mpiExport_append (secparBytes (UInt16.ofNat secpar)) fieldP fieldQ
      (mskBytes_p_offset secpar) hfieldP (h.pow_half_field ▸ hp)
    simp only [storeMsk, h.toNat_ofNat, hfirst, hstore, ok_bind, hexportP]
    exact mpiExport_eq_error _ _ (h.pow_half_field ▸ hq)
  · have hexportP := mpiExport_eq_error
      (secparBytes (UInt16.ofNat secpar) ++ fieldP ++ fieldQ) (2 + 0 * (secpar / 2) / 8)
      (h.pow_half_field.trans_le (not_lt.mp hp))
    simp only [storeMsk, h.toNat_ofNat, hfirst, hstore, ok_bind, hexportP, error_bind]

/-- The modulus is stored when it has exactly `secpar` bits. -/
theorem storeMpk_eq_ok (h : IsValidSecpar secpar) {mpk : List UInt8}
    (hmpk : mpk.length = 2 + secpar / 8) {p q : ℕ} (hsize : (p * q).size = secpar) :
    storeMpk mpk (UInt16.ofNat secpar) p q = .ok (mpkBytes secpar (p * q)) := by
  have hlt : p * q < 2 ^ secpar := Nat.size_le.mp hsize.le
  have hstores : Stores (mpkFields secpar (p * q)) _ := stores_mpk (h.pow_field ▸ hlt)
  have hlength : mpk.length = 2 + (toBytes (secpar / 8) (p * q)).length := by
    rw [hmpk, length_toBytes]
  rw [storeMpk_eq_runWrites h mpk hsize, hstores.runWrites_withHeader hlength, mpkBytes]

/-! ### Reading the master keys -/

theorem readSecpar_mskBytes (h : IsValidSecpar secpar) (p q : ℕ) :
    readSecpar (mskBytes secpar p q) 0 = .ok (UInt16.ofNat secpar) := by
  rw [mskBytes, List.append_assoc]
  exact readSecpar_secparBytes h _

theorem mpiImport_mskBytes_p (h : IsValidSecpar secpar) {p : ℕ} (q : ℕ)
    (hp : p < 2 ^ (secpar / 2)) :
    mpiImport (mskBytes secpar p q) (2 + 0 * (secpar / 2) / 8) (secpar / 2 / 8) = .ok p := by
  have hwidth : secpar / 2 / 8 = secpar / 16 := by omega
  rw [hwidth]
  exact mpiImport_toBytes (by simp) (h.pow_half_field ▸ hp)

theorem mpiImport_mskBytes_q (h : IsValidSecpar secpar) (p : ℕ) {q : ℕ}
    (hq : q < 2 ^ (secpar / 2)) :
    mpiImport (mskBytes secpar p q) (2 + 1 * (secpar / 2) / 8) (secpar / 2 / 8) = .ok q := by
  have hwidth : secpar / 2 / 8 = secpar / 16 := by omega
  rw [hwidth, mskBytes, ← List.append_nil (_ ++ _ ++ _)]
  exact mpiImport_toBytes (by simp; omega) (h.pow_half_field ▸ hq)

theorem readSecpar_mpkBytes (h : IsValidSecpar secpar) (n : ℕ) :
    readSecpar (mpkBytes secpar n) 0 = .ok (UInt16.ofNat secpar) :=
  readSecpar_secparBytes h _

theorem mpiImport_mpkBytes (h : IsValidSecpar secpar) {n : ℕ} (hn : n < 2 ^ secpar) :
    mpiImport (mpkBytes secpar n) 2 (secpar / 8) = .ok n := by
  rw [mpkBytes, ← List.append_nil (_ ++ _)]
  exact mpiImport_toBytes (by simp) (h.pow_field ▸ hn)

/-! ### States -/

section States

variable {n x : ℕ} {epoch : UInt64}

/-- The buffer that holds given numbers, cut at its offsets. -/
def CutState.encoded (h : IsValidSecpar secpar) (n x : ℕ) (epoch : UInt64) : CutState where
  secpar := UInt16.ofNat secpar
  header := secparBytes (UInt16.ofNat secpar)
  fieldN := toBytes (secpar / 8) n
  fieldX := toBytes (secpar / 8) x
  fieldEpoch := toBytes 8 epoch.toNat
  rest := []
  secpar_mod := h.toNat_ofNat_mod
  length_header := length_secparBytes _
  readSecpar_header := readSecpar_secparBytes h
  length_fieldN := by rw [h.toNat_ofNat, length_toBytes]
  length_fieldX := by rw [h.toNat_ofNat, length_toBytes]
  length_fieldEpoch := length_toBytes _ _

namespace CutState

theorem bytes_encoded (h : IsValidSecpar secpar) (n x : ℕ) (epoch : UInt64) :
    (encoded h n x epoch).bytes = stateBytes secpar n x epoch :=
  List.append_nil _

theorem n_encoded (h : IsValidSecpar secpar) (hn : n < 2 ^ secpar) (x : ℕ) (epoch : UInt64) :
    (encoded h n x epoch).n = n :=
  ofBytes_toBytes (h.pow_field ▸ hn)

theorem x_encoded (h : IsValidSecpar secpar) (n : ℕ) (hx : x < 2 ^ secpar) (epoch : UInt64) :
    (encoded h n x epoch).x = x :=
  ofBytes_toBytes (h.pow_field ▸ hx)

theorem epoch_encoded (h : IsValidSecpar secpar) (n x : ℕ) (epoch : UInt64) :
    (encoded h n x epoch).epoch = epoch :=
  ofNat_ofBytes_toBytes epoch

theorem bytes_evolve_encoded (h : IsValidSecpar secpar) (hn : n < 2 ^ secpar) (hx : x < 2 ^ secpar)
    (epoch : UInt64) :
    (encoded h n x epoch).evolve.bytes = stateBytes secpar n (x * x % n) (epoch + 1) := by
  have hsecpar : (encoded h n x epoch).secpar.toNat = secpar := h.toNat_ofNat
  rw [bytes_evolve, hsecpar, n_encoded h hn, x_encoded h n hx, epoch_encoded]
  exact List.append_nil _

end CutState

theorem readSecpar_stateBytes (h : IsValidSecpar secpar) (n x : ℕ) (epoch : UInt64) :
    readSecpar (stateBytes secpar n x epoch) 0 = .ok (UInt16.ofNat secpar) :=
  CutState.bytes_encoded h n x epoch ▸ (CutState.encoded h n x epoch).readSecpar_bytes

theorem mpiImport_stateBytes_n (h : IsValidSecpar secpar) (hn : n < 2 ^ secpar) (x : ℕ)
    (epoch : UInt64) :
    mpiImport (stateBytes secpar n x epoch) (2 + 0 * secpar / 8) (secpar / 8) = .ok n := by
  have hsecpar : (CutState.encoded h n x epoch).secpar.toNat = secpar := h.toNat_ofNat
  have himport := (CutState.encoded h n x epoch).mpiImport_bytes_n
  rw [CutState.bytes_encoded, hsecpar, CutState.n_encoded h hn] at himport
  rwa [Nat.zero_mul, Nat.zero_div]

theorem mpiImport_stateBytes_x (h : IsValidSecpar secpar) (n : ℕ) (hx : x < 2 ^ secpar)
    (epoch : UInt64) :
    mpiImport (stateBytes secpar n x epoch) (2 + 1 * secpar / 8) (secpar / 8) = .ok x := by
  have hsecpar : (CutState.encoded h n x epoch).secpar.toNat = secpar := h.toNat_ofNat
  have himport := (CutState.encoded h n x epoch).mpiImport_bytes_x
  rwa [CutState.bytes_encoded, hsecpar, CutState.x_encoded h n hx] at himport

/-- `FSPRG_Evolve` squares the residue and counts the epoch up. -/
theorem fsprgEvolve_stateBytes (h : IsValidSecpar secpar) (hn : n < 2 ^ secpar) (hpos : 0 < n)
    (hx : x < 2 ^ secpar) :
    fsprgEvolve (stateBytes secpar n x epoch) =
      .ok (stateBytes secpar n (x * x % n) (epoch + 1)) := by
  have hmodulus : 0 < (CutState.encoded h n x epoch).n := by rwa [CutState.n_encoded h hn]
  have hevolve := (CutState.encoded h n x epoch).fsprgEvolve_bytes hmodulus
  rwa [CutState.bytes_encoded, CutState.bytes_evolve_encoded h hn hx] at hevolve

theorem fsprgGetEpoch_stateBytes (h : IsValidSecpar secpar) (n x : ℕ) (epoch : UInt64) :
    fsprgGetEpoch (stateBytes secpar n x epoch) = .ok epoch := by
  have hepoch := (CutState.encoded h n x epoch).fsprgGetEpoch_bytes
  rwa [CutState.bytes_encoded, CutState.epoch_encoded] at hepoch

/-- A state buffer determines its residue and its epoch. -/
theorem stateBytes_inj (h : IsValidSecpar secpar) {y : ℕ} {epoch' : UInt64} (hx : x < 2 ^ secpar)
    (hy : y < 2 ^ secpar) (heq : stateBytes secpar n x epoch = stateBytes secpar n y epoch') :
    x = y ∧ epoch = epoch' := by
  have hresidue := mpiImport_stateBytes_x h n hx epoch
  have hepoch := fsprgGetEpoch_stateBytes h n x epoch
  rw [heq, mpiImport_stateBytes_x h n hy] at hresidue
  rw [heq, fsprgGetEpoch_stateBytes h] at hepoch
  exact ⟨(Except.ok.inj hresidue).symm, (Except.ok.inj hepoch).symm⟩

end States

/-! ### The first state -/

/-- The number that `gensquare` squares, from the bytes of `det_randomize`. -/
def squareRoot (bytes : List UInt8) : ℕ :=
  ofBytes (bytes.modify 0 (· &&& 0x7f))

/-- The mask clears the upper bit. -/
theorem squareRoot_lt {bytes : List UInt8} (hbytes : bytes ≠ []) :
    2 * squareRoot bytes < 256 ^ bytes.length := by
  obtain ⟨head, tail, rfl⟩ := List.exists_cons_of_ne_nil hbytes
  have hhead : (head &&& 0x7f).toNat ≤ 127 := by
    rw [UInt8.toNat_and]
    exact Nat.and_le_right
  have htail := ofBytes_lt tail
  have hproduct : (head &&& 0x7f).toNat * 256 ^ tail.length ≤ 127 * 256 ^ tail.length :=
    Nat.mul_le_mul_right _ hhead
  rw [squareRoot, List.modify_zero_cons, ofBytes_cons, List.length_cons, pow_succ]
  omega

theorem IsValidSecpar.squareRoot_lt (h : IsValidSecpar secpar) (gcrypt : Gcrypt)
    (seed : List UInt8) (idx : UInt32) :
    squareRoot (detRandomize gcrypt (secpar / 8) seed idx) < 2 ^ (secpar - 1) := by
  have hlow := h.2.1
  have hlength := length_detRandomize gcrypt (secpar / 8) seed idx
  have hbytes : detRandomize gcrypt (secpar / 8) seed idx ≠ [] := by
    rw [← List.length_pos_iff, hlength]
    omega
  have hlt := Fsprg.squareRoot_lt hbytes
  rw [hlength, h.pow_field] at hlt
  have hpow : 2 ^ secpar = 2 * 2 ^ (secpar - 1) := by
    rw [← pow_succ']
    congr 1
    omega
  omega

/-- `gensquare` squares a number below half the range and needs it to be below the modulus. -/
theorem gensquare_eq (h : IsValidSecpar secpar) (gcrypt : Gcrypt) {n : ℕ} (hpos : 0 < n)
    (seed : List UInt8) (idx : UInt32) :
    gensquare gcrypt n seed idx secpar =
      (if squareRoot (detRandomize gcrypt (secpar / 8) seed idx) < n then
        .ok (squareRoot (detRandomize gcrypt (secpar / 8) seed idx) *
          squareRoot (detRandomize gcrypt (secpar / 8) seed idx) % n)
      else .error .assertion) := by
  have hlow := h.2.1
  have hlength := length_detRandomize gcrypt (secpar / 8) seed idx
  have himport : mpiImport ((detRandomize gcrypt (secpar / 8) seed idx).modify 0 (· &&& 0x7f)) 0
      (secpar / 8) = .ok (squareRoot (detRandomize gcrypt (secpar / 8) seed idx)) := by
    have himport := mpiImport_append []
      ((detRandomize gcrypt (secpar / 8) seed idx).modify 0 (· &&& 0x7f)) [] List.length_nil
      (by rw [List.length_modify, hlength])
    rwa [List.nil_append, List.append_nil] at himport
  simp only [gensquare, modifyAt, hlength, if_pos (show 0 < secpar / 8 by omega), ok_bind, himport]
  split_ifs with hlt
  · rw [assert_of hlt, ok_bind, gcryMpiMulm_eq hpos]
  · rw [assert_of_not hlt, error_bind]

/-- A root that is not below the modulus fails the assertion of `gensquare`. -/
theorem fsprgGenState0_eq_error (h : IsValidSecpar secpar) (gcrypt : Gcrypt) {n : ℕ}
    (hn : n < 2 ^ secpar) (hpos : 0 < n) {seed : List UInt8} (state : List UInt8)
    (hroot : n ≤ squareRoot (detRandomize gcrypt (secpar / 8) seed rndGenX)) :
    fsprgGenState0 gcrypt state (mpkBytes secpar n) seed = .error .assertion := by
  have hgensquare := gensquare_eq h gcrypt hpos seed rndGenX
  rw [if_neg (by omega)] at hgensquare
  simp only [fsprgGenState0, readSecpar_mpkBytes h, ok_bind, h.toNat_ofNat,
    mpiImport_mpkBytes h hn, hgensquare, error_bind]

/-- `FSPRG_GenState0` fills any state buffer with the modulus, a square and epoch zero. -/
theorem fsprgGenState0_mpkBytes (h : IsValidSecpar secpar) (gcrypt : Gcrypt) {n : ℕ}
    (hn : n < 2 ^ secpar) {seed state : List UInt8}
    (hroot : squareRoot (detRandomize gcrypt (secpar / 8) seed rndGenX) < n)
    (hstate : state.length = 2 + secpar / 8 + secpar / 8 + 8) :
    fsprgGenState0 gcrypt state (mpkBytes secpar n) seed =
      .ok (stateBytes secpar n (squareRoot (detRandomize gcrypt (secpar / 8) seed rndGenX) *
        squareRoot (detRandomize gcrypt (secpar / 8) seed rndGenX) % n) 0) := by
  have hpos : 0 < n := Nat.zero_lt_of_lt hroot
  set root := squareRoot (detRandomize gcrypt (secpar / 8) seed rndGenX) with hrootDef
  have hsquare : root * root % n < 256 ^ (secpar / 8) := by
    rw [h.pow_field]
    exact (Nat.mod_lt _ hpos).trans hn
  have hgensquare : gensquare gcrypt n seed rndGenX secpar = .ok (root * root % n) := by
    rw [gensquare_eq h gcrypt hpos, ← hrootDef, if_pos hroot]
  have hread : readAt (mpkBytes secpar n) 0 (2 + secpar / 8) = .ok (mpkBytes secpar n) := by
    have hread := readAt_append [] (mpkBytes secpar n) [] List.length_nil
      (length_mpkBytes secpar n)
    rwa [List.nil_append, List.append_nil] at hread
  have hwrites := runWrites_state0Writes (length_mpkBytes secpar n) h.1 hsquare hstate
  simp only [runWrites, state0Writes, List.foldlM_cons, List.foldlM_nil, FieldWrite.run,
    bind_pure] at hwrites
  simp only [fsprgGenState0, readSecpar_mpkBytes h, ok_bind, h.toNat_ofNat,
    mpiImport_mpkBytes h hn, hgensquare, hread, hwrites]
  rfl

end PythonSystemd.Fsprg
