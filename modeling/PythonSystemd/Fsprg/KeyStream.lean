import PythonSystemd.Fsprg.StateContents

/-!
# The stream that keys are taken from

`det_randomize` writes the beginning of a stream: the digests of the seed and the index with the
block counters in order. `detRandomize_eq_take` is the loop by induction on the blocks that are
left, for any counter to start from.

What `FSPRG_GetKey` hashes is the state without its header, the index and a counter. The header is
missing, but the length of the input gives the parameter back, and with it the offsets of the fields
(`hashInput_inj`).
-/

set_option autoImplicit false
set_option relaxedAutoImplicit false

namespace PythonSystemd.Fsprg

open Library.BigEndian Library.CheckedMemory

/-! ### The stream -/

/-- The blocks for `count` counters from `start` on, one after the other. -/
def counterStream (block : ℕ → List UInt8) : (start count : ℕ) → List UInt8
  | _, 0 => []
  | start, count + 1 => block start ++ counterStream block (start + 1) count

/-- What is hashed for a block: index and counter in four bytes each, behind the seed. -/
def hashInput (seed : List UInt8) (idx : UInt32) (ctr : ℕ) : List UInt8 :=
  seed ++ toBytes 4 idx.toNat ++ toBytes 4 ctr

/-- The stream of a seed and an index, as long as its 32-bit counter allows. -/
def keyStream (gcrypt : Gcrypt) (seed : List UInt8) (idx : UInt32) : List UInt8 :=
  counterStream (fun ctr ↦ gcrypt.digest (hashInput seed idx ctr)) 0 (2 ^ 32)

/-- The beginning of a stream of digests: one digest, and as much of the later ones as is still
wanted. -/
theorem take_counterStream_succ {block : ℕ → List UInt8}
    (hblock : ∀ ctr, (block ctr).length = rndHashDlen) (length start count : ℕ) :
    (counterStream block start (count + 1)).take length =
      (block start).take (min length rndHashDlen) ++
        (counterStream block (start + 1) count).take (length - min length rndHashDlen) := by
  rw [counterStream, List.take_append, hblock, ← List.take_take, ← hblock start,
    List.take_length, hblock]
  congr 2
  omega

/-! ### The loop -/

section Loop

variable {gcrypt : Gcrypt}

/-- One byte of a 32-bit word. -/
theorem byte_of_shiftRight_uint32 (x : UInt32) {k : ℕ} (hk : k < 4) :
    (x >>> UInt32.ofNat (8 * k) &&& 0xff).toUInt8 = UInt8.ofNat (x.toNat / 256 ^ k) := by
  apply UInt8.toNat_inj.mp
  have hshift : 8 * k % 2 ^ 32 % 32 = 8 * k := by omega
  have hmask : (0xff : UInt32).toNat = 2 ^ 8 - 1 := rfl
  rw [UInt32.toNat_toUInt8, UInt32.toNat_and, UInt32.toNat_shiftRight, UInt32.toNat_ofNat', hshift,
    Nat.shiftRight_eq_div_pow, two_pow_eight_mul, hmask, Nat.and_two_pow_sub_one_eq_mod,
    Nat.mod_mod, UInt8.toNat_ofNat']

theorem uint32Bytes_eq_toBytes (x : UInt32) : uint32Bytes x = toBytes 4 x.toNat := by
  have hbytes : toBytes 4 x.toNat =
      [3, 2, 1, 0].map fun k ↦ UInt8.ofNat (x.toNat / 256 ^ k) := by
    simp [toBytes, Nat.div_div_eq_div_mul]
  rw [hbytes]
  simp only [List.map_cons, List.map_nil, uint32Bytes]
  congr
  · exact byte_of_shiftRight_uint32 x (k := 3) (by norm_num)
  · exact byte_of_shiftRight_uint32 x (k := 2) (by norm_num)
  · exact byte_of_shiftRight_uint32 x (k := 1) (by norm_num)
  · exact byte_of_shiftRight_uint32 x (k := 0) (by norm_num)

/-- The loop from any counter on, while the counter does not wrap. -/
theorem detRandomizeFrom_eq_take (hd : List UInt8) {count ctr buflen : ℕ}
    (hctr : ctr + count ≤ 2 ^ 32) (hbuflen : buflen ≤ rndHashDlen * count) :
    detRandomizeFrom gcrypt hd (UInt32.ofNat ctr) buflen =
      (counterStream (fun ctr ↦ gcrypt.digest (hd ++ toBytes 4 ctr)) ctr count).take buflen := by
  induction count generalizing ctr buflen with
  | zero =>
    have hzero : buflen = 0 := Nat.le_zero.mp hbuflen
    rw [hzero, detRandomizeFrom, if_pos rfl, List.take_zero]
  | succ count ih =>
    have hinput : uint32Bytes (UInt32.ofNat ctr) = toBytes 4 ctr := by
      rw [uint32Bytes_eq_toBytes, UInt32.toNat_ofNat_of_lt' (by norm_num; omega)]
    have hnext : UInt32.ofNat ctr + 1 = UInt32.ofNat (ctr + 1) := by
      rw [UInt32.ofNat_add]
      rfl
    have hcpylen : (if buflen < rndHashDlen then buflen else rndHashDlen) =
        min buflen rndHashDlen := by
      split_ifs <;> omega
    have hdigest : ∀ ctr, (gcrypt.digest (hd ++ toBytes 4 ctr)).length = rndHashDlen :=
      fun ctr ↦ gcrypt.digest_length _
    rw [take_counterStream_succ hdigest]
    by_cases hzero : buflen = 0
    · rw [hzero, detRandomizeFrom, if_pos rfl]
      rfl
    · rw [detRandomizeFrom, if_neg hzero]
      simp only [hcpylen, hinput, hnext]
      rw [ih (by omega) (by simp only [rndHashDlen] at hbuflen ⊢; omega)]

/-- Up to `2 ^ 32` blocks `det_randomize` writes the beginning of the stream. -/
theorem detRandomize_eq_take (seed : List UInt8) (idx : UInt32) {buflen : ℕ}
    (hbuflen : buflen ≤ 32 * 2 ^ 32) :
    detRandomize gcrypt buflen seed idx = (keyStream gcrypt seed idx).take buflen := by
  have hloop : detRandomizeFrom gcrypt (seed ++ uint32Bytes idx) (UInt32.ofNat 0) buflen =
      (counterStream (fun ctr ↦ gcrypt.digest (seed ++ uint32Bytes idx ++ toBytes 4 ctr)) 0
        (2 ^ 32)).take buflen :=
    detRandomizeFrom_eq_take _ le_rfl hbuflen
  rw [uint32Bytes_eq_toBytes] at hloop
  rw [detRandomize, uint32Bytes_eq_toBytes]
  exact hloop

theorem detRandomize_prefix (seed : List UInt8) (idx : UInt32) {short long : ℕ}
    (hle : short ≤ long) (hlong : long ≤ 32 * 2 ^ 32) :
    detRandomize gcrypt short seed idx <+: detRandomize gcrypt long seed idx := by
  rw [detRandomize_eq_take seed idx hlong, detRandomize_eq_take seed idx (hle.trans hlong)]
  exact List.take_prefix_take_left hle

end Loop

/-! ### The inputs of the digest -/

/-- A buffer of the size for the parameter that holds a modulus, a residue and an epoch. -/
structure StateHolds (secpar n x : ℕ) (epoch : UInt64) (state : List UInt8) : Prop where
  valid : IsValidSecpar secpar
  length_eq : fsprgStateinbytes secpar = .ok state.length
  secpar_eq : readSecpar state 0 = .ok (UInt16.ofNat secpar)
  modulus_eq : mpiImport state 2 (secpar / 8) = .ok n
  residue_eq : mpiImport state (2 + secpar / 8) (secpar / 8) = .ok x
  epoch_eq : fsprgGetEpoch state = .ok epoch

section Inputs

variable {secpar n x : ℕ} {epoch : UInt64} {state : List UInt8}

/-- Well-formed states are such buffers. -/
theorem WellFormed.exists_stateHolds (h : IsValidSecpar secpar)
    (hwell : WellFormed secpar n epoch state) : ∃ x, StateHolds secpar n x epoch state := by
  obtain ⟨x, himport, -⟩ := hwell.residue
  exact ⟨x, h, hwell.length_eq, hwell.secpar_eq, hwell.modulus_eq, himport, hwell.epoch_eq⟩

theorem stateHolds_stateBytes (h : IsValidSecpar secpar) (hn : n < 2 ^ secpar)
    (hx : x < 2 ^ secpar) : StateHolds secpar n x epoch (stateBytes secpar n x epoch) where
  valid := h
  length_eq := by rw [fsprgStateinbytes_eq h, length_stateBytes]
  secpar_eq := readSecpar_stateBytes h n x epoch
  modulus_eq := by
    have himport := mpiImport_stateBytes_n h hn x epoch
    rwa [Nat.zero_mul, Nat.zero_div] at himport
  residue_eq := by
    have himport := mpiImport_stateBytes_x h n hx epoch
    rwa [Nat.one_mul] at himport
  epoch_eq := fsprgGetEpoch_stateBytes h n x epoch

/-- Such a buffer is a cut state with nothing behind its fields. -/
theorem StateHolds.exists_cutState (hstate : StateHolds secpar n x epoch state) :
    ∃ cut : CutState, cut.bytes = state ∧ cut.rest = [] ∧ cut.secpar.toNat = secpar ∧
      cut.n = n ∧ cut.x = x ∧ cut.epoch = epoch := by
  have hlength := hstate.valid.length_state hstate.length_eq
  obtain ⟨cut, rfl, hrest, hsecpar⟩ :=
    exists_cutState_of_readSecpar hstate.valid hlength hstate.secpar_eq
  have htoNat : cut.secpar.toNat = secpar := by rw [hsecpar, hstate.valid.toNat_ofNat]
  have hn := cut.mpiImport_bytes_n
  have hx := cut.mpiImport_bytes_x
  rw [htoNat] at hn
  rw [htoNat, Nat.one_mul] at hx
  exact ⟨cut, rfl, hrest, htoNat, Except.ok.inj (hn.symm.trans hstate.modulus_eq),
    Except.ok.inj (hx.symm.trans hstate.residue_eq),
    Except.ok.inj (cut.fsprgGetEpoch_bytes.symm.trans hstate.epoch_eq)⟩

/-- What is hashed of a state is what stands behind its header. -/
theorem CutState.drop_bytes {cut : CutState} (hrest : cut.rest = []) :
    cut.bytes.drop 2 = cut.fieldN ++ cut.fieldX ++ cut.fieldEpoch := by
  rw [CutState.bytes, hrest, List.append_nil, List.append_assoc, List.append_assoc,
    ← cut.length_header, List.drop_left, List.append_assoc]

/-- `FSPRG_GetKey` takes its key from the stream of the state without the header. -/
theorem StateHolds.fsprgGetKey_eq (hstate : StateHolds secpar n x epoch state) (gcrypt : Gcrypt)
    (key : List UInt8) (idx : UInt32) :
    fsprgGetKey gcrypt state key idx = .ok (detRandomize gcrypt key.length (state.drop 2) idx) := by
  obtain ⟨cut, rfl, hrest, -⟩ := hstate.exists_cutState
  rw [cut.fsprgGetKey_bytes, CutState.drop_bytes hrest]

/-- An input of the digest gives the seed, the index and the counter back. -/
theorem hashInput_inj {seed seed' : List UInt8} {idx idx' : UInt32} {ctr ctr' : ℕ}
    (hctr : ctr < 2 ^ 32) (hctr' : ctr' < 2 ^ 32)
    (heq : hashInput seed idx ctr = hashInput seed' idx' ctr') :
    seed = seed' ∧ idx = idx' ∧ ctr = ctr' := by
  have hlength : (toBytes 4 ctr).length = (toBytes 4 ctr').length := by
    rw [length_toBytes, length_toBytes]
  obtain ⟨hfront, hcounter⟩ := List.append_inj' heq hlength
  have hlength : (toBytes 4 idx.toNat).length = (toBytes 4 idx'.toNat).length := by
    rw [length_toBytes, length_toBytes]
  obtain ⟨hseed, hindex⟩ := List.append_inj' hfront hlength
  have hidx := idx.toNat_lt
  have hidx' := idx'.toNat_lt
  have hpow : 256 ^ 4 = 2 ^ 32 := by norm_num
  exact ⟨hseed, UInt32.toNat_inj.mp (toBytes_inj (hpow ▸ hidx) (hpow ▸ hidx') hindex),
    toBytes_inj (hpow ▸ hctr) (hpow ▸ hctr') hcounter⟩

/-- Without the header a state still determines its fields: the length gives the parameter. -/
theorem StateHolds.fields_eq {secpar' n' x' : ℕ} {epoch' : UInt64} {state' : List UInt8}
    (hstate : StateHolds secpar n x epoch state)
    (hstate' : StateHolds secpar' n' x' epoch' state')
    (heq : state.drop 2 = state'.drop 2) :
    secpar = secpar' ∧ n = n' ∧ x = x' ∧ epoch = epoch' := by
  have hmod := hstate.valid.1
  have hmod' := hstate'.valid.1
  obtain ⟨cut, rfl, hrest, rfl, rfl, rfl, rfl⟩ := hstate.exists_cutState
  obtain ⟨cut', rfl, hrest', rfl, rfl, rfl, rfl⟩ := hstate'.exists_cutState
  rw [CutState.drop_bytes hrest, CutState.drop_bytes hrest'] at heq
  have hlength := congrArg List.length heq
  simp only [List.length_append, CutState.length_fieldN, CutState.length_fieldX,
    CutState.length_fieldEpoch] at hlength
  have hsecpar : cut.secpar.toNat = cut'.secpar.toNat := by omega
  have hepochs : cut.fieldEpoch.length = cut'.fieldEpoch.length := by
    rw [cut.length_fieldEpoch, cut'.length_fieldEpoch]
  obtain ⟨hfront, hepoch⟩ := List.append_inj' heq hepochs
  have hresidues : cut.fieldX.length = cut'.fieldX.length := by
    rw [cut.length_fieldX, cut'.length_fieldX, hsecpar]
  obtain ⟨hmodulus, hresidue⟩ := List.append_inj' hfront hresidues
  exact ⟨hsecpar, congrArg ofBytes hmodulus, congrArg ofBytes hresidue,
    congrArg (fun field ↦ UInt64.ofNat (ofBytes field)) hepoch⟩

end Inputs

/-! ### Keys -/

/-- Key derivation is a stream with separated inputs: `det_randomize` writes the beginning of the
stream of its seed and index, so a shorter output is the beginning of a longer one; `FSPRG_GetKey`
takes a key from the stream of a state and an index; and an input that is hashed for a state, an
index and a block is hashed for no other parameter, modulus, residue, epoch, index or block. -/
theorem keyStream_separated (gcrypt : Gcrypt) :
    (∀ seed idx buflen, buflen ≤ 32 * 2 ^ 32 →
      detRandomize gcrypt buflen seed idx = (keyStream gcrypt seed idx).take buflen) ∧
    (∀ seed idx short long, short ≤ long → long ≤ 32 * 2 ^ 32 →
      detRandomize gcrypt short seed idx <+: detRandomize gcrypt long seed idx) ∧
    (∀ secpar n x epoch state key idx, StateHolds secpar n x epoch state →
      fsprgGetKey gcrypt state key idx =
        .ok (detRandomize gcrypt key.length (state.drop 2) idx)) ∧
    ∀ secpar n x epoch state idx ctr secpar' n' x' epoch' state' idx' ctr',
      StateHolds secpar n x epoch state → StateHolds secpar' n' x' epoch' state' →
      ctr < 2 ^ 32 → ctr' < 2 ^ 32 →
      hashInput (state.drop 2) idx ctr = hashInput (state'.drop 2) idx' ctr' →
      secpar = secpar' ∧ n = n' ∧ x = x' ∧ epoch = epoch' ∧ idx = idx' ∧ ctr = ctr' := by
  refine ⟨fun seed idx buflen ↦ detRandomize_eq_take seed idx,
    fun seed idx short long ↦ detRandomize_prefix seed idx,
    fun secpar n x epoch state key idx hstate ↦ hstate.fsprgGetKey_eq gcrypt key idx, ?_⟩
  intro secpar n x epoch state idx ctr secpar' n' x' epoch' state' idx' ctr' hstate hstate' hctr
    hctr' heq
  obtain ⟨hbody, hidx, hcounter⟩ := hashInput_inj hctr hctr' heq
  obtain ⟨hsecpar, hn, hx, hepoch⟩ := hstate.fields_eq hstate' hbody
  exact ⟨hsecpar, hn, hx, hepoch, hidx, hcounter⟩

theorem keyStream_separated_sample :
    detRandomize sampleGcrypt 5 (sampleSeed 1) rndGenP =
        (keyStream sampleGcrypt (sampleSeed 1) rndGenP).take 5 ∧
      fsprgGetKey sampleGcrypt (stateBytes 16 21 4 7) [0, 0] 1 =
        .ok (detRandomize sampleGcrypt 2 ((stateBytes 16 21 4 7).drop 2) 1) :=
  ⟨(keyStream_separated sampleGcrypt).1 (sampleSeed 1) rndGenP 5 (by norm_num),
    (keyStream_separated sampleGcrypt).2.2.1 16 21 4 7 (stateBytes 16 21 4 7) [0, 0] 1
      (stateHolds_stateBytes (by decide) (by norm_num) (by norm_num))⟩

end PythonSystemd.Fsprg
