import PythonSystemd.Fsprg.StateContents

/-!
# The layouts are exact codecs

For every valid parameter the calls of `FSPRG_GenMK`, `FSPRG_GenState0` and `FSPRG_Seek` tile their
buffers, what they store is read back, and a buffer is restored from what is read out of it
(`layoutsExact`). `FSPRG_Evolve` keeps all bytes outside the residue and the epoch.
-/

set_option autoImplicit false
set_option relaxedAutoImplicit false

namespace PythonSystemd.Fsprg

open Library.BigEndian Library.CheckedMemory Library.Tiling

/-! ### What is read -/

/-- What `FSPRG_Seek` reads of a secret master key. -/
structure ReadsMsk (secpar p q : ℕ) (msk : List UInt8) : Prop where
  secpar_eq : readSecpar msk 0 = .ok (UInt16.ofNat secpar)
  p_eq : mpiImport msk (2 + 0 * (secpar / 2) / 8) ((secpar / 2) / 8) = .ok p
  q_eq : mpiImport msk (2 + 1 * (secpar / 2) / 8) ((secpar / 2) / 8) = .ok q

/-- What `FSPRG_GenState0` reads of a public master key. -/
structure ReadsMpk (secpar n : ℕ) (mpk : List UInt8) : Prop where
  secpar_eq : readSecpar mpk 0 = .ok (UInt16.ofNat secpar)
  n_eq : mpiImport mpk 2 (secpar / 8) = .ok n

/-- What `FSPRG_Evolve` and `FSPRG_GetEpoch` read of a state. -/
structure ReadsState (secpar n x : ℕ) (epoch : UInt64) (state : List UInt8) : Prop where
  secpar_eq : readSecpar state 0 = .ok (UInt16.ofNat secpar)
  n_eq : mpiImport state (2 + 0 * secpar / 8) (secpar / 8) = .ok n
  x_eq : mpiImport state (2 + 1 * secpar / 8) (secpar / 8) = .ok x
  epoch_eq : uint64Import state (2 + 2 * secpar / 8) 8 = .ok epoch

variable {secpar : ℕ}

/-! ### The functions make their calls -/

theorem fsprgEvolve_eq_runWrites (h : IsValidSecpar secpar) {state : List UInt8} {n x : ℕ}
    {epoch : UInt64} (hreads : ReadsState secpar n x epoch state) (hpos : 0 < n) :
    fsprgEvolve state = runWrites state (evolveWrites secpar (x * x % n) (epoch + 1)) := by
  simp only [fsprgEvolve, hreads.secpar_eq, ok_bind, h.toNat_ofNat, hreads.n_eq, hreads.x_eq,
    hreads.epoch_eq, gcryMpiMulm_eq hpos, runWrites, evolveWrites, List.foldlM_cons,
    List.foldlM_nil, FieldWrite.run, bind_pure]

/-- The residue that `FSPRG_Seek` computes between reading the key and storing the state. -/
def seekResidue (gcrypt : Gcrypt) (p q : ℕ) (epoch : UInt64) (seed : List UInt8) (secpar : ℕ) :
    Checked ℕ := do
  let x ← gensquare gcrypt (p * q) seed rndGenX secpar
  let (xp, xq) ← crtDecompose x p q
  let kp ← twopowmodphi epoch p
  let kq ← twopowmodphi epoch q
  let xp ← gcryMpiPowm xp kp p
  let xq ← gcryMpiPowm xq kq q
  crtCompose xp xq p q

theorem fsprgSeek_eq_runWrites (h : IsValidSecpar secpar) (gcrypt : Gcrypt) (state : List UInt8)
    (epoch : UInt64) {msk : List UInt8} {p q : ℕ} (hreads : ReadsMsk secpar p q msk)
    (seed : List UInt8) :
    fsprgSeek gcrypt state epoch msk seed = (do
      let xm ← seekResidue gcrypt p q epoch seed secpar
      runWrites state (withHeader secpar (stateFields secpar (p * q) xm epoch))) := by
  simp only [fsprgSeek, hreads.secpar_eq, ok_bind, h.toNat_ofNat, hreads.p_eq, hreads.q_eq,
    seekResidue, bind_assoc, runWrites, withHeader, stateFields, List.foldlM_cons, List.foldlM_nil,
    FieldWrite.run, bind_pure]

theorem fsprgGenState0_eq_runWrites (h : IsValidSecpar secpar) (gcrypt : Gcrypt)
    (state : List UInt8) {mpk : List UInt8} (hmpk : fsprgMpkinbytes secpar = .ok mpk.length)
    {n : ℕ} (hreads : ReadsMpk secpar n mpk) (seed : List UInt8) :
    fsprgGenState0 gcrypt state mpk seed = (do
      let x ← gensquare gcrypt n seed rndGenX secpar
      runWrites state (state0Writes secpar mpk x)) := by
  have hcopy : readAt mpk 0 (2 + secpar / 8) = .ok mpk := by
    have hread := readAt_append [] mpk [] List.length_nil (h.length_mpk hmpk)
    rwa [List.nil_append, List.append_nil] at hread
  simp only [fsprgGenState0, hreads.secpar_eq, ok_bind, h.toNat_ofNat, hreads.n_eq, hcopy,
    runWrites, state0Writes, List.foldlM_cons, List.foldlM_nil, FieldWrite.run, bind_pure]

/-! ### Reading the fields back -/

section Reads

variable {header : List UInt8} (hheader : header.length = 2)
include hheader

theorem readsMsk_append {fieldP fieldQ : List UInt8}
    (hread : readSecpar (header ++ (fieldP ++ fieldQ)) 0 = .ok (UInt16.ofNat secpar))
    (hfieldP : fieldP.length = secpar / 16) (hfieldQ : fieldQ.length = secpar / 16) :
    ReadsMsk secpar (ofBytes fieldP) (ofBytes fieldQ) (header ++ (fieldP ++ fieldQ)) := by
  have hwidth : secpar / 2 / 8 = secpar / 16 := by omega
  have hoffsetP : header.length = 2 + 0 * (secpar / 2) / 8 := by omega
  have hoffsetQ : (header ++ fieldP).length = 2 + 1 * (secpar / 2) / 8 := by
    rw [List.length_append]
    omega
  have himportP := mpiImport_append header fieldP fieldQ hoffsetP (hwidth ▸ hfieldP)
  have himportQ := mpiImport_append (header ++ fieldP) fieldQ [] hoffsetQ (hwidth ▸ hfieldQ)
  rw [List.append_nil, List.append_assoc] at himportQ
  rw [List.append_assoc] at himportP
  exact ⟨hread, himportP, himportQ⟩

theorem readsMpk_append {fieldN : List UInt8}
    (hread : readSecpar (header ++ fieldN) 0 = .ok (UInt16.ofNat secpar))
    (hfieldN : fieldN.length = secpar / 8) :
    ReadsMpk secpar (ofBytes fieldN) (header ++ fieldN) := by
  have himport := mpiImport_append header fieldN [] hheader hfieldN
  rw [List.append_nil] at himport
  exact ⟨hread, himport⟩

omit hheader in
/-- What the offsets of a cut state find in it. -/
theorem CutState.readsState (h : IsValidSecpar secpar) (cut : CutState)
    (hsecpar : cut.secpar = UInt16.ofNat secpar) :
    ReadsState secpar cut.n cut.x cut.epoch cut.bytes := by
  have hwidth : cut.secpar.toNat = secpar := hsecpar ▸ h.toNat_ofNat
  have himportN := cut.mpiImport_bytes_n
  have himportX := cut.mpiImport_bytes_x
  have himportEpoch := cut.uint64Import_bytes
  rw [hwidth] at himportN himportX himportEpoch
  refine ⟨hsecpar ▸ cut.readSecpar_bytes, ?_, himportX, himportEpoch⟩
  rwa [Nat.zero_mul, Nat.zero_div, Nat.add_zero]

theorem readsState_append (h : IsValidSecpar secpar) {fieldN fieldX fieldEpoch : List UInt8}
    (hread : readSecpar (header ++ (fieldN ++ fieldX ++ fieldEpoch)) 0 =
      .ok (UInt16.ofNat secpar))
    (hfieldN : fieldN.length = secpar / 8) (hfieldX : fieldX.length = secpar / 8)
    (hfieldEpoch : fieldEpoch.length = 8) :
    ReadsState secpar (ofBytes fieldN) (ofBytes fieldX) (UInt64.ofNat (ofBytes fieldEpoch))
      (header ++ (fieldN ++ fieldX ++ fieldEpoch)) := by
  have hreads := CutState.readsState h
    (CutState.ofFields h hread hheader hfieldN hfieldX hfieldEpoch) rfl
  rwa [CutState.bytes_ofFields] at hreads

end Reads

/-! ### Headers -/

/-- The first two bytes denote the parameter, with no truncation. -/
def HasHeader (secpar : ℕ) (bytes : List UInt8) : Prop :=
  ∃ b0 b1 rest, bytes = b0 :: b1 :: rest ∧ 16 * (256 * b0.toNat + b1.toNat + 1) = secpar

/-- The two bytes of a 16-bit word that are joined from two bytes. -/
theorem secparBytes_of_joinBytes {b0 b1 : UInt8} {secpar : UInt16}
    (hsecpar : 16 * (256 * b0.toNat + b1.toNat + 1) = secpar.toNat) :
    secparBytes secpar = [b0, b1] := by
  have hb0 := b0.toNat_lt
  have hb1 := b1.toNat_lt
  have hlt := secpar.toNat_lt
  have hsixteen : (16 : UInt16).toNat = 16 := rfl
  have hmask : (0xff : UInt16).toNat = 2 ^ 8 - 1 := rfl
  have height : (8 : UInt16).toNat = 8 := rfl
  have hzero : (0 : UInt16).toNat = 0 := rfl
  have hword : (secpar / 16 - 1).toNat = 256 * b0.toNat + b1.toNat := by
    rw [UInt16.toNat_sub, UInt16.toNat_div, hsixteen, UInt16.toNat_one]
    omega
  have hhigh : ((secpar / 16 - 1) >>> 8 &&& 0xff).toUInt8 = b0 := by
    apply UInt8.toNat_inj.mp
    rw [UInt16.toNat_toUInt8, UInt16.toNat_and, UInt16.toNat_shiftRight, hword, hmask, height,
      Nat.and_two_pow_sub_one_eq_mod, Nat.shiftRight_eq_div_pow]
    norm_num
    omega
  have hlow : ((secpar / 16 - 1) >>> 0 &&& 0xff).toUInt8 = b1 := by
    apply UInt8.toNat_inj.mp
    rw [UInt16.toNat_toUInt8, UInt16.toNat_and, UInt16.toNat_shiftRight, hword, hmask, hzero,
      Nat.and_two_pow_sub_one_eq_mod, Nat.shiftRight_eq_div_pow]
    norm_num
  exact congrArg₂ (fun first second ↦ [first, second]) hhigh hlow

/-- The headers that denote the parameter are those that `store_secpar` stores. -/
theorem hasHeader_iff (h : IsValidSecpar secpar) (bytes : List UInt8) :
    HasHeader secpar bytes ↔ ∃ rest, bytes = secparBytes (UInt16.ofNat secpar) ++ rest := by
  constructor
  · rintro ⟨b0, b1, rest, rfl, hdenotes⟩
    refine ⟨rest, ?_⟩
    rw [secparBytes_of_joinBytes (hdenotes.trans h.toNat_ofNat.symm)]
    rfl
  · rintro ⟨rest, rfl⟩
    have hmod := h.1
    have hlow := h.2.1
    have hhigh := h.2.2
    let b0 := UInt8.ofNat ((secpar / 16 - 1) / 256)
    let b1 := UInt8.ofNat ((secpar / 16 - 1) % 256)
    have hb0Value : b0.toNat = (secpar / 16 - 1) / 256 :=
      UInt8.toNat_ofNat_of_lt' (by norm_num; omega)
    have hb1Value : b1.toNat = (secpar / 16 - 1) % 256 :=
      UInt8.toNat_ofNat_of_lt' (by norm_num; omega)
    have hdenotes : 16 * (256 * b0.toNat + b1.toNat + 1) = secpar := by omega
    refine ⟨b0, b1, rest, ?_, hdenotes⟩
    rw [secparBytes_of_joinBytes (hdenotes.trans h.toNat_ofNat.symm)]
    rfl

theorem readSecpar_of_hasHeader (h : IsValidSecpar secpar) {bytes : List UInt8}
    (hheader : HasHeader secpar bytes) : readSecpar bytes 0 = .ok (UInt16.ofNat secpar) := by
  obtain ⟨rest, rfl⟩ := (hasHeader_iff h bytes).mp hheader
  exact readSecpar_secparBytes h rest

/-! ### The codecs -/

/-- Each call is one store, the stores tile a buffer of this size, and they leave the same bytes
in every such buffer, out of which `Reads` reads. -/
def Fills (inbytes : Checked ℕ) (writes : List FieldWrite) (Reads : List UInt8 → Prop) : Prop :=
  (∀ write ∈ writes, ∀ memory,
      write.run memory = writeAt memory write.block.offset write.block.cells) ∧
    ∃ size, inbytes = .ok size ∧ Tiles (writes.map FieldWrite.block) size ∧
      ∃ bytes : List UInt8, bytes.length = size ∧ Reads bytes ∧
        ∀ buffer : List UInt8, buffer.length = size → runWrites buffer writes = .ok bytes

/-- Storing the fields again gives the buffer back: in place whatever header was read, and in any
other buffer with the header stored as well. A header that is read as the parameter only because
`read_secpar` truncates is stored as the one that denotes it. -/
structure Restores (secpar : ℕ) (fields : List FieldWrite) (bytes : List UInt8) : Prop where
  in_place : runWrites bytes fields = .ok bytes
  with_header : HasHeader secpar bytes → ∀ buffer : List UInt8, buffer.length = bytes.length →
    runWrites buffer (withHeader secpar fields) = .ok bytes
  header_stored : ∀ buffer : List UInt8, buffer.length = bytes.length →
    runWrites buffer (withHeader secpar fields) =
      .ok (secparBytes (UInt16.ofNat secpar) ++ bytes.drop 2)

/-- The layouts of the keys and of the states for one parameter. -/
structure LayoutsExact (secpar : ℕ) : Prop where
  msk_calls : ∀ msk p q, storeMsk msk (UInt16.ofNat secpar) p q =
    runWrites msk (withHeader secpar (mskFields secpar p q))
  mpk_calls : ∀ mpk p q, gcryMpiGetNbits (p * q) = secpar →
    storeMpk mpk (UInt16.ofNat secpar) p q =
      runWrites mpk (withHeader secpar (mpkFields secpar (p * q)))
  state0_calls : ∀ gcrypt state mpk seed n, fsprgMpkinbytes secpar = .ok mpk.length →
    ReadsMpk secpar n mpk → fsprgGenState0 gcrypt state mpk seed = (do
      let x ← gensquare gcrypt n seed rndGenX secpar
      runWrites state (state0Writes secpar mpk x))
  seek_calls : ∀ gcrypt state epoch msk seed p q, ReadsMsk secpar p q msk →
    fsprgSeek gcrypt state epoch msk seed = (do
      let xm ← seekResidue gcrypt p q epoch seed secpar
      runWrites state (withHeader secpar (stateFields secpar (p * q) xm epoch)))
  evolve_calls : ∀ state n x epoch, ReadsState secpar n x epoch state → 0 < n →
    fsprgEvolve state = runWrites state (evolveWrites secpar (x * x % n) (epoch + 1))
  get_epoch_eq : ∀ state n x epoch, ReadsState secpar n x epoch state →
    fsprgGetEpoch state = .ok epoch
  msk_fills : ∀ p < 2 ^ (secpar / 2), ∀ q < 2 ^ (secpar / 2),
    Fills (fsprgMskinbytes secpar) (withHeader secpar (mskFields secpar p q))
      (ReadsMsk secpar p q)
  mpk_fills : ∀ n < 2 ^ secpar,
    Fills (fsprgMpkinbytes secpar) (withHeader secpar (mpkFields secpar n)) (ReadsMpk secpar n)
  state0_fills : ∀ n x, x < 2 ^ secpar → ∀ mpk, fsprgMpkinbytes secpar = .ok mpk.length →
    ReadsMpk secpar n mpk →
    Fills (fsprgStateinbytes secpar) (state0Writes secpar mpk x) (ReadsState secpar n x 0)
  state_fills : ∀ n < 2 ^ secpar, ∀ x < 2 ^ secpar, ∀ epoch,
    Fills (fsprgStateinbytes secpar) (withHeader secpar (stateFields secpar n x epoch))
      (ReadsState secpar n x epoch)
  header_iff : ∀ bytes, HasHeader secpar bytes ↔
    ∃ rest, bytes = secparBytes (UInt16.ofNat secpar) ++ rest
  header_reads : ∀ bytes, HasHeader secpar bytes →
    readSecpar bytes 0 = .ok (UInt16.ofNat secpar)
  msk_restored : ∀ msk, fsprgMskinbytes secpar = .ok msk.length →
    readSecpar msk 0 = .ok (UInt16.ofNat secpar) →
    ∃ p < 2 ^ (secpar / 2), ∃ q < 2 ^ (secpar / 2), ReadsMsk secpar p q msk ∧
      Restores secpar (mskFields secpar p q) msk
  mpk_restored : ∀ mpk, fsprgMpkinbytes secpar = .ok mpk.length →
    readSecpar mpk 0 = .ok (UInt16.ofNat secpar) →
    ∃ n < 2 ^ secpar, ReadsMpk secpar n mpk ∧ Restores secpar (mpkFields secpar n) mpk
  state_restored : ∀ state, fsprgStateinbytes secpar = .ok state.length →
    readSecpar state 0 = .ok (UInt16.ofNat secpar) →
    ∃ n < 2 ^ secpar, ∃ x < 2 ^ secpar, ∃ epoch, ReadsState secpar n x epoch state ∧
      Restores secpar (stateFields secpar n x epoch) state
  evolve_keeps : ∀ state next, readSecpar state 0 = .ok (UInt16.ofNat secpar) →
    fsprgEvolve state = .ok next → next.length = state.length ∧
      ∀ index, index < 2 + 1 * secpar / 8 ∨ 2 + 2 * secpar / 8 + 8 ≤ index →
        next[index]? = state[index]?

namespace Stores

variable {fields : List FieldWrite} {body : List UInt8}

/-- Calls that store the fields behind the header fill the buffer. -/
theorem fills (hstores : Stores fields body) {inbytes : Checked ℕ}
    {Reads : List UInt8 → Prop} (hinbytes : inbytes = .ok (2 + body.length))
    (hreads : Reads (secparBytes (UInt16.ofNat secpar) ++ body)) :
    Fills inbytes (withHeader secpar fields) Reads := by
  refine ⟨fun write hwrite memory ↦ FieldWrite.run_eq (hstores.fits_withHeader write hwrite) memory,
    2 + body.length, hinbytes, hstores.consecutive_withHeader.tiles,
    secparBytes (UInt16.ofNat secpar) ++ body, ?_, hreads, fun buffer hbuffer ↦ ?_⟩
  · rw [List.length_append, length_secparBytes]
  · exact hstores.runWrites_withHeader hbuffer

/-- Calls that store what is behind the header restore the buffer. -/
theorem restores (hstores : Stores fields body) (h : IsValidSecpar secpar) {header : List UInt8}
    (hheader : header.length = 2) : Restores secpar fields (header ++ body) := by
  have hlength : (header ++ body).length = 2 + body.length := by
    rw [List.length_append, hheader]
  refine ⟨hstores.runWrites_append hheader rfl, fun hdenotes buffer hbuffer ↦ ?_,
    fun buffer hbuffer ↦ ?_⟩
  · obtain ⟨rest, hrest⟩ := (hasHeader_iff h _).mp hdenotes
    obtain ⟨rfl, rfl⟩ := List.append_inj hrest (hheader.trans (length_secparBytes _).symm)
    exact hstores.runWrites_withHeader (hbuffer.trans hlength)
  · rw [← hheader, List.drop_left]
    exact hstores.runWrites_withHeader (hbuffer.trans hlength)

end Stores

section Exact

variable (h : IsValidSecpar secpar)
include h

theorem fills_msk {p q : ℕ} (hp : p < 2 ^ (secpar / 2)) (hq : q < 2 ^ (secpar / 2)) :
    Fills (fsprgMskinbytes secpar) (withHeader secpar (mskFields secpar p q))
      (ReadsMsk secpar p q) := by
  have hstores : Stores (mskFields secpar p q) _ :=
    stores_msk (h.pow_half_field ▸ hp) (h.pow_half_field ▸ hq)
  refine hstores.fills ?_ ?_
  · rw [fsprgMskinbytes_eq h, List.length_append, length_toBytes, length_toBytes, Nat.add_assoc]
  · rw [← List.append_assoc]
    exact ⟨readSecpar_mskBytes h p q, mpiImport_mskBytes_p h q hp, mpiImport_mskBytes_q h p hq⟩

theorem fills_mpk {n : ℕ} (hn : n < 2 ^ secpar) :
    Fills (fsprgMpkinbytes secpar) (withHeader secpar (mpkFields secpar n))
      (ReadsMpk secpar n) := by
  have hstores : Stores (mpkFields secpar n) _ := stores_mpk (h.pow_field ▸ hn)
  refine hstores.fills ?_ ⟨readSecpar_mpkBytes h n, mpiImport_mpkBytes h hn⟩
  rw [fsprgMpkinbytes_eq h, length_toBytes]

theorem fills_state {n x : ℕ} (hn : n < 2 ^ secpar) (hx : x < 2 ^ secpar) (epoch : UInt64) :
    Fills (fsprgStateinbytes secpar) (withHeader secpar (stateFields secpar n x epoch))
      (ReadsState secpar n x epoch) := by
  have hstores : Stores (stateFields secpar n x epoch) _ :=
    stores_state h.1 (h.pow_field ▸ hn) (h.pow_field ▸ hx) epoch
  have hreads := readsState_append (length_secparBytes (UInt16.ofNat secpar)) h
    (readSecpar_secparBytes h _) (length_toBytes (secpar / 8) n) (length_toBytes (secpar / 8) x)
    (length_toBytes 8 epoch.toNat)
  rw [ofBytes_toBytes (h.pow_field ▸ hn), ofBytes_toBytes (h.pow_field ▸ hx),
    ofNat_ofBytes_toBytes] at hreads
  refine hstores.fills ?_ hreads
  simp only [fsprgStateinbytes_eq h, List.length_append, length_toBytes, Nat.add_assoc]

/-- `FSPRG_GenState0` fills the buffer with the copy, the residue and the zeros. -/
theorem fills_state0 {n x : ℕ} (hx : x < 2 ^ secpar) {mpk : List UInt8}
    (hmpk : fsprgMpkinbytes secpar = .ok mpk.length) (hreads : ReadsMpk secpar n mpk) :
    Fills (fsprgStateinbytes secpar) (state0Writes secpar mpk x) (ReadsState secpar n x 0) := by
  have hmod := h.1
  have hlength := h.length_mpk hmpk
  obtain ⟨header, fieldN, rfl, hheader⟩ := exists_front mpk 2 (by omega)
  have hfieldN : fieldN.length = secpar / 8 := by
    rw [List.length_append] at hlength
    omega
  have hn : ofBytes fieldN = n := by
    have himport := (readsMpk_append hheader hreads.secpar_eq hfieldN).n_eq
    exact Except.ok.inj (himport.symm.trans hreads.n_eq)
  have hlengthX := length_toBytes (secpar / 8) x
  have hzeros : (List.replicate 8 (0 : UInt8)).length = 8 := List.length_replicate
  have hstate := readsState_append hheader h
    (readSecpar_of_header hheader hreads.secpar_eq _) hfieldN hlengthX hzeros
  rw [hn, ofBytes_toBytes (h.pow_field ▸ hx), ofBytes_replicate_zero] at hstate
  have hsquare : x < 256 ^ (secpar / 8) := h.pow_field ▸ hx
  have hfits := fits_state0Writes (header ++ fieldN) hsquare
  refine ⟨fun write hwrite memory ↦ FieldWrite.run_eq (hfits write hwrite) memory, _,
    fsprgStateinbytes_eq h, (consecutive_state0Writes hlength h.1 x).tiles, _, ?_, hstate,
    fun buffer hbuffer ↦ ?_⟩
  · simp only [List.length_append, hheader, hfieldN, hlengthX, hzeros, Nat.add_assoc]
  · rw [runWrites_state0Writes hlength h.1 hsquare hbuffer, List.append_assoc, List.append_assoc,
      List.append_assoc]

/-! ### Buffers restored from their fields -/

theorem restores_msk {msk : List UInt8} (hmsk : fsprgMskinbytes secpar = .ok msk.length)
    (hread : readSecpar msk 0 = .ok (UInt16.ofNat secpar)) :
    ∃ p < 2 ^ (secpar / 2), ∃ q < 2 ^ (secpar / 2), ReadsMsk secpar p q msk ∧
      Restores secpar (mskFields secpar p q) msk := by
  have hlength := h.length_msk hmsk
  obtain ⟨header, fieldP, fieldQ, rfl, hheader, hfieldP⟩ :=
    exists_fields msk 2 (secpar / 16) (by omega)
  have hfieldQ : fieldQ.length = secpar / 16 := by
    simp only [List.length_append] at hlength
    omega
  rw [List.append_assoc] at hread ⊢
  have hstores : Stores (mskFields secpar (ofBytes fieldP) (ofBytes fieldQ)) _ :=
    stores_msk (hfieldP ▸ ofBytes_lt fieldP) (hfieldQ ▸ ofBytes_lt fieldQ)
  rw [toBytes_ofBytes_of_length hfieldP, toBytes_ofBytes_of_length hfieldQ] at hstores
  refine ⟨ofBytes fieldP, ?_, ofBytes fieldQ, ?_, readsMsk_append hheader hread hfieldP hfieldQ,
    hstores.restores h hheader⟩
  · rw [← h.pow_half_field, ← hfieldP]
    exact ofBytes_lt fieldP
  · rw [← h.pow_half_field, ← hfieldQ]
    exact ofBytes_lt fieldQ

theorem restores_mpk {mpk : List UInt8} (hmpk : fsprgMpkinbytes secpar = .ok mpk.length)
    (hread : readSecpar mpk 0 = .ok (UInt16.ofNat secpar)) :
    ∃ n < 2 ^ secpar, ReadsMpk secpar n mpk ∧ Restores secpar (mpkFields secpar n) mpk := by
  have hlength := h.length_mpk hmpk
  obtain ⟨header, fieldN, rfl, hheader⟩ := exists_front mpk 2 (by omega)
  have hfieldN : fieldN.length = secpar / 8 := by
    rw [List.length_append] at hlength
    omega
  have hstores : Stores (mpkFields secpar (ofBytes fieldN)) _ :=
    stores_mpk (hfieldN ▸ ofBytes_lt fieldN)
  rw [toBytes_ofBytes_of_length hfieldN] at hstores
  refine ⟨ofBytes fieldN, ?_, readsMpk_append hheader hread hfieldN, hstores.restores h hheader⟩
  rw [← h.pow_field, ← hfieldN]
  exact ofBytes_lt fieldN

theorem restores_state {state : List UInt8} (hstate : fsprgStateinbytes secpar = .ok state.length)
    (hread : readSecpar state 0 = .ok (UInt16.ofNat secpar)) :
    ∃ n < 2 ^ secpar, ∃ x < 2 ^ secpar, ∃ epoch, ReadsState secpar n x epoch state ∧
      Restores secpar (stateFields secpar n x epoch) state := by
  obtain ⟨cut, rfl, hrest, hsecpar⟩ := exists_cutState_of_readSecpar h (h.length_state hstate) hread
  have hwidth : cut.secpar.toNat = secpar := hsecpar ▸ h.toNat_ofNat
  have hn : cut.n < 256 ^ (secpar / 8) := hwidth ▸ cut.n_lt
  have hx : cut.x < 256 ^ (secpar / 8) := hwidth ▸ cut.x_lt
  have hfieldN := cut.toBytes_n
  have hfieldX := cut.toBytes_x
  rw [hwidth] at hfieldN hfieldX
  have hstores : Stores (stateFields secpar cut.n cut.x cut.epoch) _ :=
    stores_state h.1 hn hx cut.epoch
  rw [hfieldN, hfieldX, cut.toBytes_epoch] at hstores
  have hbytes : cut.bytes = cut.header ++ (cut.fieldN ++ cut.fieldX ++ cut.fieldEpoch) := by
    simp only [CutState.bytes, hrest, List.append_nil, List.append_assoc]
  refine ⟨cut.n, h.pow_field ▸ hn, cut.x, h.pow_field ▸ hx, cut.epoch, cut.readsState h hsecpar, ?_⟩
  rw [hbytes]
  exact hstores.restores h cut.length_header

/-! ### Evolving a state -/

/-- `FSPRG_Evolve` returns only when it has read all fields and the modulus is not zero. -/
theorem exists_readsState {state next : List UInt8}
    (hread : readSecpar state 0 = .ok (UInt16.ofNat secpar))
    (hrun : fsprgEvolve state = .ok next) :
    ∃ n x epoch, 0 < n ∧ ReadsState secpar n x epoch state := by
  simp only [fsprgEvolve, hread, ok_bind, h.toNat_ofNat] at hrun
  obtain ⟨n, hn, hrun⟩ := returned_bind.mp hrun
  obtain ⟨x, hx, hrun⟩ := returned_bind.mp hrun
  obtain ⟨epoch, hepoch, hrun⟩ := returned_bind.mp hrun
  refine ⟨n, x, epoch, Nat.pos_of_ne_zero ?_, hread, hn, hx, hepoch⟩
  rintro rfl
  cases hrun

theorem getElem?_of_fsprgEvolve {state next : List UInt8}
    (hread : readSecpar state 0 = .ok (UInt16.ofNat secpar))
    (hrun : fsprgEvolve state = .ok next) :
    next.length = state.length ∧
      ∀ index, index < 2 + 1 * secpar / 8 ∨ 2 + 2 * secpar / 8 + 8 ≤ index →
        next[index]? = state[index]? := by
  have hmod := h.1
  obtain ⟨n, x, epoch, hpos, hreads⟩ := exists_readsState h hread hrun
  have hsquare : x * x % n < 256 ^ (secpar / 8) :=
    (Nat.mod_lt _ hpos).trans (mpiImport_lt hreads.n_eq)
  have hfits : ∀ write ∈ evolveWrites secpar (x * x % n) (epoch + 1), write.Fits := by
    simp only [evolveWrites, List.forall_mem_cons, FieldWrite.Fits]
    exact ⟨hsquare, trivial, List.forall_mem_nil _⟩
  rw [fsprgEvolve_eq_runWrites h hreads hpos, runWrites_eq_storeAll hfits] at hrun
  refine ⟨length_of_storeAll hrun, fun index hindex ↦ getElem?_of_storeAll hrun ?_⟩
  simp only [evolveWrites, List.map_cons, List.map_nil, List.forall_mem_cons, FieldWrite.block,
    Block.Covers, length_toBytes]
  refine ⟨by omega, by omega, List.forall_mem_nil _⟩

end Exact

/-- The key and state layouts are exact codecs for every valid parameter. -/
theorem layoutsExact (h : IsValidSecpar secpar) : LayoutsExact secpar where
  msk_calls := storeMsk_eq_runWrites h
  mpk_calls mpk _ _ hsize := storeMpk_eq_runWrites h mpk hsize
  state0_calls gcrypt state _ seed _ hmpk hreads :=
    fsprgGenState0_eq_runWrites h gcrypt state hmpk hreads seed
  seek_calls gcrypt state epoch _ seed _ _ hreads :=
    fsprgSeek_eq_runWrites h gcrypt state epoch hreads seed
  evolve_calls _ _ _ _ hreads hpos := fsprgEvolve_eq_runWrites h hreads hpos
  get_epoch_eq _ _ _ _ hreads := by
    rw [fsprgGetEpoch, hreads.secpar_eq, ok_bind, h.toNat_ofNat, hreads.epoch_eq]
  msk_fills _ hp _ hq := fills_msk h hp hq
  mpk_fills _ hn := fills_mpk h hn
  state0_fills _ _ hx _ hmpk hreads := fills_state0 h hx hmpk hreads
  state_fills _ hn _ hx epoch := fills_state h hn hx epoch
  header_iff := hasHeader_iff h
  header_reads _ hheader := readSecpar_of_hasHeader h hheader
  msk_restored _ hmsk hread := restores_msk h hmsk hread
  mpk_restored _ hmpk hread := restores_mpk h hmpk hread
  state_restored _ hstate hread := restores_state h hstate hread
  evolve_keeps _ _ hread hrun := getElem?_of_fsprgEvolve h hread hrun

/-- The layouts for the recommended parameter. -/
theorem layoutsExact_recommended : LayoutsExact fsprgRecommendedSecpar :=
  layoutsExact (by decide)

end PythonSystemd.Fsprg
