import PythonSystemd.Fsprg.CutState
import PythonSystemd.Library.Tiling

/-!
# Writing the fields of a buffer

The functions of `fsprg.c` write the master keys and the states field by field, at offsets that each
of them computes on its own. Every call is one checked store of a fixed width (`FieldWrite.run_eq`),
so what a function writes is a list of blocks, and its offsets are right when the blocks are
consecutive. `Stores` says so for the calls behind a header; `stores_msk`, `stores_mpk` and
`stores_state` are the lists of `FSPRG_GenMK` and `FSPRG_Seek`, and `runWrites_state0Writes` the one
of `FSPRG_GenState0`.
-/

set_option autoImplicit false
set_option relaxedAutoImplicit false

namespace PythonSystemd.Fsprg

open Library.BigEndian Library.CheckedMemory Library.Tiling

/-! ### The calls that write a field -/

/-- A call of `store_secpar`, `mpi_export` or `uint64_export`, or a `memcpy` or `memzero` of given
bytes. -/
inductive FieldWrite
  | secpar (offset : ℕ) (value : UInt16)
  | mpi (offset buflen x : ℕ)
  | uint64 (offset buflen : ℕ) (x : UInt64)
  | bytes (offset : ℕ) (data : List UInt8)

namespace FieldWrite

def run (memory : List UInt8) : FieldWrite → Checked (List UInt8)
  | secpar offset value => storeSecpar memory offset value
  | mpi offset buflen x => mpiExport memory offset buflen x
  | uint64 offset buflen x => uint64Export memory offset buflen x
  | bytes offset data => writeAt memory offset data

/-- The assertions of the call hold. -/
def Fits : FieldWrite → Prop
  | secpar _ _ => True
  | mpi _ buflen x => x < 256 ^ buflen
  | uint64 _ buflen _ => buflen = 8
  | bytes _ _ => True

/-- The bytes that the call leaves in its field. -/
def block : FieldWrite → Block UInt8
  | secpar offset value => ⟨offset, secparBytes value⟩
  | mpi offset buflen x => ⟨offset, toBytes buflen x⟩
  | uint64 offset buflen x => ⟨offset, toBytes buflen x.toNat⟩
  | bytes offset data => ⟨offset, data⟩

end FieldWrite

/-- The calls one after the other. -/
def runWrites (memory : List UInt8) (writes : List FieldWrite) : Checked (List UInt8) :=
  writes.foldlM FieldWrite.run memory

/-- `mpi_export` clears the field and prints the digits at its end, which is one store of the
padded number. -/
theorem mpiExport_eq_writeAt (memory : List UInt8) (offset : ℕ) {buflen x : ℕ}
    (hx : x < 256 ^ buflen) :
    mpiExport memory offset buflen x = writeAt memory offset (toBytes buflen x) := by
  by_cases hroom : offset + buflen ≤ memory.length
  · obtain ⟨before, field, after, rfl, hoffset, hlength⟩ := exists_fields memory offset buflen hroom
    rw [mpiExport_append _ _ _ hoffset hlength hx,
      writeAt_append _ _ _ _ hoffset (hlength.trans (length_toBytes _ _).symm)]
  · have hlen : (gcryMpiGetNbits x + 7) / 8 ≤ buflen := byteLength_le_iff.mpr hx
    have hzero : writeAt memory offset (List.replicate buflen 0) = .error .outOfBounds := by
      unfold writeAt
      rw [List.length_replicate, if_neg hroom]
    have hbytes : writeAt memory offset (toBytes buflen x) = .error .outOfBounds := by
      unfold writeAt
      rw [length_toBytes, if_neg hroom]
    rw [mpiExport, assert_of (Nat.zero_le x), ok_bind]
    simp only [assert_of hlen, ok_bind, hzero, error_bind, hbytes]

theorem uint64Export_eq_writeAt (memory : List UInt8) (offset : ℕ) (x : UInt64) :
    uint64Export memory offset 8 x = writeAt memory offset (toBytes 8 x.toNat) := by
  rw [uint64Export, assert_of rfl, ok_bind, uint64Bytes_eq_toBytes]

/-- A call whose assertions hold stores its block and nothing else. -/
theorem FieldWrite.run_eq {write : FieldWrite} (hfits : write.Fits) (memory : List UInt8) :
    write.run memory = writeAt memory write.block.offset write.block.cells := by
  cases write with
  | secpar offset value => rfl
  | mpi offset buflen x => exact mpiExport_eq_writeAt memory offset hfits
  | uint64 offset buflen x =>
    obtain rfl : buflen = 8 := hfits
    exact uint64Export_eq_writeAt memory offset x
  | bytes offset data => rfl

theorem runWrites_eq_storeAll {writes : List FieldWrite} (hfits : ∀ write ∈ writes, write.Fits)
    (memory : List UInt8) :
    runWrites memory writes = storeAll memory (writes.map FieldWrite.block) := by
  induction writes generalizing memory with
  | nil => rfl
  | cons write writes ih =>
    rw [List.map_cons, storeAll_cons, ← FieldWrite.run_eq (hfits write List.mem_cons_self)]
    have hrest : ∀ other ∈ writes, other.Fits :=
      fun other hother ↦ hfits other (List.mem_cons_of_mem _ hother)
    exact bind_congr fun next ↦ ih hrest next

/-! ### The calls of each function -/

section Calls

variable (secpar : ℕ)

/-- The fields that `FSPRG_GenMK` exports behind the header of `msk`. -/
def mskFields (p q : ℕ) : List FieldWrite :=
  [.mpi (2 + 0 * (secpar / 2) / 8) ((secpar / 2) / 8) p,
    .mpi (2 + 1 * (secpar / 2) / 8) ((secpar / 2) / 8) q]

/-- The field that `FSPRG_GenMK` exports behind the header of `mpk`. -/
def mpkFields (n : ℕ) : List FieldWrite :=
  [.mpi 2 (secpar / 8) n]

/-- The fields that `FSPRG_Seek` exports behind the header. -/
def stateFields (n x : ℕ) (epoch : UInt64) : List FieldWrite :=
  [.mpi (2 + 0 * secpar / 8) (secpar / 8) n, .mpi (2 + 1 * secpar / 8) (secpar / 8) x,
    .uint64 (2 + 2 * secpar / 8) 8 epoch]

/-- The fields behind a header. -/
def withHeader (fields : List FieldWrite) : List FieldWrite :=
  .secpar 0 (UInt16.ofNat secpar) :: fields

/-- The calls of `FSPRG_GenState0`, which copies the header and the modulus. -/
def state0Writes (mpk : List UInt8) (x : ℕ) : List FieldWrite :=
  [.bytes 0 mpk, .mpi (2 + 1 * secpar / 8) (secpar / 8) x,
    .bytes (2 + 2 * secpar / 8) (List.replicate 8 0)]

/-- The calls of `FSPRG_Evolve`. -/
def evolveWrites (x : ℕ) (epoch : UInt64) : List FieldWrite :=
  [.mpi (2 + 1 * secpar / 8) (secpar / 8) x, .uint64 (2 + 2 * secpar / 8) 8 epoch]

end Calls

variable {secpar : ℕ}

/-! ### Fields behind a header -/

/-- The calls store these bytes behind the header, each once. -/
structure Stores (fields : List FieldWrite) (body : List UInt8) : Prop where
  fits : ∀ write ∈ fields, write.Fits
  consecutive : Consecutive 2 (fields.map FieldWrite.block) (2 + body.length)
  cells_eq : (fields.map FieldWrite.block).flatMap Block.cells = body

namespace Stores

variable {fields : List FieldWrite} {body : List UInt8}

theorem fits_withHeader (hstores : Stores fields body) :
    ∀ write ∈ withHeader secpar fields, write.Fits :=
  List.forall_mem_cons.mpr ⟨trivial, hstores.fits⟩

theorem consecutive_withHeader (hstores : Stores fields body) :
    Consecutive 0 ((withHeader secpar fields).map FieldWrite.block) (2 + body.length) :=
  ⟨rfl, hstores.consecutive⟩

/-- Whatever was behind a header, the calls replace it. -/
theorem runWrites_append (hstores : Stores fields body) {header old : List UInt8}
    (hheader : header.length = 2) (hold : old.length = body.length) :
    runWrites (header ++ old) fields = .ok (header ++ body) := by
  have hspan : Consecutive header.length (fields.map FieldWrite.block)
      (header.length + old.length) := by
    rw [hheader, hold]
    exact hstores.consecutive
  have hstore := hspan.storeAll_append []
  rw [List.append_nil, List.append_nil, hstores.cells_eq] at hstore
  rw [runWrites_eq_storeAll hstores.fits, hstore]

/-- With the header, whatever was in the buffer. -/
theorem runWrites_withHeader (hstores : Stores fields body) {buffer : List UInt8}
    (hbuffer : buffer.length = 2 + body.length) :
    runWrites buffer (withHeader secpar fields) =
      .ok (secparBytes (UInt16.ofNat secpar) ++ body) := by
  obtain ⟨header, old, rfl, hheader⟩ := exists_front buffer 2 (by omega)
  have hold : old.length = body.length := by
    rw [List.length_append] at hbuffer
    omega
  have hsecpar := storeSecpar_append [] header old List.length_nil hheader (UInt16.ofNat secpar)
  rw [List.nil_append, List.nil_append] at hsecpar
  rw [runWrites, withHeader, List.foldlM_cons, FieldWrite.run, hsecpar, ok_bind]
  exact hstores.runWrites_append (length_secparBytes _) hold

end Stores

theorem stores_msk {p q : ℕ} (hp : p < 256 ^ (secpar / 16)) (hq : q < 256 ^ (secpar / 16)) :
    Stores (mskFields secpar p q) (toBytes (secpar / 16) p ++ toBytes (secpar / 16) q) := by
  have hwidth : secpar / 2 / 8 = secpar / 16 := by omega
  refine ⟨?_, ?_, ?_⟩
  · simp only [mskFields, hwidth, List.forall_mem_cons, FieldWrite.Fits]
    exact ⟨hp, hq, List.forall_mem_nil _⟩
  · simp only [mskFields, hwidth, List.map_cons, List.map_nil, FieldWrite.block, Consecutive,
      length_toBytes, List.length_append]
    omega
  · simp only [mskFields, hwidth, List.map_cons, List.map_nil, FieldWrite.block,
      List.flatMap_cons, List.flatMap_nil, List.append_nil]

theorem stores_mpk {n : ℕ} (hn : n < 256 ^ (secpar / 8)) :
    Stores (mpkFields secpar n) (toBytes (secpar / 8) n) := by
  refine ⟨?_, ?_, ?_⟩
  · simp only [mpkFields, List.forall_mem_cons, FieldWrite.Fits]
    exact ⟨hn, List.forall_mem_nil _⟩
  · simp only [mpkFields, List.map_cons, List.map_nil, FieldWrite.block, Consecutive,
      length_toBytes, and_self]
  · simp only [mpkFields, List.map_cons, List.map_nil, FieldWrite.block, List.flatMap_cons,
      List.flatMap_nil, List.append_nil]

theorem stores_state (hmod : secpar % 16 = 0) {n x : ℕ} (hn : n < 256 ^ (secpar / 8))
    (hx : x < 256 ^ (secpar / 8)) (epoch : UInt64) :
    Stores (stateFields secpar n x epoch)
      (toBytes (secpar / 8) n ++ toBytes (secpar / 8) x ++ toBytes 8 epoch.toNat) := by
  refine ⟨?_, ?_, ?_⟩
  · simp only [stateFields, List.forall_mem_cons, FieldWrite.Fits]
    exact ⟨hn, hx, trivial, List.forall_mem_nil _⟩
  · simp only [stateFields, List.map_cons, List.map_nil, FieldWrite.block, Consecutive,
      length_toBytes, List.length_append]
    omega
  · simp only [stateFields, List.map_cons, List.map_nil, FieldWrite.block, List.flatMap_cons,
      List.flatMap_nil, List.append_nil, List.append_assoc]

/-! ### The first state -/

section State0

variable {mpk : List UInt8} (hmpk : mpk.length = 2 + secpar / 8) {x : ℕ}

theorem fits_state0Writes (mpk : List UInt8) (hx : x < 256 ^ (secpar / 8)) :
    ∀ write ∈ state0Writes secpar mpk x, write.Fits := by
  simp only [state0Writes, List.forall_mem_cons, FieldWrite.Fits]
  exact ⟨trivial, hx, trivial, List.forall_mem_nil _⟩

include hmpk in
theorem consecutive_state0Writes (hmod : secpar % 16 = 0) (x : ℕ) :
    Consecutive 0 ((state0Writes secpar mpk x).map FieldWrite.block)
      (2 + secpar / 8 + secpar / 8 + 8) := by
  simp only [state0Writes, List.map_cons, List.map_nil, FieldWrite.block, Consecutive,
    length_toBytes, hmpk, List.length_replicate, true_and]
  omega

include hmpk in
/-- A copy of the public key, the residue and an epoch of zeros fill the buffer. -/
theorem runWrites_state0Writes (hmod : secpar % 16 = 0) (hx : x < 256 ^ (secpar / 8))
    {state : List UInt8} (hstate : state.length = 2 + secpar / 8 + secpar / 8 + 8) :
    runWrites state (state0Writes secpar mpk x) =
      .ok (mpk ++ toBytes (secpar / 8) x ++ List.replicate 8 0) := by
  have hspan : Consecutive ([] : List UInt8).length
      ((state0Writes secpar mpk x).map FieldWrite.block)
      (([] : List UInt8).length + state.length) := by
    rw [List.length_nil, Nat.zero_add, hstate]
    exact consecutive_state0Writes hmpk hmod x
  have hcells : ((state0Writes secpar mpk x).map FieldWrite.block).flatMap Block.cells =
      mpk ++ toBytes (secpar / 8) x ++ List.replicate 8 0 := by
    simp only [state0Writes, List.map_cons, List.map_nil, FieldWrite.block, List.flatMap_cons,
      List.flatMap_nil, List.append_nil, List.append_assoc]
  have hstore := hspan.storeAll_append []
  rw [List.nil_append, List.nil_append, List.append_nil, List.append_nil, hcells] at hstore
  rw [runWrites_eq_storeAll (fits_state0Writes mpk hx), hstore]

end State0

/-! ### The branches of `FSPRG_GenMK` -/

theorem storeMsk_eq_runWrites (h : IsValidSecpar secpar) (msk : List UInt8) (p q : ℕ) :
    storeMsk msk (UInt16.ofNat secpar) p q =
      runWrites msk (withHeader secpar (mskFields secpar p q)) := by
  simp only [storeMsk, h.toNat_ofNat, runWrites, withHeader, mskFields, List.foldlM_cons,
    List.foldlM_nil, FieldWrite.run, bind_pure]

theorem storeMpk_eq_runWrites (h : IsValidSecpar secpar) (mpk : List UInt8) {p q : ℕ}
    (hsize : gcryMpiGetNbits (p * q) = secpar) :
    storeMpk mpk (UInt16.ofNat secpar) p q =
      runWrites mpk (withHeader secpar (mpkFields secpar (p * q))) := by
  simp only [storeMpk, h.toNat_ofNat, assert_of hsize, ok_bind, runWrites, withHeader, mpkFields,
    List.foldlM_cons, List.foldlM_nil, FieldWrite.run, bind_pure]

end PythonSystemd.Fsprg
