import PythonSystemd.Fsprg.Python
import PythonSystemd.Id128.Calls
import PythonSystemd.Library.PackedFields
import PythonSystemd.Python.Hex

/-!
# The file of a sealed journal

The file `fss` is the header of `fsprg.h` and behind it a state. Scripts beside the module take it
apart: `read_fss.py` seeks to the fields and prints them, the ids and the state in hexadecimal
digits, and `cast.py` and `state.py` make of such digits the list of integers that the functions of
`_fsprg.c` take.

`readFss_restores` says that nothing is lost on the way: a file is a header and a rest, the fields
are printed as the header has them, and both scripts give the list of the bytes behind the header.
The size of the state is a number from the file, and one that cannot be read raises.
-/

set_option autoImplicit false
set_option relaxedAutoImplicit false

namespace PythonSystemd.Rocksdb

open Fsprg (PyObject byteObject)
open Id128 Library.BigEndian Library.PackedFields Library.WordBytes Python

/-! ### The header -/

/-- The bytes of an integer of the header, the lowest first. -/
def littleEndian (width value : ℕ) : List UInt8 :=
  (toBytes width value).reverse

/-- `struct FSSHeader`. -/
structure FssHeader where
  signature : List UInt8
  length_signature : signature.length = 8
  compatibleFlags : UInt32
  incompatibleFlags : UInt32
  machineId : SdId128
  bootId : SdId128
  headerSize : UInt64
  startUsec : UInt64
  intervalUsec : UInt64
  fsprgSecpar : UInt16
  reserved : UInt16 × UInt16 × UInt16
  fsprgStateSize : UInt64

namespace FssHeader

variable (header : FssHeader)

/-- The fields in memory. The structure is packed. -/
def fields : List (List UInt8) :=
  [header.signature, littleEndian 4 header.compatibleFlags.toNat,
    littleEndian 4 header.incompatibleFlags.toNat, header.machineId.bytes, header.bootId.bytes,
    littleEndian 8 header.headerSize.toNat, littleEndian 8 header.startUsec.toNat,
    littleEndian 8 header.intervalUsec.toNat, littleEndian 2 header.fsprgSecpar.toNat,
    littleEndian 2 header.reserved.1.toNat, littleEndian 2 header.reserved.2.1.toNat,
    littleEndian 2 header.reserved.2.2.toNat, littleEndian 8 header.fsprgStateSize.toNat]

def bytes : List UInt8 :=
  header.fields.flatten

end FssHeader

/-! ### The scripts -/

/-- A binary file that is open for reading. -/
structure BinaryFile where
  contents : List UInt8
  position : ℕ

namespace BinaryFile

def seek (file : BinaryFile) (offset : ℕ) : BinaryFile :=
  { file with position := offset }

/-- The bytes at the position. At the end of the file they are fewer. -/
def bytesHere (file : BinaryFile) (size : ℕ) : List UInt8 × BinaryFile :=
  let data := (file.contents.drop file.position).take size
  (data, { file with position := file.position + data.length })

/-- `read`. Room for as many bytes as are asked for is allocated first, which fails for sizes that
are no size of an object and for those that the memory has no room for. -/
def read (allocates : ℕ → Bool) (file : BinaryFile) (size : ℕ) :
    Except PyException (List UInt8 × BinaryFile) :=
  if 2 ^ 63 ≤ size then
    .error (.overflowError "cannot fit 'int' into an index-sized integer")
  else if 2 ^ 63 ≤ size + 33 then .error (.overflowError "byte string is too large")
  else if allocates size then .ok (file.bytesHere size)
  else .error (.memoryError "")

end BinaryFile

/-- What `read_fss.py` prints. -/
structure FssReport where
  signature : List UInt8
  compatibleFlags : List UInt8
  incompatibleFlags : List UInt8
  machineId : List UInt8
  bootId : List UInt8
  headerSize : ℕ
  startUsec : ℕ
  intervalUsec : ℕ
  fsprgSecpar : ℕ
  fsprgStateSize : ℕ
  fsprgState : List UInt8

/-- `read_fss.py`, for the contents of the file that it opens. -/
def readFss (allocates : ℕ → Bool) (contents : List UInt8) : Except PyException FssReport := do
  let f := (BinaryFile.mk contents 0).seek 0
  let (signature, f) ← f.read allocates 8
  let f := f.seek 8
  let (compatibleFlags, f) ← f.read allocates 4
  let f := f.seek 12
  let (incompatibleFlags, f) ← f.read allocates 4
  let f := f.seek 16
  let (machineId, f) ← f.read allocates 16
  let f := f.seek 32
  let (bootId, f) ← f.read allocates 16
  let f := f.seek 48
  let (headerSize, f) ← f.read allocates 8
  let f := f.seek 56
  let (startUsec, f) ← f.read allocates 8
  let f := f.seek 64
  let (intervalUsec, f) ← f.read allocates 8
  let f := f.seek 72
  let (fsprgSecpar, f) ← f.read allocates 2
  let f := f.seek 74
  let (_, f) ← f.read allocates (2 * 3)
  let f := f.seek 80
  let (fsprgStateSize, f) ← f.read allocates 8
  let f := f.seek 88
  let (fsprgState, _) ← f.read allocates (ofBytesLE fsprgStateSize)
  return {
    signature := signature
    compatibleFlags := compatibleFlags
    incompatibleFlags := incompatibleFlags
    machineId := hexlify machineId
    bootId := hexlify bootId
    headerSize := ofBytesLE headerSize
    startUsec := ofBytesLE startUsec
    intervalUsec := ofBytesLE intervalUsec
    fsprgSecpar := ofBytesLE fsprgSecpar
    fsprgStateSize := ofBytesLE fsprgStateSize
    fsprgState := hexlify fsprgState }

/-- `[data[i:i+2] for i in range(0, len(data), 2)]`. -/
def pairs {α : Type} : List α → List (List α)
  | [] => []
  | [last] => [[last]]
  | first :: second :: rest => [first, second] :: pairs rest

/-- `cast_hexbytes_uint8` of `cast.py`. -/
def castHexbytesUint8 (unicode : UnicodeDatabase) (digitLimit : ℕ) (data : List UInt8) :
    Except PyException (List ℤ) :=
  (pairs data).mapM fun elem ↦ do
    let bytes ← unhexlify elem
    intOfText unicode 16 digitLimit (bytesHex bytes)

/-- The integers that `state.py` prints for a text. -/
def stateIntegers (unicode : UnicodeDatabase) (digitLimit : ℕ) (state : Text) :
    Except PyException (List ℤ) :=
  (pairs state).mapM fun elem ↦ intOfText unicode 16 digitLimit elem

/-! ### Integers of the header -/

theorem length_littleEndian (width value : ℕ) : (littleEndian width value).length = width := by
  rw [littleEndian, List.length_reverse, length_toBytes]

theorem ofBytesLE_littleEndian {width value : ℕ} (h : value < 256 ^ width) :
    ofBytesLE (littleEndian width value) = value := by
  rw [ofBytesLE, littleEndian, List.reverse_reverse, ofBytes_toBytes h]

theorem ofBytesLE_uint16 (value : UInt16) : ofBytesLE (littleEndian 2 value.toNat) = value.toNat :=
  ofBytesLE_littleEndian value.toNat_lt

theorem ofBytesLE_uint64 (value : UInt64) : ofBytesLE (littleEndian 8 value.toNat) = value.toNat :=
  ofBytesLE_littleEndian value.toNat_lt

theorem littleEndian_ofBytesLE {bytes : List UInt8} {width : ℕ} (h : bytes.length = width) :
    littleEndian width (ofBytesLE bytes) = bytes := by
  rw [littleEndian, ofBytesLE, toBytes_ofBytes_of_length (List.length_reverse.trans h),
    List.reverse_reverse]

/-! ### Reading a header -/

/-- The widths of the fields. -/
def headerWidths : List ℕ :=
  [8, 4, 4, 16, 16, 8, 8, 8, 2, 2, 2, 2, 8]

theorem FssHeader.map_length_fields (header : FssHeader) :
    header.fields.map List.length = headerWidths := by
  simp only [fields, List.map_cons, List.map_nil, length_littleEndian,
    header.length_signature, header.machineId.length_bytes, header.bootId.length_bytes]
  rfl

/-- What `read_fss.py` prints of a header and a state. -/
def FssHeader.report (header : FssHeader) (state : List UInt8) : FssReport where
  signature := header.signature
  compatibleFlags := littleEndian 4 header.compatibleFlags.toNat
  incompatibleFlags := littleEndian 4 header.incompatibleFlags.toNat
  machineId := hexlify header.machineId.bytes
  bootId := hexlify header.bootId.bytes
  headerSize := header.headerSize.toNat
  startUsec := header.startUsec.toNat
  intervalUsec := header.intervalUsec.toNat
  fsprgSecpar := header.fsprgSecpar.toNat
  fsprgStateSize := header.fsprgStateSize.toNat
  fsprgState := hexlify state

/-- So many bytes can be asked for. -/
def CanRead (allocates : ℕ → Bool) (size : ℕ) : Prop :=
  size + 33 < 2 ^ 63 ∧ allocates size = true

section Reading

variable {allocates : ℕ → Bool} {size : ℕ}

theorem BinaryFile.read_of_canRead (h : CanRead allocates size) (file : BinaryFile) :
    file.read allocates size = .ok (file.bytesHere size) := by
  obtain ⟨hsize, hallocates⟩ := h
  have hfits : ¬ 2 ^ 63 ≤ size := by omega
  rw [BinaryFile.read, if_neg hfits, if_neg (not_le.mpr hsize), if_pos hallocates]

theorem BinaryFile.read_of_not_canRead (h : ¬ CanRead allocates size) (file : BinaryFile) :
    ∃ exception, file.read allocates size = .error exception := by
  unfold BinaryFile.read
  split_ifs with hlarge hobject hallocates
  · exact ⟨_, rfl⟩
  · exact ⟨_, rfl⟩
  · exact absurd ⟨not_le.mp hobject, hallocates⟩ h
  · exact ⟨_, rfl⟩

/-- The script seeks to the fields of the packed structure, and at last reads the state. -/
theorem readFss_append (hfields : ∀ size ≤ 16, CanRead allocates size) (header : FssHeader)
    (body : List UInt8) :
    readFss allocates (header.bytes ++ body) =
      ((BinaryFile.mk (header.bytes ++ body) 88).read allocates header.fsprgStateSize.toNat).map
        fun state ↦ header.report state.1 := by
  have hcut : cut headerWidths (header.bytes ++ body) = header.fields :=
    cut_flatten_append header.map_length_fields body
  generalize header.bytes ++ body = contents at hcut
  simp only [headerWidths, cut, FssHeader.fields, List.drop_drop, Nat.reduceAdd, List.cons.injEq,
    and_true] at hcut
  obtain ⟨hsignature, hcompatible, hincompatible, hmachine, hboot, hheader, hstart, hinterval,
    hsecpar, -, -, -, hsize⟩ := hcut
  have hread := fun size hle file ↦ BinaryFile.read_of_canRead (hfields size hle) file
  have hbind : ∀ (read : List UInt8 × BinaryFile)
      (next : List UInt8 × BinaryFile → Except PyException FssReport),
      (Except.ok read >>= next) = next read := fun _ _ ↦ rfl
  unfold readFss FssHeader.report
  simp only [hread 8 (by decide), hread 4 (by decide), hread 16 (by decide), hread 2 (by decide),
    hread (2 * 3) (by decide), hbind, BinaryFile.bytesHere, BinaryFile.seek,
    List.drop_zero, hsignature, hcompatible, hincompatible, hmachine, hboot, hheader, hstart,
    hinterval, hsecpar, hsize, ofBytesLE_uint16, ofBytesLE_uint64]
  cases (BinaryFile.mk contents 88).read allocates header.fsprgStateSize.toNat with
  | error exception => rfl
  | ok state => rfl

theorem bytesHere_append (header : FssHeader) (body : List UInt8) (size : ℕ) :
    ((BinaryFile.mk (header.bytes ++ body) 88).bytesHere size).1 = body.take size := by
  have hlength : header.bytes.length = 88 := by
    rw [FssHeader.bytes, List.length_flatten, header.map_length_fields]
    rfl
  unfold BinaryFile.bytesHere
  rw [← hlength, List.drop_left]

end Reading

/-! ### Taking a header out of a file -/

theorem exists_uint16 {bytes : List UInt8} (h : bytes.length = 2) :
    ∃ value : UInt16, littleEndian 2 value.toNat = bytes := by
  have hlt := ofBytesLE_lt bytes
  rw [h] at hlt
  refine ⟨UInt16.ofNat (ofBytesLE bytes), ?_⟩
  rw [UInt16.toNat_ofNat_of_lt' hlt, littleEndian_ofBytesLE h]

theorem exists_uint32 {bytes : List UInt8} (h : bytes.length = 4) :
    ∃ value : UInt32, littleEndian 4 value.toNat = bytes := by
  have hlt := ofBytesLE_lt bytes
  rw [h] at hlt
  refine ⟨UInt32.ofNat (ofBytesLE bytes), ?_⟩
  rw [UInt32.toNat_ofNat_of_lt' hlt, littleEndian_ofBytesLE h]

theorem exists_uint64 {bytes : List UInt8} (h : bytes.length = 8) :
    ∃ value : UInt64, littleEndian 8 value.toNat = bytes := by
  have hlt := ofBytesLE_lt bytes
  rw [h] at hlt
  refine ⟨UInt64.ofNat (ofBytesLE bytes), ?_⟩
  rw [UInt64.toNat_ofNat_of_lt' hlt, littleEndian_ofBytesLE h]

/-- Any bytes that are long enough are a header and a rest. -/
theorem exists_header {contents : List UInt8} (h : 88 ≤ contents.length) :
    ∃ (header : FssHeader) (body : List UInt8), contents = header.bytes ++ body := by
  have hlengths : (cut headerWidths contents).map List.length = headerWidths := map_length_cut h
  have hflatten : (cut headerWidths contents).flatten ++ contents.drop 88 = contents :=
    flatten_cut headerWidths contents
  simp only [headerWidths, cut, List.map_cons, List.map_nil, List.cons.injEq, and_true] at hlengths
  obtain ⟨hsignature, hcompatible, hincompatible, hmachine, hboot, hheader, hstart, hinterval,
    hsecpar, hfirst, hsecond, hthird, hsize⟩ := hlengths
  obtain ⟨compatible, hcompatible⟩ := exists_uint32 hcompatible
  obtain ⟨incompatible, hincompatible⟩ := exists_uint32 hincompatible
  obtain ⟨size, hheader⟩ := exists_uint64 hheader
  obtain ⟨start, hstart⟩ := exists_uint64 hstart
  obtain ⟨interval, hinterval⟩ := exists_uint64 hinterval
  obtain ⟨secpar, hsecpar⟩ := exists_uint16 hsecpar
  obtain ⟨first, hfirst⟩ := exists_uint16 hfirst
  obtain ⟨second, hsecond⟩ := exists_uint16 hsecond
  obtain ⟨third, hthird⟩ := exists_uint16 hthird
  obtain ⟨stateSize, hsize⟩ := exists_uint64 hsize
  refine ⟨⟨_, hsignature, compatible, incompatible, ⟨_, hmachine⟩, ⟨_, hboot⟩, size, start,
    interval, secpar, (first, second, third), stateSize⟩, contents.drop 88, ?_⟩
  rw [FssHeader.bytes, FssHeader.fields]
  dsimp only
  rw [hcompatible, hincompatible, hheader, hstart, hinterval, hsecpar, hfirst, hsecond, hthird,
    hsize]
  exact hflatten.symm

/-! ### The list of a state -/

theorem ofAscii_hexlify (bytes : List UInt8) : Text.ofAscii (hexlify bytes) = bytesHex bytes := by
  rw [Text.ofAscii, hexlify, List.map_flatMap]
  rfl

theorem pairs_hexlify (bytes : List UInt8) :
    pairs (hexlify bytes) = bytes.map fun byte ↦ hexlify [byte] := by
  induction bytes with
  | nil => rfl
  | cons byte bytes ih =>
    rw [List.map_cons, ← ih]
    rfl

theorem pairs_bytesHex (bytes : List UInt8) :
    pairs (bytesHex bytes) = bytes.map fun byte ↦ bytesHex [byte] := by
  induction bytes with
  | nil => rfl
  | cons byte bytes ih =>
    rw [List.map_cons, ← ih]
    rfl

theorem mapM_map_ok {α β : Type} {f : α → Except PyException β} {g : UInt8 → α} {value : UInt8 → β}
    (h : ∀ byte, f (g byte) = .ok (value byte)) (bytes : List UInt8) :
    (bytes.map g).mapM f = .ok (bytes.map value) := by
  induction bytes with
  | nil => rfl
  | cons byte bytes ih =>
    rw [List.map_cons, List.mapM_cons, h, ih]
    rfl

theorem castHexbytesUint8_hexlify (unicode : UnicodeDatabase) (digitLimit : ℕ)
    (bytes : List UInt8) :
    castHexbytesUint8 unicode digitLimit (hexlify bytes) =
      .ok (bytes.map fun byte ↦ (byte.toNat : ℤ)) := by
  rw [castHexbytesUint8, pairs_hexlify]
  refine mapM_map_ok (fun byte ↦ ?_) bytes
  rw [unhexlify_hexlify]
  exact intOfText_bytesHex_singleton unicode digitLimit byte

theorem stateIntegers_bytesHex (unicode : UnicodeDatabase) (digitLimit : ℕ) (bytes : List UInt8) :
    stateIntegers unicode digitLimit (bytesHex bytes) =
      .ok (bytes.map fun byte ↦ (byte.toNat : ℤ)) := by
  rw [stateIntegers, pairs_bytesHex]
  exact mapM_map_ok (intOfText_bytesHex_singleton unicode digitLimit) bytes

/-- Any file of at least the header's size is a header and a body. Where as many bytes as the header
says can be asked for, `read_fss.py` prints the fields of this header, and from the digits it prints
of the state both `cast.py` and `state.py` make the list of the bytes of the body, up to the size in
the header: a list that `evolve`, `get_epoch` and `get_key` copy back to these bytes. Elsewhere the
script raises. -/
theorem readFss_restores (unicode : UnicodeDatabase) (digitLimit : ℕ) {allocates : ℕ → Bool}
    (hfields : ∀ size ≤ 16, allocates size = true) {contents : List UInt8}
    (h : 88 ≤ contents.length) :
    ∃ (header : FssHeader) (body : List UInt8), contents = header.bytes ++ body ∧
      (CanRead allocates header.fsprgStateSize.toNat →
        ∃ (report : FssReport) (items : List ℤ), readFss allocates contents = .ok report ∧
          report = header.report (body.take header.fsprgStateSize.toNat) ∧
          castHexbytesUint8 unicode digitLimit report.fsprgState = .ok items ∧
          stateIntegers unicode digitLimit (.ofAscii report.fsprgState) = .ok items ∧
          items.map PyObject.int = (body.take header.fsprgStateSize.toNat).map byteObject) ∧
      (¬ CanRead allocates header.fsprgStateSize.toNat →
        ∃ exception, readFss allocates contents = .error exception) := by
  obtain ⟨header, body, rfl⟩ := exists_header h
  have hcanRead : ∀ size ≤ 16, CanRead allocates size :=
    fun size hle ↦ ⟨by omega, hfields size hle⟩
  have happend := readFss_append hcanRead header body
  refine ⟨header, body, rfl, fun hcan ↦ ?_, fun hcan ↦ ?_⟩
  · rw [BinaryFile.read_of_canRead hcan, Except.map, bytesHere_append] at happend
    refine ⟨_, (body.take header.fsprgStateSize.toNat).map fun byte ↦ (byte.toNat : ℤ), happend,
      rfl, ?_, ?_, ?_⟩
    · exact castHexbytesUint8_hexlify unicode digitLimit _
    · rw [FssHeader.report, ofAscii_hexlify]
      exact stateIntegers_bytesHex unicode digitLimit _
    · rw [List.map_map]
      rfl
  · obtain ⟨exception, hread⟩ := BinaryFile.read_of_not_canRead hcan
      ⟨header.bytes ++ body, 88⟩
    rw [hread] at happend
    exact ⟨exception, happend⟩

/-- A file with a state of one byte and a byte behind it. -/
def sampleFile : List UInt8 :=
  List.replicate 80 0 ++ [1, 0, 0, 0, 0, 0, 0, 0] ++ [7, 9]

def asciiDatabase : UnicodeDatabase where
  isSpace := fun _ ↦ false
  decimal := fun _ ↦ none

theorem readFss_restores_sample :
    ∃ (header : FssHeader) (body : List UInt8), sampleFile = header.bytes ++ body ∧
      (CanRead (fun _ ↦ true) header.fsprgStateSize.toNat →
        ∃ (report : FssReport) (items : List ℤ), readFss (fun _ ↦ true) sampleFile = .ok report ∧
          report = header.report (body.take header.fsprgStateSize.toNat) ∧
          castHexbytesUint8 asciiDatabase 4300 report.fsprgState = .ok items ∧
          stateIntegers asciiDatabase 4300 (.ofAscii report.fsprgState) = .ok items ∧
          items.map PyObject.int = (body.take header.fsprgStateSize.toNat).map byteObject) ∧
      (¬ CanRead (fun _ ↦ true) header.fsprgStateSize.toNat →
        ∃ exception, readFss (fun _ ↦ true) sampleFile = .error exception) :=
  readFss_restores asciiDatabase 4300 (fun _ _ ↦ rfl) (by decide)

end PythonSystemd.Rocksdb
