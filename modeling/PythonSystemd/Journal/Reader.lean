import Mathlib.Data.Finset.Insert
import PythonSystemd.Library.OrderedDict
import PythonSystemd.Python.Pyutil

/-!
# The low-level reader

The type `_Reader` of `_reader.c`. Its slot is the field `j`. What the library returns is passed to
each method: a function that opens a journal stores it when its result is not negative and leaves
the field alone otherwise, and an enumeration is the list of the results of its calls, which is at
its end when the list is.

The reader is compiled against some version of the library, which `Build` names; a function that the
version does not have is `-ENOSYS`. The `assert (self)` of the methods is left out, since the
interpreter passes the object, and so are failures to allocate memory.
-/

set_option autoImplicit false
set_option relaxedAutoImplicit false

namespace PythonSystemd.Journal

open Library Library.CheckedMemory Library.HandleTrace Library.HandleProgram Program Python

/-- The library the module was compiled against; no version where `LIBSYSTEMD_VERSION` is not
defined. -/
structure Build where
  libsystemdVersion : Option ℕ
  libsystemdJournalVersion : ℕ

namespace Build

variable (build : Build)

def atLeast (version : ℕ) : Bool :=
  decide (version ≤ build.libsystemdVersion.getD 0)

def haveJournalOpenFiles : Bool :=
  build.libsystemdVersion.isSome || decide (204 < build.libsystemdJournalVersion)

def haveEnumerateFields : Bool := build.atLeast 229

def haveJournalOpenNamespace : Bool := build.atLeast 245

def haveJournalOpenDirectoryFd : Bool := build.atLeast 230

end Build

/-! ### Opening -/

/-- A Python object where a path, a descriptor or a namespace is expected. An object that is neither
a number nor a path raises when it is converted to bytes. -/
inductive PathObject
  | int (value : ℤ)
  | path (bytes : List UInt8)
  | other (raised : PyException)

/-- `str_converter`. -/
def strConverter : PathObject → Except PyException (List UInt8)
  | .int _ => .error (.typeError "expected str, bytes or os.PathLike object, not int")
  | .path bytes => .ok bytes
  | .other raised => .error raised

/-- `strv_converter` on the items of a sequence. -/
def strvConverter : List PathObject → Except PyException (List (List UInt8))
  | [] => .ok []
  | item :: items => do
    let path ← strConverter item
    let paths ← strvConverter items
    return path :: paths

/-- `long_as_fd`. -/
def longAsFd : PathObject → Except PyException Int32
  | .int value =>
    if value < -2 ^ 63 ∨ 2 ^ 63 ≤ value then
      .error (.overflowError "Python int too large to convert to C long")
    else if (Int32.ofInt value).toInt ≠ value then .error (.overflowError "Value too large")
    else .ok (Int32.ofInt value)
  | .path _ => .error (.typeError "an integer is required")
  | .other _ => .error (.typeError "an integer is required")

/-- `intlist_converter` on the items of a sequence. -/
def intlistConverter : List PathObject → Except PyException (List Int32)
  | [] => .ok []
  | item :: items => do
    let fd ← longAsFd item
    let fds ← intlistConverter items
    return fd :: fds

/-- The argument `files`: a sequence whose length and items can be taken, or an object that is no
sequence. -/
inductive FilesObject
  | sequence (items : List PathObject)
  | other (raised : PyException)

/-- The arguments of `__init__`; no object stands for `None`. -/
structure InitArguments where
  flags : UInt32
  path : Option PathObject
  files : Option FilesObject
  journalNamespace : Option PathObject

/-- A call of the library that opens a journal. -/
inductive OpenCall
  | openDirectoryFd (fd : Int32) (flags : UInt32)
  | openDirectory (path : List UInt8) (flags : UInt32)
  | openFiles (files : List (List UInt8)) (flags : UInt32)
  | openFilesFd (fds : List Int32) (flags : UInt32)
  | openNamespace (name : List UInt8) (flags : UInt32)
  | openJournal (flags : UInt32)

/-- What `Reader_init` asks of the library; no call where the build has none. -/
def openCall (build : Build) (arguments : InitArguments) :
    Except PyException (Option OpenCall) :=
  let flags := arguments.flags
  match arguments.path, arguments.files, arguments.journalNamespace with
  | some _, some _, _ =>
    .error (.valueError "path and files cannot be specified simultaneously")
  | some (.int value), none, _ => do
    let fd ← longAsFd (.int value)
    return if build.haveJournalOpenDirectoryFd then some (.openDirectoryFd fd flags) else none
  | some object, none, _ => do
    let path ← strConverter object
    return some (.openDirectory path flags)
  | none, some (.other raised), _ => .error raised
  | none, some (.sequence (.int value :: items)), _ => do
    let fds ← intlistConverter (.int value :: items)
    return if build.haveJournalOpenDirectoryFd then some (.openFilesFd fds flags) else none
  | none, some (.sequence items), _ => do
    let files ← strvConverter items
    return if build.haveJournalOpenFiles then some (.openFiles files flags) else none
  | none, none, some object =>
    if build.haveJournalOpenNamespace then do
      let name ← strConverter object
      return some (.openNamespace name flags)
    else .ok none
  | none, none, none => .ok (some (.openJournal flags))

/-- Taking the first item of an empty sequence has set an exception, which nobody clears. -/
def leavesIndexError (arguments : InitArguments) : Bool :=
  match arguments.path, arguments.files with
  | none, some (.sequence []) => true
  | _, _ => false

/-- `Reader_init`, for the results of the library. The interpreter objects to a success with an
exception set. -/
def readerInit (build : Build) (args : Args InitArguments) (result : OpenCall → ℤ) :
    Program PyException Unit := do
  let arguments ← parseTuple args
  let call ← ofExcept (openCall build arguments)
  let r := (call.map result).getD (-ENOSYS)
  storeHandle r
  ofExcept <|
    match setError r none (some "Opening the journal failed") with
    | some exception => .error exception
    | none => if leavesIndexError arguments then .error .systemError else .ok ()

def readerDealloc : Program PyException Unit :=
  act .release

def readerClose {α : Type} (args : Args α) : Program PyException Unit := do
  assert (args.isNull = true)
  act .release

def readerEnter (args : Args Unit) : Program PyException Unit :=
  assert (args.isNull = true)

def readerExit {α : Type} (_args : Args α) : Program PyException Unit :=
  readerClose (.null : Args Unit)

/-! ### Events and timeouts -/

def readerFileno (_args : Args Unit) (fd : ℤ) : Program PyException ℤ := do
  callLibrary fd none
  return fd

def readerReliableFd (_args : Args Unit) (r : ℤ) : Program PyException Bool := do
  callLibrary r none
  return decide (r ≠ 0)

def readerGetEvents (_args : Args Unit) (r : ℤ) : Program PyException ℤ := do
  callLibrary r none
  return r

/-- `Reader_get_timeout`; no result stands for `None`. -/
def readerGetTimeout (_args : Args Unit) (r : ℤ) (t : UInt64) :
    Program PyException (Option UInt64) := do
  callLibrary r none
  return if t = -1 then none else some t

def readerGetTimeoutMs (_args : Args Unit) (r : ℤ) (t : UInt64) (ts : Timespec) :
    Program PyException ℤ := do
  callLibrary r none
  return absoluteTimeout t ts

def readerProcess (args : Args Unit) (r : ℤ) : Program PyException ℤ := do
  assert (args.isNull = true)
  callLibrary r none
  return r

/-- `Reader_wait`. Without an argument the timeout is whatever lies on the stack. -/
def readerWait (args : Args (Option Int64)) (stackTimeout : Int64) (wait : Int64 → ℤ) :
    Program PyException ℤ := do
  let timeout ← parseTuple args
  let r := wait (timeout.getD stackTimeout)
  callLibrary r none
  return r

/-! ### Moving -/

/-- A call of the library that moves the read position. -/
inductive MoveCall
  | next
  | previous
  | nextSkip (skip : UInt64)
  | previousSkip (skip : UInt64)
  deriving DecidableEq

/-- The choice between the calls in `Reader_next`. The negation wraps around. -/
def moveCall (skip : Int64) : Option MoveCall :=
  if skip = 1 then some .next
  else if skip = -1 then some .previous
  else if skip > 1 then some (.nextSkip skip.toUInt64)
  else if skip < -1 then some (.previousSkip (-skip).toUInt64)
  else none

/-- `Reader_next`, for the results of the library. -/
def readerNext (args : Args (Option Int64)) (move : MoveCall → ℤ) :
    Program PyException Bool := do
  let skip ← parseTuple args
  if skip.getD 1 = 0 then raise (.valueError "skip must be nonzero")
  else
    match moveCall (skip.getD 1) with
    | none => fault .assertion
    | some call => do
      callLibrary (move call) none
      return decide (move call ≠ 0)

/-- `Reader_previous`, which calls the method `_next` with the opposite skip. -/
def readerPrevious (args : Args (Option Int64)) (move : MoveCall → ℤ) :
    Program PyException Bool := do
  let skip ← parseTuple args
  readerNext (.tuple (.ok (some (-skip.getD 1)))) move

def readerSeekHead (_args : Args Unit) (r : ℤ) : Program PyException Unit :=
  callLibrary r none

def readerSeekTail (_args : Args Unit) (r : ℤ) : Program PyException Unit :=
  callLibrary r none

def readerSeekRealtime (args : Args UInt64) (seek : UInt64 → ℤ) : Program PyException Unit := do
  let timestamp ← parseTuple args
  callLibrary (seek timestamp) none

/-- `Reader_seek_monotonic`, with the results of looking up the boot and of seeking to it. -/
def readerSeekMonotonic (args : Args (UInt64 × Option (List UInt8)))
    (bootId : Option (List UInt8) → ℤ × List UInt8) (seek : List UInt8 → UInt64 → ℤ) :
    Program PyException Unit := do
  let (timestamp, bootid) ← parseTuple args
  let (r, id) := bootId bootid
  raiseError r (if bootid.isSome then some "Invalid bootid" else none)
  callLibrary (seek id timestamp) none

def readerSeekCursor (args : Args (List UInt8)) (seek : List UInt8 → ℤ) :
    Program PyException Unit := do
  let cursor ← parseTuple args
  callLibrary (seek cursor) (some "Invalid cursor")

/-! ### Reading the current entry -/

/-- The delimiter between the name of a field and its value. -/
def delimiter : UInt8 := 61

/-- The parts of a field before and after the first delimiter. -/
def splitField (msg : List UInt8) : Except PyException (List UInt8 × List UInt8) :=
  match msg.dropWhile (· ≠ delimiter) with
  | [] => .error (.osErrorMessage "journal gave us a field without '='")
  | _ :: value => .ok (msg.takeWhile (· ≠ delimiter), value)

/-- `extract` for the key and the value. -/
def extract (msg : List UInt8) : Except PyException (Text × List UInt8) := do
  let (key, value) ← splitField msg
  let key ← unicodeFromString key
  return (key, value)

/-- `extract` for the value alone. -/
def extractValue (msg : List UInt8) : Except PyException (List UInt8) := do
  let (_, value) ← splitField msg
  return value

/-- What a dictionary of the reader has for a key: one value, or the list of several. -/
inductive FieldData (α : Type)
  | one (value : α)
  | many (values : List α)
  deriving DecidableEq

/-- An entry as a dictionary. -/
abbrev Entry := OrderedDict Text (FieldData (List UInt8))

/-- The body of the loop in `Reader_get_all`. -/
def collectField (dict : Entry) (msg : List UInt8) : Except PyException Entry := do
  let (key, value) ← extract msg
  return match dict.get? key with
    | some (.many values) => dict.setItem key (.many (values ++ [value]))
    | some (.one current) => dict.setItem key (.many [current, value])
    | none => dict.setItem key (.one value)

/-- The loop `while (enumerate (..) > 0)` of an enumeration, with an accumulator. -/
def enumerate {σ : Type} (body : σ → List UInt8 → Except PyException σ) :
    (outcomes : List (ℤ × List UInt8)) → σ → Program PyException σ
  | [], collected => do
    act .use
    return collected
  | (r, data) :: outcomes, collected => do
    act .use
    if 0 < r then do
      let collected ← ofExcept (body collected data)
      enumerate body outcomes collected
    else return collected

/-- `Reader_get_all`; the first call on the handle restarts the enumeration. -/
def readerGetAll (_args : Args Unit) (outcomes : List (ℤ × List UInt8)) :
    Program PyException Entry := do
  act .use
  enumerate collectField outcomes OrderedDict.empty

/-- `Reader_get`, for the result and the data of the library. -/
def readerGet (args : Args (List UInt8)) (data : List UInt8 → ℤ × List UInt8) :
    Program PyException (List UInt8) := do
  assert (args.isNull = false)
  let field ← parseTuple args
  let (r, msg) := data field
  act .use
  if r = -ENOENT then raise (.keyError field)
  else do
    raiseError r (some "field name is not valid")
    ofExcept (extractValue msg)

def readerGetRealtime (args : Args Unit) (r : ℤ) (timestamp : UInt64) :
    Program PyException UInt64 := do
  assert (args.isNull = true)
  callLibrary r none
  return timestamp

def readerGetMonotonic (args : Args Unit) (r : ℤ) (timestamp : UInt64) (bootid : List UInt8) :
    Program PyException (UInt64 × List UInt8) := do
  assert (args.isNull = true)
  callLibrary r none
  return (timestamp, bootid)

def readerGetCursor (args : Args Unit) (r : ℤ) (cursor : List UInt8) :
    Program PyException Text := do
  assert (args.isNull = true)
  callLibrary r none
  ofExcept (unicodeFromString cursor)

def readerTestCursor (args : Args (List UInt8)) (test : List UInt8 → ℤ) :
    Program PyException Bool := do
  assert (args.isNull = false)
  let cursor ← parseTuple args
  callLibrary (test cursor) none
  return decide (test cursor ≠ 0)

/-- The length of the prefix of a `MESSAGE_ID` field: `sizeof("MESSAGE_ID")`. -/
def messageIdPrefix : ℕ := 11

/-- `Reader_get_catalog`, for the result and the text of the catalog and for what the entry has as
its `MESSAGE_ID`. -/
def readerGetCatalog (args : Args Unit) (catalog messageId : ℤ × List UInt8) :
    Program PyException Text := do
  assert (args.isNull = true)
  act .use
  if catalog.1 = -ENOENT then do
    act .use
    if messageId.1 = 0 then do
      assert (messageIdPrefix < messageId.2.length)
      raise (.keyError (messageId.2.drop messageIdPrefix))
    else if messageId.1 = -ENOENT then raise (.indexError "no MESSAGE_ID field")
    else do
      raiseError messageId.1 none
      raise .systemError
  else do
    raiseError catalog.1 none
    ofExcept (unicodeFromString catalog.2)

/-! ### Matches and queries -/

/-- `Reader_add_match`, for the result of the library. -/
def readerAddMatch (args : Args (List UInt8)) (add : List UInt8 → ℤ) :
    Program PyException Unit := do
  let bytes ← parseTuple args
  if 2 ^ 31 - 1 < bytes.length then raiseError (-ENOBUFS) none
  else callLibrary (add bytes) (some "Invalid match")

def readerAddDisjunction (_args : Args Unit) (r : ℤ) : Program PyException Unit :=
  callLibrary r none

def readerAddConjunction (_args : Args Unit) (r : ℤ) : Program PyException Unit :=
  callLibrary r none

def readerFlushMatches (_args : Args Unit) : Program PyException Unit :=
  act .use

def readerGetUsage (_args : Args Unit) (r : ℤ) (bytes : UInt64) : Program PyException UInt64 := do
  callLibrary r none
  return bytes

/-- The body of the loop in `Reader_query_unique`. -/
def collectValue (valueSet : Finset (List UInt8)) (uniq : List UInt8) :
    Except PyException (Finset (List UInt8)) :=
  match splitField uniq with
  | .error _ => .error (.valueError "Invalid field in the journal")
  | .ok (_, value) => .ok (insert value valueSet)

/-- `Reader_query_unique`, for the result of the query and those of the enumeration. -/
def readerQueryUnique (args : Args (List UInt8)) (query : List UInt8 → ℤ)
    (outcomes : List (ℤ × List UInt8)) : Program PyException (Finset (List UInt8)) := do
  let field ← parseTuple args
  callLibrary (query field) (some "Invalid field name")
  let _key ← ofExcept (unicodeFromString field)
  act .use
  enumerate collectValue outcomes ∅

/-- The loop of `Reader_enumerate_fields`, in which a negative result is raised. -/
def enumerateFields : (outcomes : List (ℤ × List UInt8)) → Finset Text →
    Program PyException (Finset Text)
  | [], valueSet => do
    act .use
    return valueSet
  | (r, field) :: outcomes, valueSet => do
    act .use
    if r = 0 then return valueSet
    else do
      raiseError r (some "Field enumeration failed")
      let value ← ofExcept (unicodeFromString field)
      enumerateFields outcomes (insert value valueSet)

def readerEnumerateFields (build : Build) (_args : Args Unit) (outcomes : List (ℤ × List UInt8)) :
    Program PyException (Finset Text) :=
  if build.haveEnumerateFields then do
    act .use
    enumerateFields outcomes ∅
  else raise (.osError ENOSYS none)

/-- `Reader_has_runtime_files` and `Reader_has_persistent_files`. -/
def readerHasFiles (build : Build) (r : ℤ) : Program PyException Bool :=
  if build.haveEnumerateFields then do
    callLibrary r none
    return decide (r ≠ 0)
  else raise (.osError ENOSYS none)

def readerHasRuntimeFiles (build : Build) (_args : Args Unit) (r : ℤ) : Program PyException Bool :=
  readerHasFiles build r

def readerHasPersistentFiles (build : Build) (_args : Args Unit) (r : ℤ) :
    Program PyException Bool :=
  readerHasFiles build r

/-! ### Attributes -/

def readerGetDataThreshold (r : ℤ) (cvalue : UInt64) : Program PyException UInt64 := do
  callLibrary r none
  return cvalue

/-- What is assigned to `data_threshold`: nothing where the attribute is deleted, and an integer of
the size of a C long where it is one. -/
inductive ThresholdObject
  | deleted
  | int (value : Int64)
  | other

def readerSetDataThreshold (value : ThresholdObject) (set : UInt64 → ℤ) :
    Program PyException Unit :=
  match value with
  | .deleted => raise (.attributeError "Cannot delete data threshold")
  | .other => raise (.typeError "Data threshold must be an int")
  | .int value => callLibrary (set value.toUInt64) none

/-- The attribute `closed`. -/
def readerGetClosed : Program PyException Bool := fun slot ↦
  .ok (.ok slot.handle.isNone, slot)

end PythonSystemd.Journal
