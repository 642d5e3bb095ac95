import PythonSystemd.Fsprg.Generator
import PythonSystemd.Python.Pyutil

/-!
# The Python module _fsprg

The functions of `_fsprg.c` around the generator: `setup_key`, `seek`, `evolve`, `get_epoch` and
`get_key`, with `parse_verification_key` and the copying of Python lists into state buffers.

A C string is the list of its characters with the terminating zero, and a pointer into it is the
rest of that list, so a read behind the zero is out of bounds. An array that a C function declares
without an initialiser is passed in with the bytes that happen to lie on the stack. A call gives a
fault of C or, for Python, a value or an exception.

`sscanf` is a parameter, of which only the number of conversions is looked at.

Left out: what `seek` and `parse_verification_key` print, arguments of other types than the formats
name, and the machine id that `setup_key` reads and drops.
-/

set_option autoImplicit false
set_option relaxedAutoImplicit false

namespace PythonSystemd.Fsprg

open Library.CheckedMemory Python

/-! ### Python objects -/

/-- An item of a list, as the copying loops tell them apart. -/
inductive PyObject
  | int (value : ℤ)
  | other
  deriving DecidableEq

/-- `PyLong_FromUnsignedLong` of a byte. -/
def byteObject (byte : UInt8) : PyObject :=
  .int byte.toNat

/-- `PyLong_AsUnsignedLong`: the value, and the exception it sets next to the value `-1`. -/
def pyLongAsUnsignedLong : PyObject → UInt64 × Option PyException
  | .int value =>
    if 0 ≤ value ∧ value < 2 ^ 64 then (UInt64.ofNat value.toNat, none)
    else if value < 0 then
      (-1, some (.overflowError "can't convert negative value to unsigned int"))
    else (-1, some (.overflowError "Python int too large to convert to C unsigned long"))
  | .other => (-1, some (.typeError "an integer is required"))

/-- The loop that copies a list into the state array, from index `i` on. The byte is stored before
the item is checked, and nothing compares `i` with the size of the array. -/
def recoverState (state : List UInt8) (i : ℕ) (pending : Option PyException) :
    (items : List PyObject) → Checked (Except PyException (List UInt8 × Option PyException))
  | [] => .ok (.ok (state, pending))
  | item :: items => do
    let (value, raised) := pyLongAsUnsignedLong item
    let state ← writeAt state i [value.toUInt8]
    match item with
    | .other => return .error (.typeError "list items must be integers.")
    | .int _ => recoverState state (i + 1) (raised <|> pending) items

/-! ### Verification keys -/

/-- `printf ("%02x")`. -/
def hexDigit (digit : ℕ) : UInt8 :=
  if digit < 10 then UInt8.ofNat (48 + digit) else UInt8.ofNat (87 + digit)

def printByte (byte : UInt8) : List UInt8 :=
  [hexDigit (byte.toNat / 16), hexDigit (byte.toNat % 16)]

/-- `printf ("%llx")`. -/
def printLlx (value : UInt64) : List UInt8 :=
  if value = 0 then [hexDigit 0] else ((Nat.digits 16 value.toNat).map hexDigit).reverse

def dash : UInt8 := '-'.toUInt8

def slash : UInt8 := '/'.toUInt8

/-- The loop of `setup_key` that prints the seed, from byte `i` on. -/
def printSeed (i : ℕ) : (seed : List UInt8) → List UInt8
  | [] => []
  | byte :: seed =>
    (if 0 < i ∧ i % 3 = 0 then [dash] else []) ++ printByte byte ++ printSeed (i + 1) seed

/-- The key text that `setup_key` prints, up to the end of the line. -/
def verificationKey (seed : List UInt8) (start interval : UInt64) : List UInt8 :=
  printSeed 0 seed ++ slash :: printLlx start ++ dash :: printLlx interval

def unhexchar (c : UInt8) : ℤ :=
  if '0'.toUInt8 ≤ c ∧ c ≤ '9'.toUInt8 then c.toNat - '0'.toNat
  else if 'a'.toUInt8 ≤ c ∧ c ≤ 'f'.toUInt8 then c.toNat - 'a'.toNat + 10
  else if 'A'.toUInt8 ≤ c ∧ c ≤ 'F'.toUInt8 then c.toNat - 'A'.toNat + 10
  else -22

/-- The character at a pointer, and the pointer behind it. -/
def readChar : (k : List UInt8) → Checked (UInt8 × List UInt8)
  | [] => .error .outOfBounds
  | c :: k => .ok (c, k)

/-- `while (*k == '-') k++`. -/
def skipDashes : (k : List UInt8) → Checked (List UInt8)
  | [] => .error .outOfBounds
  | c :: k => if c = dash then skipDashes k else .ok (c :: k)

/-- The loop of `parse_verification_key` with `count` bytes to go: the bytes it stores and the
pointer behind them, or nothing where the function returns `-EINVAL`. -/
def parseSeed : (count : ℕ) → (k : List UInt8) → Checked (Option (List UInt8 × List UInt8))
  | 0, k => .ok (some ([], k))
  | count + 1, k => do
    let k ← skipDashes k
    let (c, k) ← readChar k
    let x := unhexchar c
    if x < 0 then return none
    let (c, k) ← readChar k
    let y := unhexchar c
    if y < 0 then return none
    match ← parseSeed count k with
    | none => return none
    | some (seed, k) => return some (UInt8.ofInt (x * 16 + y) :: seed, k)

/-- `sscanf (k, "%llx-%llx")`: how many numbers it converts. The numbers are not used. -/
abbrev Sscanf := List UInt8 → ℕ

/-- It converts the two numbers that `printf` has printed for the same directives. -/
def Sscanf.ConvertsPrinted (sscanf : Sscanf) : Prop :=
  ∀ start interval, sscanf (printLlx start ++ dash :: (printLlx interval ++ [0])) = 2

/-- `parse_verification_key` up to its return: its local array, or nothing where it returns
`-EINVAL`. -/
def decodeVerificationKey (sscanf : Sscanf) (key : List UInt8) : Checked (Option (List UInt8)) := do
  match ← parseSeed fsprgRecommendedSeedlen key with
  | none => return none
  | some (seed, k) =>
    let (c, k) ← readChar k
    if c ≠ slash then return none
    if sscanf k ≠ 2 then return none
    return some seed

/-- The value that `parse_verification_key` returns as a pointer. The success return dereferences
the array: what comes back is its first byte. -/
def parseVerificationKey (sscanf : Sscanf) (key : List UInt8) : Checked UInt64 := do
  match ← decodeVerificationKey sscanf key with
  | none => return -22
  | some seed =>
    let first ← cellAt seed 0
    return first.toUInt64

/-! ### The functions of the module -/

/-- The uninitialised arrays of `seek`. -/
structure SeekStack where
  state : List UInt8
  state_length : fsprgStateinbytes fsprgRecommendedSecpar = .ok state.length
  seed : List UInt8
  seed_length : seed.length = fsprgRecommendedSeedlen
  msk : List UInt8
  msk_length : fsprgMskinbytes fsprgRecommendedSecpar = .ok msk.length

/-- The uninitialised state array of `evolve`, `get_epoch` and `get_key`. -/
structure StateStack where
  state : List UInt8
  state_length : fsprgStateinbytes fsprgRecommendedSecpar = .ok state.length

/-- The buffers that `setup_key` allocates on the stack. -/
structure SetupStack where
  mpk : List UInt8
  mpk_length : fsprgMskinbytes fsprgRecommendedSecpar = .ok mpk.length
  state : List UInt8
  state_length : fsprgStateinbytes fsprgRecommendedSecpar = .ok state.length

def evolve (stack : StateStack) (pList : List PyObject) :
    Checked (Except PyException (List PyObject)) := do
  match ← recoverState stack.state 0 none pList with
  | .error exception => return .error exception
  | .ok (state, pending) =>
    let state ← fsprgEvolve state
    return checkFunctionResult ⟨some (state.map byteObject), pending⟩

/-- `count` calls of `evolve` in a row, each on the list that the one before has returned. -/
def evolveListTimes (arrays : ℕ → StateStack) : (count : ℕ) → (pList : List PyObject) →
    Checked (Except PyException (List PyObject))
  | 0, pList => .ok (.ok pList)
  | count + 1, pList => do
    match ← evolveListTimes arrays count pList with
    | .error exception => return .error exception
    | .ok pList => evolve (arrays count) pList

def getEpoch (stack : StateStack) (pList : List PyObject) :
    Checked (Except PyException PyObject) := do
  match ← recoverState stack.state 0 none pList with
  | .error exception => return .error exception
  | .ok (state, pending) =>
    let epoch ← fsprgGetEpoch state
    return checkFunctionResult ⟨some (.int epoch.toNat), pending⟩

/-- The key is passed on as a string of hexadecimal digits. -/
def getKey (gcrypt : Gcrypt) (stack : StateStack) (pList : List PyObject) :
    Checked (Except PyException (List UInt8)) := do
  match ← recoverState stack.state 0 none pList with
  | .error exception => return .error exception
  | .ok (state, pending) =>
    let key ← fsprgGetKey gcrypt state (List.replicate (256 / 8) 0) 0
    return checkFunctionResult ⟨some (key.flatMap printByte), pending⟩

/-- The line `*seed = parse_verification_key (pSeed)` of `seek`: the array that is then passed to
`FSPRG_GenMK` and `FSPRG_Seek`. -/
def seekSeed (sscanf : Sscanf) (seed key : List UInt8) : Checked (List UInt8) := do
  let parsed ← parseVerificationKey sscanf key
  writeAt seed 0 [parsed.toUInt8]

/-- `seek`. An exception of the arguments is replaced by another one. -/
def seek (gcrypt : Gcrypt) (sscanf : Sscanf) (stack : SeekStack) (pState : List PyObject)
    (pGoal : ℤ) (pSeed : Text) : Checked (Except PyException (List PyObject)) := do
  match parseCString pSeed with
  | .error _ => return .error (.typeError "wrong parameter.")
  | .ok key =>
    match ← recoverState stack.state 0 none pState with
    | .error exception => return .error exception
    | .ok (state, pending) =>
      let seed ← seekSeed sscanf stack.seed (key ++ [0])
      let (msk, _) ← fsprgGenMK gcrypt (some stack.msk) none (some seed) fsprgRecommendedSecpar
      let state ← fsprgSeek gcrypt state (UInt64.ofInt pGoal) (msk.getD stack.msk) seed
      return checkFunctionResult ⟨some (state.map byteObject), pending⟩

/-- The lines that `setup_key` prints before the key. -/
def setupProgress : List UInt8 :=
  ("Generating master keys (this may take some time)...\n".toList ++
    "Generating the first state\n".toList).map Char.toUInt8

/-- `setup_key` with the seed that `gcry_randomize` has given, the number of the interval and its
length: what is printed, and the list that is returned. -/
def setupKey (gcrypt : Gcrypt) (stack : SetupStack) (seed : List UInt8)
    (start interval : UInt64) : Checked (List UInt8 × List PyObject) := do
  let (_, mpk) ← fsprgGenMK gcrypt none (some stack.mpk) (some seed) fsprgRecommendedSecpar
  let state ← fsprgGenState0 gcrypt stack.state (mpk.getD stack.mpk) seed
  return (setupProgress ++ verificationKey seed start interval ++ ['\n'.toUInt8],
    state.map byteObject)

end PythonSystemd.Fsprg
