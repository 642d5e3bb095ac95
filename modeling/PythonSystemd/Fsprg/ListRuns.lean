import PythonSystemd.Fsprg.SeekCalls
import PythonSystemd.Fsprg.SeekableRuns

/-!
# Runs over a list of bytes

Python holds the state as a list of integers. `setup_key` gives the first list, `evolve` a new list
for an old one, and `get_epoch` and `get_key` read a list; every call copies the list into an array
on its own stack. `get_key` also prints the key into an array there, two digits at a time, each with
a terminating zero that the next digits overwrite.

`listRun` says what any such run returns: no call faults or raises, whatever is on the stacks, and
the lists, the epochs and the keys are those of the chain of states.
-/

set_option autoImplicit false
set_option relaxedAutoImplicit false

namespace PythonSystemd.Fsprg

open Library.BlumSquares Library.CheckedMemory Library.Simulation Library.Tiling Python

/-! ### The text of a key -/

/-- `sprintf (&skey[j], "%02x", byte)`. -/
def sprintfByte (skey : List UInt8) (j : ℕ) (byte : UInt8) : Checked (List UInt8) :=
  writeAt skey j (printByte byte ++ [0])

/-- The loop of `get_key` that prints the bytes of the key, from index `j` of `skey` on. -/
def printKeyFrom (skey : List UInt8) (j : ℕ) : (key : List UInt8) → Checked (List UInt8)
  | [] => .ok skey
  | byte :: key => do
    let skey ← sprintfByte skey j byte
    printKeyFrom skey (j + 2) key

def printKey (skey key : List UInt8) : Checked (List UInt8) := do
  let first ← cellAt key 0
  let skey ← sprintfByte skey 0 first
  printKeyFrom skey 2 (key.drop 1)

/-- The string at a pointer: what stands in front of the first zero. -/
def readString : List UInt8 → Checked (List UInt8)
  | [] => .error .outOfBounds
  | c :: text =>
    if c = 0 then .ok []
    else do
      let text ← readString text
      return c :: text

/-- The uninitialised arrays of `get_key`. -/
structure KeyStack extends StateStack where
  key : List UInt8
  key_length : key.length = 256 / 8
  skey : List UInt8
  skey_length : skey.length = 256

/-- `get_key` with its arrays for the key and for its text. -/
def getKeyText (gcrypt : Gcrypt) (stack : KeyStack) (pList : List PyObject) :
    Checked (Except PyException (List UInt8)) := do
  match ← recoverState stack.state 0 none pList with
  | .error exception => return .error exception
  | .ok (state, pending) =>
    let key ← fsprgGetKey gcrypt state stack.key 0
    let skey ← printKey stack.skey key
    let text ← readString skey
    return checkFunctionResult ⟨some text, pending⟩

/-- Where the text so far ends with its zero, the loop overwrites this zero and what follows. -/
theorem printKeyFrom_append (front : List UInt8) {key rest : List UInt8}
    (h : 2 * key.length ≤ rest.length) :
    printKeyFrom (front ++ 0 :: rest) front.length key =
      .ok (front ++ key.flatMap printByte ++ 0 :: rest.drop (2 * key.length)) := by
  induction key generalizing front rest with
  | nil => rw [printKeyFrom, List.flatMap_nil, List.append_nil, List.length_nil, List.drop_zero]
  | cons byte key ih =>
    obtain ⟨first, second, rest, rfl⟩ : ∃ first second later, rest = first :: second :: later := by
      match rest, h with
      | first :: second :: later, _ => exact ⟨first, second, later, rfl⟩
    have hrest : 2 * key.length ≤ rest.length := by
      simp only [List.length_cons] at h
      omega
    have hwrite : sprintfByte (front ++ 0 :: first :: second :: rest) front.length byte =
        .ok ((front ++ printByte byte) ++ 0 :: rest) := by
      have hfield := writeAt_append front [0, first, second] rest (printByte byte ++ [0]) rfl rfl
      rw [List.append_assoc, List.append_assoc, List.append_assoc] at hfield
      rw [sprintfByte, List.append_assoc]
      exact hfield
    have hdrop : (first :: second :: rest).drop (2 * (byte :: key).length) =
        rest.drop (2 * key.length) := by
      rw [List.length_cons, Nat.mul_succ]
      rfl
    have hlength : front.length + 2 = (front ++ printByte byte).length := by
      rw [List.length_append]
      rfl
    rw [printKeyFrom, hwrite, ok_bind, hlength, ih _ hrest, hdrop, List.flatMap_cons,
      List.append_assoc front]

/-- A key that is not empty is printed into any array with room for its digits and a zero. -/
theorem printKey_eq {key skey : List UInt8} (hne : key ≠ []) (h : 2 * key.length < skey.length) :
    ∃ rest, printKey skey key = .ok (key.flatMap printByte ++ 0 :: rest) := by
  obtain ⟨first, key, rfl⟩ := List.exists_cons_of_ne_nil hne
  rw [List.length_cons] at h
  obtain ⟨front, rest, rfl, hfront⟩ := exists_front skey 3 (by omega)
  have hwrite : sprintfByte (front ++ rest) 0 first = .ok (printByte first ++ 0 :: rest) := by
    have hthree : (printByte first ++ [0]).length = 3 := rfl
    have hfield := writeAt_append [] front rest (printByte first ++ [0]) rfl
      (hfront.trans hthree.symm)
    rw [List.nil_append, List.nil_append, List.append_assoc] at hfield
    exact hfield
  have hroom : 2 * key.length ≤ rest.length := by
    rw [List.length_append, hfront] at h
    omega
  have hcell : cellAt (first :: key) 0 = .ok first := rfl
  have hloop := printKeyFrom_append (printByte first) hroom
  refine ⟨rest.drop (2 * key.length), ?_⟩
  rw [printKey, hcell, ok_bind, hwrite, ok_bind, List.flatMap_cons]
  exact hloop

theorem zero_notMem_printKey (key : List UInt8) : 0 ∉ key.flatMap printByte := by
  intro hmem
  obtain ⟨byte, -, hbyte⟩ := List.mem_flatMap.mp hmem
  have hlt := byte.toNat_lt
  rcases List.mem_pair.mp hbyte with hzero | hzero
  · exact (isAscii_hexDigit (by omega)).1 hzero.symm
  · exact (isAscii_hexDigit (Nat.mod_lt _ (by norm_num))).1 hzero.symm

theorem readString_append {text : List UInt8} (h : 0 ∉ text) (rest : List UInt8) :
    readString (text ++ 0 :: rest) = .ok text := by
  induction text with
  | nil => rfl
  | cons c text ih =>
    obtain ⟨hc, htext⟩ := List.ne_and_not_mem_of_not_mem_cons h
    rw [List.cons_append, readString, if_neg hc.symm, ih htext]
    rfl

theorem writeAt_whole {memory data : List UInt8} (h : memory.length = data.length) :
    writeAt memory 0 data = .ok data := by
  rw [writeAt, if_pos (by omega), Nat.zero_add, ← h, List.drop_length, List.take_zero,
    List.nil_append, List.append_nil]

/-- The bytes that the array for a key held do not matter. -/
theorem fsprgGetKey_array (gcrypt : Gcrypt) (state : List UInt8) {key key' : List UInt8}
    (h : key.length = key'.length) (idx : UInt32) :
    fsprgGetKey gcrypt state key idx = fsprgGetKey gcrypt state key' idx := by
  have hleft : ∀ seed, writeAt key 0 (detRandomize gcrypt key'.length seed idx) =
      .ok (detRandomize gcrypt key'.length seed idx) :=
    fun seed ↦ writeAt_whole (h.trans (length_detRandomize ..).symm)
  have hright : ∀ seed, writeAt key' 0 (detRandomize gcrypt key'.length seed idx) =
      .ok (detRandomize gcrypt key'.length seed idx) :=
    fun seed ↦ writeAt_whole (length_detRandomize ..).symm
  unfold fsprgGetKey
  simp only [h, hleft, hright]

theorem length_fsprgGetKey {gcrypt : Gcrypt} {state key result : List UInt8} {idx : UInt32}
    (h : fsprgGetKey gcrypt state key idx = .ok result) : result.length = key.length := by
  obtain ⟨secpar, -, h⟩ := returned_bind.mp h
  obtain ⟨seed, -, h⟩ := returned_bind.mp h
  exact length_of_writeAt h

/-- The array for the text is large enough, and what it held does not matter. -/
theorem getKeyText_eq (gcrypt : Gcrypt) (stack : KeyStack) (pList : List PyObject) :
    getKeyText gcrypt stack pList = getKey gcrypt stack.toStateStack pList := by
  unfold getKeyText getKey
  congr 1
  funext recovered
  cases recovered with
  | error exception => rfl
  | ok recovered =>
    obtain ⟨state, pending⟩ := recovered
    have hlength : stack.key.length = (List.replicate (256 / 8) (0 : UInt8)).length := by
      rw [stack.key_length, List.length_replicate]
    dsimp only
    rw [fsprgGetKey_array gcrypt state hlength]
    cases hkey : fsprgGetKey gcrypt state (List.replicate (256 / 8) 0) 0 with
    | error fault => rfl
    | ok key =>
      have hkeyLength : key.length = 32 := (length_fsprgGetKey hkey).trans List.length_replicate
      have hne : key ≠ [] := by
        rintro rfl
        exact absurd hkeyLength (by decide)
      have hroom : 2 * key.length < stack.skey.length := by
        rw [hkeyLength, stack.skey_length]
        norm_num
      obtain ⟨rest, hprint⟩ := printKey_eq hne hroom
      rw [ok_bind, hprint, ok_bind, readString_append (zero_notMem_printKey key)]
      rfl

/-! ### Calls on a list -/

/-- A call of the module `_fsprg` on a list, with the arrays on its stack. -/
inductive ListCall
  | evolve (stack : StateStack)
  | getEpoch (stack : StateStack)
  | getKey (stack : KeyStack)

/-- What a call returns, other than a list, or raises. -/
inductive ListAnswer
  | evolved
  | epoch (value : PyObject)
  | key (text : List UInt8)
  | raised (exception : PyException)
  deriving DecidableEq

/-- `evolve` gives the list that the next call takes. -/
def ListCall.run (gcrypt : Gcrypt) : Machine ListCall (List PyObject) ListAnswer Fault
  | .evolve stack, pList => do
    match ← Fsprg.evolve stack pList with
    | .error exception => return (.raised exception, pList)
    | .ok pList => return (.evolved, pList)
  | .getEpoch stack, pList => do
    match ← Fsprg.getEpoch stack pList with
    | .error exception => return (.raised exception, pList)
    | .ok epoch => return (.epoch epoch, pList)
  | .getKey stack, pList => do
    match ← getKeyText gcrypt stack pList with
    | .error exception => return (.raised exception, pList)
    | .ok text => return (.key text, pList)

/-- The answers of a list that was evolved as often as the position says: the epoch is its
`uint64_t`, and the key stands there in hexadecimal digits. -/
def listModel (gcrypt : Gcrypt) (chain : ℕ → List UInt8) : Model ListCall ℕ ListAnswer where
  move
    | .evolve _, position => position + 1
    | .getEpoch _, position => position
    | .getKey _, position => position
  answer
    | .evolve _, _ => .evolved
    | .getEpoch _, position => .epoch (.int (position % 2 ^ 64 : ℕ))
    | .getKey _, position =>
      .key ((detRandomize gcrypt 32 ((chain position).drop 2) 0).flatMap printByte)

/-- Where the list at a position is held, a call answers and moves as the chain does. -/
theorem simulates_list (gcrypt : Gcrypt) (point : ForwardState fsprgRecommendedSecpar)
    (hepoch : point.epoch = 0) :
    Simulates (ListCall.run gcrypt) (listModel gcrypt point.chain) (fun _ ↦ True)
      fun position pList ↦ pList = (point.chain position).map byteObject := by
  rintro call position _ - rfl
  have hbytes : fsprgStateinbytes fsprgRecommendedSecpar = .ok (point.chain position).length :=
    (wellFormed_encode (point.after position)).length_eq
  refine ⟨_, ?_, rfl⟩
  cases call with
  | evolve stack =>
    rw [ListCall.run, evolve_map_byteObject stack hbytes, point.fsprgEvolve_chain]
    rfl
  | getEpoch stack =>
    rw [ListCall.run, getEpoch_map_byteObject stack hbytes, point.fsprgGetEpoch_chain, hepoch,
      UInt64.zero_add, ok_bind, UInt64.toNat_ofNat']
    rfl
  | getKey stack =>
    rw [ListCall.run, getKeyText_eq, getKey_map_byteObject stack.toStateStack hbytes,
      point.fsprgGetKey_chain]
    rfl

/-! ### The list of setup_key -/

section Setup

variable {secpar n : ℕ} (h : IsValidSecpar secpar) (hsize : n.size = secpar) (gcrypt : Gcrypt)
  (seed : List UInt8)

include h hsize in
theorem le_of_size : 2 ^ (secpar - 1) ≤ n := by
  have hlow := h.2.1
  refine Nat.lt_size.mp ?_
  omega

/-- The first state of a modulus of the right size, be its primes what they may. -/
def firstState : ForwardState secpar where
  valid := h
  modulus := n
  modulus_lt := Nat.size_le.mp hsize.le
  residue := Residue.ofRoot (lt_of_lt_of_le (Nat.two_pow_pos _) (le_of_size h hsize))
    (squareRoot (detRandomize gcrypt (secpar / 8) seed rndGenX))
  epoch := 0

theorem fsprgGenState0_eq_firstState {state : List UInt8}
    (hstate : state.length = 2 + secpar / 8 + secpar / 8 + 8) :
    fsprgGenState0 gcrypt state (mpkBytes secpar n) seed =
      .ok (firstState h hsize gcrypt seed).encode :=
  fsprgGenState0_mpkBytes h gcrypt (Nat.size_le.mp hsize.le)
    ((h.squareRoot_lt gcrypt seed rndGenX).trans_le (le_of_size h hsize)) hstate

include h in
/-- Only the product of the primes is checked where no `msk` is asked for. -/
theorem storeMpk_of_size_ne {p q : ℕ} (hne : (p * q).size ≠ secpar) (mpk : List UInt8) :
    storeMpk mpk (UInt16.ofNat secpar) p q = .error .assertion := by
  have hbits : ¬ gcryMpiGetNbits (p * q) = (UInt16.ofNat secpar).toNat := by
    rw [h.toNat_ofNat]
    exact hne
  rw [storeMpk]
  simp only [assert_of_not hbits, error_bind]

end Setup

/-- `setup_key` returns a list exactly when the product of the two primes has the right size. From
this list, or from any that it was evolved to, no run of calls faults or raises, whatever their
arrays held; it evolves the list along the chain, and the epochs and keys are those of its
positions. -/
theorem listRun (gcrypt : Gcrypt) (setupStack : SetupStack) (seed : List UInt8)
    (start interval : UInt64) :
    ∃ p q, genprime3mod4 gcrypt (fsprgRecommendedSecpar / 2) seed rndGenP = .ok p ∧
      genprime3mod4 gcrypt (fsprgRecommendedSecpar / 2) seed rndGenQ = .ok q ∧
      (gcryMpiGetNbits (p * q) ≠ fsprgRecommendedSecpar ∧
          setupKey gcrypt setupStack seed start interval = .error .assertion ∨
        ∃ chain : ℕ → List UInt8, gcryMpiGetNbits (p * q) = fsprgRecommendedSecpar ∧
          setupKey gcrypt setupStack seed start interval =
            .ok (setupProgress ++ verificationKey seed start interval ++ ['\n'.toUInt8],
              (chain 0).map byteObject) ∧
          ∀ position calls,
            runCalls (ListCall.run gcrypt) calls ((chain position).map byteObject) =
              .ok ((listModel gcrypt chain).answers calls position,
                (chain ((listModel gcrypt chain).final calls position)).map byteObject)) := by
  have hvalid := isValidSecpar_recommended
  have hmpk : setupStack.mpk.length = 2 + fsprgRecommendedSecpar / 8 :=
    (hvalid.length_msk setupStack.mpk_length).trans (by decide)
  refine ⟨_, _, genprime3mod4_eq_masterPrime hvalid gcrypt seed rndGenP,
    genprime3mod4_eq_masterPrime hvalid gcrypt seed rndGenQ, ?_⟩
  set p := masterPrime hvalid gcrypt seed rndGenP
  set q := masterPrime hvalid gcrypt seed rndGenQ
  have hgen : ∀ result : Checked (List UInt8),
      storeMpk setupStack.mpk (UInt16.ofNat fsprgRecommendedSecpar) p q = result →
      fsprgGenMK gcrypt none (some setupStack.mpk) (some seed) fsprgRecommendedSecpar =
        result >>= fun mpk ↦ .ok (none, some mpk) := by
    rintro result rfl
    rw [fsprgGenMK_eq hvalid]
    change (storeMpk setupStack.mpk _ p q >>= fun mpk ↦ .ok (some mpk)) >>= _ = _
    cases storeMpk setupStack.mpk (UInt16.ofNat fsprgRecommendedSecpar) p q with
    | error fault => rfl
    | ok mpk => rfl
  by_cases hsize : (p * q).size = fsprgRecommendedSecpar
  · right
    have hgenerated := hgen _ (storeMpk_eq_ok hvalid hmpk hsize)
    have hstate0 := fsprgGenState0_eq_firstState hvalid hsize gcrypt seed
      (hvalid.length_state setupStack.state_length)
    set point := firstState hvalid hsize gcrypt seed
    refine ⟨point.chain, hsize, ?_, fun position calls ↦ ?_⟩
    · rw [ForwardState.chain_zero]
      exact setupKey_eq_ok setupStack start interval hgenerated hstate0
    · obtain ⟨last, hrun, rfl⟩ := (simulates_list gcrypt point rfl).runCalls
        (fun _ _ ↦ trivial) (Eq.refl ((point.chain position).map byteObject))
      exact hrun
  · left
    refine ⟨hsize, ?_⟩
    rw [setupKey, hgen _ (storeMpk_of_size_ne hvalid hsize setupStack.mpk)]
    rfl

end PythonSystemd.Fsprg
