import PythonSystemd.Fsprg.Exponents
import PythonSystemd.Fsprg.KeyGrammar
import PythonSystemd.Fsprg.KeyStream
import PythonSystemd.Fsprg.StateLists

/-!
# Calls of seek

`seek` for any key and any goal. What the parser reports is stored as a seed byte and never looked
at, so a key that it turns down is turned down by `seek` only where something else is wrong with
the call (`refuses_iff`). The goal goes through a conversion modulo `2 ^ 64` and is the epoch of the
returned state, so `seek` reaches the goals that this conversion leaves alone and for whose
exponent the generator is defined (`reachesGoal_iff_and_same_epoch`).
-/

set_option autoImplicit false
set_option relaxedAutoImplicit false

namespace PythonSystemd.Fsprg

open Library.BigEndian Library.CheckedMemory Library.PrimesThreeModFour Python

/-! ### The two halves of a call -/

/-- `seek` up to the call of `FSPRG_GenMK`: the state array, the exception that is set, and the
seed array. -/
def seekPrepared (sscanf : Sscanf) (stack : SeekStack) (pState : List PyObject) (pSeed : Text) :
    Checked (Except PyException (List UInt8 × Option PyException × List UInt8)) := do
  match parseCString pSeed with
  | .error _ => return .error (.typeError "wrong parameter.")
  | .ok key =>
    match ← recoverState stack.state 0 none pState with
    | .error exception => return .error exception
    | .ok (state, pending) =>
      let seed ← seekSeed sscanf stack.seed (key ++ [0])
      return .ok (state, pending, seed)

/-- `seek` from the call of `FSPRG_GenMK` on, unless an exception was raised before. -/
def seekGenerated (gcrypt : Gcrypt) (stack : SeekStack) (pGoal : ℤ) :
    Except PyException (List UInt8 × Option PyException × List UInt8) →
      Checked (Except PyException (List PyObject))
  | .error exception => .ok (.error exception)
  | .ok (state, pending, seed) => do
    let (msk, _) ← fsprgGenMK gcrypt (some stack.msk) none (some seed) fsprgRecommendedSecpar
    let state ← fsprgSeek gcrypt state (UInt64.ofInt pGoal) (msk.getD stack.msk) seed
    return checkFunctionResult ⟨some (state.map byteObject), pending⟩

/-- The key or the list is turned down: the key has no UTF-8 encoding or has a character zero, or
an item of the list that is copied before there is no room is no integer. -/
def IsTurnedDown (pState : List PyObject) (pSeed : Text) : Prop :=
  pSeed.encodeUtf8 = none ∨ 0 ∈ pSeed ∨ PyObject.other ∈ pState.take 394

theorem isTurnedDown_iff {pState : List PyObject} {pSeed : Text} :
    IsTurnedDown pState pSeed ↔
      (pSeed.encodeUtf8 = none ∨ 0 ∈ pSeed) ∨ PyObject.other ∈ pState.take 394 :=
  or_assoc.symm

section Halves

variable {gcrypt : Gcrypt} {sscanf : Sscanf} {stack : SeekStack} {pState : List PyObject}
  {pGoal : ℤ} {pSeed : Text} {key : List UInt8}

theorem seek_eq_prepared_generated :
    seek gcrypt sscanf stack pState pGoal pSeed =
      seekPrepared sscanf stack pState pSeed >>= seekGenerated gcrypt stack pGoal := by
  unfold seek seekPrepared
  cases parseCString pSeed with
  | error exception => rfl
  | ok key =>
    cases recoverState stack.state 0 none pState with
    | error fault => rfl
    | ok outcome =>
      cases outcome with
      | error exception => rfl
      | ok copied =>
        cases hseed : seekSeed sscanf stack.seed (key ++ [0]) with
        | error fault => simp only [hseed, ok_bind, error_bind]
        | ok seed => simp only [hseed, ok_bind, pure_eq_ok, seekGenerated]

/-! ### What is prepared -/

/-- For a key that is turned down the parser returns `-EINVAL`, and its low byte is stored. -/
theorem seekSeed_of_refused {seed : List UInt8} (hseed : seed.length = fsprgRecommendedSeedlen)
    (hdecode : decodeVerificationKey sscanf key = .ok none) :
    seekSeed sscanf seed key = .ok (0xea :: seed.drop 1) := by
  have hfit : 0 + [(0xea : UInt8)].length ≤ seed.length := by
    rw [hseed]
    decide
  have hbyte : (-22 : UInt64).toUInt8 = 0xea := by decide
  simp only [seekSeed, parseVerificationKey, hdecode, ok_bind, pure_eq_ok, hbyte]
  rw [writeAt, if_pos hfit]
  rfl

/-- For any key the seed array is filled. -/
theorem exists_seekSeed_eq (sscanf : Sscanf) (stack : SeekStack) (key : List UInt8) :
    ∃ seed, seekSeed sscanf stack.seed (key ++ [0]) = .ok seed := by
  rcases decodeVerificationKey_cases sscanf key with hnone | ⟨decoded, htext⟩
  · exact ⟨_, seekSeed_of_refused stack.seed_length hnone⟩
  · have hdecode := decodeVerificationKey_of_isKeyText htext
    exact ⟨_, seekSeed_of_decode htext.length_seed stack.seed_length hdecode⟩

theorem seekPrepared_of_parse_error {exception : PyException}
    (h : parseCString pSeed = .error exception) :
    seekPrepared sscanf stack pState pSeed = .ok (.error (.typeError "wrong parameter.")) := by
  simp only [seekPrepared, h, pure_eq_ok]

theorem seekPrepared_of_other (hkey : parseCString pSeed = .ok key)
    (h : PyObject.other ∈ pState.take 394) :
    seekPrepared sscanf stack pState pSeed = .ok (.error notInteger) := by
  simp only [seekPrepared, hkey, recoverState_stateArray_of_other stack.state_length h, ok_bind,
    pure_eq_ok]

theorem seekPrepared_eq_error (hkey : parseCString pSeed = .ok key)
    (h : PyObject.other ∉ pState.take 394) (hlong : 394 < pState.length) :
    seekPrepared sscanf stack pState pSeed = .error .outOfBounds := by
  have hlength := length_stateArray stack.state_length
  have hcopy := recoverState_eq_error [] none (hlength.symm ▸ h) (hlength.symm ▸ hlong)
  simp only [List.nil_append, List.length_nil] at hcopy
  simp only [seekPrepared, hkey, hcopy, error_bind]

/-- A list of integers that fits is copied, whatever the key decodes to. -/
theorem exists_seekPrepared_eq (hkey : parseCString pSeed = .ok key)
    (h : PyObject.other ∉ pState) (hshort : pState.length ≤ 394) :
    ∃ state seed, state.length = 394 ∧ seekSeed sscanf stack.seed (key ++ [0]) = .ok seed ∧
      seekPrepared sscanf stack pState pSeed =
        .ok (.ok (state, raisedBy none pState, seed)) := by
  have hlength := length_stateArray stack.state_length
  have hcopy := recoverState_eq_ok [] none h (hlength.symm ▸ hshort)
  simp only [List.nil_append, List.length_nil] at hcopy
  obtain ⟨seed, hseed⟩ := exists_seekSeed_eq sscanf stack key
  refine ⟨pState.map itemByte ++ stack.state.drop pState.length, seed, ?_, hseed, ?_⟩
  · rw [List.length_append, List.length_map, List.length_drop, hlength]
    omega
  · simp only [seekPrepared, hkey, hcopy, ok_bind, hseed, pure_eq_ok]

/-- A call raises in its first half, or writes behind the state array, or goes on with a full state
array and the seed array that the key was parsed into. -/
theorem seekPrepared_cases (sscanf : Sscanf) (stack : SeekStack) (pState : List PyObject)
    (pSeed : Text) :
    IsTurnedDown pState pSeed ∧
        (∃ exception, seekPrepared sscanf stack pState pSeed = .ok (.error exception)) ∨
      ¬ IsTurnedDown pState pSeed ∧ 394 < pState.length ∧
        seekPrepared sscanf stack pState pSeed = .error .outOfBounds ∨
      ¬ IsTurnedDown pState pSeed ∧ pState.length ≤ 394 ∧
        ∃ key state seed, pSeed.encodeUtf8 = some key ∧ state.length = 394 ∧
          seekSeed sscanf stack.seed (key ++ [0]) = .ok seed ∧
          seekPrepared sscanf stack pState pSeed =
            .ok (.ok (state, raisedBy none pState, seed)) := by
  simp only [isTurnedDown_iff]
  rcases parseCString_cases pSeed with ⟨hdown, exception, hkey⟩ | ⟨hup, key, hencode, -, hkey⟩
  · exact Or.inl ⟨Or.inl hdown, _, seekPrepared_of_parse_error hkey⟩
  by_cases hother : PyObject.other ∈ pState.take 394
  · exact Or.inl ⟨Or.inr hother, _, seekPrepared_of_other hkey hother⟩
  have hneither := not_or.mpr ⟨hup, hother⟩
  by_cases hlong : 394 < pState.length
  · exact Or.inr (Or.inl ⟨hneither, hlong, seekPrepared_eq_error hkey hother hlong⟩)
  · rw [List.take_of_length_le (not_lt.mp hlong)] at hother
    obtain ⟨state, seed, hprepared⟩ := exists_seekPrepared_eq hkey hother (not_lt.mp hlong)
    exact Or.inr (Or.inr ⟨hneither, not_lt.mp hlong, key, state, seed, hencode, hprepared⟩)

end Halves

/-! ### Keys that the parser turns down -/

/-- The call raises, and it does so before `FSPRG_GenMK` is called. -/
def Refuses (gcrypt : Gcrypt) (sscanf : Sscanf) (stack : SeekStack) (pState : List PyObject)
    (pGoal : ℤ) (pSeed : Text) : Prop :=
  ∃ exception, seekPrepared sscanf stack pState pSeed = .ok (.error exception) ∧
    seek gcrypt sscanf stack pState pGoal pSeed = .ok (.error exception)

section Refused

variable {gcrypt : Gcrypt} {sscanf : Sscanf} {stack : SeekStack} {pState : List PyObject}
  {pGoal : ℤ} {pSeed : Text}

theorem seek_of_prepared_error {exception : PyException}
    (h : seekPrepared sscanf stack pState pSeed = .ok (.error exception)) :
    seek gcrypt sscanf stack pState pGoal pSeed = .ok (.error exception) := by
  rw [seek_eq_prepared_generated, h, ok_bind, seekGenerated]

theorem refuses_iff_isTurnedDown :
    Refuses gcrypt sscanf stack pState pGoal pSeed ↔ IsTurnedDown pState pSeed := by
  rcases seekPrepared_cases sscanf stack pState pSeed with ⟨hraises, exception, hprepared⟩ |
    ⟨hneither, -, hprepared⟩ | ⟨hneither, -, key, state, seed, -, -, -, hprepared⟩
  · exact iff_of_true ⟨exception, hprepared, seek_of_prepared_error hprepared⟩ hraises
  · refine iff_of_false ?_ hneither
    rintro ⟨exception, hraised, -⟩
    cases hprepared.symm.trans hraised
  · refine iff_of_false ?_ hneither
    rintro ⟨exception, hraised, -⟩
    cases hprepared.symm.trans hraised

/-- The seed array that a call goes on with is the one that the key was parsed into. -/
theorem exists_seekSeed_of_prepared {state seed : List UInt8} {pending : Option PyException}
    (h : seekPrepared sscanf stack pState pSeed = .ok (.ok (state, pending, seed))) :
    ∃ key, pSeed.encodeUtf8 = some key ∧ seekSeed sscanf stack.seed (key ++ [0]) = .ok seed := by
  rcases seekPrepared_cases sscanf stack pState pSeed with ⟨-, exception, hprepared⟩ |
    ⟨-, -, hprepared⟩ | ⟨-, -, key, state', seed', hencode, -, hseed, hprepared⟩
  · cases hprepared.symm.trans h
  · cases hprepared.symm.trans h
  · cases hprepared.symm.trans h
    exact ⟨key, hencode, hseed⟩

/-- A key that the parser turns down makes no call be refused. A call that is not refused for its
list, for a zero in the key or for a key without an encoding goes on with the low byte of `-EINVAL`
and what lay on the stack. -/
theorem refuses_iff (gcrypt : Gcrypt) (sscanf : Sscanf) (stack : SeekStack)
    (pState : List PyObject) (pGoal : ℤ) {pSeed : Text}
    (hkey : ∀ key seed, pSeed.encodeUtf8 = some key →
      decodeVerificationKey sscanf (key ++ [0]) ≠ .ok (some seed)) :
    (Refuses gcrypt sscanf stack pState pGoal pSeed ↔
      pSeed.encodeUtf8 = none ∨ 0 ∈ pSeed ∨ PyObject.other ∈ pState.take 394) ∧
    ∀ state pending seed,
      seekPrepared sscanf stack pState pSeed = .ok (.ok (state, pending, seed)) →
      seed = 0xea :: stack.seed.drop 1 := by
  refine ⟨refuses_iff_isTurnedDown, fun state pending seed hprepared ↦ ?_⟩
  obtain ⟨key, hencode, hseed⟩ := exists_seekSeed_of_prepared hprepared
  have hdecode : decodeVerificationKey sscanf (key ++ [0]) = .ok none := by
    rcases decodeVerificationKey_cases sscanf key with hnone | ⟨decoded, htext⟩
    · exact hnone
    · exact absurd (decodeVerificationKey_of_isKeyText htext) (hkey key decoded hencode)
  rw [seekSeed_of_refused stack.seed_length hdecode] at hseed
  exact (Except.ok.inj hseed).symm

/-- The key `x`. -/
def unparsedKey : Text := .ofString "x"

theorem decodeVerificationKey_unparsedKey :
    unparsedKey.encodeUtf8 = some [120] ∧
      decodeVerificationKey sampleSscanf [120, 0] = .ok none := by
  decide

/-- A list of 394 zeros. -/
def zeroList : List PyObject := (List.replicate 394 0).map byteObject

theorem other_notMem_map_byteObject (bytes : List UInt8) :
    PyObject.other ∉ bytes.map byteObject := by
  intro hmem
  obtain ⟨byte, -, hbyte⟩ := List.mem_map.mp hmem
  cases hbyte

theorem refused_unparsedKey (key seed : List UInt8) (hencode : unparsedKey.encodeUtf8 = some key) :
    decodeVerificationKey sampleSscanf (key ++ [0]) ≠ .ok (some seed) := by
  obtain ⟨hbytes, hdecode⟩ := decodeVerificationKey_unparsedKey
  obtain rfl := Option.some.inj (hencode.symm.trans hbytes)
  rw [List.singleton_append, hdecode]
  exact fun h ↦ by cases h

/-- With the key `x` a list with another item is refused, and a list of bytes is not. -/
theorem refuses_iff_unparsedKey :
    Refuses sampleGcrypt sampleSscanf (SeekStack.filled 0) [PyObject.other] 5 unparsedKey ∧
      ¬ Refuses sampleGcrypt sampleSscanf (SeekStack.filled 0) zeroList 5 unparsedKey := by
  constructor
  · exact (refuses_iff sampleGcrypt sampleSscanf _ _ 5 refused_unparsedKey).1.mpr
      (Or.inr (Or.inr (by decide)))
  · rw [(refuses_iff sampleGcrypt sampleSscanf _ _ 5 refused_unparsedKey).1]
    rintro (hencode | hzero | hother)
    · exact absurd hencode (by decide)
    · exact absurd hzero (by decide)
    · exact other_notMem_map_byteObject _ (List.mem_of_mem_take hother)

/-- `seek ([0] * 394, 5, "x")` goes on to `FSPRG_GenMK`. -/
theorem not_refuses_unparsedKey :
    (unparsedKey.encodeUtf8 = some [120] ∧
      decodeVerificationKey sampleSscanf [120, 0] = .ok none) ∧
      ¬ Refuses sampleGcrypt sampleSscanf (SeekStack.filled 0) zeroList 5 unparsedKey := by
  refine ⟨decodeVerificationKey_unparsedKey, fun hrefuses ↦ ?_⟩
  rcases refuses_iff_isTurnedDown.mp hrefuses with hencode | hzero | hother
  · exact absurd hencode (by decide)
  · exact absurd hzero (by decide)
  · exact other_notMem_map_byteObject _ (List.mem_of_mem_take hother)

end Refused

/-! ### Goals -/

/-- The call raises, or it returns a list on which `get_epoch` gives the goal. -/
def ReachesGoal (gcrypt : Gcrypt) (sscanf : Sscanf) (stack : SeekStack) (pState : List PyObject)
    (pGoal : ℤ) (pSeed : Text) : Prop :=
  (∃ exception, seek gcrypt sscanf stack pState pGoal pSeed = .ok (.error exception)) ∨
    ∃ list, seek gcrypt sscanf stack pState pGoal pSeed = .ok (.ok list) ∧
      ∀ arrays, getEpoch arrays list = .ok (.ok (.int pGoal))

/-- Both searches that start from the bytes of the seed come to a prime that fits its field. -/
def PrimesFit (gcrypt : Gcrypt) (seed : List UInt8) : Prop :=
  (∃ r ∈ primesFrom (masterStart gcrypt fsprgRecommendedSecpar seed rndGenP),
      r < 2 ^ (fsprgRecommendedSecpar / 2)) ∧
    ∃ r ∈ primesFrom (masterStart gcrypt fsprgRecommendedSecpar seed rndGenQ),
      r < 2 ^ (fsprgRecommendedSecpar / 2)

/-- Some integer of the list is no `unsigned long`. -/
def HasOutOfRange (pState : List PyObject) : Prop :=
  ∃ value, PyObject.int value ∈ pState ∧ ¬ (0 ≤ value ∧ value < 2 ^ 64)

section Goals

variable {gcrypt : Gcrypt} {sscanf : Sscanf} {stack : SeekStack} {pState : List PyObject}
  {pGoal : ℤ} {pSeed : Text} {key seed : List UInt8}

theorem raisedBy_eq_none_iff {pending : Option PyException} {items : List PyObject} :
    raisedBy pending items = none ↔
      pending = none ∧ ∀ item ∈ items, (pyLongAsUnsignedLong item).2 = none := by
  induction items generalizing pending with
  | nil => simp [raisedBy]
  | cons item items ih =>
    have hcons : raisedBy pending (item :: items) =
        raisedBy ((pyLongAsUnsignedLong item).2 <|> pending) items := rfl
    rw [hcons, ih, List.forall_mem_cons]
    cases (pyLongAsUnsignedLong item).2 with
    | none => simp
    | some exception => simp

/-- Of integers, exactly those out of range leave an exception behind. -/
theorem raisedBy_ne_none_iff (h : PyObject.other ∉ pState) :
    raisedBy none pState ≠ none ↔ HasOutOfRange pState := by
  rw [Ne, raisedBy_eq_none_iff, eq_self, true_and]
  push Not
  constructor
  · rintro ⟨item, hitem, hraised⟩
    cases item with
    | other => exact absurd hitem h
    | int value =>
      refine ⟨value, hitem, fun hrange ↦ hraised ?_⟩
      rw [pyLongAsUnsignedLong, if_pos hrange]
  · rintro ⟨value, hvalue, hrange⟩
    refine ⟨.int value, hvalue, ?_⟩
    rw [pyLongAsUnsignedLong, if_neg hrange]
    split_ifs
    · exact Option.some_ne_none _
    · exact Option.some_ne_none _

/-- `FSPRG_GenMK` stores the primes of the seed if they fit, and stops at an assertion otherwise. -/
theorem exists_masterPrimes_of_primesFit (stack : SeekStack) (hfit : PrimesFit gcrypt seed) :
    ∃ primes : MasterPrimes fsprgRecommendedSecpar,
      fsprgGenMK gcrypt (some stack.msk) none (some seed) fsprgRecommendedSecpar =
        .ok (some (mskBytes fsprgRecommendedSecpar primes.p primes.q), none) := by
  have hvalid := isValidSecpar_recommended
  have hp : masterPrime hvalid gcrypt seed rndGenP < 2 ^ (fsprgRecommendedSecpar / 2) :=
    (masterPrime_lt_iff hvalid seed rndGenP).mpr hfit.1
  have hq : masterPrime hvalid gcrypt seed rndGenQ < 2 ^ (fsprgRecommendedSecpar / 2) :=
    (masterPrime_lt_iff hvalid seed rndGenQ).mpr hfit.2
  exact ⟨masterPrimes hvalid gcrypt seed hp hq,
    fsprgGenMK_eq_ok hvalid (by simpa using hvalid.length_msk stack.msk_length) (by simp) hp hq⟩

theorem fsprgGenMK_of_not_primesFit (stack : SeekStack) (hfit : ¬ PrimesFit gcrypt seed) :
    fsprgGenMK gcrypt (some stack.msk) none (some seed) fsprgRecommendedSecpar =
      .error .assertion := by
  have hvalid := isValidSecpar_recommended
  have hlarge := not_and_or.mp hfit
  rw [← masterPrime_lt_iff hvalid, ← masterPrime_lt_iff hvalid, not_lt, not_lt] at hlarge
  exact fsprgGenMK_eq_error hvalid (hvalid.length_msk stack.msk_length) none hlarge

/-- With primes that fit and an exponent below `2 ^ 63`, the second half returns a state at the
converted goal. -/
theorem exists_seekGenerated_eq (stack : SeekStack) (hfit : PrimesFit gcrypt seed)
    (hgoal : pGoal % 2 ^ 64 < 2 ^ 63) {state : List UInt8} (hstate : state.length = 394)
    (pending : Option PyException) :
    ∃ n x, seekGenerated gcrypt stack pGoal (.ok (state, pending, seed)) =
      .ok (checkFunctionResult
        ⟨some ((stateBytes fsprgRecommendedSecpar n x (UInt64.ofInt pGoal)).map byteObject),
          pending⟩) := by
  obtain ⟨primes, hgen⟩ := exists_masterPrimes_of_primesFit stack hfit
  have hepoch : (UInt64.ofInt pGoal).toNat < 2 ^ 63 := by
    have hcast := toNat_ofInt pGoal
    omega
  obtain ⟨x, hseek⟩ :=
    exists_fsprgSeek_eq gcrypt primes isValidSecpar_recommended hepoch hstate seed
  refine ⟨primes.n, x, ?_⟩
  simp only [seekGenerated, hgen, ok_bind, Option.getD_some, hseek, pure_eq_ok]

/-- Without such primes or such an exponent it stops at a fault. -/
theorem exists_seekGenerated_eq_error (stack : SeekStack)
    (h : ¬ (PrimesFit gcrypt seed ∧ pGoal % 2 ^ 64 < 2 ^ 63)) (state : List UInt8)
    (pending : Option PyException) :
    ∃ fault, seekGenerated gcrypt stack pGoal (.ok (state, pending, seed)) = .error fault := by
  by_cases hfit : PrimesFit gcrypt seed
  · obtain ⟨primes, hgen⟩ := exists_masterPrimes_of_primesFit stack hfit
    have hepoch : 2 ^ 63 ≤ (UInt64.ofInt pGoal).toNat := by
      have hcast := toNat_ofInt pGoal
      have hlarge := not_and.mp h hfit
      omega
    refine ⟨.undefinedShift, ?_⟩
    simp only [seekGenerated, hgen, ok_bind, Option.getD_some,
      fsprgSeek_eq_error primes isValidSecpar_recommended hepoch, error_bind]
  · refine ⟨.assertion, ?_⟩
    simp only [seekGenerated, fsprgGenMK_of_not_primesFit stack hfit, error_bind]

/-- What `get_epoch` gives on a list that `seek` has returned. -/
theorem getEpoch_stateBytes (arrays : StateStack) (n x : ℕ) (epoch : UInt64) :
    getEpoch arrays ((stateBytes fsprgRecommendedSecpar n x epoch).map byteObject) =
      .ok (.ok (.int epoch.toNat)) := by
  have hvalid := isValidSecpar_recommended
  have hlength : fsprgStateinbytes fsprgRecommendedSecpar =
      .ok (stateBytes fsprgRecommendedSecpar n x epoch).length := by
    rw [fsprgStateinbytes_eq hvalid, length_stateBytes]
  rw [getEpoch_map_byteObject arrays hlength, fsprgGetEpoch_stateBytes hvalid, ok_bind]

/-- What the two halves of a call with a given seed array come to. -/
theorem seek_cases (gcrypt : Gcrypt) (stack : SeekStack) (pState : List PyObject) (pGoal : ℤ)
    (hencode : pSeed.encodeUtf8 = some key)
    (hseed : seekSeed sscanf stack.seed (key ++ [0]) = .ok seed) :
    IsTurnedDown pState pSeed ∧
        (∃ exception, seek gcrypt sscanf stack pState pGoal pSeed = .ok (.error exception)) ∨
      ¬ IsTurnedDown pState pSeed ∧
        ¬ (pState.length ≤ 394 ∧ PrimesFit gcrypt seed ∧ pGoal % 2 ^ 64 < 2 ^ 63) ∧
        (∃ fault, seek gcrypt sscanf stack pState pGoal pSeed = .error fault) ∨
      ¬ IsTurnedDown pState pSeed ∧
        (pState.length ≤ 394 ∧ PrimesFit gcrypt seed ∧ pGoal % 2 ^ 64 < 2 ^ 63) ∧
        ∃ n x, seek gcrypt sscanf stack pState pGoal pSeed =
          .ok (checkFunctionResult
            ⟨some ((stateBytes fsprgRecommendedSecpar n x (UInt64.ofInt pGoal)).map byteObject),
              raisedBy none pState⟩) := by
  rcases seekPrepared_cases sscanf stack pState pSeed with ⟨hraises, exception, hprepared⟩ |
    ⟨hneither, hlong, hprepared⟩ |
    ⟨hneither, hshort, key', state, parsed, hencode', hstate, hparsed, hprepared⟩
  · exact Or.inl ⟨hraises, exception, seek_of_prepared_error hprepared⟩
  · refine Or.inr (Or.inl ⟨hneither, fun h ↦ absurd h.1 (not_le.mpr hlong), .outOfBounds, ?_⟩)
    rw [seek_eq_prepared_generated, hprepared, error_bind]
  · obtain rfl := Option.some.inj (hencode.symm.trans hencode')
    obtain rfl := Except.ok.inj (hseed.symm.trans hparsed)
    rw [seek_eq_prepared_generated, hprepared, ok_bind]
    by_cases hruns : PrimesFit gcrypt seed ∧ pGoal % 2 ^ 64 < 2 ^ 63
    · exact Or.inr (Or.inr ⟨hneither, ⟨hshort, hruns⟩,
        exists_seekGenerated_eq stack hruns.1 hruns.2 hstate _⟩)
    · exact Or.inr (Or.inl ⟨hneither, fun h ↦ hruns h.2,
        exists_seekGenerated_eq_error stack hruns state _⟩)

/-- What a call needs to reach its goal: it raises before anything is generated; or the list fits,
the primes of the seed fit and the converted goal is below `2 ^ 63`, and then the goal is its own
conversion or an integer of the list is out of range, which raises in the end. -/
def GoalInReach (gcrypt : Gcrypt) (pState : List PyObject) (pGoal : ℤ) (pSeed : Text)
    (seed : List UInt8) : Prop :=
  IsTurnedDown pState pSeed ∨
    (pState.length ≤ 394 ∧ PrimesFit gcrypt seed ∧ pGoal % 2 ^ 64 < 2 ^ 63) ∧
      (0 ≤ pGoal ∧ pGoal < 2 ^ 64 ∨ HasOutOfRange pState)

theorem reachesGoal_iff_goalInReach (hencode : pSeed.encodeUtf8 = some key)
    (hseed : seekSeed sscanf stack.seed (key ++ [0]) = .ok seed) :
    ReachesGoal gcrypt sscanf stack pState pGoal pSeed ↔
      GoalInReach gcrypt pState pGoal pSeed seed := by
  rcases seek_cases gcrypt stack pState pGoal hencode hseed with ⟨hraises, hseek⟩ |
    ⟨hneither, hruns, fault, hseek⟩ | ⟨hneither, hruns, n, x, hseek⟩
  · exact iff_of_true (Or.inl hseek) (Or.inl hraises)
  · refine iff_of_false ?_ ?_
    · rintro (⟨exception, hraised⟩ | ⟨list, hreturned, -⟩)
      · cases hseek.symm.trans hraised
      · cases hseek.symm.trans hreturned
    · rintro (hraises | ⟨hfits, -⟩)
      · exact hneither hraises
      · exact hruns hfits
  · have hall : PyObject.other ∉ pState := by
      have hother := (not_or.mp (not_or.mp hneither).2).2
      rwa [List.take_of_length_le hruns.1] at hother
    have hcast := toNat_ofInt pGoal
    cases hraised : raisedBy none pState with
    | none =>
      have hrange : ¬ HasOutOfRange pState := by
        rw [← raisedBy_ne_none_iff hall, not_not]
        exact hraised
      rw [hraised] at hseek
      constructor
      · rintro (⟨exception, hfailed⟩ | ⟨list, hreturned, hgoal⟩)
        · cases hseek.symm.trans hfailed
        · cases hseek.symm.trans hreturned
          have hepoch := hgoal (StateStack.filled 0)
          rw [getEpoch_stateBytes] at hepoch
          have hgoal := PyObject.int.inj (Except.ok.inj (Except.ok.inj hepoch))
          exact Or.inr ⟨hruns, Or.inl (by omega)⟩
      · rintro (hraises | ⟨-, hgoal | hout⟩)
        · exact absurd hraises hneither
        · refine Or.inr ⟨_, hseek, fun arrays ↦ ?_⟩
          rw [getEpoch_stateBytes]
          have hself : ((UInt64.ofInt pGoal).toNat : ℤ) = pGoal := by omega
          rw [hself]
        · exact absurd hout hrange
    | some exception =>
      have hout := (raisedBy_ne_none_iff hall).mp (hraised ▸ Option.some_ne_none exception)
      rw [hraised] at hseek
      exact iff_of_true (Or.inl ⟨.systemError, hseek⟩) (Or.inr ⟨hruns, Or.inr hout⟩)

/-- Whatever the goal, a returned list is at the converted goal. -/
theorem getEpoch_of_seek {list : List PyObject}
    (hencode : pSeed.encodeUtf8 = some key)
    (h : seek gcrypt sscanf stack pState pGoal pSeed = .ok (.ok list)) (arrays : StateStack) :
    getEpoch arrays list = .ok (.ok (.int (pGoal % 2 ^ 64))) := by
  obtain ⟨seed, hseed⟩ := exists_seekSeed_eq sscanf stack key
  rcases seek_cases gcrypt stack pState pGoal hencode hseed with ⟨-, exception, hseek⟩ |
    ⟨-, -, fault, hseek⟩ | ⟨-, -, n, x, hseek⟩
  · cases hseek.symm.trans h
  · cases hseek.symm.trans h
  · cases hraised : raisedBy none pState with
    | none =>
      rw [hraised] at hseek
      cases hseek.symm.trans h
      rw [getEpoch_stateBytes, toNat_ofInt]
    | some exception =>
      rw [hraised] at hseek
      cases hseek.symm.trans h

/-- For a key that the parser accepts, `seek` raises or reaches its goal exactly when the goal is in
reach of the seed that it works with; and two returned lists are at the same epoch exactly when
their goals are the same modulo `2 ^ 64`. -/
theorem reachesGoal_iff_and_same_epoch (gcrypt : Gcrypt) (stack : SeekStack)
    (pState : List PyObject) (pGoal : ℤ) (hencode : pSeed.encodeUtf8 = some key)
    (hkey : IsKeyText sscanf key seed) :
    (ReachesGoal gcrypt sscanf stack pState pGoal pSeed ↔
      GoalInReach gcrypt pState pGoal pSeed (seed.take 1 ++ stack.seed.drop 1)) ∧
    ∀ pGoal' list list' arrays, seek gcrypt sscanf stack pState pGoal pSeed = .ok (.ok list) →
      seek gcrypt sscanf stack pState pGoal' pSeed = .ok (.ok list') →
      (getEpoch arrays list = getEpoch arrays list' ↔ pGoal ≡ pGoal' [ZMOD 2 ^ 64]) := by
  have hdecode := decodeVerificationKey_of_isKeyText hkey
  refine ⟨reachesGoal_iff_goalInReach hencode
    (seekSeed_of_decode hkey.length_seed stack.seed_length hdecode), ?_⟩
  intro pGoal' list list' arrays hseek hseek'
  rw [getEpoch_of_seek hencode hseek, getEpoch_of_seek hencode hseek', Except.ok.injEq,
    Except.ok.injEq, PyObject.int.injEq]
  rfl

end Goals

/-! ### A printed key -/

/-- The text of the printed key. -/
def printedKey : Text := keyText printedSeed.toList 0x1f0e7c2 0x2faf080

theorem encodeUtf8_printedKey : printedKey.encodeUtf8 =
    some (verificationKey printedSeed.toList 0x1f0e7c2 0x2faf080) :=
  encodeUtf8_keyText _ _ _

theorem isKeyText_printedKey : IsKeyText sampleSscanf
    (verificationKey printedSeed.toList 0x1f0e7c2 0x2faf080) printedSeed.toList :=
  (decodeVerificationKey_eq_some_iff sampleSscanf _ _).mp
    (decodeVerificationKey_verificationKey convertsPrinted_sampleSscanf printedSeed.length_toList
      0x1f0e7c2 0x2faf080)

/-- The seed that `seek` works with for the key on a stack of zeros. -/
def firstByteSeed : List UInt8 :=
  printedSeed.toList.take 1 ++ (SeekStack.filled 0).seed.drop 1

/-- The prime factors of a number before a prime of 768 bits. -/
def largeFactors : List ℕ :=
  List.replicate 439 3 ++ List.replicate 22 7 ++ List.replicate 4 5 ++ [2]

def largePrime : ℕ :=
  largeFactors.prod + 1

theorem prime_largePrime : largePrime.Prime := by
  have hprod : largeFactors.prod = largePrime - 1 := by rw [largePrime, Nat.add_sub_cancel]
  have hfactors : ∀ factor ∈ largeFactors, factor ∈ [2, 3, 5, 7] := by decide +kernel
  have hprimes : ∀ factor ∈ [2, 3, 5, 7], Nat.Prime factor := by decide
  have horders : ∀ factor ∈ [2, 3, 5, 7],
      ¬ powMod largePrime 3 (largeFactors.erase factor) ≡ 1 [MOD largePrime] := by
    decide +kernel
  exact prime_of_powMod 3 hprod (fun factor hfactor ↦ hprimes factor (hfactors factor hfactor))
    (by decide +kernel) fun factor hfactor ↦ horders factor (hfactors factor hfactor)

theorem masterStart_firstByteSeed :
    masterStart sampleGcrypt fsprgRecommendedSecpar firstByteSeed rndGenP ≤ largePrime ∧
      masterStart sampleGcrypt fsprgRecommendedSecpar firstByteSeed rndGenQ ≤ largePrime := by
  have hbytes : ∀ idx,
      detRandomize sampleGcrypt (fsprgRecommendedSecpar / 2 / 8) firstByteSeed idx =
      (counterStream (fun ctr ↦
        sampleGcrypt.digest (firstByteSeed ++ uint32Bytes idx ++ toBytes 4 ctr)) 0 3).take
          (fsprgRecommendedSecpar / 2 / 8) :=
    fun idx ↦ detRandomizeFrom_eq_take (firstByteSeed ++ uint32Bytes idx) (by decide) (by decide)
  unfold masterStart
  rw [hbytes, hbytes]
  decide +kernel

theorem primesFit_firstByteSeed : PrimesFit sampleGcrypt firstByteSeed := by
  obtain ⟨hp, hq⟩ := masterStart_firstByteSeed
  have hmod : largePrime % 4 = 3 := by decide +kernel
  have hlt : largePrime < 2 ^ (fsprgRecommendedSecpar / 2) := by decide +kernel
  exact ⟨⟨largePrime, ⟨hp, prime_largePrime, hmod⟩, hlt⟩,
    ⟨largePrime, ⟨hq, prime_largePrime, hmod⟩, hlt⟩⟩

/-- A list with another item raises, and a list of bytes takes the printed key to the goal `5`. -/
theorem reachesGoal_iff_printedKey :
    ReachesGoal sampleGcrypt sampleSscanf (SeekStack.filled 0) [PyObject.other] 5 printedKey ∧
      ReachesGoal sampleGcrypt sampleSscanf (SeekStack.filled 0) zeroList 5 printedKey := by
  constructor
  · refine (reachesGoal_iff_and_same_epoch sampleGcrypt _ _ 5 encodeUtf8_printedKey
      isKeyText_printedKey).1.mpr (Or.inl (Or.inr (Or.inr List.mem_cons_self)))
  · refine (reachesGoal_iff_and_same_epoch sampleGcrypt _ _ 5 encodeUtf8_printedKey
      isKeyText_printedKey).1.mpr (Or.inr ⟨⟨?_, primesFit_firstByteSeed, by norm_num⟩, ?_⟩)
    · exact (List.length_map _).trans_le List.length_replicate.le
    · exact Or.inl (by norm_num)

theorem not_hasOutOfRange_map_byteObject (bytes : List UInt8) :
    ¬ HasOutOfRange (bytes.map byteObject) := by
  rintro ⟨value, hvalue, hrange⟩
  obtain ⟨byte, -, hbyte⟩ := List.mem_map.mp hvalue
  obtain rfl := PyObject.int.inj hbyte
  have hlt := byte.toNat_lt
  omega

/-- The goal `2 ^ 64 + 5` is no goal that `seek` reaches: it is taken for the goal `5`. -/
theorem not_reachesGoal_printedKey :
    UInt64.ofInt (2 ^ 64 + 5) = 5 ∧
      ¬ ReachesGoal sampleGcrypt sampleSscanf (SeekStack.filled 0) zeroList (2 ^ 64 + 5)
        printedKey := by
  refine ⟨by decide, ?_⟩
  have hseed := seekSeed_verificationKey convertsPrinted_sampleSscanf printedSeed.length_toList
    (SeekStack.filled 0).seed_length 0x1f0e7c2 0x2faf080
  rw [reachesGoal_iff_goalInReach encodeUtf8_printedKey hseed]
  rintro ((hencode | hzero | hother) | ⟨-, hgoal | hout⟩)
  · rw [encodeUtf8_printedKey] at hencode
    cases hencode
  · exact absurd hzero (by decide)
  · exact other_notMem_map_byteObject _ (List.mem_of_mem_take hother)
  · omega
  · exact not_hasOutOfRange_map_byteObject _ hout

end PythonSystemd.Fsprg
