import PythonSystemd.Fsprg.Python
import PythonSystemd.Fsprg.Seek

/-!
# What a verification key recovers

`setup_key` prints a verification key, and `parse_verification_key` decodes the seed from it
without loss (`decodeVerificationKey_verificationKey`). The seed then has to reach `FSPRG_GenMK`
and `FSPRG_Seek` through `seek`, and there only its first byte arrives: the parser returns the
first byte of its array where a pointer is declared, and `seek` stores that byte in an array whose
other eleven bytes nothing has set (`seekSeed_verificationKey`).

`keyRecovers_iff` says when `seek` works with the printed seed all the same: exactly when the
eleven bytes that lie on the stack are those of the seed. Then, and for distinct primes of 768
bits, seeking to a goal gives the list that as many calls of `evolve` give.
-/

set_option autoImplicit false
set_option relaxedAutoImplicit false

namespace PythonSystemd.Fsprg

open Library.CheckedMemory Python

/-! ### Digits -/

section Digits

variable {digit : ℕ}

theorem unhexchar_hexDigit (h : digit < 16) : unhexchar (hexDigit digit) = digit := by
  revert digit
  decide

theorem hexDigit_ne_dash (h : digit < 16) : hexDigit digit ≠ dash := by
  revert digit
  decide

/-- A digit is an ASCII character and not the one that ends a string. -/
theorem isAscii_hexDigit (h : digit < 16) : hexDigit digit ≠ 0 ∧ (hexDigit digit).toNat < 0x80 := by
  revert digit
  decide

/-- The two digits of a byte give the byte back. -/
theorem ofInt_halves (byte : UInt8) :
    UInt8.ofInt (((byte.toNat / 16 : ℕ) : ℤ) * 16 + ((byte.toNat % 16 : ℕ) : ℤ)) = byte := by
  have hlt := byte.toNat_lt
  have hjoin : ((((byte.toNat / 16 : ℕ) : ℤ) * 16 + ((byte.toNat % 16 : ℕ) : ℤ)) % 2 ^ 8).toNat =
      byte.toNat := by omega
  rw [UInt8.ofInt, hjoin, UInt8.ofNat_toNat]

end Digits

/-! ### Decoding what was printed -/

theorem skipDashes_of_ne {c : UInt8} (h : c ≠ dash) (k : List UInt8) :
    skipDashes (c :: k) = .ok (c :: k) := by
  rw [skipDashes, if_neg h]

/-- The parser reads back the bytes that the loop of `setup_key` has printed, wherever that loop
puts its dashes. -/
theorem parseSeed_printSeed (i : ℕ) (seed rest : List UInt8) :
    parseSeed seed.length (printSeed i seed ++ rest) = .ok (some (seed, rest)) := by
  induction seed generalizing i with
  | nil => rfl
  | cons byte seed ih =>
    have hhigh : byte.toNat / 16 < 16 := by
      have := byte.toNat_lt
      omega
    have hlow : byte.toNat % 16 < 16 := Nat.mod_lt _ (by norm_num)
    have hskip : skipDashes (printSeed i (byte :: seed) ++ rest) =
        .ok (hexDigit (byte.toNat / 16) :: hexDigit (byte.toNat % 16) ::
          (printSeed (i + 1) seed ++ rest)) := by
      have hdigit := skipDashes_of_ne (hexDigit_ne_dash hhigh)
        (hexDigit (byte.toNat % 16) :: (printSeed (i + 1) seed ++ rest))
      rw [printSeed, printByte]
      split_ifs with hgroup
      · simpa [skipDashes] using hdigit
      · simpa using hdigit
    simp only [List.length_cons, parseSeed, hskip, ok_bind, readChar, unhexchar_hexDigit hhigh,
      unhexchar_hexDigit hlow, if_neg (not_lt.mpr (Int.natCast_nonneg _)), ih, ofInt_halves,
      pure_eq_ok]

theorem exists_printLlx (value : UInt64) :
    ∃ digits : List ℕ, (∀ digit ∈ digits, digit < 16) ∧ printLlx value = digits.map hexDigit := by
  unfold printLlx
  split_ifs with hzero
  · exact ⟨[0], List.forall_mem_singleton.mpr (by norm_num), rfl⟩
  · refine ⟨(Nat.digits 16 value.toNat).reverse, fun digit hdigit ↦ ?_, List.map_reverse.symm⟩
    exact Nat.digits_lt_base (by norm_num) (List.mem_reverse.mp hdigit)

/-- The parser decodes a printed key to the printed seed. -/
theorem decodeVerificationKey_verificationKey {sscanf : Sscanf} (hsscanf : sscanf.ConvertsPrinted)
    {seed : List UInt8} (hseed : seed.length = fsprgRecommendedSeedlen) (start interval : UInt64) :
    decodeVerificationKey sscanf (verificationKey seed start interval ++ [0]) =
      .ok (some seed) := by
  have hparse := parseSeed_printSeed 0 seed
    (slash :: (printLlx start ++ dash :: (printLlx interval ++ [0])))
  have htext : verificationKey seed start interval ++ [0] =
      printSeed 0 seed ++ slash :: (printLlx start ++ dash :: (printLlx interval ++ [0])) := by
    simp only [verificationKey, List.append_assoc, List.cons_append]
  rw [hseed] at hparse
  rw [decodeVerificationKey, htext, hparse]
  simp only [ok_bind, readChar, hsscanf start interval, pure_eq_ok, ne_eq, not_true_eq_false,
    if_false]

/-- What `seek` works with for a key that the parser accepts: the first byte of the seed, and behind
it the bytes that lay on the stack. -/
theorem seekSeed_of_decode {sscanf : Sscanf} {seed stack key : List UInt8}
    (hseed : seed.length = fsprgRecommendedSeedlen)
    (hstack : stack.length = fsprgRecommendedSeedlen)
    (hdecode : decodeVerificationKey sscanf key = .ok (some seed)) :
    seekSeed sscanf stack key = .ok (seed.take 1 ++ stack.drop 1) := by
  have hpos : 0 < seed.length := by
    rw [hseed]
    decide
  obtain ⟨first, later, rfl⟩ := List.exists_cons_of_length_pos hpos
  have hfit : 0 + [first].length ≤ stack.length := by
    rw [hstack, List.length_singleton]
    decide
  simp only [seekSeed, parseVerificationKey, hdecode, ok_bind, cellAt_of_lt hpos,
    List.getElem_cons_zero, pure_eq_ok, UInt8.toUInt8_toUInt64]
  rw [writeAt, if_pos hfit]
  rfl

/-- What `seek` works with for a printed key. -/
theorem seekSeed_verificationKey {sscanf : Sscanf} (hsscanf : sscanf.ConvertsPrinted)
    {seed stack : List UInt8} (hseed : seed.length = fsprgRecommendedSeedlen)
    (hstack : stack.length = fsprgRecommendedSeedlen) (start interval : UInt64) :
    seekSeed sscanf stack (verificationKey seed start interval ++ [0]) =
      .ok (seed.take 1 ++ stack.drop 1) :=
  seekSeed_of_decode hseed hstack
    (decodeVerificationKey_verificationKey hsscanf hseed start interval)

/-- The printed seed arrives exactly when the bytes on the stack are its own. -/
theorem seekSeed_eq_iff {sscanf : Sscanf} (hsscanf : sscanf.ConvertsPrinted)
    {seed stack : List UInt8} (hseed : seed.length = fsprgRecommendedSeedlen)
    (hstack : stack.length = fsprgRecommendedSeedlen) (start interval : UInt64) :
    seekSeed sscanf stack (verificationKey seed start interval ++ [0]) = .ok seed ↔
      stack.drop 1 = seed.drop 1 := by
  rw [seekSeed_verificationKey hsscanf hseed hstack]
  constructor
  · intro h
    have hdrop := congrArg (List.drop 1) (Except.ok.inj h)
    have hone : (seed.take 1).length = 1 := by
      rw [List.length_take, hseed]
      rfl
    rwa [List.drop_append_of_le_length hone.ge, List.drop_eq_nil_of_le hone.le,
      List.nil_append] at hdrop
  · intro h
    rw [h, List.take_append_drop]

theorem isAscii_printSeed (i : ℕ) (seed : List UInt8) :
    ∀ c ∈ printSeed i seed, c ≠ 0 ∧ c.toNat < 0x80 := by
  induction seed generalizing i with
  | nil => exact List.forall_mem_nil _
  | cons byte seed ih =>
    have hhigh : byte.toNat / 16 < 16 := by
      have := byte.toNat_lt
      omega
    have hlow : byte.toNat % 16 < 16 := Nat.mod_lt _ (by norm_num)
    have hdash : ∀ c ∈ (if 0 < i ∧ i % 3 = 0 then [dash] else []),
        c ≠ 0 ∧ c.toNat < 0x80 := by
      split_ifs
      · exact List.forall_mem_singleton.mpr (by decide)
      · exact List.forall_mem_nil _
    have hbyte : ∀ c ∈ printByte byte, c ≠ 0 ∧ c.toNat < 0x80 :=
      List.forall_mem_cons.mpr ⟨isAscii_hexDigit hhigh,
        List.forall_mem_singleton.mpr (isAscii_hexDigit hlow)⟩
    unfold printSeed
    exact List.forall_mem_append.mpr ⟨List.forall_mem_append.mpr ⟨hdash, hbyte⟩, ih (i + 1)⟩

theorem isAscii_printLlx (value : UInt64) : ∀ c ∈ printLlx value, c ≠ 0 ∧ c.toNat < 0x80 := by
  obtain ⟨digits, hdigits, hprint⟩ := exists_printLlx value
  rw [hprint]
  intro c hc
  obtain ⟨digit, hdigit, rfl⟩ := List.mem_map.mp hc
  exact isAscii_hexDigit (hdigits digit hdigit)

/-- A printed key is a C string, of ASCII characters. -/
theorem isAscii_verificationKey (seed : List UInt8) (start interval : UInt64) :
    ∀ c ∈ verificationKey seed start interval, c ≠ 0 ∧ c.toNat < 0x80 := by
  unfold verificationKey
  refine List.forall_mem_append.mpr ⟨List.forall_mem_append.mpr ⟨isAscii_printSeed 0 seed, ?_⟩, ?_⟩
  · exact List.forall_mem_cons.mpr ⟨by decide, isAscii_printLlx start⟩
  · exact List.forall_mem_cons.mpr ⟨by decide, isAscii_printLlx interval⟩

/-- A printed key, as a string of Python. -/
def keyText (seed : List UInt8) (start interval : UInt64) : Text :=
  .ofAscii (verificationKey seed start interval)

theorem encodeUtf8_keyText (seed : List UInt8) (start interval : UInt64) :
    (keyText seed start interval).encodeUtf8 = some (verificationKey seed start interval) :=
  encodeUtf8_ofAscii fun c hc ↦ (isAscii_verificationKey seed start interval c hc).2

theorem parseCString_keyText (seed : List UInt8) (start interval : UInt64) :
    parseCString (keyText seed start interval) = .ok (verificationKey seed start interval) :=
  parseCString_of_encodeUtf8 (encodeUtf8_keyText seed start interval) fun hzero ↦
    (isAscii_verificationKey seed start interval 0 hzero).1 rfl

/-! ### Lists of bytes -/

theorem pyLongAsUnsignedLong_byteObject (byte : UInt8) :
    pyLongAsUnsignedLong (byteObject byte) = (UInt64.ofNat byte.toNat, none) := by
  have hlt : ((byte.toNat : ℕ) : ℤ) < 2 ^ 64 := by
    have := byte.toNat_lt
    norm_num
    omega
  rw [byteObject, pyLongAsUnsignedLong, if_pos ⟨Int.natCast_nonneg _, hlt⟩, Int.toNat_natCast]

theorem toUInt8_ofNat_toNat (byte : UInt8) : (UInt64.ofNat byte.toNat).toUInt8 = byte := by
  apply UInt8.toNat_inj.mp
  rw [UInt64.toNat_toUInt8, UInt64.toNat_ofNat']
  have := byte.toNat_lt
  omega

/-- A byte is stored and sets no exception. -/
theorem recoverState_byteObject (state : List UInt8) (i : ℕ) (byte : UInt8)
    (items : List PyObject) :
    recoverState state i none (byteObject byte :: items) = (do
      let state ← writeAt state i [byte]
      recoverState state (i + 1) none items) := by
  rw [recoverState, pyLongAsUnsignedLong_byteObject]
  simp only [toUInt8_ofNat_toNat, byteObject]
  rfl

/-- Copying a list of bytes of the right length fills the state array. -/
theorem recoverState_map_byteObject (copied : List UInt8) {array bytes : List UInt8}
    (hlength : array.length = bytes.length) :
    recoverState (copied ++ array) copied.length none (bytes.map byteObject) =
      .ok (.ok (copied ++ bytes, none)) := by
  induction bytes generalizing copied array with
  | nil =>
    obtain rfl := List.length_eq_zero_iff.mp hlength
    rfl
  | cons byte bytes ih =>
    obtain ⟨cell, array, rfl⟩ := List.exists_cons_of_length_eq_add_one hlength
    have hwrite := writeAt_cell copied array cell byte
    have hnext := ih (copied ++ [byte]) (Nat.succ.inj hlength)
    rw [List.length_append, List.length_singleton] at hnext
    rw [List.append_assoc copied [byte] bytes, List.singleton_append] at hnext
    rw [List.map_cons, recoverState_byteObject, hwrite, ok_bind, hnext]

/-- Copying fills any array of the right length. -/
theorem recoverState_bytes {array bytes : List UInt8} (hlength : array.length = bytes.length) :
    recoverState array 0 none (bytes.map byteObject) = .ok (.ok (bytes, none)) :=
  recoverState_map_byteObject [] hlength

/-! ### The functions of the module on a chain -/

section Chain

theorem isValidSecpar_recommended : IsValidSecpar fsprgRecommendedSecpar := by
  decide

/-- `setup_key` sizes its public key with `FSPRG_mskinbytes`, which is the same number. -/
theorem fsprgMskinbytes_recommended :
    fsprgMskinbytes fsprgRecommendedSecpar = fsprgMpkinbytes fsprgRecommendedSecpar := by
  decide

variable {gcrypt : Gcrypt} {sscanf : Sscanf} {seed : List UInt8}

/-- The state array of a call and the buffer of a state have the same length. -/
theorem length_encode (point : ForwardState fsprgRecommendedSecpar) {array : List UInt8}
    (harray : fsprgStateinbytes fsprgRecommendedSecpar = .ok array.length) :
    array.length = point.encode.length :=
  Except.ok.inj (harray.symm.trans (wellFormed_encode point).length_eq)

/-- `evolve` on a list of bytes is `FSPRG_Evolve` on these bytes. -/
theorem evolve_bytes (stack : StateStack) {bytes next : List UInt8}
    (hlength : stack.state.length = bytes.length) (hevolve : fsprgEvolve bytes = .ok next) :
    evolve stack (bytes.map byteObject) = .ok (.ok (next.map byteObject)) := by
  simp only [evolve, recoverState_bytes hlength, ok_bind, hevolve, pure_eq_ok,
    checkFunctionResult]

/-- `seek` on a list of bytes is `FSPRG_Seek` with the key that `FSPRG_GenMK` makes of the seed. -/
theorem seek_bytes (stack : SeekStack) {bytes key msk next : List UInt8} {goal : ℤ} {text : Text}
    (hkey : parseCString text = .ok key) (hlength : stack.state.length = bytes.length)
    (hseed : seekSeed sscanf stack.seed (key ++ [0]) = .ok seed)
    (hgen : fsprgGenMK gcrypt (some stack.msk) none (some seed) fsprgRecommendedSecpar =
      .ok (some msk, none))
    (hseek : fsprgSeek gcrypt bytes (UInt64.ofInt goal) msk seed = .ok next) :
    seek gcrypt sscanf stack (bytes.map byteObject) goal text =
      .ok (.ok (next.map byteObject)) := by
  simp only [seek, hkey, recoverState_bytes hlength, ok_bind, hseed, hgen,
    Option.getD_some, hseek, pure_eq_ok, checkFunctionResult]

/-- `setup_key` returns the list of the state that `FSPRG_GenState0` writes. -/
theorem setupKey_eq_ok (stack : SetupStack) (start interval : UInt64) {mpk state : List UInt8}
    (hgen : fsprgGenMK gcrypt none (some stack.mpk) (some seed) fsprgRecommendedSecpar =
      .ok (none, some mpk))
    (hstate : fsprgGenState0 gcrypt stack.state mpk seed = .ok state) :
    setupKey gcrypt stack seed start interval =
      .ok (setupProgress ++ verificationKey seed start interval ++ ['\n'.toUInt8],
        state.map byteObject) := by
  simp only [setupKey, hgen, ok_bind, Option.getD_some, hstate, pure_eq_ok]

/-- `evolve` on the list of a state gives the list of the next one. -/
theorem evolve_encode (stack : StateStack) (point : ForwardState fsprgRecommendedSecpar) :
    evolve stack (point.encode.map byteObject) =
      .ok (.ok (point.evolve.encode.map byteObject)) :=
  evolve_bytes stack (length_encode point stack.state_length) point.fsprgEvolve_encode

theorem evolveListTimes_encode (arrays : ℕ → StateStack)
    (point : ForwardState fsprgRecommendedSecpar) (count : ℕ) :
    evolveListTimes arrays count (point.encode.map byteObject) =
      .ok (.ok ((point.after count).encode.map byteObject)) := by
  induction count with
  | zero => rw [evolveListTimes, point.after_zero]
  | succ count ih =>
    simp only [evolveListTimes, ih, ok_bind]
    rw [evolve_encode, point.after_succ]

/-- Primes that the searches of `FSPRG_GenMK` find, of exactly half the parameter's bits. -/
theorem exists_masterPrimes_of_size {secpar : ℕ} (h : IsValidSecpar secpar) {p q : ℕ}
    (hp : genprime3mod4 gcrypt (secpar / 2) seed rndGenP = .ok p)
    (hq : genprime3mod4 gcrypt (secpar / 2) seed rndGenQ = .ok q)
    (hsizeP : gcryMpiGetNbits p = secpar / 2) (hsizeQ : gcryMpiGetNbits q = secpar / 2) :
    ∃ primes : MasterPrimes secpar, primes.p = p ∧ primes.q = q ∧
      ∀ msk mpk : Option (List UInt8),
        (∀ buffer ∈ msk, fsprgMskinbytes secpar = .ok buffer.length) →
        (∀ buffer ∈ mpk, fsprgMpkinbytes secpar = .ok buffer.length) →
        fsprgGenMK gcrypt msk mpk (some seed) secpar =
          .ok (msk.map fun _ ↦ mskBytes secpar primes.p primes.q,
            mpk.map fun _ ↦ mpkBytes secpar primes.n) := by
  rw [genprime3mod4_eq_masterPrime h] at hp hq
  obtain rfl := Except.ok.inj hp
  obtain rfl := Except.ok.inj hq
  have hltP := Nat.size_le.mp hsizeP.le
  have hltQ := Nat.size_le.mp hsizeQ.le
  refine ⟨masterPrimes h gcrypt seed hltP hltQ, rfl, rfl, fun msk mpk hmsk hmpk ↦ ?_⟩
  exact fsprgGenMK_eq_ok h (fun buffer hbuffer ↦ h.length_msk (hmsk buffer hbuffer))
    (fun buffer hbuffer ↦ h.length_mpk (hmpk buffer hbuffer)) hltP hltQ

theorem toNat_ofInt_natCast {goal : ℕ} (h : goal < 2 ^ 63) :
    (UInt64.ofInt (goal : ℤ)).toNat = goal := by
  have hgoal := toNat_ofInt (goal : ℤ)
  omega

/-- The printed key makes `seek` work with the printed seed; and if the primes of that seed are
distinct and of the right size, `seek` from the list of `setup_key` gives for every goal the list
that as many calls of `evolve` give. -/
def KeyRecovers (gcrypt : Gcrypt) (sscanf : Sscanf) (seed : List UInt8) (start interval : UInt64)
    (setupStack : SetupStack) (seekStack : SeekStack) : Prop :=
  seekSeed sscanf seekStack.seed (verificationKey seed start interval ++ [0]) = .ok seed ∧
  ∀ printed s0 p q, setupKey gcrypt setupStack seed start interval = .ok (printed, s0) →
    genprime3mod4 gcrypt (fsprgRecommendedSecpar / 2) seed rndGenP = .ok p →
    genprime3mod4 gcrypt (fsprgRecommendedSecpar / 2) seed rndGenQ = .ok q →
    p ≠ q → gcryMpiGetNbits p = 768 → gcryMpiGetNbits q = 768 →
    ∀ goal < 2 ^ 63, ∀ arrays, ∃ list,
      seek gcrypt sscanf seekStack s0 (goal : ℕ) (keyText seed start interval) =
        .ok (.ok list) ∧
      evolveListTimes arrays goal s0 = .ok (.ok list)

/-- With the right bytes on the stack the whole chain is recovered. -/
theorem exists_seek_eq_evolveListTimes {start interval : UInt64} {setupStack : SetupStack}
    {seekStack : SeekStack}
    (hseed : seekSeed sscanf seekStack.seed (verificationKey seed start interval ++ [0]) =
      .ok seed) (printed : List UInt8) (s0 : List PyObject) (p q : ℕ)
    (hsetup : setupKey gcrypt setupStack seed start interval = .ok (printed, s0))
    (hp : genprime3mod4 gcrypt (fsprgRecommendedSecpar / 2) seed rndGenP = .ok p)
    (hq : genprime3mod4 gcrypt (fsprgRecommendedSecpar / 2) seed rndGenQ = .ok q)
    (hne : p ≠ q) (hsizeP : gcryMpiGetNbits p = 768) (hsizeQ : gcryMpiGetNbits q = 768)
    (goal : ℕ) (hgoal : goal < 2 ^ 63) (arrays : ℕ → StateStack) :
    ∃ list, seek gcrypt sscanf seekStack s0 (goal : ℕ) (keyText seed start interval) =
        .ok (.ok list) ∧ evolveListTimes arrays goal s0 = .ok (.ok list) := by
  have hvalid := isValidSecpar_recommended
  obtain ⟨primes, rfl, rfl, hgen⟩ := exists_masterPrimes_of_size hvalid hp hq hsizeP hsizeQ
  have hgenMpk := hgen none (some setupStack.mpk) (by simp) (by
    intro buffer hbuffer
    obtain rfl := Option.mem_some.mp hbuffer
    rw [← fsprgMskinbytes_recommended]
    exact setupStack.mpk_length)
  have hgenMsk := hgen (some seekStack.msk) none (by
    intro buffer hbuffer
    obtain rfl := Option.mem_some.mp hbuffer
    exact seekStack.msk_length) (by simp)
  have hstate0 := fsprgGenState0_eq_state0 primes hvalid gcrypt
    (hvalid.length_state setupStack.state_length) seed
  have hlist := setupKey_eq_ok setupStack start interval hgenMpk hstate0
  obtain ⟨-, rfl⟩ := Prod.ext_iff.mp (Except.ok.inj (hsetup.symm.trans hlist))
  set point := primes.state0 hvalid gcrypt seed
  refine ⟨(point.after goal).encode.map byteObject, ?_, evolveListTimes_encode arrays point goal⟩
  have hepoch := toNat_ofInt_natCast hgoal
  have hseek : fsprgSeek gcrypt point.encode (UInt64.ofInt (goal : ℤ))
      (mskBytes fsprgRecommendedSecpar primes.p primes.q) seed = .ok (point.after goal).encode := by
    rw [fsprgSeek_eq_after primes hvalid hne (hepoch.trans_lt hgoal)
      (hvalid.length_state (wellFormed_encode point).length_eq) seed, hepoch]
  exact seek_bytes seekStack (parseCString_keyText seed start interval)
    (length_encode point seekStack.state_length) hseed hgenMsk hseek

end Chain

/-! ### When the key recovers the chain -/

/-- A stack on which every byte of the arrays of `seek` is `byte`. -/
def SeekStack.filled (byte : UInt8) : SeekStack where
  state := List.replicate 394 byte
  state_length := by rw [List.length_replicate]; decide
  seed := List.replicate 12 byte
  seed_length := List.length_replicate
  msk := List.replicate 194 byte
  msk_length := by rw [List.length_replicate]; decide

/-- A printed key recovers its chain exactly when the eleven bytes that `seek` leaves unset are
those of the seed; so for no key does it do so whatever the stack holds. -/
theorem keyRecovers_iff (gcrypt : Gcrypt) {sscanf : Sscanf} (hsscanf : sscanf.ConvertsPrinted)
    (seed : Vector UInt8 12) (start interval : UInt64) (setupStack : SetupStack) :
    (∀ seekStack : SeekStack,
      KeyRecovers gcrypt sscanf seed.toList start interval setupStack seekStack ↔
        seekStack.seed.drop 1 = seed.toList.drop 1) ∧
    ¬ ∀ seekStack : SeekStack,
      KeyRecovers gcrypt sscanf seed.toList start interval setupStack seekStack := by
  have hseed : seed.toList.length = fsprgRecommendedSeedlen := seed.length_toList
  have hiff : ∀ seekStack : SeekStack,
      KeyRecovers gcrypt sscanf seed.toList start interval setupStack seekStack ↔
        seekStack.seed.drop 1 = seed.toList.drop 1 := by
    intro seekStack
    rw [← seekSeed_eq_iff hsscanf hseed seekStack.seed_length start interval]
    exact ⟨And.left, fun h ↦ ⟨h, exists_seek_eq_evolveListTimes h⟩⟩
  refine ⟨hiff, fun hall ↦ ?_⟩
  -- Two stacks that differ behind the first byte cannot both hold the seed.
  have hzeros := (hiff (SeekStack.filled 0)).mp (hall _)
  have hones := (hiff (SeekStack.filled 1)).mp (hall _)
  have hsame := hzeros.trans hones.symm
  revert hsame
  decide

/-- An `sscanf` that converts two numbers where there is a dash. -/
def sampleSscanf : Sscanf := fun k ↦
  if dash ∈ k then 2 else 1

theorem convertsPrinted_sampleSscanf : sampleSscanf.ConvertsPrinted :=
  fun _ _ ↦ if_pos (List.mem_append_right _ List.mem_cons_self)

/-- The seed of a printed key. -/
def printedSeed : Vector UInt8 12 :=
  #v[0xa8, 0x3e, 0x8b, 0x5d, 0x79, 0x2f, 0xe8, 0xa1, 0x18, 0x6a, 0x47, 0xcb]

def SetupStack.zeros : SetupStack where
  mpk := List.replicate 194 0
  mpk_length := by rw [List.length_replicate]; decide
  state := List.replicate 394 0
  state_length := by rw [List.length_replicate]; decide

/-- A stack that happens to hold the seed. -/
def SeekStack.holdingSeed : SeekStack :=
  { SeekStack.filled 0 with
    seed := printedSeed.toList
    seed_length := rfl }

theorem keyRecovers_printedSeed :
    KeyRecovers sampleGcrypt sampleSscanf printedSeed.toList 0x1f0e7c2 0x2faf080 SetupStack.zeros
      SeekStack.holdingSeed :=
  ((keyRecovers_iff sampleGcrypt convertsPrinted_sampleSscanf printedSeed 0x1f0e7c2 0x2faf080
    SetupStack.zeros).1 SeekStack.holdingSeed).mpr rfl

/-- The key `a83e8b-5d792f-e8a118-6a47cb/1f0e7c2-2faf080` on a stack of zeros: the generator is
seeded with its first byte and eleven zeros. -/
theorem not_keyRecovers_printedSeed :
    seekSeed sampleSscanf (SeekStack.filled 0).seed
        (verificationKey printedSeed.toList 0x1f0e7c2 0x2faf080 ++ [0]) =
        .ok [0xa8, 0, 0, 0, 0, 0, 0, 0, 0, 0, 0, 0] ∧
      ¬ KeyRecovers sampleGcrypt sampleSscanf printedSeed.toList 0x1f0e7c2 0x2faf080
        SetupStack.zeros (SeekStack.filled 0) := by
  have hrun := seekSeed_verificationKey convertsPrinted_sampleSscanf printedSeed.length_toList
    (SeekStack.filled 0).seed_length 0x1f0e7c2 0x2faf080
  refine ⟨hrun, fun h ↦ ?_⟩
  have hsame := Except.ok.inj (hrun.symm.trans h.1)
  revert hsame
  decide

example : verificationKey printedSeed.toList 0x1f0e7c2 0x2faf080 =
    "a83e8b-5d792f-e8a118-6a47cb/1f0e7c2-2faf080".toList.map Char.toUInt8 := by
  decide

end PythonSystemd.Fsprg
