import PythonSystemd.Fsprg.StateLists

/-!
# States with arbitrary contents

`FSPRG_Evolve`, `FSPRG_GetEpoch` and `FSPRG_GetKey` find the fields of a state by the parameter in
its header, and nothing checks that header or the modulus behind it. Every buffer that is large
enough for what its header announces is a `CutState` (`exists_cutState`), whatever its contents.

The wrappers have a buffer of 394 bytes, the size for the parameter 1536. `contentsHandled_iff` says
which contents are handled within it.
-/

set_option autoImplicit false
set_option relaxedAutoImplicit false

namespace PythonSystemd.Fsprg

open Library.BigEndian Library.CheckedMemory

/-! ### Headers -/

/-- The parameter that two header bytes announce. The sum wraps in 16 bits. -/
def headerSecpar (b0 b1 : UInt8) : ℕ :=
  16 * (256 * b0.toNat + b1.toNat + 1) % 2 ^ 16

theorem toNat_joinBytes (b0 b1 : UInt8) :
    (b0.toUInt16 <<< 8 ||| b1.toUInt16 <<< 0).toNat = 256 * b0.toNat + b1.toNat := by
  have hb0 := b0.toNat_lt
  have hb1 := b1.toNat_lt
  have height : (8 : UInt16).toNat = 8 := rfl
  have hzero : (0 : UInt16).toNat = 0 := rfl
  have hhigh : b0.toNat <<< (8 % 16) % 2 ^ 16 = 2 ^ 8 * b0.toNat := by
    norm_num [Nat.shiftLeft_eq]
    omega
  have hlow : b1.toNat <<< (0 % 16) % 2 ^ 16 = b1.toNat :=
    Nat.mod_eq_of_lt (hb1.trans (by norm_num))
  rw [UInt16.toNat_or, UInt16.toNat_shiftLeft, UInt16.toNat_shiftLeft, UInt8.toNat_toUInt16,
    UInt8.toNat_toUInt16, height, hzero, hhigh, hlow, ← Nat.two_pow_add_eq_or_of_lt hb1]

/-- Any two bytes are read as a header. -/
theorem exists_readSecpar (b0 b1 : UInt8) :
    ∃ secpar : UInt16, secpar.toNat = headerSecpar b0 b1 ∧
      ∀ rest, readSecpar (b0 :: b1 :: rest) 0 = .ok secpar := by
  refine ⟨(16 : UInt16) * ((b0.toUInt16 <<< 8 ||| b1.toUInt16 <<< 0) + 1), ?_, fun rest ↦ ?_⟩
  · have hsixteen : (16 : UInt16).toNat = 16 := rfl
    rw [UInt16.toNat_mul, UInt16.toNat_add, toNat_joinBytes, hsixteen, UInt16.toNat_one,
      headerSecpar]
    omega
  · simp only [readSecpar, cellAt, List.getElem?_cons_zero, ok_bind, Nat.zero_add,
      List.getElem?_cons_succ, pure_eq_ok]

theorem headerSecpar_mod (b0 b1 : UInt8) : headerSecpar b0 b1 % 16 = 0 := by
  unfold headerSecpar
  omega

/-! ### Cutting a buffer -/

/-- A buffer with room for what its header announces is a cut state. -/
theorem exists_cutState {b0 b1 : UInt8} {rest : List UInt8}
    (hroom : 2 + 2 * headerSecpar b0 b1 / 8 + 8 ≤ (b0 :: b1 :: rest).length) :
    ∃ cut : CutState, cut.bytes = b0 :: b1 :: rest ∧ cut.secpar.toNat = headerSecpar b0 b1 ∧
      cut.fieldN = rest.take (headerSecpar b0 b1 / 8) := by
  obtain ⟨secpar, hsecpar, hread⟩ := exists_readSecpar b0 b1
  have hmod := headerSecpar_mod b0 b1
  have hfields : 2 + headerSecpar b0 b1 / 8 + headerSecpar b0 b1 / 8 + 8 ≤
      (b0 :: b1 :: rest).length := by omega
  obtain ⟨header, fieldN, fieldX, fieldEpoch, tail, hbytes, hheader, hfieldN, hfieldX,
    hfieldEpoch⟩ := exists_state_fields_and_rest hfields
  have hsplit : [b0, b1] ++ rest = header ++ (fieldN ++ (fieldX ++ fieldEpoch ++ tail)) := by
    simpa only [List.append_assoc, List.cons_append, List.nil_append] using hbytes
  obtain ⟨rfl, hrest⟩ := List.append_inj hsplit hheader.symm
  refine ⟨⟨secpar, [b0, b1], fieldN, fieldX, fieldEpoch, tail, hsecpar ▸ hmod, rfl,
    fun rest ↦ hread rest, hsecpar ▸ hfieldN, hsecpar ▸ hfieldX, hfieldEpoch⟩, hbytes.symm,
    hsecpar, ?_⟩
  rw [hrest, ← hfieldN, List.take_left]

/-! ### Arbitrary lists of bytes -/

/-- The buffer `next` is `state` one step on. -/
structure Advances (state next : List UInt8) : Prop where
  length_eq : next.length = state.length
  header_eq : readAt next 0 2 = readAt state 0 2
  fields : ∃ secpar n x epoch, readSecpar state 0 = .ok secpar ∧
    mpiImport state 2 (secpar.toNat / 8) = .ok n ∧
    readAt next 2 (secpar.toNat / 8) = readAt state 2 (secpar.toNat / 8) ∧
    mpiImport state (2 + 1 * secpar.toNat / 8) (secpar.toNat / 8) = .ok x ∧
    mpiImport next (2 + 1 * secpar.toNat / 8) (secpar.toNat / 8) = .ok (x * x % n) ∧
    fsprgGetEpoch state = .ok epoch ∧ fsprgGetEpoch next = .ok (epoch + 1)

/-- Nothing goes wrong in C for the list of these bytes, and `evolve` raises or goes one step on. -/
structure ContentsHandled (gcrypt : Gcrypt) (bytes : List UInt8) : Prop where
  evolve_handled : ∀ stack,
    (∃ exception, evolve stack (bytes.map byteObject) = .ok (.error exception)) ∨
      ∃ next, evolve stack (bytes.map byteObject) = .ok (.ok (next.map byteObject)) ∧
        Advances bytes next
  get_epoch_handled : ∀ stack, ∃ outcome, getEpoch stack (bytes.map byteObject) = .ok outcome
  get_key_handled : ∀ stack, ∃ outcome, getKey gcrypt stack (bytes.map byteObject) = .ok outcome

/-- The header announces no more than the recommended parameter, and the modulus behind it is not
zero. -/
def HoldsModulus (bytes : List UInt8) : Prop :=
  ∃ b0 b1 rest, bytes = b0 :: b1 :: rest ∧ headerSecpar b0 b1 ≤ fsprgRecommendedSecpar ∧
    ∃ byte ∈ rest.take (headerSecpar b0 b1 / 8), byte ≠ 0

theorem CutState.advances (cut : CutState) (hpos : 0 < cut.n) :
    Advances cut.bytes cut.evolve.bytes where
  length_eq := cut.length_evolve
  header_eq := cut.evolve.readAt_bytes_header.trans cut.readAt_bytes_header.symm
  fields := ⟨cut.secpar, cut.n, cut.x, cut.epoch, cut.readSecpar_bytes, cut.mpiImport_bytes_n,
    cut.evolve.readAt_bytes_n.trans cut.readAt_bytes_n.symm, cut.mpiImport_bytes_x,
    cut.x_evolve hpos ▸ cut.evolve.mpiImport_bytes_x, cut.fsprgGetEpoch_bytes,
    cut.epoch_evolve ▸ cut.evolve.fsprgGetEpoch_bytes⟩

section Contents

variable {gcrypt : Gcrypt} {bytes : List UInt8}

/-- A header that announces more than the recommended parameter makes `FSPRG_GetKey` read behind
the buffer. -/
theorem fsprgGetKey_eq_error {b0 b1 : UInt8} {rest : List UInt8} (key : List UInt8) (idx : UInt32)
    (hroom : (b0 :: b1 :: rest).length < 2 + (2 * headerSecpar b0 b1 / 8 + 8)) :
    fsprgGetKey gcrypt (b0 :: b1 :: rest) key idx = .error .outOfBounds := by
  obtain ⟨secpar, hsecpar, hread⟩ := exists_readSecpar b0 b1
  have hbehind : readAt (b0 :: b1 :: rest) 2 (2 * secpar.toNat / 8 + 8) = .error .outOfBounds :=
    if_neg (by omega)
  simp only [fsprgGetKey, hread, ok_bind, hbehind, error_bind]

theorem exists_header (hbytes : fsprgStateinbytes fsprgRecommendedSecpar = .ok bytes.length) :
    ∃ b0 b1 rest, bytes = b0 :: b1 :: rest := by
  obtain ⟨b0, tail, rfl⟩ := List.exists_cons_of_length_eq_add_one (length_stateArray hbytes)
  obtain ⟨b1, rest, rfl⟩ :=
    List.exists_cons_of_length_eq_add_one (Nat.succ.inj (length_stateArray hbytes))
  exact ⟨b0, b1, rest, rfl⟩

/-- A header for the recommended parameter or less leaves room for its fields. -/
theorem room_of_le {b0 b1 : UInt8} {rest : List UInt8}
    (hbytes : fsprgStateinbytes fsprgRecommendedSecpar = .ok (b0 :: b1 :: rest).length)
    (hsecpar : headerSecpar b0 b1 ≤ fsprgRecommendedSecpar) :
    2 + 2 * headerSecpar b0 b1 / 8 + 8 ≤ (b0 :: b1 :: rest).length := by
  have hlength := length_stateArray hbytes
  have hrecommended : fsprgRecommendedSecpar = 1536 := rfl
  omega

/-- Handled contents are those of a state that holds a modulus. -/
theorem holdsModulus_of_contentsHandled
    (hbytes : fsprgStateinbytes fsprgRecommendedSecpar = .ok bytes.length)
    (hhandled : ContentsHandled gcrypt bytes) : HoldsModulus bytes := by
  obtain ⟨b0, b1, rest, rfl⟩ := exists_header hbytes
  have hsecpar : headerSecpar b0 b1 ≤ fsprgRecommendedSecpar := by
    by_contra hlarge
    have hlength := length_stateArray hbytes
    have hmod := headerSecpar_mod b0 b1
    have hrecommended : fsprgRecommendedSecpar = 1536 := rfl
    obtain ⟨outcome, hkey⟩ := hhandled.get_key_handled (StateStack.filled 0)
    rw [getKey_map_byteObject _ hbytes, fsprgGetKey_eq_error _ _ (by omega), error_bind] at hkey
    cases hkey
  obtain ⟨cut, hcut, -, hfieldN⟩ := exists_cutState (room_of_le hbytes hsecpar)
  refine ⟨b0, b1, rest, rfl, hsecpar, ?_⟩
  by_contra hzero
  push Not at hzero
  have hevolve := cut.fsprgEvolve_bytes_of_zero (ofBytes_eq_zero_iff.mpr (hfieldN ▸ hzero))
  rcases hhandled.evolve_handled (StateStack.filled 0) with ⟨exception, hrun⟩ | ⟨next, hrun, -⟩
  all_goals
    rw [evolve_map_byteObject _ hbytes, ← hcut, hevolve, error_bind] at hrun
    cases hrun

/-- With a modulus the fields are in the buffer and the square is reduced. -/
theorem contentsHandled_of_holdsModulus
    (hbytes : fsprgStateinbytes fsprgRecommendedSecpar = .ok bytes.length)
    (hholds : HoldsModulus bytes) : ContentsHandled gcrypt bytes := by
  obtain ⟨b0, b1, rest, rfl, hsecpar, byte, hbyte, hne⟩ := hholds
  obtain ⟨cut, hcut, -, hfieldN⟩ := exists_cutState (room_of_le hbytes hsecpar)
  have hpos : 0 < cut.n := by
    refine Nat.pos_of_ne_zero fun hzero ↦ hne ?_
    exact ofBytes_eq_zero_iff.mp hzero byte (hfieldN ▸ hbyte)
  rw [← hcut] at hbytes ⊢
  exact {
    evolve_handled := fun stack ↦ by
      refine Or.inr ⟨cut.evolve.bytes, ?_, cut.advances hpos⟩
      rw [evolve_map_byteObject _ hbytes, cut.fsprgEvolve_bytes hpos, ok_bind]
    get_epoch_handled := fun stack ↦ by
      rw [getEpoch_map_byteObject _ hbytes, cut.fsprgGetEpoch_bytes, ok_bind]
      exact ⟨_, rfl⟩
    get_key_handled := fun stack ↦ by
      rw [getKey_map_byteObject _ hbytes, cut.fsprgGetKey_bytes, ok_bind]
      exact ⟨_, rfl⟩ }

/-- The contents of a state are handled within its buffer exactly when the header announces no more
than the buffer has and the modulus is not zero. -/
theorem contentsHandled_iff (gcrypt : Gcrypt)
    (hbytes : fsprgStateinbytes fsprgRecommendedSecpar = .ok bytes.length) :
    ContentsHandled gcrypt bytes ↔ HoldsModulus bytes :=
  ⟨holdsModulus_of_contentsHandled hbytes, contentsHandled_of_holdsModulus hbytes⟩

theorem length_filledList (byte : UInt8) :
    fsprgStateinbytes fsprgRecommendedSecpar = .ok (List.replicate 394 byte).length :=
  (StateStack.filled byte).state_length

/-- A modulus of ones behind the header for the recommended parameter. -/
theorem contentsHandled_iff_ones :
    ContentsHandled sampleGcrypt (0x00 :: 0x5f :: List.replicate 392 1) := by
  have hbytes : fsprgStateinbytes fsprgRecommendedSecpar =
      .ok (0x00 :: 0x5f :: List.replicate 392 (1 : UInt8)).length := by
    rw [List.length_cons, List.length_cons, List.length_replicate]
    decide
  refine (contentsHandled_iff sampleGcrypt hbytes).mpr ⟨0x00, 0x5f, _, rfl, by decide, 1, ?_, ?_⟩
  · rw [List.take_replicate]
    exact List.mem_replicate.mpr ⟨by decide, rfl⟩
  · decide

/-- On a list of zeros `evolve` reduces modulo zero. -/
theorem not_contentsHandled_zeros : ¬ ContentsHandled sampleGcrypt (List.replicate 394 0) := by
  intro hhandled
  obtain ⟨b0, b1, rest, hcons, -, byte, hbyte, hne⟩ :=
    holdsModulus_of_contentsHandled (length_filledList 0) hhandled
  have hmem : byte ∈ List.replicate 394 (0 : UInt8) := by
    rw [hcons]
    exact List.mem_cons_of_mem _ (List.mem_cons_of_mem _ (List.mem_of_mem_take hbyte))
  exact hne (List.eq_of_mem_replicate hmem)

end Contents

end PythonSystemd.Fsprg
