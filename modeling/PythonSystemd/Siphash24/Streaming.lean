import PythonSystemd.Siphash24.Code

/-!
# Streaming SipHash is exact

`Represents key message state` says what a `struct siphash` knows of the bytes it has been given:
the full words are absorbed, the padding is the little-endian value of the pending bytes and the
length is counted modulo `2 ^ 64`. `siphash24Init_represents` establishes it,
`siphash24Compress_represents` keeps it for a chunk of any length, and `siphash24Finalize_eq`
turns it into the hash, so the value does not depend on where the message was cut
(`siphash24_streaming`).
-/

set_option autoImplicit false
set_option relaxedAutoImplicit false

namespace PythonSystemd.Siphash24

open Library.BlockStream Library.CheckedMemory Library.WordBytes

/-! ### Rounds -/

namespace Siphash

/-- The words of a `struct siphash`. -/
def words (state : Siphash) : SipWords :=
  ⟨state.v0.toBitVec, state.v1.toBitVec, state.v2.toBitVec, state.v3.toBitVec⟩

/-- A `struct siphash` with other words. -/
def withWords (state : Siphash) (v : SipWords) : Siphash :=
  { state with
    v0 := .ofBitVec v.v0
    v1 := .ofBitVec v.v1
    v2 := .ofBitVec v.v2
    v3 := .ofBitVec v.v3 }

variable (state : Siphash) (v : SipWords)

theorem withWords_words : state.withWords state.words = state :=
  rfl

@[simp] theorem padding_withWords : (state.withWords v).padding = state.padding :=
  rfl

@[simp] theorem inlen_withWords : (state.withWords v).inlen = state.inlen :=
  rfl

end Siphash

/-- `rotate_left` by a positive number of bits is the rotation. -/
theorem rotateLeft_eq (x : UInt64) {b : UInt8} (hpos : b ≠ 0) (hlt : b < 64) :
    rotateLeft x b = .ok (.ofBitVec (x.toBitVec.rotateLeft b.toNat)) := by
  have hltNat : b.toNat < 64 := UInt8.lt_iff_toNat_lt.mp hlt
  have hposNat : b.toNat ≠ 0 := fun hzero ↦ hpos (UInt8.toNat_inj.mp hzero)
  have hleft : (b.toUInt64.toBitVec % 64).toNat = b.toNat % 64 := by
    rw [BitVec.toNat_umod, UInt64.toNat_toBitVec, UInt8.toNat_toUInt64]
    rfl
  have hright : ((64 - b.toUInt64).toBitVec % 64).toNat = 64 - b.toNat % 64 := by
    rw [BitVec.toNat_umod, UInt64.toNat_toBitVec, UInt64.toNat_sub, UInt8.toNat_toUInt64]
    change (2 ^ 64 - b.toNat + 64) % 2 ^ 64 % 64 = 64 - b.toNat % 64
    omega
  rw [rotateLeft, assert_of hlt, ok_bind, if_neg hpos, pure_eq_ok]
  refine congrArg Except.ok (UInt64.toBitVec_inj.mp ?_)
  rw [UInt64.toBitVec_or, UInt64.toBitVec_shiftLeft, UInt64.toBitVec_shiftRight,
    BitVec.shiftLeft_eq', BitVec.ushiftRight_eq', hleft, hright, BitVec.rotateLeft_def]

theorem sipround_eq (state : Siphash) :
    sipround state = .ok (state.withWords (sipRound state.words)) := by
  simp only [sipround, rotateLeft_eq _ (by decide : (13 : UInt8) ≠ 0) (by decide),
    rotateLeft_eq _ (by decide : (32 : UInt8) ≠ 0) (by decide),
    rotateLeft_eq _ (by decide : (16 : UInt8) ≠ 0) (by decide),
    rotateLeft_eq _ (by decide : (21 : UInt8) ≠ 0) (by decide),
    rotateLeft_eq _ (by decide : (17 : UInt8) ≠ 0) (by decide), ok_bind, pure_eq_ok]
  rfl

theorem compressWord_eq (state : Siphash) (m : UInt64) :
    compressWord state m = .ok (state.withWords (absorbWord state.words m.toBitVec)) := by
  simp only [compressWord, sipround_eq, ok_bind, pure_eq_ok]
  rfl

/-! ### The pending word -/

/-- A word whose value is that of a byte string of fewer than eight bytes, with one more byte. -/
theorem or_byte_ofBytesLE {padding : UInt64} {filled : List UInt8} (hlength : filled.length < 8)
    (hpadding : padding.toNat = ofBytesLE filled) (byte : UInt8) :
    (padding ||| byte.toUInt64 <<< UInt64.ofNat (filled.length * 8)).toNat =
      ofBytesLE (filled ++ [byte]) := by
  have hshift : (UInt64.ofNat (filled.length * 8)).toNat = filled.length * 8 :=
    UInt64.toNat_ofNat_of_lt' (by norm_num; omega)
  have hpow : 2 ^ (filled.length * 8) = 256 ^ filled.length := by
    rw [Nat.mul_comm, pow_mul]
    norm_num
  have hlow : padding.toNat < 2 ^ (filled.length * 8) := by
    rw [hpadding, hpow]
    exact ofBytesLE_lt filled
  rw [or_byte_above byte _ hshift (by omega) hlow, hpadding, hpow, ofBytesLE_concat]

/-- The filling loop takes as many bytes as are missing from the pending word, or all there are. -/
theorem fillPadding_eq (before rest filled : List UInt8) {padding : UInt64}
    (hlength : filled.length ≤ 8) (hpadding : padding.toNat = ofBytesLE filled) :
    ∃ padding', fillPadding (before ++ rest) (before ++ rest).length before.length filled.length
        padding = .ok (before.length + (rest.take (8 - filled.length)).length,
          filled.length + (rest.take (8 - filled.length)).length, padding') ∧
      padding'.toNat = ofBytesLE (filled ++ rest.take (8 - filled.length)) := by
  induction rest generalizing before filled padding with
  | nil =>
    refine ⟨padding, ?_, by simpa using hpadding⟩
    rw [fillPadding, if_neg (by simp), List.take_nil, List.length_nil, Nat.add_zero, Nat.add_zero]
  | cons byte rest ih =>
    by_cases hfull : filled.length < 8
    · have hnext := or_byte_ofBytesLE hfull hpadding byte
      obtain ⟨padding', hrun, hvalue⟩ := ih (before ++ [byte]) (filled ++ [byte])
        (by rw [List.length_append, List.length_singleton]; omega) hnext
      have htake : (byte :: rest).take (8 - filled.length) =
          byte :: rest.take (8 - (filled ++ [byte]).length) := by
        rw [List.length_append, List.length_singleton, ← List.take_succ_cons]
        congr 1
        omega
      refine ⟨padding', ?_, by rw [htake, ← hvalue.symm]; simp⟩
      rw [fillPadding, if_pos ⟨by simp, hfull⟩, cellAt_append _ _ _ rfl, ok_bind, htake]
      simp only [List.append_assoc, List.singleton_append, List.length_append, List.length_cons,
        List.length_nil, Nat.zero_add, Nat.add_assoc, Nat.add_comm 1] at hrun ⊢
      exact hrun
    · have hdone : 8 - filled.length = 0 := by omega
      refine ⟨padding, ?_, by simpa [hdone] using hpadding⟩
      rw [fillPadding, if_neg (by omega), hdone, List.take_zero, List.length_nil, Nat.add_zero,
        Nat.add_zero]

/-- The fallthrough cases put the bytes that are left into the free lower part of the word. -/
theorem fillTail_eq (before bytes after : List UInt8) {padding : UInt64} {value : ℕ}
    (hlength : bytes.length ≤ 7) (hpadding : padding.toNat = value * 2 ^ (bytes.length * 8)) :
    ∃ padding', fillTail (before ++ bytes ++ after) before.length bytes.length padding =
        .ok padding' ∧
      padding'.toNat = value * 2 ^ (bytes.length * 8) + ofBytesLE bytes := by
  induction bytes using List.reverseRecOn generalizing after padding value with
  | nil => exact ⟨padding, rfl, by simpa using hpadding⟩
  | append_singleton bytes last ih =>
    rw [List.length_append, List.length_singleton] at hlength hpadding ⊢
    have hshift : (UInt64.ofNat (bytes.length * 8)).toNat = bytes.length * 8 :=
      UInt64.toNat_ofNat_of_lt' (by norm_num; omega)
    have hnext := or_byte last _ hshift (by omega)
      (hpadding.trans (by rw [Nat.succ_mul] : _ = value * 2 ^ (bytes.length * 8 + 8)))
    obtain ⟨padding', hrun, hvalue⟩ := ih (last :: after) (by omega) hnext
    refine ⟨padding', ?_, ?_⟩
    · rw [fillTail, ← hrun]
      have hcell : cellAt (before ++ (bytes ++ [last]) ++ after) (before.length + bytes.length) =
          .ok last := by
        have hcell := cellAt_append (before ++ bytes) after last List.length_append
        simpa using hcell
      rw [hcell, ok_bind]
      simp
    · have hpow : 2 ^ (bytes.length * 8) = 256 ^ bytes.length := by
        rw [Nat.mul_comm, pow_mul]
        norm_num
      rw [hvalue, ofBytesLE_concat, Nat.add_mul bytes.length, pow_add, hpow]
      ring

/-! ### One chunk -/

theorem unalignedReadLe64_append (before block after : List UInt8) (hblock : block.length = 8) :
    unalignedReadLe64 (before ++ block ++ after) before.length =
      .ok (UInt64.ofNat (ofBytesLE block)) := by
  rw [unalignedReadLe64, readAt_append _ _ _ rfl hblock, ok_bind, pure_eq_ok]

/-- The word loop absorbs the full words behind its start and stops at the last of them. -/
theorem compressWords_eq (before rest : List UInt8) (state : Siphash) :
    compressWords (before ++ rest) (before.length + 8 * (rest.length / 8)) before.length state =
      .ok (before.length + 8 * (rest.length / 8),
        state.withWords (absorbBlocks state.words rest)) := by
  induction hlength : rest.length using Nat.strong_induction_on
    generalizing before rest state with
  | h length ih =>
    by_cases hshort : rest.length < 8
    · have hnone : length / 8 = 0 := by omega
      rw [compressWords, if_neg (by omega), hnone, Nat.mul_zero, Nat.add_zero,
        absorbBlocks_of_lt _ hshort, Siphash.withWords_words]
    · have hblock : (rest.take 8).length = 8 := by
        rw [List.length_take]
        omega
      have hrest : (rest.drop 8).length = length - 8 := by
        rw [List.length_drop, hlength]
      have hnext := ih (length - 8) (by omega) (before ++ rest.take 8) (rest.drop 8)
        (state.withWords (absorbWord state.words (wordOf (rest.take 8)))) hrest
      have hstop : (before ++ rest.take 8).length + 8 * ((length - 8) / 8) =
          before.length + 8 * (length / 8) := by
        rw [List.length_append, hblock]
        omega
      have hread := unalignedReadLe64_append before (rest.take 8) (rest.drop 8) hblock
      rw [List.append_assoc, List.take_append_drop] at hread
      rw [hstop, List.append_assoc, List.take_append_drop, List.length_append, hblock] at hnext
      have habsorb := absorbBlocks_block_append state.words hblock (rest.drop 8)
      rw [List.take_append_drop] at habsorb
      rw [compressWords, if_pos (by omega), hread, ok_bind, compressWord_eq, ok_bind, habsorb]
      exact hnext

theorem toNat_and_seven (word : UInt64) : (word &&& 7).toNat = word.toNat % 8 := by
  rw [UInt64.toNat_and]
  exact Nat.and_two_pow_sub_one_eq_mod word.toNat 3

/-- From an empty pending word on, the rest of a chunk is absorbed up to its last full word, and
the bytes behind it are the new pending word. -/
theorem compressRest_eq (before rest : List UInt8) {state : Siphash} (hpadding : state.padding = 0)
    (hover : state.inlen.toNat % 8 = rest.length % 8) :
    ∃ padding, compressRest (before ++ rest) (before ++ rest).length before.length state =
        .ok { state.withWords (absorbBlocks state.words rest) with padding } ∧
      padding.toNat = ofBytesLE (pending 8 rest) := by
  have hmod : (state.inlen % 8).toNat = rest.length % 8 := by
    rw [UInt64.toNat_mod]
    exact hover
  have hsplit := Nat.div_add_mod rest.length 8
  have hle : rest.length % 8 ≤ (before ++ rest).length := by
    rw [List.length_append]
    omega
  have hstop : (before ++ rest).length - rest.length % 8 =
      before.length + 8 * (rest.length / 8) := by
    rw [List.length_append]
    omega
  have hfull : (before ++ rest.take (8 * (rest.length / 8))).length =
      before.length + 8 * (rest.length / 8) := by
    rw [List.length_append, List.length_take]
    omega
  have hpending := length_pending 8 rest
  have hempty : state.padding.toNat = 0 * 2 ^ ((pending 8 rest).length * 8) := by
    rw [hpadding, Nat.zero_mul]
    rfl
  obtain ⟨padding, htail, hvalue⟩ := fillTail_eq (before ++ rest.take (8 * (rest.length / 8)))
    (pending 8 rest) [] (by omega) hempty
  refine ⟨padding, ?_, by rw [hvalue, Nat.zero_mul, Nat.zero_add]⟩
  rw [List.append_nil, pending, List.append_assoc, List.take_append_drop, ← pending, hpending,
    hfull] at htail
  simp only [compressRest, hmod, if_pos hle, ok_bind, hstop, compressWords_eq,
    Siphash.inlen_withWords, toNat_and_seven, hover, Siphash.padding_withWords, htail, pure_eq_ok]

/-! ### Any chunks -/

/-- What a `struct siphash` knows of the message it has been given. -/
structure Represents (key message : List UInt8) (state : Siphash) : Prop where
  words_eq : state.words = absorbBlocks (initialWords key) message
  padding_eq : state.padding.toNat = ofBytesLE (pending 8 message)
  inlen_eq : state.inlen = UInt64.ofNat message.length

theorem siphash24Init_represents {key : List UInt8} (hkey : key.length = 16) :
    ∃ state, siphash24Init key = .ok state ∧ Represents key [] state := by
  have hfirst : unalignedReadLe64 key 0 = .ok (UInt64.ofNat (ofBytesLE (key.take 8))) := by
    rw [unalignedReadLe64, readAt, if_pos (by omega), List.drop_zero, ok_bind, pure_eq_ok]
  have hsecond : unalignedReadLe64 key 8 =
      .ok (UInt64.ofNat (ofBytesLE ((key.drop 8).take 8))) := by
    rw [unalignedReadLe64, readAt, if_pos (by omega), ok_bind, pure_eq_ok]
  refine ⟨_, by rw [siphash24Init, hfirst, ok_bind, hsecond, ok_bind, pure_eq_ok], ?_⟩
  exact ⟨(absorbBlocks_of_lt _ (by simp)).symm, rfl, rfl⟩

/-- The counter is right modulo eight also after it has wrapped around. -/
theorem Represents.inlen_mod_eight {key message : List UInt8} {state : Siphash}
    (h : Represents key message state) : state.inlen.toNat % 8 = message.length % 8 := by
  rw [h.inlen_eq, UInt64.toNat_ofNat']
  omega

/-- The counter after a further chunk. -/
theorem Represents.inlen_add {key message : List UInt8} {state : Siphash}
    (h : Represents key message state) (chunk : List UInt8) :
    state.inlen + UInt64.ofNat chunk.length = UInt64.ofNat (message ++ chunk).length := by
  rw [h.inlen_eq, List.length_append, UInt64.ofNat_add]

theorem toNat_ofNat_mod_eight (n : ℕ) : (UInt64.ofNat n).toNat % 8 = n % 8 := by
  rw [UInt64.toNat_ofNat']
  omega

/-- A chunk that starts at a word boundary. -/
theorem compressRest_represents {key message : List UInt8} {state : Siphash}
    (h : Represents key message state) (hboundary : pending 8 message = []) (chunk : List UInt8) :
    ∃ state', compressRest chunk chunk.length 0
        { state with inlen := state.inlen + UInt64.ofNat chunk.length } = .ok state' ∧
      Represents key (message ++ chunk) state' := by
  have hlength := congrArg List.length hboundary
  rw [length_pending, List.length_nil] at hlength
  set counted : Siphash := { state with inlen := state.inlen + UInt64.ofNat chunk.length }
    with hcounted
  have hpadding : counted.padding = 0 := by
    apply UInt64.toNat_inj.mp
    rw [hcounted, h.padding_eq, hboundary]
    rfl
  have hover : counted.inlen.toNat % 8 = chunk.length % 8 := by
    rw [hcounted, h.inlen_add chunk, toNat_ofNat_mod_eight, List.length_append]
    omega
  obtain ⟨padding, hrun, hvalue⟩ := compressRest_eq [] chunk hpadding hover
  refine ⟨_, hrun, ?_, ?_, h.inlen_add chunk⟩
  · rw [absorbBlocks_append, hboundary, ← h.words_eq]
    rfl
  · rw [pending_append (by norm_num), hboundary, List.nil_append]
    exact hvalue

/-- A chunk that does not complete the pending word. -/
theorem siphash24Compress_short {key message : List UInt8} {state : Siphash}
    (h : Represents key message state) (hpending : pending 8 message ≠ []) {chunk : List UInt8}
    (hshort : (pending 8 message ++ chunk).length < 8) :
    ∃ state', siphash24Compress chunk state = .ok state' ∧
      Represents key (message ++ chunk) state' := by
  have hleft : (state.inlen &&& 7).toNat = (pending 8 message).length := by
    rw [toNat_and_seven, h.inlen_mod_eight, length_pending]
  have hpos := List.length_pos_of_ne_nil hpending
  rw [List.length_append] at hshort
  obtain ⟨padding, hfill, hvalue⟩ := fillPadding_eq [] chunk (pending 8 message) (by omega)
    h.padding_eq
  have htaken : chunk.take (8 - (pending 8 message).length) = chunk :=
    List.take_of_length_le (by omega)
  rw [htaken] at hfill hvalue
  simp only [List.nil_append, List.length_nil, Nat.zero_add] at hfill
  have hrun : siphash24Compress chunk state = .ok { state with
      inlen := state.inlen + UInt64.ofNat chunk.length, padding } := by
    simp only [siphash24Compress, hleft, if_pos hpos, hfill, ok_bind, true_and, if_pos hshort,
      pure_eq_ok]
  refine ⟨_, hrun, ?_, ?_, h.inlen_add chunk⟩
  · rw [absorbBlocks_append, ← h.words_eq, absorbBlocks_of_lt _ (by rwa [List.length_append])]
    rfl
  · rw [pending_append (by norm_num), pending_of_lt (by rwa [List.length_append])]
    exact hvalue

/-- A chunk that completes the pending word and goes on with the rest. -/
theorem siphash24Compress_long {key message : List UInt8} {state : Siphash}
    (h : Represents key message state) (hpending : pending 8 message ≠ []) {chunk : List UInt8}
    (hlong : 8 ≤ (pending 8 message ++ chunk).length) :
    ∃ state', siphash24Compress chunk state = .ok state' ∧
      Represents key (message ++ chunk) state' := by
  have hleft : (state.inlen &&& 7).toNat = (pending 8 message).length := by
    rw [toNat_and_seven, h.inlen_mod_eight, length_pending]
  have hpos := List.length_pos_of_ne_nil hpending
  have hlt : (pending 8 message).length < 8 := length_pending_lt (by norm_num) message
  rw [List.length_append] at hlong
  set missing := 8 - (pending 8 message).length with hmissing
  have htaken : (chunk.take missing).length = missing := by
    rw [List.length_take]
    omega
  have hfull : (pending 8 message).length + missing = 8 := by omega
  have hblock : (pending 8 message ++ chunk.take missing).length = 8 := by
    rw [List.length_append, htaken, hfull]
  obtain ⟨padding, hfill, hvalue⟩ := fillPadding_eq [] chunk (pending 8 message) hlt.le
    h.padding_eq
  simp only [List.nil_append, List.length_nil, Nat.zero_add, ← hmissing, htaken, hfull] at hfill
  have hword : padding.toBitVec = wordOf (pending 8 message ++ chunk.take missing) := by
    rw [wordOf, ← hvalue, ← UInt64.toBitVec_ofNat', UInt64.ofNat_toNat]
  -- The state behind the completed word, with nothing pending.
  set aligned : Siphash := { state.withWords (absorbWord state.words padding.toBitVec) with
    inlen := state.inlen + UInt64.ofNat chunk.length, padding := 0 } with haligned
  have hover : aligned.inlen.toNat % 8 = (chunk.drop missing).length % 8 := by
    have hmod := length_pending 8 message
    rw [haligned, h.inlen_add chunk, toNat_ofNat_mod_eight, List.length_append, List.length_drop]
    omega
  obtain ⟨padding', hrest, hvalue'⟩ := compressRest_eq (chunk.take missing) (chunk.drop missing)
    (show aligned.padding = 0 from rfl) hover
  rw [List.take_append_drop, htaken] at hrest
  have hsplit : pending 8 message ++ chunk =
      (pending 8 message ++ chunk.take missing) ++ chunk.drop missing := by
    rw [List.append_assoc, List.take_append_drop]
  have hrun : siphash24Compress chunk state =
      compressRest chunk chunk.length missing aligned := by
    simp only [siphash24Compress, hleft, if_pos hpos, hfill, ok_bind,
      if_neg (show ¬ (missing = chunk.length ∧ 8 < 8) by omega), compressWord_eq]
    rfl
  refine ⟨_, hrun.trans hrest, ?_, ?_, h.inlen_add chunk⟩
  · rw [absorbBlocks_append, hsplit, absorbBlocks_block_append _ hblock, ← hword, ← h.words_eq]
    rfl
  · rw [pending_append (by norm_num), hsplit, pending_block_append (by norm_num) hblock]
    exact hvalue'

/-- A chunk of any length keeps the representation, whatever was pending before it. -/
theorem siphash24Compress_represents {key message : List UInt8} {state : Siphash}
    (h : Represents key message state) (chunk : List UInt8) :
    ∃ state', siphash24Compress chunk state = .ok state' ∧
      Represents key (message ++ chunk) state' := by
  by_cases hpending : pending 8 message = []
  · have hleft : (state.inlen &&& 7).toNat = 0 := by
      rw [toNat_and_seven, h.inlen_mod_eight, ← length_pending, hpending, List.length_nil]
    obtain ⟨state', hrun, hrepresents⟩ := compressRest_represents h hpending chunk
    refine ⟨state', ?_, hrepresents⟩
    simp only [siphash24Compress, hleft, if_neg (lt_irrefl 0), hrun]
  · by_cases hshort : (pending 8 message ++ chunk).length < 8
    · exact siphash24Compress_short h hpending hshort
    · exact siphash24Compress_long h hpending (not_lt.mp hshort)

/-- Any number of chunks. -/
theorem siphash24CompressAll_represents {key message : List UInt8} {state : Siphash}
    (h : Represents key message state) (chunks : List (List UInt8)) :
    ∃ state', siphash24CompressAll chunks state = .ok state' ∧
      Represents key (message ++ chunks.flatten) state' := by
  induction chunks generalizing message state with
  | nil => exact ⟨state, rfl, by rwa [List.flatten_nil, List.append_nil]⟩
  | cons chunk chunks ih =>
    obtain ⟨state₁, hfirst, hrepresents₁⟩ := siphash24Compress_represents h chunk
    obtain ⟨state₂, hrest, hrepresents₂⟩ := ih hrepresents₁
    refine ⟨state₂, ?_, ?_⟩
    · rw [siphash24CompressAll, hfirst, ok_bind, hrest]
    · rwa [List.flatten_cons, ← List.append_assoc]

/-! ### The hash -/

/-- The word that `siphash24_finalize` puts together is the last word of the message. -/
theorem Represents.lastWord_eq {key message : List UInt8} {state : Siphash}
    (h : Represents key message state) :
    (state.padding ||| state.inlen <<< 56).toBitVec = lastWord message := by
  have hpending : (pending 8 message).length < 8 := length_pending_lt (by norm_num) message
  have hlow : state.padding.toNat < 2 ^ 56 := by
    rw [h.padding_eq]
    calc ofBytesLE (pending 8 message) < 256 ^ (pending 8 message).length := ofBytesLE_lt _
      _ ≤ 256 ^ 7 := Nat.pow_le_pow_right (by norm_num) (by omega)
      _ = 2 ^ 56 := by norm_num
  have hhigh : (state.inlen <<< 56).toNat = 2 ^ 56 * (message.length % 256) := by
    rw [UInt64.toNat_shiftLeft, h.inlen_eq, UInt64.toNat_ofNat', Nat.shiftLeft_eq]
    change message.length % 2 ^ 64 * 2 ^ 56 % 2 ^ 64 = _
    omega
  have hjoin : (state.padding ||| state.inlen <<< 56).toNat =
      ofBytesLE (pending 8 message) + message.length % 256 * 2 ^ 56 := by
    rw [UInt64.toNat_or, hhigh, Nat.or_comm, ← Nat.two_pow_add_eq_or_of_lt hlow, h.padding_eq]
    ring
  rw [lastWord, ← hjoin, ← UInt64.toBitVec_ofNat', UInt64.ofNat_toNat]

theorem siphash24Finalize_eq {key message : List UInt8} {state : Siphash}
    (h : Represents key message state) :
    siphash24Finalize state = .ok (.ofBitVec (sipHash24 key message)) := by
  simp only [siphash24Finalize, compressWord_eq, sipround_eq, ok_bind, pure_eq_ok,
    h.lastWord_eq, h.words_eq]
  rfl

/-- However a message is cut into chunks, the streaming functions and `siphash24` on the whole
message return its SipHash-2-4, and no read leaves a chunk. -/
theorem siphash24_streaming (key : Vector UInt8 16) (chunks : List (List UInt8)) :
    (do
      let state ← siphash24Init key.toList
      let state ← siphash24CompressAll chunks state
      siphash24Finalize state) = .ok (.ofBitVec (sipHash24 key.toList chunks.flatten)) ∧
    siphash24 chunks.flatten key.toList =
      .ok (.ofBitVec (sipHash24 key.toList chunks.flatten)) := by
  obtain ⟨state, hinit, hrepresents⟩ := siphash24Init_represents (key.length_toList)
  obtain ⟨state₁, hchunks, hrepresents₁⟩ := siphash24CompressAll_represents hrepresents chunks
  obtain ⟨state₂, hwhole, hrepresents₂⟩ :=
    siphash24Compress_represents hrepresents chunks.flatten
  rw [List.nil_append] at hrepresents₁ hrepresents₂
  constructor
  · rw [hinit, ok_bind, hchunks, ok_bind, siphash24Finalize_eq hrepresents₁]
  · rw [siphash24, hinit, ok_bind, hwhole, ok_bind, siphash24Finalize_eq hrepresents₂]

end PythonSystemd.Siphash24
