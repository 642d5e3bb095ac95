import PythonSystemd.Fsprg.VerificationKey

/-!
# The grammar of verification keys

What `parse_verification_key` accepts: twelve groups, each of any number of dashes and the two
hexadecimal digits of a byte, then a slash and the text that `sscanf` takes two numbers from.

A `ByteGroup` carries the byte that its digits write. `parseSeed_group` is the rule for a text that
starts with a group, and `exists_group_or_refused` says that any other text is refused, so both
directions of `decodeVerificationKey_grammar` are inductions on the number of groups. The pointer
stays in the string because every character that the parser steps over is a dash, a digit or the
slash, and the terminating zero is none of them.
-/

set_option autoImplicit false
set_option relaxedAutoImplicit false

namespace PythonSystemd.Fsprg

open Library.CheckedMemory

/-! ### Digits in either case -/

def upperHexDigit (digit : ℕ) : UInt8 :=
  if digit < 10 then UInt8.ofNat (48 + digit) else UInt8.ofNat (55 + digit)

/-- The character is one of the ways to write the digit. -/
def WritesDigit (c : UInt8) (digit : ℕ) : Prop :=
  c = hexDigit digit ∨ c = upperHexDigit digit

instance (c : UInt8) (digit : ℕ) : Decidable (WritesDigit c digit) :=
  inferInstanceAs (Decidable (c = hexDigit digit ∨ c = upperHexDigit digit))

section Digits

variable {c : UInt8} {digit : ℕ}

theorem unhexchar_upperHexDigit (h : digit < 16) : unhexchar (upperHexDigit digit) = digit := by
  revert digit
  decide

theorem unhexchar_of_writesDigit (hdigit : digit < 16) (h : WritesDigit c digit) :
    unhexchar c = digit := by
  rcases h with rfl | rfl
  · exact unhexchar_hexDigit hdigit
  · exact unhexchar_upperHexDigit hdigit

/-- What `unhexchar` does not refuse writes a digit. -/
theorem exists_writesDigit (h : ¬ unhexchar c < 0) : ∃ digit < 16, WritesDigit c digit := by
  have hall : ∀ value < 256, ¬ unhexchar (UInt8.ofNat value) < 0 →
      ∃ digit < 16, WritesDigit (UInt8.ofNat value) digit := by decide +kernel
  have hc := hall c.toNat c.toNat_lt
  rw [UInt8.ofNat_toNat] at hc
  exact hc h

/-- A digit is not refused. -/
theorem not_unhexchar_neg (hdigit : digit < 16) (h : WritesDigit c digit) :
    ¬ unhexchar c < 0 := by
  rw [unhexchar_of_writesDigit hdigit h]
  exact not_lt.mpr (Int.natCast_nonneg digit)

theorem ne_of_writesDigit {other : UInt8} (hother : unhexchar other < 0) (hdigit : digit < 16)
    (h : WritesDigit c digit) : c ≠ other := by
  rintro rfl
  exact not_unhexchar_neg hdigit h hother

end Digits

/-! ### Groups -/

/-- Dashes and the two digits of a byte. -/
structure ByteGroup where
  dashes : ℕ
  high : UInt8
  low : UInt8
  byte : UInt8
  high_writes : WritesDigit high (byte.toNat / 16)
  low_writes : WritesDigit low (byte.toNat % 16)

namespace ByteGroup

def text (group : ByteGroup) : List UInt8 :=
  List.replicate group.dashes dash ++ [group.high, group.low]

theorem high_lt (group : ByteGroup) : group.byte.toNat / 16 < 16 := by
  have := group.byte.toNat_lt
  omega

theorem low_lt (group : ByteGroup) : group.byte.toNat % 16 < 16 :=
  Nat.mod_lt _ (by norm_num)

theorem high_ne_dash (group : ByteGroup) : group.high ≠ dash :=
  ne_of_writesDigit (by decide) group.high_lt group.high_writes

theorem ofInt_digits (group : ByteGroup) :
    UInt8.ofInt (unhexchar group.high * 16 + unhexchar group.low) = group.byte := by
  rw [unhexchar_of_writesDigit group.high_lt group.high_writes,
    unhexchar_of_writesDigit group.low_lt group.low_writes, ofInt_halves]

/-- Two digits of either case form a group. -/
theorem exists_of_digits (dashes : ℕ) {high low : UInt8} (hhigh : ¬ unhexchar high < 0)
    (hlow : ¬ unhexchar low < 0) :
    ∃ group : ByteGroup, group.text = List.replicate dashes dash ++ [high, low] := by
  obtain ⟨first, hfirst, hwrites⟩ := exists_writesDigit hhigh
  obtain ⟨second, hsecond, hwrites'⟩ := exists_writesDigit hlow
  have hbyte : (UInt8.ofNat (first * 16 + second)).toNat = first * 16 + second := by
    rw [UInt8.toNat_ofNat']
    omega
  have hdiv : (UInt8.ofNat (first * 16 + second)).toNat / 16 = first := by omega
  have hmod : (UInt8.ofNat (first * 16 + second)).toNat % 16 = second := by omega
  exact ⟨⟨dashes, high, low, UInt8.ofNat (first * 16 + second), hdiv.symm ▸ hwrites,
    hmod.symm ▸ hwrites'⟩, rfl⟩

end ByteGroup

/-! ### One group of the loop -/

theorem skipDashes_replicate (dashes : ℕ) {c : UInt8} (hc : c ≠ dash) (k : List UInt8) :
    skipDashes (List.replicate dashes dash ++ c :: k) = .ok (c :: k) := by
  induction dashes with
  | zero => exact skipDashes_of_ne hc k
  | succ dashes ih =>
    rw [List.replicate_succ, List.cons_append, skipDashes, if_pos rfl]
    exact ih

/-- In front of the zero that ends a string, the dashes end. -/
theorem exists_replicate_dashes {k : List UInt8} (hk : 0 ∈ k) :
    ∃ dashes c rest, k = List.replicate dashes dash ++ c :: rest ∧ c ≠ dash := by
  induction k with
  | nil => exact absurd hk List.not_mem_nil
  | cons c k ih =>
    by_cases hc : c = dash
    · have hne : (0 : UInt8) ≠ c := by
        rw [hc]
        decide
      obtain ⟨dashes, last, rest, rfl, hlast⟩ := ih ((List.mem_cons.mp hk).resolve_left hne)
      refine ⟨dashes + 1, last, rest, ?_, hlast⟩
      rw [hc, List.replicate_succ, List.cons_append]
    · exact ⟨0, c, k, rfl, hc⟩

/-- The rule for a text that starts with a group. -/
theorem parseSeed_group (count : ℕ) (group : ByteGroup) (k : List UInt8) :
    parseSeed (count + 1) (group.text ++ k) =
      (Option.map fun parsed ↦ (group.byte :: parsed.1, parsed.2)) <$> parseSeed count k := by
  have htext : group.text ++ k =
      List.replicate group.dashes dash ++ group.high :: group.low :: k := by
    rw [ByteGroup.text, List.append_assoc]
    rfl
  rw [htext, parseSeed, skipDashes_replicate _ group.high_ne_dash]
  simp only [ok_bind, readChar, if_neg (not_unhexchar_neg group.high_lt group.high_writes),
    if_neg (not_unhexchar_neg group.low_lt group.low_writes), group.ofInt_digits]
  cases parseSeed count k with
  | error fault => rfl
  | ok parsed =>
    cases parsed with
    | none => rfl
    | some parsed => rfl

/-- A string starts with a group, or the loop refuses it. Behind the group the string goes on. -/
theorem exists_group_or_refused {k : List UInt8} (hk : 0 ∈ k) :
    (∃ (group : ByteGroup) (rest : List UInt8), k = group.text ++ rest ∧ 0 ∈ rest) ∨
      ∀ count, parseSeed (count + 1) k = .ok none := by
  obtain ⟨dashes, high, rest, rfl, hdash⟩ := exists_replicate_dashes hk
  have hrest : (0 : UInt8) ∈ high :: rest :=
    (List.mem_append.mp hk).resolve_left fun h ↦ absurd (List.eq_of_mem_replicate h) (by decide)
  by_cases hhigh : unhexchar high < 0
  · refine Or.inr fun count ↦ ?_
    rw [parseSeed, skipDashes_replicate dashes hdash]
    simp only [ok_bind, readChar, if_pos hhigh, pure_eq_ok]
  have hne : ∀ {c : UInt8}, ¬ unhexchar c < 0 → (0 : UInt8) ≠ c := by
    rintro c hc rfl
    exact hc (by decide)
  have hlater : (0 : UInt8) ∈ rest := (List.mem_cons.mp hrest).resolve_left (hne hhigh)
  obtain ⟨low, rest, rfl⟩ := List.exists_cons_of_ne_nil (List.ne_nil_of_mem hlater)
  by_cases hlow : unhexchar low < 0
  · refine Or.inr fun count ↦ ?_
    rw [parseSeed, skipDashes_replicate dashes hdash]
    simp only [ok_bind, readChar, if_neg hhigh, if_pos hlow, pure_eq_ok]
  · obtain ⟨group, hgroup⟩ := ByteGroup.exists_of_digits dashes hhigh hlow
    refine Or.inl ⟨group, rest, ?_, (List.mem_cons.mp hlater).resolve_left (hne hlow)⟩
    rw [hgroup, List.append_assoc]
    rfl

/-! ### All groups -/

/-- The loop reads the groups one after the other. -/
theorem parseSeed_groups (groups : List ByteGroup) (k : List UInt8) :
    parseSeed groups.length (groups.flatMap ByteGroup.text ++ k) =
      .ok (some (groups.map ByteGroup.byte, k)) := by
  induction groups with
  | nil => rfl
  | cons group groups ih =>
    rw [List.length_cons, List.flatMap_cons, List.append_assoc, parseSeed_group, ih]
    rfl

/-- On a string the loop refuses or has read groups, and it stops inside. -/
theorem parseSeed_cases (count : ℕ) {k : List UInt8} (hk : 0 ∈ k) :
    parseSeed count k = .ok none ∨ ∃ (groups : List ByteGroup) (rest : List UInt8),
      groups.length = count ∧ k = groups.flatMap ByteGroup.text ++ rest ∧ 0 ∈ rest := by
  induction count generalizing k with
  | zero => exact Or.inr ⟨[], k, rfl, rfl, hk⟩
  | succ count ih =>
    rcases exists_group_or_refused hk with ⟨group, rest, rfl, hrest⟩ | hrefused
    · rcases ih hrest with hnone | ⟨groups, last, hlength, rfl, hlast⟩
      · left
        rw [parseSeed_group, hnone]
        rfl
      · refine Or.inr ⟨group :: groups, last, ?_, ?_, hlast⟩
        · rw [List.length_cons, hlength]
        · rw [List.flatMap_cons, List.append_assoc]
    · exact Or.inl (hrefused count)

/-! ### Keys -/

section Keys

variable (sscanf : Sscanf)

/-- The key is groups of dashes and digits for the bytes of the seed, a slash, and a text with the
two numbers of the interval. -/
def IsKeyText (key seed : List UInt8) : Prop :=
  ∃ (groups : List ByteGroup) (intervals : List UInt8),
    groups.length = fsprgRecommendedSeedlen ∧
    key = groups.flatMap ByteGroup.text ++ slash :: intervals ∧
    sscanf (intervals ++ [0]) = 2 ∧ seed = groups.map ByteGroup.byte

variable {sscanf}

theorem IsKeyText.length_seed {key seed : List UInt8} (h : IsKeyText sscanf key seed) :
    seed.length = fsprgRecommendedSeedlen := by
  obtain ⟨groups, -, hlength, -, -, rfl⟩ := h
  rw [List.length_map, hlength]

theorem decodeVerificationKey_of_isKeyText {key seed : List UInt8}
    (h : IsKeyText sscanf key seed) :
    decodeVerificationKey sscanf (key ++ [0]) = .ok (some seed) := by
  obtain ⟨groups, intervals, hlength, rfl, hscan, rfl⟩ := h
  have hparse := parseSeed_groups groups (slash :: (intervals ++ [0]))
  rw [hlength] at hparse
  rw [decodeVerificationKey, List.append_assoc, List.cons_append, hparse]
  simp only [ok_bind, readChar, hscan, pure_eq_ok, ne_eq, not_true_eq_false, if_false]

/-- A string is refused or is the text of a key. -/
theorem decodeVerificationKey_cases (sscanf : Sscanf) (key : List UInt8) :
    decodeVerificationKey sscanf (key ++ [0]) = .ok none ∨ ∃ seed, IsKeyText sscanf key seed := by
  have hkey : (0 : UInt8) ∈ key ++ [0] := List.mem_append_right key (List.mem_singleton_self 0)
  rcases parseSeed_cases fsprgRecommendedSeedlen hkey with
    hnone | ⟨groups, rest, hlength, htext, hrest⟩
  · left
    rw [decodeVerificationKey, hnone]
    rfl
  have hparse := parseSeed_groups groups rest
  rw [hlength, ← htext] at hparse
  obtain ⟨c, rest, rfl⟩ := List.exists_cons_of_ne_nil (List.ne_nil_of_mem hrest)
  by_cases hslash : c = slash
  · by_cases hscan : sscanf rest = 2
    · have hlater : (0 : UInt8) ∈ rest := by
        refine (List.mem_cons.mp hrest).resolve_left fun hzero ↦ ?_
        rw [hslash] at hzero
        exact absurd hzero (by decide)
      -- The character that ends the string is the last one of what is left.
      obtain ⟨intervals, last, hends⟩ :=
        (List.eq_nil_or_concat rest).resolve_left (List.ne_nil_of_mem hlater)
      rw [hends, List.concat_eq_append] at hscan
      rw [hends, List.concat_eq_append, ← List.cons_append, ← List.append_assoc] at htext
      obtain ⟨htext, hlast⟩ := List.append_inj' htext rfl
      rw [← hlast] at hscan
      exact Or.inr ⟨_, groups, intervals, hlength, hslash ▸ htext, hscan, rfl⟩
    · left
      rw [decodeVerificationKey, hparse]
      simp only [ok_bind, readChar, hslash, pure_eq_ok, ne_eq, not_true_eq_false, if_false, hscan,
        not_false_eq_true, if_true]
  · left
    rw [decodeVerificationKey, hparse]
    simp only [ok_bind, readChar, pure_eq_ok, ne_eq, hslash, not_false_eq_true, if_true]

/-- A string is accepted exactly when it is the text of a key, with the bytes of its groups. -/
theorem decodeVerificationKey_eq_some_iff (sscanf : Sscanf) (key seed : List UInt8) :
    decodeVerificationKey sscanf (key ++ [0]) = .ok (some seed) ↔ IsKeyText sscanf key seed := by
  refine ⟨fun h ↦ ?_, decodeVerificationKey_of_isKeyText⟩
  rcases decodeVerificationKey_cases sscanf key with hnone | ⟨other, htext⟩
  · rw [hnone] at h
    cases h
  · rw [decodeVerificationKey_of_isKeyText htext] at h
    obtain rfl := Option.some.inj (Except.ok.inj h)
    exact htext

/-- The parser stays in the string. -/
theorem exists_decodeVerificationKey (sscanf : Sscanf) (key : List UInt8) :
    ∃ outcome, decodeVerificationKey sscanf (key ++ [0]) = .ok outcome := by
  rcases decodeVerificationKey_cases sscanf key with hnone | ⟨seed, htext⟩
  · exact ⟨none, hnone⟩
  · exact ⟨some seed, decodeVerificationKey_of_isKeyText htext⟩

/-- The parser stays in every string, accepts the texts of keys and nothing else, decodes the bytes
of their groups, and takes the seed out of what `setup_key` prints. -/
theorem decodeVerificationKey_grammar (sscanf : Sscanf) :
    (∀ key, ∃ outcome, decodeVerificationKey sscanf (key ++ [0]) = .ok outcome) ∧
    (∀ key seed, decodeVerificationKey sscanf (key ++ [0]) = .ok (some seed) ↔
      IsKeyText sscanf key seed) ∧
    (sscanf.ConvertsPrinted → ∀ seed start interval, seed.length = fsprgRecommendedSeedlen →
      decodeVerificationKey sscanf (verificationKey seed start interval ++ [0]) =
        .ok (some seed)) :=
  ⟨exists_decodeVerificationKey sscanf, decodeVerificationKey_eq_some_iff sscanf,
    fun hsscanf _ start interval hseed ↦
      decodeVerificationKey_verificationKey hsscanf hseed start interval⟩

theorem decodeVerificationKey_grammar_zeros :
    decodeVerificationKey sampleSscanf (verificationKey (List.replicate 12 0) 0 0 ++ [0]) =
      .ok (some (List.replicate 12 0)) :=
  (decodeVerificationKey_grammar sampleSscanf).2.2 convertsPrinted_sampleSscanf
    (List.replicate 12 0) 0 0 rfl

end Keys

end PythonSystemd.Fsprg
