import PythonSystemd.Python.Numbers

/-!
# Numbers that were written are read

`int` reads what `str` writes of a number, up to the limit on digits, and digits in base 16 that
`uuid.UUID` writes are read by it, with or without its dashes. Both go through `digitsOf`, which
reads back every list of digits: `digitsOf_map_digitByte`.
-/

set_option autoImplicit false
set_option relaxedAutoImplicit false

namespace PythonSystemd.Python

/-! ### Digits -/

/-- The byte of a digit in a base up to 16. -/
def digitByte (digit : ℕ) : UInt8 :=
  if digit < 10 then 48 + digit.toUInt8 else 87 + digit.toUInt8

/-- A digit is no space, no sign, no underscore and no letter `x`. -/
theorem digitByte_spec : ∀ digit < 16, digitValue (digitByte digit) = some digit ∧
    isAsciiSpace (digitByte digit) = false ∧
    digitByte digit ∉ [43, 45, underscore, 120, 88] := by
  decide

variable {base : ℕ} {digits : List ℕ}

theorem digitValue_filter {digit : ℕ} (hbase : base ≤ 16) (h : digit < base) :
    (digitValue (digitByte digit)).filter (· < base) = some digit := by
  rw [(digitByte_spec digit (by omega)).1, Option.filter_some, if_pos (decide_eq_true h)]

/-- Digits are read back. -/
theorem digitsOf_map_digitByte (hbase : base ≤ 16) (hne : digits ≠ [])
    (h : ∀ digit ∈ digits, digit < base) :
    digitsOf base (digits.map digitByte) = some digits := by
  induction digits with
  | nil => exact absurd rfl hne
  | cons first rest ih =>
    obtain ⟨hfirst, hrest⟩ := List.forall_mem_cons.mp h
    have hvalue := digitValue_filter hbase hfirst
    cases rest with
    | nil =>
      rw [List.map_singleton, digitsOf, hvalue]
      rfl
    | cons second rest =>
      have hsecond : second < 16 := lt_of_lt_of_le (hrest second List.mem_cons_self) hbase
      have hunderscore : digitByte second ≠ underscore := by
        intro heq
        exact (digitByte_spec second hsecond).2.2 (heq ▸ by simp)
      have hih := ih (List.cons_ne_nil _ _) hrest
      rw [List.map_cons] at hih
      rw [List.map_cons, List.map_cons, digitsOf, hvalue]
      simp only [if_neg hunderscore, hih]
      rfl

/-- Nothing is stripped where no byte is a space. -/
theorem strip_isAsciiSpace {bytes : List UInt8} (h : ∀ byte ∈ bytes, isAsciiSpace byte = false) :
    (bytes.dropWhile isAsciiSpace).rdropWhile isAsciiSpace = bytes := by
  have hfront : bytes.dropWhile isAsciiSpace = bytes := by
    refine List.dropWhile_eq_self_iff.mpr fun hlength ↦ ?_
    exact Bool.eq_false_iff.mp (h _ (List.getElem_mem hlength))
  rw [hfront, List.rdropWhile_eq_self_iff]
  exact fun hne ↦ Bool.eq_false_iff.mp (h _ (List.getLast_mem hne))

theorem isAsciiSpace_map_digitByte (h : ∀ digit ∈ digits, digit < 16) :
    ∀ byte ∈ digits.map digitByte, isAsciiSpace byte = false := by
  intro byte hbyte
  obtain ⟨digit, hdigit, rfl⟩ := List.mem_map.mp hbyte
  exact (digitByte_spec digit (h digit hdigit)).2.1

theorem splitSign_map_digitByte (h : ∀ digit ∈ digits, digit < 16) :
    splitSign (digits.map digitByte) = (false, digits.map digitByte) := by
  cases digits with
  | nil => rfl
  | cons first rest =>
    obtain ⟨-, -, hbytes⟩ := digitByte_spec first (h first List.mem_cons_self)
    simp only [List.mem_cons, not_or] at hbytes
    rw [List.map_cons, splitSign, if_neg hbytes.1, if_neg hbytes.2.1]

theorem dropHexPrefix_map_digitByte (h : ∀ digit ∈ digits, digit < 16) :
    dropHexPrefix (digits.map digitByte) = digits.map digitByte := by
  match digits with
  | [] => rfl
  | [_] => rfl
  | first :: second :: rest =>
    obtain ⟨-, -, hbytes⟩ :=
      digitByte_spec second (h second (List.mem_cons_of_mem _ List.mem_cons_self))
    simp only [List.mem_cons, not_or] at hbytes
    have hletter : ¬ (digitByte first = 48 ∧ (digitByte second = 120 ∨ digitByte second = 88)) := by
      rintro ⟨-, hx | hx⟩
      · exact hbytes.2.2.2.1 hx
      · exact hbytes.2.2.2.2.1 hx
    unfold dropHexPrefix
    simp only [List.map_cons, if_neg hletter]

/-- The digits of a number in base 16 are read. -/
theorem intOfBytes_hexadecimal (digitLimit : ℕ) (hne : digits ≠ [])
    (h : ∀ digit ∈ digits, digit < 16) :
    intOfBytes 16 digitLimit (digits.map digitByte) = .ok (Nat.ofDigits 16 digits.reverse : ℕ) := by
  unfold intOfBytes
  rw [strip_isAsciiSpace (isAsciiSpace_map_digitByte h), splitSign_map_digitByte h]
  dsimp only
  rw [if_pos rfl, dropHexPrefix_map_digitByte h, digitsOf_map_digitByte le_rfl hne h]
  simp

/-- The sign in front of a written number. -/
def signBytes (negative : Bool) : List UInt8 :=
  if negative then [45] else []

/-- The digits of a number in base 10, behind its sign, are read up to the limit. -/
theorem intOfBytes_decimal (digitLimit : ℕ) (negative : Bool) (hne : digits ≠ [])
    (h : ∀ digit ∈ digits, digit < 10) :
    intOfBytes 10 digitLimit (signBytes negative ++ digits.map digitByte) =
      if digitLimit ≠ 0 ∧ digitLimit < digits.length then
        .error (.valueError "Exceeds the limit for integer string conversion")
      else
        .ok (if negative then -(Nat.ofDigits 10 digits.reverse : ℕ)
          else (Nat.ofDigits 10 digits.reverse : ℕ)) := by
  have hsixteen : ∀ digit ∈ digits, digit < 16 := fun digit hdigit ↦ by
    have := h digit hdigit
    omega
  have hspace : ∀ byte ∈ signBytes negative ++ digits.map digitByte,
      isAsciiSpace byte = false := by
    intro byte hbyte
    rcases List.mem_append.mp hbyte with hsign | hdigits
    · cases negative with
      | false => cases hsign
      | true =>
        obtain rfl := List.mem_singleton.mp hsign
        rfl
    · exact isAsciiSpace_map_digitByte hsixteen byte hdigits
  have hsplit : splitSign (signBytes negative ++ digits.map digitByte) =
      (negative, digits.map digitByte) := by
    cases negative with
    | false => exact splitSign_map_digitByte hsixteen
    | true => rfl
  unfold intOfBytes
  rw [strip_isAsciiSpace hspace, hsplit]
  dsimp only
  rw [if_neg (by decide), digitsOf_map_digitByte (by decide) hne h]
  simp

/-! ### Written in base 10 -/

/-- The digits that are written for a number. -/
def decimalDigits (value : ℕ) : List ℕ :=
  if value = 0 then [0] else (Nat.digits 10 value).reverse

theorem decimalDigits_ne_nil (value : ℕ) : decimalDigits value ≠ [] := by
  unfold decimalDigits
  split_ifs with hzero
  · exact List.cons_ne_nil _ _
  · simpa [Nat.digits_ne_nil_iff_ne_zero] using hzero

theorem decimalDigits_lt (value : ℕ) : ∀ digit ∈ decimalDigits value, digit < 10 := by
  intro digit hdigit
  unfold decimalDigits at hdigit
  split_ifs at hdigit
  · rw [List.mem_singleton.mp hdigit]
    decide
  · exact Nat.digits_lt_base (by decide) (List.mem_reverse.mp hdigit)

theorem ofDigits_decimalDigits (value : ℕ) :
    Nat.ofDigits 10 (decimalDigits value).reverse = value := by
  unfold decimalDigits
  split_ifs with hzero
  · rw [hzero]
    rfl
  · rw [List.reverse_reverse, Nat.ofDigits_digits]

theorem decimalDigits_of_lt {value : ℕ} (h : value < 10) : decimalDigits value = [value] := by
  unfold decimalDigits
  split_ifs with hzero
  · rw [hzero]
  · rw [Nat.digits_of_lt 10 value hzero h, List.reverse_singleton]

theorem decimalDigits_of_le {value : ℕ} (h : 10 ≤ value) :
    decimalDigits value = decimalDigits (value / 10) ++ [value % 10] := by
  have hvalue : value ≠ 0 := by omega
  have hquotient : value / 10 ≠ 0 := by omega
  unfold decimalDigits
  rw [if_neg hvalue, if_neg hquotient, Nat.digits_eq_cons_digits_div (by decide) hvalue,
    List.reverse_cons]

/-- What Lean writes of a number are these digits. -/
theorem toDigits_eq_map (value : ℕ) :
    Nat.toDigits 10 value = (decimalDigits value).map Nat.digitChar := by
  induction value using Nat.strong_induction_on with
  | h value ih =>
    rw [Nat.toDigits_eq_if (by decide)]
    split_ifs with hlt
    · rw [decimalDigits_of_lt hlt]
      rfl
    · have hle : 10 ≤ value := by omega
      rw [ih (value / 10) (by omega), decimalDigits_of_le hle, List.map_append]
      rfl

theorem utf8EncodeChar_digitChar : ∀ digit < 10,
    String.utf8EncodeChar (Nat.digitChar digit) = [digitByte digit] := by
  decide

theorem flatMap_utf8EncodeChar_digits {digits : List ℕ} (h : ∀ digit ∈ digits, digit < 10) :
    (digits.map Nat.digitChar).flatMap String.utf8EncodeChar = digits.map digitByte := by
  induction digits with
  | nil => rfl
  | cons first rest ih =>
    obtain ⟨hfirst, hrest⟩ := List.forall_mem_cons.mp h
    rw [List.map_cons, List.map_cons, List.flatMap_cons, utf8EncodeChar_digitChar first hfirst,
      ih hrest]
    rfl

/-- The text of a number, as bytes. -/
theorem encodeUtf8_toString (value : ℤ) :
    (Text.ofString (toString value)).encodeUtf8 =
      some (signBytes (decide (value < 0)) ++ (decimalDigits value.natAbs).map digitByte) := by
  have hdigits : (Nat.toDigits 10 value.natAbs).flatMap String.utf8EncodeChar =
      (decimalDigits value.natAbs).map digitByte := by
    rw [toDigits_eq_map, flatMap_utf8EncodeChar_digits (decimalDigits_lt _)]
  have hminus : "-".toList.flatMap String.utf8EncodeChar = [45] := by decide
  rw [encodeUtf8_ofString, Int.toString_eq_repr, Int.repr_eq_if, ← hdigits]
  by_cases hneg : value < 0
  · have habs : (-value).toNat = value.natAbs := by omega
    rw [if_neg (Int.not_le.mpr hneg), decide_eq_true hneg, String.toList_append,
      List.flatMap_append, hminus, Nat.toList_repr, habs]
    rfl
  · have habs : value.toNat = value.natAbs := by omega
    rw [if_pos (Int.not_lt.mp hneg), decide_eq_false hneg, Nat.toList_repr, habs]
    rfl

/-- A number that was written is read, where it has no more digits than the limit allows. -/
theorem intOfBytes_toString (digitLimit : ℕ) (value : ℤ) :
    intOfBytes 10 digitLimit
        (signBytes (decide (value < 0)) ++ (decimalDigits value.natAbs).map digitByte) =
      if digitLimit ≠ 0 ∧ digitLimit < (decimalDigits value.natAbs).length then
        .error (.valueError "Exceeds the limit for integer string conversion")
      else .ok value := by
  rw [intOfBytes_decimal digitLimit _ (decimalDigits_ne_nil _) (decimalDigits_lt _),
    ofDigits_decimalDigits]
  congr 2
  simp only [decide_eq_true_eq]
  split_ifs with hneg
  · omega
  · omega

theorem toString_natCast (value : ℕ) : toString (value : ℤ) = toString value := by
  rw [Int.toString_eq_repr, Int.repr_eq_if, if_pos (Int.natCast_nonneg value), Int.toNat_natCast,
    Nat.toString_eq_repr]

/-- Different numbers are written differently. -/
theorem eq_of_encodeUtf8_toString {first second : ℤ}
    (h : (Text.ofString (toString first)).encodeUtf8 =
      (Text.ofString (toString second)).encodeUtf8) : first = second := by
  rw [encodeUtf8_toString, encodeUtf8_toString] at h
  have hread := intOfBytes_toString 0 first
  rw [Option.some.inj h, intOfBytes_toString] at hread
  exact (Except.ok.inj hread).symm

/-! ### Ids -/

/-- A character does not occur, so no pattern that begins with it is found. -/
theorem removeAll_of_not_mem {first : CodePoint} (pattern : Text) {text : Text}
    (h : first ∉ text) : removeAll (first :: pattern) 0 text = text := by
  induction text with
  | nil => rfl
  | cons character text ih =>
    rw [List.mem_cons, not_or] at h
    obtain ⟨hne, hnot⟩ := h
    have hprefix : (first :: pattern).isPrefixOf (character :: text) = false := by
      simp [List.isPrefixOf, hne]
    rw [removeAll, hprefix, if_neg Bool.false_ne_true, ih hnot]

/-- Removing one character leaves the others. -/
theorem removeAll_singleton (character : CodePoint) (text : Text) :
    removeAll [character] 0 text = text.filter (· ≠ character) := by
  induction text with
  | nil => rfl
  | cons first text ih =>
    by_cases h : first = character
    · rw [List.filter_cons_of_neg (by simpa using h), removeAll, ← ih, h]
      simp [List.isPrefixOf]
    · rw [List.filter_cons_of_pos (by simpa using h), removeAll, ← ih]
      simp [List.isPrefixOf, Ne.symm h]

theorem strip_of_not_mem {characters text : Text} (h : ∀ character ∈ text, character ∉ characters) :
    strip characters text = text := by
  have hcontains : ∀ character ∈ text, characters.contains character = false := by
    intro character hcharacter
    simpa using h character hcharacter
  have hfront : text.dropWhile (fun character ↦ characters.contains character) = text := by
    refine List.dropWhile_eq_self_iff.mpr fun hlength ↦ ?_
    exact Bool.eq_false_iff.mp (hcontains _ (List.getElem_mem hlength))
  unfold strip
  rw [hfront, List.rdropWhile_eq_self_iff]
  exact fun hne ↦ Bool.eq_false_iff.mp (hcontains _ (List.getLast_mem hne))

/-- The character of a digit in base 16. -/
def digitCodePoint (digit : ℕ) : CodePoint :=
  ⟨(digitByte digit).toNat, by have := (digitByte digit).toNat_lt; omega⟩

def dash : CodePoint := .ofChar '-'

theorem digitCodePoint_spec : ∀ digit < 16, digitCodePoint digit ≠ dash ∧
    (digitCodePoint digit).val < 128 ∧
    digitCodePoint digit ∉ [CodePoint.ofChar 'u', .ofChar '\x7b', .ofChar '\x7d'] := by
  decide

theorem transformToAscii_digitCodePoint (unicode : UnicodeDatabase) {digit : ℕ} (h : digit < 16) :
    transformToAscii unicode (digitCodePoint digit) = digitByte digit := by
  rw [transformToAscii, if_pos (digitCodePoint_spec digit h).2.1]
  exact UInt8.ofNat_toNat

theorem intOfText_hexadecimal (unicode : UnicodeDatabase) (digitLimit : ℕ) (hne : digits ≠ [])
    (h : ∀ digit ∈ digits, digit < 16) :
    intOfText unicode 16 digitLimit (digits.map digitCodePoint) =
      .ok (Nat.ofDigits 16 digits.reverse : ℕ) := by
  have hascii : (digits.map digitCodePoint).map (transformToAscii unicode) =
      digits.map digitByte := by
    rw [List.map_map]
    exact List.map_congr_left fun digit hdigit ↦
      transformToAscii_digitCodePoint unicode (h digit hdigit)
  rw [intOfText, hascii, intOfBytes_hexadecimal digitLimit hne h]

/-- A text of 32 digits in base 16 and of dashes is an id. -/
theorem uuidOfText_of_digits (unicode : UnicodeDatabase) {text : Text} {digits : List ℕ}
    (hlength : digits.length = 32) (hdigits : ∀ digit ∈ digits, digit < 16)
    (htext : text.filter (· ≠ dash) = digits.map digitCodePoint) :
    uuidOfText unicode text = uuidOfInt (Nat.ofDigits 16 digits.reverse : ℕ) := by
  have hother : ∀ other ∈ [CodePoint.ofChar 'u', .ofChar '\x7b', .ofChar '\x7d'],
      other ∉ text := by
    intro other hlist hmem
    have hne : other ≠ dash := by
      rintro rfl
      exact absurd hlist (by decide)
    have hfilter : other ∈ text.filter (· ≠ dash) :=
      List.mem_filter.mpr ⟨hmem, decide_eq_true hne⟩
    rw [htext] at hfilter
    obtain ⟨digit, hdigit, rfl⟩ := List.mem_map.mp hfilter
    exact (digitCodePoint_spec digit (hdigits digit hdigit)).2.2 hlist
  have hurn : removeAll (.ofString "urn:") 0 text = text :=
    removeAll_of_not_mem _ (hother (.ofChar 'u') List.mem_cons_self)
  have huuid : removeAll (.ofString "uuid:") 0 text = text :=
    removeAll_of_not_mem _ (hother (.ofChar 'u') List.mem_cons_self)
  have hstrip : strip (.ofString "\x7b\x7d") text = text := by
    refine strip_of_not_mem fun character hcharacter hmem ↦ ?_
    exact hother character (List.mem_cons_of_mem _ hmem) hcharacter
  have hdash : removeAll (.ofString "-") 0 text = digits.map digitCodePoint :=
    (removeAll_singleton dash text).trans htext
  have hne : digits ≠ [] := List.ne_nil_of_length_pos (by omega)
  have hint := intOfText_hexadecimal unicode 0 hne hdigits
  unfold uuidOfText
  simp only [hurn, huuid, hstrip, hdash, List.length_map, hlength, hint, ne_eq, not_true_eq_false,
    if_false, bind, Except.bind]

/-- The digits of a number in any base, from the last one on. -/
theorem ofDigits_map_range (base value count : ℕ) :
    Nat.ofDigits base ((List.range count).map fun i ↦ value / base ^ i % base) =
      value % base ^ count := by
  induction count with
  | zero => simp [Nat.mod_one]
  | succ count ih =>
    rw [List.range_succ, List.map_append, Nat.ofDigits_append, ih, List.length_map,
      List.length_range, List.map_singleton, Nat.ofDigits_singleton, Nat.mod_pow_succ]

end PythonSystemd.Python
