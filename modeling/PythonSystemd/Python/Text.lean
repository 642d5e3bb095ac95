import Mathlib.Algebra.Group.Int.Defs
import Mathlib.Algebra.Group.Nat.Defs
import Mathlib.Data.List.Basic
import Mathlib.Tactic.Common

/-!
# Python strings and their UTF-8 encoding

A Python string is a list of code points, surrogates included. Its strict UTF-8 encoding exists
when no code point is a surrogate; decoding is Lean's own, which accepts exactly the encodings of
Unicode scalar values. `decodeUtf8_encodeUtf8` is the round trip, and `not_mem_encodeUtf8` says that
the byte of an ASCII character only comes from that character.
-/

set_option autoImplicit false
set_option relaxedAutoImplicit false

namespace PythonSystemd.Python

abbrev CodePoint := Fin 0x110000

/-- A `str`. -/
abbrev Text := List CodePoint

namespace CodePoint

/-- The Unicode scalar value of a code point that is no surrogate. -/
def toChar? (codePoint : CodePoint) : Option Char :=
  if h : codePoint.val.isValidChar then some (Char.ofNatAux codePoint.val h) else none

theorem toNat_lt (char : Char) : char.toNat < 0x110000 := by
  rcases char.valid with h | h
  · exact Nat.lt_trans h (by decide)
  · exact h.2

def ofChar (char : Char) : CodePoint :=
  ⟨char.toNat, toNat_lt char⟩

theorem toChar?_ofChar (char : Char) : toChar? (ofChar char) = some char :=
  dif_pos char.valid

theorem ofChar_of_toChar? {codePoint : CodePoint} {char : Char}
    (h : codePoint.toChar? = some char) : ofChar char = codePoint := by
  by_cases hvalid : codePoint.val.isValidChar
  · rw [toChar?, dif_pos hvalid] at h
    cases h
    rfl
  · rw [toChar?, dif_neg hvalid] at h
    cases h

end CodePoint

open CodePoint

namespace Text

def ofString (string : String) : Text :=
  string.toList.map ofChar

/-- A text for a message; a surrogate is shown as the character zero. -/
def display (text : Text) : String :=
  String.ofList (text.map fun codePoint ↦ Char.ofNat codePoint.val)

def toChars? : Text → Option (List Char)
  | [] => some []
  | codePoint :: text =>
    match codePoint.toChar?, toChars? text with
    | some char, some chars => some (char :: chars)
    | _, _ => none

theorem toChars?_map_ofChar (chars : List Char) : toChars? (chars.map ofChar) = some chars := by
  induction chars with
  | nil => rfl
  | cons char chars ih => rw [List.map_cons, toChars?, toChar?_ofChar, ih]

theorem map_ofChar_of_toChars? {text : Text} {chars : List Char} (h : text.toChars? = some chars) :
    chars.map ofChar = text := by
  induction text generalizing chars with
  | nil =>
    cases h
    rfl
  | cons codePoint text ih =>
    rw [toChars?] at h
    split at h
    · rename_i char rest hchar hrest
      cases h
      rw [List.map_cons, ofChar_of_toChar? hchar, ih hrest]
    · cases h

theorem toChars?_append (first second : Text) :
    toChars? (first ++ second) =
      match toChars? first, toChars? second with
      | some firstChars, some secondChars => some (firstChars ++ secondChars)
      | _, _ => none := by
  induction first with
  | nil =>
    rw [List.nil_append, toChars?]
    cases toChars? second with
    | none => rfl
    | some chars => rfl
  | cons codePoint first ih =>
    rw [List.cons_append, toChars?, toChars?, ih]
    cases codePoint.toChar? with
    | none => rfl
    | some char =>
      cases toChars? first with
      | none => rfl
      | some firstChars =>
        cases toChars? second with
        | none => rfl
        | some secondChars => rfl

/-- `str.encode('utf-8')`; no result where it raises `UnicodeEncodeError`. -/
def encodeUtf8 (text : Text) : Option (List UInt8) :=
  text.toChars?.map fun chars ↦ chars.flatMap String.utf8EncodeChar

end Text

/-- `bytes.decode('utf-8')`; no result where it raises `UnicodeDecodeError`. -/
def decodeUtf8 (bytes : List UInt8) : Option Text :=
  bytes.toByteArray.utf8Decode?.map fun chars ↦ chars.toList.map ofChar

open Text

theorem encodeUtf8_eq_some {text : Text} {bytes : List UInt8} :
    text.encodeUtf8 = some bytes ↔
      ∃ chars, text.toChars? = some chars ∧ chars.flatMap String.utf8EncodeChar = bytes :=
  Option.map_eq_some_iff

/-- What was encoded is decoded to the same text. -/
theorem decodeUtf8_encodeUtf8 {text : Text} {bytes : List UInt8}
    (h : text.encodeUtf8 = some bytes) : decodeUtf8 bytes = some text := by
  obtain ⟨chars, hchars, rfl⟩ := encodeUtf8_eq_some.mp h
  have hdecode : (chars.flatMap String.utf8EncodeChar).toByteArray.utf8Decode? =
      some chars.toArray := List.utf8Decode?_utf8Encode
  rw [decodeUtf8, hdecode, Option.map_some, List.toList_toArray, map_ofChar_of_toChars? hchars]

/-- What was decoded is encoded to the same bytes. -/
theorem encodeUtf8_of_decodeUtf8 {bytes : List UInt8} {text : Text}
    (h : decodeUtf8 bytes = some text) : text.encodeUtf8 = some bytes := by
  obtain ⟨chars, hchars, rfl⟩ := Option.map_eq_some_iff.mp h
  have hsome : bytes.toByteArray.utf8Decode?.isSome = true := by rw [hchars, Option.isSome_some]
  have hencode := ByteArray.utf8Encode_get_utf8Decode? (h := hsome)
  simp only [hchars, Option.get_some] at hencode
  refine encodeUtf8_eq_some.mpr ⟨chars.toList, toChars?_map_ofChar _, ?_⟩
  have hdata := congrArg (fun array ↦ array.data.toList) hencode
  simpa [List.utf8Encode] using hdata

/-- A text has an encoding exactly when its parts have. -/
theorem encodeUtf8_append {first second : Text} {bytes : List UInt8} :
    (first ++ second).encodeUtf8 = some bytes ↔
      ∃ firstBytes secondBytes, first.encodeUtf8 = some firstBytes ∧
        second.encodeUtf8 = some secondBytes ∧ bytes = firstBytes ++ secondBytes := by
  simp only [encodeUtf8_eq_some, toChars?_append]
  constructor
  · rintro ⟨chars, hchars, rfl⟩
    split at hchars
    · rename_i firstChars secondChars hfirst hsecond
      cases hchars
      exact ⟨_, _, ⟨firstChars, hfirst, rfl⟩, ⟨secondChars, hsecond, rfl⟩, List.flatMap_append⟩
    · cases hchars
  · rintro ⟨_, _, ⟨firstChars, hfirst, rfl⟩, ⟨secondChars, hsecond, rfl⟩, rfl⟩
    refine ⟨firstChars ++ secondChars, ?_, List.flatMap_append⟩
    rw [hfirst, hsecond]

theorem encodeUtf8_ofString (string : String) :
    (ofString string).encodeUtf8 = some (string.toList.flatMap String.utf8EncodeChar) :=
  encodeUtf8_eq_some.mpr ⟨string.toList, toChars?_map_ofChar string.toList, rfl⟩

/-! ### Bytes of ASCII characters -/

theorem le_toNat_ofNat_mod_add (value modulus offset : ℕ) (hpos : 0 < modulus)
    (hoffset : 0x80 ≤ offset) (hsum : modulus + offset ≤ 256) :
    0x80 ≤ (UInt8.ofNat (value % modulus + offset)).toNat := by
  have hlt := Nat.mod_lt value hpos
  rw [UInt8.toNat_ofNat_of_lt' (show _ < 256 by omega)]
  omega

/-- The bytes of a character beyond ASCII are not ASCII. -/
theorem le_of_mem_utf8EncodeChar {char : Char} (hchar : 0x7f < char.val.toNat) {byte : UInt8}
    (hbyte : byte ∈ String.utf8EncodeChar char) : 0x80 ≤ byte.toNat := by
  unfold String.utf8EncodeChar at hbyte
  simp only [if_neg (Nat.not_le_of_lt hchar)] at hbyte
  split_ifs at hbyte <;> simp only [List.mem_cons, List.not_mem_nil, or_false] at hbyte
  · rcases hbyte with rfl | rfl <;> exact le_toNat_ofNat_mod_add _ _ _ (by decide) (by decide)
      (by decide)
  · rcases hbyte with rfl | rfl | rfl <;> exact le_toNat_ofNat_mod_add _ _ _ (by decide) (by decide)
      (by decide)
  · rcases hbyte with rfl | rfl | rfl | rfl <;> exact le_toNat_ofNat_mod_add _ _ _ (by decide)
      (by decide) (by decide)

/-- A byte of ASCII in the encoding of a character is the character. -/
theorem eq_of_mem_utf8EncodeChar {char ascii : Char} (hascii : ascii.val.toNat ≤ 0x7f)
    (h : UInt8.ofNat ascii.val.toNat ∈ String.utf8EncodeChar char) : char = ascii := by
  have hbyte : (UInt8.ofNat ascii.val.toNat).toNat = ascii.val.toNat :=
    UInt8.toNat_ofNat_of_lt' (show _ < 256 by omega)
  by_cases hchar : char.val.toNat ≤ 0x7f
  · unfold String.utf8EncodeChar at h
    simp only [if_pos hchar, List.mem_singleton] at h
    have hnat := congrArg UInt8.toNat h
    rw [hbyte, UInt8.toNat_ofNat_of_lt' (show _ < 256 by omega)] at hnat
    exact Char.ext (UInt32.toNat_inj.mp hnat.symm)
  · have hle := le_of_mem_utf8EncodeChar (Nat.lt_of_not_le hchar) h
    omega

/-- The byte of an ASCII character is in an encoding if the character is in the text. -/
theorem mem_encodeUtf8 {text : Text} {bytes : List UInt8} (h : text.encodeUtf8 = some bytes)
    {ascii : Char} (hascii : ascii.val.toNat ≤ 0x7f) (hmem : ofChar ascii ∈ text) :
    UInt8.ofNat ascii.val.toNat ∈ bytes := by
  obtain ⟨chars, hchars, rfl⟩ := encodeUtf8_eq_some.mp h
  rw [← map_ofChar_of_toChars? hchars] at hmem
  obtain ⟨char, hchar, hsame⟩ := List.mem_map.mp hmem
  have hascii' : char = ascii := by
    have hchars := toChar?_ofChar char
    rw [hsame, toChar?_ofChar] at hchars
    exact (Option.some.inj hchars).symm
  refine List.mem_flatMap.mpr ⟨char, hchar, ?_⟩
  rw [hascii', String.utf8EncodeChar]
  simp only [if_pos hascii, List.mem_singleton]

/-- The byte of an ASCII character is in an encoding only if the character is in the text. -/
theorem not_mem_encodeUtf8 {text : Text} {bytes : List UInt8} (h : text.encodeUtf8 = some bytes)
    {ascii : Char} (hascii : ascii.val.toNat ≤ 0x7f) (hnot : ofChar ascii ∉ text) :
    UInt8.ofNat ascii.val.toNat ∉ bytes := by
  obtain ⟨chars, hchars, rfl⟩ := encodeUtf8_eq_some.mp h
  intro hmem
  obtain ⟨char, hchar, hbyte⟩ := List.mem_flatMap.mp hmem
  obtain rfl := eq_of_mem_utf8EncodeChar hascii hbyte
  rw [← map_ofChar_of_toChars? hchars] at hnot
  exact hnot (List.mem_map_of_mem hchar)

/-- The string of some bytes of ASCII. -/
def Text.ofAscii (bytes : List UInt8) : Text :=
  bytes.map fun byte ↦ ofChar (Char.ofUInt8 byte)

theorem utf8EncodeChar_ofUInt8 : ∀ byte < 0x80,
    String.utf8EncodeChar (Char.ofUInt8 (UInt8.ofNat byte)) = [UInt8.ofNat byte] := by
  decide

theorem encodeUtf8_ofAscii {bytes : List UInt8} (h : ∀ byte ∈ bytes, byte.toNat < 0x80) :
    (ofAscii bytes).encodeUtf8 = some bytes := by
  have hmap : ofAscii bytes = (bytes.map Char.ofUInt8).map ofChar := by
    rw [List.map_map]
    rfl
  refine encodeUtf8_eq_some.mpr ⟨bytes.map Char.ofUInt8, hmap ▸ toChars?_map_ofChar _, ?_⟩
  induction bytes with
  | nil => rfl
  | cons byte bytes ih =>
    obtain ⟨hbyte, hbytes⟩ := List.forall_mem_cons.mp h
    have hencode := utf8EncodeChar_ofUInt8 byte.toNat hbyte
    rw [UInt8.ofNat_toNat] at hencode
    rw [List.map_cons, List.flatMap_cons, hencode, ih hbytes (by rw [List.map_map]; rfl)]
    rfl

end PythonSystemd.Python
