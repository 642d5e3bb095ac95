import PythonSystemd.Python.Written

/-!
# Bytes as hexadecimal digits

`binascii.hexlify` and `bytes.hex` write two digits for a byte. `binascii.unhexlify` reads them
back, and so does `int` in base 16, two digits at a time.
-/

set_option autoImplicit false
set_option relaxedAutoImplicit false

namespace PythonSystemd.Python

open Library

/-- The two digits of a byte. -/
def byteDigits (byte : UInt8) : List ℕ :=
  [byte.toNat / 16, byte.toNat % 16]

/-- `binascii.hexlify`. -/
def hexlify (bytes : List UInt8) : List UInt8 :=
  bytes.flatMap fun byte ↦ (byteDigits byte).map digitByte

/-- `bytes.hex`. -/
def bytesHex (bytes : List UInt8) : Text :=
  bytes.flatMap fun byte ↦ (byteDigits byte).map digitCodePoint

/-- The byte of two digits, in either case of letters. -/
def pairValue (high low : UInt8) : Option UInt8 := do
  let high ← (digitValue high).filter (· < 16)
  let low ← (digitValue low).filter (· < 16)
  return UInt8.ofNat (16 * high + low)

def unhexlifyPairs : List UInt8 → Except PyException (List UInt8)
  | high :: low :: rest =>
    match pairValue high low with
    | none => .error (.valueError "Non-hexadecimal digit found")
    | some byte => do
      let bytes ← unhexlifyPairs rest
      return byte :: bytes
  | _ => .ok []

/-- `binascii.unhexlify`. Its exception is a `ValueError`. -/
def unhexlify (hexstr : List UInt8) : Except PyException (List UInt8) :=
  if hexstr.length % 2 = 1 then .error (.valueError "Odd-length string") else unhexlifyPairs hexstr

/-! ### Reading what was written -/

theorem byteDigits_lt (byte : UInt8) : ∀ digit ∈ byteDigits byte, digit < 16 := by
  intro digit hdigit
  have hlt := byte.toNat_lt
  rcases List.mem_pair.mp hdigit with rfl | rfl
  · omega
  · exact Nat.mod_lt _ (by norm_num)

theorem ofDigits_byteDigits (byte : UInt8) :
    Nat.ofDigits 16 (byteDigits byte).reverse = byte.toNat := by
  change byte.toNat % 16 + 16 * (byte.toNat / 16 + 16 * 0) = byte.toNat
  omega

/-- The digits of bytes are those of their number. -/
theorem ofDigits_flatMap_byteDigits (bytes : List UInt8) :
    Nat.ofDigits 16 (bytes.flatMap byteDigits).reverse = BigEndian.ofBytes bytes := by
  induction bytes using List.reverseRecOn with
  | nil => rfl
  | append_singleton bytes last ih =>
    have hlast : [last].flatMap byteDigits = byteDigits last := List.append_nil _
    have hlength : (byteDigits last).reverse.length = 2 := rfl
    rw [List.flatMap_append, List.reverse_append, Nat.ofDigits_append, ih, hlast,
      ofDigits_byteDigits, hlength, BigEndian.ofBytes_concat]
    ring

/-- The text of digits, as bytes. -/
theorem encodeUtf8_map_digitCodePoint {digits : List ℕ} (h : ∀ digit ∈ digits, digit < 16) :
    Text.encodeUtf8 (digits.map digitCodePoint) = some (digits.map digitByte) := by
  have hdigit : ∀ digit < 16, Text.encodeUtf8 [digitCodePoint digit] = some [digitByte digit] := by
    decide
  induction digits with
  | nil => rfl
  | cons first rest ih =>
    obtain ⟨hfirst, hrest⟩ := List.forall_mem_cons.mp h
    have hparts := encodeUtf8_append.mpr ⟨_, _, hdigit first hfirst, ih hrest, rfl⟩
    rwa [List.singleton_append] at hparts

theorem pairValue_digits (byte : UInt8) :
    pairValue (digitByte (byte.toNat / 16)) (digitByte (byte.toNat % 16)) = some byte := by
  have hlt := byte.toNat_lt
  have hhigh := digitValue_filter le_rfl (show byte.toNat / 16 < 16 by omega)
  have hlow := digitValue_filter le_rfl (Nat.mod_lt byte.toNat (show 16 > 0 by norm_num))
  have hbyte : UInt8.ofNat (16 * (byte.toNat / 16) + byte.toNat % 16) = byte := by
    rw [Nat.div_add_mod, UInt8.ofNat_toNat]
  rw [pairValue, hhigh, hlow]
  exact congrArg some hbyte

theorem length_hexlify (bytes : List UInt8) : (hexlify bytes).length = 2 * bytes.length := by
  induction bytes with
  | nil => rfl
  | cons byte bytes ih =>
    have hcons : hexlify (byte :: bytes) = (byteDigits byte).map digitByte ++ hexlify bytes := rfl
    rw [hcons, List.length_append, ih, List.length_cons]
    simp only [byteDigits, List.map_cons, List.map_nil, List.length_cons, List.length_nil]
    omega

theorem unhexlify_hexlify (bytes : List UInt8) : unhexlify (hexlify bytes) = .ok bytes := by
  have hpairs : unhexlifyPairs (hexlify bytes) = .ok bytes := by
    induction bytes with
    | nil => rfl
    | cons byte bytes ih =>
      change unhexlifyPairs (digitByte (byte.toNat / 16) :: digitByte (byte.toNat % 16) ::
        hexlify bytes) = _
      rw [unhexlifyPairs, pairValue_digits]
      simp only [ih]
      rfl
  rw [unhexlify, length_hexlify, if_neg (by omega), hpairs]

/-- `int` reads the two digits of a byte. -/
theorem intOfText_bytesHex_singleton (unicode : UnicodeDatabase) (digitLimit : ℕ) (byte : UInt8) :
    intOfText unicode 16 digitLimit (bytesHex [byte]) = .ok (byte.toNat : ℤ) := by
  have hdigits : bytesHex [byte] = (byteDigits byte).map digitCodePoint := List.append_nil _
  have hne : byteDigits byte ≠ [] := List.cons_ne_nil _ _
  rw [hdigits, intOfText_hexadecimal unicode digitLimit hne (byteDigits_lt byte),
    ofDigits_byteDigits]

end PythonSystemd.Python
