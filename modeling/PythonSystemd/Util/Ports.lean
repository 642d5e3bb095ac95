import PythonSystemd.Library.IntegerLiterals
import PythonSystemd.Util.SockAddr

/-!
# Port numbers

`safe_atou` of `util.c`, which reads the port of a socket address. `strtoul` takes a number with a
minus for the number it is congruent to, so `safe_atou` refuses a text that starts with a minus; but
`strtoul` has skipped white space before the sign, and a minus behind white space is not refused.
`parsesPorts_iff` says which texts are taken for a number that they do not denote.
-/

set_option autoImplicit false
set_option relaxedAutoImplicit false

namespace PythonSystemd.Util

open Library.CheckedMemory Library.IntegerLiterals Python

def ERANGE : ℤ := 34

/-- `safe_atou`. -/
def safeAtou (s : List UInt8) : Except ℤ UInt32 :=
  let l := strtoul s
  if l.rangeError then .error (-ERANGE)
  else if l.rest = s ∨ l.rest ≠ [] then .error (-EINVAL)
  else if s.head? = some minus then .error (-ERANGE)
  else if l.value.toUInt32.toUInt64 ≠ l.value then .error (-ERANGE)
  else .ok l.value.toUInt32

/-! ### Numbers -/

/-- White space, an optional plus and a literal of a number that fits in 32 bits. -/
def IsUnsigned (text : List UInt8) (u : UInt32) : Prop :=
  ∃ blank sign literal, text = blank ++ Sign.text sign ++ literal ∧
    (∀ c ∈ blank, isSpace c) ∧ sign ≠ .minus ∧ Literal literal u.toNat

/-- There is a minus before any digit. -/
def IsNegative (text : List UInt8) : Prop :=
  ∃ before after, text = before ++ minus :: after ∧ ∀ c ∈ before, ¬ isDigit 10 c

/-- Behind white space, a minus and the literal of a number whose negative, modulo `2 ^ 64`, fits in
32 bits. -/
def WrapsToUnsigned (text : List UInt8) : Prop :=
  ∃ blank literal value, text = blank ++ Sign.text .minus ++ literal ∧ blank ≠ [] ∧
    (∀ c ∈ blank, isSpace c) ∧ Literal literal value ∧
    (value = 0 ∨ 2 ^ 64 - 2 ^ 32 < value ∧ value < 2 ^ 64)

theorem toUInt64_toUInt32_eq_iff {l : UInt64} :
    l.toUInt32.toUInt64 = l ↔ l.toNat < 2 ^ 32 := by
  rw [← UInt64.toNat_inj, UInt32.toNat_toUInt64, UInt64.toNat_toUInt32]
  omega

/-- Only a minus that nothing stands before is seen. -/
theorem head_ne_minus {blank literal : List UInt8} {sign : Sign} {value : ℕ}
    (hblank : ∀ c ∈ blank, isSpace c) (hliteral : Literal literal value)
    (hminus : sign = .minus → blank ≠ []) :
    (blank ++ Sign.text sign ++ literal).head? ≠ some minus := by
  obtain ⟨first, digits, rfl, hfirst⟩ := hliteral.exists_head
  intro hhead
  cases blank with
  | nil =>
    cases sign with
    | none =>
      have heq : first = minus := Option.some.inj hhead
      exact (of_isDigit (isDigit_mono (by omega) hfirst)).2.2 heq
    | plus =>
      have heq : plus = minus := Option.some.inj hhead
      exact absurd heq (by decide)
    | minus => exact hminus rfl rfl
  | cons c blank =>
    have heq : c = minus := Option.some.inj hhead
    have hspace := hblank c List.mem_cons_self
    rw [heq] at hspace
    exact absurd hspace (by decide)

/-- A text that `safe_atou` accepts is white space, a sign and a literal; the minus stands behind
some white space. -/
theorem safeAtou_eq_ok_iff {s : List UInt8} {u : UInt32} :
    safeAtou s = .ok u ↔
      ∃ blank sign literal value, s = blank ++ Sign.text sign ++ literal ∧
        (∀ c ∈ blank, isSpace c) ∧ Literal literal value ∧ value < 2 ^ 64 ∧
        (sign = .minus → blank ≠ []) ∧ (signedValue sign value).toNat < 2 ^ 32 ∧
        u = (signedValue sign value).toUInt32 := by
  constructor
  · intro h
    unfold safeAtou at h
    dsimp only at h
    split_ifs at h with hrange hrest hminus hfits
    obtain ⟨hread, hend⟩ := not_or.mp hrest
    have hend := not_not.mp hend
    have hne : s ≠ [] := by
      rintro rfl
      exact hread rfl
    obtain ⟨blank, sign, literal, value, rfl, hblank, hliteral⟩ := exists_literal hne hend
    have hconversion := strtoul_signed hblank sign hliteral
    rw [hconversion] at hrange hfits h
    refine ⟨blank, sign, literal, value, rfl, hblank, hliteral, ?_, ?_,
      toUInt64_toUInt32_eq_iff.mp (not_not.mp hfits), (Except.ok.inj h).symm⟩
    · exact not_le.mp fun hle ↦ hrange (decide_eq_true hle)
    · rintro rfl rfl
      exact hminus rfl
  · rintro ⟨blank, sign, literal, value, rfl, hblank, hliteral, hvalue, hminus, hfits, rfl⟩
    have hrest : ¬ ([] = blank ++ Sign.text sign ++ literal ∨ ([] : List UInt8) ≠ []) := by
      rintro (hnil | hnil)
      · obtain ⟨first, digits, rfl, -⟩ := hliteral.exists_head
        exact List.append_ne_nil_of_right_ne_nil _ (List.cons_ne_nil _ _) hnil.symm
      · exact hnil rfl
    have hhead := head_ne_minus hblank hliteral hminus
    unfold safeAtou
    rw [strtoul_signed hblank sign hliteral]
    dsimp only
    rw [if_neg fun h ↦ not_le.mpr hvalue (of_decide_eq_true h), if_neg hrest,
      if_neg hhead, if_neg (not_not.mpr (toUInt64_toUInt32_eq_iff.mpr hfits))]

/-! ### Signs -/

theorem toNat_signedValue_of_ne {sign : Sign} (hsign : sign ≠ .minus) {value : ℕ}
    (hvalue : value < 2 ^ 64) : (signedValue sign value).toNat = value := by
  unfold signedValue
  rw [if_neg (not_le.mpr hvalue), if_neg hsign]
  exact UInt64.toNat_ofNat_of_lt' hvalue

theorem toNat_signedValue_minus {value : ℕ} (hvalue : value < 2 ^ 64) :
    (signedValue .minus value).toNat = (2 ^ 64 - value) % 2 ^ 64 := by
  unfold signedValue
  rw [if_neg (not_le.mpr hvalue), if_pos rfl, UInt64.toNat_neg,
    UInt64.toNat_ofNat_of_lt' hvalue]
  rfl

/-- There is no minus in a number without one. -/
theorem IsUnsigned.not_isNegative {text : List UInt8} {u : UInt32} (h : IsUnsigned text u) :
    ¬ IsNegative text := by
  obtain ⟨blank, sign, literal, rfl, hblank, hsign, hliteral⟩ := h
  rintro ⟨before, after, heq, -⟩
  have hmem : minus ∈ blank ++ Sign.text sign ++ literal := by
    rw [heq]
    exact List.mem_append_right _ List.mem_cons_self
  rcases List.mem_append.mp hmem with hfront | hback
  · rcases List.mem_append.mp hfront with hspace | hsignText
    · exact absurd (hblank minus hspace) (by decide)
    · cases sign with
      | none => exact List.not_mem_nil hsignText
      | plus => exact absurd (List.mem_singleton.mp hsignText) (by decide)
      | minus => exact hsign rfl
  · exact hliteral.minus_notMem hback

theorem isNegative_of_minus {blank literal : List UInt8} (hblank : ∀ c ∈ blank, isSpace c) :
    IsNegative (blank ++ Sign.text .minus ++ literal) := by
  refine ⟨blank, literal, by rw [List.append_assoc]; rfl, fun c hc hdigit ↦ ?_⟩
  have hspace := (of_isDigit (isDigit_mono (by omega) hdigit)).1
  rw [hblank c hc] at hspace
  cases hspace

/-- A number without a minus is accepted, with its value. -/
theorem safeAtou_of_isUnsigned {s : List UInt8} {u : UInt32} (h : IsUnsigned s u) :
    safeAtou s = .ok u := by
  obtain ⟨blank, sign, literal, rfl, hblank, hsign, hliteral⟩ := h
  have hbound := u.toNat_lt
  have hvalue : u.toNat < 2 ^ 64 := by omega
  have hsigned := toNat_signedValue_of_ne hsign hvalue
  refine safeAtou_eq_ok_iff.mpr ⟨blank, sign, literal, u.toNat, rfl, hblank, hliteral, hvalue,
    fun hminus ↦ absurd hminus hsign, by omega, ?_⟩
  rw [← UInt32.toNat_inj, UInt64.toNat_toUInt32, hsigned]
  omega

/-- What is accepted is a number without a minus, or one that wraps around. -/
theorem isUnsigned_or_wraps_of_safeAtou {s : List UInt8} {u : UInt32} (h : safeAtou s = .ok u) :
    IsUnsigned s u ∨ WrapsToUnsigned s := by
  obtain ⟨blank, sign, literal, value, rfl, hblank, hliteral, hvalue, hminus, hfits, rfl⟩ :=
    safeAtou_eq_ok_iff.mp h
  by_cases hsign : sign = .minus
  · obtain rfl := hsign
    rw [toNat_signedValue_minus hvalue] at hfits
    exact .inr ⟨blank, literal, value, rfl, hminus rfl, hblank, hliteral, by omega⟩
  · have hsigned := toNat_signedValue_of_ne hsign hvalue
    have hu : (signedValue sign value).toUInt32.toNat = value := by
      rw [UInt64.toNat_toUInt32, hsigned]
      omega
    exact .inl ⟨blank, sign, literal, rfl, hblank, hsign, hu.symm ▸ hliteral⟩

theorem exists_safeAtou_of_wraps {s : List UInt8} (h : WrapsToUnsigned s) :
    ∃ u, safeAtou s = .ok u ∧ IsNegative s := by
  obtain ⟨blank, literal, value, rfl, hne, hblank, hliteral, hwraps⟩ := h
  have hvalue : value < 2 ^ 64 := by omega
  have hsigned := toNat_signedValue_minus hvalue
  exact ⟨_, safeAtou_eq_ok_iff.mpr ⟨blank, .minus, literal, value, rfl, hblank, hliteral, hvalue,
    fun _ ↦ hne, by omega, rfl⟩, isNegative_of_minus hblank⟩

/-! ### Ports of an address -/

section Refused

variable {calls : NetCalls} {text : List UInt8} (htext : ∀ u, safeAtou text ≠ .ok u)

include htext

theorem not_denotesPort (port : UInt16) : ¬ DenotesPort safeAtou text port := by
  rintro ⟨u, hu, -⟩
  exact htext u hu

/-- A text that is refused as a number is no port behind a host. -/
theorem parseSockaddr_hostPort_ne_ok {host : List UInt8}
    (hbracket : (host ++ colon :: text).head? ≠ some openBracket) (hcolon : colon ∉ host)
    (result : SockaddrUnion × ℕ) :
    parseSockaddr calls safeAtou (host ++ colon :: text) .zero ≠ .ok result := by
  intro h
  unfold parseSockaddr at h
  rw [if_neg hbracket, strchr_append hcolon] at h
  obtain ⟨port, hport, -⟩ := returned_bind.mp h
  exact not_denotesPort htext port (parsePort_eq_ok_iff.mp hport)

/-- Nor is it one behind a bracket. -/
theorem parseSockaddr_bracketed_ne_ok {v6 : List UInt8} (hv6 : closeBracket ∉ v6)
    (result : SockaddrUnion × ℕ) :
    parseSockaddr calls safeAtou (openBracket :: v6 ++ closeBracket :: colon :: text) .zero ≠
      .ok result := by
  intro h
  unfold parseSockaddr at h
  rw [List.cons_append, List.head?_cons, if_pos rfl, List.tail_cons, strchr_append hv6] at h
  dsimp only at h
  cases hpton : calls.inetPton6 v6 with
  | failed errno hpos =>
    rw [hpton] at h
    cases h
  | invalid =>
    rw [hpton] at h
    cases h
  | converted address =>
    rw [hpton] at h
    obtain ⟨after, hsuffix, -⟩ := returned_bind.mp h
    obtain ⟨port, hdenotes, -⟩ := (parseSuffix_eq_ok_iff rfl).mp hsuffix
    cases hdenotes with
    | port text port hport => exact not_denotesPort htext port hport

/-- Alone it can only be a host, and the address has no port. -/
theorem port_of_parseSockaddr (hbracket : text.head? ≠ some openBracket) (hcolon : colon ∉ text)
    {result : SockaddrUnion × ℕ} (h : parseSockaddr calls safeAtou text .zero = .ok result) :
    result.1.port = htobe16 0 := by
  unfold parseSockaddr at h
  rw [if_neg hbracket, strchr_eq_none_iff.mpr hcolon] at h
  dsimp only at h
  cases hnumber : safeAtou text with
  | ok u => exact absurd hnumber (htext u)
  | error r =>
    rw [hnumber] at h
    obtain ⟨endpoint, hhost, rfl⟩ := assignAddress_eq_ok_iff.mp h
    cases hhost with
    | address address hpton => rfl
    | interface hpton hlength hindex => rfl

end Refused

/-! ### When only numbers are accepted -/

/-- The texts of numbers are accepted, with their values, and no others; a text with a minus is
refused, and `parse_sockaddr` does not take it for a port in any of the places for one. -/
structure ParsesPorts (text : List UInt8) : Prop where
  accepted : ∀ u, safeAtou text = .ok u ↔ IsUnsigned text u
  negative : IsNegative text → ∀ u, safeAtou text ≠ .ok u
  hostPort : IsNegative text → ∀ calls host result,
    (host ++ colon :: text).head? ≠ some openBracket → colon ∉ host →
      parseSockaddr calls safeAtou (host ++ colon :: text) .zero ≠ .ok result
  bracketed : IsNegative text → ∀ calls v6 result, closeBracket ∉ v6 →
    parseSockaddr calls safeAtou (openBracket :: v6 ++ closeBracket :: colon :: text) .zero ≠
      .ok result
  bare : IsNegative text → ∀ calls result, text.head? ≠ some openBracket → colon ∉ text →
    parseSockaddr calls safeAtou text .zero = .ok result → result.1.port = htobe16 0

/-- Exactly the texts that wrap around are taken for a number that they do not denote. -/
theorem parsesPorts_iff (text : List UInt8) : ParsesPorts text ↔ ¬ WrapsToUnsigned text := by
  constructor
  · intro h hwraps
    obtain ⟨u, hu, hnegative⟩ := exists_safeAtou_of_wraps hwraps
    exact h.negative hnegative u hu
  · intro hwraps
    have haccepted : ∀ u, safeAtou text = .ok u ↔ IsUnsigned text u := fun u ↦
      ⟨fun h ↦ (isUnsigned_or_wraps_of_safeAtou h).resolve_right hwraps, safeAtou_of_isUnsigned⟩
    have hnegative : IsNegative text → ∀ u, safeAtou text ≠ .ok u :=
      fun h u hu ↦ ((haccepted u).mp hu).not_isNegative h
    exact ⟨haccepted, hnegative,
      fun h _ _ result hbracket hcolon ↦
        parseSockaddr_hostPort_ne_ok (hnegative h) hbracket hcolon result,
      fun h _ _ result hv6 ↦ parseSockaddr_bracketed_ne_ok (hnegative h) hv6 result,
      fun h _ _ hbracket hcolon hparse ↦
        port_of_parseSockaddr (hnegative h) hbracket hcolon hparse⟩

/-- `" -18446744073709551615"` is taken for the port 1. -/
theorem not_parsesPorts_negative :
    ¬ ParsesPorts (" -18446744073709551615".toList.map Char.toUInt8) := by
  intro h
  have hnegative : IsNegative (" -18446744073709551615".toList.map Char.toUInt8) := by
    refine ⟨[32], "18446744073709551615".toList.map Char.toUInt8, by decide, fun c hc ↦ ?_⟩
    rw [List.mem_singleton.mp hc]
    decide
  refine h.negative hnegative 1 ?_
  decide

end PythonSystemd.Util
