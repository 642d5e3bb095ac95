import Mathlib.Algebra.Order.Ring.Nat
import Mathlib.Data.List.TakeWhile

/-!
# Integer literals of C

The literals that `strtoul` reads in base zero, and `strtoul` itself, for an `unsigned long` of 64
bits in the locale of C. A string is the list of its characters before the terminating zero.

`strtoul_signed` is what `strtoul` makes of a text that is white space, a sign and a literal, and
`exists_literal` says that only such a text is read to its end.
-/

set_option autoImplicit false
set_option relaxedAutoImplicit false

namespace PythonSystemd.Library.IntegerLiterals

/-! ### Characters -/

def plus : UInt8 := '+'.toUInt8

def minus : UInt8 := '-'.toUInt8

def zeroDigit : UInt8 := '0'.toUInt8

def isSpace (c : UInt8) : Bool := c = 32 || 9 ≤ c && c ≤ 13

def isHexMark (c : UInt8) : Bool := c = 'x'.toUInt8 || c = 'X'.toUInt8

/-- The value of a character as a digit; sixteen for a character that is none. -/
def digitOf (c : UInt8) : ℕ :=
  if '0'.toUInt8 ≤ c ∧ c ≤ '9'.toUInt8 then c.toNat - '0'.toNat
  else if 'a'.toUInt8 ≤ c ∧ c ≤ 'f'.toUInt8 then c.toNat - 'a'.toNat + 10
  else if 'A'.toUInt8 ≤ c ∧ c ≤ 'F'.toUInt8 then c.toNat - 'A'.toNat + 10
  else 16

def isDigit (base : ℕ) (c : UInt8) : Bool := digitOf c < base

/-- The number that a row of digits writes. -/
def valueOf (base : ℕ) (digits : List UInt8) : ℕ :=
  digits.foldl (fun value c ↦ value * base + digitOf c) 0

/-! ### Literals -/

/-- A literal in one of the three bases, and its value. -/
inductive Literal : List UInt8 → ℕ → Prop
  | decimal (first : UInt8) (digits : List UInt8) (hfirst : first ≠ zeroDigit)
      (hdigits : ∀ c ∈ first :: digits, isDigit 10 c) :
      Literal (first :: digits) (valueOf 10 (first :: digits))
  | octal (digits : List UInt8) (hdigits : ∀ c ∈ digits, isDigit 8 c) :
      Literal (zeroDigit :: digits) (valueOf 8 (zeroDigit :: digits))
  | hexadecimal (mark first : UInt8) (digits : List UInt8) (hmark : isHexMark mark)
      (hdigits : ∀ c ∈ first :: digits, isDigit 16 c) :
      Literal (zeroDigit :: mark :: first :: digits) (valueOf 16 (first :: digits))

/-- The sign in front of a literal. -/
inductive Sign
  | none
  | plus
  | minus
  deriving DecidableEq

def Sign.text : Sign → List UInt8
  | .none => []
  | .plus => [IntegerLiterals.plus]
  | .minus => [IntegerLiterals.minus]

/-! ### The function -/

/-- What `strtoul` returns: the number, whether it sets `errno` to `ERANGE`, and the text behind the
last character it has read. -/
structure Conversion where
  value : UInt64
  rangeError : Bool
  rest : List UInt8

def splitSign : List UInt8 → Sign × List UInt8
  | [] => (.none, [])
  | c :: text =>
    if c = plus then (.plus, text)
    else if c = minus then (.minus, text)
    else (.none, c :: text)

/-- The text starts with the prefix of a hexadecimal literal and a digit behind it. -/
def hasHexPrefix : List UInt8 → Bool
  | zero :: mark :: first :: _ => zero = zeroDigit && isHexMark mark && isDigit 16 first
  | _ => false

/-- The base that the text is written in, and the text behind the prefix. -/
def splitBase (text : List UInt8) : ℕ × List UInt8 :=
  if hasHexPrefix text then (16, text.drop 2)
  else if text.head? = some zeroDigit then (8, text)
  else (10, text)

/-- The number with its sign, or the largest one where it does not fit. -/
def signedValue (sign : Sign) (magnitude : ℕ) : UInt64 :=
  if 2 ^ 64 ≤ magnitude then UInt64.ofNat (2 ^ 64 - 1)
  else if sign = .minus then -UInt64.ofNat magnitude
  else UInt64.ofNat magnitude

/-- `strtoul (text, .., 0)`. Without a digit nothing is read. -/
def strtoul (text : List UInt8) : Conversion :=
  let (sign, unsigned) := splitSign (text.dropWhile isSpace)
  let (base, digits) := splitBase unsigned
  let read := digits.takeWhile (isDigit base)
  if read = [] then { value := 0, rangeError := false, rest := text }
  else
    { value := signedValue sign (valueOf base read)
      rangeError := decide (2 ^ 64 ≤ valueOf base read)
      rest := digits.dropWhile (isDigit base) }

/-! ### Digits -/

section Digits

variable {c : UInt8} {base : ℕ}

theorem isDigit_iff : isDigit base c = true ↔ digitOf c < base :=
  decide_eq_true_iff

theorem isDigit_mono {larger : ℕ} (hle : base ≤ larger) (h : isDigit base c) : isDigit larger c :=
  isDigit_iff.mpr (lt_of_lt_of_le (isDigit_iff.mp h) hle)

/-- A digit is neither white space nor a sign. -/
theorem of_isDigit (h : isDigit 16 c) : isSpace c = false ∧ c ≠ plus ∧ c ≠ minus := by
  have hall : ∀ value < 256, isDigit 16 (UInt8.ofNat value) →
      isSpace (UInt8.ofNat value) = false ∧ UInt8.ofNat value ≠ plus ∧
        UInt8.ofNat value ≠ minus := by decide +kernel
  have hc := hall c.toNat c.toNat_lt
  rw [UInt8.ofNat_toNat] at hc
  exact hc h

theorem eq_of_isHexMark (h : isHexMark c) : c = 'x'.toUInt8 ∨ c = 'X'.toUInt8 := by
  simpa [isHexMark] using h

/-- The mark of a hexadecimal literal is no digit. -/
theorem not_isDigit_of_isHexMark (hbase : base ≤ 16) (h : isHexMark c) : ¬ isDigit base c := by
  intro hdigit
  have hsixteen : isDigit 16 c = false := by
    rcases eq_of_isHexMark h with rfl | rfl <;> decide
  rw [isDigit_mono hbase hdigit] at hsixteen
  cases hsixteen

theorem takeWhile_isDigit {digits : List UInt8} (h : ∀ c ∈ digits, isDigit base c) :
    digits.takeWhile (isDigit base) = digits :=
  List.takeWhile_eq_self_iff.mpr h

theorem dropWhile_isDigit {digits : List UInt8} (h : ∀ c ∈ digits, isDigit base c) :
    digits.dropWhile (isDigit base) = [] :=
  List.dropWhile_eq_nil_iff.mpr h

end Digits

/-! ### Literals and their base -/

theorem hasHexPrefix_iff {text : List UInt8} :
    hasHexPrefix text = true ↔ ∃ mark first digits, text = zeroDigit :: mark :: first :: digits ∧
      isHexMark mark ∧ isDigit 16 first := by
  unfold hasHexPrefix
  split
  · simp [and_assoc]
  · rename_i hshort
    refine iff_of_false Bool.false_ne_true ?_
    rintro ⟨mark, first, digits, rfl, -, -⟩
    exact hshort zeroDigit mark first digits rfl

theorem splitBase_decimal {first : UInt8} (hfirst : first ≠ zeroDigit) (digits : List UInt8) :
    splitBase (first :: digits) = (10, first :: digits) := by
  have hprefix : ¬ hasHexPrefix (first :: digits) = true := by
    intro h
    obtain ⟨mark, second, rest, heq, -, -⟩ := hasHexPrefix_iff.mp h
    exact hfirst (List.cons.inj heq).1
  rw [splitBase, if_neg hprefix, List.head?_cons, if_neg fun h ↦ hfirst (Option.some.inj h)]

theorem splitBase_octal {digits : List UInt8} (hdigits : ∀ c ∈ digits, isDigit 8 c) :
    splitBase (zeroDigit :: digits) = (8, zeroDigit :: digits) := by
  have hprefix : ¬ hasHexPrefix (zeroDigit :: digits) = true := by
    intro h
    obtain ⟨mark, first, rest, heq, hmark, -⟩ := hasHexPrefix_iff.mp h
    obtain ⟨-, rfl⟩ := List.cons.inj heq
    exact not_isDigit_of_isHexMark (by omega) hmark (hdigits mark List.mem_cons_self)
  rw [splitBase, if_neg hprefix, List.head?_cons, if_pos rfl]

theorem splitBase_hexadecimal {mark first : UInt8} (hmark : isHexMark mark)
    (hfirst : isDigit 16 first) (digits : List UInt8) :
    splitBase (zeroDigit :: mark :: first :: digits) = (16, first :: digits) := by
  have hprefix : hasHexPrefix (zeroDigit :: mark :: first :: digits) = true :=
    hasHexPrefix_iff.mpr ⟨mark, first, digits, rfl, hmark, hfirst⟩
  rw [splitBase, if_pos hprefix]
  rfl

/-- A literal is in the base that `strtoul` takes it for. -/
theorem literal_iff {text : List UInt8} {value : ℕ} :
    Literal text value ↔ (splitBase text).2 ≠ [] ∧
      (∀ c ∈ (splitBase text).2, isDigit (splitBase text).1 c) ∧
      value = valueOf (splitBase text).1 (splitBase text).2 := by
  constructor
  · intro h
    cases h with
    | decimal first digits hfirst hdigits =>
      rw [splitBase_decimal hfirst]
      exact ⟨List.cons_ne_nil _ _, hdigits, rfl⟩
    | octal digits hdigits =>
      have hzero : isDigit 8 zeroDigit = true := by decide
      rw [splitBase_octal hdigits]
      exact ⟨List.cons_ne_nil _ _, List.forall_mem_cons.mpr ⟨hzero, hdigits⟩, rfl⟩
    | hexadecimal mark first digits hmark hdigits =>
      rw [splitBase_hexadecimal hmark (hdigits first List.mem_cons_self)]
      exact ⟨List.cons_ne_nil _ _, hdigits, rfl⟩
  · rintro ⟨hne, hdigits, rfl⟩
    unfold splitBase at hne hdigits ⊢
    split_ifs at hne hdigits ⊢ with hprefix hzero
    · obtain ⟨mark, first, digits, rfl, hmark, -⟩ := hasHexPrefix_iff.mp hprefix
      exact .hexadecimal mark first digits hmark hdigits
    · obtain ⟨digits, rfl⟩ := List.head?_eq_some_iff.mp hzero
      exact .octal digits fun c hc ↦ hdigits c (List.mem_cons_of_mem _ hc)
    · cases text with
      | nil => exact absurd rfl hne
      | cons first digits => exact .decimal first digits (fun h ↦ hzero (congrArg some h)) hdigits

/-- A literal starts with a digit. -/
theorem Literal.exists_head {text : List UInt8} {value : ℕ} (h : Literal text value) :
    ∃ first digits, text = first :: digits ∧ isDigit 10 first := by
  have hzero : isDigit 10 zeroDigit = true := by decide
  cases h with
  | decimal first digits hfirst hdigits =>
    exact ⟨first, digits, rfl, hdigits first List.mem_cons_self⟩
  | octal digits hdigits => exact ⟨zeroDigit, digits, rfl, hzero⟩
  | hexadecimal mark first digits hmark hdigits => exact ⟨zeroDigit, _, rfl, hzero⟩

/-- There is no sign in a literal. -/
theorem Literal.minus_notMem {text : List UInt8} {value : ℕ} (h : Literal text value) :
    minus ∉ text := by
  have hdigit : ∀ {base : ℕ} {digits : List UInt8}, base ≤ 16 → (∀ c ∈ digits, isDigit base c) →
      minus ∉ digits := by
    intro base digits hbase hdigits hmem
    exact (of_isDigit (isDigit_mono hbase (hdigits minus hmem))).2.2 rfl
  have hzero : minus ≠ zeroDigit := by decide
  cases h with
  | decimal first digits hfirst hdigits => exact hdigit (by omega) hdigits
  | octal digits hdigits =>
    exact List.not_mem_cons_of_ne_of_not_mem hzero (hdigit (by omega) hdigits)
  | hexadecimal mark first digits hmark hdigits =>
    have hne : minus ≠ mark := by
      rcases eq_of_isHexMark hmark with rfl | rfl <;> decide
    exact List.not_mem_cons_of_ne_of_not_mem hzero
      (List.not_mem_cons_of_ne_of_not_mem hne (hdigit le_rfl hdigits))

/-! ### What `strtoul` reads -/

theorem text_of_splitSign (text : List UInt8) :
    text = (splitSign text).1.text ++ (splitSign text).2 := by
  cases text with
  | nil => rfl
  | cons c text =>
    by_cases hplus : c = plus
    · rw [splitSign, if_pos hplus, hplus]
      rfl
    · by_cases hminus : c = minus
      · rw [splitSign, if_neg hplus, if_pos hminus, hminus]
        rfl
      · rw [splitSign, if_neg hplus, if_neg hminus]
        rfl

/-- The signs are told apart by their first character, which is no white space. -/
theorem splitSign_text_append {first : UInt8} (hfirst : isDigit 10 first) (digits : List UInt8)
    (sign : Sign) :
    splitSign ((sign.text ++ first :: digits).dropWhile isSpace) = (sign, first :: digits) := by
  obtain ⟨hspace, hplus, hminus⟩ := of_isDigit (isDigit_mono (by omega) hfirst)
  cases sign with
  | none =>
    show splitSign ((first :: digits).dropWhile isSpace) = _
    rw [List.dropWhile_cons_of_neg (by rw [hspace]; exact Bool.false_ne_true), splitSign,
      if_neg hplus, if_neg hminus]
  | plus => rfl
  | minus => rfl

/-- White space, a sign and a literal are read to the end. -/
theorem strtoul_signed {blank : List UInt8} (hblank : ∀ c ∈ blank, isSpace c) (sign : Sign)
    {literal : List UInt8} {value : ℕ} (hliteral : Literal literal value) :
    strtoul (blank ++ sign.text ++ literal) =
      { value := signedValue sign value
        rangeError := decide (2 ^ 64 ≤ value)
        rest := [] } := by
  obtain ⟨first, digits, rfl, hfirst⟩ := hliteral.exists_head
  obtain ⟨hne, hdigits, rfl⟩ := literal_iff.mp hliteral
  unfold strtoul
  rw [List.append_assoc, List.dropWhile_append_of_pos hblank, splitSign_text_append hfirst]
  dsimp only
  rw [takeWhile_isDigit hdigits, dropWhile_isDigit hdigits, if_neg hne]

/-- Nothing else is read to the end. -/
theorem exists_literal {text : List UInt8} (hne : text ≠ []) (hrest : (strtoul text).rest = []) :
    ∃ blank sign literal value, text = blank ++ Sign.text sign ++ literal ∧
      (∀ c ∈ blank, isSpace c) ∧ Literal literal value := by
  unfold strtoul at hrest
  dsimp only at hrest
  split_ifs at hrest with hread
  · exact absurd hrest hne
  · have hall := List.dropWhile_eq_nil_iff.mp hrest
    rw [takeWhile_isDigit hall] at hread
    refine ⟨text.takeWhile isSpace, (splitSign (text.dropWhile isSpace)).1, _, _, ?_,
      fun c hc ↦ List.mem_takeWhile_imp hc, literal_iff.mpr ⟨hread, hall, rfl⟩⟩
    rw [List.append_assoc, ← text_of_splitSign]
    exact (List.takeWhile_append_dropWhile).symm

end PythonSystemd.Library.IntegerLiterals
