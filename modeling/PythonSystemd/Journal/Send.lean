import Mathlib.Data.List.Forall2
import PythonSystemd.Library.OrderedDict
import PythonSystemd.Python.Pyutil

/-!
# Sending an entry

`send` and `_make_line` of `journal.py`, and `journal_sendv` of `_journal.c`, which hands the lines
to `sd_journal_sendv` with their lengths. What is handed over is part of the outcome, so that it
can be said that nothing was.

`send` builds its lines from what it was given in three ways. `sendArgs_eq` brings them together:
they are the lines of the list `supplied` of all fields, made one by one by `_make_line`.
-/

set_option autoImplicit false
set_option relaxedAutoImplicit false

namespace PythonSystemd.Journal

open Library Library.CheckedMemory Python

/-! ### Arguments -/

/-- The value of a field: a string, bytes, or another object with what `str` makes of it. -/
inductive FieldValue
  | text (value : Text)
  | bytes (value : List UInt8)
  | other (str : Except PyException Text)

/-- A `uuid.UUID`, as the integer of its 128 bits. -/
abbrev Uuid := Fin (2 ^ 128)

namespace Uuid

variable (uuid : Uuid)

def digit (value : ℕ) : Char :=
  if value < 10 then Char.ofNat (48 + value) else Char.ofNat (87 + value)

/-- The attribute `hex`: 32 digits. -/
def hex : Text :=
  (List.range 32).map fun i ↦ CodePoint.ofChar (digit (uuid.val / 16 ^ (31 - i) % 16))

/-- `str`: the digits with four dashes. -/
def str : Text :=
  let dash := Text.ofString "-"
  uuid.hex.take 8 ++ dash ++ (uuid.hex.drop 8).take 4 ++ dash ++ (uuid.hex.drop 12).take 4 ++
    dash ++ (uuid.hex.drop 16).take 4 ++ dash ++ uuid.hex.drop 20

end Uuid

/-- The argument `MESSAGE_ID`: a string or a `uuid.UUID`. -/
inductive MessageId
  | text (value : Text)
  | uuid (value : Uuid)

/-- `getattr(MESSAGE_ID, 'hex', MESSAGE_ID)`. -/
def MessageId.id : MessageId → Text
  | .text value => value
  | .uuid value => value.hex

/-- The names of the parameters of `send` that are not `**kwargs`. -/
def sendParameters : List Text :=
  [.ofString "MESSAGE", .ofString "MESSAGE_ID", .ofString "CODE_FILE", .ofString "CODE_LINE",
    .ofString "CODE_FUNC"]

/-- The arguments of `send`. No value stands for `None`; a name in `kwargs` is none of the
others. The line is a plain integer of no more digits than the interpreter writes: `{:d}` of a
boolean is not what `str` makes of it, and of a longer number it raises. -/
structure SendCall where
  message : Text
  messageId : Option MessageId
  codeFile : Option Text
  codeLine : Option ℤ
  codeFunc : Option Text
  kwargs : OrderedDict Text FieldValue
  kwargs_free : ∀ name ∈ kwargs.keys, name ∉ sendParameters

/-- The caller of `send`, as `traceback.extract_stack` has it. -/
structure StackFrame where
  filename : Text
  lineno : ℤ
  name : Text

/-! ### The functions -/

/-- An argument of `sendv`. -/
inductive Item
  | text (value : Text)
  | bytes (value : List UInt8)

/-- `_make_line`. -/
def makeLine (field : Text) : FieldValue → Except PyException Item
  | .bytes value => do
    let encoded ← encodeStrict field
    return .bytes (encoded ++ [61] ++ value)
  | .text value => .ok (.text (field ++ .ofString "=" ++ value))
  | .other str => do
    let value ← str
    return .text (field ++ .ofString "=" ++ value)

/-- The lines of the keyword arguments. -/
def makeLines : List (Text × FieldValue) → Except PyException (List Item)
  | [] => .ok []
  | (key, value) :: fields => do
    let line ← makeLine key value
    let lines ← makeLines fields
    return line :: lines

/-- The three arguments that say where the message comes from, taken from the caller if none is
given. -/
def SendCall.code (call : SendCall) (caller : StackFrame) :
    Option Text × Option ℤ × Option Text :=
  match call.codeFile, call.codeLine, call.codeFunc with
  | none, none, none => (some caller.filename, some caller.lineno, some caller.name)
  | codeFile, codeLine, codeFunc => (codeFile, codeLine, codeFunc)

/-- An argument that is sent when it is given. -/
def optionalLine {α : Type} (start : String) (argument : Option α) (text : α → Text) : List Item :=
  match argument with
  | none => []
  | some value => [.text (.ofString start ++ text value)]

/-- The arguments that `send` has for `sendv`. -/
def sendArgs (caller : StackFrame) (call : SendCall) : Except PyException (List Item) := do
  let code := call.code caller
  let lines ← makeLines call.kwargs.items
  return [.text (.ofString "MESSAGE=" ++ call.message)] ++
    optionalLine "MESSAGE_ID=" call.messageId MessageId.id ++
    optionalLine "CODE_FILE=" code.1 (fun file ↦ file) ++
    optionalLine "CODE_LINE=" code.2.1 (fun line ↦ .ofString (toString line)) ++
    optionalLine "CODE_FUNC=" code.2.2 (fun func ↦ func) ++ lines

/-- One turn of the loop in `journal_sendv`. -/
def encodeItem : Item → Except PyException (List UInt8)
  | .text value => encodeStrict value
  | .bytes value => .ok value

/-- The loop in `journal_sendv`, which fills the vector. -/
def fillIov : List Item → Except PyException (List (List UInt8))
  | [] => .ok []
  | item :: items => do
    let line ← encodeItem item
    let lines ← fillIov items
    return line :: lines

/-- What was handed to `sd_journal_sendv`, if it was called, and the result for Python. -/
structure SendOutcome where
  handed : Option (List (List UInt8))
  result : Except PyException Unit

/-- `journal_sendv`, for the result of `sd_journal_sendv`. -/
def journalSendv (args : List Item) (sendv : List (List UInt8) → ℤ) : SendOutcome :=
  match fillIov args with
  | .error exception => { handed := none, result := .error exception }
  | .ok iov =>
    { handed := some iov
      result := if sendv iov < 0 then .error (.osError (-sendv iov) none) else .ok () }

/-- `send`. -/
def send (caller : StackFrame) (call : SendCall) (sendv : List (List UInt8) → ℤ) : SendOutcome :=
  match sendArgs caller call with
  | .error exception => { handed := none, result := .error exception }
  | .ok args => journalSendv args sendv

/-! ### All fields as one list -/

/-- An argument that is sent when it is given, as a field. -/
def optionalField {α : Type} (name : String) (argument : Option α) (text : α → Text) :
    List (Text × FieldValue) :=
  match argument with
  | none => []
  | some value => [(.ofString name, .text (text value))]

/-- The fields that a call supplies or that come from the caller, when the id is written so. -/
def supplied (idText : MessageId → Text) (caller : StackFrame) (call : SendCall) :
    List (Text × FieldValue) :=
  let code := call.code caller
  [(.ofString "MESSAGE", .text call.message)] ++
    optionalField "MESSAGE_ID" call.messageId idText ++
    optionalField "CODE_FILE" code.1 (fun file ↦ file) ++
    optionalField "CODE_LINE" code.2.1 (fun line ↦ .ofString (toString line)) ++
    optionalField "CODE_FUNC" code.2.2 (fun func ↦ func) ++ call.kwargs.items

theorem ofString_append (first second : String) :
    Text.ofString (first ++ second) = Text.ofString first ++ Text.ofString second := by
  unfold Text.ofString
  rw [String.toList_append, List.map_append]

theorem makeLines_text_cons (name value : Text) (fields : List (Text × FieldValue)) :
    makeLines ((name, .text value) :: fields) =
      makeLines fields >>= fun lines ↦ .ok (.text (name ++ .ofString "=" ++ value) :: lines) :=
  rfl

theorem makeLines_optionalField_append {α : Type} (name : String) (argument : Option α)
    (text : α → Text) (fields : List (Text × FieldValue)) :
    makeLines (optionalField name argument text ++ fields) =
      makeLines fields >>= fun lines ↦
        .ok (optionalLine (name ++ "=") argument text ++ lines) := by
  cases argument with
  | none =>
    change makeLines fields = _
    cases makeLines fields with
    | error exception => rfl
    | ok lines => rfl
  | some value =>
    unfold optionalField optionalLine
    rw [List.singleton_append, makeLines_text_cons, ofString_append]
    rfl

/-- The lines of `send` are those that `_make_line` makes of all its fields. -/
theorem sendArgs_eq (caller : StackFrame) (call : SendCall) :
    sendArgs caller call = makeLines (supplied MessageId.id caller call) := by
  unfold sendArgs supplied
  simp only [List.append_assoc, List.cons_append, List.nil_append]
  rw [makeLines_text_cons, makeLines_optionalField_append, makeLines_optionalField_append,
    makeLines_optionalField_append, makeLines_optionalField_append]
  cases makeLines call.kwargs.items with
  | error exception => rfl
  | ok lines => rfl

/-! ### Lines as bytes -/

/-- The bytes that a value stands for, if it can be encoded. -/
def FieldValue.encoded : FieldValue → Option (List UInt8)
  | .text value => value.encodeUtf8
  | .bytes value => some value
  | .other (.ok value) => value.encodeUtf8
  | .other (.error _) => none

/-- The bytes of the name and of the value of a field. -/
structure Encodes (field : Text × FieldValue) (bytes : List UInt8 × List UInt8) : Prop where
  name : field.1.encodeUtf8 = some bytes.1
  value : field.2.encoded = some bytes.2

def line (bytes : List UInt8 × List UInt8) : List UInt8 :=
  bytes.1 ++ 61 :: bytes.2

/-- A line of text is encoded as the line of its parts. -/
theorem encodeItem_text_line {name value : Text} {bytes : List UInt8} :
    encodeItem (.text (name ++ .ofString "=" ++ value)) = .ok bytes ↔
      ∃ encoded, Encodes (name, .text value) encoded ∧ bytes = line encoded := by
  have hequals : (Text.ofString "=").encodeUtf8 = some [61] := encodeUtf8_ofString "="
  rw [encodeItem, encodeStrict_eq_ok, List.append_assoc, encodeUtf8_append]
  constructor
  · rintro ⟨nameBytes, rest, hname, hrest, rfl⟩
    obtain ⟨delimiter, valueBytes, hdelimiter, hvalue, rfl⟩ := encodeUtf8_append.mp hrest
    obtain rfl := Option.some.inj (hequals.symm.trans hdelimiter)
    exact ⟨(nameBytes, valueBytes), ⟨hname, hvalue⟩, rfl⟩
  · rintro ⟨encoded, ⟨hname, hvalue⟩, rfl⟩
    have hrest := encodeUtf8_append.mpr ⟨[61], encoded.2, hequals, hvalue, rfl⟩
    exact ⟨encoded.1, [61] ++ encoded.2, hname, hrest, rfl⟩

/-- A field becomes the line of its bytes, or is not encoded at all. -/
theorem encodeItem_makeLine {field : Text × FieldValue} {bytes : List UInt8} :
    (makeLine field.1 field.2 >>= encodeItem) = .ok bytes ↔
      ∃ encoded, Encodes field encoded ∧ bytes = line encoded := by
  obtain ⟨name, value⟩ := field
  cases value with
  | text value => exact encodeItem_text_line
  | other str =>
    cases str with
    | error exception =>
      refine iff_of_false (fun h ↦ by cases h) ?_
      rintro ⟨encoded, ⟨-, hvalue⟩, -⟩
      cases hvalue
    | ok value =>
      refine (encodeItem_text_line).trans ?_
      constructor
      · rintro ⟨encoded, ⟨hname, hvalue⟩, rfl⟩
        exact ⟨encoded, ⟨hname, hvalue⟩, rfl⟩
      · rintro ⟨encoded, ⟨hname, hvalue⟩, rfl⟩
        exact ⟨encoded, ⟨hname, hvalue⟩, rfl⟩
  | bytes value =>
    constructor
    · intro h
      obtain ⟨item, hitem, hencode⟩ := returned_bind.mp h
      obtain ⟨nameBytes, hname, hitem⟩ := returned_bind.mp hitem
      obtain rfl := Except.ok.inj hitem
      refine ⟨(nameBytes, value), ⟨encodeStrict_eq_ok.mp hname, rfl⟩, ?_⟩
      rw [← Except.ok.inj hencode, List.append_assoc]
      rfl
    · rintro ⟨⟨nameBytes, valueBytes⟩, ⟨hname, hvalue⟩, rfl⟩
      obtain rfl := Option.some.inj hvalue
      have hline : nameBytes ++ [61] ++ value = line (nameBytes, value) := List.append_assoc _ _ _
      refine returned_bind.mpr ⟨.bytes (nameBytes ++ [61] ++ value), ?_, congrArg _ hline⟩
      exact returned_bind.mpr ⟨nameBytes, encodeStrict_eq_ok.mpr hname, rfl⟩

/-- The lines that are handed over are those of the fields, in order. -/
theorem fillIov_makeLines {fields : List (Text × FieldValue)} {lines : List (List UInt8)} :
    (makeLines fields >>= fillIov) = .ok lines ↔
      ∃ encoded, List.Forall₂ Encodes fields encoded ∧ lines = encoded.map line := by
  induction fields generalizing lines with
  | nil =>
    constructor
    · intro h
      obtain rfl := Except.ok.inj h
      exact ⟨[], .nil, rfl⟩
    · rintro ⟨encoded, hencoded, rfl⟩
      cases hencoded
      rfl
  | cons field fields ih =>
    constructor
    · intro h
      obtain ⟨items, hitems, hfill⟩ := returned_bind.mp h
      obtain ⟨item, hitem, hitems⟩ := returned_bind.mp hitems
      obtain ⟨rest, hrest, hitems⟩ := returned_bind.mp hitems
      obtain rfl := Except.ok.inj hitems
      obtain ⟨first, hfirst, hfill⟩ := returned_bind.mp hfill
      obtain ⟨others, hothers, hfill⟩ := returned_bind.mp hfill
      obtain rfl := Except.ok.inj hfill
      obtain ⟨bytes, hbytes, rfl⟩ :=
        encodeItem_makeLine.mp (returned_bind.mpr ⟨item, hitem, hfirst⟩)
      obtain ⟨encoded, hencoded, rfl⟩ := ih.mp (returned_bind.mpr ⟨rest, hrest, hothers⟩)
      exact ⟨bytes :: encoded, .cons hbytes hencoded, rfl⟩
    · rintro ⟨_, hencoded, rfl⟩
      cases hencoded with
      | cons hbytes hrest =>
        obtain ⟨item, hitem, hfirst⟩ :=
          returned_bind.mp (encodeItem_makeLine.mpr ⟨_, hbytes, rfl⟩)
        obtain ⟨items, hitems, hothers⟩ := returned_bind.mp (ih.mpr ⟨_, hrest, rfl⟩)
        refine returned_bind.mpr ⟨item :: items, ?_, ?_⟩
        · exact returned_bind.mpr ⟨item, hitem, returned_bind.mpr ⟨items, hitems, rfl⟩⟩
        · exact returned_bind.mpr ⟨_, hfirst, returned_bind.mpr ⟨_, hothers, rfl⟩⟩

/-- `send` hands over the lines of all its fields, or nothing. -/
theorem handed_send_iff (caller : StackFrame) (call : SendCall) (sendv : List (List UInt8) → ℤ)
    {lines : List (List UInt8)} :
    (send caller call sendv).handed = some lines ↔
      ∃ encoded, List.Forall₂ Encodes (supplied MessageId.id caller call) encoded ∧
        lines = encoded.map line := by
  rw [← fillIov_makeLines, ← sendArgs_eq]
  unfold send
  cases sendArgs caller call with
  | error exception => exact iff_of_false (fun h ↦ by cases h) (fun h ↦ by cases h)
  | ok args =>
    change (journalSendv args sendv).handed = some lines ↔ fillIov args = .ok lines
    unfold journalSendv
    cases fillIov args with
    | error exception => exact iff_of_false (fun h ↦ by cases h) (fun h ↦ by cases h)
    | ok iov => exact ⟨fun h ↦ congrArg _ (Option.some.inj h), fun h ↦ congrArg _ (Except.ok.inj h)⟩

end PythonSystemd.Journal
