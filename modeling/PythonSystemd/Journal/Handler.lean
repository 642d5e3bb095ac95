import Mathlib.Data.List.Forall2
import PythonSystemd.Library.OrderedDict
import PythonSystemd.Python.Pyutil

/-!
# The journal handler

`JournalHandler` of `journal.py`, from `__init__` to `emit`. The formatter of the handler and the
function that sends are passed in; the formatter returns the message and sets the attributes that
`logging.Formatter` sets.

`emit` merges four groups of names into one call: the fields of the handler, what it derives from
an exception and from the arguments, the attributes of the record and its own keyword arguments.
Python refuses a call that names a keyword twice, or again the parameter that was given by position,
and `emit` hands the exception to `handleError`. `emitsEvery_iff` says when this does not happen.
-/

set_option autoImplicit false
set_option relaxedAutoImplicit false

namespace PythonSystemd.Journal

open Library Python

/-! ### Values and records -/

/-- A Python object; of one that is neither a string nor a number only its truth is known. -/
inductive PyValue
  | none
  | text (value : Text)
  | int (value : ℤ)
  | other (identity : ℕ) (truth : Bool)
  deriving DecidableEq

/-- `bool`. -/
def PyValue.isTrue : PyValue → Bool
  | .none => false
  | .text value => !value.isEmpty
  | .int value => decide (value ≠ 0)
  | .other _ truth => truth

/-- The attributes that every record has, in their order. -/
def standardNames : List Text :=
  ["name", "msg", "args", "levelname", "levelno", "pathname", "filename", "module", "exc_info",
    "exc_text", "stack_info", "lineno", "funcName", "created", "msecs", "relativeCreated", "thread",
    "threadName", "processName", "process"].map Text.ofString

/-- The names that `extra=` of the logging functions refuses. -/
def refusedNames : List Text :=
  [.ofString "message", .ofString "asctime"] ++ standardNames

/-- A `logging.LogRecord`, with what `str` makes of its `args`, or the exception it raises, and with
the attributes that came from `extra=`. -/
structure LogRecord where
  name : PyValue
  msg : PyValue
  args : PyValue
  levelname : PyValue
  levelno : ℤ
  pathname : PyValue
  filename : PyValue
  moduleName : PyValue
  excInfo : PyValue
  excText : PyValue
  stackInfo : PyValue
  lineno : PyValue
  funcName : PyValue
  created : PyValue
  msecs : PyValue
  relativeCreated : PyValue
  thread : PyValue
  threadName : PyValue
  processName : PyValue
  process : PyValue
  argsStr : Except PyException Text
  extra : OrderedDict Text PyValue
  extra_allowed : ∀ name ∈ extra.keys, name ∉ refusedNames

/-- What a formatter returns and what it sets on the record. -/
structure Formatted where
  text : Text
  message : PyValue
  asctime : Option PyValue
  excText : PyValue

namespace LogRecord

variable (record : LogRecord)

def standardValues : List PyValue :=
  [record.name, record.msg, record.args, record.levelname, .int record.levelno, record.pathname,
    record.filename, record.moduleName, record.excInfo, record.excText, record.stackInfo,
    record.lineno, record.funcName, record.created, record.msecs, record.relativeCreated,
    record.thread, record.threadName, record.processName, record.process]

/-- `record.__dict__` after the record was formatted. -/
def dict (formatted : Formatted) : OrderedDict Text PyValue :=
  let dict := OrderedDict.empty.setAll (standardNames.zip record.standardValues)
  let dict := dict.update record.extra
  let dict := dict.setItem (.ofString "message") formatted.message
  let dict :=
    match formatted.asctime with
    | none => dict
    | some asctime => dict.setItem (.ofString "asctime") asctime
  dict.setItem (.ofString "exc_text") formatted.excText

end LogRecord

/-! ### The handler -/

/-- `_IDENT_CHARACTER`. -/
def identCharacter : Text :=
  .ofString "ABCDEFGHIJKLMNOPQRTSUVWXYZ_0123456789"

/-- `_valid_field_name`. -/
def validFieldName (name : Text) : Bool :=
  name.all fun character ↦ decide (character ∈ identCharacter)

/-- A handler, with the fields it adds to every message. -/
structure JournalHandler where
  extra : OrderedDict Text PyValue
  extra_valid : ∀ name ∈ extra.keys, validFieldName name = true

def syslogIdentifier : Text := .ofString "SYSLOG_IDENTIFIER"

/-- The fields of a handler for the keyword arguments of `__init__`. -/
def withIdentifier (argv0 : PyValue) (kwargs : OrderedDict Text PyValue) :
    OrderedDict Text PyValue :=
  if syslogIdentifier ∈ kwargs.keys then kwargs else kwargs.setItem syslogIdentifier argv0

theorem validFieldName_withIdentifier {argv0 : PyValue} {kwargs : OrderedDict Text PyValue}
    (h : ∀ name ∈ kwargs.keys, validFieldName name = true) :
    ∀ name ∈ (withIdentifier argv0 kwargs).keys, validFieldName name = true := by
  intro name hname
  unfold withIdentifier at hname
  split_ifs at hname
  · exact h name hname
  · rcases OrderedDict.mem_keys_setItem.mp hname with rfl | hold
    · decide
    · exact h name hold

/-- `JournalHandler.__init__`; the exception names the first field whose name is not valid. -/
def journalHandlerInit (argv0 : PyValue) (kwargs : OrderedDict Text PyValue) :
    Except PyException JournalHandler :=
  if h : ∀ name ∈ kwargs.keys, validFieldName name = true then
    .ok
      { extra := withIdentifier argv0 kwargs
        extra_valid := validFieldName_withIdentifier h }
  else
    let invalid := (kwargs.keys.find? fun name ↦ !validFieldName name).getD []
    .error (.valueError ("Invalid field name: " ++ invalid.display))

/-- `JournalHandler.map_priority`, with the numbers of `logging` and `syslog`. -/
def mapPriority (levelno : ℤ) : ℤ :=
  if levelno ≤ 10 then 7
  else if levelno ≤ 20 then 6
  else if levelno ≤ 30 then 4
  else if levelno ≤ 40 then 3
  else if levelno ≤ 50 then 2
  else 1

/-- The keyword arguments that `emit` writes out. -/
def explicitNames : List Text :=
  ["PRIORITY", "LOGGER", "THREAD_NAME", "PROCESS_NAME", "CODE_FILE", "CODE_LINE", "CODE_FUNC"].map
    Text.ofString

def explicitValues (record : LogRecord) : List PyValue :=
  [.text (.ofString (toString (mapPriority record.levelno))), record.name, record.threadName,
    record.processName, record.pathname, record.lineno, record.funcName]

/-- Sets an item where the condition holds. -/
def setIf (condition : Bool) (dict : OrderedDict Text PyValue) (name : Text) (value : PyValue) :
    OrderedDict Text PyValue :=
  if condition then dict.setItem name value else dict

def exceptionText : Text := .ofString "EXCEPTION_TEXT"
def exceptionInfo : Text := .ofString "EXCEPTION_INFO"
def codeArgs : Text := .ofString "CODE_ARGS"

/-- The dictionary `extras` in `emit`, or the exception of `str(record.args)`. -/
def emitExtras (handler : JournalHandler) (record : LogRecord) (formatted : Formatted) :
    Except PyException (OrderedDict Text PyValue) := do
  let extras := handler.extra
  let extras := setIf formatted.excText.isTrue extras exceptionText formatted.excText
  let extras := setIf record.excInfo.isTrue extras exceptionInfo record.excInfo
  let extras ←
    if record.args.isTrue then do
      let args ← record.argsStr
      pure (extras.setItem codeArgs (.text args))
    else pure extras
  return extras.update (record.dict formatted)

/-- A call of the function that sends: the message by position and the keyword arguments. -/
structure SenderCall where
  message : Text
  keywords : OrderedDict Text PyValue

def messageName : Text := .ofString "MESSAGE"

/-- A call with keyword arguments that are written out and those of a dictionary, of a function with
the parameters of `send`. -/
def callSender (message : Text) (written : List (Text × PyValue))
    (extras : OrderedDict Text PyValue) : Except PyException SenderCall :=
  if written.any fun item ↦ decide (item.1 ∈ extras.keys) then
    .error (.typeError "send() got multiple values for keyword argument")
  else if messageName ∈ extras.keys then
    .error (.typeError "send() got multiple values for argument 'MESSAGE'")
  else
    .ok
      { message := message
        keywords := (OrderedDict.empty.setAll written).update extras }

/-- The calls of the sender during `emit`, and the exception that was given to `handleError`. -/
structure EmitOutcome where
  calls : List SenderCall
  handled : Option PyException

section Emit

variable (handler : JournalHandler) (formatter : LogRecord → Except PyException Formatted)
  (sender : SenderCall → Except PyException Unit)

/-- `JournalHandler.emit`. The fields of the handler are copied, so they are the same for every
record. -/
def emit (record : LogRecord) : EmitOutcome :=
  match formatter record with
  | .error exception => { calls := [], handled := some exception }
  | .ok formatted =>
    match emitExtras handler record formatted with
    | .error exception => { calls := [], handled := some exception }
    | .ok extras =>
      match callSender formatted.text (explicitNames.zip (explicitValues record)) extras with
      | .error exception => { calls := [], handled := some exception }
      | .ok call =>
        match sender call with
        | .error exception => { calls := [call], handled := some exception }
        | .ok () => { calls := [call], handled := none }

/-- A sequence of records. -/
def emitAll (records : List LogRecord) : List EmitOutcome :=
  records.map (emit handler formatter sender)

end Emit

/-! ### Names -/

/-- The names of the keyword arguments that `emit` writes out and of the parameter it gives by
position. -/
def reservedNames : List Text :=
  explicitNames ++ [messageName]

theorem not_valid_of_mem_refusedNames : ∀ name ∈ refusedNames, validFieldName name = false := by
  decide

theorem reserved_not_refused : ∀ name ∈ reservedNames, name ∉ refusedNames := by
  decide

theorem derived_not_refused : ∀ name ∈ [exceptionText, exceptionInfo, codeArgs],
    name ∉ refusedNames := by
  decide

theorem reserved_not_derived : ∀ name ∈ reservedNames,
    name ∉ [exceptionText, exceptionInfo, codeArgs] := by
  decide

/-! ### The merged dictionary -/

/-- What the exception and the arguments of a record add to it. -/
def derivedItems (record : LogRecord) (formatted : Formatted) : List (Text × PyValue) :=
  (if formatted.excText.isTrue then [(exceptionText, formatted.excText)] else []) ++
    (if record.excInfo.isTrue then [(exceptionInfo, record.excInfo)] else []) ++
    match record.argsStr with
    | .ok args => if record.args.isTrue then [(codeArgs, .text args)] else []
    | .error _ => []

/-- The handler's fields, with what is derived from the record and with the record's own. -/
def mergedExtras (handler : JournalHandler) (record : LogRecord) (formatted : Formatted) :
    OrderedDict Text PyValue :=
  (handler.extra.setAll (derivedItems record formatted)).update (record.dict formatted)

/-- The arguments of a record are empty or can be written as a string. -/
def ArgsWritten (record : LogRecord) : Prop :=
  record.args.isTrue = true → ∃ args, record.argsStr = .ok args

variable {handler : JournalHandler} {record : LogRecord} {formatted : Formatted} {name : Text}

theorem emitExtras_of_written (h : ArgsWritten record) :
    emitExtras handler record formatted = .ok (mergedExtras handler record formatted) := by
  unfold emitExtras mergedExtras derivedItems
  cases hargs : record.args.isTrue with
  | true =>
    obtain ⟨args, hstr⟩ := h hargs
    rw [hstr]
    cases formatted.excText.isTrue <;> cases record.excInfo.isTrue <;> rfl
  | false =>
    cases record.argsStr <;> cases formatted.excText.isTrue <;>
      cases record.excInfo.isTrue <;> rfl

/-- Arguments that cannot be written raise before the sender is called. -/
theorem emitExtras_of_not_written (handler : JournalHandler) (formatted : Formatted)
    (h : ¬ ArgsWritten record) :
    ∃ exception, emitExtras handler record formatted = .error exception := by
  unfold ArgsWritten at h
  push Not at h
  obtain ⟨hargs, hstr⟩ := h
  cases hresult : record.argsStr with
  | ok args => exact absurd hresult (hstr args)
  | error exception =>
    refine ⟨exception, ?_⟩
    unfold emitExtras
    rw [hargs, hresult]
    rfl

theorem map_fst_derivedItems_sublist :
    List.Sublist ((derivedItems record formatted).map Prod.fst)
      [exceptionText, exceptionInfo, codeArgs] := by
  have hoptional : ∀ (condition : Bool) (name : Text) (value : PyValue),
      List.Sublist ((if condition then [(name, value)] else []).map Prod.fst) [name] := by
    intro condition name value
    cases condition with
    | true => exact List.Sublist.refl [name]
    | false => exact List.nil_sublist [name]
  unfold derivedItems
  rw [List.map_append, List.map_append]
  refine ((hoptional _ exceptionText _).append (hoptional _ exceptionInfo _)).append ?_
  cases record.argsStr with
  | ok args => exact hoptional _ codeArgs _
  | error exception => exact List.nil_sublist [codeArgs]

theorem nodup_map_fst_derivedItems : ((derivedItems record formatted).map Prod.fst).Nodup := by
  have hnodup : [exceptionText, exceptionInfo, codeArgs].Nodup := by decide
  exact hnodup.sublist map_fst_derivedItems_sublist

theorem not_mem_derivedItems (h : name ∈ reservedNames) :
    name ∉ (derivedItems record formatted).map Prod.fst :=
  fun hmem ↦ reserved_not_derived name h (map_fst_derivedItems_sublist.subset hmem)

/-- Outside of the names that logging keeps for itself the dictionary of a record is what came from
`extra=`. -/
theorem get?_dict (h : name ∉ refusedNames) :
    (record.dict formatted).get? name = record.extra.get? name := by
  unfold refusedNames at h
  rw [List.mem_append, not_or, List.mem_pair, not_or] at h
  obtain ⟨⟨hmessage, hasctime⟩, hstandard⟩ := h
  have htext : name ≠ .ofString "exc_text" := by
    rintro rfl
    exact hstandard (by decide)
  have hzip : name ∉ (standardNames.zip record.standardValues).map Prod.fst := by
    intro hmem
    obtain ⟨item, hitem, rfl⟩ := List.mem_map.mp hmem
    exact hstandard (List.of_mem_zip hitem).1
  have hstart : ((OrderedDict.empty.setAll (standardNames.zip record.standardValues)).update
      record.extra).get? name = record.extra.get? name := by
    rw [OrderedDict.get?_update, OrderedDict.get?_setAll_of_not_mem hzip]
    exact Option.or_none
  unfold LogRecord.dict
  rw [OrderedDict.get?_setItem, if_neg htext]
  cases formatted.asctime with
  | none => rw [OrderedDict.get?_setItem, if_neg hmessage, hstart]
  | some asctime =>
    rw [OrderedDict.get?_setItem, if_neg hasctime, OrderedDict.get?_setItem, if_neg hmessage,
      hstart]

/-- The record takes precedence in `extras`, then what is derived from it, then the handler. -/
theorem get?_mergedExtras (h : name ∉ refusedNames) :
    (mergedExtras handler record formatted).get? name =
      (record.extra.get? name).or
        ((handler.extra.setAll (derivedItems record formatted)).get? name) := by
  unfold mergedExtras
  rw [OrderedDict.get?_update, get?_dict h]

/-- A reserved name gets into `extras` from the record or from the handler only. -/
theorem reserved_mem_mergedExtras_iff (h : name ∈ reservedNames) :
    name ∈ (mergedExtras handler record formatted).keys ↔
      name ∈ handler.extra.keys ∨ name ∈ record.extra.keys := by
  rw [OrderedDict.mem_keys_iff, OrderedDict.mem_keys_iff, OrderedDict.mem_keys_iff,
    get?_mergedExtras (reserved_not_refused name h),
    OrderedDict.get?_setAll_of_not_mem (not_mem_derivedItems h)]
  cases record.extra.get? name with
  | none => simp
  | some value => simp

/-! ### What a call carries -/

/-- All that a call can take from a record. -/
def recordItems (record : LogRecord) (formatted : Formatted) : List (Text × PyValue) :=
  (record.dict formatted).items ++ derivedItems record formatted ++
    explicitNames.zip (explicitValues record)

/-- The fields of a call: those of the record win, then what is derived from the record, then those
of the handler, and there are no others than these and those of the record. -/
structure Carries (handler : JournalHandler) (record : LogRecord) (formatted : Formatted)
    (call : SenderCall) : Prop where
  record_fields : ∀ name value, record.extra.get? name = some value →
    call.keywords.get? name = some value
  derived_fields : ∀ item ∈ derivedItems record formatted, item.1 ∉ record.extra.keys →
    call.keywords.get? item.1 = some item.2
  handler_fields : ∀ name value, handler.extra.get? name = some value →
    name ∉ record.extra.keys → name ∉ (derivedItems record formatted).map Prod.fst →
    call.keywords.get? name = some value
  sources : ∀ name value, call.keywords.get? name = some value →
    handler.extra.get? name = some value ∨ (name, value) ∈ recordItems record formatted

/-- The call of `emit`, when none of the reserved names is in `extras`. -/
def mergedCall (handler : JournalHandler) (record : LogRecord) (formatted : Formatted) :
    SenderCall where
  message := formatted.text
  keywords := (OrderedDict.empty.setAll (explicitNames.zip (explicitValues record))).update
    (mergedExtras handler record formatted)

theorem get?_mergedCall_of_mergedExtras {value : PyValue}
    (h : (mergedExtras handler record formatted).get? name = some value) :
    (mergedCall handler record formatted).keywords.get? name = some value := by
  unfold mergedCall
  rw [OrderedDict.get?_update, h, Option.some_or]

theorem carries_mergedCall :
    Carries handler record formatted (mergedCall handler record formatted) where
  record_fields := by
    intro name value hvalue
    have hmem : name ∈ record.extra.keys := OrderedDict.mem_keys_iff.mpr ⟨value, hvalue⟩
    apply get?_mergedCall_of_mergedExtras
    rw [get?_mergedExtras (record.extra_allowed name hmem), hvalue, Option.some_or]
  derived_fields := by
    intro item hitem hrecord
    have hname : item.1 ∈ [exceptionText, exceptionInfo, codeArgs] :=
      map_fst_derivedItems_sublist.subset (List.mem_map_of_mem hitem)
    apply get?_mergedCall_of_mergedExtras
    rw [get?_mergedExtras (derived_not_refused item.1 hname),
      OrderedDict.get?_eq_none_iff.mpr hrecord, Option.none_or]
    exact OrderedDict.get?_setAll_of_mem nodup_map_fst_derivedItems hitem
  handler_fields := by
    intro name value hvalue hrecord hderived
    have hmem : name ∈ handler.extra.keys := OrderedDict.mem_keys_iff.mpr ⟨value, hvalue⟩
    have hrefused : name ∉ refusedNames := by
      intro hrefused
      have hvalid := handler.extra_valid name hmem
      rw [not_valid_of_mem_refusedNames name hrefused] at hvalid
      cases hvalid
    apply get?_mergedCall_of_mergedExtras
    rw [get?_mergedExtras hrefused, OrderedDict.get?_eq_none_iff.mpr hrecord, Option.none_or,
      OrderedDict.get?_setAll_of_not_mem hderived, hvalue]
  sources := by
    intro name value hget
    unfold recordItems
    rw [List.mem_append, List.mem_append]
    unfold mergedCall mergedExtras at hget
    rw [OrderedDict.get?_update, OrderedDict.get?_update] at hget
    rcases Option.or_eq_some_iff.mp hget with hextras | ⟨-, hwritten⟩
    · rcases Option.or_eq_some_iff.mp hextras with hdict | ⟨-, hset⟩
      · exact .inr (.inl (.inl (OrderedDict.get?_eq_some_iff.mp hdict)))
      · rcases OrderedDict.of_get?_setAll_eq_some hset with hderived | hhandler
        · exact .inr (.inl (.inr hderived))
        · exact .inl hhandler
    · rcases OrderedDict.of_get?_setAll_eq_some hwritten with hitem | hempty
      · exact .inr (.inr hitem)
      · cases hempty

/-! ### Emitting records -/

theorem callSender_of_free (message : Text) {extras : OrderedDict Text PyValue}
    (values : List PyValue) (h : ∀ name ∈ reservedNames, name ∉ extras.keys) :
    callSender message (explicitNames.zip values) extras =
      .ok ⟨message, (OrderedDict.empty.setAll (explicitNames.zip values)).update extras⟩ := by
  have hwritten :
      (explicitNames.zip values).any (fun item ↦ decide (item.1 ∈ extras.keys)) = false := by
    rw [List.any_eq_false]
    intro item hitem hmem
    exact h item.1 (List.mem_append_left _ (List.of_mem_zip hitem).1) (of_decide_eq_true hmem)
  have hmessage : messageName ∉ extras.keys :=
    h messageName (List.mem_append_right _ (List.mem_singleton_self _))
  rw [callSender, hwritten, if_neg Bool.false_ne_true, if_neg hmessage]

/-- A reserved name in the dictionary makes Python refuse the call. -/
theorem callSender_of_reserved (message : Text) {extras : OrderedDict Text PyValue}
    (values : List PyValue) (hlength : values.length = explicitNames.length) {name : Text}
    (hname : name ∈ reservedNames) (hmem : name ∈ extras.keys) :
    ∃ exception, callSender message (explicitNames.zip values) extras = .error exception := by
  unfold callSender
  split_ifs with hwritten hmessage
  · exact ⟨_, rfl⟩
  · exact ⟨_, rfl⟩
  · exfalso
    rcases List.mem_append.mp hname with hexplicit | hsingle
    · rw [← List.map_fst_zip hlength.ge] at hexplicit
      obtain ⟨item, hitem, rfl⟩ := List.mem_map.mp hexplicit
      exact hwritten (List.any_eq_true.mpr ⟨item, hitem, decide_eq_true hmem⟩)
    · rw [List.mem_singleton.mp hsingle] at hmem
      exact hmessage hmem

/-- The exception that a result of the sender gives to `handleError`. -/
def raisedBy : Except PyException Unit → Option PyException
  | .ok () => none
  | .error exception => some exception

/-- A record arrives: the sender is called exactly once, with the message and with the fields that
the record and the handler ask for, and only an exception of the sender itself is given to
`handleError`. -/
def Arrives (handler : JournalHandler) (formatter : LogRecord → Except PyException Formatted)
    (sender : SenderCall → Except PyException Unit) (record : LogRecord) (outcome : EmitOutcome) :
    Prop :=
  ∃ formatted call, formatter record = .ok formatted ∧ outcome.calls = [call] ∧
    call.message = formatted.text ∧ Carries handler record formatted call ∧
    outcome.handled = raisedBy (sender call)

section Arrivals

variable (handler : JournalHandler) (formatter : LogRecord → Except PyException Formatted)
  (sender : SenderCall → Except PyException Unit)

/-- Every record of a sequence arrives, in order. -/
def EmitsEvery (records : List LogRecord) : Prop :=
  List.Forall₂ (Arrives handler formatter sender) records
    (emitAll handler formatter sender records)

/-- No reserved name is a field of the handler or of the record. -/
def Free (record : LogRecord) : Prop :=
  ∀ name ∈ reservedNames, name ∉ handler.extra.keys ∧ name ∉ record.extra.keys

variable {handler formatter sender}

theorem emit_of_free {record : LogRecord} {formatted : Formatted}
    (hformat : formatter record = .ok formatted) (hwritten : ArgsWritten record)
    (hfree : Free handler record) :
    emit handler formatter sender record =
      { calls := [mergedCall handler record formatted]
        handled := raisedBy (sender (mergedCall handler record formatted)) } := by
  have hnames : ∀ name ∈ reservedNames, name ∉ (mergedExtras handler record formatted).keys := by
    intro name hname hmem
    rcases (reserved_mem_mergedExtras_iff hname).mp hmem with hhandler | hrecord
    · exact (hfree name hname).1 hhandler
    · exact (hfree name hname).2 hrecord
  have hcall := callSender_of_free formatted.text (explicitValues record) hnames
  unfold emit
  simp only [hformat, emitExtras_of_written hwritten, hcall]
  change (match sender (mergedCall handler record formatted) with
    | .error exception => EmitOutcome.mk [mergedCall handler record formatted] (some exception)
    | .ok () => EmitOutcome.mk [mergedCall handler record formatted] none) = _
  cases sender (mergedCall handler record formatted) with
  | error exception => rfl
  | ok value => rfl

theorem calls_emit_of_not_written {record : LogRecord} {formatted : Formatted}
    (hformat : formatter record = .ok formatted) (hwritten : ¬ ArgsWritten record) :
    (emit handler formatter sender record).calls = [] := by
  obtain ⟨exception, hextras⟩ := emitExtras_of_not_written handler formatted hwritten
  unfold emit
  simp only [hformat, hextras]

/-- A record with a reserved name never reaches the sender. -/
theorem calls_emit_of_not_free {record : LogRecord} {formatted : Formatted}
    (hformat : formatter record = .ok formatted) (hwritten : ArgsWritten record)
    (hfree : ¬ Free handler record) :
    (emit handler formatter sender record).calls = [] := by
  unfold Free at hfree
  push Not at hfree
  obtain ⟨name, hname, hmem⟩ := hfree
  have hextras : name ∈ (mergedExtras handler record formatted).keys := by
    rw [reserved_mem_mergedExtras_iff hname]
    by_cases hhandler : name ∈ handler.extra.keys
    · exact .inl hhandler
    · exact .inr (hmem hhandler)
  obtain ⟨exception, hcall⟩ :=
    callSender_of_reserved formatted.text (explicitValues record) rfl hname hextras
  unfold emit
  simp only [hformat, emitExtras_of_written hwritten, hcall]

/-- One record arrives exactly when its arguments can be written and it and the handler leave the
reserved names free. -/
theorem arrives_emit_iff {record : LogRecord} {formatted : Formatted}
    (hformat : formatter record = .ok formatted) :
    Arrives handler formatter sender record (emit handler formatter sender record) ↔
      ArgsWritten record ∧ Free handler record := by
  constructor
  · rintro ⟨_, call, -, hcalls, -⟩
    have hwritten : ArgsWritten record := by
      by_contra hwritten
      rw [calls_emit_of_not_written hformat hwritten] at hcalls
      cases hcalls
    refine ⟨hwritten, ?_⟩
    by_contra hfree
    rw [calls_emit_of_not_free hformat hwritten hfree] at hcalls
    cases hcalls
  · rintro ⟨hwritten, hfree⟩
    rw [emit_of_free hformat hwritten hfree]
    exact ⟨formatted, mergedCall handler record formatted, hformat, rfl, rfl, carries_mergedCall,
      rfl⟩

end Arrivals

theorem reserved_ne_syslogIdentifier : ∀ name ∈ reservedNames, name ≠ syslogIdentifier := by
  decide

/-- The identifier that `__init__` adds is none of the reserved names. -/
theorem reserved_mem_withIdentifier_iff {argv0 : PyValue} {kwargs : OrderedDict Text PyValue}
    (h : name ∈ reservedNames) :
    name ∈ (withIdentifier argv0 kwargs).keys ↔ name ∈ kwargs.keys := by
  unfold withIdentifier
  split_ifs
  · rfl
  · rw [OrderedDict.mem_keys_setItem]
    exact or_iff_right (reserved_ne_syslogIdentifier name h)

theorem extra_of_journalHandlerInit {argv0 : PyValue} {kwargs : OrderedDict Text PyValue}
    (hinit : journalHandlerInit argv0 kwargs = .ok handler) :
    handler.extra = withIdentifier argv0 kwargs := by
  unfold journalHandlerInit at hinit
  split_ifs at hinit
  rw [← Except.ok.inj hinit]

/-- Every record arrives exactly when its arguments are empty or can be written as a string and
neither the handler nor the record has a field with the name of an argument that `emit` gives
itself. -/
theorem emitsEvery_iff (argv0 : PyValue) (kwargs : OrderedDict Text PyValue)
    (handler : JournalHandler) (hinit : journalHandlerInit argv0 kwargs = .ok handler)
    (formatter : LogRecord → Except PyException Formatted)
    (sender : SenderCall → Except PyException Unit) (records : List LogRecord)
    (hformat : ∀ record ∈ records, ∃ formatted, formatter record = .ok formatted) :
    EmitsEvery handler formatter sender records ↔
      ∀ record ∈ records,
        (record.args.isTrue = true → ∃ args, record.argsStr = .ok args) ∧
          ∀ name ∈ reservedNames, name ∉ kwargs.keys ∧ name ∉ record.extra.keys := by
  unfold EmitsEvery emitAll
  rw [List.forall₂_map_right_iff, List.forall₂_same]
  refine forall₂_congr fun record hrecord ↦ ?_
  obtain ⟨formatted, hformatted⟩ := hformat record hrecord
  rw [arrives_emit_iff hformatted]
  refine and_congr_right fun _ ↦ forall₂_congr fun name hname ↦ ?_
  rw [extra_of_journalHandlerInit hinit, reserved_mem_withIdentifier_iff hname]

/-- A record with these attributes from `extra=`. -/
def sampleRecord (extra : OrderedDict Text PyValue)
    (h : ∀ name ∈ extra.keys, name ∉ refusedNames) : LogRecord where
  name := .text (.ofString "test-logger")
  msg := .text (.ofString "test")
  args := .none
  levelname := .text (.ofString "INFO")
  levelno := 20
  pathname := .text (.ofString "testpath")
  filename := .text (.ofString "testpath")
  moduleName := .text (.ofString "testpath")
  excInfo := .none
  excText := .none
  stackInfo := .none
  lineno := .int 1
  funcName := .none
  created := .other 0 true
  msecs := .other 1 true
  relativeCreated := .other 2 true
  thread := .int 1
  threadName := .text (.ofString "MainThread")
  processName := .text (.ofString "MainProcess")
  process := .int 1
  argsStr := .ok (.ofString "None")
  extra := extra
  extra_allowed := h

/-- A record without attributes of its own. -/
def plainRecord : LogRecord :=
  sampleRecord OrderedDict.empty fun _ h ↦ absurd h List.not_mem_nil

/-- The formatter without a format string. -/
def plainFormatter (record : LogRecord) : Except PyException Formatted :=
  .ok
    { text := .ofString "test"
      message := record.msg
      asctime := none
      excText := record.excText }

/-- The handler `JournalHandler(name=value)` for a valid name. -/
def sampleHandler {name : Text} (h : validFieldName name = true) : JournalHandler where
  extra := withIdentifier (.text (.ofString "app")) (OrderedDict.empty.setItem name (.int 3))
  extra_valid := validFieldName_withIdentifier fun other hother ↦ by
    rcases OrderedDict.mem_keys_setItem.mp hother with rfl | hempty
    · exact h
    · cases hempty

theorem journalHandlerInit_sample {name : Text} (h : validFieldName name = true) :
    journalHandlerInit (.text (.ofString "app")) (OrderedDict.empty.setItem name (.int 3)) =
      .ok (sampleHandler h) := by
  refine dif_pos fun other hother ↦ ?_
  rcases OrderedDict.mem_keys_setItem.mp hother with rfl | hempty
  · exact h
  · cases hempty

theorem validFieldName_x : validFieldName (.ofString "X") = true := by
  decide

theorem validFieldName_priority : validFieldName (.ofString "PRIORITY") = true := by
  decide

theorem message_extra_allowed :
    ∀ name ∈ (OrderedDict.empty.setItem (Text.ofString "MESSAGE")
      (PyValue.text (.ofString "x"))).keys, name ∉ refusedNames := by
  decide

theorem messageId_extra_allowed :
    ∀ name ∈ (OrderedDict.empty.setItem (Text.ofString "MESSAGE_ID")
      (PyValue.text (.ofString "8441372f8dca4ca98694a6091fd8519f"))).keys,
      name ∉ refusedNames := by
  decide

/-- A record with arguments, which `str` makes this of. -/
def argsRecord (argsStr : Except PyException Text) : LogRecord :=
  { sampleRecord _ messageId_extra_allowed with
    args := .other 3 true
    argsStr := argsStr }

/-- A record without arguments and one with, which has a `MESSAGE_ID`. -/
def sampleRecords : List LogRecord :=
  [plainRecord, argsRecord (.ok (.ofString "(1,)"))]

/-- A handler with the field `X`. -/
theorem emitsEvery_sample :
    EmitsEvery (sampleHandler validFieldName_x) plainFormatter (fun _ ↦ .ok ()) sampleRecords := by
  have hargs : ∀ record ∈ sampleRecords,
      record.args.isTrue = true → ∃ args, record.argsStr = .ok args :=
    List.forall_mem_cons.mpr ⟨fun _ ↦ ⟨_, rfl⟩, List.forall_mem_singleton.mpr fun _ ↦ ⟨_, rfl⟩⟩
  have hnames : ∀ record ∈ sampleRecords, ∀ name ∈ reservedNames,
      name ∉ (OrderedDict.empty.setItem (.ofString "X") (PyValue.int 3)).keys ∧
        name ∉ record.extra.keys := by decide
  exact (emitsEvery_iff (.text (.ofString "app")) _ _ (journalHandlerInit_sample validFieldName_x)
    plainFormatter (fun _ ↦ .ok ()) sampleRecords fun _ _ ↦ ⟨_, rfl⟩).mpr
    fun record hrecord ↦ ⟨hargs record hrecord, hnames record hrecord⟩

/-- A handler with the field `PRIORITY` loses every record, and every handler loses a record with
the attribute `MESSAGE` and one whose arguments cannot be written as a string. -/
theorem not_emitsEvery_sample :
    ¬ EmitsEvery (sampleHandler validFieldName_priority) plainFormatter (fun _ ↦ .ok ())
      [plainRecord] ∧
    ¬ EmitsEvery (sampleHandler validFieldName_x) plainFormatter (fun _ ↦ .ok ())
      [sampleRecord _ message_extra_allowed] ∧
    ¬ EmitsEvery (sampleHandler validFieldName_x) plainFormatter (fun _ ↦ .ok ())
      [argsRecord (.error (.valueError "no text"))] := by
  refine ⟨fun hevery ↦ ?_, fun hevery ↦ ?_, fun hevery ↦ ?_⟩
  · obtain ⟨harrives, -⟩ := List.forall₂_cons.mp hevery
    obtain ⟨-, hfree⟩ := (arrives_emit_iff rfl).mp harrives
    exact absurd (hfree (.ofString "PRIORITY") (by decide)).1 (by decide)
  · obtain ⟨harrives, -⟩ := List.forall₂_cons.mp hevery
    obtain ⟨-, hfree⟩ := (arrives_emit_iff rfl).mp harrives
    exact absurd (hfree (.ofString "MESSAGE") (by decide)).2 (by decide)
  · obtain ⟨harrives, -⟩ := List.forall₂_cons.mp hevery
    obtain ⟨hwritten, -⟩ := (arrives_emit_iff rfl).mp harrives
    obtain ⟨args, hargs⟩ := hwritten rfl
    cases hargs

end PythonSystemd.Journal
