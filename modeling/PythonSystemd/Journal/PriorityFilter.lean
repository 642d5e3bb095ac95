import PythonSystemd.Journal.Handler
import PythonSystemd.Journal.MatchQueries
import PythonSystemd.Python.Written

/-!
# Filtering for the level of a record

`log_level` adds a match for every priority up to its level. Matches of one field are alternatives,
so several calls select what any of them does, and a later call never narrows an earlier one:
`selects_logLevels_iff`.

The handler sends the priority of a record by `map_priority`. `selects_emitted_iff` puts the two
together: which records of a logger are read with a filter for levels.
-/

set_option autoImplicit false
set_option relaxedAutoImplicit false

namespace PythonSystemd.Journal

open Library Library.CheckedMemory Library.MatchFormula Python

/-! ### The steps of `log_level` -/

def priorityName : Text := .ofString "PRIORITY"

/-- The field for a priority. -/
def priorityField (i : ℕ) : Text × FieldValue :=
  (priorityName, .text (.ofString (toString i)))

/-- The bytes of the field. -/
def priorityBytes (i : ℕ) : List UInt8 × List UInt8 :=
  ("PRIORITY".toList.flatMap String.utf8EncodeChar,
    (toString i).toList.flatMap String.utf8EncodeChar)

theorem encodes_priorityBytes (i : ℕ) : Encodes (priorityField i) (priorityBytes i) where
  name := encodeUtf8_ofString "PRIORITY"
  value := encodeUtf8_ofString (toString i)

theorem equals_not_mem_priorityName : equals ∉ priorityName := by
  decide

theorem digitByte_ne_delimiter : ∀ digit < 10, digitByte digit ≠ delimiter := by
  decide

theorem delimiter_not_mem_priorityBytes (i : ℕ) : delimiter ∉ (priorityBytes i).2 := by
  have hvalue : some (priorityBytes i).2 = some ((decimalDigits i).map digitByte) := by
    rw [← (encodes_priorityBytes i).value, ← Int.natAbs_natCast i]
    exact encodeUtf8_toString i
  rw [Option.some.inj hvalue]
  intro hmem
  obtain ⟨digit, hdigit, heq⟩ := List.mem_map.mp hmem
  exact digitByte_ne_delimiter digit (decimalDigits_lt i digit hdigit) heq

theorem matchName_priorityBytes (i : ℕ) :
    matchName (line (priorityBytes i)) = (priorityBytes 0).1 :=
  matchName_line (delimiter_not_mem_of_encodes (encodes_priorityBytes i)
    equals_not_mem_priorityName)

theorem steps_of_priorityRequest {i : ℕ} {steps : List FilterStep}
    (h : steps.map .ok = priorityRequest i) : steps = [.add (line (priorityBytes i))] := by
  obtain ⟨encoded, hencoded, rfl⟩ := exists_encoded_of_addRequests h
  obtain ⟨bytes, rest, hbytes, hrest, rfl⟩ := List.forall₂_cons_left_iff.mp hencoded
  obtain rfl := List.forall₂_nil_left_iff.mp hrest
  rw [encodes_unique hbytes (encodes_priorityBytes i)]
  rfl

/-- A list that is taken apart by `flatMap` into single steps. -/
theorem steps_of_priorityRequests {levels : List ℕ} {steps : List FilterStep}
    (h : steps.map .ok = priorityRequests levels) :
    steps = (levels.map fun i ↦ line (priorityBytes i)).map .add := by
  induction levels generalizing steps with
  | nil => exact List.map_eq_nil_iff.mp h
  | cons i levels ih =>
    obtain ⟨first, rest, rfl, hfirst, hrest⟩ := List.map_eq_append_iff.mp h
    rw [steps_of_priorityRequest hfirst, ih hrest]
    rfl

/-- The priorities that a level stands for. -/
def prioritiesUpTo (level : ℤ) : List ℕ :=
  List.range (level + 1).toNat

theorem mem_prioritiesUpTo {level : ℤ} {i : ℕ} : i ∈ prioritiesUpTo level ↔ (i : ℤ) ≤ level := by
  rw [prioritiesUpTo, List.mem_range]
  omega

theorem steps_of_logLevelRequests {level : ℤ} {steps : List FilterStep}
    (h : steps.map .ok = logLevelRequests level) :
    (0 ≤ level ∧ level ≤ 7) ∧
      steps = ((prioritiesUpTo level).map fun i ↦ line (priorityBytes i)).map .add := by
  unfold logLevelRequests at h
  split_ifs at h with hlevel
  · exact ⟨hlevel, steps_of_priorityRequests h⟩
  · obtain ⟨step, -, hstep⟩ := List.map_eq_singleton_iff.mp h
    cases hstep

theorem steps_of_logLevels {host : Host} {levels : List ℤ} {steps : List FilterStep}
    (h : steps.map .ok = (levels.map FilterCall.logLevel).flatMap (FilterCall.requests host)) :
    (∀ level ∈ levels, 0 ≤ level ∧ level ≤ 7) ∧
      steps = ((levels.flatMap prioritiesUpTo).map fun i ↦ line (priorityBytes i)).map .add := by
  induction levels generalizing steps with
  | nil => exact ⟨List.forall_mem_nil _, List.map_eq_nil_iff.mp h⟩
  | cons level levels ih =>
    obtain ⟨first, rest, rfl, hfirst, hrest⟩ := List.map_eq_append_iff.mp h
    obtain ⟨hlevel, rfl⟩ := steps_of_logLevelRequests hfirst
    obtain ⟨hlevels, rfl⟩ := ih hrest
    refine ⟨List.forall_mem_cons.mpr ⟨hlevel, hlevels⟩, ?_⟩
    rw [List.flatMap_cons, List.map_append, List.map_append]

/-- Every level stands for some priority. -/
theorem added_ne_nil {levels : List ℤ} (hlevels : levels ≠ [])
    (hrange : ∀ level ∈ levels, 0 ≤ level ∧ level ≤ 7) :
    (levels.flatMap prioritiesUpTo).map (fun i ↦ line (priorityBytes i)) ≠ [] := by
  obtain ⟨level, hlevel⟩ := List.exists_mem_of_ne_nil levels hlevels
  have hzero : 0 ∈ prioritiesUpTo level := mem_prioritiesUpTo.mpr (hrange level hlevel).1
  exact List.ne_nil_of_mem (List.mem_map_of_mem (List.mem_flatMap.mpr ⟨level, hlevel, hzero⟩))

/-- The lines have a priority that one of the levels stands for. -/
def HasPriority (levels : List ℤ) (lines : List (List UInt8)) : Prop :=
  ∃ i : ℕ, (∃ level ∈ levels, (i : ℤ) ≤ level) ∧ HasField lines (priorityField i)

theorem exists_line_iff (levels : List ℤ) (lines : List (List UInt8)) :
    (∃ item ∈ (levels.flatMap prioritiesUpTo).map (fun i ↦ line (priorityBytes i)),
      item ∈ lines) ↔ HasPriority levels lines := by
  constructor
  · rintro ⟨item, hitem, hline⟩
    obtain ⟨i, hi, rfl⟩ := List.mem_map.mp hitem
    obtain ⟨level, hlevel, hmem⟩ := List.mem_flatMap.mp hi
    exact ⟨i, ⟨level, hlevel, mem_prioritiesUpTo.mp hmem⟩,
      (hasField_iff (encodes_priorityBytes i)).mpr hline⟩
  · rintro ⟨i, ⟨level, hlevel, hle⟩, hfield⟩
    refine ⟨line (priorityBytes i), List.mem_map_of_mem (List.mem_flatMap.mpr
      ⟨level, hlevel, mem_prioritiesUpTo.mpr hle⟩), ?_⟩
    exact (hasField_iff (encodes_priorityBytes i)).mp hfield

/-- Calls of `log_level` behind a conjunction narrow the filter to the entries with a priority of
some of the levels, whatever the filter was before. -/
theorem selects_after_logLevels {selects : Matching} (documented : DocumentedMatching selects)
    (library : FilterLibrary) (host : Host) (before : List FilterStep)
    {levels : List ℤ} (hlevels : levels ≠ [])
    (hreturned : ∀ result ∈ (runFilter library host
      (.addConjunction :: levels.map FilterCall.logLevel) before).1, result = .ok ())
    (lines : List (List UInt8)) :
    (∀ level ∈ levels, 0 ≤ level ∧ level ≤ 7) ∧
    (selects (runFilter library host
        (.addConjunction :: levels.map FilterCall.logLevel) before).2 lines ↔
      selects before lines ∧ HasPriority levels lines) := by
  obtain ⟨taken, hrun, htaken⟩ := exists_steps_of_returned library host hreturned
  obtain ⟨step, steps, rfl, hstep, hsteps⟩ := List.map_eq_cons_iff.mp htaken
  obtain rfl := Except.ok.inj hstep
  obtain ⟨hrange, rfl⟩ := steps_of_logLevels hsteps
  refine ⟨hrange, ?_⟩
  have hflush : Step.flush ∉ ((levels.flatMap prioritiesUpTo).map
      fun i ↦ line (priorityBytes i)).map Step.add := by simp
  have hand : selects (before ++ .conjunction :: ((levels.flatMap prioritiesUpTo).map
      fun i ↦ line (priorityBytes i)).map .add) lines ↔ _ :=
    (documented lines).append_conjunction hflush
  rw [hrun, hand, (documented lines).map_add,
    groupHolds_iff_of_same_key (added_ne_nil hlevels hrange) ?_]
  · exact and_congr_right fun _ ↦ exists_line_iff levels lines
  · rintro first hfirst second hsecond
    obtain ⟨i, -, rfl⟩ := List.mem_map.mp hfirst
    obtain ⟨j, -, rfl⟩ := List.mem_map.mp hsecond
    rw [matchName_priorityBytes, matchName_priorityBytes]

/-! ### Records that the handler sends -/

/-- What `send` finds in an object that is neither a string nor a number: what `_make_line` takes of
it, and its attribute `hex` where that is a string. -/
structure ObjectView where
  value : FieldValue
  hex : Option Text

/-- The objects of a program, by their identities. -/
abbrev Objects := ℕ → ObjectView

def PyValue.field (objects : Objects) : PyValue → FieldValue
  | .none => .other (.ok (.ofString "None"))
  | .text value => .text value
  | .int value => .other (.ok (.ofString (toString value)))
  | .other identity _ => (objects identity).value

/-- The argument `MESSAGE_ID`, behind `'MESSAGE_ID=' + id`. -/
def messageIdArgument (objects : Objects) : PyValue → Except PyException (Option MessageId)
  | .none => .ok none
  | .text value => .ok (some (.text value))
  | .int _ => .error (.typeError "can only concatenate str (not 'int') to str")
  | .other identity _ =>
    match (objects identity).hex with
    | some hex => .ok (some (.text hex))
    | none => .error (.typeError "can only concatenate str to str")

/-- The arguments `CODE_FILE` and `CODE_FUNC`. -/
def textArgument : PyValue → Except PyException (Option Text)
  | .none => .ok none
  | .text value => .ok (some value)
  | .int _ => .error (.typeError "can only concatenate str (not 'int') to str")
  | .other _ _ => .error (.typeError "can only concatenate str to str")

/-- The argument `CODE_LINE`, behind `{:d}`. -/
def lineArgument : PyValue → Except PyException (Option ℤ)
  | .none => .ok none
  | .int value => .ok (some value)
  | .text _ => .error (.valueError "Unknown format code 'd' for object of type 'str'")
  | .other _ _ => .error (.typeError "unsupported format string passed to object.__format__")

/-- The keyword arguments of a call that are no parameters of `send`. -/
def keywordItems (objects : Objects) (call : SenderCall) : List (Text × FieldValue) :=
  (call.keywords.items.filter fun item ↦ !sendParameters.contains item.1).map
    fun item ↦ (item.1, item.2.field objects)

theorem not_contains_iff {name : Text} :
    (!sendParameters.contains name) = true ↔ name ∉ sendParameters := by
  rw [Bool.not_eq_true', ← Bool.not_eq_true, List.contains_iff_mem]

theorem map_fst_keywordItems (objects : Objects) (call : SenderCall) :
    (keywordItems objects call).map Prod.fst =
      (call.keywords.items.filter fun item ↦ !sendParameters.contains item.1).map Prod.fst := by
  rw [keywordItems, List.map_map]
  rfl

theorem nodup_keywordItems (objects : Objects) (call : SenderCall) :
    ((keywordItems objects call).map Prod.fst).Nodup := by
  rw [map_fst_keywordItems]
  exact call.keywords.nodup.sublist (List.filter_sublist.map _)

def keywordArguments (objects : Objects) (call : SenderCall) : OrderedDict Text FieldValue where
  items := keywordItems objects call
  nodup := nodup_keywordItems objects call

theorem keywordArguments_free (objects : Objects) (call : SenderCall) :
    ∀ name ∈ (keywordArguments objects call).keys, name ∉ sendParameters := by
  intro name hname
  have hname : name ∈ (keywordItems objects call).map Prod.fst := hname
  rw [map_fst_keywordItems] at hname
  obtain ⟨item, hitem, rfl⟩ := List.mem_map.mp hname
  exact not_contains_iff.mp (List.mem_filter.mp hitem).2

def SenderCall.argument (call : SenderCall) (name : String) : PyValue :=
  (call.keywords.get? (.ofString name)).getD .none

/-- The arguments that `send` gets from a call of the handler. -/
def sendCall (objects : Objects) (call : SenderCall) : Except PyException SendCall := do
  let messageId ← messageIdArgument objects (call.argument "MESSAGE_ID")
  let codeFile ← textArgument (call.argument "CODE_FILE")
  let codeLine ← lineArgument (call.argument "CODE_LINE")
  let codeFunc ← textArgument (call.argument "CODE_FUNC")
  return {
    message := call.message
    messageId := messageId
    codeFile := codeFile
    codeLine := codeLine
    codeFunc := codeFunc
    kwargs := keywordArguments objects call
    kwargs_free := keywordArguments_free objects call }

/-- `send`, called by the handler. -/
def sendRecord (objects : Objects) (caller : StackFrame) (sendv : List (List UInt8) → ℤ)
    (call : SenderCall) : SendOutcome :=
  match sendCall objects call with
  | .error exception => { handed := none, result := .error exception }
  | .ok call => send caller call sendv

/-! ### What the handler sends -/

section Emitted

variable {handler : JournalHandler} {formatter : LogRecord → Except PyException Formatted}
  {sender : SenderCall → Except PyException Unit} {record : LogRecord} {call : SenderCall}

/-- A call of the sender is the merged one, and no reserved name is in its way. -/
theorem exists_mergedCall (h : call ∈ (emit handler formatter sender record).calls) :
    ∃ formatted, call = mergedCall handler record formatted ∧ Free handler record := by
  cases hformat : formatter record with
  | error exception =>
    have hnone : (emit handler formatter sender record).calls = [] := by
      rw [emit, hformat]
    rw [hnone] at h
    cases h
  | ok formatted =>
    by_cases hwritten : ArgsWritten record
    · by_cases hfree : Free handler record
      · rw [emit_of_free hformat hwritten hfree] at h
        exact ⟨formatted, List.mem_singleton.mp h, hfree⟩
      · rw [calls_emit_of_not_free hformat hwritten hfree] at h
        cases h
    · rw [calls_emit_of_not_written hformat hwritten] at h
      cases h

theorem get?_priority_mergedCall (hfree : Free handler record) (formatted : Formatted) :
    (mergedCall handler record formatted).keywords.get? priorityName =
      some (.text (.ofString (toString (mapPriority record.levelno)))) := by
  have hreserved : priorityName ∈ reservedNames := by decide
  have hextras : (mergedExtras handler record formatted).get? priorityName = none := by
    rw [OrderedDict.get?_eq_none_iff, reserved_mem_mergedExtras_iff hreserved, not_or]
    exact hfree priorityName hreserved
  have hnames : (explicitNames.zip (explicitValues record)).map Prod.fst = explicitNames :=
    List.map_fst_zip le_rfl
  have hnodup : explicitNames.Nodup := by decide
  unfold mergedCall
  rw [OrderedDict.get?_update, hextras, Option.none_or]
  exact OrderedDict.get?_setAll_of_mem (hnames ▸ hnodup) List.mem_cons_self

theorem kwargs_of_sendCall {objects : Objects} {sent : SendCall}
    (h : sendCall objects call = .ok sent) : sent.kwargs = keywordArguments objects call := by
  obtain ⟨_, -, h⟩ := returned_bind.mp h
  obtain ⟨_, -, h⟩ := returned_bind.mp h
  obtain ⟨_, -, h⟩ := returned_bind.mp h
  obtain ⟨_, -, h⟩ := returned_bind.mp h
  obtain rfl := Except.ok.inj h
  rfl

theorem mem_kwargs_of_get? {objects : Objects} {sent : SendCall}
    (h : sendCall objects call = .ok sent) {name : Text} (hname : name ∉ sendParameters)
    {value : PyValue} (hvalue : call.keywords.get? name = some value) :
    (name, value.field objects) ∈ sent.kwargs.items := by
  rw [kwargs_of_sendCall h]
  exact List.mem_map.mpr ⟨(name, value), List.mem_filter.mpr
    ⟨OrderedDict.get?_eq_some_iff.mp hvalue, not_contains_iff.mpr hname⟩, rfl⟩

end Emitted

/-- A call supplies a priority exactly when it is the one it has. -/
theorem supplies_priorityField_iff (caller : StackFrame) {call : SendCall} {priority : ℤ}
    (hmem : (priorityName, .text (.ofString (toString priority))) ∈ call.kwargs.items) (i : ℕ) :
    Supplies caller call (priorityField i) ↔ (i : ℤ) = priority := by
  have hfield : priorityField i = (priorityName, .text (.ofString (toString (i : ℤ)))) := by
    rw [priorityField, toString_natCast]
  have hsupplied : (priorityName, .text (.ofString (toString priority))) ∈
      supplied MessageId.id caller call := List.mem_append_right _ hmem
  rw [hfield]
  constructor
  · rintro ⟨sent, hsent, hname, hvalue⟩
    have hsame := List.inj_on_of_nodup_map (nodup_map_fst_supplied MessageId.id caller) hsent
      hsupplied hname
    rw [hsame] at hvalue
    exact (eq_of_encodeUtf8_toString hvalue).symm
  · rintro rfl
    exact ⟨_, hsupplied, rfl, rfl⟩

/-- What `send` has handed over has a line for a priority exactly when that priority is supplied:
the line has one delimiter, so no name with a delimiter gives it. -/
theorem hasField_priorityField_iff {caller : StackFrame} {call : SendCall}
    {sendv : List (List UInt8) → ℤ} {lines : List (List UInt8)}
    (hlines : (send caller call sendv).handed = some lines) (i : ℕ) :
    HasField lines (priorityField i) ↔ Supplies caller call (priorityField i) := by
  refine hasField_iff_supplies hlines fun sent hsent _ _ _ hbytes hline ↦ ?_
  have hname := delimiter_not_mem_of_encodes hbytes equals_not_mem_priorityName
  obtain rfl := encodes_unique hbytes (encodes_priorityBytes i)
  exact line_injective_of_value hname (delimiter_not_mem_priorityBytes i) hline

theorem one_le_mapPriority (levelno : ℤ) : 1 ≤ mapPriority levelno := by
  unfold mapPriority
  split_ifs <;> decide

/-- A filter that was narrowed by `log_level` selects a record that the handler has sent exactly
when it did so before and the priority of the record is up to one of the levels. -/
theorem selects_emitted_iff {selects : Matching} (documented : DocumentedMatching selects)
    (library : FilterLibrary) (host : Host) (before : List FilterStep) {levels : List ℤ}
    (hlevels : levels ≠ [])
    (hreturned : ∀ result ∈ (runFilter library host
      (.addConjunction :: levels.map FilterCall.logLevel) before).1, result = .ok ())
    (handler : JournalHandler) (formatter : LogRecord → Except PyException Formatted)
    (objects : Objects) (caller : StackFrame) (sendv : List (List UInt8) → ℤ) (record : LogRecord)
    {call : SenderCall}
    (hcall : call ∈ (emit handler formatter
      (fun call ↦ (sendRecord objects caller sendv call).result) record).calls)
    {lines : List (List UInt8)}
    (hlines : (sendRecord objects caller sendv call).handed = some lines) :
    selects (runFilter library host
        (.addConjunction :: levels.map FilterCall.logLevel) before).2 lines ↔
      selects before lines ∧ ∃ level ∈ levels, mapPriority record.levelno ≤ level := by
  obtain ⟨formatted, rfl, hfree⟩ := exists_mergedCall hcall
  unfold sendRecord at hlines
  cases hsend : sendCall objects (mergedCall handler record formatted) with
  | error exception =>
    rw [hsend] at hlines
    cases hlines
  | ok sent =>
    rw [hsend] at hlines
    have hpriority := mem_kwargs_of_get? hsend (by decide)
      (get?_priority_mergedCall hfree formatted)
    have hfield : ∀ i, HasField lines (priorityField i) ↔ (i : ℤ) = mapPriority record.levelno :=
      fun i ↦ (hasField_priorityField_iff hlines i).trans
        (supplies_priorityField_iff caller hpriority i)
    rw [(selects_after_logLevels documented library host before hlevels hreturned lines).2]
    refine and_congr_right fun _ ↦ ?_
    unfold HasPriority
    simp only [hfield]
    constructor
    · rintro ⟨i, ⟨level, hlevel, hle⟩, heq⟩
      exact ⟨level, hlevel, heq ▸ hle⟩
    · rintro ⟨level, hlevel, hle⟩
      have hpositive := one_le_mapPriority record.levelno
      have hcast : ((mapPriority record.levelno).toNat : ℤ) = mapPriority record.levelno :=
        Int.toNat_of_nonneg (by omega)
      exact ⟨(mapPriority record.levelno).toNat, ⟨level, hlevel, hcast ▸ hle⟩, hcast⟩

def sampleObjects : Objects := fun _ ↦
  { value := .other (.ok (.ofString "object"))
    hex := none }

/-- Two calls of `log_level` behind a filter for nothing, and a record of a handler. -/
theorem selects_emitted_sample :
    ∃ call lines, call ∈ (emit (sampleHandler validFieldName_x) plainFormatter
        (fun call ↦ (sendRecord sampleObjects sampleFrame (fun _ ↦ 0) call).result)
        plainRecord).calls ∧
      (sendRecord sampleObjects sampleFrame (fun _ ↦ 0) call).handed = some lines ∧
      (cutMatching (runFilter (fun _ _ ↦ 0) sampleHost
          [.addConjunction, .logLevel 6, .logLevel 4] []).2 lines ↔
        cutMatching [] lines ∧ ∃ level ∈ [6, 4], mapPriority plainRecord.levelno ≤ level) := by
  have hcalls : ∃ call ∈ (emit (sampleHandler validFieldName_x) plainFormatter
      (fun call ↦ (sendRecord sampleObjects sampleFrame (fun _ ↦ 0) call).result)
      plainRecord).calls,
        (sendRecord sampleObjects sampleFrame (fun _ ↦ 0) call).handed ≠ none := by
    decide +kernel
  have hreturned : ∀ result ∈ (runFilter (fun _ _ ↦ 0) sampleHost
      [.addConjunction, .logLevel 6, .logLevel 4] []).1, result = .ok () := by
    decide +kernel
  obtain ⟨call, hcall, hhanded⟩ := hcalls
  obtain ⟨lines, hlines⟩ := Option.ne_none_iff_exists'.mp hhanded
  exact ⟨call, lines, hcall, hlines, selects_emitted_iff documented_cutMatching (fun _ _ ↦ 0)
    sampleHost [] (List.cons_ne_nil 6 [4]) hreturned (sampleHandler validFieldName_x)
    plainFormatter sampleObjects sampleFrame (fun _ ↦ 0) plainRecord hcall hlines⟩

end PythonSystemd.Journal
