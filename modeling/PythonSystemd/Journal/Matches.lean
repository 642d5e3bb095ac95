import PythonSystemd.Journal.Entries
import PythonSystemd.Journal.Send
import PythonSystemd.Library.MatchFormula
import PythonSystemd.Library.RequestLog

/-!
# The filter of a reader

The methods of a reader that set its filter: `add_match`, `add_disjunction`, `add_conjunction` and
`flush_matches` of `_reader.c`, and those of `journal.py` that are made of them. They run over the
list of the steps that the library has taken so far, on which its answer to the next step may
depend.

`filterRun` says what is left of a run of these methods: every method takes a prefix of the steps it
asks for, and all of them exactly when it returns.
-/

set_option autoImplicit false
set_option relaxedAutoImplicit false

namespace PythonSystemd.Journal

open Library Library.HandleProgram Library.MatchFormula Library.RequestLog Python

/-! ### Calls of the library -/

/-- A call of the library that changes the filter. -/
abbrev FilterStep := Step (List UInt8)

/-- A method that changes the filter. -/
abbrev Filter (α : Type) := Requester FilterStep PyException α

/-- What the library returns for a step after those it has taken. -/
abbrev FilterLibrary := List FilterStep → FilterStep → ℤ

/-- The outcome of the check after the call. `sd_journal_flush_matches` returns nothing. -/
def stepReply (library : FilterLibrary) : Reply FilterStep PyException := fun taken step ↦
  match step with
  | .add _ => checked (library taken step) (some "Invalid match")
  | .disjunction => checked (library taken step) none
  | .conjunction => checked (library taken step) none
  | .flush => .ok ()

/-! ### Arguments -/

/-- A positional argument of `add_match`. -/
inductive MatchArgument
  | item (value : Item)
  | other

/-- Parsing the arguments of `Reader_add_match` by `s#`. -/
def parseMatch : MatchArgument → Except PyException (List UInt8)
  | .item value => encodeItem value
  | .other => .error (.typeError "a bytes-like object is required")

/-- An object that stands for an id: a `uuid.UUID`, or another one with its attribute `hex`. -/
inductive IdObject
  | uuid (value : Uuid)
  | object (value : FieldValue) (hex : Option FieldValue)

/-- `id.hex if isinstance(id, UUID) else id`. -/
def IdObject.hexOfUuid : IdObject → FieldValue
  | .uuid value => .text value.hex
  | .object value _ => value

/-- `getattr(id, 'hex', id)`. -/
def IdObject.getHex : IdObject → FieldValue
  | .uuid value => .text value.hex
  | .object value hex => hex.getD value

/-- `_id128.get_boot()` and `_id128.get_machine()`. -/
structure Host where
  getBoot : Except PyException Uuid
  getMachine : Except PyException Uuid

/-! ### The methods -/

section Methods

variable (library : FilterLibrary) (host : Host)

/-- The method `add_match` of the base class. -/
def superAddMatch (argument : MatchArgument) : Filter Unit := do
  let bytes ← ofExcept (parseMatch argument)
  if 2 ^ 31 - 1 < bytes.length then ofExcept (checked (-ENOBUFS) none)
  else ask (stepReply library) (.add bytes)

/-- The loop in `Reader.add_match`. -/
def addEach : List MatchArgument → Filter Unit
  | [] => pure ()
  | argument :: arguments => do
    superAddMatch library argument
    addEach arguments

def selfName : Text := .ofString "self"

/-- `Reader.add_match`. -/
def addMatch (args : List MatchArgument) (kwargs : OrderedDict Text FieldValue) : Filter Unit :=
  if kwargs.keys.contains selfName then
    ofExcept (.error (.typeError "add_match() got multiple values for argument 'self'"))
  else do
    let lines ← ofExcept (makeLines kwargs.items)
    addEach library (args ++ lines.map MatchArgument.item)

/-- The keyword argument of a method that adds one match. -/
def keyword (name : String) (value : FieldValue) : OrderedDict Text FieldValue :=
  OrderedDict.empty.setItem (.ofString name) value

/-- The loop in `Reader.log_level`. -/
def addPriorities : List ℕ → Filter Unit
  | [] => pure ()
  | i :: rest => do
    addMatch library [] (keyword "PRIORITY" (.text (.ofString (toString i))))
    addPriorities rest

/-- `Reader.log_level`. -/
def logLevel (level : ℤ) : Filter Unit :=
  if 0 ≤ level ∧ level ≤ 7 then addPriorities library (List.range (level + 1).toNat)
  else ofExcept (.error (.valueError "Log level must be 0 <= level <= 7"))

/-- `Reader.messageid_match`. -/
def messageidMatch (messageid : IdObject) : Filter Unit :=
  addMatch library [] (keyword "MESSAGE_ID" messageid.hexOfUuid)

/-- `Reader.this_boot`; no object stands for `None`. -/
def thisBoot : Option IdObject → Filter Unit
  | none => do
    let bootid ← ofExcept host.getBoot
    addMatch library [] (keyword "_BOOT_ID" (.text bootid.hex))
  | some bootid => addMatch library [] (keyword "_BOOT_ID" bootid.getHex)

/-- `Reader.this_machine`. -/
def thisMachine : Option IdObject → Filter Unit
  | none => do
    let machineid ← ofExcept host.getMachine
    addMatch library [] (keyword "_MACHINE_ID" (.text machineid.hex))
  | some machineid => addMatch library [] (keyword "_MACHINE_ID" machineid.getHex)

end Methods

/-- A call of a method that changes the filter. -/
inductive FilterCall
  | addMatch (args : List MatchArgument) (kwargs : OrderedDict Text FieldValue)
  | logLevel (level : ℤ)
  | messageidMatch (messageid : IdObject)
  | thisBoot (bootid : Option IdObject)
  | thisMachine (machineid : Option IdObject)
  | addDisjunction
  | addConjunction
  | flushMatches

def FilterCall.program (library : FilterLibrary) (host : Host) : FilterCall → Filter Unit
  | .addMatch args kwargs => Journal.addMatch library args kwargs
  | .logLevel level => Journal.logLevel library level
  | .messageidMatch messageid => Journal.messageidMatch library messageid
  | .thisBoot bootid => Journal.thisBoot library host bootid
  | .thisMachine machineid => Journal.thisMachine library host machineid
  | .addDisjunction => ask (stepReply library) .disjunction
  | .addConjunction => ask (stepReply library) .conjunction
  | .flushMatches => ask (stepReply library) .flush

/-- Running calls on a reader. -/
def runFilter (library : FilterLibrary) (host : Host) (calls : List FilterCall)
    (taken : List FilterStep) : List (Except PyException Unit) × List FilterStep :=
  runCalls (FilterCall.program library host) calls taken

/-! ### What the methods ask for -/

/-- The step that an argument asks for. -/
def matchRequest (argument : MatchArgument) : Except PyException FilterStep :=
  match parseMatch argument with
  | .error exception => .error exception
  | .ok bytes =>
    if 2 ^ 31 - 1 < bytes.length then .error (.osError ENOBUFS none) else .ok (.add bytes)

/-- What `add_match` asks for: nothing where a keyword cannot be made to a line. -/
def addRequests (args : List MatchArgument) (kwargs : OrderedDict Text FieldValue) :
    List (Except PyException FilterStep) :=
  if kwargs.keys.contains selfName then
    [.error (.typeError "add_match() got multiple values for argument 'self'")]
  else
    match makeLines kwargs.items with
    | .error exception => [.error exception]
    | .ok lines => (args ++ lines.map MatchArgument.item).map matchRequest

def priorityRequest (i : ℕ) : List (Except PyException FilterStep) :=
  addRequests [] (keyword "PRIORITY" (.text (.ofString (toString i))))

def priorityRequests (levels : List ℕ) : List (Except PyException FilterStep) :=
  levels.flatMap priorityRequest

def logLevelRequests (level : ℤ) : List (Except PyException FilterStep) :=
  if 0 ≤ level ∧ level ≤ 7 then priorityRequests (List.range (level + 1).toNat)
  else [.error (.valueError "Log level must be 0 <= level <= 7")]

/-- What the match with an id asks for, if there is the id. -/
def idRequests (name : String) : Except PyException FieldValue →
    List (Except PyException FilterStep)
  | .error exception => [.error exception]
  | .ok value => addRequests [] (keyword name value)

def FilterCall.requests (host : Host) : FilterCall → List (Except PyException FilterStep)
  | .addMatch args kwargs => addRequests args kwargs
  | .logLevel level => logLevelRequests level
  | .messageidMatch messageid => idRequests "MESSAGE_ID" (.ok messageid.hexOfUuid)
  | .thisBoot none => idRequests "_BOOT_ID" (host.getBoot.map fun bootid ↦ .text bootid.hex)
  | .thisBoot (some bootid) => idRequests "_BOOT_ID" (.ok bootid.getHex)
  | .thisMachine none =>
    idRequests "_MACHINE_ID" (host.getMachine.map fun machineid ↦ .text machineid.hex)
  | .thisMachine (some machineid) => idRequests "_MACHINE_ID" (.ok machineid.getHex)
  | .addDisjunction => [.ok .disjunction]
  | .addConjunction => [.ok .conjunction]
  | .flushMatches => [.ok .flush]

section Refinement

variable (library : FilterLibrary) (host : Host)

theorem superAddMatch_eq (argument : MatchArgument) :
    superAddMatch library argument = (do
      let step ← ofExcept (matchRequest argument)
      ask (stepReply library) step) := by
  unfold superAddMatch matchRequest
  cases parseMatch argument with
  | error exception => rfl
  | ok bytes =>
    change (if 2 ^ 31 - 1 < bytes.length then ofExcept (checked (-ENOBUFS) none)
      else ask (stepReply library) (.add bytes) : Filter Unit) = _
    dsimp only
    split_ifs
    · rfl
    · rfl

theorem addEach_eq (arguments : List MatchArgument) :
    addEach library arguments = perform (stepReply library) (arguments.map matchRequest) := by
  induction arguments with
  | nil => rfl
  | cons argument arguments ih =>
    rw [addEach, ih, superAddMatch_eq, RequestLog.bind_assoc]
    rfl

theorem addMatch_eq (args : List MatchArgument) (kwargs : OrderedDict Text FieldValue) :
    addMatch library args kwargs = perform (stepReply library) (addRequests args kwargs) := by
  unfold addMatch addRequests
  split_ifs with hself
  · rfl
  · cases makeLines kwargs.items with
    | error exception => rfl
    | ok lines => exact addEach_eq library (args ++ lines.map .item)

theorem addPriorities_eq (levels : List ℕ) :
    addPriorities library levels = perform (stepReply library) (priorityRequests levels) := by
  induction levels with
  | nil => rfl
  | cons i levels ih =>
    have hcons : addPriorities library (i :: levels) =
        addMatch library [] (keyword "PRIORITY" (.text (.ofString (toString i)))) >>= fun _ ↦
          addPriorities library levels := rfl
    unfold priorityRequests at ih ⊢
    rw [hcons, ih, addMatch_eq, List.flatMap_cons, perform_append, priorityRequest]

theorem logLevel_eq (level : ℤ) :
    logLevel library level = perform (stepReply library) (logLevelRequests level) := by
  unfold logLevel logLevelRequests
  split_ifs
  · exact addPriorities_eq library _
  · rfl

theorem addId_eq (name : String) (id : Except PyException Uuid) :
    (do
      let id ← ofExcept id
      addMatch library [] (keyword name (.text id.hex)) : Filter Unit) =
      perform (stepReply library) (idRequests name (id.map fun id ↦ .text id.hex)) := by
  cases id with
  | error exception => rfl
  | ok id => exact addMatch_eq library [] _

/-- Every method is the list of its requests, made one by one. -/
theorem program_eq_perform (call : FilterCall) :
    call.program library host = perform (stepReply library) (call.requests host) := by
  cases call with
  | addMatch args kwargs => exact addMatch_eq library args kwargs
  | logLevel level => exact logLevel_eq library level
  | messageidMatch messageid =>
    exact addMatch_eq library [] (keyword "MESSAGE_ID" messageid.hexOfUuid)
  | thisBoot bootid =>
    cases bootid with
    | none => exact addId_eq library "_BOOT_ID" host.getBoot
    | some bootid => exact addMatch_eq library [] (keyword "_BOOT_ID" bootid.getHex)
  | thisMachine machineid =>
    cases machineid with
    | none => exact addId_eq library "_MACHINE_ID" host.getMachine
    | some machineid => exact addMatch_eq library [] (keyword "_MACHINE_ID" machineid.getHex)
  | addDisjunction => exact (perform_ok_singleton (stepReply library) .disjunction).symm
  | addConjunction => exact (perform_ok_singleton (stepReply library) .conjunction).symm
  | flushMatches => exact (perform_ok_singleton (stepReply library) .flush).symm

/-- However the library answers, a run appends to the steps it has taken those that its calls got
through, and nothing else: of every call a prefix of what it asks for, which is all of it exactly
when the call returns, and otherwise ends before the request that raised the exception. -/
theorem filterRun (calls : List FilterCall) (before : List FilterStep) :
    ∃ results taken, runFilter library host calls before = (results, before ++ taken.flatten) ∧
      RunPerformed (stepReply library) (FilterCall.requests host) before calls results taken :=
  runPerformed_runCalls (program_eq_perform library host) calls before

/-- When every call of a run returns, all steps that they ask for were taken. -/
theorem exists_steps_of_returned {calls : List FilterCall} {before : List FilterStep}
    (h : ∀ result ∈ (runFilter library host calls before).1, result = .ok ()) :
    ∃ steps, (runFilter library host calls before).2 = before ++ steps ∧
      steps.map .ok = calls.flatMap (FilterCall.requests host) := by
  obtain ⟨results, taken, hrun, hperformed⟩ :=
    runPerformed_runCalls (program_eq_perform library host) calls before
  have hrunFilter : runFilter library host calls before = (results, before ++ taken.flatten) := hrun
  rw [hrunFilter] at h ⊢
  exact ⟨taken.flatten, rfl, hperformed.flatten_of_returned h⟩

end Refinement

end PythonSystemd.Journal
