import PythonSystemd.Journal.Reader
import PythonSystemd.Login.Monitor

/-!
# The life cycle of handles

`ReaderCall` lists what Python can do to a reader, with what the library returns meanwhile, and
`ReaderCall.run` dispatches it by the method table. Every call runs to its end and does to the
handle what `ReaderCall.action` says (`ReaderCall.refines_run`); for `get_catalog` this rests on the
library looking up only message ids that it could parse.

`runsDisciplined_monitors_and_readers` settles when a life, from the allocation of the object over
any calls to its deallocation, releases every handle exactly once, uses none after that and fails
no assertion.
-/

set_option autoImplicit false
set_option relaxedAutoImplicit false

namespace PythonSystemd.Journal

open Library Library.CheckedMemory Library.HandleTrace Library.HandleProgram Program Python

/-- An operation of Python on a reader, with what the library returns during it. -/
inductive ReaderCall
  | init (arguments : Except PyException InitArguments) (result : OpenCall → ℤ)
  | fileno (fd : ℤ)
  | reliableFd (r : ℤ)
  | getEvents (r : ℤ)
  | getTimeout (r : ℤ) (t : UInt64)
  | getTimeoutMs (r : ℤ) (t : UInt64) (ts : Timespec)
  | close
  | getUsage (r : ℤ) (bytes : UInt64)
  | enter
  | exit
  | next (arguments : Except PyException (Option Int64)) (move : MoveCall → ℤ)
  | previous (arguments : Except PyException (Option Int64)) (move : MoveCall → ℤ)
  | get (arguments : Except PyException (List UInt8)) (data : List UInt8 → ℤ × List UInt8)
  | getAll (outcomes : List (ℤ × List UInt8))
  | getRealtime (r : ℤ) (timestamp : UInt64)
  | getMonotonic (r : ℤ) (timestamp : UInt64) (bootid : List UInt8)
  | addMatch (arguments : Except PyException (List UInt8)) (add : List UInt8 → ℤ)
  | addDisjunction (r : ℤ)
  | addConjunction (r : ℤ)
  | flushMatches
  | seekHead (r : ℤ)
  | seekTail (r : ℤ)
  | seekRealtime (arguments : Except PyException UInt64) (seek : UInt64 → ℤ)
  | seekMonotonic (arguments : Except PyException (UInt64 × Option (List UInt8)))
      (bootId : Option (List UInt8) → ℤ × List UInt8) (seek : List UInt8 → UInt64 → ℤ)
  | process (r : ℤ)
  | wait (arguments : Except PyException (Option Int64)) (stackTimeout : Int64) (result : Int64 → ℤ)
  | seekCursor (arguments : Except PyException (List UInt8)) (seek : List UInt8 → ℤ)
  | getCursor (r : ℤ) (cursor : List UInt8)
  | testCursor (arguments : Except PyException (List UInt8)) (test : List UInt8 → ℤ)
  | queryUnique (arguments : Except PyException (List UInt8)) (query : List UInt8 → ℤ)
      (outcomes : List (ℤ × List UInt8))
  | enumerateFields (outcomes : List (ℤ × List UInt8))
  | hasRuntimeFiles (r : ℤ)
  | hasPersistentFiles (r : ℤ)
  | getCatalog (catalog messageId : ℤ × List UInt8)
  | getDataThreshold (r : ℤ) (cvalue : UInt64)
  | setDataThreshold (value : ThresholdObject) (set : UInt64 → ℤ)
  | closed

/-- `Reader_methods` and `Reader_getsetters`, `__init__` included. -/
def ReaderCall.run (build : Build) : ReaderCall → Program PyException Unit
  | .init arguments result => readerInit build (.tuple arguments) result
  | .fileno fd => (readerFileno .null fd).discard
  | .reliableFd r => (readerReliableFd .null r).discard
  | .getEvents r => (readerGetEvents .null r).discard
  | .getTimeout r t => (readerGetTimeout .null r t).discard
  | .getTimeoutMs r t ts => (readerGetTimeoutMs .null r t ts).discard
  | .close => readerClose (.null : Args Unit)
  | .getUsage r bytes => (readerGetUsage .null r bytes).discard
  | .enter => readerEnter .null
  | .exit => readerExit (.tuple (.ok ()))
  | .next arguments move => (readerNext (.tuple arguments) move).discard
  | .previous arguments move => (readerPrevious (.tuple arguments) move).discard
  | .get arguments data => (readerGet (.tuple arguments) data).discard
  | .getAll outcomes => (readerGetAll .null outcomes).discard
  | .getRealtime r timestamp => (readerGetRealtime .null r timestamp).discard
  | .getMonotonic r timestamp bootid => (readerGetMonotonic .null r timestamp bootid).discard
  | .addMatch arguments add => readerAddMatch (.tuple arguments) add
  | .addDisjunction r => readerAddDisjunction .null r
  | .addConjunction r => readerAddConjunction .null r
  | .flushMatches => readerFlushMatches .null
  | .seekHead r => readerSeekHead .null r
  | .seekTail r => readerSeekTail .null r
  | .seekRealtime arguments seek => readerSeekRealtime (.tuple arguments) seek
  | .seekMonotonic arguments bootId seek => readerSeekMonotonic (.tuple arguments) bootId seek
  | .process r => (readerProcess .null r).discard
  | .wait arguments stackTimeout result =>
    (readerWait (.tuple arguments) stackTimeout result).discard
  | .seekCursor arguments seek => readerSeekCursor (.tuple arguments) seek
  | .getCursor r cursor => (readerGetCursor .null r cursor).discard
  | .testCursor arguments test => (readerTestCursor (.tuple arguments) test).discard
  | .queryUnique arguments query outcomes =>
    (readerQueryUnique (.tuple arguments) query outcomes).discard
  | .enumerateFields outcomes => (readerEnumerateFields build .null outcomes).discard
  | .hasRuntimeFiles r => (readerHasRuntimeFiles build .null r).discard
  | .hasPersistentFiles r => (readerHasPersistentFiles build .null r).discard
  | .getCatalog catalog messageId => (readerGetCatalog .null catalog messageId).discard
  | .getDataThreshold r cvalue => (readerGetDataThreshold r cvalue).discard
  | .setDataThreshold value set => readerSetDataThreshold value set
  | .closed => readerGetClosed.discard

/-- The result of opening a journal with these arguments; negative where it is not tried. -/
def openResult (build : Build) (arguments : Except PyException InitArguments)
    (result : OpenCall → ℤ) : ℤ :=
  match arguments with
  | .error _ => -1
  | .ok arguments =>
    match openCall build arguments with
    | .error _ => -1
    | .ok call => (call.map result).getD (-ENOSYS)

/-- What a call is to do to the handle: `close` and `__exit__` release it, and `__init__` opens one
where the library does. -/
def ReaderCall.action (build : Build) : ReaderCall → Action
  | .init arguments result => if 0 ≤ openResult build arguments result then .openNew else .use
  | .close | .exit => .release
  | _ => .use

/-- The library says that an entry has no catalog only after it has parsed the `MESSAGE_ID` of the
entry, which is then the name of the field and an id of 32 digits, or of 36 with dashes. -/
def ReaderCall.Documented : ReaderCall → Prop
  | .getCatalog catalog messageId =>
    catalog.1 = -ENOENT → messageId.1 = 0 →
      messageId.2.length = messageIdPrefix + 32 ∨ messageId.2.length = messageIdPrefix + 36
  | _ => True

/-! ### The effect of the methods -/

variable {build : Build}

/-- `__init__` stores the handle that the library opened, whatever it raises afterwards. -/
theorem refines_readerInit (arguments : Except PyException InitArguments)
    (result : OpenCall → ℤ) :
    (readerInit build (.tuple arguments) result).Refines
      (if 0 ≤ openResult build arguments result then .openNew else .use) := by
  cases arguments with
  | error exception => exact refines_raise exception
  | ok arguments =>
    have hresult : openResult build (.ok arguments) result =
        match openCall build arguments with
        | .error _ => -1
        | .ok call => (call.map result).getD (-ENOSYS) := rfl
    rw [hresult]
    unfold readerInit parseTuple
    rw [ofExcept_ok_bind]
    cases openCall build arguments with
    | error exception => exact refines_raise exception
    | ok call =>
      rw [ofExcept_ok_bind]
      exact Refines.bind_still (refines_storeHandle _) fun _ slot ↦ ofExcept_still _ slot

theorem refines_readerClose {α : Type} : (readerClose (.null : Args α)).Refines .release :=
  refines_act .release

/-- Every skip but zero falls under one of the four cases. -/
theorem moveCall_ne_none {skip : Int64} (hzero : skip ≠ 0) : moveCall skip ≠ none := by
  unfold moveCall
  split_ifs with hone hminus hgt hlt
  · exact Option.some_ne_none _
  · exact Option.some_ne_none _
  · exact Option.some_ne_none _
  · exact Option.some_ne_none _
  · have hle : skip.toInt ≤ 1 := Int64.le_iff_toInt_le.mp (Int64.not_lt.mp hgt)
    have hge : -1 ≤ skip.toInt := Int64.le_iff_toInt_le.mp (Int64.not_lt.mp hlt)
    have hzeroInt : skip.toInt ≠ 0 := fun h ↦ hzero (Int64.toInt_inj.mp h)
    have honeInt : skip.toInt ≠ 1 := fun h ↦ hone (Int64.toInt_inj.mp h)
    have hminusInt : skip.toInt ≠ -1 := fun h ↦ hminus (Int64.toInt_inj.mp h)
    omega

theorem refines_readerNext (arguments : Except PyException (Option Int64))
    (move : MoveCall → ℤ) : (readerNext (.tuple arguments) move).Refines .use := by
  refine Refines.bind (refines_parseTuple arguments) fun skip ↦ ?_
  split_ifs with hzero
  · exact refines_raise _
  · cases hcall : moveCall (skip.getD 1) with
    | none => exact absurd hcall (moveCall_ne_none hzero)
    | some call => exact refines_callLibrary_return (move call) none _

theorem refines_readerPrevious (arguments : Except PyException (Option Int64))
    (move : MoveCall → ℤ) : (readerPrevious (.tuple arguments) move).Refines .use :=
  (refines_parseTuple arguments).bind fun skip ↦ refines_readerNext (.ok (some (-skip.getD 1))) move

theorem refines_readerGet (arguments : Except PyException (List UInt8))
    (data : List UInt8 → ℤ × List UInt8) : (readerGet (.tuple arguments) data).Refines .use := by
  refine Refines.bind (refines_assert rfl) fun _ ↦ ?_
  refine Refines.bind (refines_parseTuple arguments) fun field ↦ ?_
  refine Refines.bind (refines_act .use) fun _ ↦ ?_
  split_ifs
  · exact refines_raise _
  · exact (refines_raiseError _ _).bind fun _ ↦ refines_ofExcept _

/-- An enumeration uses the handle once for each result, and once more at its end. -/
theorem refines_enumerate {σ : Type} (body : σ → List UInt8 → Except PyException σ)
    (outcomes : List (ℤ × List UInt8)) (collected : σ) :
    (enumerate body outcomes collected).Refines .use := by
  induction outcomes generalizing collected with
  | nil => exact (refines_act .use).bind fun _ ↦ refines_pure collected
  | cons outcome outcomes ih =>
    refine Refines.bind (refines_act .use) fun _ ↦ ?_
    split_ifs
    · exact (refines_ofExcept _).bind fun collected ↦ ih collected
    · exact refines_pure collected

theorem refines_enumerateFields (outcomes : List (ℤ × List UInt8)) (valueSet : Finset Text) :
    (enumerateFields outcomes valueSet).Refines .use := by
  induction outcomes generalizing valueSet with
  | nil => exact (refines_act .use).bind fun _ ↦ refines_pure valueSet
  | cons outcome outcomes ih =>
    refine Refines.bind (refines_act .use) fun _ ↦ ?_
    split_ifs
    · exact refines_pure valueSet
    · refine Refines.bind (refines_raiseError _ _) fun _ ↦ ?_
      exact (refines_ofExcept _).bind fun value ↦ ih (insert value valueSet)

/-- The assertion on the length of the `MESSAGE_ID` holds for what the library documents. -/
theorem refines_readerGetCatalog (catalog messageId : ℤ × List UInt8)
    (h : (ReaderCall.getCatalog catalog messageId).Documented) :
    (readerGetCatalog .null catalog messageId).Refines .use := by
  refine Refines.bind (refines_assert rfl) fun _ ↦ ?_
  refine Refines.bind (refines_act .use) fun _ ↦ ?_
  split_ifs with hcatalog hfound
  · refine Refines.bind (refines_act .use) fun _ ↦ ?_
    have hlength : messageIdPrefix < messageId.2.length := by
      rcases h hcatalog hfound with hlength | hlength
      · omega
      · omega
    exact (refines_assert hlength).bind fun _ ↦ refines_raise _
  · exact (refines_act .use).bind fun _ ↦ refines_raise _
  · refine Refines.bind (refines_act .use) fun _ ↦ ?_
    exact (refines_raiseError _ _).bind fun _ ↦ refines_raise _
  · exact (refines_raiseError _ _).bind fun _ ↦ refines_ofExcept _

theorem refines_readerSeekMonotonic
    (arguments : Except PyException (UInt64 × Option (List UInt8)))
    (bootId : Option (List UInt8) → ℤ × List UInt8) (seek : List UInt8 → UInt64 → ℤ) :
    (readerSeekMonotonic (.tuple arguments) bootId seek).Refines .use := by
  refine Refines.bind (refines_parseTuple arguments) fun parsed ↦ ?_
  exact (refines_raiseError _ _).bind fun _ ↦ refines_callLibrary _ none

theorem refines_readerAddMatch (arguments : Except PyException (List UInt8))
    (add : List UInt8 → ℤ) : (readerAddMatch (.tuple arguments) add).Refines .use := by
  refine Refines.bind (refines_parseTuple arguments) fun bytes ↦ ?_
  split_ifs
  · exact refines_raiseError (-ENOBUFS) none
  · exact refines_callLibrary _ _

theorem refines_readerQueryUnique (arguments : Except PyException (List UInt8))
    (query : List UInt8 → ℤ) (outcomes : List (ℤ × List UInt8)) :
    (readerQueryUnique (.tuple arguments) query outcomes).Refines .use := by
  refine Refines.bind (refines_parseTuple arguments) fun field ↦ ?_
  refine Refines.bind (refines_callLibrary _ _) fun _ ↦ ?_
  refine Refines.bind (refines_ofExcept _) fun _ ↦ ?_
  exact (refines_act .use).bind fun _ ↦ refines_enumerate collectValue outcomes ∅

theorem refines_readerEnumerateFields (outcomes : List (ℤ × List UInt8)) :
    (readerEnumerateFields build .null outcomes).Refines .use := by
  unfold readerEnumerateFields
  split_ifs
  · exact (refines_act .use).bind fun _ ↦ refines_enumerateFields outcomes ∅
  · exact refines_raise _

theorem refines_readerHasFiles (r : ℤ) : (readerHasFiles build r).Refines .use := by
  unfold readerHasFiles
  split_ifs
  · exact refines_callLibrary_return r none _
  · exact refines_raise _

theorem refines_readerSetDataThreshold (value : ThresholdObject) (set : UInt64 → ℤ) :
    (readerSetDataThreshold value set).Refines .use := by
  cases value with
  | deleted => exact refines_raise _
  | int value => exact refines_callLibrary _ none
  | other => exact refines_raise _

theorem refines_readerGetClosed : readerGetClosed.Refines .use :=
  fun slot ↦ ⟨.ok slot.handle.isNone, [], .uses 0, rfl⟩

/-! ### The effect of a call -/

/-- Every call refines its action. -/
theorem ReaderCall.refines_run (call : ReaderCall) (h : call.Documented) :
    (call.run build).Refines (call.action build) := by
  cases call with
  | init arguments result => exact refines_readerInit arguments result
  | fileno fd => exact (refines_callLibrary_return fd none fd).discard
  | reliableFd r => exact (refines_callLibrary_return r none _).discard
  | getEvents r => exact (refines_callLibrary_return r none r).discard
  | getTimeout r t => exact (refines_callLibrary_return r none _).discard
  | getTimeoutMs r t ts => exact (refines_callLibrary_return r none _).discard
  | close => exact refines_readerClose
  | getUsage r bytes => exact (refines_callLibrary_return r none bytes).discard
  | enter => exact refines_pure ()
  | exit => exact refines_readerClose
  | next arguments move => exact (refines_readerNext arguments move).discard
  | previous arguments move => exact (refines_readerPrevious arguments move).discard
  | get arguments data => exact (refines_readerGet arguments data).discard
  | getAll outcomes =>
    have hloop := refines_enumerate collectField outcomes OrderedDict.empty
    exact ((refines_act .use).bind fun _ ↦ hloop).discard
  | getRealtime r timestamp =>
    exact ((refines_assert rfl).bind fun _ ↦ refines_callLibrary_return r none timestamp).discard
  | getMonotonic r timestamp bootid =>
    exact ((refines_assert rfl).bind fun _ ↦ refines_callLibrary_return r none _).discard
  | addMatch arguments add => exact refines_readerAddMatch arguments add
  | addDisjunction r => exact refines_callLibrary r none
  | addConjunction r => exact refines_callLibrary r none
  | flushMatches => exact refines_act .use
  | seekHead r => exact refines_callLibrary r none
  | seekTail r => exact refines_callLibrary r none
  | seekRealtime arguments seek =>
    exact (refines_parseTuple arguments).bind fun timestamp ↦ refines_callLibrary _ none
  | seekMonotonic arguments bootId seek => exact refines_readerSeekMonotonic arguments bootId seek
  | process r =>
    exact ((refines_assert rfl).bind fun _ ↦ refines_callLibrary_return r none r).discard
  | wait arguments stackTimeout result =>
    exact ((refines_parseTuple arguments).bind
      fun timeout ↦ refines_callLibrary_return _ none _).discard
  | seekCursor arguments seek =>
    exact (refines_parseTuple arguments).bind fun cursor ↦ refines_callLibrary _ _
  | getCursor r cursor =>
    refine Refines.discard (Refines.bind (refines_assert rfl) fun _ ↦ ?_)
    exact (refines_callLibrary r none).bind fun _ ↦ refines_ofExcept _
  | testCursor arguments test =>
    refine Refines.discard (Refines.bind (refines_assert rfl) fun _ ↦ ?_)
    exact (refines_parseTuple arguments).bind fun cursor ↦ refines_callLibrary_return _ none _
  | queryUnique arguments query outcomes =>
    exact (refines_readerQueryUnique arguments query outcomes).discard
  | enumerateFields outcomes => exact (refines_readerEnumerateFields outcomes).discard
  | hasRuntimeFiles r => exact (refines_readerHasFiles r).discard
  | hasPersistentFiles r => exact (refines_readerHasFiles r).discard
  | getCatalog catalog messageId => exact (refines_readerGetCatalog catalog messageId h).discard
  | getDataThreshold r cvalue => exact (refines_callLibrary_return r none cvalue).discard
  | setDataThreshold value set => exact refines_readerSetDataThreshold value set
  | closed => exact refines_readerGetClosed.discard

/-! ### Lives of objects -/

/-- The life of a reader is in order exactly when no `__init__` opens a journal while the object
holds one. -/
theorem runsDisciplined_reader_iff (calls : List ReaderCall)
    (hdocumented : ∀ call ∈ calls, call.Documented) :
    RunsDisciplined (calls.map (ReaderCall.run build)) readerDealloc ↔
      NeverReopens false (calls.map (ReaderCall.action build)) :=
  runsDisciplined_iff (refines_act .release) calls
    fun call hcall ↦ call.refines_run (hdocumented call hcall)

/-- When the life of a monitor and that of a reader are in order: every assertion holds, and every
handle that was opened is released exactly once and not used after that. -/
theorem runsDisciplined_monitors_and_readers (build : Build) :
    (∀ calls : List Login.MonitorCall,
      RunsDisciplined (calls.map Login.MonitorCall.run) Login.monitorDealloc ↔
        Login.MonitorCall.exit ∉ calls ∧
          NeverReopens false (calls.map Login.MonitorCall.action)) ∧
    ∀ calls : List ReaderCall, (∀ call ∈ calls, call.Documented) →
      (RunsDisciplined (calls.map (ReaderCall.run build)) readerDealloc ↔
        NeverReopens false (calls.map (ReaderCall.action build))) :=
  ⟨Login.runsDisciplined_monitor_iff, runsDisciplined_reader_iff⟩

/-- Arguments of `Reader()`, which opens the journals of the local machine. -/
def localOnly : InitArguments where
  flags := 1
  path := none
  files := none
  journalNamespace := none

def build250 : Build where
  libsystemdVersion := some 250
  libsystemdJournalVersion := 250

/-- A `with` statement on a reader whose entry has no catalog, and one more opening of the closed
reader: the life of the object is in order. -/
theorem runsDisciplined_sample :
    RunsDisciplined
      (([.init (.ok localOnly) (fun _ ↦ 0), .enter, .next (.ok none) (fun _ ↦ 1),
        .getCatalog (-ENOENT, []) (0, List.replicate 43 61), .exit, .close,
        .init (.ok localOnly) (fun _ ↦ 0)] : List ReaderCall).map (ReaderCall.run build250))
      readerDealloc := by
  refine ((runsDisciplined_monitors_and_readers build250).2 _ ?_).mpr ?_
  · simp [ReaderCall.Documented, messageIdPrefix]
  · simp [ReaderCall.action, openResult, openCall, localOnly, NeverReopens]

/-- A `with` statement on a monitor aborts, and a reader that is initialised twice loses the first
of its journals. -/
theorem not_runsDisciplined_sample :
    ¬ RunsDisciplined
      (([.init (.ok none) (fun _ ↦ 0), .enter, .exit] : List Login.MonitorCall).map
        Login.MonitorCall.run) Login.monitorDealloc ∧
    ¬ RunsDisciplined
      (([.init (.ok localOnly) (fun _ ↦ 0), .init (.ok localOnly) (fun _ ↦ 0)] :
        List ReaderCall).map (ReaderCall.run build250)) readerDealloc := by
  constructor
  · rw [Login.runsDisciplined_monitor_iff]
    simp
  · rw [runsDisciplined_reader_iff _ (by simp [ReaderCall.Documented])]
    simp [ReaderCall.action, openResult, openCall, localOnly, NeverReopens]

end PythonSystemd.Journal
