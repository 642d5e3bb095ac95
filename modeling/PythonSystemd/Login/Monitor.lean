import PythonSystemd.Python.Pyutil

/-!
# The login monitor

The type `login.Monitor` of `login.c`. Its slot is the field `monitor`. What the library returns is
passed to each method: `sd_login_monitor_new` stores a monitor when its result is not negative and
leaves the field alone otherwise.

`MonitorCall` lists what Python can do to an object and `MonitorCall.run` dispatches it by the
method table. `MonitorCall.refines_run` says what a call does to the handle. It leaves out
`__exit__`, which never returns (`MonitorCall.run_exit`): its tuple is handed to `Monitor_close`,
which asserts that it got none.
-/

set_option autoImplicit false
set_option relaxedAutoImplicit false

namespace PythonSystemd.Login

open Library.CheckedMemory Library.HandleTrace Library.HandleProgram Program Python

/-- `Monitor_init`, for the result of `sd_login_monitor_new` on the category. -/
def monitorInit (args : Args (Option (List UInt8))) (new : Option (List UInt8) → ℤ) :
    Program PyException Unit := do
  let category ← parseTuple args
  let r := new category
  storeHandle r
  raiseError r (some "Invalid category")

def monitorDealloc : Program PyException Unit :=
  act .release

def monitorFileno (_args : Args Unit) (fd : ℤ) : Program PyException ℤ := do
  callLibrary fd none
  return fd

def monitorGetEvents (_args : Args Unit) (r : ℤ) : Program PyException ℤ := do
  callLibrary r none
  return r

/-- `Monitor_get_timeout`; no result stands for `None`. -/
def monitorGetTimeout (_args : Args Unit) (r : ℤ) (t : UInt64) :
    Program PyException (Option UInt64) := do
  callLibrary r none
  return if t = -1 then none else some t

def monitorGetTimeoutMs (_args : Args Unit) (r : ℤ) (t : UInt64) (ts : Timespec) :
    Program PyException ℤ := do
  callLibrary r none
  return absoluteTimeout t ts

def monitorClose {α : Type} (args : Args α) : Program PyException Unit := do
  assert (args.isNull = true)
  act .release

def monitorFlush (args : Args Unit) : Program PyException Unit := do
  assert (args.isNull = true)
  act .use

def monitorEnter (args : Args Unit) : Program PyException Unit :=
  assert (args.isNull = true)

def monitorExit {α : Type} (args : Args α) : Program PyException Unit :=
  monitorClose args

/-! ### Calls from Python -/

/-- An operation of Python on a monitor, with what the library returns during it. -/
inductive MonitorCall
  | init (arguments : Except PyException (Option (List UInt8))) (new : Option (List UInt8) → ℤ)
  | fileno (fd : ℤ)
  | getEvents (r : ℤ)
  | getTimeout (r : ℤ) (t : UInt64)
  | getTimeoutMs (r : ℤ) (t : UInt64) (ts : Timespec)
  | close
  | flush
  | enter
  | exit

/-- `Monitor_methods`, `__init__` included. -/
def MonitorCall.run : MonitorCall → Program PyException Unit
  | .init arguments new => monitorInit (.tuple arguments) new
  | .fileno fd => (monitorFileno .null fd).discard
  | .getEvents r => (monitorGetEvents .null r).discard
  | .getTimeout r t => (monitorGetTimeout .null r t).discard
  | .getTimeoutMs r t ts => (monitorGetTimeoutMs .null r t ts).discard
  | .close => monitorClose (.null : Args Unit)
  | .flush => monitorFlush .null
  | .enter => monitorEnter .null
  | .exit => monitorExit (.tuple (.ok ()))

/-! ### The effect of a call -/

/-- What a call is to do to the handle: `close` and `__exit__` release it, and `__init__` opens one
where the library does. -/
def MonitorCall.action : MonitorCall → Action
  | .init (.ok category) new => if 0 ≤ new category then .openNew else .use
  | .close | .exit => .release
  | _ => .use

theorem refines_monitorInit (arguments : Except PyException (Option (List UInt8)))
    (new : Option (List UInt8) → ℤ) :
    (monitorInit (.tuple arguments) new).Refines (MonitorCall.init arguments new).action := by
  cases arguments with
  | error exception => exact refines_raise exception
  | ok category =>
    have hstore := refines_storeHandle (new category) (ε := PyException)
    exact Refines.bind_raiseError hstore (fun _ ↦ new category) (some "Invalid category")

theorem refines_monitorClose {α : Type} : (monitorClose (.null : Args α)).Refines .release :=
  refines_act .release

/-- Every call but `__exit__` refines its action. -/
theorem MonitorCall.refines_run (call : MonitorCall) (h : call ≠ .exit) :
    call.run.Refines call.action := by
  cases call with
  | init arguments new => exact refines_monitorInit arguments new
  | fileno fd => exact (refines_callLibrary_return fd none fd).discard
  | getEvents r => exact (refines_callLibrary_return r none r).discard
  | getTimeout r t => exact (refines_callLibrary_return r none _).discard
  | getTimeoutMs r t ts => exact (refines_callLibrary_return r none _).discard
  | close => exact refines_monitorClose
  | flush => exact refines_act .use
  | enter => exact refines_pure ()
  | exit => exact absurd rfl h

/-- `__exit__` passes on the tuple it got, and `Monitor_close` asserts that there is none. -/
theorem MonitorCall.run_exit (slot : Slot) : MonitorCall.exit.run slot = .error .assertion :=
  rfl

/-- The life of a monitor is in order exactly when `__exit__` is not called and no `__init__` opens
a monitor while the object holds one. -/
theorem runsDisciplined_monitor_iff (calls : List MonitorCall) :
    RunsDisciplined (calls.map MonitorCall.run) monitorDealloc ↔
      MonitorCall.exit ∉ calls ∧ NeverReopens false (calls.map MonitorCall.action) := by
  by_cases hexit : MonitorCall.exit ∈ calls
  · have hfault : ¬ RunsDisciplined (calls.map MonitorCall.run) monitorDealloc :=
      not_runsDisciplined_of_fault (List.mem_map_of_mem hexit)
        fun slot ↦ ⟨.assertion, MonitorCall.run_exit slot⟩
    exact iff_of_false hfault fun h ↦ h.1 hexit
  · have hrefines : ∀ call ∈ calls, call.run.Refines call.action := by
      intro call hcall
      refine call.refines_run ?_
      rintro rfl
      exact hexit hcall
    refine (runsDisciplined_iff (refines_act .release) calls hrefines).trans ?_
    exact ⟨fun h ↦ ⟨hexit, h⟩, fun h ↦ h.2⟩

end PythonSystemd.Login
