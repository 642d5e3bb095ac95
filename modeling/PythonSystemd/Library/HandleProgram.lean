import PythonSystemd.Library.CheckedMemory
import PythonSystemd.Library.HandleTrace

/-!
# Programs over a handle slot

A `Program` runs over a `Slot`. It stops at a fault, or ends with an exception or a value and the
slot after it; an exception ends the program and leaves the slot as it is.

`Refines program action` says that the program runs to its end and does to the handle what the
abstract action says: opens or releases it once, or uses it any number of times. The rules of the
section on refinement derive it along the text of a program. `runsDisciplined_iff` then carries
`HandleTrace.disciplined_iff` over to every run of such programs.
-/

set_option autoImplicit false
set_option relaxedAutoImplicit false

namespace PythonSystemd.Library.HandleProgram

open CheckedMemory HandleTrace

/-- A computation over a slot that faults, raises an exception or returns a value. -/
def Program (ε α : Type) : Type :=
  Slot → Checked (Except ε α × Slot)

namespace Program

variable {ε α β : Type}

instance : Monad (Program ε) where
  pure value := fun slot ↦ .ok (.ok value, slot)
  bind first next := fun slot ↦
    match first slot with
    | .error fault => .error fault
    | .ok (.error exception, slot) => .ok (.error exception, slot)
    | .ok (.ok value, slot) => next value slot

def raise (exception : ε) : Program ε α := fun slot ↦
  .ok (.error exception, slot)

def ofExcept : Except ε α → Program ε α
  | .error exception => raise exception
  | .ok value => pure value

def fault (reason : Fault) : Program ε α := fun _ ↦
  .error reason

/-- The `assert` of C. -/
def assert (condition : Prop) [Decidable condition] : Program ε Unit :=
  if condition then pure () else fault .assertion

def act (action : Action) : Program ε Unit := fun slot ↦
  .ok (.ok (), slot.perform action)

/-- Stores a new handle in the slot when the result of the library is not negative. -/
def storeHandle (r : ℤ) : Program ε Unit :=
  if 0 ≤ r then act .openNew else pure ()

/-- Drops the value of a program. -/
def discard (program : Program ε α) : Program ε Unit := do
  let _ ← program

/-- Runs the programs one after the other. An exception is the caller's affair, so the run goes on
after it. -/
def runAll : (programs : List (Program ε α)) → (slot : Slot) → Checked Slot
  | [], slot => .ok slot
  | program :: programs, slot =>
    match program slot with
    | .error fault => .error fault
    | .ok (_, slot) => runAll programs slot

theorem bind_apply (first : Program ε α) (next : α → Program ε β) (slot : Slot) :
    (first >>= next) slot =
      match first slot with
      | .error fault => .error fault
      | .ok (.error exception, slot) => .ok (.error exception, slot)
      | .ok (.ok value, slot) => next value slot :=
  rfl

@[simp] theorem ofExcept_ok_bind (value : α) (next : α → Program ε β) :
    (ofExcept (.ok value) >>= next) = next value :=
  rfl

theorem runAll_cons_of_ok {program : Program ε α} {slot after : Slot} {result : Except ε α}
    (h : program slot = .ok (result, after)) (programs : List (Program ε α)) :
    runAll (program :: programs) slot = runAll programs after := by
  rw [runAll, h]

theorem runAll_cons_of_error {program : Program ε α} {slot : Slot} {reason : Fault}
    (h : program slot = .error reason) (programs : List (Program ε α)) :
    runAll (program :: programs) slot = .error reason := by
  rw [runAll, h]

/-! ### Refinement of an action -/

/-- The actions that amount to one: a use stands for any number of uses. -/
inductive Amounts : Action → List Action → Prop
  | uses (count : ℕ) : Amounts .use (List.replicate count .use)
  | once (action : Action) : Amounts action [action]

/-- The program runs to its end and its effect on the slot amounts to the action. -/
def Refines (program : Program ε α) (action : Action) : Prop :=
  ∀ slot, ∃ result actions, Amounts action actions ∧
    program slot = .ok (result, slot.performAll actions)

theorem refines_act (action : Action) : Refines (act action : Program ε Unit) action :=
  fun _ ↦ ⟨.ok (), [action], .once action, rfl⟩

theorem refines_pure (value : α) : Refines (pure value : Program ε α) .use :=
  fun _ ↦ ⟨.ok value, [], .uses 0, rfl⟩

theorem refines_raise (exception : ε) : Refines (raise exception : Program ε α) .use :=
  fun _ ↦ ⟨.error exception, [], .uses 0, rfl⟩

theorem refines_ofExcept (outcome : Except ε α) : Refines (ofExcept outcome) .use := by
  cases outcome with
  | error exception => exact refines_raise exception
  | ok value => exact refines_pure value

theorem refines_assert {condition : Prop} [Decidable condition] (h : condition) :
    Refines (assert condition : Program ε Unit) .use := by
  rw [assert, if_pos h]
  exact refines_pure ()

variable {first : Program ε α} {next : α → Program ε β} {action : Action}

theorem amounts_use_append {actions rest : List Action} (hactions : Amounts .use actions)
    (hrest : Amounts .use rest) : Amounts .use (actions ++ rest) := by
  have hreplicate : ∀ {some : List Action}, Amounts .use some →
      ∃ count, some = List.replicate count .use := by
    rintro _ (count | _)
    · exact ⟨count, rfl⟩
    · exact ⟨1, rfl⟩
  obtain ⟨count, rfl⟩ := hreplicate hactions
  obtain ⟨more, rfl⟩ := hreplicate hrest
  rw [List.replicate_append_replicate]
  exact .uses (count + more)

/-- Two programs that only use the handle do so one after the other. -/
theorem Refines.bind (hfirst : Refines first .use) (hnext : ∀ value, Refines (next value) .use) :
    Refines (first >>= next) .use := by
  intro slot
  obtain ⟨result, actions, hactions, hrun⟩ := hfirst slot
  cases result with
  | error exception => exact ⟨.error exception, actions, hactions, by rw [bind_apply, hrun]⟩
  | ok value =>
    obtain ⟨result, rest, hrest, hnextRun⟩ := hnext value (slot.performAll actions)
    refine ⟨result, actions ++ rest, amounts_use_append hactions hrest, ?_⟩
    have happend : slot.performAll (actions ++ rest) = (slot.performAll actions).performAll rest :=
      List.foldl_append
    rw [bind_apply, hrun, happend]
    exact hnextRun

/-- What follows without touching the slot does not change the action. -/
theorem Refines.bind_still (hfirst : Refines first action)
    (hnext : ∀ value slot, ∃ result, next value slot = .ok (result, slot)) :
    Refines (first >>= next) action := by
  intro slot
  obtain ⟨result, actions, hactions, hrun⟩ := hfirst slot
  cases result with
  | error exception => exact ⟨.error exception, actions, hactions, by rw [bind_apply, hrun]⟩
  | ok value =>
    obtain ⟨result, hnextRun⟩ := hnext value (slot.performAll actions)
    exact ⟨result, actions, hactions, by rw [bind_apply, hrun]; exact hnextRun⟩

theorem ofExcept_still (outcome : Except ε α) (slot : Slot) :
    ∃ result, ofExcept outcome slot = .ok (result, slot) :=
  ⟨outcome, by cases outcome <;> rfl⟩

theorem refines_storeHandle (r : ℤ) :
    (storeHandle r : Program ε Unit).Refines (if 0 ≤ r then .openNew else .use) := by
  unfold storeHandle
  split_ifs
  · exact refines_act .openNew
  · exact refines_pure ()

theorem Refines.discard {program : Program ε α} (h : program.Refines action) :
    program.discard.Refines action :=
  h.bind_still fun _ _ ↦ ⟨.ok (), rfl⟩

/-! ### Results that do not depend on the slot -/

/-- Whatever the slot holds, the program ends with this result. -/
def Returns (program : Program ε α) (result : Except ε α) : Prop :=
  ∀ slot, ∃ after, program slot = .ok (result, after)

theorem returns_act (action : Action) : Returns (act action : Program ε Unit) (.ok ()) :=
  fun slot ↦ ⟨slot.perform action, rfl⟩

theorem returns_ofExcept (outcome : Except ε α) : Returns (ofExcept outcome) outcome :=
  fun slot ↦ ⟨slot, by cases outcome <;> rfl⟩

theorem returns_pure (value : α) : Returns (pure value : Program ε α) (.ok value) :=
  returns_ofExcept (.ok value)

theorem returns_raise (exception : ε) :
    Returns (raise exception : Program ε α) (.error exception) :=
  returns_ofExcept (.error exception)

/-- The result of two programs in a row is that of the second on the value of the first. -/
theorem Returns.bind {result : Except ε α} {nextResult : α → Except ε β}
    (hfirst : first.Returns result) (hnext : ∀ value, (next value).Returns (nextResult value)) :
    (first >>= next).Returns (result >>= nextResult) := by
  intro slot
  obtain ⟨middle, hrun⟩ := hfirst slot
  cases result with
  | error exception => exact ⟨middle, by rw [bind_apply, hrun]; rfl⟩
  | ok value =>
    obtain ⟨after, hafter⟩ := hnext value middle
    exact ⟨after, by rw [bind_apply, hrun]; exact hafter⟩

theorem Returns.ok_bind {value : α} {result : Except ε β} (hfirst : first.Returns (.ok value))
    (hnext : (next value).Returns result) : (first >>= next).Returns result := by
  intro slot
  obtain ⟨middle, hrun⟩ := hfirst slot
  obtain ⟨after, hafter⟩ := hnext middle
  exact ⟨after, by rw [bind_apply, hrun]; exact hafter⟩

theorem Returns.error_bind {exception : ε} (hfirst : first.Returns (.error exception))
    (next : α → Program ε β) : (first >>= next).Returns (.error exception) := by
  intro slot
  obtain ⟨middle, hrun⟩ := hfirst slot
  exact ⟨middle, by rw [bind_apply, hrun]⟩

theorem Returns.unique {program : Program ε α} {result other : Except ε α}
    (hresult : program.Returns result) (hother : program.Returns other) : result = other := by
  obtain ⟨_, hresult⟩ := hresult Slot.empty
  obtain ⟨_, hother⟩ := hother Slot.empty
  exact (Prod.mk.inj (Except.ok.inj (hresult.symm.trans hother))).1

/-! ### Runs of refining programs -/

theorem neverReopens_replicate_use_append (held : Bool) (count : ℕ) (rest : List Action) :
    NeverReopens held (List.replicate count .use ++ rest) ↔ NeverReopens held rest := by
  induction count with
  | zero => rfl
  | succ count ih => exact ih

theorem neverReopens_amounts_append {actions : List Action} (h : Amounts action actions)
    (held : Bool) (rest : List Action) :
    NeverReopens held (actions ++ rest) ↔ NeverReopens held (action :: rest) := by
  cases h with
  | uses count => exact neverReopens_replicate_use_append held count rest
  | once action => rfl

/-- An action leads from the same state of the slot to the same condition on the rest. -/
theorem neverReopens_cons_congr {rest other : List Action}
    (h : ∀ held, NeverReopens held rest ↔ NeverReopens held other) (held : Bool) :
    NeverReopens held (action :: rest) ↔ NeverReopens held (action :: other) := by
  cases action with
  | openNew => exact and_congr_right' (h true)
  | use => exact h held
  | release => exact h false

variable {κ : Type} {program : κ → Program ε α} {action : κ → Action}

/-- A run of programs that refine their actions does not fault, and it performs actions that
reopen the slot when the abstract ones do. -/
theorem runAll_refines (calls : List κ)
    (hrefines : ∀ call ∈ calls, (program call).Refines (action call)) (slot : Slot) :
    ∃ actions, runAll (calls.map program) slot = .ok (slot.performAll actions) ∧
      ∀ held, NeverReopens held actions ↔ NeverReopens held (calls.map action) := by
  induction calls generalizing slot with
  | nil => exact ⟨[], rfl, fun _ ↦ Iff.rfl⟩
  | cons call calls ih =>
    obtain ⟨result, actions, hactions, hrun⟩ := hrefines call List.mem_cons_self slot
    have htail : ∀ other ∈ calls, (program other).Refines (action other) :=
      fun other hmem ↦ hrefines other (List.mem_cons_of_mem call hmem)
    obtain ⟨rest, hrest, hiff⟩ := ih htail (slot.performAll actions)
    refine ⟨actions ++ rest, ?_, fun held ↦ ?_⟩
    · have happend :
          slot.performAll (actions ++ rest) = (slot.performAll actions).performAll rest :=
        List.foldl_append
      rw [List.map_cons, runAll_cons_of_ok hrun, hrest, happend]
    · rw [neverReopens_amounts_append hactions, List.map_cons]
      exact neverReopens_cons_congr hiff held

/-- The programs run to their end on a fresh slot, so does the destructor after them, and the trace
they leave is disciplined. -/
def RunsDisciplined (programs : List (Program ε α)) (destructor : Program ε Unit) : Prop :=
  ∃ slot result after, runAll programs Slot.empty = .ok slot ∧
    destructor slot = .ok (result, after) ∧ Disciplined after.events

variable {destructor : Program ε Unit}

/-- A run on a fresh slot is disciplined exactly when the abstract actions never reopen it. -/
theorem runsDisciplined_iff (hdestructor : destructor.Refines .release) (calls : List κ)
    (hrefines : ∀ call ∈ calls, (program call).Refines (action call)) :
    RunsDisciplined (calls.map program) destructor ↔ NeverReopens false (calls.map action) := by
  obtain ⟨actions, hrun, hiff⟩ := runAll_refines calls hrefines Slot.empty
  obtain ⟨result, last, hlast, hend⟩ := hdestructor (Slot.empty.performAll actions)
  obtain rfl : last = [.release] := by
    cases hlast with
    | once => rfl
  rw [← hiff false, ← disciplined_iff actions]
  constructor
  · rintro ⟨slot, outcome, after, hslot, hafter, hdisciplined⟩
    obtain rfl := Except.ok.inj (hrun.symm.trans hslot)
    obtain ⟨-, rfl⟩ := Prod.mk.inj (Except.ok.inj (hend.symm.trans hafter))
    exact hdisciplined
  · intro hdisciplined
    exact ⟨_, result, _, hrun, hend, hdisciplined⟩

/-- A run that reaches a program that always faults is not disciplined. -/
theorem not_runsDisciplined_of_fault {programs : List (Program ε α)} {faulty : Program ε α}
    (hmem : faulty ∈ programs) (hfaulty : ∀ slot, ∃ reason, faulty slot = .error reason) :
    ¬ RunsDisciplined programs destructor := by
  have hnever : ∀ start slot, runAll programs start ≠ .ok slot := by
    induction programs with
    | nil => cases hmem
    | cons program programs ih =>
      intro start slot hrun
      rcases List.mem_cons.mp hmem with rfl | htail
      · obtain ⟨reason, hreason⟩ := hfaulty start
        rw [runAll_cons_of_error hreason] at hrun
        cases hrun
      · cases hprogram : program start with
        | error reason =>
          rw [runAll_cons_of_error hprogram] at hrun
          cases hrun
        | ok outcome =>
          rw [runAll_cons_of_ok hprogram] at hrun
          exact ih htail outcome.2 slot hrun
  rintro ⟨slot, result, after, hrun, -, -⟩
  exact hnever Slot.empty slot hrun

end Program

end PythonSystemd.Library.HandleProgram
