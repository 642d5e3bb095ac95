import Mathlib.Tactic.Common

/-!
# Runs of a machine over a model

A machine answers a call and changes its state, or fails. A model never fails: a call moves it from
one position to the next and has an answer there. `Simulates` says of one allowed call that the
machine answers as the model does and that its state follows the position, and `Simulates.runCalls`
carries this over a whole run.
-/

set_option autoImplicit false
set_option relaxedAutoImplicit false

namespace PythonSystemd.Library.Simulation

variable {κ σ π ω ε : Type}

/-- What a call does in a state. -/
abbrev Machine (κ σ ω ε : Type) := κ → σ → Except ε (ω × σ)

/-- A run of calls, up to the first that fails. -/
def runCalls (machine : Machine κ σ ω ε) : List κ → σ → Except ε (List ω × σ)
  | [], state => .ok ([], state)
  | call :: calls, state => do
    let (answer, state) ← machine call state
    let (answers, state) ← runCalls machine calls state
    return (answer :: answers, state)

/-- Positions that the calls move between, with the answer to a call at a position. -/
structure Model (κ π ω : Type) where
  move : κ → π → π
  answer : κ → π → ω

namespace Model

variable (model : Model κ π ω)

/-- The position after a run. -/
def final (calls : List κ) (position : π) : π :=
  calls.foldl (fun position call ↦ model.move call position) position

def answers : List κ → π → List ω
  | [], _ => []
  | call :: calls, position =>
    model.answer call position :: answers calls (model.move call position)

end Model

section Runs

variable {machine : Machine κ σ ω ε} {model : Model κ π ω} {Allowed : κ → Prop}
  {Holds : π → σ → Prop}

theorem runCalls_cons {call : κ} {state next : σ} {answer : ω}
    (h : machine call state = .ok (answer, next)) (calls : List κ) :
    runCalls machine (call :: calls) state =
      (runCalls machine calls next).map fun result ↦ (answer :: result.1, result.2) := by
  rw [runCalls, h]
  change (runCalls machine calls next >>= fun result ↦ .ok (answer :: result.1, result.2)) = _
  cases runCalls machine calls next with
  | error exception => rfl
  | ok result => rfl

/-- One allowed call: the answer is that of the model, and the state follows the position. -/
def Simulates (machine : Machine κ σ ω ε) (model : Model κ π ω) (Allowed : κ → Prop)
    (Holds : π → σ → Prop) : Prop :=
  ∀ call position state, Allowed call → Holds position state →
    ∃ next, machine call state = .ok (model.answer call position, next) ∧
      Holds (model.move call position) next

/-- A run of allowed calls does not fail, and answers as the model does. -/
theorem Simulates.runCalls (h : Simulates machine model Allowed Holds) {calls : List κ}
    (hcalls : ∀ call ∈ calls, Allowed call) {position : π} {state : σ}
    (hholds : Holds position state) :
    ∃ last, Simulation.runCalls machine calls state = .ok (model.answers calls position, last) ∧
      Holds (model.final calls position) last := by
  induction calls generalizing position state with
  | nil => exact ⟨state, rfl, hholds⟩
  | cons call calls ih =>
    obtain ⟨hcall, hrest⟩ := List.forall_mem_cons.mp hcalls
    obtain ⟨next, hnext, hmoved⟩ := h call position state hcall hholds
    obtain ⟨last, hlast, hfinal⟩ := ih hrest hmoved
    refine ⟨last, ?_, hfinal⟩
    rw [runCalls_cons hnext, hlast]
    rfl

end Runs

end PythonSystemd.Library.Simulation
