import Mathlib.Data.List.Infix
import Mathlib.Tactic.Common

/-!
# Requests that are taken one by one

A program asks another party for steps. A request may turn out to be none before it is made, and
the other party may refuse it, which depends on what it has taken so far; the first refusal ends the
program with an exception and what was taken before stays taken.

`perform` makes a list of requests. A program that equals it takes a prefix of its requests, all of
them exactly when it returns: `performed_perform`. `runPerformed_runCalls` carries this over to a
run of programs whose exceptions are the caller's affair.
-/

set_option autoImplicit false
set_option relaxedAutoImplicit false

namespace PythonSystemd.Library.RequestLog

/-- A program over the steps that were taken. It ends with an exception or a value. -/
def Requester (σ ε α : Type) : Type :=
  List σ → Except ε α × List σ

/-- What the other party says to a step after those it has taken. -/
abbrev Reply (σ ε : Type) :=
  List σ → σ → Except ε Unit

variable {σ ε α β γ κ : Type}

instance : Monad (Requester σ ε) where
  pure value := fun taken ↦ (.ok value, taken)
  bind first next := fun taken ↦
    match first taken with
    | (.error exception, taken) => (.error exception, taken)
    | (.ok value, taken) => next value taken

def ofExcept (outcome : Except ε α) : Requester σ ε α := fun taken ↦
  (outcome, taken)

variable (reply : Reply σ ε)

/-- One step. -/
def ask (step : σ) : Requester σ ε Unit := fun taken ↦
  match reply taken step with
  | .error exception => (.error exception, taken)
  | .ok () => (.ok (), taken ++ [step])

/-- The requests in order, up to the first that is refused. -/
def perform : List (Except ε σ) → Requester σ ε Unit
  | [] => pure ()
  | request :: requests => do
    let step ← ofExcept request
    ask reply step
    perform requests

theorem bind_of_ok {first : Requester σ ε α} {taken after : List σ} {value : α}
    (h : first taken = (.ok value, after)) (next : α → Requester σ ε β) :
    (first >>= next) taken = next value after := by
  change (match first taken with
    | (.error exception, taken) => (Except.error exception, taken)
    | (.ok value, taken) => next value taken) = _
  rw [h]

theorem bind_of_error {first : Requester σ ε α} {taken after : List σ} {exception : ε}
    (h : first taken = (.error exception, after)) (next : α → Requester σ ε β) :
    (first >>= next) taken = (.error exception, after) := by
  change (match first taken with
    | (.error exception, taken) => (Except.error exception, taken)
    | (.ok value, taken) => next value taken) = _
  rw [h]

theorem bind_assoc (first : Requester σ ε α) (next : α → Requester σ ε β)
    (last : β → Requester σ ε γ) :
    (first >>= next) >>= last = first >>= fun value ↦ next value >>= last := by
  funext taken
  rcases hfirst : first taken with ⟨exception | value, after⟩
  · rw [bind_of_error (bind_of_error hfirst next), bind_of_error hfirst]
  · rw [bind_of_ok hfirst]
    rcases hnext : next value after with ⟨exception | second, later⟩
    · rw [bind_of_error ((bind_of_ok hfirst next).trans hnext), bind_of_error hnext]
    · rw [bind_of_ok ((bind_of_ok hfirst next).trans hnext), bind_of_ok hnext]

theorem ask_of_ok {taken : List σ} {step : σ} (h : reply taken step = .ok ()) :
    ask reply step taken = (.ok (), taken ++ [step]) := by
  rw [ask, h]

theorem ask_of_error {taken : List σ} {step : σ} {exception : ε}
    (h : reply taken step = .error exception) :
    ask reply step taken = (.error exception, taken) := by
  rw [ask, h]

theorem perform_append (first second : List (Except ε σ)) :
    perform reply (first ++ second) = perform reply first >>= fun _ ↦ perform reply second := by
  induction first with
  | nil => rfl
  | cons request first ih =>
    rw [List.cons_append, perform, perform, ih, bind_assoc]
    simp only [bind_assoc]

theorem perform_ok_singleton (step : σ) : perform reply [.ok step] = ask reply step := by
  funext taken
  cases hreply : reply taken step with
  | error exception =>
    have hask := ask_of_error reply hreply
    exact (bind_of_error hask fun _ ↦ pure ()).trans hask.symm
  | ok value =>
    have hask := ask_of_ok reply hreply
    exact (bind_of_ok hask fun _ ↦ pure ()).trans hask.symm

/-! ### How far requests get -/

/-- From the steps before, a prefix of the requests is taken, and each of its steps was accepted.
The result is an exception exactly when there is a next request, and that is the one that raises
it. -/
structure Performed (before : List σ) (requests : List (Except ε σ)) (result : Except ε Unit)
    (taken : List σ) : Prop where
  isPrefix : taken.map .ok <+: requests
  accepted : ∀ first step rest, taken = first ++ step :: rest →
    reply (before ++ first) step = .ok ()
  returned_iff : result = .ok () ↔ taken.map .ok = requests
  refused : ∀ exception, result = .error exception → ∃ request rest,
    requests = taken.map .ok ++ request :: rest ∧
      (request >>= reply (before ++ taken)) = .error exception

variable {reply}

theorem performed_nil (before : List σ) : Performed reply before [] (.ok ()) [] where
  isPrefix := List.prefix_refl _
  accepted := by
    intro first step rest h
    exact absurd h (by simp)
  returned_iff := iff_of_true rfl rfl
  refused := by
    intro exception h
    cases h

theorem performed_refused {before : List σ} {request : Except ε σ} {exception : ε}
    (h : (request >>= reply before) = .error exception) (rest : List (Except ε σ)) :
    Performed reply before (request :: rest) (.error exception) [] where
  isPrefix := List.nil_prefix
  accepted := by
    intro first step rest h
    exact absurd h (by simp)
  returned_iff := by
    constructor
    · intro h
      cases h
    · intro h
      cases h
  refused := by
    intro other hother
    obtain rfl := Except.error.inj hother
    exact ⟨request, rest, rfl, by rwa [List.append_nil]⟩

theorem performed_taken {before : List σ} {step : σ} {rest : List (Except ε σ)}
    {result : Except ε Unit} {taken : List σ} (hstep : reply before step = .ok ())
    (hrest : Performed reply (before ++ [step]) rest result taken) :
    Performed reply before (.ok step :: rest) result (step :: taken) where
  isPrefix := by
    rw [List.map_cons]
    exact List.cons_prefix_cons.mpr ⟨rfl, hrest.isPrefix⟩
  accepted := by
    intro first other others h
    cases first with
    | nil =>
      obtain ⟨rfl, rfl⟩ := List.cons.inj h
      rwa [List.append_nil]
    | cons head first =>
      obtain ⟨rfl, htaken⟩ := List.cons.inj h
      rw [List.append_cons]
      exact hrest.accepted first other others htaken
  returned_iff := by
    rw [hrest.returned_iff, List.map_cons, List.cons.injEq]
    exact (and_iff_right rfl).symm
  refused := by
    intro exception h
    obtain ⟨request, others, hrequests, hrefused⟩ := hrest.refused exception h
    refine ⟨request, others, ?_, ?_⟩
    · rw [hrequests]
      rfl
    · rwa [List.append_cons]

variable (reply)

theorem perform_cons_of_error {request : Except ε σ} {before : List σ} {exception : ε}
    (h : (request >>= reply before) = .error exception) (requests : List (Except ε σ)) :
    perform reply (request :: requests) before = (.error exception, before) := by
  cases request with
  | error other =>
    obtain rfl := Except.error.inj h
    rfl
  | ok step =>
    have hreply : reply before step = .error exception := h
    exact bind_of_error (ask_of_error reply hreply) fun _ ↦ perform reply requests

theorem perform_cons_of_ok {step : σ} {before : List σ} (h : reply before step = .ok ())
    (requests : List (Except ε σ)) :
    perform reply (.ok step :: requests) before =
      perform reply requests (before ++ [step]) :=
  bind_of_ok (ask_of_ok reply h) fun _ ↦ perform reply requests

/-- Some prefix of the requests is taken, and the result says whether it is all of them. -/
theorem performed_perform (requests : List (Except ε σ)) (before : List σ) :
    ∃ result taken, perform reply requests before = (result, before ++ taken) ∧
      Performed reply before requests result taken := by
  induction requests generalizing before with
  | nil => exact ⟨.ok (), [], by rw [List.append_nil]; rfl, performed_nil before⟩
  | cons request requests ih =>
    cases hrequest : request >>= reply before with
    | error exception =>
      refine ⟨.error exception, [], ?_, performed_refused hrequest requests⟩
      rw [perform_cons_of_error reply hrequest, List.append_nil]
    | ok value =>
      cases request with
      | error exception => cases hrequest
      | ok step =>
        obtain ⟨result, taken, hrun, hperformed⟩ := ih (before ++ [step])
        refine ⟨result, step :: taken, ?_, performed_taken hrequest hperformed⟩
        rw [perform_cons_of_ok reply hrequest, hrun, List.append_assoc, List.singleton_append]

/-! ### Runs -/

/-- Runs the programs of the calls one after the other. An exception is the caller's affair, so the
run goes on after it. -/
def runCalls (program : κ → Requester σ ε Unit) :
    List κ → (taken : List σ) → List (Except ε Unit) × List σ
  | [], taken => ([], taken)
  | call :: calls, taken =>
    let (result, taken) := program call taken
    let (results, taken) := runCalls program calls taken
    (result :: results, taken)

/-- Every call of a run performs its requests, each after what the calls before it have taken. -/
inductive RunPerformed (requests : κ → List (Except ε σ)) :
    (before : List σ) → List κ → List (Except ε Unit) → (taken : List (List σ)) → Prop
  | nil (before : List σ) : RunPerformed requests before [] [] []
  | cons {before : List σ} {call : κ} {calls : List κ} {result : Except ε Unit}
      {results : List (Except ε Unit)} {taken : List σ} {others : List (List σ)}
      (hcall : Performed reply before (requests call) result taken)
      (hcalls : RunPerformed requests (before ++ taken) calls results others) :
      RunPerformed requests before (call :: calls) (result :: results) (taken :: others)

variable {reply} {requests : κ → List (Except ε σ)} {program : κ → Requester σ ε Unit}

/-- A run appends what its calls have taken, and nothing else. -/
theorem runPerformed_runCalls (hprogram : ∀ call, program call = perform reply (requests call))
    (calls : List κ) (before : List σ) :
    ∃ results taken, runCalls program calls before = (results, before ++ taken.flatten) ∧
      RunPerformed reply requests before calls results taken := by
  induction calls generalizing before with
  | nil => exact ⟨[], [], by rw [List.flatten_nil, List.append_nil]; rfl, .nil before⟩
  | cons call calls ih =>
    obtain ⟨result, taken, hrun, hperformed⟩ := performed_perform reply (requests call) before
    obtain ⟨results, others, hruns, hothers⟩ := ih (before ++ taken)
    refine ⟨result :: results, taken :: others, ?_, .cons hperformed hothers⟩
    rw [← hprogram call] at hrun
    rw [runCalls, hrun, List.flatten_cons, ← List.append_assoc]
    change (result :: (runCalls program calls (before ++ taken)).1, _) = _
    rw [hruns]

/-- A run in which every call returns takes all requests of all calls. -/
theorem RunPerformed.flatten_of_returned {before : List σ} {calls : List κ}
    {results : List (Except ε Unit)} {taken : List (List σ)}
    (h : RunPerformed reply requests before calls results taken)
    (hreturned : ∀ result ∈ results, result = .ok ()) :
    taken.flatten.map .ok = calls.flatMap requests := by
  induction h with
  | nil before => rfl
  | cons hcall hcalls ih =>
    obtain ⟨hfirst, hrest⟩ := List.forall_mem_cons.mp hreturned
    rw [List.flatten_cons, List.map_append, hcall.returned_iff.mp hfirst, ih hrest,
      List.flatMap_cons]

end PythonSystemd.Library.RequestLog
