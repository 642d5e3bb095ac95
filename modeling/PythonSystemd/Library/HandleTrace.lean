import Mathlib.Data.List.Basic
import Mathlib.Order.Lattice
import Mathlib.Tactic.Tauto

/-!
# Handles in a slot

An object that owns at most one handle keeps it in a slot. It can open a new handle into the slot,
use the handle that is there, or release it and empty the slot; an empty slot is neither used nor
released. `Slot.events` records what was done to which handle.

A trace is `Disciplined` when every handle that was opened is released exactly once and not used
after that. `disciplined_iff` says when the trace of a run with a final release is: exactly when no
action opens a handle while the slot still holds one. `Slot.Sound` is what every run keeps,
`Slot.Owned` what a run keeps that never reopens, and `Slot.Lost` what becomes of a handle that was
overwritten.
-/

set_option autoImplicit false
set_option relaxedAutoImplicit false

namespace PythonSystemd.Library.HandleTrace

inductive Event
  | opened (handle : ℕ)
  | used (handle : ℕ)
  | released (handle : ℕ)
  deriving DecidableEq

inductive Action
  | openNew
  | use
  | release
  deriving DecidableEq

/-- The place for one handle, with the number of the next handle and the events so far. -/
structure Slot where
  handle : Option ℕ
  next : ℕ
  events : List Event

namespace Slot

def empty : Slot where
  handle := none
  next := 0
  events := []

def perform (slot : Slot) : Action → Slot
  | .openNew =>
    { handle := some slot.next
      next := slot.next + 1
      events := slot.events ++ [.opened slot.next] }
  | .use =>
    match slot.handle with
    | none => slot
    | some handle => { slot with events := slot.events ++ [.used handle] }
  | .release =>
    match slot.handle with
    | none => slot
    | some handle => { slot with handle := none, events := slot.events ++ [.released handle] }

def performAll (slot : Slot) (actions : List Action) : Slot :=
  actions.foldl perform slot

variable {slot : Slot}

theorem perform_use_none (h : slot.handle = none) : slot.perform .use = slot := by
  simp only [perform, h]

theorem perform_use_some {current : ℕ} (h : slot.handle = some current) :
    slot.perform .use = { slot with events := slot.events ++ [.used current] } := by
  simp only [perform, h]

theorem perform_release_none (h : slot.handle = none) : slot.perform .release = slot := by
  simp only [perform, h]

theorem perform_release_some {current : ℕ} (h : slot.handle = some current) :
    slot.perform .release =
      { slot with handle := none, events := slot.events ++ [.released current] } := by
  simp only [perform, h]

theorem perform_use_handle : (slot.perform .use).handle = slot.handle := by
  cases h : slot.handle with
  | none => rw [perform_use_none h, h]
  | some current => rw [perform_use_some h, ← h]

theorem perform_release_handle : (slot.perform .release).handle = none := by
  cases h : slot.handle with
  | none => rw [perform_release_none h, h]
  | some current => rw [perform_release_some h]

end Slot

/-- Two events in their order in a trace: a released handle is not used. -/
def Event.MayPrecede : Event → Event → Prop
  | .released first, .used second => first ≠ second
  | _, _ => True

/-- Every handle that was opened is released exactly once and never used after that. -/
def Disciplined (events : List Event) : Prop :=
  (∀ handle, .opened handle ∈ events → events.count (.released handle) = 1) ∧
    events.Pairwise Event.MayPrecede

/-- No action opens a handle while the slot holds one. -/
def NeverReopens : (held : Bool) → (actions : List Action) → Prop
  | _, [] => True
  | held, .openNew :: actions => held = false ∧ NeverReopens true actions
  | held, .use :: actions => NeverReopens held actions
  | _, .release :: actions => NeverReopens false actions

/-! ### What every run keeps -/

open Slot

/-- The handle in the slot was opened and not released, all handles come from the counter, and no
handle is used after its release. -/
structure Slot.Sound (slot : Slot) : Prop where
  opened_lt : ∀ handle, .opened handle ∈ slot.events → handle < slot.next
  released_lt : ∀ handle, .released handle ∈ slot.events → handle < slot.next
  current_opened : ∀ handle, slot.handle = some handle → .opened handle ∈ slot.events
  current_unreleased : ∀ handle, slot.handle = some handle → .released handle ∉ slot.events
  ordered : slot.events.Pairwise Event.MayPrecede

theorem Slot.Sound.empty : Slot.empty.Sound where
  opened_lt := by simp [Slot.empty]
  released_lt := by simp [Slot.empty]
  current_opened := by simp [Slot.empty]
  current_unreleased := by simp [Slot.empty]
  ordered := List.Pairwise.nil

variable {slot : Slot}

/-- An event that is not the last one stands before it. -/
theorem mem_of_mem_concat {events : List Event} {event last : Event}
    (hmem : event ∈ events ++ [last]) (hne : event ≠ last) : event ∈ events := by
  rcases List.mem_append.mp hmem with hevents | hlast
  · exact hevents
  · exact absurd (List.mem_singleton.mp hlast) hne

/-- A trace stays in order when the event at its end may follow all others. -/
theorem pairwise_concat {events : List Event} {last : Event}
    (hevents : events.Pairwise Event.MayPrecede) (hlast : ∀ event ∈ events, event.MayPrecede last) :
    (events ++ [last]).Pairwise Event.MayPrecede := by
  rw [List.pairwise_append]
  refine ⟨hevents, List.pairwise_singleton _ _, fun event hevent second hsecond ↦ ?_⟩
  rw [List.mem_singleton.mp hsecond]
  exact hlast event hevent

theorem Slot.Sound.perform (h : slot.Sound) (action : Action) : (slot.perform action).Sound := by
  cases action with
  | openNew =>
    refine ⟨?_, ?_, ?_, ?_, pairwise_concat h.ordered fun event _ ↦ by cases event <;> trivial⟩
    · intro handle hmem
      rcases List.mem_append.mp hmem with hmem | hmem
      · exact (h.opened_lt handle hmem).trans (Nat.lt_succ_self _)
      · obtain rfl := Event.opened.inj (List.mem_singleton.mp hmem)
        exact Nat.lt_succ_self _
    · intro handle hmem
      have hold := h.released_lt handle (mem_of_mem_concat hmem (by simp))
      exact hold.trans (Nat.lt_succ_self _)
    · intro handle hcurrent
      obtain rfl := Option.some.inj hcurrent
      exact List.mem_append_right _ List.mem_cons_self
    · intro handle hcurrent hmem
      obtain rfl := Option.some.inj hcurrent
      exact (h.released_lt _ (mem_of_mem_concat hmem (by simp))).false
  | use =>
    cases hhandle : slot.handle with
    | none => rwa [perform_use_none hhandle]
    | some current =>
      rw [perform_use_some hhandle]
      have hunreleased := h.current_unreleased current hhandle
      refine ⟨?_, ?_, ?_, ?_, pairwise_concat h.ordered ?_⟩
      · intro handle hmem
        exact h.opened_lt handle (mem_of_mem_concat hmem (by simp))
      · intro handle hmem
        exact h.released_lt handle (mem_of_mem_concat hmem (by simp))
      · intro handle hcurrent
        exact List.mem_append_left _ (h.current_opened handle hcurrent)
      · intro handle hcurrent hmem
        exact h.current_unreleased handle hcurrent (mem_of_mem_concat hmem (by simp))
      · intro event hevent
        cases event with
        | released first =>
          rintro rfl
          exact hunreleased hevent
        | opened first => trivial
        | used first => trivial
  | release =>
    cases hhandle : slot.handle with
    | none => rwa [perform_release_none hhandle]
    | some current =>
      rw [perform_release_some hhandle]
      refine ⟨?_, ?_, ?_, ?_, pairwise_concat h.ordered fun event _ ↦ by cases event <;> trivial⟩
      · intro handle hmem
        exact h.opened_lt handle (mem_of_mem_concat hmem (by simp))
      · intro handle hmem
        rcases List.mem_append.mp hmem with hmem | hmem
        · exact h.released_lt handle hmem
        · obtain rfl := Event.released.inj (List.mem_singleton.mp hmem)
          exact h.opened_lt handle (h.current_opened handle hhandle)
      · intro handle hcurrent
        cases hcurrent
      · intro handle hcurrent
        cases hcurrent

/-! ### Runs that never reopen -/

/-- Every handle that was opened is in the slot or was released once. -/
def Slot.Owned (slot : Slot) : Prop :=
  ∀ handle, .opened handle ∈ slot.events →
    slot.handle = some handle ∨ slot.events.count (.released handle) = 1

theorem count_concat_of_ne {events : List Event} {event last : Event} (h : last ≠ event) :
    (events ++ [last]).count event = events.count event := by
  rw [List.count_append, List.count_singleton, if_neg (by simpa using h), Nat.add_zero]

/-- An action other than a reopening keeps every handle in hand. -/
theorem Slot.Owned.perform (hsound : slot.Sound) (h : slot.Owned) {action : Action}
    (hreopen : action = .openNew → slot.handle = none) : (slot.perform action).Owned := by
  intro handle hmem
  cases action with
  | openNew =>
    rcases List.mem_append.mp hmem with hmem | hmem
    · rcases h handle hmem with hcurrent | hcount
      · rw [hreopen rfl] at hcurrent
        cases hcurrent
      · right
        rw [← hcount]
        exact count_concat_of_ne (by simp)
    · obtain rfl := Event.opened.inj (List.mem_singleton.mp hmem)
      exact .inl rfl
  | use =>
    cases hhandle : slot.handle with
    | none =>
      rw [perform_use_none hhandle] at hmem ⊢
      exact h handle hmem
    | some current =>
      rw [perform_use_some hhandle] at hmem ⊢
      rcases h handle (mem_of_mem_concat hmem (by simp)) with hcurrent | hcount
      · exact .inl hcurrent
      · right
        rw [← hcount]
        exact count_concat_of_ne (by simp)
  | release =>
    cases hhandle : slot.handle with
    | none =>
      rw [perform_release_none hhandle] at hmem ⊢
      exact h handle hmem
    | some current =>
      rw [perform_release_some hhandle] at hmem ⊢
      have hnone := List.count_eq_zero.mpr (hsound.current_unreleased current hhandle)
      right
      rcases h handle (mem_of_mem_concat hmem (by simp)) with hcurrent | hcount
      · obtain rfl := Option.some.inj (hhandle.symm.trans hcurrent)
        rw [List.count_append, hnone, List.count_singleton_self]
      · have hne : current ≠ handle := by
          rintro rfl
          omega
        rw [← hcount]
        exact count_concat_of_ne (by simpa using hne)

/-! ### Handles that were overwritten -/

/-- A handle that was opened, is no longer in the slot and was not released. -/
structure Slot.Lost (slot : Slot) (handle : ℕ) : Prop where
  opened : .opened handle ∈ slot.events
  unreleased : .released handle ∉ slot.events
  gone : slot.handle ≠ some handle
  lt_next : handle < slot.next

/-- A lost handle stays lost. -/
theorem Slot.Lost.perform {handle : ℕ} (h : slot.Lost handle) (action : Action) :
    (slot.perform action).Lost handle := by
  cases action with
  | openNew =>
    refine ⟨List.mem_append_left _ h.opened, ?_, ?_, h.lt_next.trans (Nat.lt_succ_self _)⟩
    · intro hmem
      exact h.unreleased (mem_of_mem_concat hmem (by simp))
    · intro hcurrent
      exact h.lt_next.ne' (Option.some.inj hcurrent)
  | use =>
    cases hhandle : slot.handle with
    | none => rwa [perform_use_none hhandle]
    | some current =>
      rw [perform_use_some hhandle]
      refine ⟨List.mem_append_left _ h.opened, ?_, h.gone, h.lt_next⟩
      intro hmem
      exact h.unreleased (mem_of_mem_concat hmem (by simp))
  | release =>
    cases hhandle : slot.handle with
    | none => rwa [perform_release_none hhandle]
    | some current =>
      rw [perform_release_some hhandle]
      refine ⟨List.mem_append_left _ h.opened, ?_, (Option.some_ne_none handle).symm, h.lt_next⟩
      intro hmem
      rcases List.mem_append.mp hmem with hmem | hmem
      · exact h.unreleased hmem
      · obtain rfl := Event.released.inj (List.mem_singleton.mp hmem)
        exact h.gone hhandle

theorem Slot.Lost.performAll {handle : ℕ} (h : slot.Lost handle) (actions : List Action) :
    (slot.performAll actions).Lost handle := by
  induction actions generalizing slot with
  | nil => exact h
  | cons action actions ih => exact ih (h.perform action)

theorem Slot.Lost.not_disciplined {handle : ℕ} (h : slot.Lost handle) :
    ¬ Disciplined slot.events := by
  intro hdisciplined
  have hcount := hdisciplined.1 handle h.opened
  have hnone := List.count_eq_zero.mpr h.unreleased
  omega

/-- Opening into a slot that holds a handle loses that handle. -/
theorem Slot.Sound.lost_of_reopen (h : slot.Sound) {current : ℕ}
    (hcurrent : slot.handle = some current) : (slot.perform .openNew).Lost current := by
  have hopened := h.current_opened current hcurrent
  have hlt := h.opened_lt current hopened
  refine ⟨List.mem_append_left _ hopened, ?_, fun heq ↦ hlt.ne' (Option.some.inj heq),
    hlt.trans (Nat.lt_succ_self _)⟩
  intro hmem
  exact h.current_unreleased current hcurrent (mem_of_mem_concat hmem (by simp))

/-! ### The discipline of a run -/

/-- After the final release the slot is empty, so every handle in hand was released. -/
theorem Slot.Owned.disciplined_release (hsound : slot.Sound) (h : slot.Owned) :
    Disciplined (slot.perform .release).events := by
  refine ⟨fun handle hmem ↦ ?_, (hsound.perform .release).ordered⟩
  have howned : (slot.perform .release).Owned := h.perform hsound fun heq ↦ by cases heq
  rcases howned handle hmem with hcurrent | hcount
  · rw [perform_release_handle] at hcurrent
    cases hcurrent
  · exact hcount

/-- From a slot that is in order, a run with a final release is disciplined exactly when it never
reopens. -/
theorem Slot.Owned.disciplined_iff (hsound : slot.Sound) (h : slot.Owned)
    (actions : List Action) :
    Disciplined ((slot.performAll actions).perform .release).events ↔
      NeverReopens slot.handle.isSome actions := by
  induction actions generalizing slot with
  | nil => exact iff_of_true (h.disciplined_release hsound) trivial
  | cons action actions ih =>
    have hnext := hsound.perform action
    cases action with
    | openNew =>
      cases hhandle : slot.handle with
      | none =>
        have howned : (slot.perform .openNew).Owned := h.perform hsound fun _ ↦ hhandle
        exact (ih hnext howned).trans ⟨fun hrest ↦ ⟨rfl, hrest⟩, fun hrest ↦ hrest.2⟩
      | some current =>
        -- The handle that was in the slot is lost, whatever follows.
        have hlost := ((hsound.lost_of_reopen hhandle).performAll actions).perform .release
        refine iff_of_false hlost.not_disciplined ?_
        rintro ⟨hheld, -⟩
        cases hheld
    | use =>
      have howned : (slot.perform .use).Owned := h.perform hsound fun heq ↦ by cases heq
      have hrest := ih hnext howned
      rwa [perform_use_handle] at hrest
    | release =>
      have howned : (slot.perform .release).Owned := h.perform hsound fun heq ↦ by cases heq
      have hrest := ih hnext howned
      rwa [perform_release_handle] at hrest

/-- A run on a fresh slot with a final release is disciplined exactly when it never reopens. -/
theorem disciplined_iff (actions : List Action) :
    Disciplined ((Slot.empty.performAll actions).perform .release).events ↔
      NeverReopens false actions :=
  Slot.Owned.disciplined_iff Slot.Sound.empty (fun _ hmem ↦ by cases hmem) actions

end PythonSystemd.Library.HandleTrace
