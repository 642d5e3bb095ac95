import Mathlib.Data.List.DropRight
import Mathlib.Data.List.Nodup
import Mathlib.Tactic.Common

/-!
# Filters built from matches

A filter over named values is built in steps: a match is added, a disjunction or a conjunction
closes what was added before, a flush drops everything. Matches with one key are alternatives and
matches with different keys hold together. Between the disjunctions stand groups of matches, one of
which has to hold, and between the conjunctions stand parts, all of which have to hold.

`Rules` says this of a reading of the steps that is not known otherwise, by what each step does to
the steps before it. `Accepts` is a reading that cuts the list of the steps: `rules_accepts`.
-/

set_option autoImplicit false
set_option relaxedAutoImplicit false

namespace PythonSystemd.Library.MatchFormula

inductive Step (τ : Type)
  | add (added : τ)
  | disjunction
  | conjunction
  | flush
  deriving DecidableEq

namespace Step

variable {τ : Type}

def added? : Step τ → Option τ
  | add added => some added
  | _ => none

def isDisjunction : Step τ → Bool
  | disjunction => true
  | _ => false

def isConjunction : Step τ → Bool
  | conjunction => true
  | _ => false

def isFlush : Step τ → Bool
  | flush => true
  | _ => false

end Step

open Step

variable {τ κ : Type}

/-- Some step adds a match. -/
def Adds (steps : List (Step τ)) : Prop :=
  ∃ item, add item ∈ steps

theorem adds_map_add {added : List τ} (h : added ≠ []) : Adds (added.map add) := by
  obtain ⟨item, hitem⟩ := List.exists_mem_of_ne_nil added h
  exact ⟨item, List.mem_map_of_mem hitem⟩

theorem Adds.append_left {before : List (Step τ)} (h : Adds before) (after : List (Step τ)) :
    Adds (before ++ after) := by
  obtain ⟨item, hitem⟩ := h
  exact ⟨item, List.mem_append_left after hitem⟩

/-! ### The meaning of a filter -/

section Meaning

variable (key : τ → κ) (holds : τ → Prop)

/-- For every key of the group some match with that key holds. -/
def GroupHolds (group : List τ) : Prop :=
  ∀ item ∈ group, ∃ other ∈ group, key other = key item ∧ holds other

variable {key holds}

/-- With distinct keys all matches have to hold. -/
theorem groupHolds_iff_of_nodup {group : List τ} (hnodup : (group.map key).Nodup) :
    GroupHolds key holds group ↔ ∀ item ∈ group, holds item := by
  constructor
  · intro h item hitem
    obtain ⟨other, hother, hkey, hholds⟩ := h item hitem
    obtain rfl := List.inj_on_of_nodup_map hnodup hother hitem hkey
    exact hholds
  · exact fun h item hitem ↦ ⟨item, hitem, rfl, h item hitem⟩

/-- With one key one match has to hold. -/
theorem groupHolds_iff_of_same_key {group : List τ} (hne : group ≠ [])
    (hsame : ∀ first ∈ group, ∀ second ∈ group, key first = key second) :
    GroupHolds key holds group ↔ ∃ item ∈ group, holds item := by
  constructor
  · intro h
    obtain ⟨item, hitem⟩ := List.exists_mem_of_ne_nil group hne
    obtain ⟨other, hother, -, hholds⟩ := h item hitem
    exact ⟨other, hother, hholds⟩
  · rintro ⟨other, hother, hholds⟩ item hitem
    exact ⟨other, hother, hsame other hother item hitem, hholds⟩

/-- What each step does to a reading `accepts` of the steps before it. -/
structure Rules (key : τ → κ) (holds : τ → Prop) (accepts : List (Step τ) → Prop) : Prop where
  /-- What came before a flush does not matter. -/
  append_flush : ∀ {before after}, flush ∉ after →
    (accepts (before ++ flush :: after) ↔ accepts after)
  /-- Steps behind a conjunction narrow the filter. -/
  append_conjunction : ∀ {before after}, flush ∉ after →
    (accepts (before ++ conjunction :: after) ↔ accepts before ∧ accepts after)
  /-- Steps behind a disjunction widen the filter, where there is a match on both sides. -/
  append_disjunction : ∀ {before after}, flush ∉ before ∧ flush ∉ after →
    conjunction ∉ before ∧ conjunction ∉ after → Adds before ∧ Adds after →
    (accepts (before ++ disjunction :: after) ↔ accepts before ∨ accepts after)
  /-- Matches that are added to an empty filter are one group. -/
  map_add : ∀ added, accepts (added.map add) ↔ GroupHolds key holds added

/-- An empty filter has nothing to hold. -/
theorem Rules.nil {accepts : List (Step τ) → Prop} (rules : Rules key holds accepts) :
    accepts [] :=
  (rules.map_add []).mpr fun _ hitem ↦ absurd hitem List.not_mem_nil

end Meaning

/-! ### A reading that cuts the list of the steps -/

/-- The steps behind the last flush. -/
def sinceFlush (steps : List (Step τ)) : List (Step τ) :=
  steps.rtakeWhile fun step ↦ !step.isFlush

/-- The groups between the disjunctions that have a match. -/
def groups (steps : List (Step τ)) : List (List τ) :=
  ((steps.splitOnP isDisjunction).map (List.filterMap added?)).filter fun group ↦ !group.isEmpty

/-- The parts between the conjunctions that have a group. -/
def parts (steps : List (Step τ)) : List (List (List τ)) :=
  ((steps.splitOnP isConjunction).map groups).filter fun part ↦ !part.isEmpty

theorem sinceFlush_append {before after : List (Step τ)} (h : flush ∉ after) :
    sinceFlush (before ++ after) = sinceFlush before ++ after := by
  induction after using List.reverseRecOn with
  | nil => rw [List.append_nil, List.append_nil]
  | append_singleton after step ih =>
    rw [List.mem_append, not_or] at h
    have hstep : (!step.isFlush) = true := by
      cases step with
      | flush => exact absurd (List.mem_singleton_self _) h.2
      | add added => rfl
      | disjunction => rfl
      | conjunction => rfl
    rw [← List.append_assoc, ← List.append_assoc, ← ih h.1]
    exact List.rtakeWhile_concat_pos _ _ step hstep

theorem sinceFlush_eq_self {steps : List (Step τ)} (h : flush ∉ steps) :
    sinceFlush steps = steps := by
  have hempty : sinceFlush ([] : List (Step τ)) = [] := rfl
  rw [← List.nil_append steps, sinceFlush_append h, hempty]

theorem sinceFlush_append_flush {before after : List (Step τ)} (h : flush ∉ after) :
    sinceFlush (before ++ flush :: after) = after := by
  have hflush : sinceFlush (before ++ [flush]) = [] :=
    List.rtakeWhile_concat_neg _ _ flush Bool.false_ne_true
  rw [List.append_cons, sinceFlush_append h, hflush, List.nil_append]

theorem groups_append_disjunction (before after : List (Step τ)) :
    groups (before ++ disjunction :: after) = groups before ++ groups after := by
  unfold groups
  rw [List.splitOnP_append_cons before after rfl, List.map_append, List.filter_append]

theorem parts_append_conjunction (before after : List (Step τ)) :
    parts (before ++ conjunction :: after) = parts before ++ parts after := by
  unfold parts
  rw [List.splitOnP_append_cons before after rfl, List.map_append, List.filter_append]

theorem parts_of_no_conjunction {steps : List (Step τ)} (h : conjunction ∉ steps) :
    parts steps = if groups steps = [] then [] else [groups steps] := by
  have hall : ∀ step ∈ steps, isConjunction step = false := by
    intro step hstep
    cases step with
    | conjunction => exact absurd hstep h
    | add added => rfl
    | disjunction => rfl
    | flush => rfl
  unfold parts
  rw [List.splitOnP_eq_singleton hall, List.map_singleton]
  cases hgroups : groups steps with
  | nil => rfl
  | cons group rest => rfl

theorem groups_add {added : List τ} (h : added ≠ []) : groups (added.map add) = [added] := by
  have hall : ∀ step ∈ added.map add, isDisjunction step = false := by
    intro step hstep
    obtain ⟨item, -, rfl⟩ := List.mem_map.mp hstep
    rfl
  have hmap : (added.map add).filterMap added? = added := by
    rw [List.filterMap_map]
    exact List.filterMap_some
  unfold groups
  rw [List.splitOnP_eq_singleton hall, List.map_singleton, hmap]
  cases added with
  | nil => exact absurd rfl h
  | cons item items => rfl

theorem exists_mem_splitOnP {steps : List (Step τ)} {item : τ} (h : add item ∈ steps) :
    ∃ piece ∈ steps.splitOnP isDisjunction, add item ∈ piece := by
  induction steps with
  | nil => cases h
  | cons step steps ih =>
    rw [List.splitOnP_cons_eq_if_modifyHead]
    split_ifs with hstep
    · rcases List.mem_cons.mp h with rfl | hrest
      · cases hstep
      · obtain ⟨piece, hpiece, hitem⟩ := ih hrest
        exact ⟨piece, List.mem_cons_of_mem [] hpiece, hitem⟩
    · obtain ⟨first, rest, hsplit⟩ := List.exists_cons_of_ne_nil
        (List.splitOnP_ne_nil isDisjunction steps)
      rw [hsplit] at ih ⊢
      rw [List.modifyHead_cons]
      rcases List.mem_cons.mp h with rfl | hrest
      · exact ⟨_, List.mem_cons_self, List.mem_cons_self⟩
      · obtain ⟨piece, hpiece, hitem⟩ := ih hrest
        rcases List.mem_cons.mp hpiece with rfl | hpiece
        · exact ⟨_, List.mem_cons_self, List.mem_cons_of_mem step hitem⟩
        · exact ⟨piece, List.mem_cons_of_mem _ hpiece, hitem⟩

theorem groups_ne_nil {steps : List (Step τ)} (h : Adds steps) : groups steps ≠ [] := by
  obtain ⟨item, hitem⟩ := h
  obtain ⟨piece, hpiece, hmem⟩ := exists_mem_splitOnP hitem
  have hgroup : item ∈ piece.filterMap added? := List.mem_filterMap.mpr ⟨add item, hmem, rfl⟩
  refine List.ne_nil_of_mem (List.mem_filter.mpr ⟨List.mem_map_of_mem hpiece, ?_⟩)
  rw [List.isEmpty_eq_false_iff.mpr (List.ne_nil_of_mem hgroup)]
  rfl

section Cut

variable (key : τ → κ) (holds : τ → Prop)

/-- In every part some group holds. -/
def Accepts (steps : List (Step τ)) : Prop :=
  ∀ part ∈ parts (sinceFlush steps), ∃ group ∈ part, GroupHolds key holds group

variable {key holds}

theorem accepts_nil : Accepts key holds [] := by
  rintro part hpart
  cases hpart

theorem accepts_append_flush {before after : List (Step τ)} (h : flush ∉ after) :
    Accepts key holds (before ++ flush :: after) ↔ Accepts key holds after := by
  unfold Accepts
  rw [sinceFlush_append_flush h, sinceFlush_eq_self h]

theorem accepts_append_conjunction {before after : List (Step τ)} (h : flush ∉ after) :
    Accepts key holds (before ++ conjunction :: after) ↔
      Accepts key holds before ∧ Accepts key holds after := by
  have hcons : flush ∉ conjunction :: after := List.not_mem_cons_of_ne_of_not_mem (by simp) h
  unfold Accepts
  rw [sinceFlush_append hcons, parts_append_conjunction, sinceFlush_eq_self h]
  exact List.forall_mem_append

theorem accepts_of_no_conjunction {steps : List (Step τ)} (hflush : flush ∉ steps)
    (hconjunction : conjunction ∉ steps) (hgroups : groups steps ≠ []) :
    Accepts key holds steps ↔ ∃ group ∈ groups steps, GroupHolds key holds group := by
  unfold Accepts
  rw [sinceFlush_eq_self hflush, parts_of_no_conjunction hconjunction, if_neg hgroups]
  exact List.forall_mem_singleton

theorem accepts_add (added : List τ) :
    Accepts key holds (added.map add) ↔ GroupHolds key holds added := by
  cases added with
  | nil => exact iff_of_true accepts_nil fun item hitem ↦ absurd hitem List.not_mem_nil
  | cons item items =>
    have hgroups := groups_add (List.cons_ne_nil item items)
    have hne : groups ((item :: items).map add) ≠ [] := hgroups ▸ List.cons_ne_nil _ _
    rw [accepts_of_no_conjunction (by simp) (by simp) hne, hgroups]
    simp only [List.mem_singleton, exists_eq_left]

theorem accepts_append_disjunction {before after : List (Step τ)}
    (hflush : flush ∉ before ∧ flush ∉ after)
    (hconjunction : conjunction ∉ before ∧ conjunction ∉ after)
    (hgroups : groups before ≠ [] ∧ groups after ≠ []) :
    Accepts key holds (before ++ disjunction :: after) ↔
      Accepts key holds before ∨ Accepts key holds after := by
  have hgroupsAppend := groups_append_disjunction before after
  rw [accepts_of_no_conjunction hflush.1 hconjunction.1 hgroups.1,
    accepts_of_no_conjunction hflush.2 hconjunction.2 hgroups.2,
    accepts_of_no_conjunction (by simp [hflush]) (by simp [hconjunction])
      (by simp [hgroupsAppend, hgroups]), hgroupsAppend]
  simp only [List.mem_append, or_and_right, exists_or]

theorem rules_accepts : Rules key holds (Accepts key holds) where
  append_flush := accepts_append_flush
  append_conjunction := accepts_append_conjunction
  append_disjunction hflush hconjunction hadds :=
    accepts_append_disjunction hflush hconjunction
      ⟨groups_ne_nil hadds.1, groups_ne_nil hadds.2⟩
  map_add := accepts_add

end Cut

end PythonSystemd.Library.MatchFormula
