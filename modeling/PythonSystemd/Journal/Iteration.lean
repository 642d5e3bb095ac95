import Mathlib.Data.List.Forall2
import Mathlib.Data.List.TakeWhile
import PythonSystemd.Journal.Entries

/-!
# Iterating a reader

`Reader.get_next` and the iterator protocol of `journal.py`. A journal is the list of the entries
after the read position, each with the results of the library that belong to it; after the last
entry `sd_journal_next` returns zero.

`get_next` returns an empty dictionary both at the end of the journal and for an entry whose
enumeration delivers nothing, and `__next__` takes either for the end. `iterate_eq` says how far an
iteration comes, and `deliversEvery_iff` when it comes to the end.
-/

set_option autoImplicit false
set_option relaxedAutoImplicit false

namespace PythonSystemd.Journal

open Library Library.CheckedMemory Library.HandleTrace Library.HandleProgram Program Python

/-! ### The functions of `journal.py` -/

/-- What the library returns when the current entry is read. -/
structure EntryReplies where
  outcomes : List (ℤ × List UInt8)
  realtime : ℤ × UInt64
  monotonic : ℤ × UInt64 × List UInt8
  cursor : ℤ × List UInt8

/-- An entry as a dictionary after its conversion. -/
abbrev ConvertedEntry (ν : Type) := OrderedDict Text (FieldData (Converted ν))

variable {ν : Type}

/-- The three items that `get_next` adds to an entry. -/
def addTimes (entry : Entry) (realtime : UInt64) (monotonic : UInt64 × List UInt8)
    (cursor : Text) : OrderedDict Text (FieldData RawValue) :=
  let raw := entry.mapValues fun
    | .one value => FieldData.one (RawValue.bytes value)
    | .many values => FieldData.many (values.map RawValue.bytes)
  ((raw.setItem (.ofString "__REALTIME_TIMESTAMP") (.one (.realtime realtime))).setItem
    (.ofString "__MONOTONIC_TIMESTAMP") (.one (.monotonic monotonic.1 monotonic.2))).setItem
    (.ofString "__CURSOR") (.one (.cursor cursor))

/-- `Reader.get_next`. -/
def getNext (converters : Converters ν) (skip : Int64) (move : MoveCall → ℤ)
    (replies : EntryReplies) : Program PyException (ConvertedEntry ν) := do
  let found ← readerNext (.tuple (.ok (some skip))) move
  if found then do
    let entry ← readerGetAll .null replies.outcomes
    if entry.isEmpty then return OrderedDict.empty
    else do
      let realtime ← readerGetRealtime .null replies.realtime.1 replies.realtime.2
      let monotonic ← readerGetMonotonic .null replies.monotonic.1 replies.monotonic.2.1
        replies.monotonic.2.2
      let cursor ← readerGetCursor .null replies.cursor.1 replies.cursor.2
      ofExcept (convertEntry converters (addTimes entry realtime monotonic cursor))
  else return OrderedDict.empty

/-- `Reader.__next__`; no value stands for `StopIteration`. -/
def iteratorNext (converters : Converters ν) (move : MoveCall → ℤ) (replies : EntryReplies) :
    Program PyException (Option (ConvertedEntry ν)) := do
  let ans ← getNext converters 1 move replies
  return if ans.isEmpty then none else some ans

/-- An entry after the read position: the result of `sd_journal_next` for it, which is zero only
after the last entry, and the results of reading it. -/
structure JournalEntry where
  next : ℤ
  next_ne_zero : next ≠ 0
  replies : EntryReplies

/-- What is read behind the last entry. -/
def noReplies : EntryReplies where
  outcomes := []
  realtime := (0, 0)
  monotonic := (0, 0, [])
  cursor := (0, [])

/-- Calls `__next__` until it raises `StopIteration`. Another exception is a result like an item. -/
def iterate (converters : Converters ν) : List JournalEntry → (slot : Slot) →
    Checked (List (Except PyException (ConvertedEntry ν)) × Slot)
  | [], slot =>
    match iteratorNext converters (fun _ ↦ 0) noReplies slot with
    | .error fault => .error fault
    | .ok (.ok none, slot) => .ok ([], slot)
    | .ok (.ok (some item), slot) => .ok ([.ok item], slot)
    | .ok (.error exception, slot) => .ok ([.error exception], slot)
  | entry :: entries, slot =>
    match iteratorNext converters (fun _ ↦ entry.next) entry.replies slot with
    | .error fault => .error fault
    | .ok (.ok none, slot) => .ok ([], slot)
    | .ok (.ok (some item), slot) => do
      let (results, slot) ← iterate converters entries slot
      return (.ok item :: results, slot)
    | .ok (.error exception, slot) => do
      let (results, slot) ← iterate converters entries slot
      return (.error exception :: results, slot)

/-! ### The result of one step -/

theorem returns_readerNext {skip : Int64} {call : MoveCall} (hcall : moveCall skip = some call)
    (move : MoveCall → ℤ) :
    (readerNext (.tuple (.ok (some skip))) move).Returns
      (checked (move call) none >>= fun _ ↦ .ok (decide (move call ≠ 0))) := by
  have hne : skip ≠ 0 := by
    rintro rfl
    have hzero : moveCall 0 = none := by decide
    rw [hzero] at hcall
    cases hcall
  have hrun : readerNext (.tuple (.ok (some skip))) move =
      (callLibrary (move call) none >>= fun _ ↦ pure (decide (move call ≠ 0))) := by
    unfold readerNext parseTuple
    rw [ofExcept_ok_bind, Option.getD_some, if_neg hne, hcall]
  rw [hrun]
  exact (returns_callLibrary (move call) none).bind fun _ ↦ returns_pure _

/-- The result of reading the current entry. -/
def entryResult (converters : Converters ν) (replies : EntryReplies) :
    Except PyException (ConvertedEntry ν) := do
  let entry ← enumerated collectField replies.outcomes OrderedDict.empty
  if entry.isEmpty then .ok OrderedDict.empty
  else do
    let realtime ← checked replies.realtime.1 none >>= fun _ ↦ .ok replies.realtime.2
    let monotonic ← checked replies.monotonic.1 none >>= fun _ ↦ .ok replies.monotonic.2
    let cursor ← checked replies.cursor.1 none >>= fun _ ↦ unicodeFromString replies.cursor.2
    convertEntry converters (addTimes entry realtime monotonic cursor)

/-- The result of `get_next` where `sd_journal_next` returns `next`. -/
def nextResult (converters : Converters ν) (next : ℤ) (replies : EntryReplies) :
    Except PyException (ConvertedEntry ν) := do
  let found ← checked next none >>= fun _ ↦ .ok (decide (next ≠ 0))
  if found then entryResult converters replies else .ok OrderedDict.empty

theorem returns_getNext_of_moveCall (converters : Converters ν) {skip : Int64} {call : MoveCall}
    (hcall : moveCall skip = some call) (move : MoveCall → ℤ) (replies : EntryReplies) :
    (getNext converters skip move replies).Returns
      (nextResult converters (move call) replies) := by
  unfold getNext nextResult
  refine (returns_readerNext hcall move).bind fun found ↦ ?_
  split_ifs
  · unfold entryResult
    refine (returns_readerGetAll replies.outcomes).bind fun entry ↦ ?_
    split_ifs
    · exact returns_pure OrderedDict.empty
    · have hrealtime : (readerGetRealtime .null replies.realtime.1 replies.realtime.2).Returns _ :=
        (returns_callLibrary replies.realtime.1 none).bind fun _ ↦ returns_pure replies.realtime.2
      have hmonotonic : (readerGetMonotonic .null replies.monotonic.1 replies.monotonic.2.1
          replies.monotonic.2.2).Returns _ :=
        (returns_callLibrary replies.monotonic.1 none).bind
          fun _ ↦ returns_pure replies.monotonic.2
      have hcursor : (readerGetCursor .null replies.cursor.1 replies.cursor.2).Returns _ :=
        (returns_callLibrary replies.cursor.1 none).bind
          fun _ ↦ returns_ofExcept (unicodeFromString replies.cursor.2)
      refine hrealtime.bind fun realtime ↦ ?_
      refine hmonotonic.bind fun monotonic ↦ ?_
      exact hcursor.bind fun cursor ↦ returns_ofExcept _
  · exact returns_pure OrderedDict.empty

theorem returns_getNext (converters : Converters ν) (next : ℤ) (replies : EntryReplies) :
    (getNext converters 1 (fun _ ↦ next) replies).Returns
      (nextResult converters next replies) :=
  returns_getNext_of_moveCall converters (show moveCall 1 = some .next by decide) (fun _ ↦ next)
    replies

/-- The result of `__next__`; no value where the dictionary is empty. -/
theorem returns_iteratorNext (converters : Converters ν) (next : ℤ) (replies : EntryReplies) :
    (iteratorNext converters (fun _ ↦ next) replies).Returns
      (nextResult converters next replies >>= fun ans ↦
        .ok (if ans.isEmpty then none else some ans)) :=
  (returns_getNext converters next replies).bind fun _ ↦ returns_pure _

/-! ### Empty results -/

variable {converters : Converters ν}

/-- A dictionary that `get_next` has converted is not empty. -/
theorem isEmpty_convertEntry_addTimes {entry : Entry} {realtime : UInt64}
    {monotonic : UInt64 × List UInt8} {cursor : Text} {item : ConvertedEntry ν}
    (h : convertEntry converters (addTimes entry realtime monotonic cursor) = .ok item) :
    item.isEmpty = false := by
  refine OrderedDict.isEmpty_eq_false_iff.mpr ⟨.ofString "__CURSOR", ?_⟩
  rw [mem_keys_convertEntry h]
  exact OrderedDict.mem_keys_setItem.mpr (.inl rfl)

/-- Behind the last entry the dictionary is empty. -/
theorem nextResult_zero (replies : EntryReplies) :
    nextResult converters 0 replies = .ok OrderedDict.empty := by
  unfold nextResult
  rw [checked_of_nonneg le_rfl]
  rfl

theorem nextResult_of_pos {next : ℤ} (hpos : 0 < next) (replies : EntryReplies) :
    nextResult converters next replies = entryResult converters replies := by
  have hfound : decide (next ≠ 0) = true := decide_eq_true hpos.ne'
  unfold nextResult
  rw [checked_of_nonneg hpos.le, hfound]
  rfl

instance : DecidablePred Delivers
  | [] => inferInstanceAs (Decidable False)
  | (r, _) :: _ => inferInstanceAs (Decidable (0 < r))

/-- When the library moves to the entry, the enumeration of the entry delivers an item. -/
def JournalEntry.Readable (entry : JournalEntry) : Prop :=
  0 < entry.next → Delivers entry.replies.outcomes

instance : DecidablePred JournalEntry.Readable := fun entry ↦
  inferInstanceAs (Decidable (0 < entry.next → Delivers entry.replies.outcomes))

/-- For an entry that is not readable `get_next` returns what it returns at the end. -/
theorem nextResult_of_not_readable {entry : JournalEntry} (h : ¬ entry.Readable) :
    nextResult converters entry.next entry.replies = .ok OrderedDict.empty := by
  obtain ⟨hpos, hdelivers⟩ := Classical.not_imp.mp h
  rw [nextResult_of_pos hpos]
  unfold entryResult
  rw [enumerated_of_not_delivers hdelivers]
  rfl

/-- What `get_next` returns for a readable entry is not empty. -/
theorem isEmpty_nextResult_of_readable {entry : JournalEntry} (hreadable : entry.Readable)
    {item : ConvertedEntry ν} (h : nextResult converters entry.next entry.replies = .ok item) :
    item.isEmpty = false := by
  have hpos : 0 < entry.next := by
    by_contra hnot
    have hneg : entry.next < 0 := lt_of_le_of_ne (not_lt.mp hnot) entry.next_ne_zero
    obtain ⟨exception, hexception⟩ := checked_of_neg hneg none
    unfold nextResult at h
    rw [hexception] at h
    cases h
  rw [nextResult_of_pos hpos] at h
  unfold entryResult at h
  obtain ⟨dict, hdict, h⟩ := returned_bind.mp h
  rw [isEmpty_enumerated_of_delivers hdict (hreadable hpos), if_neg Bool.false_ne_true] at h
  obtain ⟨realtime, -, h⟩ := returned_bind.mp h
  obtain ⟨monotonic, -, h⟩ := returned_bind.mp h
  obtain ⟨cursor, -, h⟩ := returned_bind.mp h
  exact isEmpty_convertEntry_addTimes h

/-! ### The whole iteration -/

/-- The iteration has a result for every entry up to the first that is not readable. -/
theorem iterate_eq (converters : Converters ν) (entries : List JournalEntry) (slot : Slot) :
    ∃ after, iterate converters entries slot =
      .ok ((entries.takeWhile fun entry ↦ decide entry.Readable).map
        (fun entry ↦ nextResult converters entry.next entry.replies), after) := by
  induction entries generalizing slot with
  | nil =>
    obtain ⟨after, hnext⟩ := returns_iteratorNext converters 0 noReplies slot
    rw [nextResult_zero] at hnext
    refine ⟨after, ?_⟩
    rw [iterate, hnext]
    rfl
  | cons entry entries ih =>
    obtain ⟨middle, hnext⟩ := returns_iteratorNext converters entry.next entry.replies slot
    by_cases hreadable : entry.Readable
    · obtain ⟨after, hrest⟩ := ih middle
      refine ⟨after, ?_⟩
      rw [List.takeWhile_cons, decide_eq_true hreadable, if_pos rfl, List.map_cons]
      cases hresult : nextResult converters entry.next entry.replies with
      | error exception =>
        rw [hresult] at hnext
        have hstep : iteratorNext converters (fun _ ↦ entry.next) entry.replies slot =
            .ok (.error exception, middle) := hnext
        rw [iterate, hstep]
        change (iterate converters entries middle >>= fun rest ↦
          .ok (.error exception :: rest.1, rest.2)) = _
        rw [hrest]
        rfl
      | ok item =>
        rw [hresult] at hnext
        have hfull := isEmpty_nextResult_of_readable hreadable hresult
        have hstep : iteratorNext converters (fun _ ↦ entry.next) entry.replies slot =
            .ok (.ok (if item.isEmpty then none else some item), middle) := hnext
        rw [hfull, if_neg Bool.false_ne_true] at hstep
        rw [iterate, hstep]
        change (iterate converters entries middle >>= fun rest ↦
          .ok (.ok item :: rest.1, rest.2)) = _
        rw [hrest]
        rfl
    · refine ⟨middle, ?_⟩
      rw [List.takeWhile_cons, decide_eq_false hreadable, if_neg Bool.false_ne_true]
      rw [nextResult_of_not_readable hreadable] at hnext
      rw [iterate, hnext]
      rfl

/-- The result of an iteration for an entry: what `get_next` returns or raises there. -/
def IsResultFor (converters : Converters ν) (entry : JournalEntry)
    (result : Except PyException (ConvertedEntry ν)) : Prop :=
  (getNext converters 1 (fun _ ↦ entry.next) entry.replies).Returns result

/-- The iteration has exactly one result for every entry, in order. -/
def DeliversEvery (converters : Converters ν) (entries : List JournalEntry) : Prop :=
  ∀ slot, ∃ results after, iterate converters entries slot = .ok (results, after) ∧
    List.Forall₂ (IsResultFor converters) entries results

/-- An iteration delivers every entry exactly when every entry that the library moves to has an
item to deliver. -/
theorem deliversEvery_iff (converters : Converters ν) (entries : List JournalEntry) :
    DeliversEvery converters entries ↔ ∀ entry ∈ entries, entry.Readable := by
  constructor
  · intro hevery
    obtain ⟨results, after, hrun, hforall⟩ := hevery Slot.empty
    obtain ⟨middle, hiterate⟩ := iterate_eq converters entries Slot.empty
    obtain ⟨rfl, -⟩ := Prod.mk.inj (Except.ok.inj (hrun.symm.trans hiterate))
    have hlength := hforall.length_eq
    rw [List.length_map] at hlength
    have htake : (entries.takeWhile fun entry ↦ decide entry.Readable) = entries :=
      (List.takeWhile_sublist _).eq_of_length hlength.symm
    exact fun entry hentry ↦ of_decide_eq_true (List.takeWhile_eq_self_iff.mp htake entry hentry)
  · intro hreadable slot
    obtain ⟨after, hiterate⟩ := iterate_eq converters entries slot
    have htake : (entries.takeWhile fun entry ↦ decide entry.Readable) = entries :=
      List.takeWhile_eq_self_iff.mpr fun entry hentry ↦ decide_eq_true (hreadable entry hentry)
    rw [htake] at hiterate
    refine ⟨_, after, hiterate, ?_⟩
    rw [List.forall₂_map_right_iff]
    exact List.forall₂_same.mpr fun entry _ ↦ returns_getNext converters entry.next entry.replies

/-- An entry with one item. -/
def readableEntry : JournalEntry where
  next := 1
  next_ne_zero := by decide
  replies :=
    { outcomes := [(1, [77, 61, 120])]
      realtime := (0, 1)
      monotonic := (0, 1, List.replicate 16 0)
      cursor := (0, [115]) }

/-- An entry whose first item the library cannot read (`-EBADMSG`). -/
def damagedEntry : JournalEntry where
  next := 1
  next_ne_zero := by decide
  replies := { readableEntry.replies with outcomes := [(-74, [])] }

/-- The iteration ends at a damaged entry and does not come to the entry after it. -/
theorem not_deliversEvery_sample :
    ¬ DeliversEvery (OrderedDict.empty : Converters Unit) [damagedEntry, readableEntry] := by
  intro hevery
  obtain ⟨results, after, hrun, hforall⟩ := hevery Slot.empty
  obtain ⟨middle, hiterate⟩ := iterate_eq (OrderedDict.empty : Converters Unit)
    [damagedEntry, readableEntry] Slot.empty
  obtain ⟨rfl, -⟩ := Prod.mk.inj (Except.ok.inj (hrun.symm.trans hiterate))
  exact absurd hforall.length_eq (by decide)

end PythonSystemd.Journal
