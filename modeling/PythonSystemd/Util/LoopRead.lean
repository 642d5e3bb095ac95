import PythonSystemd.Library.CheckedMemory
import PythonSystemd.Python.Pyutil

/-!
# Reading in a loop

`loop_read` of `util.c` calls `read` until the buffer is full. The calls may bring less than is
asked for, may be interrupted, and may find nothing to read yet. `loopReads_conserve` says of any
number of calls of `loop_read` on one descriptor that what they store is what was to be read, in its
order, with no byte lost between two calls or stored twice, whatever the kernel replies.

Left out: the descriptor and the events that `fd_wait_for_event` is called with, as its result is
ignored.
-/

set_option autoImplicit false
set_option relaxedAutoImplicit false

namespace PythonSystemd.Util

open Library.CheckedMemory Python

def EINTR : ℤ := 4

def EAGAIN : ℤ := 11

/-! ### The kernel -/

/-- What `read` meets: a number of bytes that are there, none at the end of the file, or an
error. -/
inductive ReadReply
  | ready (count : ℕ)
  | error (errno : ℤ)

/-- The bytes that nobody has read yet, and what the next calls of `read` meet. -/
structure OpenFile where
  pending : List UInt8
  replies : List ReadReply

/-! ### The function -/

/-- The local variables of `loop_read`. The pointer `p` is an offset into the buffer. -/
structure LoopState where
  buffer : List UInt8
  p : ℕ
  nbytes : ℕ
  n : ℕ

/-- Where a call of `loop_read` is when the kernel has no more replies. There is no value while it
waits for one. -/
structure ReadOutcome where
  value : Option ℤ
  buffer : List UInt8
  file : OpenFile

/-- The loop calls `read` again after this error. -/
def Retried (doPoll : Bool) (errno : ℤ) : Prop :=
  errno = EINTR ∨ errno = EAGAIN ∧ doPoll = true

instance (doPoll : Bool) (errno : ℤ) : Decidable (Retried doPoll errno) :=
  inferInstanceAs (Decidable (_ ∨ _))

/-- The loop of `loop_read`. -/
def loopReadFrom (doPoll : Bool) :
    (replies : List ReadReply) → (pending : List UInt8) → LoopState → Checked ReadOutcome
  | [], pending, state =>
    return {
      value := if state.nbytes = 0 then some state.n else none
      buffer := state.buffer
      file := { pending, replies := [] } }
  | reply :: replies, pending, state =>
    if state.nbytes = 0 then
      return {
        value := some state.n
        buffer := state.buffer
        file := { pending, replies := reply :: replies } }
    else
      match reply with
      | .error errno =>
        if Retried doPoll errno then loopReadFrom doPoll replies pending state
        else
          return {
            value := some (if 0 < state.n then (state.n : ℤ) else -errno)
            buffer := state.buffer
            file := { pending, replies } }
      | .ready count =>
        let data := pending.take (min count state.nbytes)
        if data.length = 0 then
          return {
            value := some (if 0 < state.n then (state.n : ℤ) else 0)
            buffer := state.buffer
            file := { pending, replies } }
        else do
          let buffer ← writeAt state.buffer state.p data
          loopReadFrom doPoll replies (pending.drop data.length)
            { buffer
              p := state.p + data.length
              nbytes := state.nbytes - data.length
              n := state.n + data.length }

/-- The arguments of a call. The buffer has room for what is asked for. -/
structure ReadCall where
  buffer : List UInt8
  nbytes : ℕ
  doPoll : Bool
  fits : nbytes ≤ buffer.length

def loopRead (fd : Int32) (call : ReadCall) (file : OpenFile) : Checked ReadOutcome := do
  assert (0 ≤ fd)
  loopReadFrom call.doPoll file.replies file.pending
    { buffer := call.buffer, p := 0, nbytes := call.nbytes, n := 0 }

/-- Calls in a row on one descriptor, up to the first that waits. -/
def loopReads (fd : Int32) : List ReadCall → OpenFile →
    Checked (List (ReadCall × ReadOutcome) × OpenFile)
  | [], file => return ([], file)
  | call :: calls, file => do
    let outcome ← loopRead fd call file
    if outcome.value = none then return ([(call, outcome)], outcome.file)
    else do
      let (results, last) ← loopReads fd calls outcome.file
      return ((call, outcome) :: results, last)

/-! ### One call -/

/-- The reply does not end the loop. -/
def GoesOn (doPoll : Bool) : ReadReply → Prop
  | .ready count => 0 < count
  | .error errno => Retried doPoll errno

/-- The reply ends the loop, which returns the code when it has read nothing before. -/
def EndsWith (doPoll : Bool) (pending : List UInt8) : ReadReply → ℤ → Prop
  | .ready count, code => (count = 0 ∨ pending = []) ∧ code = 0
  | .error errno, code => ¬ Retried doPoll errno ∧ code = -errno

/-- How a call that has stored `length` bytes stands: it waits for a reply, has filled the buffer,
or was ended by a reply. -/
inductive Stands (doPoll : Bool) (nbytes length : ℕ) (outcome : ReadOutcome) :
    (consumed : List ReadReply) → Prop
  | waiting {consumed : List ReadReply} (hgo : ∀ reply ∈ consumed, GoesOn doPoll reply)
      (hshort : length < nbytes) (hvalue : outcome.value = none)
      (hnone : outcome.file.replies = []) :
      Stands doPoll nbytes length outcome consumed
  | full {consumed : List ReadReply} (hgo : ∀ reply ∈ consumed, GoesOn doPoll reply)
      (hfull : length = nbytes) (hvalue : outcome.value = some (length : ℤ)) :
      Stands doPoll nbytes length outcome consumed
  | ended {consumed : List ReadReply} {reply : ReadReply} {code : ℤ}
      (hgo : ∀ reply ∈ consumed, GoesOn doPoll reply) (hshort : length < nbytes)
      (hends : EndsWith doPoll outcome.file.pending reply code)
      (hvalue : outcome.value = some (if 0 < length then (length : ℤ) else code)) :
      Stands doPoll nbytes length outcome (consumed ++ [reply])

/-- A call has stored these bytes at the start of its buffer, with these replies. -/
structure Delivers (call : ReadCall) (outcome : ReadOutcome) (stored : List UInt8)
    (consumed : List ReadReply) : Prop where
  buffer : outcome.buffer = stored ++ call.buffer.drop stored.length
  length_le : stored.length ≤ call.nbytes
  stands : Stands call.doPoll call.nbytes stored.length outcome consumed

/-- The bytes are those that were to be read next, and the replies those that came next. -/
structure Takes (file after : OpenFile) (stored : List UInt8) (consumed : List ReadReply) :
    Prop where
  pending : file.pending = stored ++ after.pending
  replies : file.replies = consumed ++ after.replies

/-- The loop has stored these bytes with these replies, and goes on. -/
structure Reading (call : ReadCall) (file : OpenFile) (stored : List UInt8)
    (consumed replies : List ReadReply) (pending : List UInt8) (state : LoopState) : Prop where
  takes : Takes file ⟨pending, replies⟩ stored consumed
  goesOn : ∀ reply ∈ consumed, GoesOn call.doPoll reply
  buffer : state.buffer = stored ++ call.buffer.drop stored.length
  p : state.p = stored.length
  n : state.n = stored.length
  room : stored.length + state.nbytes = call.nbytes

section Call

variable {call : ReadCall} {file : OpenFile} {stored : List UInt8}
  {consumed replies : List ReadReply} {pending : List UInt8} {state : LoopState}
  {reply : ReadReply}

theorem Reading.consume
    (h : Reading call file stored consumed (reply :: replies) pending state)
    (hgo : GoesOn call.doPoll reply) :
    Reading call file stored (consumed ++ [reply]) replies pending state :=
  { h with
    takes := ⟨h.takes.pending, by rw [h.takes.replies, List.append_assoc]; rfl⟩
    goesOn := List.forall_mem_append.mpr ⟨h.goesOn, List.forall_mem_singleton.mpr hgo⟩ }

/-- The bytes of one `read` are stored behind those before. -/
theorem Reading.store (h : Reading call file stored consumed replies pending state)
    {data rest : List UInt8} (hpending : data ++ rest = pending)
    (hdata : data.length ≤ state.nbytes) :
    ∃ after, writeAt state.buffer state.p data = .ok after ∧
      Reading call file (stored ++ data) consumed replies rest
        { buffer := after
          p := state.p + data.length
          nbytes := state.nbytes - data.length
          n := state.n + data.length } := by
  have hroom := h.room
  have hfits := call.fits
  have hlength : (call.buffer.drop stored.length).length = call.buffer.length - stored.length :=
    List.length_drop
  have hcut : call.buffer.drop stored.length =
      (call.buffer.drop stored.length).take data.length ++
        call.buffer.drop (stored ++ data).length := by
    rw [List.length_append, ← List.drop_drop, List.take_append_drop]
  have hfield : ((call.buffer.drop stored.length).take data.length).length = data.length := by
    rw [List.length_take, hlength]
    omega
  refine ⟨stored ++ data ++ call.buffer.drop (stored ++ data).length, ?_,
    { h with takes := ⟨?_, h.takes.replies⟩, buffer := rfl, p := ?_, n := ?_, room := ?_ }⟩
  · rw [h.buffer, hcut, ← List.append_assoc]
    exact writeAt_append _ _ _ _ h.p.symm hfield
  · rw [h.takes.pending, ← hpending, List.append_assoc]
  · rw [List.length_append, h.p]
  · rw [List.length_append, h.n]
  · rw [List.length_append]
    dsimp only
    omega

/-- Where the loop returns or waits, the call delivers what it has read. -/
theorem Reading.delivers (h : Reading call file stored consumed replies pending state)
    (ended : List ReadReply) {rest : List ReadReply} {value : Option ℤ}
    (hreplies : replies = ended ++ rest)
    (hstands : Stands call.doPoll call.nbytes stored.length
      ⟨value, state.buffer, ⟨pending, rest⟩⟩ (consumed ++ ended)) :
    Takes file ⟨pending, rest⟩ stored (consumed ++ ended) ∧
      Delivers call ⟨value, state.buffer, ⟨pending, rest⟩⟩ stored (consumed ++ ended) := by
  have hroom := h.room
  refine ⟨⟨h.takes.pending, ?_⟩, h.buffer, by omega, hstands⟩
  rw [h.takes.replies, hreplies, List.append_assoc]

/-- The loop stores what is to be read next. The induction is on the replies that are left. -/
theorem loopReadFrom_delivers (h : Reading call file stored consumed replies pending state) :
    ∃ outcome after all, loopReadFrom call.doPoll replies pending state = .ok outcome ∧
      Takes file outcome.file after all ∧ Delivers call outcome after all := by
  induction replies generalizing stored consumed pending state with
  | nil =>
    have hroom := h.room
    by_cases hfull : state.nbytes = 0
    · refine ⟨_, stored, _, rfl, h.delivers [] rfl ?_⟩
      rw [if_pos hfull, h.n, List.append_nil]
      exact .full h.goesOn (by omega) rfl
    · refine ⟨_, stored, _, rfl, h.delivers [] rfl ?_⟩
      rw [if_neg hfull, List.append_nil]
      exact .waiting h.goesOn (by omega) rfl rfl
  | cons reply replies ih =>
    have hroom := h.room
    unfold loopReadFrom
    by_cases hfull : state.nbytes = 0
    · rw [if_pos hfull]
      refine ⟨_, stored, _, rfl, h.delivers [] rfl ?_⟩
      rw [h.n, List.append_nil]
      exact .full h.goesOn (by omega) rfl
    rw [if_neg hfull]
    cases reply with
    | error errno =>
      dsimp only
      by_cases hretried : Retried call.doPoll errno
      · rw [if_pos hretried]
        exact ih (h.consume hretried)
      · rw [if_neg hretried]
        refine ⟨_, stored, _, rfl, h.delivers [.error errno] rfl ?_⟩
        rw [h.n]
        exact .ended h.goesOn (by omega) ⟨hretried, rfl⟩ rfl
    | ready count =>
      dsimp only
      set data := pending.take (min count state.nbytes)
      have hlength : data.length = min (min count state.nbytes) pending.length :=
        List.length_take
      have hcut : data ++ pending.drop data.length = pending :=
        List.prefix_iff_eq_append.mp (List.take_prefix _ _)
      by_cases hnone : data.length = 0
      · rw [if_pos hnone]
        refine ⟨_, stored, _, rfl, h.delivers [.ready count] rfl ?_⟩
        rw [h.n]
        refine .ended h.goesOn (by omega) ⟨?_, rfl⟩ rfl
        rw [← List.length_eq_zero_iff]
        dsimp only
        omega
      · obtain ⟨after, hwrite, hreading⟩ := h.store hcut (by omega)
        have hcount : 0 < count := by omega
        rw [if_neg hnone, hwrite]
        exact ih (hreading.consume hcount)

theorem loopRead_delivers {fd : Int32} (hfd : 0 ≤ fd) (call : ReadCall) (file : OpenFile) :
    ∃ outcome stored consumed, loopRead fd call file = .ok outcome ∧
      Takes file outcome.file stored consumed ∧ Delivers call outcome stored consumed := by
  have hstart : Reading call file [] [] file.replies file.pending
      { buffer := call.buffer, p := 0, nbytes := call.nbytes, n := 0 } :=
    { takes := ⟨rfl, rfl⟩
      goesOn := List.forall_mem_nil _
      buffer := rfl
      p := rfl
      n := rfl
      room := Nat.zero_add _ }
  rw [loopRead, assert_of hfd]
  exact loopReadFrom_delivers hstart

end Call

/-! ### Calls in a row -/

theorem Takes.refl (file : OpenFile) : Takes file file [] [] :=
  ⟨rfl, rfl⟩

theorem Takes.trans {first second third : OpenFile} {stored more : List UInt8}
    {consumed others : List ReadReply} (hfirst : Takes first second stored consumed)
    (hsecond : Takes second third more others) :
    Takes first third (stored ++ more) (consumed ++ others) where
  pending := by rw [hfirst.pending, hsecond.pending, List.append_assoc]
  replies := by rw [hfirst.replies, hsecond.replies, List.append_assoc]

/-- The calls of a run have all returned, or the last of them waits and the calls behind it have not
been made. -/
def Made (calls : List ReadCall) (results : List (ReadCall × ReadOutcome)) : Prop :=
  results.map Prod.fst = calls ∧ (∀ result ∈ results, result.2.value ≠ none) ∨
    ∃ returned call outcome, results = returned ++ [(call, outcome)] ∧ outcome.value = none ∧
      (∀ result ∈ returned, result.2.value ≠ none) ∧ results.map Prod.fst <+: calls

theorem Made.cons {calls : List ReadCall} {results : List (ReadCall × ReadOutcome)}
    (h : Made calls results) {call : ReadCall} {outcome : ReadOutcome}
    (hreturned : outcome.value ≠ none) : Made (call :: calls) ((call, outcome) :: results) := by
  rcases h with ⟨hcalls, hvalues⟩ | ⟨returned, waiting, last, rfl, hlast, hvalues, hprefix⟩
  · exact .inl ⟨congrArg (call :: ·) hcalls, List.forall_mem_cons.mpr ⟨hreturned, hvalues⟩⟩
  · exact .inr ⟨(call, outcome) :: returned, waiting, last, rfl, hlast,
      List.forall_mem_cons.mpr ⟨hreturned, hvalues⟩, List.cons_prefix_cons.mpr ⟨rfl, hprefix⟩⟩

/-- Calls in a row store what was to be read, in its order: the bytes and the replies are those that
the calls have taken, one call after the other, and those that are left. -/
theorem loopReads_conserve {fd : Int32} (hfd : 0 ≤ fd) (calls : List ReadCall) (file : OpenFile) :
    ∃ results last parts, loopReads fd calls file = .ok (results, last) ∧ Made calls results ∧
      Takes file last (parts.flatMap Prod.fst) (parts.flatMap Prod.snd) ∧
      List.Forall₂ (fun result part ↦ Delivers result.1 result.2 part.1 part.2) results parts := by
  induction calls generalizing file with
  | nil => exact ⟨[], file, [], rfl, .inl ⟨rfl, List.forall_mem_nil _⟩, Takes.refl file, .nil⟩
  | cons call calls ih =>
    obtain ⟨outcome, stored, consumed, hrun, htakes, hdelivers⟩ := loopRead_delivers hfd call file
    rw [loopReads, hrun]
    by_cases hwaits : outcome.value = none
    · refine ⟨[(call, outcome)], outcome.file, [(stored, consumed)], if_pos hwaits, ?_, ?_,
        .cons hdelivers .nil⟩
      · exact .inr ⟨[], call, outcome, rfl, hwaits, List.forall_mem_nil _,
          List.cons_prefix_cons.mpr ⟨rfl, List.nil_prefix⟩⟩
      · exact htakes.trans (Takes.refl outcome.file)
    · obtain ⟨results, last, parts, hrest, hmade, hall, hparts⟩ := ih outcome.file
      refine ⟨(call, outcome) :: results, last, (stored, consumed) :: parts, ?_,
        hmade.cons hwaits, htakes.trans hall, .cons hdelivers hparts⟩
      rw [ok_bind, if_neg hwaits, hrest]
      rfl

/-- A message of three bytes, read in two calls. The first is interrupted and has to wait between
its two reads, and the second meets the end of the file. -/
def sampleCalls : List ReadCall :=
  [⟨[0, 0], 2, true, by decide⟩, ⟨[0, 0], 2, true, by decide⟩]

def sampleFile : OpenFile where
  pending := [7, 8, 9]
  replies := [.ready 1, .error EINTR, .error EAGAIN, .ready 5, .ready 5, .ready 5]

theorem loopReads_conserve_sample :
    ∃ results last parts, loopReads 3 sampleCalls sampleFile = .ok (results, last) ∧
      Made sampleCalls results ∧
      Takes sampleFile last (parts.flatMap Prod.fst) (parts.flatMap Prod.snd) ∧
      List.Forall₂ (fun result part ↦ Delivers result.1 result.2 part.1 part.2) results parts :=
  loopReads_conserve (by decide) sampleCalls sampleFile

example : (loopReads 3 sampleCalls sampleFile).map (fun run ↦
    run.1.map fun result ↦ (result.2.value, result.2.buffer)) =
      .ok [(some 2, [7, 8]), (some 1, [9, 0])] := by
  decide

end PythonSystemd.Util
