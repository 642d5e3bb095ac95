import PythonSystemd.Fsprg.KeyStream
import PythonSystemd.Fsprg.Seek
import PythonSystemd.Library.Simulation

/-!
# Runs over a state buffer

A sealer evolves its state and takes keys from it; a verifier that has the master key seeks to any
epoch, backwards as well as forwards, and must get the same keys. Both are runs of the functions of
`fsprg.c` over one buffer, and the position of such a run is the number of steps from the first
state: `FSPRG_GenState0` goes to zero, `FSPRG_Seek` to an epoch and `FSPRG_Evolve` one further.

`seekableRun` says that the position is all that a run leaves in the buffer, and that every key and
epoch is read off the state at that position.
-/

set_option autoImplicit false
set_option relaxedAutoImplicit false

namespace PythonSystemd.Fsprg

open Library.CheckedMemory Library.Simulation

/-! ### Calls on one buffer -/

/-- A call of `fsprg.c` on a state buffer. -/
inductive StateCall
  | genState0
  | seek (epoch : UInt64)
  | evolve
  | getEpoch
  | getKey (key : List UInt8) (idx : UInt32)

/-- What a call gives back next to the buffer. -/
inductive StateAnswer
  | done
  | epoch (value : UInt64)
  | key (bytes : List UInt8)
  deriving DecidableEq

namespace StateCall

variable (gcrypt : Gcrypt) (msk mpk seed : List UInt8)

def run : Machine StateCall (List UInt8) StateAnswer Fault
  | .genState0, state => do
    let state ← fsprgGenState0 gcrypt state mpk seed
    return (.done, state)
  | .seek epoch, state => do
    let state ← fsprgSeek gcrypt state epoch msk seed
    return (.done, state)
  | .evolve, state => do
    let state ← fsprgEvolve state
    return (.done, state)
  | .getEpoch, state => do
    let epoch ← fsprgGetEpoch state
    return (.epoch epoch, state)
  | .getKey key idx, state => do
    let key ← fsprgGetKey gcrypt state key idx
    return (.key key, state)

/-- The calls that do not read the buffer. -/
def Places : StateCall → Prop
  | .genState0 => True
  | .seek _ => True
  | _ => False

/-- `twopowmodphi` shifts up to the width of the epoch, so the upper half is out of its reach. -/
def Allowed : StateCall → Prop
  | .seek epoch => epoch.toNat < 2 ^ 63
  | _ => True

end StateCall

/-! ### Positions in a chain of states -/

/-- The states that one after the other `FSPRG_Evolve` writes, with what is read of each. -/
def chainModel (gcrypt : Gcrypt) (chain : ℕ → List UInt8) : Model StateCall ℕ StateAnswer where
  move
    | .genState0, _ => 0
    | .seek epoch, _ => epoch.toNat
    | .evolve, position => position + 1
    | .getEpoch, position => position
    | .getKey _ _, position => position
  answer
    | .getEpoch, position => .epoch (UInt64.ofNat position)
    | .getKey key idx, position =>
      .key (detRandomize gcrypt key.length ((chain position).drop 2) idx)
    | _, _ => .done

namespace ForwardState

variable {secpar : ℕ} (point : ForwardState secpar)

/-- The state buffer a number of steps on. -/
def chain (position : ℕ) : List UInt8 :=
  (point.after position).encode

theorem length_chain (position : ℕ) :
    (point.chain position).length = 2 + secpar / 8 + secpar / 8 + 8 :=
  point.valid.length_state (wellFormed_encode _).length_eq

theorem chain_zero : point.chain 0 = point.encode := by
  rw [chain, after_zero]

theorem fsprgEvolve_chain (position : ℕ) :
    fsprgEvolve (point.chain position) = .ok (point.chain (position + 1)) := by
  rw [chain, fsprgEvolve_encode, chain, after_succ]

theorem fsprgGetEpoch_chain (position : ℕ) :
    fsprgGetEpoch (point.chain position) = .ok (point.epoch + UInt64.ofNat position) :=
  (wellFormed_encode (point.after position)).epoch_eq

theorem fsprgGetKey_chain (gcrypt : Gcrypt) (position : ℕ) (key : List UInt8) (idx : UInt32) :
    fsprgGetKey gcrypt (point.chain position) key idx =
      .ok (detRandomize gcrypt key.length ((point.chain position).drop 2) idx) := by
  obtain ⟨x, hholds⟩ := (wellFormed_encode (point.after position)).exists_stateHolds point.valid
  exact hholds.fsprgGetKey_eq gcrypt key idx

end ForwardState

section Runs

variable {secpar : ℕ} (primes : MasterPrimes secpar) (h : IsValidSecpar secpar) (gcrypt : Gcrypt)
  (seed : List UInt8)

/-- Where the state at a position is in the buffer, a call answers and moves as the chain does. -/
theorem simulates_chain (hne : primes.p ≠ primes.q) :
    Simulates
      (StateCall.run gcrypt (mskBytes secpar primes.p primes.q) (mpkBytes secpar primes.n) seed)
      (chainModel gcrypt ((primes.state0 h gcrypt seed).chain)) StateCall.Allowed
      fun position state ↦ state = (primes.state0 h gcrypt seed).chain position := by
  rintro call position _ hallowed rfl
  have hlength := (primes.state0 h gcrypt seed).length_chain position
  refine ⟨_, ?_, rfl⟩
  cases call with
  | genState0 =>
    rw [StateCall.run, fsprgGenState0_eq_state0 primes h gcrypt hlength,
      ← ForwardState.chain_zero]
    rfl
  | seek epoch =>
    rw [StateCall.run, fsprgSeek_eq_after primes h hne hallowed hlength]
    rfl
  | evolve =>
    rw [StateCall.run, ForwardState.fsprgEvolve_chain]
    rfl
  | getEpoch =>
    have hepoch : (primes.state0 h gcrypt seed).epoch + UInt64.ofNat position =
        UInt64.ofNat position := UInt64.zero_add _
    rw [StateCall.run, ForwardState.fsprgGetEpoch_chain, hepoch]
    rfl
  | getKey key idx =>
    rw [StateCall.run, ForwardState.fsprgGetKey_chain]
    rfl

/-- A call that does not read the buffer does on any buffer what it does on a state. -/
theorem run_of_places (hne : primes.p ≠ primes.q) {call : StateCall} (hplaces : call.Places)
    (hallowed : call.Allowed) {state : List UInt8}
    (hstate : state.length = 2 + secpar / 8 + secpar / 8 + 8) (position : ℕ) :
    StateCall.run gcrypt (mskBytes secpar primes.p primes.q) (mpkBytes secpar primes.n) seed call
        state =
      StateCall.run gcrypt (mskBytes secpar primes.p primes.q) (mpkBytes secpar primes.n) seed call
        ((primes.state0 h gcrypt seed).chain position) := by
  have hlength := (primes.state0 h gcrypt seed).length_chain position
  cases call with
  | genState0 =>
    rw [StateCall.run, StateCall.run, fsprgGenState0_eq_state0 primes h gcrypt hlength,
      fsprgGenState0_eq_state0 primes h gcrypt hstate]
  | seek epoch =>
    rw [StateCall.run, StateCall.run, fsprgSeek_eq_after primes h hne hallowed hlength,
      fsprgSeek_eq_after primes h hne hallowed hstate]
  | evolve => exact hplaces.elim
  | getEpoch => exact hplaces.elim
  | getKey key idx => exact hplaces.elim

end Runs

section Keys

variable {secpar : ℕ} {gcrypt : Gcrypt} {msk mpk : List UInt8} {seed : Option (List UInt8)}
  {mskOut mpkOut : List UInt8}

/-- A run of calls with two distinct primes that starts with `FSPRG_GenState0` or `FSPRG_Seek` never
stops at a fault. What it leaves in the buffer, and every key and epoch on the way, is what a first
state gives that was evolved as often as the position says, wherever the run has been before. -/
theorem seekableRun (h : IsValidSecpar secpar)
    (hmsk : fsprgMskinbytes secpar = .ok msk.length)
    (hmpk : fsprgMpkinbytes secpar = .ok mpk.length)
    (hgen : fsprgGenMK gcrypt (some msk) (some mpk) seed secpar = .ok (some mskOut, some mpkOut))
    {p q : ℕ}
    (hp : genprime3mod4 gcrypt (secpar / 2) (effectiveSeed gcrypt seed) rndGenP = .ok p)
    (hq : genprime3mod4 gcrypt (secpar / 2) (effectiveSeed gcrypt seed) rndGenQ = .ok q)
    (hne : p ≠ q) (stateSeed : List UInt8) :
    ∃ chain : ℕ → List UInt8,
      (∀ state, fsprgStateinbytes secpar = .ok state.length → ∀ position,
        (do
          let state ← fsprgGenState0 gcrypt state mpkOut stateSeed
          evolveTimes position state) = .ok (chain position)) ∧
      ∀ state, fsprgStateinbytes secpar = .ok state.length → ∀ first calls,
        StateCall.Places first → (∀ call ∈ first :: calls, StateCall.Allowed call) →
        runCalls (StateCall.run gcrypt mskOut mpkOut stateSeed) (first :: calls) state =
          .ok ((chainModel gcrypt chain).answers (first :: calls) 0,
            chain ((chainModel gcrypt chain).final (first :: calls) 0)) := by
  obtain ⟨primes, hgenP, hgenQ, rfl, rfl⟩ := exists_masterPrimes h hmsk hmpk hgen
  obtain rfl := Except.ok.inj (hp.symm.trans hgenP)
  obtain rfl := Except.ok.inj (hq.symm.trans hgenQ)
  refine ⟨(primes.state0 h gcrypt stateSeed).chain, fun state hstate position ↦ ?_,
    fun state hstate first calls hplaces hallowed ↦ ?_⟩
  · rw [fsprgGenState0_eq_state0 primes h gcrypt (h.length_state hstate), ok_bind,
      ForwardState.evolveTimes_encode]
    rfl
  · have hfirst := hallowed first List.mem_cons_self
    have hsame := run_of_places primes h gcrypt stateSeed hne hplaces hfirst
      (h.length_state hstate) 0
    obtain ⟨last, hrun, rfl⟩ := (simulates_chain primes h gcrypt stateSeed hne).runCalls hallowed
      (Eq.refl ((primes.state0 h gcrypt stateSeed).chain 0))
    rw [runCalls, hsame]
    exact hrun

/-- The runs of a small key. -/
theorem seekableRun_sample :
    ∃ chain : ℕ → List UInt8,
      (∀ state, fsprgStateinbytes 16 = .ok state.length → ∀ position,
        (do
          let state ← fsprgGenState0 sampleGcrypt state (mpkBytes 16 (199 * 211)) (sampleSeed 1)
          evolveTimes position state) = .ok (chain position)) ∧
      ∀ state, fsprgStateinbytes 16 = .ok state.length → ∀ first calls,
        StateCall.Places first → (∀ call ∈ first :: calls, StateCall.Allowed call) →
        runCalls (StateCall.run sampleGcrypt (mskBytes 16 199 211) (mpkBytes 16 (199 * 211))
            (sampleSeed 1)) (first :: calls) state =
          .ok ((chainModel sampleGcrypt chain).answers (first :: calls) 0,
            chain ((chainModel sampleGcrypt chain).final (first :: calls) 0)) :=
  seekableRun (by decide) (by decide) (by decide) fsprgGenMK_sample genprime3mod4_sample_p
    genprime3mod4_sample_q (by decide) (sampleSeed 1)

end Keys

end PythonSystemd.Fsprg
