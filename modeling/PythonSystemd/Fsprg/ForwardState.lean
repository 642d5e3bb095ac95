import PythonSystemd.Fsprg.MasterKey
import PythonSystemd.Library.BlumSquares

/-!
# The generator as a chain of squares

A `ForwardState` is what a state buffer stands for: a modulus that fits the parameter, a square
below it and an epoch. `encode` is its buffer, `evolve` squares the residue and counts the epoch
up, and `after` does so any number of times. `fsprgEvolve_encode` and `evolveTimes_encode` say that
`FSPRG_Evolve` on buffers is `evolve` on what they stand for, so a run never stops at a fault.

`WellFormed` reads a buffer through the functions of `fsprg.c` alone. The two views agree:
`wellFormed_encode` and `WellFormed.exists_forwardState`.
-/

set_option autoImplicit false
set_option relaxedAutoImplicit false

namespace PythonSystemd.Fsprg

open Library.BigEndian Library.BlumSquares Library.CheckedMemory

/-- A point of the chain of squares modulo a number of at most `secpar` bits. -/
structure ForwardState (secpar : ℕ) where
  valid : IsValidSecpar secpar
  modulus : ℕ
  modulus_lt : modulus < 2 ^ secpar
  residue : Residue modulus
  epoch : UInt64

namespace ForwardState

variable {secpar : ℕ} (point : ForwardState secpar)

/-- The state buffer. -/
def encode : List UInt8 :=
  stateBytes secpar point.modulus point.residue.1 point.epoch

/-- The next point: the residue is squared and the epoch counted up. -/
def evolve : ForwardState secpar :=
  { point with residue := point.residue.square, epoch := point.epoch + 1 }

/-- The point `count` steps on. -/
def after (count : ℕ) : ForwardState secpar :=
  { point with
    residue := Residue.square^[count] point.residue
    epoch := point.epoch + UInt64.ofNat count }

@[simp] theorem epoch_after (count : ℕ) :
    (point.after count).epoch = point.epoch + UInt64.ofNat count :=
  rfl

theorem after_zero : point.after 0 = point := by
  have hepoch : point.epoch + UInt64.ofNat 0 = point.epoch := UInt64.add_zero _
  rw [after, hepoch]
  rfl

theorem after_succ (count : ℕ) : point.after (count + 1) = (point.after count).evolve := by
  have hepoch : point.epoch + UInt64.ofNat (count + 1) =
      point.epoch + UInt64.ofNat count + 1 := by
    rw [UInt64.ofNat_add, UInt64.add_assoc]
    rfl
  simp only [after, evolve, Function.iterate_succ_apply', hepoch]

theorem modulus_pos : 0 < point.modulus :=
  Nat.zero_lt_of_lt point.residue.2.1

theorem residue_lt : point.residue.1 < 2 ^ secpar :=
  point.residue.2.1.trans point.modulus_lt

/-- `FSPRG_Evolve` on a buffer is one step of the chain. -/
theorem fsprgEvolve_encode : fsprgEvolve point.encode = .ok point.evolve.encode :=
  fsprgEvolve_stateBytes point.valid point.modulus_lt point.modulus_pos point.residue_lt

/-- Any number of calls of `FSPRG_Evolve` is that number of steps of the chain. -/
theorem evolveTimes_encode (count : ℕ) :
    evolveTimes count point.encode = .ok (point.after count).encode := by
  induction count with
  | zero => rw [evolveTimes, after_zero]
  | succ count ih => rw [evolveTimes, ih, ok_bind, fsprgEvolve_encode, after_succ]

end ForwardState

/-! ### What a buffer decodes to -/

section Decoding

variable {secpar n : ℕ} {epoch : UInt64} {state : List UInt8}

/-- A state buffer that holds the parameter, the modulus `n`, a square below it and an epoch. The
modulus is fixed byte for byte. -/
structure WellFormed (secpar n : ℕ) (epoch : UInt64) (state : List UInt8) : Prop where
  length_eq : fsprgStateinbytes secpar = .ok state.length
  header : readAt state 0 2 = .ok (secparBytes (UInt16.ofNat secpar))
  secpar_eq : readSecpar state 0 = .ok (UInt16.ofNat secpar)
  modulus_bytes : readAt state 2 (secpar / 8) = .ok (toBytes (secpar / 8) n)
  modulus_eq : mpiImport state 2 (secpar / 8) = .ok n
  residue : ∃ x, mpiImport state (2 + secpar / 8) (secpar / 8) = .ok x ∧ x < n ∧
    IsSquare (x : ZMod n)
  epoch_eq : fsprgGetEpoch state = .ok epoch

/-- The buffer of a point of the chain is well formed. -/
theorem wellFormed_encode (point : ForwardState secpar) :
    WellFormed secpar point.modulus point.epoch point.encode where
  length_eq := by
    rw [fsprgStateinbytes_eq point.valid, ForwardState.encode, length_stateBytes]
  header := by
    have hread := readAt_append [] (secparBytes (UInt16.ofNat secpar))
      (toBytes (secpar / 8) point.modulus ++ toBytes (secpar / 8) point.residue.1 ++
        toBytes 8 point.epoch.toNat) List.length_nil (length_secparBytes _)
    simpa only [ForwardState.encode, stateBytes, List.nil_append, List.append_assoc] using hread
  secpar_eq := readSecpar_stateBytes point.valid _ _ _
  modulus_bytes := by
    have hread := readAt_append (secparBytes (UInt16.ofNat secpar))
      (toBytes (secpar / 8) point.modulus)
      (toBytes (secpar / 8) point.residue.1 ++ toBytes 8 point.epoch.toNat)
      (length_secparBytes _) (length_toBytes _ _)
    simpa only [ForwardState.encode, stateBytes, List.append_assoc] using hread
  modulus_eq := by
    have himport := mpiImport_stateBytes_n point.valid point.modulus_lt point.residue.1 point.epoch
    rwa [Nat.zero_mul, Nat.zero_div] at himport
  residue := by
    have himport := mpiImport_stateBytes_x point.valid point.modulus point.residue_lt point.epoch
    rw [Nat.one_mul] at himport
    exact ⟨point.residue.1, himport, point.residue.2⟩
  epoch_eq := fsprgGetEpoch_stateBytes point.valid _ _ _

/-- A well-formed buffer is the buffer of a point of the chain. -/
theorem WellFormed.exists_forwardState (h : IsValidSecpar secpar) (hn : n < 2 ^ secpar)
    (hwell : WellFormed secpar n epoch state) :
    ∃ point : ForwardState secpar, point.modulus = n ∧ point.epoch = epoch ∧
      point.encode = state := by
  have hlength := h.length_state hwell.length_eq
  obtain ⟨cut, rfl, hrest, hsecpar⟩ := exists_cutState_of_readSecpar h hlength hwell.secpar_eq
  have htoNat : cut.secpar.toNat = secpar := by rw [hsecpar, h.toNat_ofNat]
  have hheader : cut.header = secparBytes (UInt16.ofNat secpar) :=
    Except.ok.inj (cut.readAt_bytes_header.symm.trans hwell.header)
  have hfieldN : cut.fieldN = toBytes (secpar / 8) n :=
    Except.ok.inj (cut.readAt_bytes_n.symm.trans (htoNat ▸ hwell.modulus_bytes))
  have hfieldX : toBytes (secpar / 8) cut.x = cut.fieldX := htoNat ▸ cut.toBytes_x
  have hepoch : cut.epoch = epoch :=
    Except.ok.inj (cut.fsprgGetEpoch_bytes.symm.trans hwell.epoch_eq)
  obtain ⟨x, himportX, hx, hsquare⟩ := hwell.residue
  have himport := cut.mpiImport_bytes_x
  rw [htoNat, Nat.one_mul, himportX] at himport
  obtain rfl := Except.ok.inj himport
  refine ⟨⟨h, n, hn, ⟨cut.x, hx, hsquare⟩, cut.epoch⟩, rfl, hepoch, ?_⟩
  rw [ForwardState.encode, stateBytes, ← hheader, ← hfieldN, hfieldX, cut.toBytes_epoch,
    CutState.bytes, hrest, List.append_nil]

end Decoding

/-! ### The first state -/

section FirstState

variable {secpar : ℕ} (primes : MasterPrimes secpar)

/-- The point of the chain at epoch zero. -/
def MasterPrimes.state0 (h : IsValidSecpar secpar) (gcrypt : Gcrypt) (seed : List UInt8) :
    ForwardState secpar where
  valid := h
  modulus := primes.n
  modulus_lt := primes.n_lt
  residue := Residue.ofRoot primes.n_pos
    (squareRoot (detRandomize gcrypt (secpar / 8) seed rndGenX))
  epoch := 0

/-- The number that `gensquare` squares is below the modulus, which has its upper bit set. -/
theorem MasterPrimes.squareRoot_lt_n (h : IsValidSecpar secpar) (gcrypt : Gcrypt)
    (seed : List UInt8) (idx : UInt32) :
    squareRoot (detRandomize gcrypt (secpar / 8) seed idx) < primes.n :=
  (h.squareRoot_lt gcrypt seed idx).trans_le (primes.le_n h)

theorem fsprgGenState0_eq_state0 (h : IsValidSecpar secpar) (gcrypt : Gcrypt)
    {state : List UInt8} (hstate : state.length = 2 + secpar / 8 + secpar / 8 + 8)
    (seed : List UInt8) :
    fsprgGenState0 gcrypt state (mpkBytes secpar primes.n) seed =
      .ok (primes.state0 h gcrypt seed).encode :=
  fsprgGenState0_mpkBytes h gcrypt primes.n_lt (primes.squareRoot_lt_n h gcrypt seed rndGenX) hstate

end FirstState

end PythonSystemd.Fsprg
