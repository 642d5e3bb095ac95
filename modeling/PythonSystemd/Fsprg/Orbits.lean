import PythonSystemd.Fsprg.ForwardState

/-!
# Evolving never merges states

Modulo a product of two primes that are `3` modulo `4` no two states evolve into the same one
(`fsprgEvolve_never_merges`). The residues along a chain are an orbit of an injective map of a
finite type, so the chain of a first state comes back to its own start, and two chains that share
one residue are shifts of each other.

`chainResidue` reads the residue of a state after a number of calls of `FSPRG_Evolve`;
`chainResidue_stateBytes` says that it is an orbit of `Residue.square`.
-/

set_option autoImplicit false
set_option relaxedAutoImplicit false

namespace PythonSystemd.Fsprg

open Library.BigEndian Library.BlumSquares Library.CheckedMemory

/-- The residue of a state buffer, at the place where `FSPRG_Evolve` imports it. -/
def stateResidue (state : List UInt8) : Checked ℕ := do
  let secpar ← readSecpar state 0
  mpiImport state (2 + 1 * secpar.toNat / 8) (secpar.toNat / 8)

/-- The residue after `count` calls of `FSPRG_Evolve`. -/
def chainResidue (state : List UInt8) (count : ℕ) : Checked ℕ := do
  let state ← evolveTimes count state
  stateResidue state

variable {secpar n : ℕ} {epoch : UInt64} {state : List UInt8}

theorem stateResidue_encode (point : ForwardState secpar) :
    stateResidue point.encode = .ok point.residue.1 := by
  have hheader := readSecpar_stateBytes point.valid point.modulus point.residue.1 point.epoch
  have himport := mpiImport_stateBytes_x point.valid point.modulus point.residue_lt point.epoch
  rw [stateResidue, ForwardState.encode, hheader, ok_bind, point.valid.toNat_ofNat]
  exact himport

theorem chainResidue_encode (point : ForwardState secpar) (count : ℕ) :
    chainResidue point.encode count = .ok (Residue.square^[count] point.residue).1 := by
  rw [chainResidue, point.evolveTimes_encode, ok_bind, stateResidue_encode]
  rfl

/-- A well-formed buffer holds a residue whose orbit its chain follows. -/
theorem WellFormed.exists_residue (h : IsValidSecpar secpar) (hn : n < 2 ^ secpar)
    (hwell : WellFormed secpar n epoch state) :
    ∃ x : Residue n, state = stateBytes secpar n x.1 epoch ∧
      ∀ count, chainResidue state count = .ok (Residue.square^[count] x).1 := by
  obtain ⟨point, rfl, rfl, rfl⟩ := hwell.exists_forwardState h hn
  exact ⟨point.residue, rfl, chainResidue_encode point⟩

/-- On the well-formed states of a Blum modulus `FSPRG_Evolve` is injective. -/
theorem WellFormed.eq_of_fsprgEvolve_eq (h : IsValidSecpar secpar) (hn : n < 2 ^ secpar)
    (hblum : IsBlum n) {epoch' : UInt64} {state' : List UInt8}
    (hwell : WellFormed secpar n epoch state) (hwell' : WellFormed secpar n epoch' state')
    (heq : fsprgEvolve state = fsprgEvolve state') : state = state' := by
  obtain ⟨x, rfl, -⟩ := hwell.exists_residue h hn
  obtain ⟨y, rfl, -⟩ := hwell'.exists_residue h hn
  have hstep : ∀ (z : Residue n) (e : UInt64), fsprgEvolve (stateBytes secpar n z.1 e) =
      .ok (stateBytes secpar n z.square.1 (e + 1)) := fun z e ↦
    fsprgEvolve_stateBytes h hn hblum.pos (z.2.1.trans hn)
  rw [hstep, hstep] at heq
  obtain ⟨hsquare, hcount⟩ := stateBytes_inj h (x.square.2.1.trans hn) (y.square.2.1.trans hn)
    (Except.ok.inj heq)
  have hresidue := Residue.square_injective hblum (Subtype.ext hsquare)
  have hepoch : epoch = epoch' := (UInt64.add_left_inj 1).mp hcount
  rw [hresidue, hepoch]

/-- A state that `FSPRG_GenState0` has written is well formed. -/
theorem wellFormed_of_fsprgGenState0 (h : IsValidSecpar secpar) (hn : n < 2 ^ secpar)
    (hpos : 0 < n) {gcrypt : Gcrypt} {seed state0 : List UInt8}
    (hstate : fsprgStateinbytes secpar = .ok state.length)
    (hrun : fsprgGenState0 gcrypt state (mpkBytes secpar n) seed = .ok state0) :
    WellFormed secpar n 0 state0 := by
  by_cases hroot : squareRoot (detRandomize gcrypt (secpar / 8) seed rndGenX) < n
  · rw [fsprgGenState0_mpkBytes h gcrypt hn hroot (h.length_state hstate)] at hrun
    obtain rfl := Except.ok.inj hrun
    exact wellFormed_encode ⟨h, n, hn, Residue.ofRoot hpos _, 0⟩
  · rw [fsprgGenState0_eq_error h gcrypt hn hpos state (by omega)] at hrun
    cases hrun

/-- The chain of a well-formed state comes back to every point it has passed. -/
theorem WellFormed.exists_period (h : IsValidSecpar secpar) (hn : n < 2 ^ secpar)
    (hblum : IsBlum n) (hwell : WellFormed secpar n epoch state) :
    ∃ period > 0, ∀ count, chainResidue state (count + period) = chainResidue state count := by
  obtain ⟨x, -, hchain⟩ := hwell.exists_residue h hn
  obtain ⟨period, hpos, hperiod⟩ :=
    Library.BlumSquares.exists_period (Residue.square_injective hblum) x
  refine ⟨period, hpos, fun count ↦ ?_⟩
  rw [hchain, hchain, hperiod]

/-- Two chains that share a residue are shifts of each other. -/
theorem WellFormed.exists_shift (h : IsValidSecpar secpar) (hn : n < 2 ^ secpar)
    (hblum : IsBlum n) {epoch' : UInt64} {state' : List UInt8}
    (hwell : WellFormed secpar n epoch state) (hwell' : WellFormed secpar n epoch' state')
    {i j : ℕ} (hmeet : chainResidue state i = chainResidue state' j) :
    ∃ shift, ∀ count, chainResidue state (count + shift) = chainResidue state' count := by
  obtain ⟨x, -, hchain⟩ := hwell.exists_residue h hn
  obtain ⟨y, -, hchain'⟩ := hwell'.exists_residue h hn
  rw [hchain, hchain'] at hmeet
  obtain ⟨shift, hshift⟩ := exists_shift_of_meet (Residue.square_injective hblum)
    (Subtype.ext (Except.ok.inj hmeet))
  refine ⟨shift, fun count ↦ ?_⟩
  rw [hchain, hchain', hshift]

/-- Modulo a Blum number that fits the parameter `FSPRG_Evolve` merges no states: it is injective
on the well-formed ones, the chain of a state of `FSPRG_GenState0` is purely periodic, and two
chains that do not avoid each other are shifts of each other. -/
theorem fsprgEvolve_never_merges (h : IsValidSecpar secpar) {p q : ℕ} (hp : p.Prime)
    (hq : q.Prime) (hpmod : p % 4 = 3) (hqmod : q % 4 = 3) (hsize : (p * q).size ≤ secpar) :
    (∀ epoch epoch' state state', WellFormed secpar (p * q) epoch state →
      WellFormed secpar (p * q) epoch' state' → fsprgEvolve state = fsprgEvolve state' →
        state = state') ∧
    (∀ gcrypt state seed state0, fsprgStateinbytes secpar = .ok state.length →
      fsprgGenState0 gcrypt state (mpkBytes secpar (p * q)) seed = .ok state0 →
        (∀ count, ∃ x < p * q, chainResidue state0 count = .ok x) ∧
        ∃ period > 0, ∀ count,
          chainResidue state0 (count + period) = chainResidue state0 count) ∧
    (∀ epoch epoch' state state', WellFormed secpar (p * q) epoch state →
      WellFormed secpar (p * q) epoch' state' →
        (∀ i j, chainResidue state i ≠ chainResidue state' j) ∨
        (∃ shift, ∀ count, chainResidue state (count + shift) = chainResidue state' count) ∧
          ∃ shift, ∀ count, chainResidue state' (count + shift) = chainResidue state count) := by
  have hblum : IsBlum (p * q) := ⟨p, q, hp, hq, hpmod, hqmod, rfl⟩
  have hn : p * q < 2 ^ secpar := Nat.size_le.mp hsize
  refine ⟨fun epoch epoch' state state' hwell hwell' ↦ hwell.eq_of_fsprgEvolve_eq h hn hblum hwell',
    fun gcrypt state seed state0 hstate hrun ↦ ?_, fun epoch epoch' state state' hwell hwell' ↦ ?_⟩
  · have hwell := wellFormed_of_fsprgGenState0 h hn hblum.pos hstate hrun
    obtain ⟨x, -, hchain⟩ := hwell.exists_residue h hn
    exact ⟨fun count ↦ ⟨_, (Residue.square^[count] x).2.1, hchain count⟩,
      hwell.exists_period h hn hblum⟩
  · by_cases hmeet : ∃ i j, chainResidue state i = chainResidue state' j
    · obtain ⟨i, j, hmeet⟩ := hmeet
      exact .inr ⟨hwell.exists_shift h hn hblum hwell' hmeet,
        hwell'.exists_shift h hn hblum hwell hmeet.symm⟩
    · exact .inl fun i j heq ↦ hmeet ⟨i, j, heq⟩

/-- The modulus `3 * 3`, with equal primes. -/
theorem fsprgEvolve_never_merges_nine :
    (∀ epoch epoch' state state', WellFormed 16 (3 * 3) epoch state →
      WellFormed 16 (3 * 3) epoch' state' → fsprgEvolve state = fsprgEvolve state' →
        state = state') ∧
    (∀ gcrypt state seed state0, fsprgStateinbytes 16 = .ok state.length →
      fsprgGenState0 gcrypt state (mpkBytes 16 (3 * 3)) seed = .ok state0 →
        (∀ count, ∃ x < 3 * 3, chainResidue state0 count = .ok x) ∧
        ∃ period > 0, ∀ count,
          chainResidue state0 (count + period) = chainResidue state0 count) ∧
    (∀ epoch epoch' state state', WellFormed 16 (3 * 3) epoch state →
      WellFormed 16 (3 * 3) epoch' state' →
        (∀ i j, chainResidue state i ≠ chainResidue state' j) ∨
        (∃ shift, ∀ count, chainResidue state (count + shift) = chainResidue state' count) ∧
          ∃ shift, ∀ count, chainResidue state' (count + shift) = chainResidue state count) :=
  fsprgEvolve_never_merges (by decide) Nat.prime_three Nat.prime_three rfl rfl (by decide)

end PythonSystemd.Fsprg
