import PythonSystemd.Python.Numbers

/-!
# Ids of the machine and of the boot

The functions of `id128.c` for the ids of the machine and of the boot, for what `libsystemd`
returns. They end in `make_uuid`, which calls `uuid.UUID(bytes=...)` with the 16 bytes of an id:
`makeUuid_eq`.
-/

set_option autoImplicit false
set_option relaxedAutoImplicit false

namespace PythonSystemd.Id128

open Library Python

/-- An `sd_id128_t`. -/
structure SdId128 where
  bytes : List UInt8
  length_bytes : bytes.length = 16

namespace SdId128

variable (id : SdId128)

theorem ofBytes_lt : BigEndian.ofBytes id.bytes < 2 ^ 128 := by
  have hlt := BigEndian.ofBytes_lt id.bytes
  rw [id.length_bytes] at hlt
  exact hlt

/-- The UUID with these bytes. -/
def uuid : UUID :=
  ⟨BigEndian.ofBytes id.bytes, id.ofBytes_lt⟩

end SdId128

/-- `make_uuid`. -/
def makeUuid (id : SdId128) : Except PyException UUID :=
  uuidOfBytes id.bytes

/-- `PyErr_SetFromErrno(PyExc_IOError)`. -/
def ioError (r : ℤ) : PyException :=
  .osError (-r) none

/-- The body of `helper`, for the result and the id of the library. -/
def helper (r : ℤ) (id : SdId128) : Except PyException UUID :=
  if r < 0 then .error (ioError r) else makeUuid id

def getMachine (r : ℤ) (id : SdId128) : Except PyException UUID :=
  helper r id

def getBoot (r : ℤ) (id : SdId128) : Except PyException UUID :=
  helper r id

theorem makeUuid_eq (id : SdId128) : makeUuid id = .ok id.uuid := by
  have hrange : (0 : ℤ) ≤ BigEndian.ofBytes id.bytes ∧
      (BigEndian.ofBytes id.bytes : ℤ) < 2 ^ 128 :=
    ⟨Int.natCast_nonneg _, by exact_mod_cast id.ofBytes_lt⟩
  rw [makeUuid, uuidOfBytes, if_neg (not_not.mpr id.length_bytes), uuidOfInt, dif_pos hrange]
  rfl

/-- A function that returns an id has got it from the library. -/
theorem helper_eq_ok_iff {r : ℤ} {id : SdId128} {uuid : UUID} :
    helper r id = .ok uuid ↔ 0 ≤ r ∧ uuid = id.uuid := by
  unfold helper
  split_ifs with hneg
  · refine iff_of_false (fun h ↦ by cases h) ?_
    rintro ⟨hnonneg, -⟩
    omega
  · rw [makeUuid_eq, Except.ok.injEq]
    constructor
    · rintro rfl
      exact ⟨by omega, rfl⟩
    · rintro ⟨-, rfl⟩
      rfl

end PythonSystemd.Id128
