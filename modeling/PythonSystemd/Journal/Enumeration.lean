import PythonSystemd.Journal.Assembly

/-!
# Errors of an enumeration

Three methods of the reader go through an enumeration of the library: `Reader_get_all` and
`Reader_query_unique` with the macros of the library, whose loops end at the first result that is
not positive, and `Reader_enumerate_fields` with a loop of its own, which raises a negative result.
What an enumeration delivers and how it ends is the same for all; `Collects` is what their loop
bodies have in common.

`enumerationsReport_iff` says when the methods return nothing that is incomplete: the first two have
to be spared an error of the enumeration, or to raise something else before it.
-/

set_option autoImplicit false
set_option relaxedAutoImplicit false

namespace PythonSystemd.Journal

open Library Library.CheckedMemory Library.HandleProgram Program Python

/-! ### Enumerations -/

/-- The items up to the first result that is not positive. -/
def delivered : (outcomes : List (ℤ × List UInt8)) → List (List UInt8)
  | [] => []
  | (r, data) :: outcomes => if 0 < r then data :: delivered outcomes else []

/-- The first result that is not positive. -/
def ending : (outcomes : List (ℤ × List UInt8)) → ℤ
  | [] => 0
  | (r, _) :: outcomes => if 0 < r then ending outcomes else r

theorem ending_nonpos (outcomes : List (ℤ × List UInt8)) : ending outcomes ≤ 0 := by
  induction outcomes with
  | nil => exact le_rfl
  | cons outcome outcomes ih =>
    obtain ⟨r, data⟩ := outcome
    unfold ending
    split_ifs with hpos
    · exact ih
    · exact not_lt.mp hpos

/-- A loop of the macros runs its body on what is delivered, and how the enumeration ends does not
matter to it. -/
theorem enumerated_eq_foldlM {σ : Type} (body : σ → List UInt8 → Except PyException σ)
    (outcomes : List (ℤ × List UInt8)) (collected : σ) :
    enumerated body outcomes collected = (delivered outcomes).foldlM body collected := by
  induction outcomes generalizing collected with
  | nil => rfl
  | cons outcome outcomes ih =>
    obtain ⟨r, data⟩ := outcome
    unfold enumerated delivered
    split_ifs with hpos
    · rw [List.foldlM_cons]
      exact congrArg (body collected data >>= ·) (funext ih)
    · rfl

/-! ### Loop bodies -/

section Collects

variable {σ : Type} {body : σ → List UInt8 → Except PyException σ} {accepts : List UInt8 → Prop}
  {holds : σ → List (List UInt8) → Prop}

/-- A body that accepts an item whatever it has collected, and that adds the item to what the
collection holds. -/
structure Collects (body : σ → List UInt8 → Except PyException σ) (accepts : List UInt8 → Prop)
    (holds : σ → List (List UInt8) → Prop) : Prop where
  accepts_iff : ∀ collected item, (∃ after, body collected item = .ok after) ↔ accepts item
  adds : ∀ {collected after item items}, holds collected items →
    body collected item = .ok after → holds after (items ++ [item])

theorem Collects.holds_foldlM (h : Collects body accepts holds) {items before : List (List UInt8)}
    {collected after : σ} (hholds : holds collected before)
    (hfold : items.foldlM body collected = .ok after) : holds after (before ++ items) := by
  induction items generalizing collected before with
  | nil =>
    obtain rfl := Except.ok.inj hfold
    rwa [List.append_nil]
  | cons item items ih =>
    rw [List.foldlM_cons] at hfold
    obtain ⟨next, hbody, hrest⟩ := returned_bind.mp hfold
    have hafter := ih (h.adds hholds hbody) hrest
    rwa [List.append_assoc] at hafter

theorem Collects.exists_foldlM_iff (h : Collects body accepts holds) (items : List (List UInt8))
    (collected : σ) :
    (∃ after, items.foldlM body collected = .ok after) ↔ ∀ item ∈ items, accepts item := by
  induction items generalizing collected with
  | nil => exact iff_of_true ⟨collected, rfl⟩ fun item hitem ↦ absurd hitem List.not_mem_nil
  | cons item items ih =>
    rw [List.forall_mem_cons, List.foldlM_cons]
    constructor
    · rintro ⟨after, hfold⟩
      obtain ⟨next, hbody, hrest⟩ := returned_bind.mp hfold
      exact ⟨(h.accepts_iff collected item).mp ⟨next, hbody⟩, (ih next).mp ⟨after, hrest⟩⟩
    · rintro ⟨haccepts, hitems⟩
      obtain ⟨next, hbody⟩ := (h.accepts_iff collected item).mpr haccepts
      obtain ⟨after, hrest⟩ := (ih next).mpr hitems
      exact ⟨after, returned_bind.mpr ⟨next, hbody, hrest⟩⟩

end Collects

/-- The dictionary groups the items by their keys, each split at its first delimiter. -/
def GroupsItems (entry : Entry) (items : List (List UInt8)) : Prop :=
  ∃ fields, List.Forall₂ (fun item field ↦ extract item = .ok field) items fields ∧
    Groups entry fields

/-- The set is what is read from the items. -/
def IsSetOf {α : Type} (read : List UInt8 → Except PyException α) (set : Finset α)
    (items : List (List UInt8)) : Prop :=
  (∀ item ∈ items, ∃ value ∈ set, read item = .ok value) ∧
    ∀ value ∈ set, ∃ item ∈ items, read item = .ok value

theorem collects_collectField :
    Collects collectField (fun item ↦ ∃ field, extract item = .ok field) GroupsItems := by
  refine ⟨fun collected item ↦ ?_, fun {collected after item items} hholds hbody ↦ ?_⟩
  · constructor
    · rintro ⟨after, hbody⟩
      obtain ⟨field, hextract, -⟩ := collectField_eq_ok_iff.mp hbody
      exact ⟨field, hextract⟩
    · rintro ⟨field, hextract⟩
      exact ⟨_, collectField_eq_ok_iff.mpr ⟨field, hextract, rfl⟩⟩
  · obtain ⟨fields, hfields, hgroups⟩ := hholds
    obtain ⟨field, hextract, -⟩ := collectField_eq_ok_iff.mp hbody
    obtain ⟨next, hnext, hgroups⟩ := hgroups.collectField hextract
    obtain rfl := Except.ok.inj (hbody.symm.trans hnext)
    exact ⟨fields ++ [field], List.rel_append hfields (.cons hextract .nil), hgroups⟩

/-- A body that reads a value from an item and inserts it into a set. -/
theorem collects_insert {α : Type} [DecidableEq α]
    {body : Finset α → List UInt8 → Except PyException (Finset α)}
    {read : List UInt8 → Except PyException α} {accepts : List UInt8 → Prop}
    (haccepts : ∀ item, accepts item ↔ ∃ value, read item = .ok value)
    (hbody : ∀ set after item, body set item = .ok after ↔
      ∃ value, read item = .ok value ∧ after = insert value set) :
    Collects body accepts (IsSetOf read) := by
  refine ⟨fun set item ↦ ?_, fun {set after item items} hholds hafter ↦ ?_⟩
  · rw [haccepts item]
    constructor
    · rintro ⟨after, hafter⟩
      obtain ⟨value, hvalue, -⟩ := (hbody set after item).mp hafter
      exact ⟨value, hvalue⟩
    · rintro ⟨value, hvalue⟩
      exact ⟨_, (hbody set _ item).mpr ⟨value, hvalue, rfl⟩⟩
  · obtain ⟨value, hvalue, rfl⟩ := (hbody set after item).mp hafter
    refine ⟨fun other hother ↦ ?_, fun other hother ↦ ?_⟩
    · rcases List.mem_append.mp hother with hold | hnew
      · obtain ⟨found, hfound, hread⟩ := hholds.1 other hold
        exact ⟨found, Finset.mem_insert_of_mem hfound, hread⟩
      · obtain rfl := List.mem_singleton.mp hnew
        exact ⟨value, Finset.mem_insert_self value set, hvalue⟩
    · rcases Finset.mem_insert.mp hother with rfl | hold
      · exact ⟨item, List.mem_append_right _ (List.mem_singleton_self item), hvalue⟩
      · obtain ⟨source, hsource, hread⟩ := hholds.2 other hold
        exact ⟨source, List.mem_append_left _ hsource, hread⟩

theorem extractValue_eq_ok_iff {item value : List UInt8} :
    extractValue item = .ok value ↔ ∃ name, splitField item = .ok (name, value) := by
  unfold extractValue
  constructor
  · intro h
    obtain ⟨⟨name, other⟩, hsplit, hvalue⟩ := returned_bind.mp h
    obtain rfl := Except.ok.inj hvalue
    exact ⟨name, hsplit⟩
  · rintro ⟨name, hsplit⟩
    rw [hsplit]
    rfl

/-- An item has a value when it has a delimiter. -/
theorem exists_extractValue_iff (item : List UInt8) :
    (∃ value, extractValue item = .ok value) ↔ delimiter ∈ item := by
  constructor
  · rintro ⟨value, hvalue⟩
    obtain ⟨name, hsplit⟩ := extractValue_eq_ok_iff.mp hvalue
    by_contra hnot
    have hnil : item.dropWhile (· ≠ delimiter) = [] :=
      List.dropWhile_eq_nil_iff.mpr fun byte hbyte ↦ decide_eq_true fun heq ↦ hnot (heq ▸ hbyte)
    rw [splitField, hnil] at hsplit
    cases hsplit
  · intro hmem
    obtain ⟨name, value, rfl, hname⟩ := List.eq_append_cons_of_mem hmem
    exact ⟨value, extractValue_eq_ok_iff.mpr ⟨name, splitField_append hname value⟩⟩

theorem collects_collectValue :
    Collects collectValue (fun item ↦ delimiter ∈ item) (IsSetOf extractValue) := by
  refine collects_insert (fun item ↦ (exists_extractValue_iff item).symm)
    fun set after item ↦ ?_
  unfold collectValue
  cases hsplit : splitField item with
  | error exception =>
    refine iff_of_false (fun h ↦ by cases h) ?_
    rintro ⟨value, hvalue, -⟩
    obtain ⟨name, hname⟩ := extractValue_eq_ok_iff.mp hvalue
    rw [hsplit] at hname
    cases hname
  | ok parts =>
    obtain ⟨name, value⟩ := parts
    have hvalue : extractValue item = .ok value := extractValue_eq_ok_iff.mpr ⟨name, hsplit⟩
    rw [hvalue]
    constructor
    · intro h
      exact ⟨value, rfl, (Except.ok.inj h).symm⟩
    · rintro ⟨other, hother, rfl⟩
      obtain rfl := Except.ok.inj hother
      rfl

/-- The body of the loop in `Reader_enumerate_fields`. -/
def collectName (valueSet : Finset Text) (field : List UInt8) :
    Except PyException (Finset Text) := do
  let value ← unicodeFromString field
  return insert value valueSet

theorem collects_collectName :
    Collects collectName (fun item ↦ ∃ text, unicodeFromString item = .ok text)
      (IsSetOf unicodeFromString) := by
  refine collects_insert (fun _ ↦ Iff.rfl) fun set after item ↦ ?_
  unfold collectName
  refine returned_bind.trans ?_
  constructor
  · rintro ⟨value, hvalue, hafter⟩
    exact ⟨value, hvalue, (Except.ok.inj hafter).symm⟩
  · rintro ⟨value, hvalue, rfl⟩
    exact ⟨value, hvalue, rfl⟩

/-! ### The methods -/

theorem returns_readerQueryUnique (field : List UInt8) (query : List UInt8 → ℤ)
    (outcomes : List (ℤ × List UInt8)) :
    (readerQueryUnique (.tuple (.ok field)) query outcomes).Returns
      (checked (query field) (some "Invalid field name") >>= fun _ ↦
        unicodeFromString field >>= fun _ ↦ enumerated collectValue outcomes ∅) := by
  have henumerate : (act .use >>= fun _ ↦ enumerate collectValue outcomes ∅).Returns
      (enumerated collectValue outcomes ∅) :=
    (returns_act .use).bind fun _ ↦ returns_enumerate collectValue outcomes ∅
  exact (returns_callLibrary (query field) (some "Invalid field name")).bind fun _ ↦
    (returns_ofExcept (unicodeFromString field)).bind fun _ ↦ henumerate

/-- The loop of `Reader_enumerate_fields` runs its body on what is delivered, and then checks how
the enumeration ends. -/
theorem returns_enumerateFields (outcomes : List (ℤ × List UInt8)) (valueSet : Finset Text) :
    (enumerateFields outcomes valueSet).Returns
      ((delivered outcomes).foldlM collectName valueSet >>= fun collected ↦
        checked (ending outcomes) (some "Field enumeration failed") >>= fun _ ↦
          .ok collected) := by
  induction outcomes generalizing valueSet with
  | nil => exact (returns_act .use).bind fun _ ↦ returns_pure valueSet
  | cons outcome outcomes ih =>
    obtain ⟨r, field⟩ := outcome
    unfold enumerateFields delivered ending
    refine Returns.ok_bind (returns_act .use) ?_
    by_cases hpos : 0 < r
    · rw [if_neg hpos.ne', if_pos hpos, if_pos hpos, List.foldlM_cons]
      have hcheck := returns_raiseError r (some "Field enumeration failed")
      rw [checked_of_nonneg hpos.le] at hcheck
      refine hcheck.ok_bind ?_
      have hbody := (returns_ofExcept (unicodeFromString field)).bind
        fun value ↦ ih (insert value valueSet)
      unfold collectName
      rw [bind_assoc, bind_assoc]
      exact hbody
    · rw [if_neg hpos, if_neg hpos]
      by_cases hzero : r = 0
      · rw [if_pos hzero, hzero, checked_of_nonneg le_rfl]
        exact returns_pure valueSet
      · have hneg : r < 0 := lt_of_le_of_ne (not_lt.mp hpos) hzero
        obtain ⟨exception, hexception⟩ := checked_of_neg hneg (some "Field enumeration failed")
        have hcheck := returns_raiseError r (some "Field enumeration failed")
        rw [if_neg hzero]
        rw [hexception] at hcheck ⊢
        exact hcheck.error_bind _

theorem returns_readerEnumerateFields {build : Build} (hbuild : build.haveEnumerateFields = true)
    (args : Args Unit) (outcomes : List (ℤ × List UInt8)) :
    (readerEnumerateFields build args outcomes).Returns
      ((delivered outcomes).foldlM collectName ∅ >>= fun collected ↦
        checked (ending outcomes) (some "Field enumeration failed") >>= fun _ ↦
          .ok collected) := by
  unfold readerEnumerateFields
  rw [if_pos hbuild]
  exact (returns_act .use).ok_bind (returns_enumerateFields outcomes ∅)

/-! ### Reported errors -/

section Reports

variable {σ : Type} {program : Program PyException σ} {outcomes : List (ℤ × List UInt8)}
  {holds : σ → List (List UInt8) → Prop}

/-- A method returns a collection only when the enumeration has ended with zero, and then one that
holds what it has delivered; when the enumeration has ended with an error, the method raises. -/
structure Reports (program : Program PyException σ) (outcomes : List (ℤ × List UInt8))
    (holds : σ → List (List UInt8) → Prop) : Prop where
  returned : ∀ collected, program.Returns (.ok collected) →
    ending outcomes = 0 ∧ holds collected (delivered outcomes)
  raised : ending outcomes < 0 → ∃ exception, program.Returns (.error exception)

/-- A method that returns only what holds all items reports the errors of the enumeration exactly
when there is none or the method raises. -/
theorem reports_iff {result : Except PyException σ} (hreturns : program.Returns result)
    (hholds : ∀ collected, result = .ok collected → holds collected (delivered outcomes)) :
    Reports program outcomes holds ↔
      ending outcomes = 0 ∨ ¬ ∃ collected, result = .ok collected := by
  have hending := ending_nonpos outcomes
  constructor
  · intro h
    by_contra hnot
    obtain ⟨hne, hok⟩ := not_or.mp hnot
    obtain ⟨collected, rfl⟩ := not_not.mp hok
    exact hne (h.returned collected hreturns).1
  · intro h
    refine ⟨fun collected hcollected ↦ ?_, fun hneg ↦ ?_⟩
    · have hresult := hreturns.unique hcollected
      exact ⟨h.resolve_right fun hnot ↦ hnot ⟨collected, hresult⟩, hholds collected hresult⟩
    · have hraise := h.resolve_left hneg.ne
      cases hresult : result with
      | error exception => exact ⟨exception, hresult ▸ hreturns⟩
      | ok collected => exact absurd ⟨collected, hresult⟩ hraise

end Reports

variable {outcomes : List (ℤ × List UInt8)}

theorem reports_readerGetAll_iff :
    Reports (readerGetAll .null outcomes) outcomes GroupsItems ↔
      ending outcomes = 0 ∨ ∃ item ∈ delivered outcomes, ¬ ∃ field, extract item = .ok field := by
  have hreturns := returns_readerGetAll outcomes
  rw [enumerated_eq_foldlM] at hreturns
  rw [reports_iff hreturns, collects_collectField.exists_foldlM_iff]
  · simp only [not_forall, exists_prop]
  · intro collected hcollected
    have hempty : GroupsItems OrderedDict.empty [] := ⟨[], .nil, fun _ ↦ rfl⟩
    exact collects_collectField.holds_foldlM hempty hcollected

/-- What makes `Reader_query_unique` raise before the enumeration ends. -/
def QueryRaises (field : List UInt8) (query : List UInt8 → ℤ)
    (outcomes : List (ℤ × List UInt8)) : Prop :=
  query field < 0 ∨ decodeUtf8 field = none ∨ ∃ item ∈ delivered outcomes, delimiter ∉ item

theorem checked_eq_ok_iff {r : ℤ} {invalidMessage : Option String} :
    checked r invalidMessage = .ok () ↔ 0 ≤ r := by
  constructor
  · intro h
    by_contra hneg
    obtain ⟨exception, hexception⟩ := checked_of_neg (not_le.mp hneg) invalidMessage
    rw [hexception] at h
    cases h
  · intro h
    exact checked_of_nonneg h invalidMessage

theorem exists_unicodeFromString_iff {bytes : List UInt8} :
    (∃ text, unicodeFromString bytes = .ok text) ↔ decodeUtf8 bytes ≠ none := by
  unfold unicodeFromString
  cases decodeUtf8 bytes with
  | none =>
    refine iff_of_false ?_ (fun h ↦ h rfl)
    rintro ⟨text, htext⟩
    cases htext
  | some text => exact iff_of_true ⟨text, rfl⟩ (Option.some_ne_none text)

/-- The method returns a set exactly when nothing makes it raise. -/
theorem exists_queryUnique_iff {field : List UInt8} {query : List UInt8 → ℤ} :
    (∃ collected, (checked (query field) (some "Invalid field name") >>= fun _ ↦
        unicodeFromString field >>= fun _ ↦ (delivered outcomes).foldlM collectValue ∅) =
          .ok collected) ↔ ¬ QueryRaises field query outcomes := by
  have hfold := collects_collectValue.exists_foldlM_iff (delivered outcomes) ∅
  have hraises : ¬ QueryRaises field query outcomes ↔
      0 ≤ query field ∧ decodeUtf8 field ≠ none ∧
        ∀ item ∈ delivered outcomes, delimiter ∈ item := by
    unfold QueryRaises
    simp only [not_or, not_lt, not_exists, not_and, not_not, ne_eq]
  rw [hraises]
  constructor
  · rintro ⟨collected, h⟩
    obtain ⟨_, hquery, h⟩ := returned_bind.mp h
    obtain ⟨text, htext, h⟩ := returned_bind.mp h
    exact ⟨checked_eq_ok_iff.mp hquery, exists_unicodeFromString_iff.mp ⟨text, htext⟩,
      hfold.mp ⟨collected, h⟩⟩
  · rintro ⟨hquery, hfield, hitems⟩
    obtain ⟨text, htext⟩ := exists_unicodeFromString_iff.mpr hfield
    obtain ⟨collected, h⟩ := hfold.mpr hitems
    exact ⟨collected, returned_bind.mpr ⟨(), checked_eq_ok_iff.mpr hquery,
      returned_bind.mpr ⟨text, htext, h⟩⟩⟩

theorem reports_readerQueryUnique_iff {field : List UInt8} {query : List UInt8 → ℤ} :
    Reports (readerQueryUnique (.tuple (.ok field)) query outcomes) outcomes
        (IsSetOf extractValue) ↔
      ending outcomes = 0 ∨ QueryRaises field query outcomes := by
  have hreturns := returns_readerQueryUnique field query outcomes
  rw [enumerated_eq_foldlM] at hreturns
  rw [reports_iff hreturns, exists_queryUnique_iff, not_not]
  intro collected hcollected
  have hempty : IsSetOf extractValue (∅ : Finset (List UInt8)) [] :=
    ⟨fun _ h ↦ absurd h List.not_mem_nil, fun _ h ↦ absurd h (Finset.notMem_empty _)⟩
  obtain ⟨_, -, hcollected⟩ := returned_bind.mp hcollected
  obtain ⟨_, -, hcollected⟩ := returned_bind.mp hcollected
  exact collects_collectValue.holds_foldlM hempty hcollected

/-- The loop that checks every result reports the errors of every enumeration. -/
theorem reports_readerEnumerateFields (build : Build) (args : Args Unit)
    (outcomes : List (ℤ × List UInt8)) :
    Reports (readerEnumerateFields build args outcomes) outcomes (IsSetOf unicodeFromString) := by
  by_cases hbuild : build.haveEnumerateFields = true
  · have hreturns := returns_readerEnumerateFields hbuild args outcomes
    have hempty : IsSetOf unicodeFromString (∅ : Finset Text) [] :=
      ⟨fun _ h ↦ absurd h List.not_mem_nil, fun _ h ↦ absurd h (Finset.notMem_empty _)⟩
    have hended : ∀ collected, ((delivered outcomes).foldlM collectName ∅ >>= fun collected ↦
        checked (ending outcomes) (some "Field enumeration failed") >>= fun _ ↦
          .ok collected) = .ok collected →
        ending outcomes = 0 ∧ IsSetOf unicodeFromString collected (delivered outcomes) := by
      intro collected h
      obtain ⟨valueSet, hfold, h⟩ := returned_bind.mp h
      obtain ⟨_, hchecked, h⟩ := returned_bind.mp h
      obtain rfl := Except.ok.inj h
      exact ⟨le_antisymm (ending_nonpos outcomes) (checked_eq_ok_iff.mp hchecked),
        collects_collectName.holds_foldlM hempty hfold⟩
    refine (reports_iff hreturns fun collected h ↦ (hended collected h).2).mpr ?_
    by_contra hnot
    obtain ⟨hne, hok⟩ := not_or.mp hnot
    obtain ⟨collected, h⟩ := not_not.mp hok
    exact hne (hended collected h).1
  · have hreturns : (readerEnumerateFields build args outcomes).Returns
        (.error (.osError ENOSYS none)) := by
      unfold readerEnumerateFields
      rw [if_neg hbuild]
      exact returns_raise _
    refine (reports_iff hreturns fun collected h ↦ by cases h).mpr (.inr ?_)
    rintro ⟨collected, h⟩
    cases h

/-- The three methods report the errors of an enumeration. -/
structure EnumerationsReport (build : Build) (field : List UInt8) (query : List UInt8 → ℤ)
    (outcomes : List (ℤ × List UInt8)) : Prop where
  getAll : Reports (readerGetAll .null outcomes) outcomes GroupsItems
  queryUnique : Reports (readerQueryUnique (.tuple (.ok field)) query outcomes) outcomes
    (IsSetOf extractValue)
  fields : Reports (readerEnumerateFields build .null outcomes) outcomes
    (IsSetOf unicodeFromString)

/-- The methods report the errors of an enumeration exactly when it ends without one, or both
methods that do not look at its end raise before they come to it. -/
theorem enumerationsReport_iff (build : Build) (field : List UInt8) (query : List UInt8 → ℤ)
    (outcomes : List (ℤ × List UInt8)) :
    EnumerationsReport build field query outcomes ↔
      ending outcomes = 0 ∨
        (∃ item ∈ delivered outcomes, ¬ ∃ field, extract item = .ok field) ∧
          QueryRaises field query outcomes := by
  rw [or_and_left, ← reports_readerGetAll_iff, ← reports_readerQueryUnique_iff]
  constructor
  · intro h
    exact ⟨h.getAll, h.queryUnique⟩
  · rintro ⟨hgetAll, hqueryUnique⟩
    exact ⟨hgetAll, hqueryUnique, reports_readerEnumerateFields build .null outcomes⟩

/-- An entry with a damaged second item (`-EBADMSG`) is read as one that has only the first. -/
theorem not_enumerationsReport_sample :
    ¬ EnumerationsReport ⟨some 250, 250⟩ [77] (fun _ ↦ 0) [(1, [77, 61, 120]), (-74, [])] := by
  intro h
  have hreturns := returns_readerGetAll [(1, [77, 61, 120]), (-74, [])]
  obtain ⟨entry, hentry⟩ : ∃ entry, enumerated collectField [(1, [77, 61, 120]), (-74, [])]
      OrderedDict.empty = .ok entry := ⟨_, rfl⟩
  rw [hentry] at hreturns
  exact absurd (h.getAll.returned entry hreturns).1 (by decide)

end PythonSystemd.Journal
