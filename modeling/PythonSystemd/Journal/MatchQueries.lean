import PythonSystemd.Journal.Matches
import PythonSystemd.Journal.ReadBack

/-!
# Which entries a filter selects

The library decides which entries the steps that it has taken select. Here this is a parameter
`selects`, of which `DocumentedMatching` says what is documented: a match holds of an entry that has
its line, matches of one field are alternatives, those of different fields hold together, and a
disjunction and a conjunction combine what stands before and behind them.

`selects_allOf_iff` is about filters and entries that are both made in Python. A filter that is
built of keyword arguments, with disjunctions between some and conjunctions between others, selects
what `send` has sent exactly when the fields of the call say so.
-/

set_option autoImplicit false
set_option relaxedAutoImplicit false

namespace PythonSystemd.Journal

open Library Library.MatchFormula Library.RequestLog Python

/-! ### The meaning of the steps -/

/-- The name of the field that a match is about. -/
def matchName (bytes : List UInt8) : List UInt8 :=
  bytes.takeWhile (· ≠ delimiter)

/-- Whether steps select an entry of some lines. -/
abbrev Matching := List FilterStep → List (List UInt8) → Prop

/-- The library selects the entries that its documentation describes. -/
def DocumentedMatching (selects : Matching) : Prop :=
  ∀ lines, Rules matchName (· ∈ lines) fun steps ↦ selects steps lines

theorem matchName_line {bytes : List UInt8 × List UInt8} (h : delimiter ∉ bytes.1) :
    matchName (line bytes) = bytes.1 := by
  have hname : ∀ byte ∈ bytes.1, decide (byte ≠ delimiter) = true := by
    intro byte hbyte
    exact decide_eq_true fun heq ↦ h (heq ▸ hbyte)
  have hvalue : (61 :: bytes.2).takeWhile (· ≠ delimiter) = [] := rfl
  unfold matchName line
  rw [List.takeWhile_append_of_pos hname, hvalue, List.append_nil]

/-- A line has one name and one value. -/
theorem line_injective {first second : List UInt8 × List UInt8} (hfirst : delimiter ∉ first.1)
    (hsecond : delimiter ∉ second.1) (h : line first = line second) : first = second := by
  have hname : first.1 = second.1 := by
    rw [← matchName_line hfirst, ← matchName_line hsecond, h]
  unfold line at h
  rw [hname] at h
  have hvalue := List.append_cancel_left h
  exact Prod.ext hname (List.cons.inj hvalue).2

theorem count_delimiter_line (bytes : List UInt8 × List UInt8) :
    (line bytes).count delimiter =
      bytes.1.count delimiter + (bytes.2.count delimiter + 1) := by
  unfold line
  rw [List.count_append]
  exact congrArg _ List.count_cons_self

/-- A line with one delimiter has one name, whatever other names have. -/
theorem line_injective_of_value {first second : List UInt8 × List UInt8}
    (hname : delimiter ∉ second.1) (hvalue : delimiter ∉ second.2)
    (h : line first = line second) : first = second := by
  have hcount : (line first).count delimiter = 1 := by
    rw [h, count_delimiter_line, List.count_eq_zero.mpr hname, List.count_eq_zero.mpr hvalue]
  rw [count_delimiter_line] at hcount
  have hfirst : delimiter ∉ first.1 := List.count_eq_zero.mp (by omega)
  exact line_injective hfirst hname h

/-! ### What a query asks for -/

/-- The keyword arguments of one call of `add_match`. -/
structure Query where
  fields : OrderedDict Text FieldValue
  nonempty : fields.items ≠ []
  no_equals : ∀ name ∈ fields.keys, equals ∉ name

/-- The lines have one for the field. -/
def HasField (lines : List (List UInt8)) (field : Text × FieldValue) : Prop :=
  ∃ bytes, Encodes field bytes ∧ line bytes ∈ lines

theorem matchRequest_item_eq_ok {item : Item} {step : FilterStep}
    (h : matchRequest (.item item) = .ok step) :
    ∃ bytes, encodeItem item = .ok bytes ∧ step = .add bytes := by
  unfold matchRequest at h
  cases hitem : parseMatch (.item item) with
  | error exception =>
    rw [hitem] at h
    cases h
  | ok bytes =>
    rw [hitem] at h
    dsimp only at h
    split_ifs at h
    exact ⟨bytes, hitem, (Except.ok.inj h).symm⟩

/-- The steps for lines add what they are encoded to. -/
theorem exists_fillIov {items : List Item} {steps : List FilterStep}
    (h : steps.map .ok = (items.map MatchArgument.item).map matchRequest) :
    ∃ lines, fillIov items = .ok lines ∧ steps = lines.map .add := by
  induction items generalizing steps with
  | nil =>
    have hsteps : steps = [] := List.map_eq_nil_iff.mp h
    exact ⟨[], rfl, hsteps⟩
  | cons item items ih =>
    obtain ⟨step, rest, rfl, hstep, hrest⟩ := List.map_eq_cons_iff.mp h
    obtain ⟨lines, hlines, rfl⟩ := ih hrest
    obtain ⟨bytes, hbytes, rfl⟩ := matchRequest_item_eq_ok hstep.symm
    refine ⟨bytes :: lines, ?_, rfl⟩
    rw [fillIov, hbytes, hlines]
    rfl

/-- A call that asks for no refused step adds the line of every keyword argument. -/
theorem exists_encoded_of_addRequests {fields : OrderedDict Text FieldValue}
    {steps : List FilterStep} (h : steps.map .ok = addRequests [] fields) :
    ∃ encoded, List.Forall₂ Encodes fields.items encoded ∧
      steps = (encoded.map line).map .add := by
  have herror : ∀ exception : PyException,
      steps.map Except.ok ≠ [(.error exception : Except PyException FilterStep)] := by
    intro exception hsteps
    obtain ⟨step, -, hstep⟩ := List.map_eq_singleton_iff.mp hsteps
    cases hstep
  unfold addRequests at h
  split_ifs at h
  · exact absurd h (herror _)
  · cases hlines : makeLines fields.items with
    | error exception =>
      rw [hlines] at h
      exact absurd h (herror exception)
    | ok items =>
      rw [hlines] at h
      obtain ⟨lines, hfill, rfl⟩ := exists_fillIov h
      have hmake : (makeLines fields.items >>= fillIov) = .ok lines := by
        rw [hlines]
        exact hfill
      obtain ⟨encoded, hencoded, rfl⟩ := fillIov_makeLines.mp hmake
      exact ⟨encoded, hencoded, rfl⟩

theorem delimiter_not_mem_of_encodes {field : Text × FieldValue}
    {bytes : List UInt8 × List UInt8} (h : Encodes field bytes) (hname : equals ∉ field.1) :
    delimiter ∉ bytes.1 :=
  not_mem_encodeUtf8 h.name (by decide) hname

theorem encodes_unique {field : Text × FieldValue} {first second : List UInt8 × List UInt8}
    (hfirst : Encodes field first) (hsecond : Encodes field second) : first = second :=
  Prod.ext (Option.some.inj (hfirst.name.symm.trans hsecond.name))
    (Option.some.inj (hfirst.value.symm.trans hsecond.value))

theorem hasField_iff {lines : List (List UInt8)} {field : Text × FieldValue}
    {bytes : List UInt8 × List UInt8} (h : Encodes field bytes) :
    HasField lines field ↔ line bytes ∈ lines := by
  constructor
  · rintro ⟨other, hother, hmem⟩
    rwa [encodes_unique h hother]
  · exact fun hmem ↦ ⟨bytes, h, hmem⟩

theorem forall_mem_lines_iff {lines : List (List UInt8)} {fields : List (Text × FieldValue)}
    {encoded : List (List UInt8 × List UInt8)} (h : List.Forall₂ Encodes fields encoded) :
    (∀ item ∈ encoded.map line, item ∈ lines) ↔ ∀ field ∈ fields, HasField lines field := by
  induction h with
  | nil => exact iff_of_true (List.forall_mem_nil _) (List.forall_mem_nil _)
  | cons hfirst _ ih => rw [List.map_cons, List.forall_mem_cons, List.forall_mem_cons,
      hasField_iff hfirst, ih]

theorem exists_encodes_of_mem {fields : List (Text × FieldValue)}
    {encoded : List (List UInt8 × List UInt8)} (h : List.Forall₂ Encodes fields encoded)
    {bytes : List UInt8 × List UInt8} (hbytes : bytes ∈ encoded) :
    ∃ field ∈ fields, Encodes field bytes := by
  induction h with
  | nil => cases hbytes
  | @cons field first _ _ hfirst _ ih =>
    rcases List.mem_cons.mp hbytes with rfl | hrest
    · exact ⟨field, List.mem_cons_self, hfirst⟩
    · obtain ⟨other, hother, hencodes⟩ := ih hrest
      exact ⟨other, List.mem_cons_of_mem field hother, hencodes⟩

theorem exists_mem_of_encodes {fields : List (Text × FieldValue)}
    {encoded : List (List UInt8 × List UInt8)} (h : List.Forall₂ Encodes fields encoded)
    {field : Text × FieldValue} (hfield : field ∈ fields) :
    ∃ bytes ∈ encoded, Encodes field bytes := by
  induction h with
  | nil => cases hfield
  | @cons first bytes _ _ hfirst _ ih =>
    rcases List.mem_cons.mp hfield with rfl | hrest
    · exact ⟨bytes, List.mem_cons_self, hfirst⟩
    · obtain ⟨other, hother, hencodes⟩ := ih hrest
      exact ⟨other, List.mem_cons_of_mem bytes hother, hencodes⟩

/-- The lines of fields with distinct names are about distinct fields. -/
theorem nodup_matchName {fields : List (Text × FieldValue)}
    {encoded : List (List UInt8 × List UInt8)} (h : List.Forall₂ Encodes fields encoded)
    (hnames : ∀ field ∈ fields, equals ∉ field.1) (hnodup : (fields.map Prod.fst).Nodup) :
    ((encoded.map line).map matchName).Nodup := by
  induction h with
  | nil => exact List.nodup_nil
  | @cons field bytes fields encoded hfield hrest ih =>
    obtain ⟨hname, hnames⟩ := List.forall_mem_cons.mp hnames
    obtain ⟨hnew, hnodup⟩ := List.nodup_cons.mp hnodup
    refine List.nodup_cons.mpr ⟨fun hmem ↦ hnew ?_, ih hnames hnodup⟩
    rw [List.map_map, List.mem_map] at hmem
    obtain ⟨other, hother, hsame⟩ := hmem
    obtain ⟨otherField, hotherField, hencodes⟩ := exists_encodes_of_mem hrest hother
    have hbytes : other.1 = bytes.1 := by
      rw [← matchName_line (delimiter_not_mem_of_encodes hfield hname), ← hsame]
      have hotherName := hnames otherField hotherField
      exact (matchName_line (delimiter_not_mem_of_encodes hencodes hotherName)).symm
    have hdecode := decodeUtf8_encodeUtf8 hencodes.name
    rw [hbytes, decodeUtf8_encodeUtf8 hfield.name] at hdecode
    rw [Option.some.inj hdecode]
    exact List.mem_map_of_mem hotherField

/-- Steps that add something and combine nothing. -/
structure Combines (steps : List FilterStep) : Prop where
  no_flush : .flush ∉ steps
  no_conjunction : .conjunction ∉ steps
  adds : Adds steps

theorem combines_add {added : List (List UInt8)} (h : added ≠ []) : Combines (added.map .add) where
  no_flush := by simp
  no_conjunction := by simp
  adds := adds_map_add h

theorem Combines.disjunction {before after : List FilterStep} (hbefore : Combines before)
    (hafter : Combines after) : Combines (before ++ .disjunction :: after) where
  no_flush := by simp [hbefore.no_flush, hafter.no_flush]
  no_conjunction := by simp [hbefore.no_conjunction, hafter.no_conjunction]
  adds := hbefore.adds.append_left _

variable {selects : Matching}

/-- The steps of one query. -/
theorem query_steps (documented : DocumentedMatching selects) {query : Query}
    {steps : List FilterStep}
    (h : steps.map .ok = addRequests [] query.fields) (lines : List (List UInt8)) :
    Combines steps ∧
      (selects steps lines ↔ ∀ field ∈ query.fields.items, HasField lines field) := by
  obtain ⟨encoded, hencoded, rfl⟩ := exists_encoded_of_addRequests h
  have hne : encoded.map line ≠ [] := by
    intro hnil
    obtain rfl := List.map_eq_nil_iff.mp hnil
    exact query.nonempty (List.forall₂_nil_right_iff.mp hencoded)
  have hnames : ∀ field ∈ query.fields.items, equals ∉ field.1 :=
    fun field hfield ↦ query.no_equals field.1 (List.mem_map_of_mem hfield)
  refine ⟨combines_add hne, ?_⟩
  rw [(documented lines).map_add,
    groupHolds_iff_of_nodup (nodup_matchName hencoded hnames query.fields.nodup),
    forall_mem_lines_iff hencoded]

/-! ### Filters of queries -/

/-- Calls for entries that some of the queries describes. -/
def anyOf : List Query → List FilterCall
  | [] => []
  | [query] => [.addMatch [] query.fields]
  | query :: queries => .addMatch [] query.fields :: .addDisjunction :: anyOf queries

/-- Calls for entries that every one of the parts describes by some of its queries. -/
def allOf : List (List Query) → List FilterCall
  | [] => []
  | [part] => anyOf part
  | part :: parts => anyOf part ++ .addConjunction :: allOf parts

/-- Some query describes the lines. -/
def DescribedBy (lines : List (List UInt8)) (queries : List Query) : Prop :=
  ∃ query ∈ queries, ∀ field ∈ query.fields.items, HasField lines field

variable {host : Host}

theorem anyOf_steps (documented : DocumentedMatching selects) {queries : List Query}
    (hne : queries ≠ []) {steps : List FilterStep}
    (h : steps.map .ok = (anyOf queries).flatMap (FilterCall.requests host))
    (lines : List (List UInt8)) :
    Combines steps ∧ (selects steps lines ↔ DescribedBy lines queries) := by
  induction queries generalizing steps with
  | nil => exact absurd rfl hne
  | cons query queries ih =>
    cases queries with
    | nil =>
      have hquery : steps.map .ok = addRequests [] query.fields := h.trans (List.append_nil _)
      obtain ⟨hcombines, hselects⟩ := query_steps documented hquery lines
      refine ⟨hcombines, hselects.trans ?_⟩
      unfold DescribedBy
      simp only [List.mem_singleton, exists_eq_left]
    | cons second queries =>
      have hsplit : steps.map .ok = addRequests [] query.fields ++ .ok .disjunction ::
          (anyOf (second :: queries)).flatMap (FilterCall.requests host) := h
      obtain ⟨first, rest, rfl, hfirst, hrest⟩ := List.map_eq_append_iff.mp hsplit
      obtain ⟨step, others, rfl, hstep, hothers⟩ := List.map_eq_cons_iff.mp hrest
      obtain rfl := Except.ok.inj hstep
      obtain ⟨hfirstCombines, hfirstSelects⟩ := query_steps documented hfirst lines
      obtain ⟨hcombines, hselects⟩ := ih (List.cons_ne_nil _ _) hothers
      refine ⟨hfirstCombines.disjunction hcombines, ?_⟩
      have hor : selects (first ++ .disjunction :: others) lines ↔
          selects first lines ∨ selects others lines :=
        (documented lines).append_disjunction ⟨hfirstCombines.no_flush, hcombines.no_flush⟩
          ⟨hfirstCombines.no_conjunction, hcombines.no_conjunction⟩
          ⟨hfirstCombines.adds, hcombines.adds⟩
      rw [hor, hfirstSelects, hselects]
      exact (List.exists_mem_cons_iff
        (fun query : Query ↦ ∀ field ∈ query.fields.items, HasField lines field) _ _).symm

theorem allOf_steps (documented : DocumentedMatching selects) {parts : List (List Query)}
    (hne : ∀ part ∈ parts, part ≠ [])
    {steps : List FilterStep}
    (h : steps.map .ok = (allOf parts).flatMap (FilterCall.requests host))
    (lines : List (List UInt8)) :
    .flush ∉ steps ∧ (selects steps lines ↔ ∀ part ∈ parts, DescribedBy lines part) := by
  induction parts generalizing steps with
  | nil =>
    obtain rfl : steps = [] := List.map_eq_nil_iff.mp h
    exact ⟨List.not_mem_nil, iff_of_true (documented lines).nil (List.forall_mem_nil _)⟩
  | cons part parts ih =>
    obtain ⟨hpart, hparts⟩ := List.forall_mem_cons.mp hne
    cases parts with
    | nil =>
      obtain ⟨hcombines, hselects⟩ := anyOf_steps documented hpart h lines
      exact ⟨hcombines.no_flush, hselects.trans List.forall_mem_singleton.symm⟩
    | cons second parts =>
      have hsplit : steps.map .ok = (anyOf part).flatMap (FilterCall.requests host) ++
          .ok .conjunction :: (allOf (second :: parts)).flatMap (FilterCall.requests host) := by
        rw [h, allOf, List.flatMap_append, List.flatMap_cons]
        · rfl
        · exact List.cons_ne_nil _ _
      obtain ⟨first, rest, rfl, hfirst, hrest⟩ := List.map_eq_append_iff.mp hsplit
      obtain ⟨step, others, rfl, hstep, hothers⟩ := List.map_eq_cons_iff.mp hrest
      obtain rfl := Except.ok.inj hstep
      obtain ⟨hcombines, hfirstSelects⟩ := anyOf_steps documented hpart hfirst lines
      obtain ⟨hflush, hselects⟩ := ih hparts hothers
      refine ⟨by simp [hcombines.no_flush, hflush], ?_⟩
      have hand : selects (first ++ .conjunction :: others) lines ↔
          selects first lines ∧ selects others lines :=
        (documented lines).append_conjunction hflush
      rw [hand, hfirstSelects, hselects, List.forall_mem_cons (a := part)]

/-! ### Entries that were sent -/

variable {caller : StackFrame} {call : SendCall}

/-- The call supplies a field of this name with the same bytes. -/
def Supplies (caller : StackFrame) (call : SendCall) (field : Text × FieldValue) : Prop :=
  ∃ sent ∈ supplied MessageId.id caller call,
    sent.1 = field.1 ∧ sent.2.encoded = field.2.encoded

/-- The lines of a call have one for a field exactly when the call supplies the field, where no
other field that it supplies has the same line. -/
theorem hasField_iff_supplies {sendv : List (List UInt8) → ℤ} {lines : List (List UInt8)}
    (hlines : (send caller call sendv).handed = some lines) {field : Text × FieldValue}
    (hsplit : ∀ sent ∈ supplied MessageId.id caller call, ∀ {other bytes}, Encodes sent other →
      Encodes field bytes → line other = line bytes → other = bytes) :
    HasField lines field ↔ Supplies caller call field := by
  obtain ⟨encoded, hencoded, rfl⟩ := (handed_send_iff caller call sendv).mp hlines
  constructor
  · rintro ⟨bytes, hbytes, hmem⟩
    obtain ⟨other, hother, hline⟩ := List.mem_map.mp hmem
    obtain ⟨sent, hsent, hsentBytes⟩ := exists_encodes_of_mem hencoded hother
    obtain rfl := hsplit sent hsent hsentBytes hbytes hline
    have hsame := (decodeUtf8_encodeUtf8 hsentBytes.name).symm.trans
      (decodeUtf8_encodeUtf8 hbytes.name)
    exact ⟨sent, hsent, Option.some.inj hsame, hsentBytes.value.trans hbytes.value.symm⟩
  · rintro ⟨sent, hsent, hsame, hvalue⟩
    obtain ⟨bytes, hbytes, hencodes⟩ := exists_mem_of_encodes hencoded hsent
    refine ⟨bytes, ⟨?_, ?_⟩, List.mem_map_of_mem hbytes⟩
    · rw [← hsame, hencodes.name]
    · rw [← hvalue, hencodes.value]

theorem hasField_iff_supplies_of_names {sendv : List (List UInt8) → ℤ} {lines : List (List UInt8)}
    (hcall : ∀ name ∈ call.kwargs.keys, equals ∉ name)
    (hlines : (send caller call sendv).handed = some lines) {field : Text × FieldValue}
    (hname : equals ∉ field.1) : HasField lines field ↔ Supplies caller call field := by
  have hsupplied := equals_not_mem_supplied MessageId.id caller hcall
  refine hasField_iff_supplies hlines fun sent hsent _ _ hother hbytes hline ↦ ?_
  exact line_injective (delimiter_not_mem_of_encodes hother (hsupplied sent hsent))
    (delimiter_not_mem_of_encodes hbytes hname) hline

/-- A filter is flushed and built anew of queries, and every call returns. It then selects what was
sent exactly when in every part there is a query all of whose fields the call of `send` supplies,
whatever the filter was before. -/
theorem selects_allOf_iff (documented : DocumentedMatching selects) (library : FilterLibrary)
    (host : Host) (before : List FilterStep)
    (parts : List (List Query)) (hparts : ∀ part ∈ parts, part ≠ [])
    (hreturned : ∀ result ∈ (runFilter library host (.flushMatches :: allOf parts) before).1,
      result = .ok ())
    (caller : StackFrame) (call : SendCall) (hcall : ∀ name ∈ call.kwargs.keys, equals ∉ name)
    (sendv : List (List UInt8) → ℤ) {lines : List (List UInt8)}
    (hlines : (send caller call sendv).handed = some lines) :
    selects (runFilter library host (.flushMatches :: allOf parts) before).2 lines ↔
      ∀ part ∈ parts, ∃ query ∈ part, ∀ field ∈ query.fields.items, Supplies caller call field := by
  obtain ⟨taken, hrun, htaken⟩ := exists_steps_of_returned library host hreturned
  obtain ⟨step, steps, rfl, hstep, hsteps⟩ := List.map_eq_cons_iff.mp htaken
  obtain rfl := Except.ok.inj hstep
  obtain ⟨hflush, hselects⟩ := allOf_steps documented hparts hsteps lines
  have hflushed : selects (before ++ .flush :: steps) lines ↔ selects steps lines :=
    (documented lines).append_flush hflush
  have hquery : ∀ query : Query, (∀ field ∈ query.fields.items, HasField lines field) ↔
      ∀ field ∈ query.fields.items, Supplies caller call field := by
    intro query
    refine forall₂_congr fun field hfield ↦ ?_
    exact hasField_iff_supplies_of_names hcall hlines
      (query.no_equals field.1 (List.mem_map_of_mem hfield))
  rw [hrun, hflushed, hselects]
  unfold DescribedBy
  simp only [hquery]

/-- A matching that cuts the list of the steps. -/
def cutMatching : Matching := fun steps lines ↦
  Accepts matchName (· ∈ lines) steps

theorem documented_cutMatching : DocumentedMatching cutMatching :=
  fun _ ↦ rules_accepts

theorem equals_not_mem_binary {value : FieldValue} :
    ∀ name ∈ (keyword "BINARY" value).keys, equals ∉ name := by
  intro name hname
  obtain rfl := List.mem_singleton.mp hname
  have hbinary : equals ∉ Text.ofString "BINARY" := by decide
  exact hbinary

/-- A query for one field, whose name is one of a call. -/
def sampleQuery (value : FieldValue) : Query where
  fields := keyword "BINARY" value
  nonempty := List.cons_ne_nil _ _
  no_equals := equals_not_mem_binary

/-- One query that the call does not meet, or another that it does. -/
def sampleParts : List (List Query) :=
  [[sampleQuery (.bytes [1]), sampleQuery (.bytes [0, 61, 10])]]

def sampleHost : Host where
  getBoot := .error (.osError ENOENT none)
  getMachine := .error (.osError ENOENT none)

theorem selects_allOf_sample :
    ∃ lines, (send sampleFrame uuidCall fun _ ↦ 0).handed = some lines ∧
      (cutMatching
          (runFilter (fun _ _ ↦ 0) sampleHost (.flushMatches :: allOf sampleParts) []).2 lines ↔
        ∀ part ∈ sampleParts, ∃ query ∈ part, ∀ field ∈ query.fields.items,
          Supplies sampleFrame uuidCall field) := by
  have hhanded : (send sampleFrame uuidCall fun _ ↦ 0).handed ≠ none := by decide
  have hreturned : ∀ result ∈
      (runFilter (fun _ _ ↦ 0) sampleHost (.flushMatches :: allOf sampleParts) []).1,
      result = .ok () := by
    decide +kernel
  have hparts : ∀ part ∈ sampleParts, part ≠ [] :=
    List.forall_mem_singleton.mpr (List.cons_ne_nil _ _)
  obtain ⟨lines, hlines⟩ := Option.ne_none_iff_exists'.mp hhanded
  exact ⟨lines, hlines, selects_allOf_iff documented_cutMatching (fun _ _ ↦ 0) sampleHost []
    sampleParts hparts hreturned sampleFrame uuidCall (by decide) (fun _ ↦ 0) hlines⟩

end PythonSystemd.Journal
