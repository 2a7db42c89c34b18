import Phaze.Matching.Readings

set_option autoImplicit false

/-!
# The relation of two dates

When the relation that the comparison gives agrees with what the two texts mean.
-/

namespace Phaze.Matching

open Phaze.Calendar Phaze.Percent Phaze.Unicode
open Phaze.Tracklist (Certainty Fact Text)

structure DateSound (recording subject : Fact) (recordingKind subjectKind : DateKind) : Prop where
  exact : (compareDate recording subject recordingKind subjectKind).relation = .exact →
    (compareDate recording subject recordingKind subjectKind).precision = some .day →
    ∃ day, ∀ days, (Reads recording days ↔ days = {day}) ∧ (Reads subject days ↔ days = {day})
  contradictory : (compareDate recording subject recordingKind subjectKind).relation = .contradictory →
    ∀ mine theirs, Reads recording mine → Reads subject theirs → Disjoint mine theirs
  agreed : recording.certainty = .known → subject.certainty = .known → recordingKind = .performance → subjectKind = .performance →
    ∀ left right day, recording.value = some left → subject.value = some right → fromIsoFormat left = some day →
      fromIsoFormat right = some day → (compareDate recording subject recordingKind subjectKind).relation = .exact

-- A year or a month in digits outside ASCII, with the date in it.
def Foreign (left : Text) (date : Date) : Prop :=
  (∃ year month, isoGroups (shown left) = some (year, month, none)) ∧ (∃ days, Reading (shown left) days ∧ date.ordinal ∈ days) ∧
    ∃ point ∈ shown left, isAsciiDigit point = false ∧ point ≠ hyphen

-- Of two known performance dates, those that mean one day are in the extended form, and none is foreign around the other.
def Comparable (recording subject : Fact) (recordingKind subjectKind : DateKind) : Prop :=
  recording.certainty = .known → subject.certainty = .known → recordingKind = .performance → subjectKind = .performance →
    ∀ left right, recording.value = some left → left ≠ [] → subject.value = some right →
      (∀ day, fromIsoFormat left = some day → fromIsoFormat right = some day → Extended left ∧ Extended right) ∧
      ∀ date : Date, right = date.isoFormat → ¬ Foreign left date

/-! ## The branches -/

variable {recording subject : Fact} {recordingKind subjectKind : DateKind}

def Overlap (recording subject : Fact) (precision : DatePrecision) : Prop :=
  ∃ value ∈ (interpret recording).values, ∃ other ∈ (interpret subject).values, truncate value precision = truncate other precision

theorem all_apart_iff {precision : DatePrecision} {values others : List Text} :
    ((values.map (truncate · precision)).all fun value => decide (value ∉ others.map (truncate · precision))) = true ↔
      ¬ ∃ value ∈ values, ∃ other ∈ others, truncate value precision = truncate other precision := by
  simp only [List.all_map, List.all_eq_true, Function.comp_apply, decide_eq_true_eq, List.mem_map, not_exists, not_and]
  constructor
  · intro apart value member other inside same
    exact apart value member other inside same.symm
  · intro apart value member other inside same
    exact apart value member other inside same.symm

-- The comparison of two dates that are read.
structure Compared (recording subject : Fact) (recordingKind subjectKind : DateKind) (precision : DatePrecision) : Prop where
  recorded : present recording = true
  subjected : present subject = true
  filled : (interpret recording).values ≠ []
  filled' : (interpret subject).values ≠ []
  coarse : ∃ precise other, (interpret recording).precision = some precise ∧ (interpret subject).precision = some other ∧
    coarser precise other = precision
  relation : (compareDate recording subject recordingKind subjectKind).relation =
    relate recording subject recordingKind subjectKind (interpret recording)
      ((interpret recording).values.map (truncate · precision)) ((interpret subject).values.map (truncate · precision))
  precision : (compareDate recording subject recordingKind subjectKind).precision = some precision

theorem compareDate_compared {precise other : DatePrecision} (recorded : present recording = true) (subjected : present subject = true)
    (filled : (interpret recording).values ≠ []) (filled' : (interpret subject).values ≠ [])
    (mine : (interpret recording).precision = some precise) (theirs : (interpret subject).precision = some other) :
    Compared recording subject recordingKind subjectKind (coarser precise other) := by
  have calm (fact : Fact) (holds : present fact = true) : ¬ fact.certainty = .conflicting := by
    intro conflicting
    simp [present, conflicting] at holds
  have conflicting : ¬ (recording.certainty = .conflicting ∨ subject.certainty = .conflicting) := by
    rintro (left | right)
    · exact calm recording recorded left
    · exact calm subject subjected right
  have missing : ¬ (!(present recording && present subject) || (interpret recording).values.isEmpty ||
      (interpret subject).values.isEmpty) = true := by
    simp [recorded, subjected, filled, filled']
  have decided := compareDate.eq_1 recording subject recordingKind subjectKind
  simp only [if_neg conflicting, if_neg missing, mine, theirs] at decided
  exact
    { recorded, subjected, filled, filled', coarse := ⟨precise, other, mine, theirs, rfl⟩
      relation := by rw [decided]
      precision := by rw [decided] }

theorem compareDate_decided
    (decides : (compareDate recording subject recordingKind subjectKind).relation = .exact ∨
      (compareDate recording subject recordingKind subjectKind).relation = .contradictory) :
    ∃ precision, Compared recording subject recordingKind subjectKind precision := by
  have other {relation : DateRelation} (same : (compareDate recording subject recordingKind subjectKind).relation = relation)
      (apart : relation ≠ .exact ∧ relation ≠ .contradictory) : False := by
    obtain exact_ | contradictory := decides
    · exact apart.1 (same.symm.trans exact_)
    · exact apart.2 (same.symm.trans contradictory)
  have unfolded := compareDate.eq_1 recording subject recordingKind subjectKind
  simp only at unfolded
  split at unfolded
  next => exact (other (congrArg DateEvidence.relation unfolded) (by simp)).elim
  next =>
  split at unfolded
  next => exact (other (congrArg DateEvidence.relation unfolded) (by simp)).elim
  next readable =>
  split at unfolded
  next precise other' mine theirs =>
    simp only [Bool.or_eq_true, Bool.not_eq_true', Bool.and_eq_false_iff, List.isEmpty_iff, not_or, Bool.not_eq_false] at readable
    exact ⟨_, compareDate_compared readable.1.1.1 readable.1.1.2 readable.1.2 readable.2 mine theirs⟩
  next => exact (other (congrArg DateEvidence.relation unfolded) (by simp)).elim

theorem relate_exact {mine : Dates} {ours others : List Text}
    (exact_ : relate recording subject recordingKind subjectKind mine ours others = .exact) :
    ¬ (ours.all fun value => value ∉ others) = true ∧ mine.ambiguous = false ∧ recording.certainty = .known ∧
      subject.certainty = .known := by
  unfold relate at exact_
  split at exact_
  next =>
    split at exact_
    next => cases exact_
    next => split at exact_ <;> cases exact_
  next meets =>
    split at exact_
    next => cases exact_
    next clear =>
    split at exact_
    next => cases exact_
    next =>
    split at exact_
    next => cases exact_
    next certain => exact ⟨meets, by simpa using clear, by simpa using certain⟩

theorem relate_contradictory {mine : Dates} {ours others : List Text}
    (contradictory : relate recording subject recordingKind subjectKind mine ours others = .contradictory) :
    (ours.all fun value => value ∉ others) = true ∧ mine.ambiguous = false ∧ recording.certainty = .known ∧
      subject.certainty = .known ∧ recordingKind = .performance ∧ subjectKind = .performance := by
  unfold relate at contradictory
  split at contradictory
  next apart =>
    split at contradictory
    next both => exact ⟨apart, both.2.2.1, both.1, both.2.1, both.2.2.2⟩
    next => split at contradictory <;> cases contradictory
  next =>
    split at contradictory
    next => cases contradictory
    next =>
      split at contradictory
      next => cases contradictory
      next => split at contradictory <;> cases contradictory

/-! ## Texts -/

theorem interpret_some {fact : Fact} {value : Text} (held : fact.value = some value) (filled : value ≠ []) :
    interpret fact = interpretText (shown value) := by
  rw [interpret, held]
  exact if_neg filled

theorem reads_iff {fact : Fact} {value : Text} (held : fact.value = some value) (filled : value ≠ []) (days : Set Nat) :
    Reads fact days ↔ Reading (shown value) days := by
  constructor
  · rintro ⟨other, same, -, reading⟩
    rwa [Option.some.inj (held.symm.trans same)]
  · exact fun reading => ⟨value, held, filled, reading⟩

theorem present_value {fact : Fact} (holds : present fact = true) : ∃ value, fact.value = some value ∧ value ≠ [] := by
  cases held : fact.value with
  | none => simp [present, held] at holds
  | some value =>
    refine ⟨value, rfl, ?_⟩
    rintro rfl
    simp [present, held] at holds

theorem present_known {fact : Fact} {value : Text} (known : fact.certainty = .known) (held : fact.value = some value) (filled : value ≠ []) :
    present fact = true := by
  simp [present, known, held, filled]

theorem length_isoFormat (date : Date) : date.isoFormat.length = 10 := by simp [Date.isoFormat]

theorem isoFormat_points {date : Date} {point : CodePoint} (member : point ∈ date.isoFormat) :
    isAsciiDigit point = true ∨ point = hyphen := by
  simp only [Date.isoFormat, List.mem_append, List.mem_cons] at member
  obtain inside | rfl | inside | rfl | inside := member
  · exact .inl (ascii_fixed inside)
  · exact .inr rfl
  · exact .inl (ascii_fixed inside)
  · exact .inr rfl
  · exact .inl (ascii_fixed inside)

theorem truncate_day (date : Date) : truncate date.isoFormat .day = date.isoFormat :=
  List.take_of_length_le (Nat.le_of_eq (length_isoFormat date))

theorem truncate_month (date : Date) : truncate date.isoFormat .month = fixed 4 date.year ++ hyphen :: fixed 2 date.month := by
  have split : date.isoFormat = (fixed 4 date.year ++ hyphen :: fixed 2 date.month) ++ hyphen :: fixed 2 date.day := by
    simp [Date.isoFormat]
  rw [truncate, split, List.take_left' (by simp [DatePrecision.width])]

theorem truncate_year (date : Date) : truncate date.isoFormat .year = fixed 4 date.year := take_fixed 4 date.year _

theorem interpretText_month {text : Text} {values : List Text} {ambiguous : Bool}
    (precise : interpretText text = { values, precision := some .month, ambiguous }) :
    values = [text] ∧ ∃ year month, isoGroups text = some (year, some month, none) ∧ 1 ≤ int month ∧ int month ≤ 12 := by
  unfold interpretText at precise
  split at precise
  next => simp at precise
  next year month groups =>
    split at precise
    next known =>
      simp only [Dates.mk.injEq, true_and] at precise
      exact ⟨precise.1.symm, year, month, groups, known⟩
    next => simp [unread] at precise
  next => simp at precise
  next => split at precise <;> simp [unread] at precise

theorem interpretText_year {text : Text} {values : List Text} {ambiguous : Bool}
    (precise : interpretText text = { values, precision := some .year, ambiguous }) :
    values = [text] ∧ ∃ year, isoGroups text = some (year, none, none) := by
  unfold interpretText at precise
  split at precise
  next => simp at precise
  next => split at precise <;> simp [unread] at precise
  next year groups =>
    simp only [Dates.mk.injEq, true_and] at precise
    exact ⟨precise.1.symm, year, groups⟩
  next => split at precise <;> simp [unread] at precise

-- In ASCII, the digits of a group are those of its number.
theorem digits_ascii {width : Nat} {text : Text} (digits : isDigits (width + 1) text = true)
    (ascii : ∀ point ∈ text, isAsciiDigit point = true) : text = fixed (width + 1) (int text) := by
  obtain ⟨same, narrow⟩ := fixed_readDigits ascii
  rw [(isDigits_iff.mp digits).1] at same narrow
  rw [same, int_fixed narrow]

-- A known date of a subject that is read at all is in the extended form.
theorem extended_of_read {fact : Fact} {value : Text} {day : Nat} (held : fact.value = some value) (filled : value ≠ [])
    (standard : fromIsoFormat value = some day) (read : (interpret fact).values ≠ []) : ∃ date : Date, value = date.isoFormat := by
  rw [interpret_some held filled, shown_standard standard] at read
  by_contra other
  have ungrouped : ¬ Grouped value := fun grouped => by
    obtain ⟨date, same, -⟩ := grouped_extended standard grouped
    exact other ⟨date, same⟩
  rw [interpretText_ungrouped ungrouped] at read
  exact read rfl

theorem isoFormat_ne_nil (date : Date) : date.isoFormat ≠ [] := fun empty => by
  have length := length_isoFormat date
  rw [empty] at length
  cases length

theorem interpret_extended {fact : Fact} {date : Date} (held : fact.value = some date.isoFormat) :
    interpret fact = { values := [date.isoFormat], precision := some .day, ambiguous := false } := by
  rw [interpret_some held (isoFormat_ne_nil date), shown_standard (fromIsoFormat_isoFormat date), interpretText_isoFormat]

theorem reads_extended {fact : Fact} {date : Date} (held : fact.value = some date.isoFormat) (days : Set Nat) :
    Reads fact days ↔ days = {date.ordinal} := by
  rw [reads_iff held (isoFormat_ne_nil date), shown_standard (fromIsoFormat_isoFormat date)]
  exact reading_of_groups (isoGroups_isoFormat date) (date?_isoFormat date) days

/-! ## Both directions -/

-- As the checks of a snapshot ask of its date.
def Dated (fact : Fact) : Prop :=
  fact.certainty = .known → ∃ value, fact.value = some value ∧ value ≠ [] ∧ (fromIsoFormat value).isSome = true

theorem compared_extended (dated : Dated subject) {precision : DatePrecision} (known : subject.certainty = .known)
    (compared : Compared recording subject recordingKind subjectKind precision) :
    ∃ date : Date, subject.value = some date.isoFormat := by
  obtain ⟨value, held, filled, standard⟩ := dated known
  obtain ⟨day, read⟩ := Option.isSome_iff_exists.mp standard
  obtain ⟨date, rfl⟩ := extended_of_read held filled read compared.filled'
  exact ⟨date, held⟩

theorem coarser_day {precise : DatePrecision} : coarser precise .day = precise := by
  cases precise <;> rfl

theorem dates_eta {dates : Dates} {precise : DatePrecision} (precision : dates.precision = some precise) :
    dates = { values := dates.values, precision := some precise, ambiguous := dates.ambiguous } := by
  rw [← precision]

-- Against an extended date, the precision is that of the recording.
theorem compared_precision {precision : DatePrecision} {date : Date} (held : subject.value = some date.isoFormat)
    (compared : Compared recording subject recordingKind subjectKind precision) : (interpret recording).precision = some precision := by
  obtain ⟨precise, other, mine, theirs, rfl⟩ := compared.coarse
  rw [interpret_extended held] at theirs
  rw [mine, ← Option.some.inj theirs, coarser_day]

theorem apart_extended {precision : DatePrecision} {date : Date} (held : subject.value = some date.isoFormat) :
    (((interpret recording).values.map (truncate · precision)).all fun value =>
      value ∉ (interpret subject).values.map (truncate · precision)) = true ↔
      ∀ value ∈ (interpret recording).values, truncate value precision ≠ truncate date.isoFormat precision := by
  rw [all_apart_iff, interpret_extended held]
  simp

theorem exact_day (dated : Dated subject) (exact_ : (compareDate recording subject recordingKind subjectKind).relation = .exact)
    (daily : (compareDate recording subject recordingKind subjectKind).precision = some .day) :
    ∃ day, ∀ days, (Reads recording days ↔ days = {day}) ∧ (Reads subject days ↔ days = {day}) := by
  obtain ⟨precision, compared⟩ := compareDate_decided (.inl exact_)
  obtain rfl : precision = .day := Option.some.inj (compared.precision.symm.trans daily)
  obtain ⟨meets, clear, -, known⟩ := relate_exact (compared.relation.symm.trans exact_)
  obtain ⟨date, held⟩ := compared_extended dated known compared
  obtain ⟨left, written, filled⟩ := present_value compared.recorded
  have whole := dates_eta (compared_precision held compared)
  rw [apart_extended held] at meets
  rw [clear, interpret_some written filled] at whole
  rw [interpret_some written filled] at meets
  obtain empty | ⟨date', values, reading⟩ := interpretText_day whole
  · rw [empty] at meets
    exact absurd (fun value member => absurd member List.not_mem_nil) meets
  · obtain rfl : date' = date := by
      by_contra other
      apply meets
      intro value member
      rw [values] at member
      rw [List.mem_singleton.mp member, truncate_day, truncate_day]
      exact fun same => other (isoFormat_injective same)
    exact ⟨date'.ordinal, fun days => ⟨(reads_iff written filled days).trans (reading days), reads_extended held days⟩⟩

-- What a year or a month in ASCII is, its date has at its front.
theorem coarse_apart {left : Text} {date : Date} (comparable : ¬ Foreign left date) {days : Set Nat} (reading : Reading (shown left) days)
    (inside : date.ordinal ∈ days) {year : Text} {month : Option Text} (groups : isoGroups (shown left) = some (year, month, none)) :
    shown left = truncate date.isoFormat (if month.isSome then .month else .year) := by
  have ascii : ∀ point ∈ shown left, isAsciiDigit point = true ∨ point = hyphen := by
    intro point member
    by_contra foreign
    rw [not_or, Bool.not_eq_true] at foreign
    exact comparable ⟨⟨year, month, groups⟩, ⟨days, reading, inside⟩, point, member, foreign⟩
  have digits {width : Nat} {group : Text} (decimal : isDigits (width + 1) group = true) (part : ∀ point ∈ group, point ∈ shown left) :
      group = fixed (width + 1) (int group) := by
    apply digits_ascii decimal
    intro point member
    refine (ascii point (part point member)).resolve_right ?_
    rintro rfl
    exact absurd (isDigits_points decimal member) (by decide)
  cases month with
  | none =>
    obtain ⟨same, decimal⟩ := isoGroups_year groups
    rw [(reading_of_year groups days).mp reading] at inside
    obtain ⟨other, ofYear, ordinal⟩ := inside
    obtain rfl := Date.ordinal_injective ordinal
    rw [if_neg (by simp), truncate_year, ofYear, same]
    exact digits decimal fun point member => same ▸ member
  | some month =>
    obtain ⟨same, decimal, decimal'⟩ := isoGroups_month groups
    have known := reading_known groups reading
    rw [(reading_of_month groups known days).mp reading] at inside
    obtain ⟨other, ofYear, ofMonth, ordinal⟩ := inside
    obtain rfl := Date.ordinal_injective ordinal
    rw [Option.isSome_some, if_pos rfl, truncate_month, ofYear, ofMonth, ← digits decimal fun point member => same ▸ List.mem_append_left _ member,
      ← digits decimal' fun point member => same ▸ List.mem_append_right _ (List.mem_cons_of_mem _ member)]
    exact same

theorem contradictory_disjoint (dated : Dated subject) (comparable : Comparable recording subject recordingKind subjectKind)
    (contradictory : (compareDate recording subject recordingKind subjectKind).relation = .contradictory) (mine theirs : Set Nat)
    (read : Reads recording mine) (read' : Reads subject theirs) : Disjoint mine theirs := by
  obtain ⟨precision, compared⟩ := compareDate_decided (.inr contradictory)
  obtain ⟨apart, clear, known, known', kind, kind'⟩ := relate_contradictory (compared.relation.symm.trans contradictory)
  obtain ⟨date, held⟩ := compared_extended dated known' compared
  obtain ⟨left, written, filled⟩ := present_value compared.recorded
  have near := (comparable known known' kind kind' left _ written filled held).2 date rfl
  have whole := dates_eta (compared_precision held compared)
  rw [reads_iff written filled] at read
  rw [(reads_extended held theirs).mp read', Set.disjoint_singleton_right]
  intro inside
  rw [apart_extended held, interpret_some written filled] at apart
  rw [clear, interpret_some written filled] at whole
  cases precision with
  | day =>
    obtain empty | ⟨date', values, reading⟩ := interpretText_day whole
    · exact compared.filled (interpret_some written filled ▸ empty)
    · rw [(reading mine).mp read] at inside
      obtain rfl := Date.ordinal_injective inside
      exact apart _ (values ▸ List.mem_singleton_self _) rfl
  | month =>
    obtain ⟨values, year, month, groups, -⟩ := interpretText_month whole
    have front := coarse_apart near read inside groups
    apply apart (shown left) (values ▸ List.mem_singleton_self _)
    rw [front]
    simp [truncate, List.take_take]
  | year =>
    obtain ⟨values, year, groups⟩ := interpretText_year whole
    have front := coarse_apart near read inside groups
    apply apart (shown left) (values ▸ List.mem_singleton_self _)
    rw [front]
    simp [truncate, List.take_take]

theorem agreed_exact (comparable : Comparable recording subject recordingKind subjectKind) (known : recording.certainty = .known)
    (known' : subject.certainty = .known) (kind : recordingKind = .performance) (kind' : subjectKind = .performance) {left right : Text}
    {day : Nat} (written : recording.value = some left) (held : subject.value = some right) (read : fromIsoFormat left = some day)
    (read' : fromIsoFormat right = some day) : (compareDate recording subject recordingKind subjectKind).relation = .exact := by
  have filled : left ≠ [] := by
    rintro rfl
    cases read
  obtain ⟨⟨date, rfl⟩, ⟨date', rfl⟩⟩ := (comparable known known' kind kind' left right written filled held).1 day read read'
  rw [fromIsoFormat_isoFormat] at read read'
  obtain rfl := Date.ordinal_injective (Option.some.inj (read.trans read'.symm))
  have mine := interpret_extended written
  have theirs := interpret_extended held
  have compared : Compared recording subject recordingKind subjectKind (coarser .day .day) :=
    compareDate_compared (present_known known written filled) (present_known known' held filled) (by rw [mine]; simp) (by rw [theirs]; simp)
      (by rw [mine]) (by rw [theirs])
  rw [compared.relation, mine, theirs, relate, if_neg (by simp), if_neg (by simp), if_neg (by simp [kind, kind']),
    if_neg (by simp [known, known'])]

theorem foreign_contradictory (known : recording.certainty = .known) (known' : subject.certainty = .known)
    (kind : recordingKind = .performance) (kind' : subjectKind = .performance) {left : Text} (filled : left ≠ []) {date : Date}
    (written : recording.value = some left) (held : subject.value = some date.isoFormat) (foreign : Foreign left date) :
    (compareDate recording subject recordingKind subjectKind).relation = .contradictory := by
  obtain ⟨⟨year, month, groups⟩, ⟨days, reading, -⟩, point, member, strange, dashed⟩ := foreign
  obtain ⟨precision, mine, short⟩ : ∃ precision, interpret recording =
      { values := [shown left], precision := some precision, ambiguous := false } ∧ (shown left).length ≤ precision.width := by
    rw [interpret_some written filled, interpretText, groups]
    cases month with
    | none =>
      obtain ⟨same, digits⟩ := isoGroups_year groups
      exact ⟨.year, rfl, Nat.le_of_eq (same ▸ (isDigits_iff.mp digits).1)⟩
    | some month =>
      obtain ⟨same, digits, digits'⟩ := isoGroups_month groups
      refine ⟨.month, if_pos (reading_known groups reading), ?_⟩
      rw [same, List.length_append, List.length_cons, (isDigits_iff.mp digits).1, (isDigits_iff.mp digits').1]
      exact Nat.le_refl 7
  have theirs := interpret_extended held
  have compared : Compared recording subject recordingKind subjectKind (coarser precision .day) :=
    compareDate_compared (present_known known written filled) (present_known known' held (isoFormat_ne_nil date)) (by rw [mine]; simp)
      (by rw [theirs]; simp) (by rw [mine]) (by rw [theirs])
  have apart : (((interpret recording).values.map (truncate · (coarser precision .day))).all fun value =>
      value ∉ (interpret subject).values.map (truncate · (coarser precision .day))) = true := by
    rw [apart_extended held, mine]
    intro value here same
    obtain rfl := List.mem_singleton.mp here
    rw [truncate, coarser_day, List.take_of_length_le short] at same
    have inside : point ∈ date.isoFormat := List.mem_of_mem_take (same ▸ member)
    exact (isoFormat_points inside).elim (fun ascii => by simp [ascii] at strange) dashed
  rw [compared.relation, relate, if_pos apart, if_pos ⟨known, known', by rw [mine], kind, kind'⟩]

theorem dateSound_iff (dated : Dated subject) :
    DateSound recording subject recordingKind subjectKind ↔ Comparable recording subject recordingKind subjectKind := by
  constructor
  · intro sound known known' kind kind' left right written filled held
    constructor
    · intro day read read'
      obtain ⟨precision, compared⟩ := compareDate_decided
        (.inl (sound.agreed known known' kind kind' left right day written held read read'))
      have filled' : right ≠ [] := by
        rintro rfl
        cases read'
      exact ⟨extended_of_read written filled read compared.filled, extended_of_read held filled' read' compared.filled'⟩
    · rintro date rfl foreign
      have disjoint := sound.contradictory (foreign_contradictory known known' kind kind' filled written held foreign)
      obtain ⟨days, reading, inside⟩ := foreign.2.1
      have apart := disjoint days {date.ordinal} ((reads_iff written filled days).mpr reading) ((reads_extended held _).mpr rfl)
      exact Set.disjoint_singleton_right.mp apart inside
  · intro comparable
    exact
      { exact := exact_day dated
        contradictory := contradictory_disjoint dated comparable
        agreed := fun known known' kind kind' left right day written held read read' =>
          agreed_exact comparable known known' kind kind' written held read read' }

end Phaze.Matching
