import Phaze.Outbound.HostProfile
import Phaze.Shared.Uri

set_option autoImplicit false

/-!
# What validation gives

A validated host is read back as itself, and so is every segment of a validated path.
-/

namespace Phaze.Outbound

open Percent Guards Substrings Uri

/-! ## Hosts -/

theorem isAlphanum_ascii {char : Char} (plain : char.isAlphanum = true) : char.toNat < 128 := by
  simp only [Char.isAlphanum, Char.isAlpha, Char.isUpper, Char.isLower, Char.isDigit, Bool.or_eq_true,
    Bool.and_eq_true, decide_eq_true_eq, ge_iff_le, UInt32.le_iff_toNat_le] at plain
  have code : char.toNat = char.val.toNat := rfl
  rw [code]
  rcases plain with (⟨-, upper⟩ | ⟨-, lower⟩) | ⟨-, digit⟩
  · exact upper.trans_lt (by decide)
  · exact lower.trans_lt (by decide)
  · exact digit.trans_lt (by decide)

-- No delimiter of a URL is in a label.
theorem isLabelPoint_clear {point : CodePoint} {hyphen : Bool} (inside : isLabelPoint hyphen point = true) :
    point ∉ str "/?#@:" := by
  intro member
  have each : ∀ other ∈ str "/?#@:", isLabelPoint hyphen other = false := by
    cases hyphen <;> decide
  rw [each point member] at inside
  cases inside

theorem matchesHost_clear {host : Str} (valid : matchesHost host = true) :
    host ≠ [] ∧ ∀ point ∈ host, point ∉ str "/?#@:" := by
  simp only [matchesHost, Bool.and_eq_true, decide_eq_true_eq, List.all_eq_true] at valid
  obtain ⟨⟨⟨-, two⟩, labels⟩, -⟩ := valid
  constructor
  · rintro rfl
    simp at two
  · intro point member
    have joined : (str ".").intercalate (host.splitOn (.scalar '.')) = host := List.intercalate_splitOn _
    rw [← joined] at member
    rcases mem_intercalate member with ⟨label, inside, found⟩ | separator
    · have whole := labels label inside
      simp only [matchesLabel, Bool.and_eq_true, List.all_eq_true] at whole
      exact isLabelPoint_clear (whole.2 point found)
    · obtain rfl := List.mem_singleton.mp separator
      decide

/-! ## Paths -/

theorem isSegmentPoint_scalar {point : CodePoint} (inside : isSegmentPoint point = true) :
    ∃ char : Char, point = .scalar char ∧ char.toNat < 128 ∧ char ≠ '%' := by
  cases point with
  | surrogate code => cases inside
  | scalar char =>
    refine ⟨char, rfl, ?_, ?_⟩
    · rcases Bool.or_eq_true_iff.mp inside with plain | listed
      · exact isAlphanum_ascii plain
      · have each : ∀ other ∈ "._~!$&'()*+,;=:@-".toList, other.toNat < 128 := by simp
        exact each char (by simpa using listed)
    · rintro rfl
      exact absurd inside (by decide)

theorem isSegmentPoint_clear {point : CodePoint} (inside : isSegmentPoint point = true) : point ∉ str "/?#{}" := by
  intro member
  have each : ∀ other ∈ str "/?#{}", isSegmentPoint other = false := by decide
  rw [each point member] at inside
  cases inside

-- A segment of a validated path; the last one may be empty.
structure Kept (segment : Str) : Prop where
  points : ∀ point ∈ segment, isSegmentPoint point = true
  named : segment ≠ str "." ∧ segment ≠ str ".."

theorem Kept.read {segment : Str} (kept : Kept segment) : readSegment segment = some segment := by
  have plain := unquote_plain fun point member => isSegmentPoint_scalar (kept.points point member)
  simp [readSegment, plain, kept.named.1, kept.named.2]

theorem validatePath_segments {path : Str} (valid : validatePath path = .ok ()) :
    ∃ segments, path.splitOn slash = [] :: segments ∧ segments ≠ [] ∧ ∀ segment ∈ segments, Kept segment := by
  simp only [validatePath, require_ok, Bool.and_eq_true, List.all_eq_true, decide_eq_true_eq] at valid
  obtain ⟨whole, dots⟩ := valid
  simp only [matchesPath] at whole
  split at whole
  next segments split =>
    rw [split] at dots
    simp only [Bool.and_eq_true, List.all_eq_true, plainSegment, Bool.not_eq_true'] at whole
    obtain ⟨nonempty, plain⟩ := whole
    refine ⟨segments, split, ?_, fun segment member => ⟨?_, by simpa using dots segment (List.mem_cons_of_mem _ member)⟩⟩
    · rintro rfl
      simp at nonempty
    · by_cases trailing : segments.getLast? = some []
      next =>
        simp only [trailing, if_true] at plain
        obtain ⟨inits, whole⟩ := List.getLast?_eq_some_iff.mp trailing
        subst whole
        rcases List.mem_append.mp member with before | last
        · exact (plain segment (by simpa using before)).2
        · obtain rfl := List.mem_singleton.mp last
          simp
      next =>
        simp only [trailing, if_false] at plain
        exact (plain segment member).2
  next => cases whole

theorem splitOn_rooted {text : Str} {segments : List Str} (split : text.splitOn slash = [] :: segments)
    (nonempty : segments ≠ []) : ∃ rest, text = slash :: rest ∧ rest.splitOn slash = segments := by
  cases text with
  | nil =>
    simp only [List.splitOn_nil, List.cons.injEq, true_and] at split
    exact absurd split.symm nonempty
  | cons point rest =>
    by_cases same : point = slash
    next =>
      subst same
      rw [splitOn_cons_same, List.cons.injEq] at split
      exact ⟨rest, rfl, split.2⟩
    next =>
      obtain ⟨first, tails, others⟩ := List.exists_cons_of_ne_nil (List.splitOn_ne_nil slash rest)
      rw [splitOn_cons_other same others] at split
      simp at split

theorem splitOn_clear {segments : List Str} {rest : Str} (split : rest.splitOn slash = segments)
    (clear : ∀ segment ∈ segments, ∀ point ∈ segment, point ∉ str "?#") : ∀ point ∈ rest, point ∉ str "?#" := by
  intro point member
  have joined : (str "/").intercalate (rest.splitOn slash) = rest := List.intercalate_splitOn slash
  rw [← joined, split] at member
  rcases mem_intercalate member with ⟨segment, inside, found⟩ | separator
  · exact clear segment inside point found
  · obtain rfl := List.mem_singleton.mp separator
    decide

/-! ## Templates -/

theorem Kept.braceless {segment : Str} (kept : Kept segment) : segment ≠ nativeIdPlaceholder := by
  rintro rfl
  have brace := isSegmentPoint_clear (kept.points (.scalar '{') (by decide))
  exact brace (by decide)

/-- The placeholder of a validated template is one segment of it, and what replaces it without a slash is that
segment. -/
theorem compilePattern_segments {route : RemoteFetchRoute} (valid : route.compilePattern = .ok ()) :
    ∃ inits tails, route.pathTemplate.splitOn slash = [] :: (inits ++ nativeIdPlaceholder :: tails) ∧
      (∀ segment ∈ inits ++ tails, Kept segment) ∧ ∀ filled, slash ∉ filled →
        (replace nativeIdPlaceholder filled route.pathTemplate).splitOn slash = [] :: (inits ++ filled :: tails) := by
  simp only [RemoteFetchRoute.compilePattern, bind_ok, require_ok, Bool.and_eq_true, decide_eq_true_eq] at valid
  obtain ⟨_, ⟨once, placed⟩, _, path, -⟩ := valid
  obtain ⟨before, after, whole, replaced⟩ := replace_of_count (show nativeIdPlaceholder ≠ [] by decide) once
  obtain ⟨segments, split, -, kept⟩ := validatePath_segments path
  obtain ⟨inits, last, first, tails, -, -, joins⟩ := splitOn_between slash before after
  have template := joins nativeIdPlaceholder (by decide)
  have other := joins (str "id") (by decide)
  rw [replaced, other] at split
  have plain : ∀ segment ∈ inits ++ (last ++ str "id" ++ first) :: tails, Kept segment := by
    rw [split]
    exact List.forall_mem_cons.mpr ⟨⟨by simp, by decide, by decide⟩, kept⟩
  -- Only the segment that was put together can be the placeholder.
  have alone : last ++ nativeIdPlaceholder ++ first = nativeIdPlaceholder := by
    rw [whole, template] at placed
    rcases List.mem_append.mp placed with early | later
    · exact absurd rfl (plain _ (List.mem_append_left _ early)).braceless
    · rcases List.mem_cons.mp later with here | tail
      · exact here.symm
      · exact absurd rfl (plain _ (List.mem_append_right _ (List.mem_cons_of_mem _ tail))).braceless
  have lengths := congrArg List.length alone
  simp only [List.length_append] at lengths
  obtain rfl : last = [] := List.length_eq_zero_iff.mp (by omega)
  obtain rfl : first = [] := List.length_eq_zero_iff.mp (by omega)
  cases inits with
  | nil => simp [str] at split
  | cons head inits =>
    obtain rfl : head = [] := by simpa using (List.cons.inj split).1
    refine ⟨inits, tails, by simpa [whole] using template, fun segment member => plain segment ?_, fun filled clear => ?_⟩
    · rcases List.mem_append.mp member with early | tail
      · exact List.mem_append_left _ (List.mem_cons_of_mem _ early)
      · exact List.mem_append_right _ (List.mem_cons_of_mem _ tail)
    · simpa [replaced] using joins filled clear

end Phaze.Outbound
