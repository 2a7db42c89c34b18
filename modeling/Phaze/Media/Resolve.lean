import Phaze.Shared.PurePath

set_option autoImplicit false

/-!
# Paths of another normalization

`services/media_path_resolve.py` over a tree of byte-exact names, with the normal form of a name as a parameter.
-/

namespace Phaze.Media

open Phaze.Shared Phaze.Shared.PurePath

def dots : Name := ['.', '.']

-- What `exists` and `iterdir` see: a listing that fails is `none`.
structure Disk where
  exist : Path → Bool
  listing : Path → Option (List Name)
  rooted : ∀ path name, exist (path ++ [name]) = true → exist path = true
  listed : ∀ path names, listing path = some names → ∀ name, name ∈ names ↔ name ≠ dots ∧ exist (path ++ [name]) = true

-- `_nfc_match`
def nfcMatch (disk : Disk) (nfc : Name → Name) (parent : Path) (wanted : Name) : Option Path :=
  (disk.listing parent).bind fun entries => (entries.find? fun entry => nfc entry = nfc wanted).map fun entry => parent ++ [entry]

-- The longest existing ancestor, from the components above the last in reverse, and what remains below it.
def longestAncestor (disk : Disk) : List Name → List Name → Option (Path × List Name)
  | [], pending => if disk.exist [] then some ([], pending.reverse) else none
  | name :: above, pending =>
      if disk.exist (name :: above).reverse then some ((name :: above).reverse, pending.reverse)
      else longestAncestor disk above (pending ++ [name])

def descend (disk : Disk) (nfc : Name → Name) (resolved : Path) : List Name → Option Path
  | [] => some resolved
  | component :: rest =>
      if disk.exist (resolved ++ [component]) then descend disk nfc (resolved ++ [component]) rest
      else (nfcMatch disk nfc resolved component).bind fun found => descend disk nfc found rest

def resolveMediaPath (disk : Disk) (nfc : Name → Name) (path : Text) : Text :=
  let candidate := parts path
  if disk.exist candidate then path
  else ((longestAncestor disk candidate.dropLast.reverse [candidate.getLastD []]).bind fun found =>
    descend disk nfc found.1 found.2).elim path render

/-! ## Twins -/

variable {disk : Disk} {nfc : Name → Name} {path : Text} {candidate ancestor twin : Path}

-- The same normal form, component by component, below an existing ancestor.
def Twin (disk : Disk) (nfc : Name → Name) (candidate twin : Path) : Prop :=
  ∃ ancestor below others, candidate = ancestor ++ below ∧ twin = ancestor ++ others ∧ disk.exist ancestor = true ∧
    List.Forall₂ (fun name other => nfc name = nfc other) below others

-- Each component is the stored one, or the only entry of its form where the stored one is missing.
inductive Sole (disk : Disk) (nfc : Name → Name) : Path → List Name → List Name → Prop
  | done (here : Path) : Sole disk nfc here [] []
  | same (here : Path) (name : Name) (below others : List Name) (present : disk.exist (here ++ [name]) = true)
      (rest : Sole disk nfc (here ++ [name]) below others) : Sole disk nfc here (name :: below) (name :: others)
  | only (here : Path) (name other : Name) (below others entries : List Name) (absent : disk.exist (here ++ [name]) = false)
      (listing : disk.listing here = some entries) (member : other ∈ entries) (alike : nfc name = nfc other)
      (sole : ∀ entry ∈ entries, nfc entry = nfc name → entry = other) (rest : Sole disk nfc (here ++ [other]) below others) :
      Sole disk nfc here (name :: below) (other :: others)

theorem exist_above {above : Path} {below : List Name} (present : disk.exist (above ++ below) = true) : disk.exist above = true := by
  induction below using List.reverseRecOn with
  | nil => rwa [List.append_nil] at present
  | append_singleton below name ih =>
    rw [← List.append_assoc] at present
    exact ih (disk.rooted _ name present)

theorem nfcMatch_some {parent found : Path} {wanted : Name} (same : nfcMatch disk nfc parent wanted = some found) :
    ∃ entry, found = parent ++ [entry] ∧ nfc wanted = nfc entry ∧ disk.exist found = true := by
  obtain ⟨entries, listing, rest⟩ := Option.bind_eq_some_iff.mp same
  obtain ⟨entry, first, rfl⟩ := Option.map_eq_some_iff.mp rest
  have alike : nfc entry = nfc wanted := by simpa using List.find?_some first
  have present := ((disk.listed parent entries listing entry).mp (List.mem_of_find?_eq_some first)).2
  exact ⟨entry, rfl, alike.symm, present⟩

-- Wherever the descent ends, it is on the disk and has the form of the stored path.
theorem descend_twin {below : List Name} (present : disk.exist ancestor = true) (same : descend disk nfc ancestor below = some twin) :
    disk.exist twin = true ∧ ∃ others, twin = ancestor ++ others ∧ List.Forall₂ (fun name other => nfc name = nfc other) below others := by
  induction below generalizing ancestor with
  | nil =>
    obtain rfl := Option.some.inj same
    exact ⟨present, [], (List.append_nil _).symm, .nil⟩
  | cons name below ih =>
    rw [descend] at same
    split at same
    next child =>
      obtain ⟨exists', others, rfl, alike⟩ := ih child same
      exact ⟨exists', name :: others, by simp, .cons rfl alike⟩
    next =>
      obtain ⟨found, match', rest⟩ := Option.bind_eq_some_iff.mp same
      obtain ⟨entry, rfl, form, child⟩ := nfcMatch_some match'
      obtain ⟨exists', others, rfl, alike⟩ := ih child rest
      exact ⟨exists', entry :: others, by simp, .cons form alike⟩

-- Where the way is the only one, the descent takes it.
theorem descend_sole {below others : List Name} (sole : Sole disk nfc ancestor below others) (rest : List Name) :
    descend disk nfc ancestor (below ++ rest) = descend disk nfc (ancestor ++ others) rest := by
  induction sole with
  | done here => rw [List.nil_append, List.append_nil]
  | same here name below others present _ ih =>
    rw [List.cons_append, descend, if_pos present, ih, List.append_assoc, List.singleton_append]
  | only here name other below others entries absent listing member alike sole _ ih =>
    have first : entries.find? (fun entry => nfc entry = nfc name) = some other := by
      cases found : entries.find? (fun entry => nfc entry = nfc name) with
      | none =>
        have none' := List.find?_eq_none.mp found other member
        exact absurd (decide_eq_true alike.symm) none'
      | some entry =>
        have form : nfc entry = nfc name := by simpa using List.find?_some found
        rw [sole entry (List.mem_of_find?_eq_some found) form]
    have match' : nfcMatch disk nfc here name = some (here ++ [other]) := by
      rw [nfcMatch, listing, Option.bind_some, first, Option.map_some]
    rw [List.cons_append, descend, if_neg (Bool.eq_false_iff.mp absent), match', Option.bind_some, ih, List.append_assoc,
      List.singleton_append]

-- One level below a listed directory, any entry of the form will do.
theorem descend_last {name entry : Name} {entries : List Name} (listing : disk.listing ancestor = some entries) (member : entry ∈ entries)
    (alike : nfc entry = nfc name) : ∃ found, descend disk nfc ancestor [name] = some (ancestor ++ [found]) ∧ nfc found = nfc name := by
  by_cases present : disk.exist (ancestor ++ [name]) = true
  · exact ⟨name, by rw [descend, if_pos present, descend], rfl⟩
  · have some' : (entries.find? fun other => nfc other = nfc name).isSome = true := by
      rw [List.find?_isSome]
      exact ⟨entry, member, decide_eq_true alike⟩
    obtain ⟨found, first⟩ := Option.isSome_iff_exists.mp some'
    have match' : nfcMatch disk nfc ancestor name = some (ancestor ++ [found]) := by
      rw [nfcMatch, listing, Option.bind_some, first, Option.map_some]
    exact ⟨found, by rw [descend, if_neg present, match', Option.bind_some, descend], by simpa using List.find?_some first⟩

-- What exists byte-exact is passed as it is.
theorem descend_append {below rest : List Name} (present : disk.exist (ancestor ++ below) = true) :
    descend disk nfc ancestor (below ++ rest) = descend disk nfc (ancestor ++ below) rest := by
  induction below generalizing ancestor with
  | nil => rw [List.nil_append, List.append_nil]
  | cons name below ih =>
    have whole : ancestor ++ name :: below = (ancestor ++ [name]) ++ below := by simp
    rw [whole] at present ⊢
    rw [List.cons_append, descend, if_pos (exist_above present), ih present]

/-! ## The ancestor -/

-- An existing ancestor with nothing that exists further down.
structure Longest (disk : Disk) (candidate ancestor : Path) (below : List Name) : Prop where
  whole : candidate = ancestor ++ below
  present : disk.exist ancestor = true
  longest : ∀ front, front <+: candidate → disk.exist front = true → front <+: ancestor

theorem longest_here {name : Name} {rest : List Name} (present : disk.exist ancestor = true)
    (missing : disk.exist (ancestor ++ [name]) = false) :
    Longest disk (ancestor ++ name :: rest) ancestor (name :: rest) := by
  refine ⟨rfl, present, fun front part found => ?_⟩
  have next : ancestor ++ [name] <+: ancestor ++ name :: rest := ⟨rest, by simp⟩
  obtain short | long := List.prefix_or_prefix_of_prefix part next
  · obtain same | inner := List.prefix_concat_iff.mp short
    · rw [same, missing] at found
      cases found
    · exact inner
  · obtain ⟨more, rfl⟩ := long
    rw [exist_above found] at missing
    cases missing

-- Each step up leaves out a component that is missing.
theorem longestAncestor_some {above pending below : List Name} {name : Name} {rest : List Name} (turned : pending.reverse = name :: rest)
    (missing : disk.exist (above.reverse ++ [name]) = false) (same : longestAncestor disk above pending = some (ancestor, below)) :
    Longest disk (above.reverse ++ pending.reverse) ancestor below := by
  induction above generalizing pending name rest with
  | nil =>
    rw [longestAncestor] at same
    split at same
    next present =>
      obtain ⟨rfl, rfl⟩ := Prod.mk.inj (Option.some.inj same)
      rw [turned]
      exact longest_here present missing
    next => cases same
  | cons up above ih =>
    rw [longestAncestor] at same
    split at same
    next present =>
      obtain ⟨rfl, rfl⟩ := Prod.mk.inj (Option.some.inj same)
      rw [turned]
      exact longest_here present missing
    next absent =>
      have turned' : (pending ++ [up]).reverse = up :: pending.reverse := by simp
      have missing' : disk.exist (above.reverse ++ [up]) = false := by
        rw [← List.reverse_cons]
        exact Bool.eq_false_iff.mpr absent
      have longest := ih turned' missing' same
      rwa [turned', ← List.singleton_append, ← List.append_assoc, ← List.reverse_cons] at longest

theorem longestAncestor_none {above pending : List Name} (same : longestAncestor disk above pending = none) : disk.exist [] = false := by
  induction above generalizing pending with
  | nil =>
    rw [longestAncestor] at same
    split at same
    next => cases same
    next absent => exact Bool.eq_false_iff.mpr absent
  | cons up above ih =>
    rw [longestAncestor] at same
    split at same
    next => cases same
    next => exact ih same

theorem exist_root (present : disk.exist candidate = true) : disk.exist [] = true := exist_above present

-- A missing path is resolved below its longest existing ancestor.
theorem resolve_missing (nfc : Name → Name) (missing : disk.exist (parts path) = false) :
    (disk.exist [] = false ∧ resolveMediaPath disk nfc path = path) ∨
      ∃ ancestor below, Longest disk (parts path) ancestor below ∧
        resolveMediaPath disk nfc path = (descend disk nfc ancestor below).elim path render := by
  rw [resolveMediaPath, if_neg (Bool.eq_false_iff.mp missing)]
  obtain empty | ⟨above, last, whole⟩ := (parts path).eq_nil_or_concat'
  · rw [empty] at missing ⊢
    left
    refine ⟨missing, ?_⟩
    have none : longestAncestor disk [] [[]] = none := by rw [longestAncestor, if_neg (Bool.eq_false_iff.mp missing)]
    rw [List.dropLast_nil, List.reverse_nil, List.getLastD_nil, none]
    rfl
  · rw [whole] at missing ⊢
    rw [List.dropLast_concat, List.getLastD_concat]
    cases found : longestAncestor disk above.reverse [last] with
    | none => exact .inl ⟨longestAncestor_none found, rfl⟩
    | some pair =>
      obtain ⟨ancestor, below⟩ := pair
      have turned : [last].reverse = last :: [] := rfl
      have longest := longestAncestor_some turned (by rwa [List.reverse_reverse]) found
      rw [List.reverse_reverse, List.reverse_singleton] at longest
      exact .inr ⟨ancestor, below, longest, rfl⟩

/-! ## What the resolution promises -/

-- Every path that has a twin on the disk leads to one.
structure Resolved (disk : Disk) (nfc : Name → Name) (path : Text) : Prop where
  existing : disk.exist (parts path) = true → resolveMediaPath disk nfc path = path
  found : disk.exist (parts path) = false → (∃ twin, Twin disk nfc (parts path) twin ∧ disk.exist twin = true) →
    ∃ twin, resolveMediaPath disk nfc path = render twin ∧ disk.exist twin = true ∧ Twin disk nfc (parts path) twin
  missing : disk.exist (parts path) = false → (∀ twin, Twin disk nfc (parts path) twin → disk.exist twin = false) →
    resolveMediaPath disk nfc path = path

-- The same for the paths whose twin the descent cannot miss.
structure Descended (disk : Disk) (nfc : Name → Name) (path : Text) : Prop where
  existing : disk.exist (parts path) = true → resolveMediaPath disk nfc path = path
  sound : disk.exist (parts path) = false → resolveMediaPath disk nfc path = path ∨
    ∃ twin, resolveMediaPath disk nfc path = render twin ∧ disk.exist twin = true ∧ Twin disk nfc (parts path) twin
  missing : disk.exist (parts path) = false → (∀ twin, Twin disk nfc (parts path) twin → disk.exist twin = false) →
    resolveMediaPath disk nfc path = path
  sole : disk.exist (parts path) = false → ∀ ancestor below others, parts path = ancestor ++ below → disk.exist ancestor = true →
    Sole disk nfc ancestor below others → resolveMediaPath disk nfc path = render (ancestor ++ others) ∧
      disk.exist (ancestor ++ others) = true
  last : disk.exist (parts path) = false → ∀ ancestor below others name, parts path = ancestor ++ (below ++ [name]) →
    disk.exist ancestor = true → Sole disk nfc ancestor below others → ∀ entries, disk.listing (ancestor ++ others) = some entries →
      (∃ entry ∈ entries, nfc entry = nfc name) → ∃ found, resolveMediaPath disk nfc path = render (ancestor ++ others ++ [found]) ∧
        disk.exist (ancestor ++ others ++ [found]) = true ∧ nfc found = nfc name

theorem resolve_existing (present : disk.exist (parts path) = true) : resolveMediaPath disk nfc path = path := if_pos present

theorem resolve_sound (nfc : Name → Name) (missing : disk.exist (parts path) = false) : resolveMediaPath disk nfc path = path ∨
    ∃ twin, resolveMediaPath disk nfc path = render twin ∧ disk.exist twin = true ∧ Twin disk nfc (parts path) twin := by
  obtain ⟨-, same⟩ | ⟨ancestor, below, longest, same⟩ := resolve_missing nfc missing
  · exact .inl same
  · cases reached : descend disk nfc ancestor below with
    | none =>
      rw [reached] at same
      exact .inl same
    | some twin =>
      rw [reached] at same
      obtain ⟨present, others, rfl, alike⟩ := descend_twin longest.present reached
      exact .inr ⟨_, same, present, ancestor, below, others, longest.whole, rfl, longest.present, alike⟩

theorem Sole.exist {below others : List Name} (sole : Sole disk nfc ancestor below others) (present : disk.exist ancestor = true) :
    disk.exist (ancestor ++ others) = true := by
  have reached := descend_sole sole []
  rw [List.append_nil, descend] at reached
  exact (descend_twin present reached).1

-- Below any existing ancestor the descent goes the same way.
theorem resolve_below {below : List Name} (missing : disk.exist (parts path) = false) (whole : parts path = ancestor ++ below)
    (present : disk.exist ancestor = true) :
    resolveMediaPath disk nfc path = (descend disk nfc ancestor below).elim path render := by
  obtain ⟨rootless, -⟩ | ⟨top, rest, longest, same⟩ := resolve_missing nfc missing
  · rw [exist_root present] at rootless
    cases rootless
  · obtain ⟨more, rfl⟩ := longest.longest ancestor ⟨below, whole.symm⟩ present
    have parts' : below = more ++ rest := by
      have both := whole.symm.trans longest.whole
      rwa [List.append_assoc, List.append_cancel_left_eq] at both
    rw [same, ← descend_append longest.present, ← parts']

-- The resolution finds the twin that is the only one at every level, and never anything but a twin.
theorem resolve_descends (disk : Disk) (nfc : Name → Name) (path : Text) : Descended disk nfc path := by
  constructor
  · exact resolve_existing
  · exact resolve_sound nfc
  · intro missing none
    obtain same | ⟨twin, -, present, alike⟩ := resolve_sound nfc missing
    · exact same
    · rw [none twin alike] at present
      cases present
  · intro missing ancestor below others whole present sole
    have reached := descend_sole sole []
    rw [List.append_nil, descend] at reached
    rw [resolve_below missing whole present, reached]
    exact ⟨rfl, sole.exist present⟩
  · rintro missing ancestor below others name whole present sole entries listing ⟨entry, member, alike⟩
    obtain ⟨found, reached, form⟩ := descend_last listing member alike
    refine ⟨found, ?_, (descend_twin (sole.exist present) reached).1, form⟩
    rw [resolve_below missing whole present, descend_sole sole, reached]
    rfl

/-! ## Two spellings of one directory -/

-- The name right below a directory on the way to a file.
def childOf (here file : Path) : Option Name := if here.isPrefixOf file then (file.drop here.length).head? else none

theorem childOf_some {here file : Path} {name : Name} : childOf here file = some name ↔ here ++ [name] <+: file := by
  rw [childOf]
  constructor
  · intro found
    split at found
    next above =>
      obtain ⟨rest, rfl⟩ := List.isPrefixOf_iff_prefix.mp above
      rw [List.drop_left] at found
      obtain ⟨rest', rfl⟩ := List.head?_eq_some_iff.mp found
      exact ⟨rest', by simp⟩
    next => cases found
  · rintro ⟨rest, rfl⟩
    have above : here.isPrefixOf (here ++ [name] ++ rest) = true := List.isPrefixOf_iff_prefix.mpr ⟨[name] ++ rest, by simp⟩
    rw [if_pos above, List.append_assoc, List.drop_left]
    rfl

-- The tree of some files and the directories above them, listed in their order.
def ofFiles (files : List Path) (plain : ∀ file ∈ files, dots ∉ file) : Disk where
  exist path := path = [] ∨ files.any path.isPrefixOf
  listing path := if (files.filterMap (childOf path)) = [] then none else some (files.filterMap (childOf path))
  rooted path name present := by
    rw [decide_eq_true_eq] at present ⊢
    right
    rw [List.any_eq_true] at present ⊢
    obtain empty | ⟨file, member, above⟩ := present
    · simp at empty
    · exact ⟨file, member, List.isPrefixOf_iff_prefix.mpr ((List.prefix_append path [name]).trans (List.isPrefixOf_iff_prefix.mp above))⟩
  listed path names same name := by
    split at same
    next => cases same
    next =>
      obtain rfl := Option.some.inj same
      rw [List.mem_filterMap, decide_eq_true_eq, List.any_eq_true]
      constructor
      · rintro ⟨file, member, child⟩
        have above := childOf_some.mp child
        refine ⟨?_, .inr ⟨file, member, List.isPrefixOf_iff_prefix.mpr above⟩⟩
        rintro rfl
        exact plain file member (above.subset (by simp))
      · rintro ⟨-, empty | ⟨file, member, above⟩⟩
        · simp at empty
        · exact ⟨file, member, childOf_some.mpr (List.isPrefixOf_iff_prefix.mp above)⟩

-- The composition of one letter with its accent.
def composed : Name → Name
  | 'o' :: '\u0308' :: rest => '\u00f6' :: composed rest
  | letter :: rest => letter :: composed rest
  | [] => []

def composedName : Name := ['H', '\u00f6', 'r']

def decomposedName : Name := ['H', 'o', '\u0308', 'r']

def spelledFiles : List Path := [[composedName, ['a', '.', 'm', '4', 'a']], [decomposedName, ['b', '.', 'm', '4', 'a']]]

def bothSpellings : Disk := ofFiles spelledFiles (by decide)

def storedPath : Text := '/' :: (composedName ++ ['/', 'b', '.', 'm', '4', 'a'])

def decomposedFiles : List Path := [[decomposedName, ['b', '.', 'm', '4', 'a']]]

def onlyDecomposed : Disk := ofFiles decomposedFiles (by decide)

theorem decomposed_directory_is_found :
    resolveMediaPath onlyDecomposed composed storedPath = render [decomposedName, ['b', '.', 'm', '4', 'a']] ∧
      onlyDecomposed.exist [decomposedName, ['b', '.', 'm', '4', 'a']] = true := by
  have missing : onlyDecomposed.exist (parts storedPath) = false := by decide +kernel
  have file : Sole onlyDecomposed composed [decomposedName] [['b', '.', 'm', '4', 'a']] [['b', '.', 'm', '4', 'a']] :=
    .same _ _ _ _ (by decide +kernel) (.done _)
  have way : Sole onlyDecomposed composed [] [composedName, ['b', '.', 'm', '4', 'a']] [decomposedName, ['b', '.', 'm', '4', 'a']] := by
    refine .only [] composedName decomposedName _ _ [decomposedName] (by decide +kernel) (by decide +kernel) List.mem_cons_self (by decide)
      ?_ file
    intro entry member _
    exact List.mem_singleton.mp member
  exact (resolve_descends onlyDecomposed composed storedPath).sole missing [] _ _ (by decide +kernel) (by decide +kernel) way

-- The file is in the other spelling of a directory that exists in both.
theorem other_spelling_is_missed : ¬ Resolved bothSpellings composed storedPath := by
  intro resolved
  have missing : bothSpellings.exist (parts storedPath) = false := by decide +kernel
  have twin : Twin bothSpellings composed (parts storedPath) [decomposedName, ['b', '.', 'm', '4', 'a']] := by
    refine ⟨[], [composedName, ['b', '.', 'm', '4', 'a']], _, by decide +kernel, rfl, by decide +kernel, ?_⟩
    exact .cons (by decide) (.cons rfl .nil)
  obtain ⟨found, same, present, -⟩ := resolved.found missing ⟨_, twin, by decide +kernel⟩
  have unchanged : resolveMediaPath bothSpellings composed storedPath = storedPath := by decide +kernel
  have others : ∀ other ∈ spelledFiles.flatMap List.inits, render other ≠ storedPath := by decide +kernel
  have listed : found ∈ spelledFiles.flatMap List.inits := by
    obtain empty | ⟨file, member, above⟩ : found = [] ∨ ∃ file ∈ spelledFiles, found.isPrefixOf file = true := by
      simpa only [bothSpellings, ofFiles, decide_eq_true_eq, List.any_eq_true] using present
    · rw [empty]
      decide +kernel
    · exact List.mem_flatMap.mpr ⟨file, member, (List.mem_inits _ _).mpr (List.isPrefixOf_iff_prefix.mp above)⟩
  exact others found listed (same.symm.trans unchanged)

end Phaze.Media
