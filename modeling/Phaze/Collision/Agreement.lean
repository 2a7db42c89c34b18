import Phaze.Collision.Key

set_option autoImplicit false

/-!
# When the collision key means the executor's destination
-/

namespace Phaze.Collision

open Shared Shared.PurePath Execution

/-! ## Spelled texts under the SQL functions -/

section Texts

theorem ltrim_slashed {components : List Name} (all : ∀ name ∈ components, Component name) :
    ltrim (slashed components) = unslashed components := by
  cases components with
  | nil => rfl
  | cons name rest =>
      obtain ⟨nonempty, single, -⟩ := all name (by simp)
      cases name with
      | nil => exact absurd rfl nonempty
      | cons letter name =>
          have other : letter ≠ '/' := fun same => single (by simp [same])
          simp [ltrim, unslashed, other]

theorem slashed_of_key {rel names : List Name} (inside : rel ≠ []) :
    '/' :: (unslashed rel ++ slashed names) = slashed (rel ++ names) := by
  rw [slashed_append, slashed_eq_cons inside, List.cons_append]

theorem head_unslashed {components : List Name} (all : ∀ name ∈ components, Component name)
    (inside : components ≠ []) : ∃ letter rest, unslashed components = letter :: rest ∧ letter ≠ '/' := by
  cases components with
  | nil => exact absurd rfl inside
  | cons name rest =>
      obtain ⟨nonempty, single, -⟩ := all name (by simp)
      cases name with
      | nil => exact absurd rfl nonempty
      | cons letter name => exact ⟨letter, name ++ slashed rest, rfl, fun same => single (by simp [same])⟩

-- The text of a destination below its root says what the destination is, and whether a directory was asked for.
theorem key_injective {rel names rel' names' : List Name}
    (all : ∀ name ∈ rel ++ names, Component name) (all' : ∀ name ∈ rel' ++ names', Component name)
    (named : names ≠ []) (named' : names' ≠ []) :
    unslashed rel ++ slashed names = unslashed rel' ++ slashed names' ↔
      (rel = [] ↔ rel' = []) ∧ rel ++ names = rel' ++ names' := by
  have single : ∀ name ∈ rel ++ names, '/' ∉ name := fun name member => (all name member).single
  have single' : ∀ name ∈ rel' ++ names', '/' ∉ name := fun name member => (all' name member).single
  have below : ∀ (inner names others : List Name), (∀ name ∈ inner, Component name) → inner ≠ [] → others ≠ [] →
      slashed others ≠ unslashed inner ++ slashed names := by
    intro inner names others all inside named same
    obtain ⟨letter, rest, text, other⟩ := head_unslashed all inside
    rw [slashed_eq_cons named, text, List.cons_append, List.cons.injEq] at same
    exact other same.1.symm
  by_cases inside : rel = [] <;> by_cases inside' : rel' = []
  · subst inside inside'
    exact ⟨fun same => ⟨Iff.rfl, slashed_injective single single' same⟩, fun same => congrArg slashed same.2⟩
  · subst inside
    have apart := below rel' names' names (fun name member => all' name (List.mem_append_left _ member)) inside' named
    exact ⟨fun same => absurd same apart, fun same => absurd (same.1.mp rfl) inside'⟩
  · subst inside'
    have apart := below rel names names' (fun name member => all name (List.mem_append_left _ member)) inside named'
    exact ⟨fun same => absurd same.symm apart, fun same => absurd (same.1.mpr rfl) inside⟩
  · rw [← List.cons_inj_right '/', slashed_of_key inside, slashed_of_key inside']
    exact ⟨fun same => ⟨iff_of_false inside inside', slashed_injective single single' same⟩, fun same => congrArg slashed same.2⟩

end Texts

/-! ## The two owning roots -/

-- `original_path == root OR starts_with(original_path, root || '/')`
def Under (text root : Text) : Prop := text = root ∨ startsWith text (root ++ ['/'])

instance (text root : Text) : Decidable (Under text root) := inferInstanceAs (Decidable (_ ∨ _))

structure LongestRoot (agent : Agent) (text root : Text) : Prop where
  listed : root ∈ agent.scanRoots.map rtrim
  under : Under text root
  longest : ∀ other ∈ agent.scanRoots.map rtrim, Under text other → other.length ≤ root.length

theorem Under.prefix {text root : Text} (under : Under text root) : root <+: text := by
  obtain rfl | below := under
  · exact List.prefix_refl _
  · exact (List.prefix_append _ _).trans (List.isPrefixOf_iff_prefix.mp below)

theorem mem_candidates {agent : Agent} {file : FileRecord} {root : Text} :
    root ∈ ((agent.scanRoots.map rtrim).filter fun root =>
      file.originalPath = root ∨ startsWith file.originalPath (root ++ ['/'])) ↔
      root ∈ agent.scanRoots.map rtrim ∧ Under file.originalPath root := by
  rw [List.mem_filter, decide_eq_true_eq, Under]

theorem owningRoot_of_longest {agent : Agent} {file : FileRecord} {root : Text}
    (longest : LongestRoot agent file.originalPath root) : owningRoot agent file = some root := by
  have candidate := mem_candidates.mpr ⟨longest.listed, longest.under⟩
  unfold owningRoot
  cases best : List.argmax List.length _ with
  | none =>
      rw [List.argmax_eq_none] at best
      rw [best] at candidate
      cases candidate
  | some other =>
      obtain ⟨listed, under⟩ := mem_candidates.mp (List.argmax_mem best)
      have least : root.length ≤ other.length := List.le_of_mem_argmax candidate best
      have most := longest.longest other listed under
      have below : other <+: root := List.prefix_of_prefix_length_le under.prefix longest.under.prefix most
      rw [below.eq_of_length_le least]

theorem owningRoot_of_outside {agent : Agent} {file : FileRecord}
    (outside : ∀ root ∈ agent.scanRoots.map rtrim, ¬ Under file.originalPath root) : owningRoot agent file = none := by
  rw [owningRoot, List.argmax_eq_none, List.eq_nil_iff_forall_not_mem]
  intro root member
  obtain ⟨listed, under⟩ := mem_candidates.mp member
  exact outside root listed under

def AbsoluteRoots (db : Database) : Prop := ∀ agent ∈ db.agents, ∀ text ∈ agent.scanRoots, isAbsolute text

instance (db : Database) : Decidable (AbsoluteRoots db) := inferInstanceAs (Decidable (∀ agent ∈ db.agents, _))

theorem mem_approved {db : Database} {row : Row} (member : row ∈ db.approved) : row.agent ∈ db.agents := by
  obtain ⟨proposal, -, member⟩ := List.mem_flatMap.mp member
  obtain ⟨file, -, member⟩ := List.mem_flatMap.mp member
  obtain ⟨agent, listed, rfl⟩ := List.mem_map.mp member
  exact (List.mem_filter.mp listed).1

/-! ## The executor's destination -/

section Executor

variable {platform : Platform Text} {fs : FileSystem}

-- The components that a row brings into play.
def Row.names (platform : Platform Text) (row : Row) : List Name :=
  join platform.cwd row.file.currentPath ++ row.agent.scanRoots.flatMap parts ++ parts (row.proposal.proposedPath.getD []) ++
    parts row.proposal.proposedFilename

structure NfcNames (platform : Platform Text) (fs : FileSystem) (db : Database) : Prop where
  listed : ∀ here entries, platform.iterdir fs here = some entries → ∀ name ∈ entries, platform.nfc name = name
  given : ∀ row ∈ db.approved, ∀ name ∈ row.names platform, platform.nfc name = name

-- No entry on disk is another spelling of one of the names.
def Single (platform : Platform Text) (fs : FileSystem) (names : List Name) : Prop :=
  ∀ here entries, platform.iterdir fs here = some entries → ∀ entry ∈ entries, ∀ name ∈ names,
    platform.nfc entry = platform.nfc name → entry = name

theorem NfcNames.single {db : Database} (nfc : NfcNames platform fs db) {row : Row} (member : row ∈ db.approved) :
    Single platform fs (row.names platform) := by
  intro here entries shown entry listed name known same
  rw [nfc.listed here entries shown entry listed, nfc.given row member name known] at same
  exact same

theorem Single.mono {names others : List Name} (single : Single platform fs names) (sub : ∀ name ∈ others, name ∈ names) :
    Single platform fs others :=
  fun here entries shown entry listed name known => single here entries shown entry listed name (sub name known)

theorem nfcMatch_of_single {wanted : Name} (single : Single platform fs [wanted]) {parent found : List Name}
    (matched : nfcMatch platform fs parent wanted = some found) : found = parent ++ [wanted] := by
  unfold nfcMatch at matched
  split at matched
  · cases matched
  · rename_i entries shown
    obtain ⟨entry, first, rfl⟩ := Option.map_eq_some_iff.mp matched
    have same := List.find?_some first
    rw [decide_eq_true_eq] at same
    rw [single _ entries shown entry (List.mem_of_find?_eq_some first) wanted (List.mem_singleton_self _) same]

theorem existingAncestor_append {above pending ancestor rest : List Name}
    (found : existingAncestor fs above pending = some (ancestor, rest)) :
    ancestor ++ rest = above.reverse ++ pending := by
  induction above generalizing pending with
  | nil => cases found
  | cons name above ih =>
      unfold existingAncestor at found
      split at found
      · cases found
        simp
      · rw [ih found]
        simp

theorem walk_of_single {pending ancestor found : List Name} (single : Single platform fs pending)
    (walked : pending.foldlM (resolveChild platform fs) ancestor = some found) : found = ancestor ++ pending := by
  induction pending generalizing ancestor with
  | nil =>
      cases walked
      simp
  | cons component rest ih =>
      rw [List.foldlM_cons] at walked
      obtain ⟨next, step, later⟩ := Option.bind_eq_some_iff.mp walked
      have here : next = ancestor ++ [component] := by
        unfold resolveChild at step
        split at step
        · cases step
          rfl
        · exact nfcMatch_of_single (single.mono (by simp)) step
      rw [ih (single.mono fun name => List.mem_cons_of_mem _) later, here]
      simp

theorem resolveMediaPath_of_single {path : List Name} (single : Single platform fs path) :
    resolveMediaPath platform fs path = path := by
  unfold resolveMediaPath
  split
  · rfl
  · split
    · rfl
    · rename_i ancestor pending found
      have whole := existingAncestor_append found
      rw [List.reverse_reverse, List.append_nil] at whole
      have below : Single platform fs pending := single.mono fun name member => by
        rw [← whole]
        exact List.mem_append_right _ member
      cases walked : pending.foldlM (resolveChild platform fs) ancestor with
      | none => rfl
      | some resolved => rw [Option.getD_some, walk_of_single below walked, whole]

theorem join_of_relative {base : List Name} {text : Text} (spelled : SpelledRelative text) :
    join base text = base ++ parts text := by
  obtain ⟨letter, rest, shape, other⟩ :=
    head_unslashed (fun name => component_of_mem_parts) spelled.2
  have relative : ¬ isAbsolute text = true := by
    rw [spelled.1, shape]
    simpa [isAbsolute] using other
  rw [join, if_neg relative]

-- Where the file is now.
def located (platform : Platform Text) (row : Row) : Path := collapse (join platform.cwd row.file.currentPath)

-- The roots as the executor reads them.
def rootsOf (platform : Platform Text) (agent : Agent) : List Path := agent.scanRoots.map (resolve platform.cwd)

theorem resolveContainment_of_single {candidate : List Name} (single : Single platform fs candidate) (roots : List Text) :
    resolveContainment platform fs candidate roots = resolveAndCheckContainment platform candidate roots := by
  rw [resolveContainment, resolveMediaPath_of_single single]

theorem contained {candidate : List Name} {roots : List Text} {root : Path}
    (found : (roots.map (resolve platform.cwd)).find? (isRelativeTo (collapse candidate)) = some root) :
    resolveAndCheckContainment platform candidate roots = .ok (collapse candidate, root) := by
  simp only [resolveAndCheckContainment, found]

theorem escapes {candidate : List Name} {roots : List Text}
    (missed : (roots.map (resolve platform.cwd)).find? (isRelativeTo (collapse candidate)) = none) :
    resolveAndCheckContainment platform candidate roots = .error (.escapesScanRoots candidate) := by
  simp only [resolveAndCheckContainment, missed]

end Executor

/-! ## Proposals whose key means their destination -/

/-- `rel` is the directory a proposal asks for, below the owning root of its file. A rename in
place asks for the directory the file is in, and both sides have to see the same one. -/
inductive AsksFor (platform : Platform Text) (row : Row) (root : Path) : Option Text → List Name → Prop
  | inPlace {rel : List Name} (all : ∀ name ∈ rel, Component name)
      (original : dirname row.file.originalPath = slashed (root ++ rel)) (current : (located platform row).parent = root ++ rel) :
      AsksFor platform row root none rel
  | empty (current : (located platform row).parent = root) : AsksFor platform row root (some []) []
  | directory {text : Text} (spelled : SpelledRelative text) (plain : NoDotDot (parts text)) :
      AsksFor platform row root (some text) (parts text)

/-- A proposal that the key and the executor read alike: the first root that the file is under now is
the longest one that it was under, and the directory and the name are spelled. -/
structure Placed (platform : Platform Text) (row : Row) (root : Path) (rel : List Name) : Prop where
  longest : LongestRoot row.agent row.file.originalPath (slashed root)
  first : (rootsOf platform row.agent).find? (isRelativeTo (located platform row)) = some root
  asks : AsksFor platform row root row.proposal.proposedPath rel
  filename : SpelledRelative row.proposal.proposedFilename ∧ NoDotDot (parts row.proposal.proposedFilename)

/-- A file that neither side finds under a root. -/
structure Outside (platform : Platform Text) (row : Row) : Prop where
  original : ∀ root ∈ row.agent.scanRoots.map rtrim, ¬ Under row.file.originalPath root
  current : (rootsOf platform row.agent).find? (isRelativeTo (located platform row)) = none

def Read (platform : Platform Text) (row : Row) : Prop := (∃ root rel, Placed platform row root rel) ∨ Outside platform row

theorem mem_collapse {components : List Name} {name : Name} (member : name ∈ collapse components) :
    name ∈ components ∧ name ≠ ['.', '.'] := by
  induction components using List.reverseRecOn with
  | nil => cases member
  | append_singleton before last ih =>
      rw [collapse, List.foldl_append, List.foldl_cons, List.foldl_nil] at member
      split at member
      · have earlier := ih (List.mem_of_mem_dropLast member)
        exact ⟨List.mem_append_left _ earlier.1, earlier.2⟩
      · rename_i other
        obtain earlier | final := List.mem_append.mp member
        · exact ⟨List.mem_append_left _ (ih earlier).1, (ih earlier).2⟩
        · obtain rfl := List.mem_singleton.mp final
          exact ⟨List.mem_append_right _ (List.mem_singleton_self _), other⟩

namespace Placed

variable {platform : Platform Text} {row : Row} {root : Path} {rel : List Name}

theorem listed (placed : Placed platform row root rel) :
    ∃ text ∈ row.agent.scanRoots, root = collapse (join platform.cwd text) := by
  obtain ⟨text, member, same⟩ := List.mem_map.mp (List.mem_of_find?_eq_some placed.first)
  exact ⟨text, member, same.symm⟩

theorem plain_root (placed : Placed platform row root rel) : NoDotDot root := by
  obtain ⟨text, -, rfl⟩ := placed.listed
  exact fun member => (mem_collapse member).2 rfl

theorem root_names (placed : Placed platform row root rel) (absolute : ∀ text ∈ row.agent.scanRoots, isAbsolute text) :
    ∀ name ∈ root, name ∈ row.agent.scanRoots.flatMap parts := by
  obtain ⟨text, member, rfl⟩ := placed.listed
  intro name inside
  have part := (mem_collapse inside).1
  rw [join, if_pos (absolute text member)] at part
  exact List.mem_flatMap.mpr ⟨text, member, part⟩

theorem single_root (placed : Placed platform row root rel) (absolute : ∀ text ∈ row.agent.scanRoots, isAbsolute text) :
    ∀ name ∈ root, '/' ∉ name := by
  intro name member
  obtain ⟨text, -, part⟩ := List.mem_flatMap.mp (placed.root_names absolute name member)
  exact (component_of_mem_parts part).single

-- The directory that is asked for: without `..`, and of components of the row.
theorem asked (placed : Placed platform row root rel) : ∀ name ∈ rel, Component name ∧ name ≠ ['.', '.'] ∧
    name ∈ join platform.cwd row.file.currentPath ++ parts (row.proposal.proposedPath.getD []) := by
  intro name member
  have asks := placed.asks
  generalize row.proposal.proposedPath = asked at asks ⊢
  cases asks with
  | inPlace all original current =>
      have whole : name ∈ located platform row := List.mem_of_mem_dropLast (by
        show name ∈ (located platform row).parent
        rw [current]
        exact List.mem_append_right _ member)
      have part := mem_collapse whole
      exact ⟨all name member, part.2, List.mem_append_left _ part.1⟩
  | empty => cases member
  | directory spelled plain =>
      exact ⟨component_of_mem_parts member, fun same => plain (same ▸ member), List.mem_append_right _ member⟩

theorem components (placed : Placed platform row root rel) :
    ∀ name ∈ rel ++ parts row.proposal.proposedFilename, Component name := by
  intro name member
  obtain inside | last := List.mem_append.mp member
  · exact (placed.asked name inside).1
  · exact component_of_mem_parts last

theorem plain (placed : Placed platform row root rel) : NoDotDot (root ++ rel ++ parts row.proposal.proposedFilename) := by
  intro member
  obtain inside | last := List.mem_append.mp member
  · obtain above | below := List.mem_append.mp inside
    · exact placed.plain_root above
    · exact (placed.asked _ below).2.1 rfl
  · exact placed.filename.2 last

theorem names (placed : Placed platform row root rel) (absolute : ∀ text ∈ row.agent.scanRoots, isAbsolute text) :
    ∀ name ∈ root ++ rel ++ parts row.proposal.proposedFilename, name ∈ row.names platform := by
  intro name member
  rw [Row.names]
  obtain inside | last := List.mem_append.mp member
  · obtain above | below := List.mem_append.mp inside
    · have part := placed.root_names absolute name above
      simp [part]
    · obtain now | asked := List.mem_append.mp (placed.asked name below).2.2
      · simp [now]
      · simp [asked]
  · simp [last]

theorem destKey_eq (placed : Placed platform row root rel) :
    destKey row = (row.file.agentId, some (slashed root),
      unslashed rel ++ slashed (parts row.proposal.proposedFilename)) := by
  have owner := owningRoot_of_longest placed.longest
  have name : '/' :: row.proposal.proposedFilename = slashed (parts row.proposal.proposedFilename) := by
    rw [slashed_eq_cons placed.filename.1.2, ← placed.filename.1.1]
  rw [destKey, destPath, owner, name]
  suffices dir : row.proposal.proposedPath.getD (inplaceDir row.agent row.file) = unslashed rel by rw [dir]
  have asks := placed.asks
  generalize row.proposal.proposedPath = asked at asks ⊢
  cases asks with
  | inPlace all original current =>
      have below : startsWith (slashed (root ++ rel)) (slashed root) = true := by
        rw [startsWith, List.isPrefixOf_iff_prefix, slashed_append]
        exact List.prefix_append _ _
      rw [Option.getD_none, inplaceDir, owner, original]
      simp only [below, if_true]
      rw [slashed_append, List.drop_left, ltrim_slashed all]
  | empty => rfl
  | directory spelled plain => exact spelled.1

theorem destDir_eq (placed : Placed platform row root rel) : destDir (toItem row) (located platform row) root = root ++ rel := by
  change (if row.proposal.proposedPath.getD [] = [] then (located platform row).parent
    else join root (row.proposal.proposedPath.getD [])) = root ++ rel
  have asks := placed.asks
  generalize row.proposal.proposedPath = asked at asks ⊢
  cases asks with
  | inPlace all original current => exact current
  | empty current =>
      rw [List.append_nil]
      exact current
  | directory spelled plain =>
      rw [Option.getD_some, if_neg, join_of_relative spelled]
      intro empty
      exact spelled.2 (by rw [empty]; rfl)

theorem destination_eq (placed : Placed platform row root rel) {fs : FileSystem} (single : Single platform fs (row.names platform))
    (absolute : ∀ text ∈ row.agent.scanRoots, isAbsolute text) :
    destination platform fs row = some (root ++ rel ++ parts row.proposal.proposedFilename) := by
  have source : resolveContainment platform fs (join platform.cwd row.file.currentPath) row.agent.scanRoots =
      .ok (located platform row, root) := by
    rw [resolveContainment_of_single (single.mono fun name member => by simp [Row.names, member])]
    exact contained placed.first
  have inside : ∃ owner, (rootsOf platform row.agent).find?
      (isRelativeTo (root ++ rel ++ parts row.proposal.proposedFilename)) = some owner := by
    rw [← Option.isSome_iff_exists, List.find?_isSome]
    exact ⟨root, List.mem_of_find?_eq_some placed.first, by simp [isRelativeTo, List.append_assoc]⟩
  obtain ⟨owner, found⟩ := inside
  have target : resolveContainment platform fs (root ++ rel ++ parts row.proposal.proposedFilename)
      row.agent.scanRoots = .ok (root ++ rel ++ parts row.proposal.proposedFilename, owner) := by
    have plain := collapse_of_plain placed.plain
    rw [← plain] at found
    rw [resolveContainment_of_single (single.mono (placed.names absolute)), contained found, plain]
  have proposed : resolveDestination platform fs (toItem row) (located platform row) root
      row.agent.scanRoots = .ok (root ++ rel ++ parts row.proposal.proposedFilename) := by
    have candidate : join (root ++ rel) (toItem row).proposedFilename =
        root ++ rel ++ parts row.proposal.proposedFilename := join_of_relative placed.filename.1
    simp only [resolveDestination, placed.destDir_eq, candidate, target]
    rfl
  have moved : resolveMove platform fs (toItem row) row.agent.scanRoots =
      .ok (located platform row, root ++ rel ++ parts row.proposal.proposedFilename) := by
    rw [resolveMove, toItem, source]
    change (resolveDestination platform fs (toItem row) (located platform row) root
      row.agent.scanRoots >>= fun found => pure (located platform row, found)) = _
    rw [proposed]
    rfl
  rw [destination, moved]

end Placed

theorem Outside.destination_eq {platform : Platform Text} {row : Row} (outside : Outside platform row) {fs : FileSystem}
    (single : Single platform fs (row.names platform)) : destination platform fs row = none := by
  have source : resolveContainment platform fs (join platform.cwd row.file.currentPath) row.agent.scanRoots =
      .error (.escapesScanRoots (join platform.cwd row.file.currentPath)) := by
    rw [resolveContainment_of_single (single.mono fun name member => by simp [Row.names, member])]
    exact escapes outside.current
  rw [destination, resolveMove, toItem, source]
  rfl

/-! ## Pairs of proposals -/

def SharesDestination (platform : Platform Text) (fs : FileSystem) (left right : Row) : Prop :=
  ∃ path, destination platform fs left = some path ∧ destination platform fs right = some path

-- The key tells two proposals apart exactly when the executor does.
def KeyAgrees (platform : Platform Text) (fs : FileSystem) (left right : Row) : Prop :=
  destKey left = destKey right ↔
    left.file.agentId = right.file.agentId ∧ SharesDestination platform fs left right

/-- Two proposals of one agent do not ask for one place in two ways: from two roots, one inside the
other, or by a directory and by a name that holds the directory. Two files outside every root do not ask for the same. -/
structure Apart (platform : Platform Text) (left right : Row) : Prop where
  placed : ∀ root rel root' rel', Placed platform left root rel → Placed platform right root' rel' →
    root = root' ∧ (rel = [] ↔ rel' = []) ∨
      root ++ rel ++ parts left.proposal.proposedFilename ≠ root' ++ rel' ++ parts right.proposal.proposedFilename
  outside : Outside platform left → Outside platform right → destPath left ≠ destPath right

section Pairs

variable {platform : Platform Text} {fs : FileSystem} {left right : Row}

theorem Placed.keyAgrees_iff {root root' : Path} {rel rel' : List Name} (agent : left.file.agentId = right.file.agentId)
    (placed : Placed platform left root rel) (placed' : Placed platform right root' rel')
    (single : Single platform fs (left.names platform)) (single' : Single platform fs (right.names platform))
    (absolute : ∀ text ∈ left.agent.scanRoots, isAbsolute text) (absolute' : ∀ text ∈ right.agent.scanRoots, isAbsolute text) :
    KeyAgrees platform fs left right ↔ root = root' ∧ (rel = [] ↔ rel' = []) ∨
      root ++ rel ++ parts left.proposal.proposedFilename ≠ root' ++ rel' ++ parts right.proposal.proposedFilename := by
  have shares : SharesDestination platform fs left right ↔
      root ++ rel ++ parts left.proposal.proposedFilename = root' ++ rel' ++ parts right.proposal.proposedFilename := by
    rw [SharesDestination, placed.destination_eq single absolute, placed'.destination_eq single' absolute']
    constructor
    · rintro ⟨path, here, there⟩
      exact (Option.some.inj here).trans (Option.some.inj there).symm
    · exact fun same => ⟨_, rfl, congrArg some same.symm⟩
  have keys : destKey left = destKey right ↔ root = root' ∧ (rel = [] ↔ rel' = []) ∧
      rel ++ parts left.proposal.proposedFilename = rel' ++ parts right.proposal.proposedFilename := by
    rw [placed.destKey_eq, placed'.destKey_eq, Prod.mk.injEq, Prod.mk.injEq, Option.some.injEq,
      key_injective placed.components placed'.components placed.filename.1.2 placed'.filename.1.2]
    constructor
    · exact fun same => ⟨slashed_injective (placed.single_root absolute) (placed'.single_root absolute') same.2.1, same.2.2⟩
    · exact fun same => ⟨agent, congrArg slashed same.1, same.2⟩
  rw [KeyAgrees, shares, keys]
  constructor
  · intro agrees
    by_cases same : root ++ rel ++ parts left.proposal.proposedFilename = root' ++ rel' ++ parts right.proposal.proposedFilename
    · have read := agrees.mpr ⟨agent, same⟩
      exact .inl ⟨read.1, read.2.1⟩
    · exact .inr same
  · rintro (⟨rfl, asked⟩ | differ)
    · rw [List.append_assoc, List.append_assoc, List.append_cancel_left_eq]
      exact ⟨fun same => ⟨agent, same.2.2⟩, fun same => ⟨rfl, asked, same.2⟩⟩
    · refine ⟨fun same => absurd ?_ differ, fun same => absurd same.2 differ⟩
      rw [List.append_assoc, List.append_assoc, same.1, same.2.2]

-- A key without a root is no key of a placed proposal.
theorem keyAgrees_of_mixed {root : Path} {rel : List Name} (placed : Placed platform left root rel) (outside : Outside platform right)
    (single : Single platform fs (right.names platform)) : KeyAgrees platform fs left right ∧ KeyAgrees platform fs right left := by
  have apart : destKey left ≠ destKey right := by
    intro same
    have roots := congrArg (fun key => key.2.1) same
    rw [placed.destKey_eq] at roots
    rw [show (destKey right).2.1 = none from owningRoot_of_outside outside.original] at roots
    cases roots
  have none := outside.destination_eq single
  constructor
  · refine ⟨fun same => absurd same apart, ?_⟩
    rintro ⟨-, path, -, there⟩
    rw [none] at there
    cases there
  · refine ⟨fun same => absurd same.symm apart, ?_⟩
    rintro ⟨-, path, here, -⟩
    rw [none] at here
    cases here

theorem Outside.keyAgrees_iff (agent : left.file.agentId = right.file.agentId) (outside : Outside platform left)
    (outside' : Outside platform right) (single : Single platform fs (left.names platform)) :
    KeyAgrees platform fs left right ↔ destPath left ≠ destPath right := by
  have unshared : ¬ SharesDestination platform fs left right := by
    rintro ⟨path, here, -⟩
    rw [outside.destination_eq single] at here
    cases here
  rw [KeyAgrees, destKey, destKey, owningRoot_of_outside outside.original, owningRoot_of_outside outside'.original]
  simp [agent, unshared]

theorem Outside.not_placed {row : Row} {root : Path} {rel : List Name} (outside : Outside platform row) :
    ¬ Placed platform row root rel := by
  intro placed
  have first := placed.first
  rw [outside.current] at first
  cases first

-- Two readings of one proposal are the same.
theorem Placed.unique {row : Row} {root root' : Path} {rel rel' : List Name} (placed : Placed platform row root rel)
    (other : Placed platform row root' rel') : root = root' ∧ rel = rel' := by
  obtain rfl : root = root' := Option.some.inj (placed.first.symm.trans other.first)
  exact ⟨rfl, List.append_cancel_left (placed.destDir_eq.symm.trans other.destDir_eq)⟩

theorem Placed.apart {root root' : Path} {rel rel' : List Name} (placed : Placed platform left root rel)
    (placed' : Placed platform right root' rel') (differ : root = root' ∧ (rel = [] ↔ rel' = []) ∨
      root ++ rel ++ parts left.proposal.proposedFilename ≠ root' ++ rel' ++ parts right.proposal.proposedFilename) :
    Apart platform left right := by
  refine ⟨fun root rel root' rel' other other' => ?_, fun outside => absurd placed outside.not_placed⟩
  obtain ⟨rfl, rfl⟩ := placed.unique other
  obtain ⟨rfl, rfl⟩ := placed'.unique other'
  exact differ

theorem keyAgrees_iff (agent : left.file.agentId = right.file.agentId) (read : Read platform left) (read' : Read platform right)
    (single : Single platform fs (left.names platform)) (single' : Single platform fs (right.names platform))
    (absolute : ∀ text ∈ left.agent.scanRoots, isAbsolute text) (absolute' : ∀ text ∈ right.agent.scanRoots, isAbsolute text) :
    KeyAgrees platform fs left right ↔ Apart platform left right := by
  have pair : ∀ {root rel root' rel'}, Placed platform left root rel → Placed platform right root' rel' →
      (KeyAgrees platform fs left right ↔ root = root' ∧ (rel = [] ↔ rel' = []) ∨
        root ++ rel ++ parts left.proposal.proposedFilename ≠ root' ++ rel' ++ parts right.proposal.proposedFilename) :=
    fun placed placed' => placed.keyAgrees_iff agent placed' single single' absolute absolute'
  constructor
  · intro agrees
    exact ⟨fun root rel root' rel' placed placed' => (pair placed placed').mp agrees,
      fun outside outside' => (outside.keyAgrees_iff agent outside' single).mp agrees⟩
  · intro apart
    obtain ⟨root, rel, placed⟩ | outside := read
    · obtain ⟨root', rel', placed'⟩ | outside' := read'
      · exact (pair placed placed').mpr (apart.placed root rel root' rel' placed placed')
      · exact (keyAgrees_of_mixed placed outside' single').1
    · obtain ⟨root', rel', placed'⟩ | outside' := read'
      · exact (keyAgrees_of_mixed placed' outside single).2
      · exact (outside.keyAgrees_iff agent outside' single).mpr (apart.outside outside outside')

theorem keyAgrees_of_agents (agents : left.file.agentId ≠ right.file.agentId) : KeyAgrees platform fs left right :=
  ⟨fun same => absurd (congrArg Prod.fst same) agents, fun shared => absurd shared.1 agents⟩

end Pairs

/-! ## Detection -/

theorem detectCollisions_eq_nil_iff (db : Database) :
    detectCollisions db = [] ↔ db.approved.Pairwise fun left right => destKey left ≠ destKey right := by
  rw [detectCollisions, List.map_eq_nil_iff, List.filter_eq_nil_iff, ← List.pairwise_map (f := destKey)]
  change _ ↔ (db.approved.map destKey).Nodup
  rw [List.nodup_iff_count_le_one]
  constructor
  · intro few key
    by_cases member : key ∈ db.approved.map destKey
    · simpa using few key (List.mem_dedup.mpr member)
    · rw [List.count_eq_zero_of_not_mem member]
      exact Nat.zero_le 1
  · intro few key _
    simpa using few key

theorem pairwise_groups_iff (db : Database) {related : Row → Row → Prop} (symmetric : ∀ {a b}, related a b → related b a) :
    (∀ agentId, (groupOf db agentId).Pairwise related) ↔
      db.approved.Pairwise fun left right => left.file.agentId = right.file.agentId → related left right := by
  have group : ∀ agentId, (groupOf db agentId).Pairwise related ↔
      db.approved.Pairwise fun left right => left.file.agentId = agentId → right.file.agentId = agentId →
        related left right := by
    intro agentId
    rw [groupOf, (List.mergeSort_perm _ _).pairwise_iff symmetric, List.pairwise_filter]
    simp
  simp only [group, List.pairwise_iff_forall_sublist]
  constructor
  · intro all left right both same
    exact all right.file.agentId both same rfl
  · intro all agentId left right both here there
    exact all both (here.trans there.symm)

-- Two proposals of one agent, each read alike by both sides.
def ReadAlike (platform : Platform Text) (left right : Row) : Prop :=
  left.file.agentId = right.file.agentId → Read platform left ∧ Read platform right

namespace Sample

def agent : Agent := ⟨['s'], ["/r/".toList], none⟩

def file (id original current : String) : FileRecord := ⟨id.toList, ['s'], original.toList, current.toList, []⟩

def proposal (id fileId : String) (path : Option Text) (filename : String) (createdAt : Nat) : RenameProposal :=
  ⟨id.toList, fileId.toList, path, filename.toList, .approved, createdAt⟩

def platform : Platform Text := ⟨fun _ => [], id, id, fun _ _ => none, []⟩

def fs : FileSystem := .ofDirs fun _ => none

theorem nfcNames (db : Database) : NfcNames platform fs db := ⟨fun _ _ _ _ _ => rfl, fun _ _ _ _ => rfl⟩

-- Two renames in place; the first file was moved from `/r/a` to `/r/b` before.
def moved : Database where
  agents := [agent]
  files := [file "f" "/r/a/x" "/r/b/x", file "g" "/r/b/y" "/r/b/y"]
  proposals := [proposal "p" "f" none "n" 1, proposal "q" "g" none "n" 2]
  agentKey := by decide
  fileKey := by decide
  proposalKey := by decide

def inner : Agent := ⟨['s'], ["/r/a/".toList, "/r".toList], none⟩

def outerRow : Row := ⟨proposal "p" "f" none "n" 1, file "f" "/r/x/1" "/r/x/1", inner⟩

def renamedRow : Row := ⟨proposal "q" "g" none "m" 2, file "g" "/r/a/y/2" "/r/a/y/2", inner⟩

def sentRow : Row := ⟨proposal "t" "h" (some ['y']) "m" 3, file "h" "/r/a/3" "/r/a/z/3", inner⟩

-- Under nested roots: one rename in place below each, and a file sent to the place of the second.
def nested : Database where
  agents := [inner]
  files := [outerRow.file, renamedRow.file, sentRow.file]
  proposals := [outerRow.proposal, renamedRow.proposal, sentRow.proposal]
  agentKey := by decide
  fileKey := by decide
  proposalKey := by decide

theorem nested_approved : nested.approved = [outerRow, renamedRow, sentRow] := by rfl

theorem component {name : Name} (plain : name ≠ [] ∧ '/' ∉ name ∧ name ≠ ['.']) : Component name := ⟨plain.1, plain.2.1, plain.2.2⟩

theorem placed_outer : Placed platform outerRow [['r']] [['x']] :=
  { longest := ⟨by decide, by decide, by decide⟩
    first := by decide
    asks := .inPlace (by simpa using component (by decide)) (by decide) (by decide)
    filename := by decide }

theorem placed_renamed : Placed platform renamedRow [['r'], ['a']] [['y']] :=
  { longest := ⟨by decide, by decide, by decide⟩
    first := by decide
    asks := .inPlace (by simpa using component (by decide)) (by decide) (by decide)
    filename := by decide }

theorem placed_sent : Placed platform sentRow [['r'], ['a']] [['y']] :=
  { longest := ⟨by decide, by decide, by decide⟩
    first := by decide
    asks := AsksFor.directory (show SpelledRelative ['y'] by decide) (by decide)
    filename := by decide }

theorem nested_read : nested.approved.Pairwise (ReadAlike platform) := by
  rw [nested_approved]
  have all : ∀ row ∈ [outerRow, renamedRow, sentRow], Read platform row := by
    intro row member
    obtain rfl | rfl | rfl : row = outerRow ∨ row = renamedRow ∨ row = sentRow := by simpa using member
    · exact .inl ⟨_, _, placed_outer⟩
    · exact .inl ⟨_, _, placed_renamed⟩
    · exact .inl ⟨_, _, placed_sent⟩
  exact List.Pairwise.imp_of_mem (fun here there _ _ => ⟨all _ here, all _ there⟩) (List.pairwise_of_forall fun _ _ => trivial)

theorem nested_apart : nested.approved.Pairwise fun left right => left.file.agentId = right.file.agentId → Apart platform left right := by
  rw [nested_approved]
  have first : Apart platform outerRow renamedRow := placed_outer.apart placed_renamed (.inr (by decide))
  have second : Apart platform outerRow sentRow := placed_outer.apart placed_sent (.inr (by decide))
  have third : Apart platform renamedRow sentRow := placed_renamed.apart placed_sent (.inl (by decide))
  simp [first, second, third]

end Sample

end Phaze.Collision
