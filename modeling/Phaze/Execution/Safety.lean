import Phaze.Execution.Engine

set_option autoImplicit false

/-!
# What every step of a move keeps

The invariant is about the file system alone: neither the job's metadata nor the corroboration
derived from it is needed for it.
-/

namespace Phaze.Execution

open Shared

/-- One move, as the file system was before its first attempt. -/
structure Task where
  start : FileSystem
  original : Path
  proposed : Path
  proposalId : Text
  source : Nat
  present : start.entry original = some source

namespace Task

variable (task : Task)

def bytes : Bytes := (task.start.inode task.source).bytes

def marker : Path := committedCopyMarkerPath task.proposed task.proposalId

def tmp (tag : Text) : Path := uniqueTmpPath task.proposed tag

@[simp] theorem parent_marker : task.marker.parent = task.proposed.parent := by
  simp [marker, committedCopyMarkerPath]

theorem marker_ne_proposed : task.marker ≠ task.proposed := by
  intro same
  have names := congrArg (fun path => (Path.name path).length) same
  simp only [marker, committedCopyMarkerPath, Path.name_withName, List.length_append,
    List.length_cons] at names
  omega

theorem tmp_ne_proposed (tag : Text) : task.tmp tag ≠ task.proposed := by
  intro same
  have names := congrArg (fun path => (Path.name path).length) same
  simp only [tmp, uniqueTmpPath, Path.name_withName, List.length_append, List.length_cons] at names
  omega

theorem tmp_ne_marker (tag : Text) : task.tmp tag ≠ task.marker := by
  intro same
  have names := congrArg Path.name same
  have letter : copyTmpSuffix = ".phaze-".toList ++ 't' :: "mp".toList := by decide
  have letter' : commitMarkerSuffix = ".phaze-".toList ++ 'c' :: "ommitted".toList := by decide
  simp only [tmp, marker, uniqueTmpPath, committedCopyMarkerPath, Path.name_withName, letter, letter',
    List.append_assoc, List.append_cancel_left_eq, List.cons_append, List.cons.injEq] at names
  exact absurd names.1 (by decide)

end Task

/-- The source entry is the original one or gone, its bytes are reachable, and every entry the
first attempt found is as it was, apart from the source and what the marker's path led to. -/
structure Safe (task : Task) (fs : FileSystem) : Prop where
  source : fs.entry task.original = none ∨ fs.entry task.original = some task.source
  kept : (fs.inode task.source).bytes = task.bytes
  reach : fs.entry task.original = some task.source ∨ fs.contents task.proposed = some task.bytes
  frame : ∀ path number, task.start.entry path = some number → path ≠ task.original →
    task.start.entry task.marker ≠ some number →
    fs.entry path = some number ∧ (fs.inode number).bytes = (task.start.inode number).bytes
  marker : ∀ number, fs.entry task.marker = some number →
    task.start.entry task.marker = some number ∨ task.start.next ≤ number
  grown : task.start.next ≤ fs.next

namespace Safe

variable {task : Task} {fs : FileSystem}

theorem initial (task : Task) : Safe task task.start where
  source := .inr task.present
  kept := rfl
  reach := .inl task.present
  frame := fun _ _ found _ _ => ⟨found, rfl⟩
  marker := fun _ found => .inl found
  grown := le_rfl

theorem congr {after : FileSystem} (safe : Safe task fs) (entry : after.entry = fs.entry)
    (inode : after.inode = fs.inode) (next : after.next = fs.next) : Safe task after := by
  obtain ⟨source, kept, reach, frame, marker, grown⟩ := safe
  constructor <;> simp only [FileSystem.contents, entry, inode, next] at * <;> assumption

theorem source_of_some (safe : Safe task fs) {number : Nat}
    (found : fs.entry task.original = some number) : number = task.source := by
  rcases safe.source with gone | here
  · rw [gone] at found; cases found
  · rw [here] at found; exact (Option.some.inj found).symm

theorem contents_of_gone (safe : Safe task fs) (gone : fs.entry task.original = none) :
    fs.contents task.proposed = some task.bytes := by
  rcases safe.reach with here | there
  · rw [gone] at here; cases here
  · exact there

theorem absent (safe : Safe task fs) {path : Path} {number : Nat}
    (vacant : fs.entry path = none) (found : task.start.entry path = some number)
    (other : path ≠ task.original) : task.start.entry task.marker = some number := by
  by_contra unmarked
  have kept := (safe.frame path number found other unmarked).1
  rw [vacant] at kept
  cases kept

theorem detach_original (safe : Safe task fs) {number : Nat}
    (found : fs.entry task.original = some number) (moved : task.proposed ≠ task.original)
    (copied : fs.contents task.proposed = some task.bytes) :
    Safe task (fs.detach task.original number found) where
  source := .inl (by simp [FileSystem.detach_entry])
  kept := by simpa using safe.kept
  reach := .inr (by simpa [FileSystem.contents, FileSystem.detach_entry, moved] using copied)
  frame := by
    intro path other present different unmarked
    simpa [FileSystem.detach_entry, different] using safe.frame path other present different unmarked
  marker := by
    intro other present
    rw [FileSystem.detach_entry] at present
    split at present
    · cases present
    · exact safe.marker other present
  grown := safe.grown

theorem clear_marker (safe : Safe task fs) (gone : fs.entry task.original = none) :
    Safe task (fs.clear task.marker) where
  source := .inl (by simp [FileSystem.clear_entry, gone])
  kept := by simpa using safe.kept
  reach := by
    refine .inr ?_
    simpa [FileSystem.contents, FileSystem.clear_entry, task.marker_ne_proposed.symm]
      using safe.contents_of_gone gone
  frame := by
    intro path number present different unmarked
    have other : path ≠ task.marker := fun same => unmarked (same ▸ present)
    simpa [FileSystem.clear_entry, other] using safe.frame path number present different unmarked
  marker := by simp [FileSystem.clear_entry]
  grown := by simpa using safe.grown

theorem setBytes (safe : Safe task fs) {number : Nat} {bytes : Bytes}
    (here : fs.entry task.original = some task.source) (other : number ≠ task.source)
    (own : task.start.entry task.marker = some number ∨ task.start.next ≤ number) :
    Safe task (fs.setBytes number bytes) where
  source := .inr here
  kept := by simpa [FileSystem.setBytes_bytes, other.symm] using safe.kept
  reach := .inl here
  frame := by
    intro path found present different unmarked
    have separate : found ≠ number := by
      rintro rfl
      rcases own with marked | fresh
      · exact unmarked marked
      · exact absurd (task.start.used path found present) (by omega)
    simpa [FileSystem.setBytes_bytes, separate] using safe.frame path found present different unmarked
  marker := safe.marker
  grown := safe.grown

theorem insert (safe : Safe task fs) {path : Path} {device : Nat} {home free}
    (here : fs.entry task.original = some task.source) (vacant : fs.entry path = none) :
    Safe task (fs.insert path device home free) := by
  have elsewhere : task.original ≠ path := by
    rintro same
    rw [← same, here] at vacant
    cases vacant
  have old : task.source ≠ fs.next := (fs.used _ _ here).ne
  refine ⟨.inr ?_, ?_, .inl ?_, ?_, ?_, ?_⟩
  · simpa [FileSystem.insert_entry, elsewhere] using here
  · simpa [FileSystem.insert_bytes, old] using safe.kept
  · simpa [FileSystem.insert_entry, elsewhere] using here
  · intro other number present different unmarked
    have facts := safe.frame other number present different unmarked
    have apart : other ≠ path := by
      rintro rfl
      rw [vacant] at facts
      cases facts.1
    have known : number ≠ fs.next := (fs.used _ _ facts.1).ne
    simpa [FileSystem.insert_entry, FileSystem.insert_bytes, apart, known] using facts
  · intro number present
    rw [FileSystem.insert_entry] at present
    split at present
    · exact .inr (Option.some.inj present ▸ safe.grown)
    · exact safe.marker number present
  · exact safe.grown.trans (Nat.le_succ _)

theorem attach_proposed (safe : Safe task fs) {number : Nat} {known home free absent}
    (here : fs.entry task.original = some task.source) :
    Safe task (fs.attach task.proposed number known home free absent) := by
  have elsewhere : task.original ≠ task.proposed := by
    intro same
    rw [same, absent] at here
    cases here
  refine ⟨.inr ?_, ?_, .inl ?_, ?_, ?_, safe.grown⟩
  · simpa [FileSystem.attach_entry, elsewhere] using here
  · simpa using safe.kept
  · simpa [FileSystem.attach_entry, elsewhere] using here
  · intro path other present different unmarked
    have facts := safe.frame path other present different unmarked
    have apart : path ≠ task.proposed := by
      rintro rfl
      rw [absent] at facts
      cases facts.1
    simpa [FileSystem.attach_entry, apart] using facts
  · intro other present
    rw [FileSystem.attach_entry, if_neg task.marker_ne_proposed] at present
    exact safe.marker other present

theorem clear_tmp (safe : Safe task fs) {tag : Text}
    (here : fs.entry task.original = some task.source) (elsewhere : task.original ≠ task.tmp tag)
    (unclaimed : ∀ number, task.start.entry (task.tmp tag) = some number →
      task.start.entry task.marker = some number) :
    Safe task (fs.clear (task.tmp tag)) := by
  refine ⟨.inr ?_, ?_, .inl ?_, ?_, ?_, ?_⟩
  · simpa [FileSystem.clear_entry, elsewhere] using here
  · simpa using safe.kept
  · simpa [FileSystem.clear_entry, elsewhere] using here
  · intro path number present different unmarked
    have apart : path ≠ task.tmp tag := by
      rintro rfl
      exact unmarked (unclaimed number present)
    simpa [FileSystem.clear_entry, apart] using safe.frame path number present different unmarked
  · intro number present
    rw [FileSystem.clear_entry, if_neg (task.tmp_ne_marker tag).symm] at present
    exact safe.marker number present
  · simpa using safe.grown

end Safe

end Phaze.Execution
