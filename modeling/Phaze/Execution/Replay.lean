import Phaze.Execution.MoveSpec

set_option autoImplicit false

/-!
# Moves that are stopped and replayed

What a whole attempt keeps, wherever it is stopped, and what a successful one delivers.
-/

namespace Phaze.Execution

open Shared

variable {Hash : Type} {platform : Platform Hash} {task : Task}

-- What success promises: the bytes are at the destination and nowhere else of this move.
structure Delivered (task : Task) (fs : FileSystem) : Prop where
  copied : fs.contents task.proposed = some task.bytes
  gone : task.original = task.proposed ∨ fs.entry task.original = none
  unmarked : fs.entry task.marker = none

/-- The state an attempt has to find: source and destination are not two links that differ only
by case, and a move within one device finds no entry at its marker's path but the source. -/
structure Clean (platform : Platform Hash) (task : Task) (fs : FileSystem) : Prop where
  distinct : task.original ≠ task.proposed → fs.entry task.original = some task.source →
    fs.entry task.proposed = some task.source → ¬ isCaseOnlySameEntry platform task.original task.proposed
  unmarked : ∀ number, fs.entry task.marker = some number → fs.entry task.original = some task.source →
    task.marker = task.original ∨ (fs.inode number).device ≠ (fs.inode task.source).device

theorem OnlyDirs.clean_iff {before after : FileSystem} (same : OnlyDirs before after) :
    Clean platform task before ↔ Clean platform task after := by
  constructor <;> rintro ⟨distinct, unmarked⟩ <;> constructor <;>
    simp only [same.entry, same.inode] at * <;> assumption

theorem Settled.delivered {fs : FileSystem} (settled : Settled task fs) : Delivered task fs :=
  ⟨settled.copied, .inr settled.gone, settled.unmarked⟩

theorem device_of_marker {fs : FileSystem} {device number : Nat}
    (home : fs.dir task.proposed.parent = some device) (marked : fs.entry task.marker = some number) :
    (fs.inode number).device = device := by
  have placed := fs.placed _ _ marked
  rw [task.parent_marker, home] at placed
  exact (Option.some.inj placed).symm

theorem device_of_proposed {fs : FileSystem} {device number : Nat}
    (home : fs.dir task.proposed.parent = some device) (found : fs.entry task.proposed = some number) :
    (fs.inode number).device = device := by
  have placed := fs.placed _ _ found
  rw [home] at placed
  exact (Option.some.inj placed).symm

/-! ## The branches of `_apply_file_move` -/

theorem reclaimOrRefuse_spec [DecidableEq Hash] {item : ExecuteBatchProposalItem Hash} {sameFs : Bool}
    (injective : Function.Injective platform.sha256)
    (known : ∀ hash, item.sha256Hash = some hash → hash = platform.sha256 task.bytes)
    (named : item.proposalId = task.proposalId) (moved : task.proposed ≠ task.original) :
    Keeps (Safe task) (Safe task)
      (reclaimOrRefuseExistingDestination platform task.original task.proposed item sameFs)
      fun _ fs => sameFs = false ∧ Settled task fs := by
  simp only [reclaimOrRefuseExistingDestination, named]
  refine Keeps.pointwise fun fs safe => Keeps.bind_look safe fun marked _ => ?_
  refine Keeps.ite (fun _ => Keeps.raise fun _ same => same ▸ safe) fun other => ?_
  have across : sameFs = false := by
    cases sameFs <;> simp_all
  suffices ran : Keeps (Safe task) (Safe task) _ fun _ fs => sameFs = false ∧ Settled task fs from
    ran.weaken (fun _ same => same ▸ safe) fun _ _ done => done
  refine Keeps.bind _ (destinationIsCommittedCopy_spec injective known fun _ kept => kept) fun committed => ?_
  refine Keeps.ite (fun copy => ?_) fun _ => Keeps.raise fun _ start => start.1
  refine Keeps.bind _ (Keeps.setStep fun _ start => start.1) fun _ => ?_
  refine Keeps.bind (fun _ fs => Safe task fs ∧ fs.entry task.original = none) ?_ fun _ => ?_
  · refine Keeps.pointwise fun fs start => ?_
    refine (unlinkOriginal_spec (fs.entry task.marker)).weaken ?_ ?_
    · rintro _ rfl
      exact ⟨start.1, moved, start.2 copy, rfl⟩
    · exact fun _ _ done => ⟨done.1, done.2.1⟩
  · exact unlinkMarker_spec.weaken (fun _ start => start) fun _ _ done => ⟨across, done⟩

theorem clean_iff_of_home {fs : FileSystem} (here : fs.entry task.original = some task.source)
    (home : fs.dir task.proposed.parent = some (fs.inode task.source).device) :
    Clean platform task fs ↔
      (task.original ≠ task.proposed → fs.entry task.proposed = some task.source →
        ¬ isCaseOnlySameEntry platform task.original task.proposed) ∧
      (task.marker = task.original ∨ fs.entry task.marker = none) := by
  constructor
  · rintro ⟨distinct, unmarked⟩
    refine ⟨fun moved linked => distinct moved here linked, ?_⟩
    cases marked : fs.entry task.marker with
    | none => exact .inr rfl
    | some number =>
        refine .inl ((unmarked number marked here).resolve_right fun apart => ?_)
        exact apart (device_of_marker home marked)
  · rintro ⟨distinct, unmarked⟩
    refine ⟨fun moved _ linked => distinct moved linked, fun number marked _ => ?_⟩
    rcases unmarked with same | vacant
    · exact .inl same
    · rw [vacant] at marked
      cases marked

theorem clean_of_across {fs : FileSystem} {device : Nat}
    (home : fs.dir task.proposed.parent = some device) (across : device ≠ (fs.inode task.source).device) :
    Clean platform task fs := by
  refine ⟨fun _ _ linked => ?_, fun number marked _ => .inr ?_⟩
  · exact absurd (device_of_proposed home linked) across.symm
  · rw [device_of_marker home marked]
    exact across

theorem delivered_iff_of_gone {fs : FileSystem} {mark : Option Nat} (safe : Safe task fs)
    (gone : fs.entry task.original = none)
    (marked : fs.entry task.marker = if task.marker = task.original then none else mark) :
    Delivered task fs ↔ task.marker = task.original ∨ mark = none := by
  constructor
  · intro delivered
    by_cases same : task.marker = task.original
    · exact .inl same
    · rw [delivered.unmarked, if_neg same] at marked
      exact .inr marked.symm
  · intro unmarked
    refine ⟨safe.contents_of_gone gone, .inr gone, ?_⟩
    rw [marked]
    rcases unmarked with same | vacant
    · rw [if_pos same]
    · rw [vacant, ite_self]

-- Two names of one inode: the source is removed, except where the names differ only by case.
theorem moveSameFsEntry_spec {fs : FileSystem} (safe : Safe task fs)
    (here : fs.entry task.original = some task.source)
    (linked : fs.entry task.proposed = some task.source) :
    Keeps (Safe task) (· = fs) (moveSameFsEntry platform task.original task.proposed)
      fun _ after => Safe task after ∧ (Delivered task after ↔ Clean platform task fs) := by
  have home := fs.placed _ _ linked
  rw [clean_iff_of_home here home]
  have copied : fs.contents task.proposed = some task.bytes := by
    simp [FileSystem.contents, linked, safe.kept]
  have stays : Keeps (Safe task) (· = fs) (call (·.rename task.original task.proposed) : Action Hash Unit)
      fun _ after => Safe task after ∧ after = fs := by
    refine Keeps.call (fun _ same => same ▸ safe) ?_
    rintro _ result after rfl renamed
    rw [FileSystem.rename_linked here linked] at renamed
    obtain ⟨-, rfl⟩ := Prod.mk.inj (Except.ok.inj renamed)
    exact ⟨safe, safe, rfl⟩
  refine Keeps.ite (fun moved => ?_) fun kept => ?_
  · refine Keeps.bind_look safe fun source seen => ?_
    have links : source.nlink > 1 := by
      have count := fs.counted task.source {task.original, task.proposed} (by simp [here, linked])
      rw [Finset.card_pair moved.1] at count
      simp only [FileSystem.stat, here, Except.ok.injEq] at seen
      rw [← seen]
      exact count
    rw [if_pos links]
    refine Keeps.bind _ (Keeps.setStep fun _ same => same ▸ safe) fun _ => ?_
    refine (unlinkOriginal_spec (fs.entry task.marker)).weaken ?_ ?_
    · rintro _ rfl
      exact ⟨safe, moved.1.symm, copied, rfl⟩
    · rintro _ after ⟨kept, gone, marked⟩
      rw [delivered_iff_of_gone kept gone marked]
      exact ⟨kept, fun unmarked => ⟨fun _ _ => moved.2, unmarked⟩, fun clean => clean.2⟩
  · refine stays.weaken (fun _ same => same) ?_
    rintro _ _ ⟨safe, rfl⟩
    refine ⟨safe, ?_⟩
    by_cases same : task.original = task.proposed
    · have apart : task.marker ≠ task.original := same ▸ task.marker_ne_proposed
      refine ⟨fun delivered => ⟨fun moved => absurd same moved, .inr delivered.unmarked⟩, ?_⟩
      exact fun clean => ⟨copied, .inl same, clean.2.resolve_left apart⟩
    · have onlyCase : isCaseOnlySameEntry platform task.original task.proposed := by
        by_contra other
        exact kept ⟨same, other⟩
      refine ⟨fun delivered => ?_, fun clean => absurd onlyCase (clean.1 same linked)⟩
      rcases delivered.gone with equal | gone
      · exact absurd equal same
      · rw [here] at gone
        cases gone

/-! ## Whole moves -/

theorem stat_of_entry {fs : FileSystem} {path : Path} {number : Nat} (found : fs.entry path = some number) :
    fs.stat path = .ok (.file number (fs.inode number).device (fs.inode number).nlink) := by
  simp [FileSystem.stat, found]

theorem stat_of_dir {fs : FileSystem} {path : Path} {device : Nat} (found : fs.dir path = some device) :
    fs.stat path = .ok (.dir path device) := by
  simp [FileSystem.stat, found, fs.apart path (by simp [found])]

theorem sameFilesystem_spec {inv : FileSystem → Prop} {fs : FileSystem} {src dstDir : Path} {device : Nat}
    (kept : inv fs) (home : fs.dir dstDir = some device) :
    Keeps inv (· = fs) (sameFilesystem src dstDir : Action Hash Bool) fun same after =>
      (∀ number, fs.entry src = some number → same = decide ((fs.inode number).device = device)) ∧
        after = fs := by
  refine Keeps.bind_look kept fun source seen => Keeps.bind_look kept fun target found => ?_
  refine Keeps.ret fun after same => ⟨fun number present => ?_, same⟩
  rw [stat_of_entry present] at seen
  rw [stat_of_dir home] at found
  rw [← Except.ok.inj seen, ← Except.ok.inj found]
  rfl

theorem sameFile_of_entry {fs : FileSystem} {a b : Path} {number : Nat} (found : fs.entry a = some number) :
    sameFile fs a b = true ↔ fs.entry b = some number := by
  rw [sameFile, stat_of_entry found]
  cases other : fs.entry b with
  | some there => simp [stat_of_entry other, FileSystem.Stat.same, eq_comm]
  | none =>
      cases home : fs.dir b with
      | some device => simp [stat_of_dir home, FileSystem.Stat.same]
      | none => simp [FileSystem.stat, other, home]

theorem sameFile_of_gone {fs : FileSystem} {a b : Path} {number : Nat} (gone : fs.entry a = none)
    (found : fs.entry b = some number) : sameFile fs a b = false := by
  rw [sameFile, stat_of_entry found]
  cases home : fs.dir a with
  | some device => simp [stat_of_dir home, FileSystem.Stat.same]
  | none => simp [FileSystem.stat, gone, home]

section

variable [DecidableEq Hash]

theorem applyFileMove_spec {fs : FileSystem} {tag : Text} {item : ExecuteBatchProposalItem Hash}
    (injective : Function.Injective platform.sha256)
    (known : ∀ hash, item.sha256Hash = some hash → hash = platform.sha256 task.bytes)
    (named : item.proposalId = task.proposalId) (safe : Safe task fs)
    (vacant : fs.entry (task.tmp tag) = none) :
    Keeps (Safe task) (· = fs) (applyFileMove platform tag task.original task.proposed item)
      fun _ after => Safe task after ∧ (Delivered task after ↔ Clean platform task fs) := by
  refine Keeps.bind _ (Keeps.setStep fun _ same => same ▸ safe) fun _ => ?_
  refine Keeps.bind _ ((mkdirParents_spec safe task.proposed.parent).weaken ?_ fun _ _ done => done) fun _ => ?_
  · rintro _ rfl
    exact ⟨rfl, rfl, rfl⟩
  refine Keeps.pointwise fun made start => ?_
  obtain ⟨onlyDirs, present⟩ := start
  rw [onlyDirs.clean_iff]
  rw [← onlyDirs.entry] at vacant
  replace safe := onlyDirs.safe safe
  clear onlyDirs fs
  obtain ⟨device, home⟩ := Option.isSome_iff_exists.mp present
  refine Keeps.bind _ (sameFilesystem_spec safe home) fun sameFs => Keeps.pull fun sameDevice => ?_
  refine Keeps.bind_look safe fun occupied found => Keeps.bind_look safe fun same answer => ?_
  obtain rfl := Except.ok.inj found
  obtain rfl := Except.ok.inj answer
  cases here : made.entry task.original with
  | none =>
      -- The source is gone, so the destination is there and can only be reclaimed or refused.
      have copied := safe.contents_of_gone here
      simp only [FileSystem.contents, Option.map_eq_some_iff] at copied
      obtain ⟨number, published, -⟩ := copied
      have moved : task.proposed ≠ task.original := by
        intro equal
        rw [equal, here] at published
        cases published
      rw [if_pos ⟨by simp [FileSystem.exist, published], by simp [sameFile_of_gone here published]⟩]
      refine (reclaimOrRefuse_spec injective known named moved).weaken (fun _ same => same ▸ safe) ?_
      rintro _ after ⟨-, settled⟩
      refine ⟨settled.safe, fun _ => ⟨?_, ?_⟩, fun _ => settled.delivered⟩
      · intro _ there
        rw [here] at there
        cases there
      · intro _ _ there
        rw [here] at there
        cases there
  | some number =>
      obtain rfl := safe.source_of_some here
      have linked := sameFile_of_entry (b := task.proposed) here
      have across : sameFs = false → device ≠ (made.inode task.source).device := by
        intro other equal
        rw [sameDevice _ here, equal] at other
        simp at other
      refine Keeps.ite (fun foreign => ?_) fun mine => ?_
      · have moved : task.proposed ≠ task.original := by
          intro equal
          exact foreign.2 (linked.mpr (equal ▸ here))
        refine (reclaimOrRefuse_spec injective known named moved).weaken (fun _ same => same ▸ safe) ?_
        rintro _ after ⟨other, settled⟩
        exact ⟨settled.safe, fun _ => clean_of_across home (across other), fun _ => settled.delivered⟩
      refine Keeps.ite (fun within => ?_) fun other => ?_
      · have near : made.dir task.proposed.parent = some (made.inode task.source).device := by
          rw [home]
          rw [sameDevice _ here] at within
          simpa using (of_decide_eq_true within).symm
        refine Keeps.ite (fun same => moveSameFsEntry_spec safe here (linked.mp same)) fun different => ?_
        rw [clean_iff_of_home here near]
        refine (atomicSameFsMove_spec (made.entry task.marker)).weaken ?_ ?_
        · rintro _ rfl
          exact ⟨safe, here, rfl⟩
        · rintro _ after ⟨kept, gone, marked⟩
          rw [delivered_iff_of_gone kept gone marked]
          refine ⟨kept, fun unmarked => ⟨fun _ there => ?_, unmarked⟩, fun clean => clean.2⟩
          exact absurd (linked.mpr there) different
      · have apart := across (by simpa using other)
        have staged : Staged task made := by
          refine ⟨safe, here, fun marked => ?_⟩
          exact apart (device_of_marker home marked).symm
        refine (moveAcrossFilesystem_spec named).weaken ?_ ?_
        · rintro _ rfl
          exact ⟨staged, vacant⟩
        · rintro _ after settled
          exact ⟨settled.safe, fun _ => clean_of_across home apart, fun _ => settled.delivered⟩

/-- The attempt resolves the proposal to the paths of the task, if it resolves it at all. -/
def Steady (platform : Platform Hash) (task : Task) (item : ExecuteBatchProposalItem Hash)
    (scanRoots : List Text) (fs : FileSystem) : Prop :=
  ∀ paths, resolveMove platform fs item scanRoots = .ok paths → paths = (task.original, task.proposed)

def FreshTag (platform : Platform Hash) (item : ExecuteBatchProposalItem Hash) (scanRoots : List Text)
    (tag : Text) (fs : FileSystem) : Prop :=
  ∀ original proposed, resolveMove platform fs item scanRoots = .ok (original, proposed) →
    fs.entry (uniqueTmpPath proposed tag) = none

theorem move_spec {fs : FileSystem} (request : FilesystemMoveRequest Hash)
    (injective : Function.Injective platform.sha256) (named : request.item.proposalId = task.proposalId)
    (steady : Steady platform task request.item request.scanRoots fs) (safe : Safe task fs)
    (fresh : FreshTag platform request.item request.scanRoots request.tag fs) :
    Keeps (Safe task) (· = fs) (move platform request) fun _ after =>
      Safe task after ∧ (Delivered task after ↔ Clean platform task fs) ∧
        ∀ hash, request.item.sha256Hash = some hash → platform.sha256 task.bytes = hash := by
  refine Keeps.bind_read (resolveMove platform · request.item request.scanRoots) safe fun paths resolved => ?_
  obtain rfl := steady paths resolved
  have vacant := fresh _ _ resolved
  simp only [named]
  refine Keeps.bind (fun moved after => (moved = true → fs.entry task.original = none) ∧ after = fs) ?_
    fun alreadyMoved => Keeps.pull fun corroborated => ?_
  · refine Keeps.bind_look safe fun originalExists found => Keeps.bind_look safe fun proposedExists _ => ?_
    refine Keeps.ite (fun _ => Keeps.ret fun _ same => ⟨by simp, same⟩) fun absent => ?_
    refine Keeps.bind_look safe fun marked _ => Keeps.ret fun _ same => ⟨fun _ => ?_, same⟩
    have gone : fs.exist task.original = false := by
      rw [Except.ok.inj found]
      simpa using fun there => absent (.inl there)
    simpa [FileSystem.exist] using (Bool.or_eq_false_iff.mp gone).1
  refine Keeps.ite (fun moved => ?_) fun _ => ?_
  · have gone := corroborated moved
    refine Keeps.bind _ (verifyIfPresent_spec fun _ same => same ▸ safe) fun _ => ?_
    refine Keeps.pointwise fun _ start => ?_
    obtain ⟨rfl, verified⟩ := start
    refine Keeps.bind _ (unlinkMarker_spec.weaken (fun _ same => same ▸ ⟨safe, gone⟩) fun _ _ done => done)
      fun _ => Keeps.ret fun after settled => ⟨settled.safe, ?_, fun hash expected => ?_⟩
    · refine ⟨fun _ => ⟨?_, ?_⟩, fun _ => settled.delivered⟩ <;> intros <;> simp_all
    · obtain ⟨bytes, there, hashed⟩ := verified hash expected
      rw [safe.contents_of_gone gone] at there
      rw [Option.some.inj there, hashed]
  · refine Keeps.bind _ (verifyIfPresent_spec fun _ same => same ▸ safe) fun _ => ?_
    refine Keeps.pointwise fun _ start => ?_
    obtain ⟨rfl, verified⟩ := start
    have known : ∀ hash, request.item.sha256Hash = some hash → hash = platform.sha256 task.bytes := by
      intro hash expected
      obtain ⟨bytes, there, hashed⟩ := verified hash expected
      rw [← hashed, safe.contents_original there]
    refine Keeps.bind _ (applyFileMove_spec injective known named safe vacant) fun _ => ?_
    exact Keeps.ret fun after done => ⟨done.1, done.2, fun hash expected => (known hash expected).symm⟩

end

end Phaze.Execution
