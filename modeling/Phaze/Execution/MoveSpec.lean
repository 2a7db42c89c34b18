import Phaze.Execution.Safety
import Phaze.Shared.Chunks

set_option autoImplicit false

/-!
# Specifications of the engine's steps

Every state a primitive passes through is safe, also those in which it fails; what it returns
describes the state exactly.
-/

namespace Phaze.Execution

open Shared

variable {Hash : Type} {α β : Type} {task : Task}

/-- A triple about the file system in which every stop and every error keeps an invariant. -/
def Keeps (inv pre : FileSystem → Prop) (program : Action Hash α) (post : α → FileSystem → Prop) : Prop :=
  Triple (fun world => inv world.fs) (fun world => pre world.fs) program
    (fun value world => post value world.fs) (fun world => inv world.fs)

namespace Keeps

variable {inv pre : FileSystem → Prop} {post : α → FileSystem → Prop}

theorem bind {program : Action Hash α} {next : α → Action Hash β} {final : β → FileSystem → Prop}
    (middle : α → FileSystem → Prop) (first : Keeps inv pre program middle)
    (second : ∀ value, Keeps inv (middle value) (next value) final) :
    Keeps inv pre (program >>= next) final :=
  Triple.bind (fun value world => middle value world.fs) first second

theorem weaken {program : Action Hash α} {pre' : FileSystem → Prop} {post' : α → FileSystem → Prop}
    (keeps : Keeps inv pre program post) (start : ∀ fs, pre' fs → pre fs)
    (value : ∀ result fs, post result fs → post' result fs) : Keeps inv pre' program post' :=
  Triple.weaken keeps (fun world => start world.fs) (fun result world => value result world.fs)
    (fun _ kept => kept)

theorem mono {program : Action Hash α} {inv' : FileSystem → Prop} (keeps : Keeps inv pre program post)
    (kept : ∀ fs, inv fs → inv' fs) : Keeps inv' pre program post :=
  Triple.mono keeps (fun world => kept world.fs) fun world => kept world.fs

theorem pull {program : Action Hash α} {fact : Prop} (given : fact → Keeps inv pre program post) :
    Keeps inv (fun fs => fact ∧ pre fs) program post :=
  Triple.pull given

theorem ret {value : α} (holds : ∀ fs, pre fs → post value fs) :
    Keeps inv pre (pure value : Action Hash α) post :=
  Triple.ret fun world => holds world.fs

theorem raise {error : MoveError Hash} (kept : ∀ fs, pre fs → inv fs) :
    Keeps inv pre (Prog.raise error) post :=
  Triple.raise fun world => kept world.fs

theorem ite {condition : Prop} [Decidable condition] {yes no : Action Hash α}
    (left : condition → Keeps inv pre yes post) (right : ¬ condition → Keeps inv pre no post) :
    Keeps inv pre (if condition then yes else no) post :=
  Triple.ite left right

theorem protect {program : Action Hash α} {cleanup : Action Hash Unit} {inv' : FileSystem → Prop}
    (middle : α → FileSystem → Prop) (first : Keeps inv' pre program middle)
    (kept : ∀ fs, inv' fs → inv fs) (after : ∀ value, Keeps inv (middle value) cleanup fun _ => post value)
    (undo : Keeps inv inv' cleanup fun _ => inv) :
    Keeps inv pre (Prog.protect program cleanup) post :=
  Triple.protect (fun value world => middle value world.fs) (fun world => inv' world.fs)
    (Triple.mono first (fun world => kept world.fs) fun _ raised => raised) after undo

theorem recover {program : Action Hash α} {handler : MoveError Hash → Action Hash α}
    (first : Keeps inv pre program post) (handled : ∀ error, Keeps inv inv (handler error) post) :
    Keeps inv pre (Prog.recover program handler) post :=
  Triple.recover (fun world => inv world.fs) first handled

theorem call {operation : FileSystem → Except OsError (α × FileSystem)}
    (kept : ∀ fs, pre fs → inv fs)
    (done : ∀ fs result after, pre fs → operation fs = .ok (result, after) →
      inv after ∧ post result after) :
    Keeps inv pre (call operation : Action Hash α) post := by
  refine Triple.step ?_ fun world => kept world.fs
  intro world result next start ran
  cases outcome : operation world.fs with
  | error => simp [outcome] at ran
  | ok pair =>
      simp only [outcome, Except.ok.injEq, Prod.mk.injEq] at ran
      obtain ⟨rfl, rfl⟩ := ran
      exact done world.fs pair.1 pair.2 start outcome

theorem look {observe : FileSystem → Except OsError α} (kept : ∀ fs, pre fs → inv fs)
    (seen : ∀ fs result, pre fs → observe fs = .ok result → post result fs) :
    Keeps inv pre (look observe : Action Hash α) post := by
  refine Triple.read ?_ fun world => kept world.fs
  intro world result start ran
  cases outcome : observe world.fs with
  | error => simp [outcome, Except.mapError] at ran
  | ok value =>
      simp only [outcome, Except.mapError, Except.ok.injEq] at ran
      exact ran ▸ seen world.fs value start outcome

theorem pointwise {program : Action Hash α} (each : ∀ fs, pre fs → Keeps inv (· = fs) program post) :
    Keeps inv pre program post := by
  refine Triple.pointwise fun world start => ?_
  exact Triple.weaken (each world.fs start) (fun _ same => same ▸ rfl) (fun _ _ done => done) fun _ kept => kept

theorem bind_look {observe : FileSystem → Except OsError α} {next : α → Action Hash β}
    {final : β → FileSystem → Prop} {fs : FileSystem} (kept : inv fs)
    (value : ∀ result, observe fs = .ok result → Keeps inv (· = fs) (next result) final) :
    Keeps inv (· = fs) (Execution.look observe >>= next) final := by
  refine bind (fun result after => observe fs = .ok result ∧ after = fs) (look ?_ ?_) fun result => ?_
  · rintro _ rfl
    exact kept
  · rintro _ result rfl seen
    exact ⟨seen, rfl⟩
  · exact pull (value result)

theorem bind_read (observe : FileSystem → Except (MoveError Hash) α) {next : α → Action Hash β}
    {final : β → FileSystem → Prop} {fs : FileSystem} (kept : inv fs)
    (value : ∀ result, observe fs = .ok result → Keeps inv (· = fs) (next result) final) :
    Keeps inv (· = fs) ((Prog.read fun world => observe world.fs) >>= next) final := by
  refine Triple.pointwise fun world same => ?_
  subst same
  refine Triple.bind_read kept fun result seen => ?_
  exact Triple.weaken (value result seen) (fun _ same => same ▸ rfl) (fun _ _ done => done) fun _ safe => safe

theorem setStep {step : FailedAtStep} (kept : ∀ fs, pre fs → inv fs) :
    Keeps inv pre (setStep step : Action Hash Unit) fun _ => pre := by
  refine Triple.step ?_ fun world => kept world.fs
  intro world result next start ran
  simp only [Except.ok.injEq, Prod.mk.injEq] at ran
  obtain ⟨-, rfl⟩ := ran
  exact ⟨kept _ start, start⟩

theorem stops {program : Action Hash α} {before after : World Hash} (keeps : Keeps inv pre program post)
    (start : pre before.fs) (kept : inv before.fs) (stopped : program.Stops before after) : inv after.fs := by
  unfold Keeps at keeps
  exact keeps.stops start kept stopped

theorem returns {program : Action Hash α} {before after : World Hash} {value : α}
    (keeps : Keeps inv pre program post) (start : pre before.fs)
    (returned : program.Returns before value after) : post value after.fs := by
  unfold Keeps at keeps
  exact keeps.returns start returned

end Keeps

theorem contents_of_readAll {fs : FileSystem} {path : Path} {bytes : Bytes}
    (read : fs.readAll path = .ok bytes) : fs.contents path = some bytes := by
  unfold FileSystem.readAll at read
  split at read
  · rename_i found
    rw [found, Except.ok.inj read]
  · split at read <;> cases read

theorem Safe.contents_original {fs : FileSystem} (safe : Safe task fs) {bytes : Bytes}
    (found : fs.contents task.original = some bytes) : bytes = task.bytes := by
  simp only [FileSystem.contents, Option.map_eq_some_iff] at found
  obtain ⟨number, present, rfl⟩ := found
  rw [safe.source_of_some present, safe.kept]

/-! ## Hashes -/

section Hashing

variable {platform : Platform Hash} {pre : FileSystem → Prop}

theorem sha256OfFile_spec {path : Path} (safe : ∀ fs, pre fs → Safe task fs) :
    Keeps (Safe task) pre (sha256OfFile platform path) fun hash fs =>
      pre fs ∧ ∃ bytes, fs.contents path = some bytes ∧ platform.sha256 bytes = hash := by
  refine Keeps.bind (fun bytes fs => pre fs ∧ fs.contents path = some bytes) ?_ ?_
  · exact Keeps.look safe fun fs bytes start read => ⟨start, contents_of_readAll read⟩
  · exact fun bytes => Keeps.ret fun fs start => ⟨start.1, bytes, start.2, rfl⟩

def Verified (platform : Platform Hash) (path : Path) (expected : Option Hash) (fs : FileSystem) : Prop :=
  ∀ hash, expected = some hash → ∃ bytes, fs.contents path = some bytes ∧ platform.sha256 bytes = hash

variable [DecidableEq Hash]

theorem verifyIfPresent_spec {path : Path} {expected : Option Hash} {label suffix : Text}
    (safe : ∀ fs, pre fs → Safe task fs) :
    Keeps (Safe task) pre (verifyIfPresent platform path expected label suffix) fun _ fs =>
      pre fs ∧ Verified platform path expected fs := by
  cases expected with
  | none => exact Keeps.ret fun fs start => ⟨start, by simp [Verified]⟩
  | some expected =>
      refine Keeps.bind (fun _ => pre) (Keeps.setStep safe) fun _ => ?_
      refine Keeps.bind _ (sha256OfFile_spec safe) fun actual => ?_
      refine Keeps.ite (fun same => ?_) fun _ => Keeps.raise fun fs start => safe fs start.1
      refine Keeps.ret fun fs start => ⟨start.1, ?_⟩
      rintro hash ⟨⟩
      exact same ▸ start.2

-- A destination that passes the check holds the original bytes: either hash was taken from
-- the source, in this attempt or for the item.
theorem destinationIsCommittedCopy_spec {expected : Option Hash}
    (injective : Function.Injective platform.sha256)
    (known : ∀ hash, expected = some hash → hash = platform.sha256 task.bytes)
    (safe : ∀ fs, pre fs → Safe task fs) :
    Keeps (Safe task) pre (destinationIsCommittedCopy platform task.original task.proposed expected)
      fun committed fs => pre fs ∧ (committed → fs.contents task.proposed = some task.bytes) := by
  refine Keeps.bind _ (sha256OfFile_spec safe) fun proposedHash => ?_
  cases expected with
  | some expected =>
      refine Keeps.ret fun fs start => ⟨start.1, fun same => ?_⟩
      obtain ⟨-, bytes, found, hashed⟩ := start
      have equal : platform.sha256 bytes = platform.sha256 task.bytes := by
        rw [hashed, ← known expected rfl]
        exact of_decide_eq_true same
      rw [found, injective equal]
  | none =>
      refine Keeps.bind _ (sha256OfFile_spec fun fs start => safe fs start.1) fun originalHash => ?_
      refine Keeps.ret fun fs start => ⟨start.1.1, fun same => ?_⟩
      obtain ⟨⟨begun, bytes, found, hashed⟩, other, present, hashed'⟩ := start
      have equal : platform.sha256 bytes = platform.sha256 other := by
        rw [hashed, hashed']
        exact of_decide_eq_true same
      rw [found, injective equal, (safe fs begun).contents_original present]

end Hashing

/-! ## Directories -/

structure OnlyDirs (before after : FileSystem) : Prop where
  entry : after.entry = before.entry
  inode : after.inode = before.inode
  next : after.next = before.next

theorem OnlyDirs.safe {before after : FileSystem} (same : OnlyDirs before after)
    (safe : Safe task before) : Safe task after :=
  safe.congr same.entry same.inode same.next

section Directories

variable {before : FileSystem}

theorem mkdir_spec (path : Path) :
    Keeps (OnlyDirs before) (OnlyDirs before) (call (·.mkdir path) : Action Hash Unit) fun _ after =>
      OnlyDirs before after ∧ (after.dir path).isSome := by
  refine Keeps.call (fun _ same => same) ?_
  intro fs result after start made
  obtain ⟨device, absent, free, rfl⟩ := FileSystem.mkdir_ok made
  have same : OnlyDirs before (fs.addDir path device absent free) := ⟨start.entry, start.inode, start.next⟩
  exact ⟨same, same, by simp [FileSystem.addDir]⟩

theorem existOk_spec (path : Path) (error : MoveError Hash) :
    Keeps (OnlyDirs before) (OnlyDirs before) (existOk path error) fun _ after =>
      OnlyDirs before after ∧ (after.dir path).isSome := by
  refine Keeps.pointwise fun fs start => Keeps.bind_look start fun state seen => ?_
  simp only [Except.ok.injEq] at seen
  refine Keeps.ite (fun found => ?_) fun _ => Keeps.raise fun _ same => same ▸ start
  refine Keeps.ret fun _ same => ?_
  subst same
  exact ⟨start, seen ▸ found⟩

theorem mkdirExistOk_spec (path : Path) :
    Keeps (OnlyDirs before) (OnlyDirs before) (mkdirExistOk path : Action Hash Unit) fun _ after =>
      OnlyDirs before after ∧ (after.dir path).isSome :=
  Keeps.recover (mkdir_spec path) (existOk_spec path)

theorem mkdirParentsRev_spec (components : List Name) :
    Keeps (OnlyDirs before) (OnlyDirs before) (mkdirParentsRev components : Action Hash Unit)
      fun _ after => OnlyDirs before after ∧ (after.dir components.reverse).isSome := by
  induction components with
  | nil => exact mkdirExistOk_spec []
  | cons name above parents =>
      refine Keeps.recover (mkdir_spec _) fun error => ?_
      split
      · refine Keeps.bind _ parents fun _ => ?_
        exact (mkdirExistOk_spec _).weaken (fun _ start => start.1) fun _ _ done => done
      · exact existOk_spec _ _

theorem mkdirParents_spec (safe : Safe task before) (path : Path) :
    Keeps (Safe task) (OnlyDirs before) (mkdirParents path : Action Hash Unit) fun _ after =>
      OnlyDirs before after ∧ (after.dir path).isSome := by
  have made : Keeps (OnlyDirs before) (OnlyDirs before) (mkdirParentsRev path.reverse : Action Hash Unit)
      fun _ after => OnlyDirs before after ∧ (after.dir path.reverse.reverse).isSome :=
    mkdirParentsRev_spec path.reverse
  rw [List.reverse_reverse] at made
  exact made.mono fun _ same => same.safe safe

end Directories

/-! ## Entries -/

structure Settled (task : Task) (fs : FileSystem) : Prop where
  safe : Safe task fs
  gone : fs.entry task.original = none
  unmarked : fs.entry task.marker = none

theorem Settled.copied {fs : FileSystem} (settled : Settled task fs) :
    fs.contents task.proposed = some task.bytes :=
  settled.safe.contents_of_gone settled.gone

-- Removing the source once the destination holds its bytes; the marker's entry is left alone,
-- unless it is the source.
theorem unlinkOriginal_spec (mark : Option Nat) :
    Keeps (Safe task)
      (fun fs => Safe task fs ∧ task.proposed ≠ task.original ∧
        fs.contents task.proposed = some task.bytes ∧ fs.entry task.marker = mark)
      (call (·.unlink task.original) : Action Hash Unit)
      fun _ fs => Safe task fs ∧ fs.entry task.original = none ∧
        fs.entry task.marker = if task.marker = task.original then none else mark := by
  refine Keeps.call (fun fs start => start.1) ?_
  rintro fs result after ⟨safe, moved, copied, marked⟩ removed
  obtain ⟨number, present, rfl⟩ := FileSystem.unlink_ok removed
  have kept := safe.detach_original present moved copied
  refine ⟨kept, kept, by simp [FileSystem.detach_entry], ?_⟩
  rw [FileSystem.detach_entry, marked]

theorem unlinkMarker_spec :
    Keeps (Safe task) (fun fs => Safe task fs ∧ fs.entry task.original = none)
      (call (·.unlinkMissingOk task.marker) : Action Hash Unit) fun _ fs => Settled task fs := by
  refine Keeps.call (fun fs start => start.1) ?_
  rintro fs result after ⟨safe, gone⟩ removed
  obtain rfl := FileSystem.unlinkMissingOk_ok removed
  have kept := safe.clear_marker gone
  exact ⟨kept, kept, by simp [FileSystem.clear_entry, gone], by simp [FileSystem.clear_entry]⟩

theorem atomicSameFsMove_spec (mark : Option Nat) :
    Keeps (Safe task)
      (fun fs => Safe task fs ∧ fs.entry task.original = some task.source ∧ fs.entry task.marker = mark)
      (atomicSameFsMove task.original task.proposed : Action Hash Unit)
      fun _ fs => Safe task fs ∧ fs.entry task.original = none ∧
        fs.entry task.marker = if task.marker = task.original then none else mark := by
  refine Keeps.bind _ ?_ fun _ => unlinkOriginal_spec mark
  refine Keeps.call (fun fs start => start.1) ?_
  rintro fs result after ⟨safe, here, marked⟩ linked
  obtain ⟨number, present, absent, known, home, free, absent', rfl⟩ := FileSystem.link_ok linked
  have kept : Safe task (fs.attach task.proposed number known home free absent') :=
    safe.attach_proposed here
  have moved : task.proposed ≠ task.original := by
    intro same
    rw [same, here] at absent
    cases absent
  refine ⟨kept, kept, moved, ?_, ?_⟩
  · simp [FileSystem.contents, FileSystem.attach_entry, safe.source_of_some present, safe.kept]
  · rw [FileSystem.attach_entry, if_neg task.marker_ne_proposed, marked]

/-! ## Copies -/

structure Staged (task : Task) (fs : FileSystem) : Prop where
  safe : Safe task fs
  here : fs.entry task.original = some task.source
  unlinked : fs.entry task.marker ≠ some task.source

-- The temporary file is a new inode holding what was written so far.
structure Copying (task : Task) (tag : Text) (number : Nat) (written : Bytes) (fs : FileSystem) : Prop where
  staged : Staged task fs
  present : fs.entry (task.tmp tag) = some number
  fresh : task.start.next ≤ number
  unmarked : fs.entry task.marker ≠ some number
  bytes : (fs.inode number).bytes = written

theorem Copying.other {tag : Text} {number : Nat} {written : Bytes} {fs : FileSystem}
    (copying : Copying task tag number written fs) : number ≠ task.source := by
  intro same
  have old := task.start.used _ _ task.present
  have new := copying.fresh
  omega

theorem writeChunks_spec {tag : Text} {number : Nat} (chunks : List Bytes) (written : Bytes) :
    Keeps (Staged task) (Copying task tag number written) (writeChunks number chunks : Action Hash Unit)
      fun _ fs => Copying task tag number (written ++ chunks.flatten) fs := by
  induction chunks generalizing written with
  | nil => exact Keeps.ret fun fs copying => by simpa using copying
  | cons chunk rest ih =>
      refine Keeps.bind (fun _ => Copying task tag number (written ++ chunk)) ?_ fun _ => ?_
      · refine Keeps.call (fun fs copying => copying.staged) ?_
        intro fs result after copying wrote
        obtain rfl : fs.setBytes number ((fs.inode number).bytes ++ chunk) = after := by
          simpa [FileSystem.write] using wrote
        have staged : Staged task (fs.setBytes number ((fs.inode number).bytes ++ chunk)) :=
          ⟨copying.staged.safe.setBytes copying.staged.here copying.other (.inr copying.fresh),
            copying.staged.here, copying.staged.unlinked⟩
        refine ⟨staged, staged, copying.present, copying.fresh, copying.unmarked, ?_⟩
        simp [FileSystem.setBytes_bytes, copying.bytes]
      · simpa using ih (written ++ chunk)

theorem streamedCopy_spec {tag : Text} :
    Keeps (Staged task) (Staged task) (streamedCopy task.original (task.tmp tag) : Action Hash Unit)
      fun _ fs => ∃ number, Copying task tag number task.bytes fs := by
  refine Keeps.bind (fun bytes fs => bytes = task.bytes ∧ Staged task fs) ?_ fun bytes => ?_
  · refine Keeps.look (fun _ staged => staged) fun fs bytes staged read => ?_
    exact ⟨staged.safe.contents_original (contents_of_readAll read), staged⟩
  refine Keeps.pull fun same => ?_
  refine Keeps.bind (fun number => Copying task tag number []) ?_ fun number => ?_
  · refine Keeps.call (fun _ staged => staged) ?_
    rintro fs number after ⟨safe, here, unlinked⟩ opened
    obtain ⟨vacant, -, rfl, device, home, free, rfl⟩ := FileSystem.openExclusive_ok opened
    have elsewhere : task.original ≠ task.tmp tag := by
      intro same
      rw [same, vacant] at here
      cases here
    have apart : task.marker ≠ task.tmp tag := (task.tmp_ne_marker tag).symm
    have staged : Staged task (fs.insert (task.tmp tag) device home free) := by
      refine ⟨safe.insert here vacant, ?_, ?_⟩
      · rwa [FileSystem.insert_entry, if_neg elsewhere]
      · rwa [FileSystem.insert_entry, if_neg apart]
    refine ⟨staged, staged, by simp [FileSystem.insert_entry], safe.grown, ?_, ?_⟩
    · rw [FileSystem.insert_entry, if_neg apart]
      intro marked
      exact absurd (fs.used _ _ marked) (lt_irrefl _)
    · simp [FileSystem.insert_bytes]
  · refine (writeChunks_spec (bytes.toChunks copyChunkBytes) []).weaken (fun _ copying => copying) ?_
    intro _ fs copying
    rw [flatten_toChunks, List.nil_append, same] at copying
    exact ⟨number, copying⟩

-- The destination is a new inode with the original bytes, which the marker is not a link of.
structure Published (task : Task) (fs : FileSystem) : Prop where
  staged : Staged task fs
  copied : ∃ number, fs.entry task.proposed = some number ∧ number ≠ task.source ∧
    fs.entry task.marker ≠ some number ∧ (fs.inode number).bytes = task.bytes

theorem Published.contents {fs : FileSystem} (published : Published task fs) :
    fs.contents task.proposed = some task.bytes := by
  obtain ⟨number, present, -, -, bytes⟩ := published.copied
  simp [FileSystem.contents, present, bytes]

theorem Published.moved {fs : FileSystem} (published : Published task fs) :
    task.proposed ≠ task.original := by
  intro same
  obtain ⟨number, present, other, -⟩ := published.copied
  rw [same, published.staged.here] at present
  exact other (Option.some.inj present).symm

theorem publish_spec {tag : Text} (number : Nat) :
    Keeps (Staged task) (Copying task tag number task.bytes)
      (claimDestinationByLink (task.tmp tag) task.proposed : Action Hash Unit)
      fun _ fs => Published task fs := by
  refine Keeps.call (fun _ copying => copying.staged) ?_
  intro fs result after copying linked
  obtain ⟨found, present, absent, known, home, free, absent', rfl⟩ := FileSystem.link_ok linked
  obtain rfl : number = found := Option.some.inj (copying.present.symm.trans present)
  obtain ⟨safe, here, unlinked⟩ := copying.staged
  have elsewhere : task.original ≠ task.proposed := by
    intro same
    rw [same, absent] at here
    cases here
  have staged : Staged task (fs.attach task.proposed number known home free absent') := by
    refine ⟨safe.attach_proposed here, ?_, ?_⟩
    · rwa [FileSystem.attach_entry, if_neg elsewhere]
    · rwa [FileSystem.attach_entry, if_neg task.marker_ne_proposed]
  refine ⟨staged, staged, number, by simp [FileSystem.attach_entry], copying.other, ?_,
    by simpa using copying.bytes⟩
  rw [FileSystem.attach_entry, if_neg task.marker_ne_proposed]
  exact copying.unmarked

structure OwnTmp (task : Task) (tag : Text) : Prop where
  elsewhere : task.original ≠ task.tmp tag
  unclaimed : ∀ number, task.start.entry (task.tmp tag) = some number →
    task.start.entry task.marker = some number

theorem Staged.ownTmp {fs : FileSystem} {tag : Text} (staged : Staged task fs)
    (vacant : fs.entry (task.tmp tag) = none) : OwnTmp task tag := by
  have elsewhere : task.original ≠ task.tmp tag := by
    intro same
    have here := staged.here
    rw [same, vacant] at here
    cases here
  exact ⟨elsewhere, fun number found => staged.safe.absent vacant found elsewhere.symm⟩

theorem Staged.clear_tmp {fs : FileSystem} {tag : Text} (staged : Staged task fs) (own : OwnTmp task tag) :
    Staged task (fs.clear (task.tmp tag)) := by
  refine ⟨staged.safe.clear_tmp staged.here own.elsewhere own.unclaimed, ?_, ?_⟩
  · rw [FileSystem.clear_entry, if_neg own.elsewhere, staged.here]
  · rw [FileSystem.clear_entry, if_neg (task.tmp_ne_marker tag).symm]
    exact staged.unlinked

theorem Published.clear_tmp {fs : FileSystem} {tag : Text} (published : Published task fs)
    (own : OwnTmp task tag) : Published task (fs.clear (task.tmp tag)) := by
  obtain ⟨staged, number, present, other, unmarked, bytes⟩ := published
  refine ⟨staged.clear_tmp own, number, ?_, other, ?_, by simpa using bytes⟩
  · rw [FileSystem.clear_entry, if_neg (task.tmp_ne_proposed tag).symm, present]
  · rw [FileSystem.clear_entry, if_neg (task.tmp_ne_marker tag).symm]
    exact unmarked

theorem atomicCrossFsCopy_spec {tag : Text} :
    Keeps (Safe task) (fun fs => Staged task fs ∧ fs.entry (task.tmp tag) = none)
      (atomicCrossFsCopy tag task.original task.proposed : Action Hash Unit)
      fun _ fs => Published task fs := by
  refine Keeps.pointwise fun fs start => ?_
  have own := start.1.ownTmp start.2
  have ran : Keeps (Safe task) (Staged task)
      (atomicCrossFsCopy tag task.original task.proposed : Action Hash Unit) fun _ fs => Published task fs := by
    refine Keeps.protect (fun _ => Published task) ?_ (fun _ => Staged.safe) (fun _ => ?_) ?_
    · refine Keeps.bind _ streamedCopy_spec fun _ => Keeps.pointwise fun fs copied => ?_
      obtain ⟨number, copying⟩ := copied
      exact (publish_spec number).weaken (fun _ same => same ▸ copying) fun _ _ done => done
    · refine Keeps.call (fun _ published => published.staged.safe) ?_
      intro fs result after published removed
      obtain rfl := FileSystem.unlinkMissingOk_ok removed
      have kept := published.clear_tmp own
      exact ⟨kept.staged.safe, kept⟩
    · refine Keeps.call (fun _ staged => staged.safe) ?_
      intro fs result after staged removed
      obtain rfl := FileSystem.unlinkMissingOk_ok removed
      have kept := staged.clear_tmp own
      exact ⟨kept.safe, kept.safe⟩
  exact ran.weaken (fun _ same => same ▸ start.1) fun _ _ done => done

theorem Published.setMarker {fs : FileSystem} (published : Published task fs) {number : Nat}
    (marked : fs.entry task.marker = some number) (bytes : Bytes) :
    Published task (fs.setBytes number bytes) := by
  obtain ⟨⟨safe, here, unlinked⟩, copy, present, other, unmarked, copied⟩ := published
  have apart : number ≠ task.source := fun same => unlinked (same ▸ marked)
  have separate : copy ≠ number := fun same => unmarked (same ▸ marked)
  refine ⟨⟨safe.setBytes here apart (safe.marker number marked), here, unlinked⟩, ?_⟩
  exact ⟨copy, present, other, unmarked, by simpa [FileSystem.setBytes_bytes, separate] using copied⟩

theorem Published.insertMarker {fs : FileSystem} (published : Published task fs)
    (vacant : fs.entry task.marker = none) {device : Nat} {home free} :
    Published task (fs.insert task.marker device home free) := by
  obtain ⟨⟨safe, here, unlinked⟩, copy, present, other, unmarked, copied⟩ := published
  have elsewhere : task.original ≠ task.marker := by
    intro same
    rw [same, vacant] at here
    cases here
  have old : copy ≠ fs.next := (fs.used _ _ present).ne
  have source : task.source ≠ fs.next := (fs.used _ _ here).ne
  refine ⟨⟨safe.insert here vacant, ?_, ?_⟩, copy, ?_, other, ?_, ?_⟩
  · rw [FileSystem.insert_entry, if_neg elsewhere, here]
  · simpa [FileSystem.insert_entry] using source.symm
  · rw [FileSystem.insert_entry, if_neg task.marker_ne_proposed.symm, present]
  · simpa [FileSystem.insert_entry] using old.symm
  · rw [FileSystem.insert_bytes, if_neg old, copied]

theorem writeCommitMarker_spec :
    Keeps (Safe task) (Published task) (writeCommitMarker task.marker task.proposalId : Action Hash Unit)
      fun _ fs => Published task fs := by
  refine Keeps.bind (fun fd fs => Published task fs ∧ fs.entry task.marker = some fd) ?_ fun fd => ?_
  · refine Keeps.call (fun _ published => published.staged.safe) ?_
    intro fs fd after published opened
    rcases FileSystem.openTruncate_ok opened with ⟨marked, rfl⟩ | ⟨vacant, rfl, device, home, free, rfl⟩
    · have kept := published.setMarker marked []
      exact ⟨kept.staged.safe, kept, marked⟩
    · have kept : Published task (fs.insert task.marker device home free) := published.insertMarker vacant
      exact ⟨kept.staged.safe, kept, by simp [FileSystem.insert_entry]⟩
  · refine Keeps.call (fun _ start => start.1.staged.safe) ?_
    intro fs result after start wrote
    have kept := start.1.setMarker start.2
      ((fs.inode fd).bytes ++ task.proposalId.map fun letter => UInt8.ofNat letter.toNat)
    obtain rfl : _ = after := by simpa [FileSystem.write] using wrote
    exact ⟨kept.staged.safe, kept⟩

theorem moveAcrossFilesystem_spec [DecidableEq Hash] {platform : Platform Hash} {tag : Text}
    {item : ExecuteBatchProposalItem Hash} (same : item.proposalId = task.proposalId) :
    Keeps (Safe task) (fun fs => Staged task fs ∧ fs.entry (task.tmp tag) = none)
      (moveAcrossFilesystem platform tag task.original task.proposed item) fun _ => Settled task := by
  simp only [moveAcrossFilesystem, same]
  refine Keeps.bind _ atomicCrossFsCopy_spec fun _ => ?_
  refine Keeps.bind (fun _ => Published task) ?_ fun _ => ?_
  · exact (verifyIfPresent_spec fun _ published => published.staged.safe).weaken (fun _ start => start)
      fun _ _ done => done.1
  refine Keeps.bind _ writeCommitMarker_spec fun _ => ?_
  refine Keeps.bind _ (Keeps.setStep fun _ published => published.staged.safe) fun _ => ?_
  refine Keeps.bind (fun _ fs => Safe task fs ∧ fs.entry task.original = none) ?_ fun _ => unlinkMarker_spec
  refine Keeps.pointwise fun fs published => ?_
  refine (unlinkOriginal_spec (fs.entry task.marker)).weaken ?_ ?_
  · rintro _ rfl
    exact ⟨published.staged.safe, published.moved, published.contents, rfl⟩
  · exact fun _ _ done => ⟨done.1, done.2.1⟩

end Phaze.Execution
