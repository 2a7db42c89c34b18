import Phaze.Execution.Replay

set_option autoImplicit false

/-!
# Sequences of attempts at one proposal

Each attempt may be stopped after any step, and the next one starts from what it left.
-/

namespace Phaze.Execution

open Shared

theorem updateJobMeta_spec {Hash : Type} {inv pre : FileSystem → Prop} {change : JobMeta Hash → JobMeta Hash}
    (kept : ∀ fs, pre fs → inv fs) : Keeps inv pre (updateJobMeta change) fun _ => pre := by
  refine Triple.step ?_ fun world => kept world.fs
  intro world result next start ran
  simp only [Except.ok.injEq, Prod.mk.injEq] at ran
  obtain ⟨-, rfl⟩ := ran
  exact ⟨kept _ start, start⟩

section

variable {Hash : Type} [DecidableEq Hash] {platform : Platform Hash} {task : Task}
  {item : ExecuteBatchProposalItem Hash} {scanRoots : List Text}

theorem persistIntent_spec {fs : FileSystem} (safe : Safe task fs) :
    Keeps (Safe task) (· = fs) (persistIntent platform item scanRoots) fun _ after => after = fs := by
  have same : ∀ after, after = fs → Safe task after := fun _ equal => equal ▸ safe
  refine Keeps.bind_read (resolveMove platform · item scanRoots) safe fun paths _ => ?_
  refine Keeps.bind_look safe fun sourceExists _ => Keeps.bind_look safe fun marked _ => ?_
  refine Keeps.ite (fun _ => Keeps.ret fun _ equal => equal) fun _ => ?_
  refine Keeps.bind _ (Keeps.setStep same) fun _ => ?_
  refine Keeps.bind (fun _ after => after = fs) ?_ fun intentHash => ?_
  · exact Triple.read (fun _ _ start _ => start) fun world => same world.fs
  refine Keeps.ite (fun _ => Keeps.raise same) fun _ => ?_
  exact Keeps.bind _ (updateJobMeta_spec same) fun _ => Keeps.ret fun _ equal => equal

omit [DecidableEq Hash] in
theorem resolveMove_withHash (fs : FileSystem) (hash : Option Hash) :
    resolveMove platform fs { item with sha256Hash := hash } scanRoots =
      resolveMove platform fs item scanRoots := by
  rfl

omit [DecidableEq Hash] in
theorem Steady.withHash {fs : FileSystem} (steady : Steady platform task item scanRoots fs)
    (hash : Option Hash) : Steady platform task { item with sha256Hash := hash } scanRoots fs := by
  intro paths resolved
  rw [resolveMove_withHash] at resolved
  exact steady paths resolved

omit [DecidableEq Hash] in
theorem FreshTag.withHash {fs : FileSystem} {tag : Text} (fresh : FreshTag platform item scanRoots tag fs)
    (hash : Option Hash) : FreshTag platform { item with sha256Hash := hash } scanRoots tag fs := by
  intro original proposed resolved
  rw [resolveMove_withHash] at resolved
  exact fresh original proposed resolved

theorem computeProposed_spec {fs : FileSystem} {job : Bool} {tag : Text}
    (injective : Function.Injective platform.sha256) (named : item.proposalId = task.proposalId)
    (steady : Steady platform task item scanRoots fs) (safe : Safe task fs)
    (fresh : FreshTag platform item scanRoots tag fs) :
    Keeps (Safe task) (· = fs) (computeProposed platform job tag item scanRoots) fun _ => Safe task := by
  have same : ∀ after, after = fs → Safe task after := fun _ equal => equal ▸ safe
  refine Keeps.bind (fun _ after => after = fs) ?_ fun known => ?_
  · exact Triple.read (fun _ _ start _ => start) fun world => same world.fs
  refine Keeps.bind (fun _ after => after = fs) ?_ fun intentHash => ?_
  · exact Keeps.ite (fun _ => persistIntent_spec safe) fun _ => Keeps.ret fun _ equal => equal
  refine Keeps.bind _ (Keeps.setStep same) fun _ => ?_
  refine Keeps.bind (fun _ => Safe task) ?_ fun result => ?_
  · have ran := move_spec
      ⟨{ item with sha256Hash := intentHash.or item.sha256Hash }, scanRoots,
        known.moved || known.moveIntent.isSome, tag⟩
      injective named (steady.withHash _) safe (fresh.withHash _)
    exact ran.weaken (fun _ equal => equal) fun _ _ done => done.1
  refine Keeps.bind (fun _ => Safe task) ?_ fun _ => Keeps.ret fun _ kept => kept
  exact Keeps.ite (fun _ => updateJobMeta_spec fun _ kept => kept) fun _ => Keeps.ret fun _ kept => kept

-- One attempt, stopped anywhere.
def Attempted (platform : Platform Hash) (item : ExecuteBatchProposalItem Hash) (scanRoots : List Text)
    (before after : World Hash) : Prop :=
  ∃ job tag, FreshTag platform item scanRoots tag before.fs ∧
    (computeProposed platform job tag item scanRoots).Stops before after

def Task.world (task : Task) : World Hash := ⟨task.start, .copy, ⟨none, false⟩⟩

/-- A run whose attempts all find the source and the destination where the first one did. -/
def Replayed (platform : Platform Hash) (task : Task) (item : ExecuteBatchProposalItem Hash)
    (scanRoots : List Text) : World Hash → World Hash → Prop :=
  Relation.ReflTransGen fun before after =>
    Steady platform task item scanRoots before.fs ∧ Attempted platform item scanRoots before after

theorem attempted_safe {before after : World Hash} (injective : Function.Injective platform.sha256)
    (named : item.proposalId = task.proposalId) (safe : Safe task before.fs)
    (steady : Steady platform task item scanRoots before.fs)
    (attempted : Attempted platform item scanRoots before after) : Safe task after.fs := by
  obtain ⟨job, tag, fresh, stopped⟩ := attempted
  exact (computeProposed_spec injective named steady safe fresh).stops rfl safe stopped

theorem replayed_safe {after : World Hash} (injective : Function.Injective platform.sha256)
    (named : item.proposalId = task.proposalId)
    (run : Replayed platform task item scanRoots task.world after) : Safe task after.fs := by
  induction run with
  | refl => exact Safe.initial task
  | tail _ step safe => exact attempted_safe injective named safe step.1 step.2

/-- The original bytes can be read at the source or at the destination, and no other entry lost
its inode or its bytes. -/
structure Preserved (task : Task) (fs : FileSystem) : Prop where
  reachable : fs.contents task.original = some task.bytes ∨ fs.contents task.proposed = some task.bytes
  untouched : ∀ path number, task.start.entry path = some number → path ≠ task.original →
    task.start.entry task.marker ≠ some number →
    fs.entry path = some number ∧ (fs.inode number).bytes = (task.start.inode number).bytes

theorem replayed_preserves {after : World Hash} (injective : Function.Injective platform.sha256)
    (named : item.proposalId = task.proposalId)
    (run : Replayed platform task item scanRoots task.world after) : Preserved task after.fs := by
  have safe := replayed_safe injective named run
  refine ⟨?_, safe.frame⟩
  rcases safe.reach with here | copied
  · left
    simp [FileSystem.contents, here, safe.kept]
  · exact .inr copied

end

/-! ### A source with a twin in another normal form -/

namespace Twin

-- Composes the one pair of characters the names below use.
def nfc : Name → Name
  | 'e' :: '\u0301' :: rest => 'é' :: nfc rest
  | letter :: rest => letter :: nfc rest
  | [] => []

def composed : Path := [['a'], ['é']]

def decomposed : Path := [['a'], ['e', '\u0301']]

def destination : Path := [['b'], ['x']]

def names : List Name :=
  [['é'], ['e', '\u0301'], ['x'], "x.phaze-tmp.t".toList, "x.phaze-committed.1".toList]

def platform : Platform Bytes where
  sha256 := id
  casefold := List.map Char.toLower
  nfc := nfc
  iterdir := fun fs path =>
    if (fs.dir path).isSome then some (names.filter fun name => fs.exist (path ++ [name])) else none
  cwd := []

def disks : FileSystem := .ofDirs fun path =>
  if path = [] ∨ path = [['a']] then some 1 else if path = [['b']] then some 2 else none

-- Both spellings of `/a/é`, with the same bytes.
def files : FileSystem :=
  ((((disks.insert composed 1 rfl rfl).setBytes 0 [7]).insert decomposed 1 rfl rfl).setBytes 1 [7])

def task : Task := ⟨files, composed, destination, ['1'], 0, by decide⟩

def item : ExecuteBatchProposalItem Bytes := ⟨['1'], "/a/é".toList, ['b'], ['x'], none⟩

def scanRoots : List Text := [['/']]

-- The first attempt is killed after it removed the source and before it removed the marker.
def killed : World Bytes :=
  ((computeProposed platform true ['t'] item scanRoots task.world).visited[13]?).getD task.world

def replay : Attempt (World Bytes) (MoveError Bytes) Path :=
  computeProposed platform true ['t'] item scanRoots killed

theorem resolved : resolveMove platform files item scanRoots = .ok (composed, destination) := by rfl

theorem resolved_killed : resolveMove platform killed.fs item scanRoots = .ok (decomposed, destination) := by rfl

theorem fresh : FreshTag platform item scanRoots ['t'] files := by
  intro original proposed found
  rw [resolved] at found
  cases found
  decide

theorem fresh_killed : FreshTag platform item scanRoots ['t'] killed.fs := by
  intro original proposed found
  rw [resolved_killed] at found
  cases found
  decide

theorem attempted_killed : Attempted platform item scanRoots task.world killed := by
  refine ⟨true, ['t'], fresh, .inr ?_⟩
  have long : 13 < (computeProposed platform true ['t'] item scanRoots task.world).visited.length := by
    decide
  simp [killed, List.getElem?_eq_getElem long]

end Twin

theorem replayed_preserves_killed : Preserved Twin.task Twin.killed.fs := by
  refine replayed_preserves Function.injective_id rfl (.single ⟨?_, Twin.attempted_killed⟩)
  intro paths found
  exact Except.ok.inj (found.symm.trans Twin.resolved)

-- The replay looks for the source, finds the other spelling of its name, and removes that too.
theorem replay_removes_twin :
    ¬ ∀ (platform : Platform Bytes) (task : Task) (item : ExecuteBatchProposalItem Bytes)
      (scanRoots : List Text) (after : World Bytes), Function.Injective platform.sha256 →
      item.proposalId = task.proposalId →
      resolveMove platform task.start item scanRoots = .ok (task.original, task.proposed) →
      Relation.ReflTransGen (Attempted platform item scanRoots) task.world after →
      Preserved task after.fs := by
  intro claim
  have removed : Twin.replay.visited.any (fun world => (world.fs.entry Twin.decomposed).isNone) = true := by
    decide
  obtain ⟨after, seen, gone⟩ := List.any_eq_true.mp removed
  have run : Relation.ReflTransGen (Attempted Twin.platform Twin.item Twin.scanRoots) Twin.task.world after :=
    .tail (.single Twin.attempted_killed) ⟨true, ['t'], Twin.fresh_killed, .inr seen⟩
  have kept := claim Twin.platform Twin.task Twin.item Twin.scanRoots after Function.injective_id rfl
    Twin.resolved run
  have there := (kept.untouched Twin.decomposed 1 (by decide) (by decide) (by decide)).1
  rw [there] at gone
  cases gone

section

variable {Hash : Type} [DecidableEq Hash] {platform : Platform Hash} {task : Task}
  {item : ExecuteBatchProposalItem Hash} {scanRoots : List Text}

theorem move_delivers_iff {before after : World Hash} {hash : Option Hash} {corroborated : Bool} {tag : Text}
    {result : FilesystemMoveResult} (injective : Function.Injective platform.sha256)
    (named : item.proposalId = task.proposalId)
    (run : Replayed platform task item scanRoots task.world before)
    (steady : Steady platform task item scanRoots before.fs)
    (fresh : FreshTag platform item scanRoots tag before.fs)
    (returned : (move platform ⟨{ item with sha256Hash := hash }, scanRoots, corroborated, tag⟩).Returns
      before result after) :
    (Delivered task after.fs ∧ ∀ expected, hash = some expected → platform.sha256 task.bytes = expected) ↔
      Clean platform task before.fs := by
  have safe := replayed_safe injective named run
  have keeps := move_spec ⟨{ item with sha256Hash := hash }, scanRoots, corroborated, tag⟩
    injective named (steady.withHash _) safe (fresh.withHash _)
  obtain ⟨-, delivered, verified⟩ := keeps.returns rfl returned
  rw [← delivered]
  exact ⟨fun promise => promise.1, fun promise => ⟨promise, verified⟩⟩

end

/-! ### A rename that only changes case -/

namespace CaseOnly

def lower : Path := [['a'], ['s']]

def upper : Path := [['a'], ['S']]

def names : List Name := [['s'], ['S']]

def platform : Platform Bytes where
  sha256 := id
  casefold := List.map Char.toLower
  nfc := id
  iterdir := fun fs path =>
    if (fs.dir path).isSome then some (names.filter fun name => fs.exist (path ++ [name])) else none
  cwd := []

def files : FileSystem :=
  ((FileSystem.ofDirs fun path => if path = [] ∨ path = [['a']] then some 1 else none).insert
    lower 1 rfl rfl).setBytes 0 [7]

def task : Task := ⟨files, lower, upper, ['1'], 0, by decide⟩

def item : ExecuteBatchProposalItem Bytes := ⟨['1'], "/a/s".toList, [], ['S'], none⟩

def scanRoots : List Text := [['/']]

def request : FilesystemMoveRequest Bytes := ⟨item, scanRoots, true, ['t']⟩

-- The first attempt is killed between the link and the unlink.
def killed : World Bytes :=
  ((computeProposed platform true ['t'] item scanRoots task.world).visited[5]?).getD task.world

theorem resolved : resolveMove platform files item scanRoots = .ok (lower, upper) := by rfl

theorem resolved_killed : resolveMove platform killed.fs item scanRoots = .ok (lower, upper) := by rfl

theorem fresh_of_resolved {fs : FileSystem} (found : resolveMove platform fs item scanRoots = .ok (lower, upper))
    (vacant : fs.entry (uniqueTmpPath upper ['t']) = none) : FreshTag platform item scanRoots ['t'] fs := by
  intro original proposed here
  rw [found] at here
  cases here
  exact vacant

theorem steady_of_resolved {fs : FileSystem} (found : resolveMove platform fs item scanRoots = .ok (lower, upper)) :
    Steady platform task item scanRoots fs := by
  intro paths here
  exact Except.ok.inj (here.symm.trans found)

theorem attempted_killed : Attempted platform item scanRoots task.world killed := by
  refine ⟨true, ['t'], fresh_of_resolved resolved (by decide), .inr ?_⟩
  have long : 5 < (computeProposed platform true ['t'] item scanRoots task.world).visited.length := by
    decide
  simp [killed, List.getElem?_eq_getElem long]

end CaseOnly

theorem move_delivers_uninterrupted : Delivered CaseOnly.task
    (move CaseOnly.platform CaseOnly.request CaseOnly.task.world).final.fs := by
  have returned : (move CaseOnly.platform CaseOnly.request).Returns CaseOnly.task.world
      ⟨CaseOnly.upper, true⟩ (move CaseOnly.platform CaseOnly.request CaseOnly.task.world).final := ⟨by rfl, rfl⟩
  refine ((move_delivers_iff Function.injective_id rfl .refl
    (CaseOnly.steady_of_resolved CaseOnly.resolved)
    (CaseOnly.fresh_of_resolved CaseOnly.resolved (by decide)) returned).mpr ?_).1
  have absent : CaseOnly.files.entry CaseOnly.upper = none := by decide
  have unmarked : CaseOnly.files.entry CaseOnly.task.marker = none := by decide
  constructor
  · intro _ _ linked
    cases absent.symm.trans linked
  · intro number marked
    cases unmarked.symm.trans marked

-- After the interruption both names are links of one inode, and renaming one to the other does
-- nothing: the move reports success with the source still there.
theorem move_leaves_source :
    ¬ ∀ (platform : Platform Bytes) (task : Task) (item : ExecuteBatchProposalItem Bytes)
      (scanRoots : List Text) (tag : Text) (before after : World Bytes) (result : FilesystemMoveResult),
      Function.Injective platform.sha256 → item.proposalId = task.proposalId →
      Relation.ReflTransGen (Attempted platform item scanRoots) task.world before →
      resolveMove platform before.fs item scanRoots = .ok (task.original, task.proposed) →
      FreshTag platform item scanRoots tag before.fs →
      (move platform ⟨item, scanRoots, true, tag⟩).Returns before result after → Delivered task after.fs := by
  intro claim
  have delivered := claim CaseOnly.platform CaseOnly.task CaseOnly.item CaseOnly.scanRoots ['t']
    CaseOnly.killed (move CaseOnly.platform CaseOnly.request CaseOnly.killed).final ⟨CaseOnly.upper, true⟩
    Function.injective_id rfl (.single CaseOnly.attempted_killed) CaseOnly.resolved_killed
    (CaseOnly.fresh_of_resolved CaseOnly.resolved_killed (by decide)) ⟨by rfl, rfl⟩
  rcases delivered.gone with same | gone
  · exact absurd same (by decide)
  · exact absurd gone (by decide)

end Phaze.Execution
