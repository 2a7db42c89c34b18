import Mathlib.Data.Finset.Card
import Mathlib.Logic.Function.Basic

set_option autoImplicit false

/-!
# A byte-exact, case-sensitive POSIX file system

Names are compared character by character, regular files are inodes reached through
directory entries, and a hard link is a second entry of one inode. There are no symbolic
links. Every operation is one indivisible step.
-/

namespace Phaze.Shared

abbrev Name := List Char

abbrev Path := List Name

abbrev Bytes := List UInt8

def Path.parent (path : Path) : Path := path.dropLast

def Path.name (path : Path) : Name := path.getLastD []

-- `path.with_name(name)`: a sibling of `path`.
def Path.withName (path : Path) (name : Name) : Path := path.parent ++ [name]

@[simp] theorem Path.parent_withName (path : Path) (name : Name) :
    Path.parent (Path.withName path name) = Path.parent path := by
  simp [Path.parent, Path.withName]

@[simp] theorem Path.name_withName (path : Path) (name : Name) :
    Path.name (Path.withName path name) = name := by
  simp [Path.name, Path.withName]

inductive OsError where
  | fileNotFound | fileExists | isADirectory | notADirectory | crossDevice
  deriving DecidableEq, Repr

structure Inode where
  device : Nat
  nlink : Nat
  bytes : Bytes
  deriving DecidableEq, Repr

structure FileSystem where
  -- The entries of regular files, as inode numbers.
  entry : Path → Option Nat
  inode : Nat → Inode
  -- The directories, with the device each one is on.
  dir : Path → Option Nat
  next : Nat
  placed : ∀ path number, entry path = some number →
    dir path.parent = some (inode number).device
  used : ∀ path number, entry path = some number → number < next
  counted : ∀ number (names : Finset Path), (∀ path ∈ names, entry path = some number) →
    names.card ≤ (inode number).nlink
  apart : ∀ path, dir path ≠ none → entry path = none

namespace FileSystem

variable (fs : FileSystem)

def ofDirs (dir : Path → Option Nat) : FileSystem where
  entry := fun _ => none
  inode := fun _ => ⟨0, 0, []⟩
  dir := dir
  next := 0
  placed := by simp
  used := by simp
  counted := by
    intro number names all
    have empty : names = ∅ := Finset.eq_empty_of_forall_notMem fun path member => by
      simpa using all path member
    simp [empty]
  apart := by simp

-- What `stat` tells files apart by: the inode of a file, the path of a directory.
inductive Stat where
  | file (number device nlink : Nat)
  | dir (path : Path) (device : Nat)
  deriving DecidableEq, Repr

def Stat.device : Stat → Nat
  | .file _ device _ => device
  | .dir _ device => device

def Stat.nlink : Stat → Nat
  | .file _ _ nlink => nlink
  | .dir _ _ => 2

def Stat.same : Stat → Stat → Bool
  | .file number _ _, .file number' _ _ => number = number'
  | .dir path _, .dir path' _ => path = path'
  | _, _ => false

def stat (path : Path) : Except OsError Stat :=
  match fs.entry path, fs.dir path with
  | some number, _ => .ok (.file number (fs.inode number).device (fs.inode number).nlink)
  | none, some device => .ok (.dir path device)
  | none, none => .error .fileNotFound

def exist (path : Path) : Bool := (fs.entry path).isSome || (fs.dir path).isSome

def contents (path : Path) : Option Bytes := (fs.entry path).map fun number => (fs.inode number).bytes

def readAll (path : Path) : Except OsError Bytes :=
  match fs.contents path with
  | some bytes => .ok bytes
  | none => if (fs.dir path).isSome then .error .isADirectory else .error .fileNotFound

-- Replace the bytes of an inode; its entries all see the change.
def setBytes (number : Nat) (bytes : Bytes) : FileSystem :=
  { fs with
    inode := Function.update fs.inode number { fs.inode number with bytes := bytes }
    placed := by
      intro path other present
      rw [fs.placed path other present]
      by_cases same : other = number <;> simp [same]
    counted := by
      intro other names all
      refine (fs.counted other names all).trans ?_
      by_cases same : other = number <;> simp [same] }

def insert (path : Path) (device : Nat) (home : fs.dir path.parent = some device)
    (free : fs.dir path = none) : FileSystem :=
  { fs with
    entry := Function.update fs.entry path (some fs.next)
    inode := Function.update fs.inode fs.next ⟨device, 1, []⟩
    next := fs.next + 1
    placed := by
      intro other number present
      by_cases same : other = path
      · subst same
        simp only [Function.update_self, Option.some.injEq] at present
        simp [← present, home]
      · rw [Function.update_of_ne same] at present
        have below := fs.used other number present
        rw [fs.placed other number present, Function.update_of_ne (by omega)]
    used := by
      intro other number present
      by_cases same : other = path
      · subst same
        simp only [Function.update_self, Option.some.injEq] at present
        omega
      · rw [Function.update_of_ne same] at present
        have below := fs.used other number present
        omega
    counted := by
      intro number names all
      by_cases fresh : number = fs.next
      · subst fresh
        have only : names ⊆ {path} := by
          intro other member
          by_contra different
          have here := all other member
          rw [Function.update_of_ne (by simpa using different)] at here
          exact absurd (fs.used other _ here) (lt_irrefl _)
        simpa using Finset.card_le_card only
      · rw [Function.update_of_ne fresh]
        apply fs.counted number names
        intro other member
        have here := all other member
        by_cases same : other = path
        · subst same
          simp only [Function.update_self, Option.some.injEq] at here
          omega
        · rwa [Function.update_of_ne same] at here
    apart := by
      intro other there
      by_cases same : other = path
      · exact absurd (same ▸ free) there
      · rw [Function.update_of_ne same]
        exact fs.apart other there }

def attach (path : Path) (number : Nat) (known : number < fs.next)
    (home : fs.dir path.parent = some (fs.inode number).device) (free : fs.dir path = none)
    (absent : fs.entry path = none) : FileSystem :=
  { fs with
    entry := Function.update fs.entry path (some number)
    inode := Function.update fs.inode number
      { fs.inode number with nlink := (fs.inode number).nlink + 1 }
    placed := by
      intro other there present
      by_cases same : other = path
      · subst same
        simp only [Function.update_self, Option.some.injEq] at present
        simp [← present, home]
      · rw [Function.update_of_ne same] at present
        rw [fs.placed other there present]
        by_cases shared : there = number <;> simp [shared]
    used := by
      intro other there present
      by_cases same : other = path
      · subst same
        simp only [Function.update_self, Option.some.injEq] at present
        omega
      · rw [Function.update_of_ne same] at present
        exact fs.used other there present
    counted := by
      intro there names all
      have rest : (names.erase path).card ≤ (fs.inode there).nlink := by
        apply fs.counted there
        intro other member
        have here := all other (Finset.mem_of_mem_erase member)
        rwa [Function.update_of_ne (Finset.ne_of_mem_erase member)] at here
      by_cases shared : there = number
      · subst shared
        have bound := Finset.pred_card_le_card_erase (s := names) (a := path)
        simp only [Function.update_self]
        omega
      · rw [Function.update_of_ne shared]
        have missing : path ∉ names := by
          intro member
          have here := all path member
          simp only [Function.update_self, Option.some.injEq] at here
          exact shared here.symm
        rwa [Finset.erase_eq_of_notMem missing] at rest
    apart := by
      intro other there
      by_cases same : other = path
      · exact absurd (same ▸ free) there
      · rw [Function.update_of_ne same]
        exact fs.apart other there }

def detach (path : Path) (number : Nat) (present : fs.entry path = some number) : FileSystem :=
  { fs with
    entry := Function.update fs.entry path none
    inode := Function.update fs.inode number
      { fs.inode number with nlink := (fs.inode number).nlink - 1 }
    placed := by
      intro other there here
      by_cases same : other = path
      · simp [same] at here
      · rw [Function.update_of_ne same] at here
        rw [fs.placed other there here]
        by_cases shared : there = number <;> simp [shared]
    used := by
      intro other there here
      by_cases same : other = path
      · simp [same] at here
      · rw [Function.update_of_ne same] at here
        exact fs.used other there here
    counted := by
      intro there names all
      have elsewhere : path ∉ names := by
        intro member
        have here := all path member
        simp at here
      have before : ∀ other ∈ names, fs.entry other = some there := by
        intro other member
        have here := all other member
        rwa [Function.update_of_ne (ne_of_mem_of_not_mem member elsewhere)] at here
      by_cases shared : there = number
      · subst shared
        have bound := fs.counted there (Insert.insert path names) (by
          intro other member
          rcases Finset.mem_insert.mp member with same | member
          · exact same ▸ present
          · exact before other member)
        rw [Finset.card_insert_of_notMem elsewhere] at bound
        simp only [Function.update_self]
        omega
      · rw [Function.update_of_ne shared]
        exact fs.counted there names before
    apart := by
      intro other there
      by_cases same : other = path
      · simp [same]
      · rw [Function.update_of_ne same]
        exact fs.apart other there }

def addDir (path : Path) (device : Nat) (absent : fs.entry path = none) (free : fs.dir path = none) :
    FileSystem :=
  { fs with
    dir := Function.update fs.dir path (some device)
    placed := by
      intro other number present
      have home := fs.placed other number present
      rw [Function.update_of_ne]
      · exact home
      · intro same
        rw [same, free] at home
        exact absurd home (by simp)
    apart := by
      intro other there
      by_cases same : other = path
      · exact same ▸ absent
      · rw [Function.update_of_ne same] at there
        exact fs.apart other there }

@[simp] theorem setBytes_entry (number : Nat) (bytes : Bytes) :
    (fs.setBytes number bytes).entry = fs.entry := rfl

@[simp] theorem setBytes_dir (number : Nat) (bytes : Bytes) :
    (fs.setBytes number bytes).dir = fs.dir := rfl

theorem setBytes_bytes (number other : Nat) (bytes : Bytes) :
    ((fs.setBytes number bytes).inode other).bytes =
      if other = number then bytes else (fs.inode other).bytes := by
  by_cases same : other = number <;> simp [setBytes, same]

@[simp] theorem insert_dir (path : Path) (device : Nat) home free :
    (fs.insert path device home free).dir = fs.dir := rfl

theorem insert_entry (path other : Path) (device : Nat) home free :
    (fs.insert path device home free).entry other =
      if other = path then some fs.next else fs.entry other := by
  by_cases same : other = path <;> simp [insert, same]

theorem insert_bytes (path : Path) (device number : Nat) home free :
    ((fs.insert path device home free).inode number).bytes =
      if number = fs.next then [] else (fs.inode number).bytes := by
  by_cases same : number = fs.next <;> simp [insert, same]

@[simp] theorem attach_dir (path : Path) (number : Nat) known home free absent :
    (fs.attach path number known home free absent).dir = fs.dir := rfl

theorem attach_entry (path other : Path) (number : Nat) known home free absent :
    (fs.attach path number known home free absent).entry other =
      if other = path then some number else fs.entry other := by
  by_cases same : other = path <;> simp [attach, same]

@[simp] theorem attach_bytes (path : Path) (number other : Nat) known home free absent :
    ((fs.attach path number known home free absent).inode other).bytes = (fs.inode other).bytes := by
  by_cases same : other = number <;> simp [attach, same]

@[simp] theorem detach_dir (path : Path) (number : Nat) present :
    (fs.detach path number present).dir = fs.dir := rfl

theorem detach_entry (path other : Path) (number : Nat) present :
    (fs.detach path number present).entry other = if other = path then none else fs.entry other := by
  by_cases same : other = path <;> simp [detach, same]

@[simp] theorem detach_bytes (path : Path) (number other : Nat) present :
    ((fs.detach path number present).inode other).bytes = (fs.inode other).bytes := by
  by_cases same : other = number <;> simp [detach, same]

@[simp] theorem detach_device (path : Path) (number other : Nat) present :
    ((fs.detach path number present).inode other).device = (fs.inode other).device := by
  by_cases same : other = number <;> simp [detach, same]

@[simp] theorem addDir_entry (path : Path) (device : Nat) absent free :
    (fs.addDir path device absent free).entry = fs.entry := rfl

@[simp] theorem addDir_inode (path : Path) (device : Nat) absent free :
    (fs.addDir path device absent free).inode = fs.inode := rfl

/-! ## System calls -/

-- `open(path, O_WRONLY | O_CREAT | O_EXCL)`: the inode number stands for the descriptor.
def openExclusive (path : Path) : Except OsError (Nat × FileSystem) :=
  if (fs.entry path).isSome then .error .fileExists else
    match free : fs.dir path, home : fs.dir path.parent with
    | some _, _ => .error .fileExists
    | none, none => .error .fileNotFound
    | none, some device => .ok (fs.next, fs.insert path device home free)

def openTruncate (path : Path) : Except OsError (Nat × FileSystem) :=
  match fs.entry path with
  | some number => .ok (number, fs.setBytes number [])
  | none =>
      match free : fs.dir path, home : fs.dir path.parent with
      | some _, _ => .error .isADirectory
      | none, none => .error .fileNotFound
      | none, some device => .ok (fs.next, fs.insert path device home free)

def write (number : Nat) (bytes : Bytes) : Except OsError (Unit × FileSystem) :=
  .ok ((), fs.setBytes number ((fs.inode number).bytes ++ bytes))

-- `link(source, target)`; fails when the target exists, never replaces it.
def link (source target : Path) : Except OsError (Unit × FileSystem) :=
  match present : fs.entry source with
  | none => if (fs.dir source).isSome then .error .isADirectory else .error .fileNotFound
  | some number =>
      match absent : fs.entry target, free : fs.dir target, home : fs.dir target.parent with
      | some _, _, _ => .error .fileExists
      | none, some _, _ => .error .fileExists
      | none, none, none => .error .fileNotFound
      | none, none, some device =>
          if same : device = (fs.inode number).device then
            .ok ((), fs.attach target number (fs.used source number present) (same ▸ home) free absent)
          else .error .crossDevice

def unlink (path : Path) : Except OsError (Unit × FileSystem) :=
  match present : fs.entry path with
  | some number => .ok ((), fs.detach path number present)
  | none => if (fs.dir path).isSome then .error .isADirectory else .error .fileNotFound

-- Drop the entry at a path, if there is one.
def clear (path : Path) : FileSystem :=
  match present : fs.entry path with
  | some number => fs.detach path number present
  | none => fs

theorem clear_entry (path other : Path) :
    (fs.clear path).entry other = if other = path then none else fs.entry other := by
  unfold clear
  split
  · exact fs.detach_entry path other _ _
  · by_cases same : other = path <;> simp_all

@[simp] theorem clear_dir (path : Path) : (fs.clear path).dir = fs.dir := by
  unfold clear
  split <;> rfl

@[simp] theorem clear_next (path : Path) : (fs.clear path).next = fs.next := by
  unfold clear
  split <;> rfl

@[simp] theorem clear_device (path : Path) (number : Nat) :
    ((fs.clear path).inode number).device = (fs.inode number).device := by
  unfold clear
  split <;> simp

@[simp] theorem clear_bytes (path : Path) (number : Nat) :
    ((fs.clear path).inode number).bytes = (fs.inode number).bytes := by
  unfold clear
  split <;> simp

def unlinkMissingOk (path : Path) : Except OsError (Unit × FileSystem) :=
  if (fs.dir path).isSome then .error .isADirectory else .ok ((), fs.clear path)

/-- `rename(source, target)` of regular files. When both names are links of one inode it does
nothing and still succeeds; otherwise it replaces the target. -/
def rename (source target : Path) : Except OsError (Unit × FileSystem) :=
  match present : fs.entry source with
  | none => if (fs.dir source).isSome then .error .isADirectory else .error .fileNotFound
  | some number =>
      if linked : fs.entry target = some number then .ok ((), fs)
      else
        match free : fs.dir target, home : fs.dir target.parent with
        | some _, _ => .error .isADirectory
        | none, none => .error .fileNotFound
        | none, some device =>
            if same : device = (fs.inode number).device then
              let moved := (fs.clear target).attach target number
                (by simpa using fs.used source number present) (by simpa [← same] using home)
                (by simpa using free) (by simp [clear_entry])
              .ok ((), moved.detach source number (by
                have different : source ≠ target := fun equal => linked (equal ▸ present)
                simp [moved, attach_entry, clear_entry, different, present]))
            else .error .crossDevice

def mkdir (path : Path) : Except OsError (Unit × FileSystem) :=
  match absent : fs.entry path, free : fs.dir path, fs.dir path.parent with
  | some _, _, _ => .error .fileExists
  | none, some _, _ => .error .fileExists
  | none, none, none =>
      if (fs.entry path.parent).isSome then .error .notADirectory else .error .fileNotFound
  | none, none, some device => .ok ((), fs.addDir path device absent free)

/-! ## What a successful call did -/

variable {fs} {after : FileSystem}

theorem openExclusive_ok {path : Path} {number : Nat}
    (opened : fs.openExclusive path = .ok (number, after)) :
    fs.entry path = none ∧ fs.dir path = none ∧ number = fs.next ∧
      ∃ device home free, after = fs.insert path device home free := by
  unfold openExclusive at opened
  split at opened
  · simp at opened
  · rename_i vacant
    have absent : fs.entry path = none := by simpa using vacant
    split at opened
    · simp at opened
    · simp at opened
    · rename_i device free home
      simp only [Except.ok.injEq, Prod.mk.injEq] at opened
      exact ⟨absent, free, opened.1.symm, device, home, free, opened.2.symm⟩

theorem openTruncate_ok {path : Path} {number : Nat}
    (opened : fs.openTruncate path = .ok (number, after)) :
    (fs.entry path = some number ∧ after = fs.setBytes number []) ∨
      fs.entry path = none ∧ number = fs.next ∧
        ∃ device home free, after = fs.insert path device home free := by
  unfold openTruncate at opened
  split at opened
  · rename_i present
    simp only [Except.ok.injEq, Prod.mk.injEq] at opened
    exact .inl ⟨opened.1 ▸ present, by rw [← opened.2, opened.1]⟩
  · rename_i absent
    split at opened
    · simp at opened
    · simp at opened
    · rename_i device free home
      simp only [Except.ok.injEq, Prod.mk.injEq] at opened
      exact .inr ⟨absent, opened.1.symm, device, home, free, opened.2.symm⟩

theorem link_ok {source target : Path} {result : Unit}
    (linked : fs.link source target = .ok (result, after)) :
    ∃ number, fs.entry source = some number ∧ fs.entry target = none ∧
      ∃ known home free absent, after = fs.attach target number known home free absent := by
  unfold link at linked
  split at linked
  · split at linked <;> simp at linked
  · rename_i number present
    split at linked
    · simp at linked
    · simp at linked
    · simp at linked
    · rename_i absent free home
      split at linked
      · simp only [Except.ok.injEq, Prod.mk.injEq] at linked
        exact ⟨number, present, absent, _, _, _, _, linked.2.symm⟩
      · simp at linked

theorem unlink_ok {path : Path} {result : Unit} (removed : fs.unlink path = .ok (result, after)) :
    ∃ number present, after = fs.detach path number present := by
  unfold unlink at removed
  split at removed
  · simp only [Except.ok.injEq, Prod.mk.injEq] at removed
    exact ⟨_, _, removed.2.symm⟩
  · split at removed <;> simp at removed

theorem unlinkMissingOk_ok {path : Path} {result : Unit}
    (removed : fs.unlinkMissingOk path = .ok (result, after)) : after = fs.clear path := by
  unfold unlinkMissingOk at removed
  split at removed
  · simp at removed
  · simp only [Except.ok.injEq, Prod.mk.injEq] at removed
    exact removed.2.symm

theorem rename_linked {source target : Path} {number : Nat} (present : fs.entry source = some number)
    (linked : fs.entry target = some number) : fs.rename source target = .ok ((), fs) := by
  unfold rename
  split
  · simp_all
  · rename_i found there
    rw [present] at there
    rw [dif_pos (by rw [linked, there])]

theorem mkdir_ok {path : Path} {result : Unit} (made : fs.mkdir path = .ok (result, after)) :
    ∃ device absent free, after = fs.addDir path device absent free := by
  unfold mkdir at made
  split at made
  · simp at made
  · simp at made
  · split at made <;> simp at made
  · simp only [Except.ok.injEq, Prod.mk.injEq] at made
    exact ⟨_, _, _, made.2.symm⟩

end FileSystem

end Phaze.Shared
