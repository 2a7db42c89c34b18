import Mathlib.Data.List.DropRight
import Phaze.Shared.FileSystem

set_option autoImplicit false

/-!
# Path texts

How a path text is read into components, joined, and resolved where no symbolic link
exists. A leading `//` is read as `/`, which is what it means on Linux.
-/

namespace Phaze.Shared

abbrev Text := List Char

namespace PurePath

def isAbsolute (text : Text) : Bool := text.head? = some '/'

def parts (text : Text) : List Name :=
  (text.splitOn '/').filter fun part => part ≠ [] ∧ part ≠ ['.']

-- `base / text`: an absolute text replaces the base.
def join (base : List Name) (text : Text) : List Name :=
  if isAbsolute text then parts text else base ++ parts text

-- Drop `..` together with the component before it; above the root it means the root.
def collapse (components : List Name) : Path :=
  components.foldl (fun path part => if part = ['.', '.'] then path.dropLast else path ++ [part]) []

-- `Path(text).resolve()`; a relative text starts at the working directory.
def resolve (cwd : Path) (text : Text) : Path := collapse (join cwd text)

/-- Whether the system finds anything at a path that may hold `..`: every component but the
last has to be reached through a directory. -/
def existsFrom (fs : FileSystem) : Path → List Name → Bool
  | here, [] => fs.exist here
  | here, part :: rest =>
      (fs.dir here).isSome &&
        existsFrom fs (if part = ['.', '.'] then here.dropLast else here ++ [part]) rest

def existsAt (fs : FileSystem) (components : List Name) : Bool := existsFrom fs [] components

def render (components : List Name) : Text :=
  if components = [] then ['/'] else components.flatMap fun part => '/' :: part

def isRelativeTo (path root : Path) : Bool := root.isPrefixOf path

/-! ## Spellings

A component without `/` is recovered from a text by splitting, so a text that is spelled
without doubled or trailing slashes says exactly what its components are.
-/

def slashed (components : List Name) : Text := components.flatMap ('/' :: ·)

def unslashed (components : List Name) : Text := (slashed components).tail

structure Component (name : Name) : Prop where
  nonempty : name ≠ []
  single : '/' ∉ name
  visible : name ≠ ['.']

@[simp] theorem slashed_nil : slashed [] = [] := rfl

@[simp] theorem slashed_cons (name : Name) (rest : List Name) :
    slashed (name :: rest) = '/' :: (name ++ slashed rest) := rfl

theorem slashed_append (front back : List Name) : slashed (front ++ back) = slashed front ++ slashed back := by
  simp [slashed]

theorem slashed_eq_cons {components : List Name} (some_ : components ≠ []) :
    slashed components = '/' :: unslashed components := by
  cases components with
  | nil => exact absurd rfl some_
  | cons name rest => rfl

theorem intercalate_cons (name : Name) (rest : List Name) :
    ['/'].intercalate (name :: rest) = name ++ slashed rest := by
  induction rest generalizing name with
  | nil => simp
  | cons next rest ih => simp [List.intercalate_cons_cons, ih]

theorem splitOn_slashed {components : List Name} (single : ∀ name ∈ components, '/' ∉ name) :
    (slashed components).splitOn '/' = [] :: components := by
  have text : slashed components = ['/'].intercalate ([] :: components) := (intercalate_cons [] components).symm
  rw [text]
  exact List.splitOn_intercalate '/' (by simpa using single) (by simp)

theorem slashed_injective {left right : List Name} (single : ∀ name ∈ left, '/' ∉ name)
    (single' : ∀ name ∈ right, '/' ∉ name) (same : slashed left = slashed right) : left = right := by
  have split := congrArg (List.splitOn '/') same
  rw [splitOn_slashed single, splitOn_slashed single'] at split
  exact List.tail_eq_of_cons_eq split

theorem notMem_of_mem_splitOn {text : Text} {name : Name} (member : name ∈ text.splitOn '/') : '/' ∉ name := by
  induction text generalizing name with
  | nil => simp_all
  | cons letter rest ih =>
      rw [List.splitOn_cons_eq_if_modifyHead] at member
      split at member
      · rcases List.mem_cons.mp member with rfl | later
        · simp
        · exact ih later
      · rename_i other
        cases split : rest.splitOn '/' with
        | nil => exact absurd split (List.splitOn_ne_nil _ _)
        | cons first later =>
            rw [split] at ih member
            rcases List.mem_cons.mp member with rfl | later
            · have below := ih (List.mem_cons_self ..)
              rw [List.mem_cons, not_or]
              exact ⟨fun same => other (by simp [← same]), below⟩
            · exact ih (List.mem_cons_of_mem _ later)

theorem component_of_mem_parts {text : Text} {name : Name} (member : name ∈ parts text) : Component name := by
  simp only [parts, List.mem_filter, decide_eq_true_eq] at member
  exact ⟨member.2.1, notMem_of_mem_splitOn member.1, member.2.2⟩

-- A text whose slashes stand only between components.
def SpelledRelative (text : Text) : Prop := text = unslashed (parts text) ∧ parts text ≠ []

def NoDotDot (components : List Name) : Prop := ['.', '.'] ∉ components

instance (text : Text) : Decidable (SpelledRelative text) :=
  inferInstanceAs (Decidable (text = unslashed (parts text) ∧ parts text ≠ []))

instance (components : List Name) : Decidable (NoDotDot components) :=
  inferInstanceAs (Decidable (['.', '.'] ∉ components))

theorem collapse_foldl (front back : List Name) (plain : NoDotDot back) :
    back.foldl (fun path part => if part = ['.', '.'] then path.dropLast else path ++ [part]) front =
      front ++ back := by
  induction back generalizing front with
  | nil => simp
  | cons part rest ih =>
      have here : part ≠ ['.', '.'] := fun same => plain (by simp [same])
      rw [List.foldl_cons, if_neg here, ih _ fun member => plain (List.mem_cons_of_mem _ member)]
      simp

theorem collapse_of_plain {components : List Name} (plain : NoDotDot components) :
    collapse components = components :=
  collapse_foldl [] components plain

end PurePath

end Phaze.Shared
