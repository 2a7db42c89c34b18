import Mathlib.Data.Fintype.Basic
import Mathlib.Data.List.Nodup
import Mathlib.Data.List.Perm.Basic

set_option autoImplicit false

/-!
# Foreign keys and `DELETE`

Tables of rows that name one another in declared columns. A `DELETE` takes the rows selected and,
along `ON DELETE CASCADE`, the rows that name them; it clears `ON DELETE SET NULL` columns and is
refused where a row that stays names one that goes in any other way.
-/

namespace Phaze.ForeignKeys

inductive OnDelete where
  | noAction
  | restrict
  | cascade
  | setNull
deriving DecidableEq

structure ForeignKey (Name : Type) where
  target : Name
  onDelete : OnDelete
deriving DecidableEq

abbrev Schema (Name Column : Type) := Name → Column → Option (ForeignKey Name)

structure Row (Name Column Id Data : Type) where
  table : Name
  id : Id
  refs : Column → Option Id
  data : Data

variable {Name Column Id Data : Type}

def Row.key (row : Row Name Column Id Data) : Name × Id := (row.table, row.id)

structure Database (Name Column Id Data : Type) where
  rows : List (Row Name Column Id Data)
  keyed : (rows.map Row.key).Nodup

theorem Database.eq_of_key {db : Database Name Column Id Data} {row other : Row Name Column Id Data}
    (member : row ∈ db.rows) (there : other ∈ db.rows) (same : row.key = other.key) : row = other :=
  List.inj_on_of_nodup_map db.keyed member there same

-- `child` names `parent` in a column whose constraint is declared with `action`.
def Names (schema : Schema Name Column) (action : OnDelete) (child parent : Row Name Column Id Data) : Prop :=
  ∃ column, schema child.table column = some ⟨parent.table, action⟩ ∧ child.refs column = some parent.id

instance [DecidableEq Name] [DecidableEq Id] [Fintype Column] (schema : Schema Name Column) (action : OnDelete)
    (child parent : Row Name Column Id Data) : Decidable (Names schema action child parent) :=
  inferInstanceAs (Decidable (∃ _, _ ∧ _))

def Blocks (schema : Schema Name Column) (child parent : Row Name Column Id Data) : Prop :=
  Names schema .noAction child parent ∨ Names schema .restrict child parent

instance [DecidableEq Name] [DecidableEq Id] [Fintype Column] (schema : Schema Name Column)
    (child parent : Row Name Column Id Data) : Decidable (Blocks schema child parent) :=
  inferInstanceAs (Decidable (_ ∨ _))

-- Every constraint holds.
def Valid (schema : Schema Name Column) (rows : List (Row Name Column Id Data)) : Prop :=
  ∀ row ∈ rows, ∀ column, ∀ foreignKey ∈ schema row.table column, ∀ id ∈ row.refs column,
    ∃ parent ∈ rows, parent.table = foreignKey.target ∧ parent.id = id

instance [DecidableEq Name] [DecidableEq Id] [Fintype Column] (schema : Schema Name Column)
    (rows : List (Row Name Column Id Data)) : Decidable (Valid schema rows) :=
  inferInstanceAs (Decidable (∀ row ∈ rows, ∀ column, ∀ foreignKey ∈ schema row.table column, ∀ id ∈ row.refs column,
    ∃ parent ∈ rows, parent.table = foreignKey.target ∧ parent.id = id))

/-! ## The rows a deletion takes -/

section Removal

variable (schema : Schema Name Column)

inductive Removed (rows : List (Row Name Column Id Data)) (chosen : Row Name Column Id Data → Prop) :
    Row Name Column Id Data → Prop where
  | chosen {row} : row ∈ rows → chosen row → Removed rows chosen row
  | cascaded {row parent} : row ∈ rows → Removed rows chosen parent → Names schema .cascade row parent →
      Removed rows chosen row

variable {schema} {rows : List (Row Name Column Id Data)} {chosen other : Row Name Column Id Data → Prop}
variable {row : Row Name Column Id Data}

theorem Removed.mem (removed : Removed schema rows chosen row) : row ∈ rows := by
  cases removed with
  | chosen member _ => exact member
  | cascaded member _ _ => exact member

theorem Removed.mono (wider : ∀ row, chosen row → other row) (removed : Removed schema rows chosen row) :
    Removed schema rows other row := by
  induction removed with
  | chosen member holds => exact .chosen member (wider _ holds)
  | cascaded member _ names ih => exact .cascaded member ih names

end Removal

section Spread

variable [DecidableEq Name] [DecidableEq Id] [Fintype Column] (schema : Schema Name Column)

def cascadesFrom (gone : List (Row Name Column Id Data)) (row : Row Name Column Id Data) : Bool :=
  gone.any fun parent => decide (Names schema .cascade row parent)

-- Each round takes the rows that name a row already taken.
def spread : Nat → List (Row Name Column Id Data) → List (Row Name Column Id Data) → List (Row Name Column Id Data)
  | 0, gone, _ => gone
  | rounds + 1, gone, rest =>
      spread rounds (gone ++ rest.filter (cascadesFrom schema gone)) (rest.filter fun row => !cascadesFrom schema gone row)

variable {schema} {gone rest rows : List (Row Name Column Id Data)} {row parent : Row Name Column Id Data}
variable {rounds : Nat} {chosen : Row Name Column Id Data → Prop}

theorem cascadesFrom_iff :
    cascadesFrom schema gone row = true ↔ ∃ parent ∈ gone, Names schema .cascade row parent := by
  simp [cascadesFrom, List.any_eq_true]

theorem subset_spread (member : row ∈ gone) : row ∈ spread schema rounds gone rest := by
  induction rounds generalizing gone rest with
  | zero => exact member
  | succ rounds ih => exact ih (List.mem_append_left _ member)

theorem removed_of_mem_spread (taken : ∀ row ∈ gone, Removed schema rows chosen row) (inside : ∀ row ∈ rest, row ∈ rows)
    (member : row ∈ spread schema rounds gone rest) : Removed schema rows chosen row := by
  induction rounds generalizing gone rest with
  | zero => exact taken row member
  | succ rounds ih =>
    refine ih ?_ ?_ member
    next =>
      intro row member
      rcases List.mem_append.mp member with member | member
      next => exact taken row member
      next =>
        obtain ⟨member, cascades⟩ := List.mem_filter.mp member
        obtain ⟨parent, earlier, names⟩ := cascadesFrom_iff.mp cascades
        exact .cascaded (inside row member) (taken parent earlier) names
    next => exact fun row member => inside row (List.mem_filter.mp member).1

theorem spread_settled (settled : ∀ row ∈ rest, cascadesFrom schema gone row = false) :
    spread schema rounds gone rest = gone := by
  induction rounds with
  | zero => rfl
  | succ rounds ih =>
    have none : rest.filter (cascadesFrom schema gone) = [] := List.filter_eq_nil_iff.mpr (by simpa using settled)
    have all : (rest.filter fun row => !cascadesFrom schema gone row) = rest :=
      List.filter_eq_self.mpr (by simpa using settled)
    rw [spread, none, all, List.append_nil]
    exact ih

-- With as many rounds as there are rows left, no row is left that names one taken.
theorem spread_closed (enough : rest.length ≤ rounds) (member : row ∈ rest)
    (taken : parent ∈ spread schema rounds gone rest) (names : Names schema .cascade row parent) :
    row ∈ spread schema rounds gone rest := by
  induction rounds generalizing gone rest with
  | zero =>
    rw [Nat.le_zero, List.length_eq_zero_iff] at enough
    subst enough
    exact absurd member List.not_mem_nil
  | succ rounds ih =>
    by_cases settled : ∀ row ∈ rest, cascadesFrom schema gone row = false
    next =>
      rw [spread_settled settled] at taken ⊢
      have cascades := cascadesFrom_iff.mpr ⟨parent, taken, names⟩
      rw [settled row member] at cascades
      exact absurd cascades Bool.false_ne_true
    next =>
      have shorter : (rest.filter fun row => !cascadesFrom schema gone row).length < rest.length := by
        apply List.length_filter_lt_length_iff_exists.mpr
        push Not at settled
        obtain ⟨row, member, cascades⟩ := settled
        exact ⟨row, member, by simpa using cascades⟩
      cases cascades : cascadesFrom schema gone row with
      | true =>
        rw [spread]
        exact subset_spread (List.mem_append_right _ (List.mem_filter.mpr ⟨member, cascades⟩))
      | false => exact ih (by omega) (List.mem_filter.mpr ⟨member, by simp [cascades]⟩) taken

end Spread

/-! ## One `DELETE` -/

inductive Refusal where
  | foreignKeyViolation
deriving DecidableEq, Repr

section Delete

variable [DecidableEq Name] [DecidableEq Id] [Fintype Column] (schema : Schema Name Column)

-- `ON DELETE SET NULL`
def release (gone : List (Row Name Column Id Data)) (row : Row Name Column Id Data) : Row Name Column Id Data :=
  { row with
    refs := fun column =>
      if gone.any fun parent =>
          decide (schema row.table column = some ⟨parent.table, .setNull⟩ ∧ row.refs column = some parent.id)
      then none
      else row.refs column }

omit [Fintype Column] in
@[simp]
theorem release_key (gone : List (Row Name Column Id Data)) (row : Row Name Column Id Data) :
    (release schema gone row).key = row.key := rfl

def taken (chosen : Row Name Column Id Data → Bool) (db : Database Name Column Id Data) :
    List (Row Name Column Id Data) :=
  let others := db.rows.filter fun row => !chosen row
  spread schema others.length (db.rows.filter chosen) others

-- A database may look for rows in the way before a cascade takes them, so only the rows selected are left out.
def delete (chosen : Row Name Column Id Data → Bool) (db : Database Name Column Id Data) :
    Except Refusal (Database Name Column Id Data) :=
  let gone := taken schema chosen db
  if (db.rows.filter fun row => !chosen row).any fun row => gone.any fun parent => decide (Blocks schema row parent)
  then .error .foreignKeyViolation
  else .ok
    { rows := (db.rows.filter fun row => !gone.any fun other => decide (other.key = row.key)).map (release schema gone)
      keyed := by
        rw [List.map_map]
        have same : (Row.key ∘ release schema gone) = (Row.key : Row Name Column Id Data → Name × Id) := rfl
        rw [same]
        exact db.keyed.sublist (List.filter_sublist.map Row.key) }

end Delete

/-! ## What a `DELETE` leaves -/

section Remains

variable (schema : Schema Name Column) (rows : List (Row Name Column Id Data))
variable (gone : Row Name Column Id Data → Prop)

-- The column names a row that goes, and is declared `ON DELETE SET NULL`.
def Nulled (row : Row Name Column Id Data) (column : Column) : Prop :=
  ∃ parent ∈ rows, gone parent ∧ schema row.table column = some ⟨parent.table, .setNull⟩ ∧
    row.refs column = some parent.id

open Classical in
noncomputable def cleared (row : Row Name Column Id Data) : Row Name Column Id Data :=
  { row with refs := fun column => if Nulled schema rows gone row column then none else row.refs column }

open Classical in
noncomputable def remains : List (Row Name Column Id Data) :=
  (rows.filter fun row => ¬ gone row).map (cleared schema rows gone)

variable {schema rows gone} {row : Row Name Column Id Data} {column : Column} {id : Id}

@[simp]
theorem cleared_table : (cleared schema rows gone row).table = row.table := rfl

@[simp]
theorem cleared_id : (cleared schema rows gone row).id = row.id := rfl

@[simp]
theorem cleared_data : (cleared schema rows gone row).data = row.data := rfl

theorem cleared_refs_of_nulled (null : Nulled schema rows gone row column) :
    (cleared schema rows gone row).refs column = none := if_pos null

theorem cleared_refs_of_not_nulled (kept : ¬ Nulled schema rows gone row column) :
    (cleared schema rows gone row).refs column = row.refs column := if_neg kept

theorem refs_of_cleared (found : (cleared schema rows gone row).refs column = some id) :
    row.refs column = some id := by
  by_cases null : Nulled schema rows gone row column
  next =>
    rw [cleared_refs_of_nulled null] at found
    exact absurd found (by simp)
  next => rwa [cleared_refs_of_not_nulled null] at found

theorem cleared_eq_self (kept : ∀ column, ¬ Nulled schema rows gone row column) : cleared schema rows gone row = row := by
  have refs : (cleared schema rows gone row).refs = row.refs :=
    funext fun column => cleared_refs_of_not_nulled (kept column)
  cases row
  rw [cleared] at refs ⊢
  rw [Row.mk.injEq]
  exact ⟨rfl, rfl, refs, rfl⟩

theorem mem_remains : row ∈ remains schema rows gone ↔
    ∃ original ∈ rows, ¬ gone original ∧ cleared schema rows gone original = row := by
  simp [remains, and_assoc]

-- Where nothing blocks, a deletion leaves every constraint in force.
theorem Valid.remains (valid : Valid schema rows)
    (closed : ∀ row ∈ rows, ∀ parent, gone parent → Names schema .cascade row parent → gone row)
    (free : ∀ row ∈ rows, ¬ gone row → ∀ parent, gone parent → ¬ Blocks schema row parent) :
    Valid schema (remains schema rows gone) := by
  intro row member column foreignKey declared id found
  obtain ⟨original, before, stays, rfl⟩ := mem_remains.mp member
  obtain ⟨parent, there, target, named⟩ := valid original before column foreignKey declared id (refs_of_cleared found)
  have names : ∀ action, foreignKey.onDelete = action → Names schema action original parent := by
    rintro action rfl
    refine ⟨column, ?_, by rw [refs_of_cleared found, named]⟩
    rw [target]
    exact declared
  have kept : ¬ gone parent := by
    intro lost
    cases action : foreignKey.onDelete with
    | noAction => exact free original before stays parent lost (.inl (names _ action))
    | restrict => exact free original before stays parent lost (.inr (names _ action))
    | cascade => exact stays (closed original before parent lost (names _ action))
    | setNull =>
      have null : Nulled schema rows gone original column := by
        refine ⟨parent, there, lost, ?_, by rw [refs_of_cleared found, named]⟩
        rw [target, ← action]
        exact declared
      rw [cleared_refs_of_nulled null] at found
      exact absurd found (by simp)
  exact ⟨_, mem_remains.mpr ⟨parent, there, kept, rfl⟩, target, named⟩

end Remains

section DeleteLeaves

variable [DecidableEq Name] [DecidableEq Id] [Fintype Column] {schema : Schema Name Column}
variable {chosen : Row Name Column Id Data → Bool} {db : Database Name Column Id Data}
variable {row : Row Name Column Id Data}

theorem mem_taken : row ∈ taken schema chosen db ↔ Removed schema db.rows (fun row => chosen row = true) row := by
  constructor
  next =>
    refine fun member => removed_of_mem_spread ?_ (fun row member => (List.mem_filter.mp member).1) member
    intro row member
    obtain ⟨member, selected⟩ := List.mem_filter.mp member
    exact .chosen member selected
  next =>
    intro removed
    induction removed with
    | chosen member selected => exact subset_spread (List.mem_filter.mpr ⟨member, selected⟩)
    | @cascaded row parent member _ names ih =>
      cases selected : chosen row with
      | true => exact subset_spread (List.mem_filter.mpr ⟨member, selected⟩)
      | false => exact spread_closed (Nat.le_refl _) (List.mem_filter.mpr ⟨member, by simp [selected]⟩) ih names

theorem any_key_iff (member : row ∈ db.rows) :
    ((taken schema chosen db).any fun other => decide (other.key = row.key)) = true ↔
      Removed schema db.rows (fun row => chosen row = true) row := by
  rw [List.any_eq_true, ← mem_taken]
  constructor
  next =>
    rintro ⟨other, gone, same⟩
    rw [← Database.eq_of_key (mem_taken.mp gone).mem member (of_decide_eq_true same)]
    exact gone
  next => exact fun gone => ⟨row, gone, decide_eq_true rfl⟩

theorem release_taken (row : Row Name Column Id Data) :
    release schema (taken schema chosen db) row =
      cleared schema db.rows (Removed schema db.rows fun row => chosen row = true) row := by
  rw [release, cleared]
  congr 1
  funext column
  have same : ((taken schema chosen db).any fun parent =>
      decide (schema row.table column = some ⟨parent.table, .setNull⟩ ∧ row.refs column = some parent.id)) = true ↔
      Nulled schema db.rows (Removed schema db.rows fun row => chosen row = true) row column := by
    simp only [Nulled]
    simp only [List.any_eq_true, mem_taken, decide_eq_true_eq]
    constructor
    next => exact fun ⟨parent, gone, named⟩ => ⟨parent, gone.mem, gone, named⟩
    next => exact fun ⟨parent, _, gone, named⟩ => ⟨parent, gone, named⟩
  by_cases null : Nulled schema db.rows (Removed schema db.rows fun row => chosen row = true) row column
  next => rw [if_pos (same.mpr null), if_pos null]
  next => rw [if_neg (mt same.mp null), if_neg null]

-- A `DELETE` goes through where no row left out of it blocks one that goes.
theorem delete_ok (free : ∀ row ∈ db.rows, chosen row = false → ∀ parent,
      Removed schema db.rows (fun row => chosen row = true) parent → ¬ Blocks schema row parent) :
    ∃ after, delete schema chosen db = .ok after ∧
      after.rows = remains schema db.rows (Removed schema db.rows fun row => chosen row = true) := by
  have clear : ((db.rows.filter fun row => !chosen row).any fun row =>
      (taken schema chosen db).any fun parent => decide (Blocks schema row parent)) = false := by
    apply Bool.eq_false_iff.mpr
    intro blocked
    obtain ⟨row, member, blocked⟩ := List.any_eq_true.mp blocked
    obtain ⟨parent, gone, blocks⟩ := List.any_eq_true.mp blocked
    obtain ⟨member, left⟩ := List.mem_filter.mp member
    exact free row member (by simpa using left) parent (mem_taken.mp gone) (of_decide_eq_true blocks)
  classical
  rw [delete]
  simp only [clear, Bool.false_eq_true, if_false]
  refine ⟨_, rfl, ?_⟩
  simp only [remains]
  have kept : (db.rows.filter fun row => !(taken schema chosen db).any fun other => decide (other.key = row.key)) =
      db.rows.filter fun row => decide (¬ Removed schema db.rows (fun row => chosen row = true) row) := by
    refine List.filter_congr fun row member => ?_
    rw [Bool.eq_iff_iff, Bool.not_eq_true', decide_eq_true_iff, ← Bool.not_eq_true, any_key_iff member]
  rw [kept]
  exact List.map_congr_left fun row _ => release_taken row

end DeleteLeaves

end Phaze.ForeignKeys
