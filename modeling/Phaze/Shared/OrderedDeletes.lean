import Phaze.Shared.ForeignKeys

set_option autoImplicit false

/-!
# Deletions one table after another

A list of `DELETE … WHERE column IN (SELECT …)` statements. Where children come before the rows they
name and no statement reads what an earlier one touched, the list takes what its statements select on
the database they started from, and what the cascades take with it.
-/

namespace Phaze.ForeignKeys

variable {Name Column Id Data : Type}

-- `SELECT id FROM table WHERE …`
inductive Scope (Name Column Id Data : Type) where
  | rows (table : Name) (condition : Row Name Column Id Data → Bool)
  | within (table : Name) (column : Column) (inner : Scope Name Column Id Data)

inductive Condition (Name Column Id Data : Type) where
  | rows (condition : Row Name Column Id Data → Bool)
  -- `column IN (…) OR column IN (…)`
  | refers (columns : List Column) (scope : Scope Name Column Id Data)

structure Statement (Name Column Id Data : Type) where
  table : Name
  condition : Condition Name Column Id Data

def Scope.tables : Scope Name Column Id Data → List Name
  | .rows table _ => [table]
  | .within table _ inner => table :: inner.tables

def Condition.tables : Condition Name Column Id Data → List Name
  | .rows _ => []
  | .refers _ scope => scope.tables

def Statement.reads (statement : Statement Name Column Id Data) : List Name :=
  statement.table :: statement.condition.tables

section Semantics

variable [DecidableEq Name] [DecidableEq Id]

def rowsOf (rows : List (Row Name Column Id Data)) (table : Name) : List (Row Name Column Id Data) :=
  rows.filter fun row => decide (row.table = table)

def Scope.ids (rows : List (Row Name Column Id Data)) : Scope Name Column Id Data → List Id
  | .rows table condition => ((rowsOf rows table).filter condition).map Row.id
  | .within table column inner =>
      ((rowsOf rows table).filter fun row => (row.refs column).any fun id => decide (id ∈ inner.ids rows)).map Row.id

def Condition.holds (rows : List (Row Name Column Id Data)) (row : Row Name Column Id Data) :
    Condition Name Column Id Data → Bool
  | .rows condition => condition row
  | .refers columns scope => columns.any fun column => (row.refs column).any fun id => decide (id ∈ scope.ids rows)

def Statement.chosen (rows : List (Row Name Column Id Data)) (statement : Statement Name Column Id Data)
    (row : Row Name Column Id Data) : Bool :=
  decide (row.table = statement.table) && statement.condition.holds rows row

variable {rows : List (Row Name Column Id Data)} {row : Row Name Column Id Data} {table : Name} {column : Column}
variable {id : Id}

theorem mem_ids_rows {condition : Row Name Column Id Data → Bool} :
    id ∈ (Scope.rows table condition : Scope Name Column Id Data).ids rows ↔
      ∃ row ∈ rows, row.table = table ∧ condition row = true ∧ row.id = id := by
  simp only [Scope.ids, rowsOf, List.mem_map, List.mem_filter, decide_eq_true_eq, and_assoc]

theorem mem_ids_within {inner : Scope Name Column Id Data} :
    id ∈ (Scope.within table column inner).ids rows ↔
      ∃ row ∈ rows, row.table = table ∧ (∃ other ∈ inner.ids rows, row.refs column = some other) ∧ row.id = id := by
  simp only [Scope.ids, rowsOf, List.mem_map, List.mem_filter, decide_eq_true_eq, Option.any_eq_true, and_assoc]
  simp only [and_comm]

theorem chosen_rows_iff {condition : Row Name Column Id Data → Bool} :
    (Statement.mk table (.rows condition) : Statement Name Column Id Data).chosen rows row = true ↔
      row.table = table ∧ condition row = true := by
  simp [Statement.chosen, Condition.holds]

theorem chosen_refers_iff {columns : List Column} {scope : Scope Name Column Id Data} :
    (Statement.mk table (.refers columns scope)).chosen rows row = true ↔
      row.table = table ∧ ∃ column ∈ columns, ∃ other ∈ scope.ids rows, row.refs column = some other := by
  simp only [Statement.chosen, Condition.holds, Bool.and_eq_true, decide_eq_true_eq, List.any_eq_true,
    Option.any_eq_true]
  simp only [and_comm]

variable [Fintype Column] (schema : Schema Name Column)

-- Each statement answers with the rows it deleted.
def execute : List (Statement Name Column Id Data) → Database Name Column Id Data →
    Except Refusal (Database Name Column Id Data × List (Name × List (Row Name Column Id Data)))
  | [], db => .ok (db, [])
  | statement :: rest, db => do
      let after ← delete schema (statement.chosen db.rows) db
      let (last, counts) ← execute rest after
      return (last, (statement.table, db.rows.filter (statement.chosen db.rows)) :: counts)

end Semantics

/-! ## Deleting what is left after a deletion -/

section Composition

variable {schema : Schema Name Column} {rows : List (Row Name Column Id Data)}
variable {first second : Row Name Column Id Data → Prop} {later : Row Name Column Id Data → Prop}
variable {row parent : Row Name Column Id Data} {gone : Row Name Column Id Data → Prop} {column : Column}

theorem cleared_refs_of_cascade {target : Name} (declared : schema row.table column = some ⟨target, .cascade⟩) :
    (cleared schema rows gone row).refs column = row.refs column := by
  refine cleared_refs_of_not_nulled ?_
  rintro ⟨parent, _, _, null, _⟩
  rw [declared] at null
  exact absurd null (by simp)

theorem names_cleared_iff : Names schema .cascade (cleared schema rows gone row) (cleared schema rows gone parent) ↔
    Names schema .cascade row parent := by
  constructor
  next => exact fun ⟨column, declared, named⟩ => ⟨column, declared, refs_of_cleared named⟩
  next =>
    rintro ⟨column, declared, named⟩
    exact ⟨column, declared, by rw [cleared_refs_of_cascade declared]; exact named⟩

theorem removed_remains_iff
    (agree : ∀ row ∈ rows, ¬ Removed schema rows first row →
      (later (cleared schema rows (Removed schema rows first) row) ↔ second row))
    (member : row ∈ rows) :
    Removed schema rows (fun row => first row ∨ second row) row ↔
      Removed schema rows first row ∨ ¬ Removed schema rows first row ∧
        Removed schema (remains schema rows (Removed schema rows first)) later
          (cleared schema rows (Removed schema rows first) row) := by
  constructor
  next =>
    intro removed
    clear member
    induction removed with
    | @chosen row member holds =>
      by_cases before : Removed schema rows first row
      next => exact .inl before
      next =>
        have now := holds.resolve_left fun holds => before (.chosen member holds)
        exact .inr ⟨before, .chosen (mem_remains.mpr ⟨row, member, before, rfl⟩) ((agree row member before).mpr now)⟩
    | @cascaded row parent member _ names ih =>
      by_cases before : Removed schema rows first row
      next => exact .inl before
      next =>
        rcases ih with gone | ⟨_, gone⟩
        next => exact .inl (.cascaded member gone names)
        next =>
          refine .inr ⟨before, .cascaded (mem_remains.mpr ⟨row, member, before, rfl⟩) gone ?_⟩
          exact names_cleared_iff.mpr names
  next =>
    rintro (removed | ⟨before, removed⟩)
    next => exact removed.mono fun _ holds => .inl holds
    next =>
      generalize same : cleared schema rows (Removed schema rows first) row = image at removed
      induction removed generalizing row with
      | chosen _ holds =>
        subst same
        exact .chosen member (.inr ((agree row member before).mp holds))
      | cascaded _ removed names ih =>
        subst same
        obtain ⟨parent, there, stays, rfl⟩ := mem_remains.mp removed.mem
        exact .cascaded member (ih there stays rfl) (names_cleared_iff.mp names)

theorem cleared_remains
    (agree : ∀ row ∈ rows, ¬ Removed schema rows first row →
      (later (cleared schema rows (Removed schema rows first) row) ↔ second row)) :
    cleared schema (remains schema rows (Removed schema rows first))
        (Removed schema (remains schema rows (Removed schema rows first)) later)
        (cleared schema rows (Removed schema rows first) row) =
      cleared schema rows (Removed schema rows fun row => first row ∨ second row) row := by
  suffices refs : ∀ column, (cleared schema (remains schema rows (Removed schema rows first))
        (Removed schema (remains schema rows (Removed schema rows first)) later)
        (cleared schema rows (Removed schema rows first) row)).refs column =
      (cleared schema rows (Removed schema rows fun row => first row ∨ second row) row).refs column by
    rw [cleared, cleared, Row.mk.injEq]
    exact ⟨rfl, rfl, funext refs, rfl⟩
  intro column
  by_cases earlier : Nulled schema rows (Removed schema rows first) row column
  next =>
    have null := cleared_refs_of_nulled earlier
    obtain ⟨parent, there, gone, named⟩ := earlier
    rw [cleared_refs_of_nulled ⟨parent, there, gone.mono fun _ => .inl, named⟩]
    by_cases again : Nulled schema (remains schema rows (Removed schema rows first))
        (Removed schema (remains schema rows (Removed schema rows first)) later)
        (cleared schema rows (Removed schema rows first) row) column
    next => exact cleared_refs_of_nulled again
    next => rw [cleared_refs_of_not_nulled again, null]
  next =>
    have same : Nulled schema (remains schema rows (Removed schema rows first))
        (Removed schema (remains schema rows (Removed schema rows first)) later)
        (cleared schema rows (Removed schema rows first) row) column ↔
        Nulled schema rows (Removed schema rows fun row => first row ∨ second row) row column := by
      rw [Nulled, cleared_refs_of_not_nulled earlier, cleared_table]
      constructor
      next =>
        rintro ⟨image, member, gone, declared, named⟩
        obtain ⟨parent, there, stays, rfl⟩ := mem_remains.mp member
        exact ⟨parent, there, (removed_remains_iff agree there).mpr (.inr ⟨stays, gone⟩), declared, named⟩
      next =>
        rintro ⟨parent, there, gone, declared, named⟩
        rcases (removed_remains_iff agree there).mp gone with gone | ⟨stays, gone⟩
        next => exact absurd ⟨parent, there, gone, declared, named⟩ earlier
        next => exact ⟨_, mem_remains.mpr ⟨parent, there, stays, rfl⟩, gone, declared, named⟩
    by_cases null : Nulled schema rows (Removed schema rows fun row => first row ∨ second row) row column
    next => rw [cleared_refs_of_nulled null, cleared_refs_of_nulled (same.mpr null)]
    next =>
      rw [cleared_refs_of_not_nulled null, cleared_refs_of_not_nulled (mt same.mp null),
        cleared_refs_of_not_nulled earlier]

-- Two deletions leave what one deletion of both selections leaves.
theorem remains_remains
    (agree : ∀ row ∈ rows, ¬ Removed schema rows first row →
      (later (cleared schema rows (Removed schema rows first) row) ↔ second row)) :
    remains schema (remains schema rows (Removed schema rows first))
        (Removed schema (remains schema rows (Removed schema rows first)) later) =
      remains schema rows (Removed schema rows fun row => first row ∨ second row) := by
  classical
  have kept : ∀ row ∈ rows,
      (decide (¬ Removed schema (remains schema rows (Removed schema rows first)) later
          (cleared schema rows (Removed schema rows first) row)) &&
        decide (¬ Removed schema rows first row)) =
      decide (¬ Removed schema rows (fun row => first row ∨ second row) row) := by
    intro row member
    rw [Bool.eq_iff_iff, Bool.and_eq_true, decide_eq_true_iff, decide_eq_true_iff, decide_eq_true_iff,
      removed_remains_iff agree member]
    tauto
  have both : ∀ (keep : Row Name Column Id Data → Bool) (change : Row Name Column Id Data → Row Name Column Id Data),
      ((remains schema rows (Removed schema rows first)).filter keep).map change =
      (rows.filter fun row => keep (cleared schema rows (Removed schema rows first) row) &&
        decide (¬ Removed schema rows first row)).map
        (change ∘ cleared schema rows (Removed schema rows first)) := by
    intro keep change
    rw [remains, List.filter_map, List.map_map, List.filter_filter]
    rfl
  refine (both _ _).trans ?_
  rw [List.filter_congr kept]
  exact List.map_congr_left fun row _ => cleared_remains agree

end Composition

/-! ## Lists of statements -/

section Plans

variable [DecidableEq Name]

def Uncascaded (schema : Schema Name Column) (table : Name) : Prop :=
  ∀ column, ∀ foreignKey ∈ schema table column, foreignKey.onDelete ≠ .cascade

instance [Fintype Column] (schema : Schema Name Column) (table : Name) : Decidable (Uncascaded schema table) :=
  inferInstanceAs (Decidable (∀ column, ∀ foreignKey ∈ schema table column, foreignKey.onDelete ≠ .cascade))

def Blocking (action : OnDelete) : Prop := action = .noAction ∨ action = .restrict

instance (action : OnDelete) : Decidable (Blocking action) := inferInstanceAs (Decidable (_ ∨ _))

-- A row that could be in the way of a deletion never goes by a cascade.
def Anchored (schema : Schema Name Column) : Prop :=
  ∀ table column, ∀ foreignKey ∈ schema table column, Blocking foreignKey.onDelete → Uncascaded schema foreignKey.target

instance [Fintype Name] [Fintype Column] (schema : Schema Name Column) : Decidable (Anchored schema) :=
  inferInstanceAs (Decidable (∀ table column, ∀ foreignKey ∈ schema table column,
    Blocking foreignKey.onDelete → Uncascaded schema foreignKey.target))

-- A deletion from the `deleted` tables leaves this one as it is.
def Steady (schema : Schema Name Column) (deleted : List Name) (table : Name) : Prop :=
  table ∉ deleted ∧ ∀ column, ∀ foreignKey ∈ schema table column,
    Blocking foreignKey.onDelete ∨ foreignKey.target ∉ deleted ∧ Uncascaded schema foreignKey.target

instance [Fintype Column] (schema : Schema Name Column) (deleted : List Name) (table : Name) :
    Decidable (Steady schema deleted table) :=
  inferInstanceAs (Decidable (table ∉ deleted ∧ ∀ column, ∀ foreignKey ∈ schema table column,
    Blocking foreignKey.onDelete ∨ foreignKey.target ∉ deleted ∧ Uncascaded schema foreignKey.target))

-- Every statement reads tables that the ones before it leave as they are.
def Fresh (schema : Schema Name Column) : List Name → List (List Name) → Prop
  | _, [] => True
  | _, [] :: _ => False
  | deleted, (table :: reads) :: rest =>
      (∀ read ∈ table :: reads, Steady schema deleted read) ∧ Fresh schema (deleted ++ [table]) rest

def decideFresh [Fintype Column] (schema : Schema Name Column) : (deleted : List Name) → (plan : List (List Name)) →
    Decidable (Fresh schema deleted plan)
  | _, [] => isTrue trivial
  | _, [] :: _ => isFalse id
  | deleted, (table :: _) :: rest => @instDecidableAnd _ _ _ (decideFresh schema (deleted ++ [table]) rest)

instance [Fintype Column] (schema : Schema Name Column) (deleted : List Name) (plan : List (List Name)) :
    Decidable (Fresh schema deleted plan) := decideFresh schema deleted plan

-- A table whose rows stand in the way of another's comes no later.
def ChildrenFirst (schema : Schema Name Column) : List Name → Prop
  | [] => True
  | table :: rest =>
      (∀ child ∈ rest, ∀ column, ∀ foreignKey ∈ schema child column,
        Blocking foreignKey.onDelete → foreignKey.target ≠ table) ∧ ChildrenFirst schema rest

def decideChildrenFirst [Fintype Column] (schema : Schema Name Column) : (tables : List Name) →
    Decidable (ChildrenFirst schema tables)
  | [] => isTrue trivial
  | _ :: rest => @instDecidableAnd _ _ _ (decideChildrenFirst schema rest)

instance [Fintype Column] (schema : Schema Name Column) (tables : List Name) :
    Decidable (ChildrenFirst schema tables) := decideChildrenFirst schema tables

variable [DecidableEq Id]

def Selected (rows : List (Row Name Column Id Data)) (plan : List (Statement Name Column Id Data))
    (row : Row Name Column Id Data) : Prop :=
  ∃ statement ∈ plan, statement.chosen rows row = true

-- The rows that stand in the way of a statement go with it or before it.
def Orderly (schema : Schema Name Column) (rows : List (Row Name Column Id Data)) :
    List (Statement Name Column Id Data) → List (Statement Name Column Id Data) → Prop
  | _, [] => True
  | done, statement :: rest =>
      (∀ parent ∈ rows, statement.chosen rows parent = true → ∀ child ∈ rows, Blocks schema child parent →
        Selected rows (done ++ [statement]) child) ∧ Orderly schema rows (done ++ [statement]) rest

-- The rows that stand in the way of what the list selects are selected too.
def Closed (schema : Schema Name Column) (rows : List (Row Name Column Id Data))
    (plan : List (Statement Name Column Id Data)) : Prop :=
  ∀ parent ∈ rows, Selected rows plan parent → ∀ child ∈ rows, Blocks schema child parent → Selected rows plan child

variable {schema : Schema Name Column} {rows : List (Row Name Column Id Data)}
variable {done plan : List (Statement Name Column Id Data)} {statement : Statement Name Column Id Data}
variable {row parent : Row Name Column Id Data} {table : Name} {column : Column} {action : OnDelete}

theorem selected_append_iff : Selected rows (done ++ [statement]) row ↔
    Selected rows done row ∨ statement.chosen rows row = true := by
  simp [Selected, or_and_right, exists_or]

theorem table_of_chosen (chosen : statement.chosen rows row = true) : row.table = statement.table := by
  simp only [Statement.chosen, Bool.and_eq_true, decide_eq_true_eq] at chosen
  exact chosen.1

theorem table_of_selected (selected : Selected rows done row) : row.table ∈ done.map Statement.table := by
  obtain ⟨statement, member, chosen⟩ := selected
  rw [table_of_chosen chosen]
  exact List.mem_map_of_mem member

omit [DecidableEq Name] [DecidableEq Id] in
theorem chosen_of_uncascaded {chosen : Row Name Column Id Data → Prop} (removed : Removed schema rows chosen row)
    (uncascaded : Uncascaded schema row.table) : chosen row := by
  cases removed with
  | chosen _ holds => exact holds
  | cascaded _ _ names =>
    obtain ⟨column, declared, _⟩ := names
    exact absurd rfl (uncascaded column _ declared)

theorem orderly_of_childrenFirst (first : ChildrenFirst schema (plan.map Statement.table))
    (closed : Closed schema rows (done ++ plan)) : Orderly schema rows done plan := by
  induction plan generalizing done with
  | nil => trivial
  | cons statement rest ih =>
    obtain ⟨none, first⟩ := first
    refine ⟨?_, ih first (by rwa [List.append_assoc])⟩
    intro parent there chosen child member blocks
    obtain ⟨found, among, holds⟩ :=
      closed parent there ⟨statement, List.mem_append_right _ List.mem_cons_self, chosen⟩ child member blocks
    refine ⟨found, ?_, holds⟩
    rcases List.mem_append.mp among with among | among
    next => exact List.mem_append_left _ among
    next =>
      rcases List.mem_cons.mp among with rfl | among
      next => exact List.mem_append_right _ (List.mem_singleton_self _)
      next =>
        have later : child.table ∈ rest.map Statement.table := by
          rw [table_of_chosen holds]
          exact List.mem_map_of_mem among
        rcases blocks with ⟨column, declared, _⟩ | ⟨column, declared, _⟩
        next => exact absurd (table_of_chosen chosen) (none child.table later column _ declared (.inl rfl))
        next => exact absurd (table_of_chosen chosen) (none child.table later column _ declared (.inr rfl))

theorem not_removed_target (steady : Steady schema (done.map Statement.table) table)
    (declared : schema table column = some ⟨parent.table, action⟩) (pliable : ¬ Blocking action) :
    ¬ Removed schema rows (Selected rows done) parent := by
  intro removed
  rcases steady.2 column _ declared with blocking | ⟨outside, uncascaded⟩
  next => exact pliable blocking
  next => exact outside (table_of_selected (chosen_of_uncascaded removed uncascaded))

theorem not_removed_of_steady (steady : Steady schema (done.map Statement.table) row.table) :
    ¬ Removed schema rows (Selected rows done) row := by
  intro removed
  cases removed with
  | chosen _ selected => exact steady.1 (table_of_selected selected)
  | cascaded _ removed names =>
    obtain ⟨column, declared, _⟩ := names
    exact not_removed_target steady declared (by decide) removed

theorem cleared_of_steady (steady : Steady schema (done.map Statement.table) row.table) :
    cleared schema rows (Removed schema rows (Selected rows done)) row = row := by
  refine cleared_eq_self fun column => ?_
  rintro ⟨parent, _, removed, declared, _⟩
  exact not_removed_target steady declared (by decide) removed

theorem rowsOf_remains (steady : Steady schema (done.map Statement.table) table) :
    rowsOf (remains schema rows (Removed schema rows (Selected rows done))) table = rowsOf rows table := by
  classical
  rw [rowsOf, remains, List.filter_map, List.filter_filter, rowsOf]
  have same : (rows.filter fun row => ((fun row => decide (row.table = table)) ∘
      cleared schema rows (Removed schema rows (Selected rows done))) row &&
        decide (¬ Removed schema rows (Selected rows done) row)) =
      rows.filter fun row => decide (row.table = table) := by
    refine List.filter_congr fun row _ => ?_
    by_cases here : row.table = table
    next =>
      subst here
      simp [not_removed_of_steady steady]
    next => simp [here]
  rw [same]
  refine (List.map_congr_left fun row member => ?_).trans (List.map_id _)
  have here := of_decide_eq_true (List.mem_filter.mp member).2
  subst here
  exact cleared_of_steady steady

theorem Scope.ids_congr {others : List (Row Name Column Id Data)} (scope : Scope Name Column Id Data)
    (same : ∀ table ∈ scope.tables, rowsOf others table = rowsOf rows table) : scope.ids others = scope.ids rows := by
  induction scope with
  | rows table condition => rw [Scope.ids, Scope.ids, same table (List.mem_singleton_self _)]
  | within table column inner ih =>
    rw [Scope.ids, Scope.ids, same table List.mem_cons_self,
      ih fun table member => same table (List.mem_cons_of_mem _ member)]

theorem Condition.holds_congr {others : List (Row Name Column Id Data)} (condition : Condition Name Column Id Data)
    (same : ∀ table ∈ condition.tables, rowsOf others table = rowsOf rows table) :
    condition.holds others row = condition.holds rows row := by
  cases condition with
  | rows condition => rfl
  | refers columns scope => rw [Condition.holds, Condition.holds, Scope.ids_congr scope same]

theorem chosen_remains (steady : ∀ read ∈ statement.reads, Steady schema (done.map Statement.table) read) :
    statement.chosen (remains schema rows (Removed schema rows (Selected rows done))) row =
      statement.chosen rows row := by
  rw [Statement.chosen, Statement.chosen, Condition.holds_congr statement.condition]
  exact fun table member => rowsOf_remains (steady table (List.mem_cons_of_mem _ member))

theorem chosen_cleared (steady : ∀ read ∈ statement.reads, Steady schema (done.map Statement.table) read) :
    statement.chosen (remains schema rows (Removed schema rows (Selected rows done)))
        (cleared schema rows (Removed schema rows (Selected rows done)) row) =
      statement.chosen rows row := by
  rw [chosen_remains steady]
  by_cases here : row.table = statement.table
  next =>
    rw [cleared_of_steady]
    rw [here]
    exact steady _ List.mem_cons_self
  next => simp [Statement.chosen, here]

theorem filter_chosen (statement : Statement Name Column Id Data) (conditions : List (Row Name Column Id Data)) :
    rows.filter (statement.chosen conditions) =
      (rowsOf rows statement.table).filter fun row => statement.condition.holds conditions row := by
  rw [rowsOf, List.filter_filter]
  refine List.filter_congr fun row _ => ?_
  rw [Statement.chosen, Bool.and_comm]

-- What a statement in its turn is asked to delete is what it selects on the database the list started from.
theorem filter_chosen_remains (steady : ∀ read ∈ statement.reads, Steady schema (done.map Statement.table) read) :
    (remains schema rows (Removed schema rows (Selected rows done))).filter
        (statement.chosen (remains schema rows (Removed schema rows (Selected rows done)))) =
      rows.filter (statement.chosen rows) := by
  have same : statement.chosen (remains schema rows (Removed schema rows (Selected rows done))) =
      statement.chosen rows := funext fun _ => chosen_remains steady
  rw [same, filter_chosen, filter_chosen, rowsOf_remains (steady _ List.mem_cons_self)]

omit [DecidableEq Name] [DecidableEq Id] in
theorem Blocks.of_cleared {gone : Row Name Column Id Data → Prop}
    (blocks : Blocks schema (cleared schema rows gone row) (cleared schema rows gone parent)) :
    Blocks schema row parent := by
  rcases blocks with ⟨column, declared, named⟩ | ⟨column, declared, named⟩
  next => exact .inl ⟨column, declared, refs_of_cleared named⟩
  next => exact .inr ⟨column, declared, refs_of_cleared named⟩

omit [DecidableEq Name] [DecidableEq Id] in
theorem Blocks.uncascaded (blocks : Blocks schema row parent) (anchored : Anchored schema) :
    Uncascaded schema parent.table := by
  rcases blocks with ⟨column, declared, _⟩ | ⟨column, declared, _⟩
  next => exact anchored _ column _ declared (.inl rfl)
  next => exact anchored _ column _ declared (.inr rfl)

/-! ## Runs -/

variable {db before : Database Name Column Id Data}

-- What stands in the way of a statement is selected by it or went before.
theorem statement_free (anchored : Anchored schema)
    (reached : db.rows = remains schema before.rows (Removed schema before.rows (Selected before.rows done)))
    (steady : ∀ read ∈ statement.reads, Steady schema (done.map Statement.table) read)
    (orderly : ∀ parent ∈ before.rows, statement.chosen before.rows parent = true → ∀ child ∈ before.rows,
      Blocks schema child parent → Selected before.rows (done ++ [statement]) child)
    (member : row ∈ db.rows) (left : statement.chosen db.rows row = false)
    (removed : Removed schema db.rows (fun row => statement.chosen db.rows row = true) parent) :
    ¬ Blocks schema row parent := by
  intro blocks
  have chosen := chosen_of_uncascaded removed (blocks.uncascaded anchored)
  have there := removed.mem
  rw [reached] at member left there chosen
  obtain ⟨child, childMember, stays, rfl⟩ := mem_remains.mp member
  obtain ⟨original, originalMember, _, rfl⟩ := mem_remains.mp there
  rw [chosen_cleared steady] at chosen left
  rcases selected_append_iff.mp (orderly original originalMember chosen child childMember blocks.of_cleared) with
    earlier | now
  next => exact stays (.chosen childMember earlier)
  next =>
    rw [left] at now
    exact absurd now (by simp)

variable [Fintype Column]

theorem delete_statement (anchored : Anchored schema)
    (reached : db.rows = remains schema before.rows (Removed schema before.rows (Selected before.rows done)))
    (steady : ∀ read ∈ statement.reads, Steady schema (done.map Statement.table) read)
    (orderly : ∀ parent ∈ before.rows, statement.chosen before.rows parent = true → ∀ child ∈ before.rows,
      Blocks schema child parent → Selected before.rows (done ++ [statement]) child) :
    ∃ after, delete schema (statement.chosen db.rows) db = .ok after ∧
      after.rows =
        remains schema before.rows (Removed schema before.rows (Selected before.rows (done ++ [statement]))) := by
  obtain ⟨after, deleted, rows⟩ := delete_ok fun row member left parent removed =>
    statement_free anchored reached steady orderly member left removed
  refine ⟨after, deleted, ?_⟩
  have selected : Selected before.rows (done ++ [statement]) =
      fun row => Selected before.rows done row ∨ statement.chosen before.rows row = true :=
    funext fun row => propext selected_append_iff
  rw [rows, reached, selected]
  refine remains_remains fun row _ _ => ?_
  rw [chosen_cleared steady]

theorem execute_from (anchored : Anchored schema)
    (reached : db.rows = remains schema before.rows (Removed schema before.rows (Selected before.rows done)))
    (fresh : Fresh schema (done.map Statement.table) (plan.map Statement.reads))
    (orderly : Orderly schema before.rows done plan) :
    ∃ after, execute schema plan db =
        .ok (after, plan.map fun statement => (statement.table, before.rows.filter (statement.chosen before.rows))) ∧
      after.rows = remains schema before.rows (Removed schema before.rows (Selected before.rows (done ++ plan))) := by
  induction plan generalizing done db with
  | nil => exact ⟨db, rfl, by rw [List.append_nil]; exact reached⟩
  | cons statement rest ih =>
    obtain ⟨steady, fresh⟩ := fresh
    obtain ⟨way, orderly⟩ := orderly
    obtain ⟨middle, deleted, rows⟩ := delete_statement anchored reached steady way
    obtain ⟨after, ran, last⟩ := ih rows (by rw [List.map_append]; exact fresh) orderly
    refine ⟨after, ?_, by rw [last, List.append_assoc]; rfl⟩
    have count : db.rows.filter (statement.chosen db.rows) = before.rows.filter (statement.chosen before.rows) := by
      rw [reached]
      exact filter_chosen_remains steady
    rw [execute, deleted]
    simp only [bind, Except.bind, pure, Except.pure, ran, count, List.map_cons]

omit [DecidableEq Name] [DecidableEq Id] [Fintype Column] in
theorem not_removed_nothing : ¬ Removed schema rows (fun _ => False) row := by
  intro removed
  induction removed with
  | chosen _ holds => exact holds
  | cascaded _ _ _ ih => exact ih

omit [DecidableEq Name] [DecidableEq Id] [Fintype Column] in
theorem remains_nothing : remains schema rows (Removed schema rows fun _ => False) = rows := by
  classical
  have all : (rows.filter fun row => decide (¬ Removed schema rows (fun _ => False) row)) = rows :=
    List.filter_eq_self.mpr fun row _ => decide_eq_true not_removed_nothing
  rw [remains, all]
  refine (List.map_congr_left fun row _ => ?_).trans (List.map_id _)
  refine cleared_eq_self fun column blocked => ?_
  obtain ⟨_, _, removed, _⟩ := blocked
  exact not_removed_nothing removed

-- The list goes through, and takes what its statements select on the database it started from.
theorem execute_ok (anchored : Anchored schema) (db : Database Name Column Id Data)
    (fresh : Fresh schema [] (plan.map Statement.reads)) (first : ChildrenFirst schema (plan.map Statement.table))
    (closed : Closed schema db.rows plan) :
    ∃ after, execute schema plan db =
        .ok (after, plan.map fun statement => (statement.table, db.rows.filter (statement.chosen db.rows))) ∧
      after.rows = remains schema db.rows (Removed schema db.rows (Selected db.rows plan)) := by
  refine @execute_from _ _ _ _ _ _ _ [] plan db db _ anchored ?_ fresh (orderly_of_childrenFirst first closed)
  have nothing : Selected db.rows ([] : List (Statement Name Column Id Data)) = fun _ => False := by
    funext row
    simp [Selected]
  rw [nothing, remains_nothing]

/-! ## What a list leaves, and the cascade it stands for -/

omit [DecidableEq Name] [DecidableEq Id] [Fintype Column] in
open Classical in
theorem countP_remains {gone : Row Name Column Id Data → Prop} (counts : Row Name Column Id Data → Bool)
    (kept : ∀ row, counts (cleared schema rows gone row) = counts row) :
    rows.countP counts =
      rows.countP (fun row => counts row && decide (gone row)) + (remains schema rows gone).countP counts := by
  have same : counts ∘ cleared schema rows gone = counts := funext kept
  rw [remains, List.countP_map, same, List.countP_filter, ← List.countP_filter,
    List.countP_eq_countP_filter_add rows counts fun row => decide (gone row), List.countP_filter, List.countP_filter]
  congr 1
  refine List.countP_congr fun row _ => ?_
  simp


omit [Fintype Column] in
theorem valid_selected (valid : Valid schema rows) (anchored : Anchored schema) (closed : Closed schema rows plan) :
    Valid schema (remains schema rows (Removed schema rows (Selected rows plan))) := by
  refine valid.remains (fun row member parent removed names => .cascaded member removed names) ?_
  intro row member stays parent removed blocks
  have chosen := chosen_of_uncascaded removed (blocks.uncascaded anchored)
  exact stays (.chosen member (closed parent removed.mem chosen row member blocks))

-- `declared` cascades wherever the list deletes.
omit [DecidableEq Name] [DecidableEq Id] [Fintype Column] in
theorem removed_iff_declared {declared : Schema Name Column} {root : Row Name Column Id Data → Prop}
    {selected : Row Name Column Id Data → Prop}
    (kept : ∀ child ∈ rows, ∀ parent, Names schema .cascade child parent → Names declared .cascade child parent)
    (followed : ∀ child ∈ rows, ∀ parent, Names declared .cascade child parent →
      Names schema .cascade child parent ∨ (Removed schema rows selected parent → selected child))
    (started : ∀ row ∈ rows, root row → selected row)
    (within : ∀ row ∈ rows, selected row → Removed declared rows root row) :
    Removed schema rows selected row ↔ Removed declared rows root row := by
  constructor
  next =>
    intro removed
    induction removed with
    | chosen member holds => exact within _ member holds
    | cascaded member _ names ih => exact .cascaded member ih (kept _ member _ names)
  next =>
    intro removed
    induction removed with
    | chosen member holds => exact .chosen member (started _ member holds)
    | cascaded member _ names ih =>
      rcases followed _ member _ names with names | selects
      next => exact .cascaded member ih names
      next => exact .chosen member (selects ih)

omit [DecidableEq Name] [DecidableEq Id] [Fintype Column] in
theorem remains_declared {declared : Schema Name Column} {gone : Row Name Column Id Data → Prop}
    (same : ∀ table column target,
      schema table column = some ⟨target, .setNull⟩ ↔ declared table column = some ⟨target, .setNull⟩) :
    remains schema rows gone = remains declared rows gone := by
  have cleared : cleared schema rows gone = cleared declared rows gone := by
    funext row
    have null : ∀ column, Nulled schema rows gone row column ↔ Nulled declared rows gone row column := by
      intro column
      simp only [Nulled, same]
    classical
    rw [ForeignKeys.cleared, ForeignKeys.cleared, Row.mk.injEq]
    exact ⟨rfl, rfl, funext fun column => if_congr (null column) rfl rfl, rfl⟩
  rw [remains, remains, cleared]

end Plans

end Phaze.ForeignKeys
