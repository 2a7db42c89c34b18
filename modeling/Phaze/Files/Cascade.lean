import Phaze.Files.Deletion

set_option autoImplicit false

/-!
# The ordered deletions are the declared cascade
-/

namespace Phaze.Files

open ForeignKeys

-- Every key that has no `ondelete`, and the key a ledger row's payload is, declared to cascade.
def declared : Schema Table Column
  | .scheduling_ledger, .payload_file_id => some ⟨.files, .cascade⟩
  | table, column => (schema table column).map fun key =>
      if key.onDelete = .noAction then ⟨key.target, .cascade⟩ else key

variable {Id : Type} [DecidableEq Id]

-- The deletions of both cascades, up to the rows of `files`.
def steps_of (file_scope : Entry Id → Bool) : List (Statement Table Column Id Facts) :=
  file_descendant_steps file_scope ++ [⟨.files, .rows file_scope⟩]

/-! ## The statements, table by table -/

def descendants : List Table :=
  [.discogs_links, .tracklist_tracks, .tracklist_versions, .tracklists, .execution_log, .proposals, .analysis,
    .metadata, .tag_write_log, .file_companions, .dedup_resolution, .cloud_job, .cloud_budget,
    .companion_content_features, .stage_skip, .scheduling_ledger]

-- The table whose rows the rows of another hang by, and the columns they name them in.
def parent_of : Table → Table
  | .discogs_links => .tracklist_tracks
  | .tracklist_tracks => .tracklist_versions
  | .tracklist_versions => .tracklists
  | .execution_log => .proposals
  | _ => .files

def columns_of : Table → List Column
  | .discogs_links => [.track_id]
  | .tracklist_tracks => [.version_id]
  | .tracklist_versions => [.tracklist_id]
  | .execution_log => [.proposal_id]
  | .file_companions => [.media_id, .companion_id]
  | .dedup_resolution => [.file_id, .canonical_file_id]
  | .scheduling_ledger => [.payload_file_id]
  | _ => [.file_id]

def hubs : List Table := [.tracklists, .tracklist_versions, .tracklist_tracks, .proposals]

-- The column is one a descendant names its parent in.
def Hangs (table : Table) (column : Column) (target : Table) : Prop :=
  table ∈ descendants ∧ column ∈ columns_of table ∧ parent_of table = target ∧ target ∈ .files :: hubs

instance (table : Table) (column : Column) (target : Table) : Decidable (Hangs table column target) :=
  inferInstanceAs (Decidable (_ ∧ _))

def scope_of (file_scope : Entry Id → Bool) : Table → Scope Table Column Id Facts
  | .tracklists => tracklists_in_scope file_scope
  | .tracklist_versions => versions_in_scope file_scope
  | .tracklist_tracks => tracks_in_scope file_scope
  | .proposals => proposals_in_scope file_scope
  | _ => files_in_scope file_scope

section Steps

variable {rows : List (Entry Id)} {row child parent : Entry Id} {file_scope : Entry Id → Bool}
variable {batch_id file_id : Id}

omit [DecidableEq Id] in
theorem file_descendant_steps_eq (file_scope : Entry Id → Bool) : file_descendant_steps file_scope =
    descendants.map fun table => ⟨table, .refers (columns_of table) (scope_of file_scope (parent_of table))⟩ := rfl

omit [DecidableEq Id] in
theorem scope_of_hub {table : Table} (hub : table ∈ hubs) : ∃ column, columns_of table = [column] ∧
    scope_of file_scope table = .within table column (scope_of file_scope (parent_of table)) := by
  simp only [hubs, List.mem_cons, List.not_mem_nil, or_false] at hub
  rcases hub with rfl | rfl | rfl | rfl
  all_goals exact ⟨_, rfl, rfl⟩

theorem selected_iff : Selected rows (steps_of file_scope) row ↔
    (row.table ∈ descendants ∧ ∃ column ∈ columns_of row.table,
      ∃ id ∈ (scope_of file_scope (parent_of row.table)).ids rows, row.refs column = some id) ∨
    row.table = .files ∧ file_scope row = true := by
  rw [steps_of, selected_append_iff, chosen_rows_iff]
  refine or_congr ?_ Iff.rfl
  rw [file_descendant_steps_eq]
  constructor
  next =>
    rintro ⟨statement, among, chosen⟩
    obtain ⟨table, listed, rfl⟩ := List.mem_map.mp among
    obtain ⟨here, named⟩ := chosen_refers_iff.mp chosen
    rw [here]
    exact ⟨listed, named⟩
  next =>
    rintro ⟨among, named⟩
    exact ⟨_, List.mem_map_of_mem among, chosen_refers_iff.mpr ⟨rfl, named⟩⟩

-- A hub's own rows are the ones its scope names.
theorem id_mem_scope (member : row ∈ rows) (selected : Selected rows (steps_of file_scope) row)
    (hub : row.table ∈ .files :: hubs) : row.id ∈ (scope_of file_scope row.table).ids rows := by
  rcases selected_iff.mp selected with ⟨below, column, listed, named⟩ | ⟨here, holds⟩
  next =>
    rcases List.mem_cons.mp hub with here | hub
    next =>
      rw [here] at below
      exact absurd below (by decide)
    next =>
      obtain ⟨only, single, scope⟩ := @scope_of_hub _ file_scope _ hub
      rw [single, List.mem_singleton] at listed
      subst listed
      rw [scope]
      exact mem_ids_within.mpr ⟨row, member, rfl, named, rfl⟩
  next =>
    rw [here]
    exact mem_ids_rows.mpr ⟨row, member, here, holds, rfl⟩

/-! ## Children come first -/

theorem scan_steps_eq (batch_id : Id) : scan_steps batch_id =
    steps_of (fun row => row.refs .batch_id = some batch_id) ++ [⟨.scan_batches, .rows fun row => row.id = batch_id⟩] := rfl

theorem file_steps_eq (file_id : Id) : file_steps file_id = steps_of fun row => row.id = file_id := rfl

omit [DecidableEq Id] in
theorem steps_tables (file_scope : Entry Id → Bool) :
    (steps_of file_scope).map Statement.table = descendants ++ [.files] := rfl

omit [DecidableEq Id] in
theorem steps_reads (file_scope : Entry Id → Bool) : (steps_of file_scope).map Statement.reads =
    [[.discogs_links, .tracklist_tracks, .tracklist_versions, .tracklists, .files],
      [.tracklist_tracks, .tracklist_versions, .tracklists, .files], [.tracklist_versions, .tracklists, .files],
      [.tracklists, .files], [.execution_log, .proposals, .files], [.proposals, .files], [.analysis, .files],
      [.metadata, .files], [.tag_write_log, .files], [.file_companions, .files], [.dedup_resolution, .files],
      [.cloud_job, .files], [.cloud_budget, .files], [.companion_content_features, .files], [.stage_skip, .files],
      [.scheduling_ledger, .files], [.files]] := rfl

theorem scan_steps_fresh : Fresh schema [] ((scan_steps batch_id).map Statement.reads) := by
  rw [scan_steps_eq, List.map_append, steps_reads]
  show Fresh schema [] (_ ++ [[.scan_batches]])
  decide

theorem scan_steps_childrenFirst : ChildrenFirst schema ((scan_steps batch_id).map Statement.table) := by
  rw [scan_steps_eq, List.map_append, steps_tables]
  show ChildrenFirst schema (_ ++ [.scan_batches])
  decide

theorem file_steps_fresh : Fresh schema [] ((file_steps file_id).map Statement.reads) := by
  rw [file_steps_eq, steps_reads]
  decide

theorem file_steps_childrenFirst : ChildrenFirst schema ((file_steps file_id).map Statement.table) := by
  rw [file_steps_eq, steps_tables]
  decide

/-! ## What stands in the way is selected -/

theorem hangs_of_blocking : ∀ table column, ∀ key ∈ schema table column, Blocking key.onDelete →
    key.target ∈ descendants ++ [.files] →
    Hangs table column key.target := by decide

omit [DecidableEq Id] in
theorem column_of_blocks (blocks : Blocks schema child parent) :
    ∃ column, ∃ key ∈ schema child.table column, Blocking key.onDelete ∧ key.target = parent.table ∧
      child.refs column = some parent.id := by
  rcases blocks with ⟨column, declared, named⟩ | ⟨column, declared, named⟩
  next => exact ⟨column, _, declared, .inl rfl, rfl, named⟩
  next => exact ⟨column, _, declared, .inr rfl, rfl, named⟩

theorem table_of_steps (selected : Selected rows (steps_of file_scope) row) : row.table ∈ descendants ++ [.files] := by
  rw [← steps_tables file_scope]
  exact table_of_selected selected

theorem steps_closed : Closed schema rows (steps_of file_scope) := by
  intro parent there selected child member blocks
  obtain ⟨column, key, declared, blocking, target, named⟩ := column_of_blocks blocks
  obtain ⟨among, listed, hangs, hub⟩ :=
    hangs_of_blocking _ column key declared blocking (target ▸ table_of_steps selected)
  rw [target] at hangs hub
  refine selected_iff.mpr (.inl ⟨among, column, listed, parent.id, ?_, named⟩)
  rw [hangs]
  exact id_mem_scope there selected hub

theorem selected_scan_iff : Selected rows (scan_steps batch_id) row ↔
    Selected rows (steps_of fun row => row.refs .batch_id = some batch_id) row ∨
      row.table = .scan_batches ∧ row.id = batch_id := by
  rw [scan_steps_eq, selected_append_iff, chosen_rows_iff, decide_eq_true_eq]

theorem column_of_batch : ∀ table column, ∀ key ∈ schema table column, Blocking key.onDelete →
    key.target = .scan_batches → table = .files ∧ column = .batch_id := by decide

theorem scan_steps_closed : Closed schema rows (scan_steps batch_id) := by
  intro parent there selected child member blocks
  rw [selected_scan_iff] at selected ⊢
  rcases selected with selected | ⟨here, same⟩
  next => exact .inl (steps_closed parent there selected child member blocks)
  next =>
    obtain ⟨column, key, declared, blocking, target, named⟩ := column_of_blocks blocks
    obtain ⟨table, rfl⟩ := column_of_batch _ column key declared blocking (target.trans here)
    refine .inl (selected_iff.mpr (.inr ⟨table, ?_⟩))
    rw [named, same]
    exact decide_eq_true rfl

/-! ## What goes is what the declared cascade takes -/

theorem declared_of_cascade : ∀ table column, ∀ key ∈ schema table column, key.onDelete = .cascade →
    declared table column = some key := by decide

theorem declared_setNull : ∀ table column,
    (schema table column).filter (fun key => key.onDelete = .setNull) =
      (declared table column).filter fun key => key.onDelete = .setNull := by decide

theorem declared_of_hangs : ∀ table ∈ descendants, ∀ column ∈ columns_of table,
    declared table column = some ⟨parent_of table, .cascade⟩ := by decide

theorem hangs_of_declared : ∀ table column, ∀ key ∈ declared table column, key.onDelete = .cascade →
    schema table column = some key ∨ table = .files ∧ column = .batch_id ∧ key.target = .scan_batches ∨
      Uncascaded schema key.target ∧
        (key.target ∈ descendants ++ [.files, .scan_batches] → Hangs table column key.target) := by decide

theorem setNull_iff (table : Table) (column : Column) (target : Table) :
    schema table column = some ⟨target, .setNull⟩ ↔ declared table column = some ⟨target, .setNull⟩ := by
  have same := declared_setNull table column
  have left : ∀ key : Option (ForeignKey Table), key = some ⟨target, .setNull⟩ ↔
      key.filter (fun key => key.onDelete = .setNull) = some ⟨target, .setNull⟩ := by
    intro key
    cases key with
    | none => simp
    | some key =>
      by_cases null : key.onDelete = .setNull
      next => simp [Option.filter, null]
      next =>
        have other : key ≠ ⟨target, .setNull⟩ := by
          rintro rfl
          exact null rfl
        simp [Option.filter, null, other]
  rw [left, left (declared table column), same]

-- Every id of the scopes is that of a row the declared cascade takes.
theorem hit_of_mem_ids {root : Entry Id → Prop}
    (files : ∀ file ∈ rows, file.table = .files → file_scope file = true → Removed declared rows root file)
    {table : Table} (hub : table ∈ .files :: hubs) {id : Id} (member : id ∈ (scope_of file_scope table).ids rows) :
    ∃ parent, parent.table = table ∧ parent.id = id ∧ Removed declared rows root parent := by
  have base : ∀ id ∈ (files_in_scope file_scope).ids rows,
      ∃ parent, parent.table = .files ∧ parent.id = id ∧ Removed declared rows root parent := by
    intro id member
    obtain ⟨file, there, here, holds, same⟩ := mem_ids_rows.mp member
    exact ⟨file, here, same, files file there here holds⟩
  have step : ∀ table ∈ hubs,
      (∀ id ∈ (scope_of file_scope (parent_of table)).ids rows,
        ∃ parent, parent.table = parent_of table ∧ parent.id = id ∧ Removed declared rows root parent) →
      ∀ id ∈ (scope_of file_scope table).ids rows,
        ∃ parent, parent.table = table ∧ parent.id = id ∧ Removed declared rows root parent := by
    intro table hub above id member
    obtain ⟨column, single, scope⟩ := @scope_of_hub _ file_scope _ hub
    rw [scope] at member
    obtain ⟨row, there, here, ⟨other, among, named⟩, same⟩ := mem_ids_within.mp member
    obtain ⟨parent, target, whose, removed⟩ := above other among
    refine ⟨row, here, same, .cascaded there removed ⟨column, ?_, by rw [named, whose]⟩⟩
    rw [here, target]
    have below : ∀ table ∈ hubs, table ∈ descendants := by decide
    exact declared_of_hangs table (below table hub) column (single ▸ List.mem_singleton_self column)
  have lists := step .tracklists (by decide) base
  have versions := step .tracklist_versions (by decide) lists
  simp only [hubs, List.mem_cons, List.not_mem_nil, or_false] at hub
  rcases hub with rfl | rfl | rfl | rfl | rfl
  next => exact base id member
  next => exact lists id member
  next => exact versions id member
  next => exact step .tracklist_tracks (by decide) versions id member
  next => exact step .proposals (by decide) base id member

theorem removed_of_selected {root : Entry Id → Prop}
    (files : ∀ file ∈ rows, file.table = .files → file_scope file = true → Removed declared rows root file)
    (member : row ∈ rows) (selected : Selected rows (steps_of file_scope) row) : Removed declared rows root row := by
  rcases selected_iff.mp selected with ⟨below, column, listed, id, among, named⟩ | ⟨here, holds⟩
  next =>
    have hub : ∀ table ∈ descendants, parent_of table ∈ .files :: hubs := by decide
    obtain ⟨parent, target, whose, removed⟩ := hit_of_mem_ids files (hub _ below) among
    refine .cascaded member removed ⟨column, ?_, by rw [named, whose]⟩
    rw [target]
    exact declared_of_hangs _ below column listed
  next => exact files row member here holds

-- A row that the declared cascade would take after a selected one is selected, or goes by a cascade there is.
theorem followed_of_declared {selected : Entry Id → Prop}
    (tables : ∀ row, selected row → row.table ∈ descendants ++ [.files, .scan_batches])
    (steps : ∀ row ∈ rows, selected row → row.table ≠ .scan_batches → Selected rows (steps_of file_scope) row)
    (wider : ∀ row, Selected rows (steps_of file_scope) row → selected row)
    (batch : child.table = .files → ∀ parent, parent.table = .scan_batches → selected parent →
      child.refs .batch_id = some parent.id → selected child)
    (names : Names declared .cascade child parent) :
    Names schema .cascade child parent ∨ (Removed schema rows selected parent → selected child) := by
  obtain ⟨column, key, named⟩ := names
  rcases hangs_of_declared _ column _ key rfl with kept | ⟨here, rfl, target⟩ | ⟨uncascaded, hangs⟩
  next => exact .inl ⟨column, kept, named⟩
  next =>
    refine .inr fun removed => batch here parent target (chosen_of_uncascaded removed ?_) named
    change parent.table = _ at target
    rw [target]
    decide
  next =>
    refine .inr fun removed => ?_
    have chosen := chosen_of_uncascaded removed uncascaded
    obtain ⟨below, listed, above, hub⟩ := hangs (tables parent chosen)
    change parent_of child.table = parent.table at above
    have other : parent.table ≠ .scan_batches := by
      intro same
      change parent.table ∈ _ at hub
      rw [same] at hub
      exact absurd hub (by decide)
    refine wider child (selected_iff.mpr (.inl ⟨below, column, listed, parent.id, ?_, named⟩))
    rw [above]
    exact id_mem_scope removed.mem (steps parent removed.mem chosen other) hub

end Steps

/-! ## The report -/

def rows_in (rows : List (Entry Id)) (table : Table) : Nat := rows.countP fun row => decide (row.table = table)

def entries_for (rows : List (Entry Id)) (function : String) : Nat :=
  rows.countP fun row => decide (row.table = .scheduling_ledger) && decide (row.data.function = function)

-- Rows that go by a cascade of the database, from a table that no statement names, stand in no count.
structure Reports (tables : List Table) (before after : List (Entry Id)) (report : Report) : Prop where
  named : report.counts.map Prod.fst = tables
  counted : ∀ table count, (table, count) ∈ report.counts → rows_in before table = count + rows_in after table
  resolved : ∀ function count, (function, count) ∈ report.resolved ↔
    0 < count ∧ entries_for before function = count + entries_for after function

theorem mem_counter {values : List String} {value : String} {count : Nat} :
    (value, count) ∈ counter values ↔ 0 < count ∧ values.count value = count := by
  simp only [counter, List.mem_map, List.mem_eraseDups, Prod.mk.injEq]
  constructor
  next =>
    rintro ⟨_, member, rfl, rfl⟩
    exact ⟨List.count_pos_iff.mpr member, rfl⟩
  next =>
    rintro ⟨positive, rfl⟩
    exact ⟨value, List.count_pos_iff.mp positive, rfl, rfl⟩

section Reports

variable {rows : List (Entry Id)} {plan : List (Statement Table Column Id Facts)}
variable {statement : Statement Table Column Id Facts}

-- Of the rows of a statement's table, those that go are the ones it selects.
def Exact (rows : List (Entry Id)) (plan : List (Statement Table Column Id Facts)) : Prop :=
  ∀ statement ∈ plan, ∀ row ∈ rows, row.table = statement.table →
    (statement.chosen rows row = true ↔ Removed schema rows (Selected rows plan) row)

theorem count_of_exact (exact : Exact rows plan) (among : statement ∈ plan) (counts : Facts → Bool) :
    rows.countP (fun row => decide (row.table = statement.table) && counts row.data) =
      (rows.filter (statement.chosen rows)).countP (fun row => counts row.data) +
        (remains schema rows (Removed schema rows (Selected rows plan))).countP
          (fun row => decide (row.table = statement.table) && counts row.data) := by
  classical
  rw [countP_remains (fun row => decide (row.table = statement.table) && counts row.data) fun _ => rfl,
    List.countP_filter]
  congr 1
  refine List.countP_congr fun row member => ?_
  by_cases here : row.table = statement.table
  next => simp [here, exact statement among row member here]
  next =>
    have other : statement.chosen rows row = false := by simp [Statement.chosen, here]
    simp [here, other]

theorem reports_of_exact (exact : Exact rows plan)
    (ledger : (plan.filter fun statement => statement.table = .scheduling_ledger) = [statement]) :
    Reports (plan.map Statement.table) rows (remains schema rows (Removed schema rows (Selected rows plan)))
      { counts := plan.map fun statement => (statement.table, (rows.filter (statement.chosen rows)).length)
        resolved := counter ((rows.filter (statement.chosen rows)).map fun row => row.data.function) } := by
  refine { named := ?_, counted := ?_, resolved := ?_ }
  next =>
    rw [List.map_map]
    rfl
  next =>
    intro table count among
    obtain ⟨other, member, same⟩ := List.mem_map.mp among
    obtain ⟨rfl, rfl⟩ := Prod.mk.inj same
    have lost := count_of_exact exact member fun _ => true
    simpa only [Bool.and_true, rows_in, List.countP_true] using lost
  next =>
    intro function count
    have there : statement ∈ plan.filter fun statement => statement.table = .scheduling_ledger := by
      rw [ledger]
      exact List.mem_singleton_self _
    obtain ⟨member, here⟩ := List.mem_filter.mp there
    have lost := count_of_exact exact member fun facts => decide (facts.function = function)
    rw [of_decide_eq_true here] at lost
    have count_eq : ((rows.filter (statement.chosen rows)).map fun row => row.data.function).count function =
        (rows.filter (statement.chosen rows)).countP fun row => decide (row.data.function = function) := by
      rw [List.count_eq_countP, List.countP_map]
      rfl
    rw [mem_counter, count_eq]
    refine and_congr_right fun _ => ?_
    rw [entries_for, entries_for, lost]
    exact Nat.add_right_cancel_iff.symm

end Reports

/-! ## The two cascades -/

section Cascades

variable {db : Database Table Column Id Facts} {batch_id file_id : Id} {row parent : Entry Id} {rows : List (Entry Id)}

-- The order, the report and the constraints, once it is known what the statements select.
theorem execute_ordered_declared {plan : List (Statement Table Column Id Facts)} {root : Entry Id → Bool}
    {statement : Statement Table Column Id Facts}
    (valid : Valid schema db.rows) (fresh : Fresh schema [] (plan.map Statement.reads))
    (first : ChildrenFirst schema (plan.map Statement.table)) (closed : Closed schema db.rows plan)
    (exact : Exact db.rows plan)
    (ledger : (plan.filter fun statement => statement.table = .scheduling_ledger) = [statement])
    (same : ∀ row, Removed schema db.rows (Selected db.rows plan) row ↔
      Removed declared db.rows (fun row => root row = true) row)
    (outside : ∀ row, root row = true → row.table ≠ .agents) :
    ∃ after report, execute_ordered plan db = .ok (after, report) ∧ delete declared root db = .ok after ∧
      Valid schema after.rows ∧ Reports (plan.map Statement.table) db.rows after.rows report := by
  have free : ∀ row ∈ db.rows, root row = false → ∀ parent,
      Removed declared db.rows (fun row => root row = true) parent → ¬ Blocks declared row parent := by
    intro row _ _ parent removed blocks
    have agents : ∀ table column, ∀ key ∈ declared table column, Blocking key.onDelete → key.target = .agents := by
      decide
    have target : parent.table = .agents := by
      rcases blocks with ⟨column, key, _⟩ | ⟨column, key, _⟩
      next => exact agents _ column _ key (.inl rfl)
      next => exact agents _ column _ key (.inr rfl)
    have uncascaded : Uncascaded declared .agents := by decide
    exact outside parent (chosen_of_uncascaded removed (target ▸ uncascaded)) target
  obtain ⟨after, ran, left⟩ := execute_ok schema_anchored db fresh first closed
  obtain ⟨twin, deleted, twinLeft⟩ := delete_ok free
  have equalRows : twin.rows = after.rows := by
    rw [left, twinLeft, remains_declared setNull_iff]
    congr 1
    exact funext fun row => propext (same row).symm
  have equal : twin = after := by
    obtain ⟨_, _⟩ := twin
    obtain ⟨_, _⟩ := after
    cases equalRows
    rfl
  subst equal
  refine ⟨twin, _, by rw [execute_ordered, ran]; rfl, deleted, ?_, ?_⟩
  next =>
    rw [left]
    exact valid_selected valid schema_anchored closed
  next =>
    rw [left]
    have reports := reports_of_exact exact ledger
    convert reports using 2
    next => rw [List.map_map]; rfl
    next =>
      rw [List.filter_map]
      have only : plan.filter ((fun answer : Table × List (Entry Id) => decide (answer.1 = .scheduling_ledger)) ∘
          fun statement => (statement.table, db.rows.filter (statement.chosen db.rows))) = [statement] := ledger
      rw [only]
      simp

theorem cascades_hang : ∀ table column, ∀ key ∈ schema table column, key.onDelete = .cascade →
    key.target ∈ descendants ++ [.files, .scan_batches] → table ∈ descendants ++ [.files, .scan_batches] →
    Hangs table column key.target := by decide

theorem schema_uncascaded : ∀ table ∈ .files :: hubs, Uncascaded schema table := by decide

-- A row of these tables that goes is selected, whether or not a cascade would take it.
theorem selected_of_removed {file_scope : Entry Id → Bool} {selected : Entry Id → Prop}
    (tables : ∀ row, selected row → row.table ∈ descendants ++ [.files, .scan_batches])
    (steps : ∀ row, selected row → row.table ≠ .scan_batches → Selected rows (steps_of file_scope) row)
    (wider : ∀ row, Selected rows (steps_of file_scope) row → selected row)
    (here : row.table ∈ descendants ++ [.files, .scan_batches]) (removed : Removed schema rows selected row) :
    selected row := by
  cases removed with
  | chosen _ holds => exact holds
  | @cascaded _ parent member removed names =>
    obtain ⟨column, key, named⟩ := names
    have known : parent.table ∈ descendants ++ [.files, .scan_batches] := by
      cases removed with
      | chosen _ holds => exact tables parent holds
      | cascaded _ _ above =>
        obtain ⟨upper, upperKey, _⟩ := above
        have flat : ∀ table column, ∀ key ∈ schema table column, key.onDelete = .cascade →
            Uncascaded schema key.target := by decide
        exact absurd rfl (flat _ column _ key rfl upper _ upperKey)
    obtain ⟨below, listed, above, hub⟩ := cascades_hang _ column _ key rfl known here
    change parent_of row.table = parent.table at above
    change parent.table ∈ _ at hub
    have chosen := chosen_of_uncascaded removed (schema_uncascaded _ hub)
    have other : parent.table ≠ .scan_batches := by
      intro same
      rw [same] at hub
      exact absurd hub (by decide)
    refine wider row (selected_iff.mpr (.inl ⟨below, column, listed, parent.id, ?_, named⟩))
    rw [above]
    exact id_mem_scope removed.mem (steps parent chosen other) hub

theorem steps_statement {file_scope : Entry Id → Bool} {statement : Statement Table Column Id Facts}
    (among : statement ∈ steps_of file_scope) (here : row.table = statement.table)
    (selected : Selected rows (steps_of file_scope) row) : statement.chosen rows row = true := by
  rcases List.mem_append.mp among with among | among
  next =>
    rw [file_descendant_steps_eq] at among
    obtain ⟨table, listed, rfl⟩ := List.mem_map.mp among
    rcases selected_iff.mp selected with ⟨_, named⟩ | ⟨file, _⟩
    next =>
      rw [here] at named
      exact chosen_refers_iff.mpr ⟨here, named⟩
    next =>
      rw [file] at here
      change Table.files = table at here
      subst here
      exact absurd listed (by decide)
  next =>
    rw [List.mem_singleton] at among
    subst among
    rcases selected_iff.mp selected with ⟨below, _⟩ | ⟨_, holds⟩
    next =>
      rw [show row.table = .files from here] at below
      exact absurd below (by decide)
    next => exact chosen_rows_iff.mpr ⟨here, holds⟩

theorem known_of_table {table : Table} (known : table ∈ descendants ++ [.files]) :
    table ∈ descendants ++ [.files, .scan_batches] := by
  revert table
  decide

theorem known_of_steps {file_scope : Entry Id → Bool} (selected : Selected rows (steps_of file_scope) row) :
    row.table ∈ descendants ++ [.files, .scan_batches] := known_of_table (table_of_steps selected)

theorem table_of_scan (selected : Selected rows (scan_steps batch_id) row) :
    row.table ∈ descendants ++ [.files, .scan_batches] := by
  rcases selected_scan_iff.mp selected with selected | ⟨here, _⟩
  next => exact known_of_steps selected
  next =>
    rw [here]
    decide

theorem steps_of_scan (selected : Selected rows (scan_steps batch_id) row) (other : row.table ≠ .scan_batches) :
    Selected rows (steps_of fun row => row.refs .batch_id = some batch_id) row :=
  (selected_scan_iff.mp selected).resolve_right fun batch => other batch.1

theorem scan_steps_exact : Exact rows (scan_steps batch_id) := by
  intro statement among row member here
  constructor
  next => exact fun chosen => .chosen member ⟨statement, among, chosen⟩
  next =>
    intro removed
    have known : statement.table ∈ descendants ++ [.files, .scan_batches] := by
      have listed : statement.table ∈ (scan_steps batch_id).map Statement.table := List.mem_map_of_mem among
      rw [scan_steps_eq, List.map_append, steps_tables] at listed
      exact listed
    have selected := selected_of_removed (fun _ => table_of_scan) (fun _ => steps_of_scan)
      (fun _ selected => selected_scan_iff.mpr (.inl selected)) (here ▸ known) removed
    rw [scan_steps_eq] at among
    rcases List.mem_append.mp among with among | among
    next =>
      refine steps_statement among here (steps_of_scan selected ?_)
      have inside : statement.table ∈ descendants ++ [.files] := by
        rw [← steps_tables]
        exact List.mem_map_of_mem among
      intro batch
      rw [← here, batch] at inside
      exact absurd inside (by decide)
    next =>
      rw [List.mem_singleton] at among
      subst among
      rcases selected_scan_iff.mp selected with selected | ⟨_, same⟩
      next =>
        have inside := table_of_steps selected
        rw [show row.table = .scan_batches from here] at inside
        exact absurd inside (by decide)
      next => exact chosen_rows_iff.mpr ⟨here, decide_eq_true same⟩

theorem scan_removed_iff (valid : Valid schema rows) :
    Removed schema rows (Selected rows (scan_steps batch_id)) row ↔
      Removed declared rows (fun row => decide (row.table = .scan_batches ∧ row.id = batch_id) = true) row := by
  have files : ∀ file ∈ rows, file.table = .files → decide (file.refs .batch_id = some batch_id) →
      Removed declared rows (fun row => decide (row.table = .scan_batches ∧ row.id = batch_id) = true) file := by
    intro file there here holds
    have named := of_decide_eq_true holds
    obtain ⟨batch, member, target, same⟩ := valid file there .batch_id ⟨.scan_batches, .noAction⟩ (by rw [here]; rfl) batch_id named
    refine .cascaded there (.chosen member (decide_eq_true ⟨target, same⟩)) ⟨.batch_id, ?_, by rw [named, same]⟩
    rw [here, target]
    rfl
  refine removed_iff_declared ?_ ?_ ?_ ?_
  next =>
    rintro child _ parent ⟨column, key, named⟩
    exact ⟨column, declared_of_cascade _ column _ key rfl, named⟩
  next =>
    intro child _ parent names
    refine followed_of_declared (fun _ => table_of_scan) (fun _ _ => steps_of_scan)
      (fun _ selected => selected_scan_iff.mpr (.inl selected)) ?_ names
    intro here parent target selected named
    rcases selected_scan_iff.mp selected with selected | ⟨_, same⟩
    next =>
      have inside := table_of_steps selected
      rw [target] at inside
      exact absurd inside (by decide)
    next =>
      refine selected_scan_iff.mpr (.inl (selected_iff.mpr (.inr ⟨here, ?_⟩)))
      rw [named, same]
      exact decide_eq_true rfl
  next => exact fun row _ root => selected_scan_iff.mpr (.inr (of_decide_eq_true root))
  next =>
    intro row member selected
    rcases selected_scan_iff.mp selected with selected | batch
    next => exact removed_of_selected files member selected
    next => exact .chosen member (decide_eq_true batch)

theorem file_steps_exact : Exact rows (file_steps file_id) := by
  intro statement among row member here
  rw [file_steps_eq] at among ⊢
  constructor
  next => exact fun chosen => .chosen member ⟨statement, among, chosen⟩
  next =>
    intro removed
    have known : statement.table ∈ descendants ++ [.files] := by
      rw [← steps_tables]
      exact List.mem_map_of_mem among
    refine steps_statement among here ?_
    refine selected_of_removed (fun _ => known_of_steps) (fun _ selected _ => selected) (fun _ selected => selected) ?_ removed
    rw [here]
    exact known_of_table known

theorem file_removed_iff : Removed schema rows (Selected rows (file_steps file_id)) row ↔
    Removed declared rows (fun row => decide (row.table = .files ∧ row.id = file_id) = true) row := by
  have files : ∀ file ∈ rows, file.table = .files → decide (file.id = file_id) →
      Removed declared rows (fun row => decide (row.table = .files ∧ row.id = file_id) = true) file :=
    fun file there here same => .chosen there (decide_eq_true ⟨here, of_decide_eq_true same⟩)
  rw [file_steps_eq]
  refine removed_iff_declared ?_ ?_ ?_ ?_
  next =>
    rintro child _ parent ⟨column, key, named⟩
    exact ⟨column, declared_of_cascade _ column _ key rfl, named⟩
  next =>
    intro child _ parent names
    refine followed_of_declared (fun _ => known_of_steps) (fun _ _ selected _ => selected)
      (fun _ selected => selected) ?_ names
    intro _ parent target selected _
    have inside := table_of_steps selected
    rw [target] at inside
    exact absurd inside (by decide)
  next =>
    intro row _ root
    obtain ⟨here, same⟩ := of_decide_eq_true root
    exact selected_iff.mpr (.inr ⟨here, decide_eq_true same⟩)
  next => exact fun row member selected => removed_of_selected files member selected

-- A file of a scan with a tracklist and a job in flight, and a file of another that a selection names them beside.
def small_rows : List (Entry Nat) :=
  let row (table : Table) (id : Nat) (refs : List (Column × Nat)) (function : String) : Entry Nat :=
    ⟨table, id, fun column => (refs.find? fun ref => ref.1 = column).map Prod.snd, ⟨function⟩⟩
  [row .agents 0 [] "", row .scan_batches 1 [(.agent_id, 0)] "", row .files 2 [(.batch_id, 1), (.agent_id, 0)] "",
    row .files 3 [(.agent_id, 0)] "", row .tracklists 4 [(.file_id, 2)] "",
    row .tracklist_versions 5 [(.tracklist_id, 4)] "", row .tracklist_tracks 6 [(.version_id, 5)] "",
    row .discogs_links 7 [(.track_id, 6)] "", row .scheduling_ledger 8 [(.payload_file_id, 2)] "process_file",
    row .analysis_window 9 [(.file_id, 2)] "", row .dedup_resolution 10 [(.file_id, 3), (.canonical_file_id, 2)] "",
    row .provider_recording_selections 11 [(.media_id, 3), (.tracklist_id, 4), (.version_id, 5)] ""]

def small : Database Table Column Nat Facts := ⟨small_rows, by decide⟩

theorem small_valid : Valid schema small.rows := by decide

example : ((delete_scan_cascade small 1).toOption.map fun answer =>
    (answer.1.rows.map Row.key, answer.1.rows.map fun row => row.refs .tracklist_id, answer.2.resolved)) =
    some ([(.agents, 0), (.files, 3), (.provider_recording_selections, 11)], [none, none, none],
      [("process_file", 1)]) := by decide

end Cascades

end Phaze.Files
