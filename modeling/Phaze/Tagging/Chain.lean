import Phaze.Tagging.Writes

set_option autoImplicit false

/-!
# The write chain of a file

An undo goes back to the first write since the file was last restored. The selectors look for it in the audit
rows: the oldest row, by `(written_at, id)`, that has an undoable status and is newer than the newest COMPLETED
undo. Where the rows are in that order, that is a walk over them; and where every status says what was done to
the file, the walk ends at the row of the first write.
-/

namespace Phaze.Tagging

/-! ## Rows in the order of their keys -/

section Order

variable {Tags : Type}

-- The chain so far, and its row: a COMPLETED undo ends it, an undoable row begins it.
def chainStep (head : Option (LogEntry Tags)) (entry : LogEntry Tags) : Option (LogEntry Tags) :=
  if entry.completedUndo then none else if entry.undoable then head.or (some entry) else head

def chainHead (rows : List (LogEntry Tags)) : Option (LogEntry Tags) :=
  rows.foldl chainStep none

def Ordered (rows : List (LogEntry Tags)) : Prop :=
  rows.Pairwise fun first second => first.key < second.key

theorem newest_append {rows : List (LogEntry Tags)} {entry : LogEntry Tags}
    (after : ∀ other ∈ rows, other.key < entry.key) : newest (rows ++ [entry]) = some entry := by
  induction rows with
  | nil => rfl
  | cons head rest ih =>
    rw [List.forall_mem_cons] at after
    rw [List.cons_append, newest, ih after.2]
    simp [after.1]

theorem oldest_append {rows : List (LogEntry Tags)} {entry : LogEntry Tags}
    (after : ∀ other ∈ rows, other.key < entry.key) : oldest (rows ++ [entry]) = (oldest rows).or (some entry) := by
  induction rows with
  | nil => rfl
  | cons head rest ih =>
    rw [List.forall_mem_cons] at after
    rw [List.cons_append, oldest, ih after.2, oldest]
    cases oldest rest with
    | none => simp [after.1.le]
    | some other =>
      simp only [Option.some_or]
      split <;> rfl

theorem mem_of_newest {rows : List (LogEntry Tags)} {entry : LogEntry Tags} (found : newest rows = some entry) :
    entry ∈ rows := by
  induction rows with
  | nil => cases found
  | cons head rest ih =>
    simp only [newest] at found
    split at found
    · cases found
      exact List.mem_cons_self
    next other stands =>
      split at found <;> cases found
      · exact List.mem_cons_of_mem _ (ih stands)
      · exact List.mem_cons_self

theorem ordered_append {rows : List (LogEntry Tags)} {entry : LogEntry Tags} :
    Ordered (rows ++ [entry]) ↔ Ordered rows ∧ ∀ other ∈ rows, other.key < entry.key := by
  simp [Ordered, List.pairwise_append]

theorem chainHead_append (rows : List (LogEntry Tags)) (entry : LogEntry Tags) :
    chainHead (rows ++ [entry]) = chainStep (chainHead rows) entry := by
  simp [chainHead]

/-- On ordered rows the selector is the walk. -/
theorem getWriteLogToUndo_eq {rows : List (LogEntry Tags)} (ordered : Ordered rows) :
    getWriteLogToUndo rows = chainHead rows := by
  induction rows using List.reverseRecOn with
  | nil => rfl
  | append_singleton rows entry ih =>
    obtain ⟨ordered, after⟩ := ordered_append.mp ordered
    rw [chainHead_append, ← ih ordered, chainStep]
    by_cases completed : entry.completedUndo = true
    · have boundary : newest ((rows ++ [entry]).filter LogEntry.completedUndo) = some entry := by
        rw [List.filter_append, List.filter_cons_of_pos completed]
        exact newest_append fun other member => after other (List.mem_of_mem_filter member)
      have nothing : (rows ++ [entry]).filter (fun other => other.undoable && decide (entry.key < other.key)) = [] := by
        rw [List.filter_eq_nil_iff]
        intro other member
        rcases List.mem_append.mp member with member | member
        · simp [(after other member).le]
        · rw [List.mem_singleton.mp member]
          simp
      rw [if_pos completed, getWriteLogToUndo, boundary]
      simp only [Option.all_some]
      rw [nothing]
      rfl
    · have boundary : (rows ++ [entry]).filter LogEntry.completedUndo = rows.filter LogEntry.completedUndo := by
        simp [completed]
      unfold getWriteLogToUndo
      simp only [boundary, if_neg completed, List.filter_append]
      by_cases undoable : entry.undoable = true
      · have past : (newest (rows.filter LogEntry.completedUndo)).all (fun undo => undo.key < entry.key) = true := by
          cases newestUndo : newest (rows.filter LogEntry.completedUndo) with
          | none => rfl
          | some undo => simpa using after undo (List.mem_of_mem_filter (mem_of_newest newestUndo))
        rw [List.filter_cons_of_pos (by simp [undoable, past]), List.filter_nil, if_pos undoable]
        exact oldest_append fun other member => after other (List.mem_of_mem_filter member)
      · simp [undoable]

/-- On ordered rows the subquery contains the file when no COMPLETED undo comes after a terminal row. -/
theorem terminalTagwrite_iff {rows : List (LogEntry Tags)} (ordered : Ordered rows) :
    terminalTagwrite rows = true ↔
      ∃ before entry after, rows = before ++ entry :: after ∧ entry.terminal = true ∧
        ∀ later ∈ after, later.completedUndo = false := by
  simp only [terminalTagwrite, List.any_eq_true, Bool.and_eq_true, Bool.not_eq_true', List.any_eq_false,
    decide_eq_true_eq]
  constructor
  · rintro ⟨entry, member, terminal, final⟩
    obtain ⟨before, after, rfl⟩ := List.append_of_mem member
    refine ⟨before, entry, after, rfl, terminal, fun later isLater => ?_⟩
    have above : entry.key < later.key := by
      have suffixOrdered := (List.pairwise_append.mp ordered).2.1
      exact List.rel_of_pairwise_cons suffixOrdered isLater
    have := final later (List.mem_append_right _ (List.mem_cons_of_mem _ isLater))
    simpa [above] using this
  · rintro ⟨before, entry, after, rfl, terminal, final⟩
    refine ⟨entry, by simp, terminal, fun undo member => ?_⟩
    obtain ⟨-, suffixOrdered, across⟩ := List.pairwise_append.mp ordered
    rintro ⟨completed, above⟩
    rcases List.mem_append.mp member with early | here
    · exact lt_asymm above (across undo early entry List.mem_cons_self)
    · rcases List.mem_cons.mp here with rfl | isLater
      · exact lt_irrefl _ above
      · rw [final undo isLater] at completed
        cases completed

end Order

/-! ## Rows that a change leaves out of the chain -/

section Changes

variable {Tags : Type}

def LogEntry.skips (entry : LogEntry Tags) : Bool :=
  !entry.completedUndo && !entry.undoable

theorem chainStep_of_skips {entry : LogEntry Tags} (skips : entry.skips = true) (head : Option (LogEntry Tags)) :
    chainStep head entry = head := by
  simp only [LogEntry.skips, Bool.and_eq_true, Bool.not_eq_true'] at skips
  simp [chainStep, skips.1, skips.2]

theorem skips_of_status {entry : LogEntry Tags}
    (status : entry.status = .queued ∨ entry.status = .failed ∨ entry.status = .noOp) : entry.skips = true := by
  rcases status with status | status | status <;>
    simp [LogEntry.skips, LogEntry.completedUndo, LogEntry.undoable, TagWriteStatus.undoable, status]

theorem chainHead_skips {before after : List (LogEntry Tags)} {entry : LogEntry Tags}
    (skips : ∀ later ∈ after, later.skips = true) :
    chainHead (before ++ entry :: after) = chainStep (chainHead before) entry := by
  induction after using List.reverseRecOn with
  | nil => exact chainHead_append before entry
  | append_singleton after last ih =>
    have front : before ++ entry :: (after ++ [last]) = (before ++ entry :: after) ++ [last] := by simp
    rw [front, chainHead_append, chainStep_of_skips (skips last (by simp))]
    exact ih fun later member => skips later (by simp [member])

theorem update_of_unknown {rows : List (LogEntry Tags)} {row : RowId} (change : LogEntry Tags → LogEntry Tags)
    (unknown : row ∉ rows.map LogEntry.id) : update rows row change = rows := by
  have fixed : ∀ entry ∈ rows, (if entry.id = row then change entry else entry) = entry := by
    intro entry member
    rw [if_neg]
    rintro rfl
    exact unknown (List.mem_map_of_mem member)
  exact (List.map_congr_left fixed).trans (List.map_id' rows)

theorem update_split {before after : List (LogEntry Tags)} {entry : LogEntry Tags}
    {change : LogEntry Tags → LogEntry Tags} (distinct : ((before ++ entry :: after).map LogEntry.id).Nodup) :
    update (before ++ entry :: after) entry.id change = before ++ change entry :: after := by
  rw [List.map_append, List.map_cons, List.nodup_append, List.nodup_cons] at distinct
  obtain ⟨-, ⟨notAfter, -⟩, apart⟩ := distinct
  have notBefore : entry.id ∉ before.map LogEntry.id := fun member => apart _ member _ List.mem_cons_self rfl
  have front := update_of_unknown change notBefore
  have rear := update_of_unknown change notAfter
  unfold update at front rear ⊢
  rw [List.map_append, List.map_cons, front, rear, if_pos rfl]

end Changes

/-! ## The chain of a run -/

section Chains

variable {Content Tags Hash : Type}

-- The row of the first write since the last one that left the tags an undo had asked for.
def firstSince (writes : List (RowId × Bool)) : Option RowId :=
  writes.foldl (fun first write => if write.2 then none else first.or (some write.1)) none

theorem firstSince_append (writes : List (RowId × Bool)) (row : RowId) (restored : Bool) :
    firstSince (writes ++ [(row, restored)]) = if restored then none else (firstSince writes).or (some row) := by
  simp [firstSince]

def Session.request : Session Tags → Option (Request Tags)
  | .ready _ request | .locked _ request | .counted _ request => some request
  | .idle | .opened _ | .checked _ | .dispatching _ => none

def Session.startedAt : Session Tags → Option Int
  | .opened startedAt | .checked startedAt | .ready startedAt _ | .locked startedAt _ | .counted startedAt _ =>
      some startedAt
  | .idle | .dispatching _ => none

variable (state : State Content Tags Hash)

-- A row is inserted after every row that its key comes after, and after no other.
def InOrder (session : SessionId) (row : RowId) : Prop :=
  ∀ startedAt, (state.sessions session).startedAt = some startedAt →
    ∀ entry ∈ state.rows, entry.key < toLex (startedAt, row)

-- The status says whether the row has written the file, and for an undo whether the file is restored.
def truthful (row : RowId) (status : TagWriteStatus) : Bool :=
  status = .queued || (lookup state.rows row).all fun entry =>
    entry.status ≠ .queued ||
      if entry.source = .undo then
        if status = .completed then (firstSince state.writes).isNone else decide ((row, true) ∉ state.writes)
      else status.undoable = (state.original row).isSome

def Faithful [DecidableEq Tags] (disk : Disk Content Tags Hash) : Action Content Tags Hash → Prop
  | .noop session row | .insert session row => InOrder state session row
  | .selectUndo _ => ∀ entry ∈ state.rows, entry.status = .queued → state.original entry.id = none
  | .write attempt content =>
      ∀ row beforeTags, state.attempts attempt = .writing row beforeTags → restores state disk row content = true →
        ∀ session request, (state.sessions session).request = some request → request.source ≠ .undo
  | .serve (.result _ row status _ hash seen) => timely state row status hash seen = true ∧ truthful state row status = true
  | _ => True

structure Chained : Prop where
  ordered : Ordered state.rows
  -- Nothing is dispatched while a row is QUEUED.
  final : state.rows.Pairwise fun first second => first.status = .queued → second.status = .noOp
  anchored : ∀ entry ∈ state.rows, entry.undoable = true → entry.beforeTags ≠ none
  wrote : ∀ row restored, (row, restored) ∈ state.writes → state.original row ≠ none
  forward : ∀ row entry, QueuedRow state row entry → entry.source ≠ .undo →
    firstSince state.writes = ((chainHead state.rows).map LogEntry.id).or ((state.original row).map fun _ => row)
  undo : ∀ row entry, QueuedRow state row entry → entry.source = .undo → chainHead state.rows ≠ none ∧
    ((row, true) ∉ state.writes → firstSince state.writes = (chainHead state.rows).map LogEntry.id)
  settled : (∀ row entry, ¬ QueuedRow state row entry) →
    firstSince state.writes = (chainHead state.rows).map LogEntry.id

-- What an undo that is not inserted yet has selected.
def Selected : Prop :=
  ∀ session request, (state.sessions session).request = some request → request.source = .undo →
    ∃ first entry tags, firstSince state.writes = some first ∧ lookup state.rows first = some entry ∧
      entry.beforeTags = some tags ∧ request.tags = some tags

variable {state} {next : State Content Tags Hash} {disk : Disk Content Tags Hash}

theorem Chained.congr (chained : Chained state) (rows : next.rows = state.rows) (writes : next.writes = state.writes)
    (original : next.original = state.original) : Chained next := by
  obtain ⟨ordered, final, anchored, wrote, forward, undo, settled⟩ := chained
  constructor <;> simp only [QueuedRow, rows, writes, original] <;> assumption

section Adding

variable {entry : LogEntry Tags}

theorem chainHead_added (skips : entry.skips = true) : chainHead (state.rows ++ [entry]) = chainHead state.rows := by
  rw [chainHead_append, chainStep_of_skips skips]

theorem mem_of_chainHead {rows : List (LogEntry Tags)} {head : LogEntry Tags} (found : chainHead rows = some head) :
    head ∈ rows ∧ head.undoable = true := by
  induction rows using List.reverseRecOn with
  | nil => cases found
  | append_singleton rows last ih =>
    rw [chainHead_append, chainStep] at found
    split at found
    · cases found
    split at found
    next undoable =>
      rcases Option.or_eq_some_iff.mp found with old | ⟨-, new⟩
      · exact ⟨List.mem_append_left _ (ih old).1, (ih old).2⟩
      · cases new
        exact ⟨by simp, undoable⟩
    · exact ⟨List.mem_append_left _ (ih found).1, (ih found).2⟩

-- A row that is not QUEUED, and does not belong to the chain.
theorem Chained.noop (chained : Chained state) (unknown : lookup state.rows entry.id = none)
    (after : ∀ other ∈ state.rows, other.key < entry.key) (status : entry.status = .noOp) :
    Chained { state with rows := state.rows ++ [entry] } := by
  have skips := skips_of_status (.inr (.inr status))
  have before : ∀ row other, QueuedRow { state with rows := state.rows ++ [entry] } row other →
      QueuedRow state row other := by
    rintro row other ⟨found, queued⟩
    rw [lookup_append unknown] at found
    split at found
    · cases found
      rw [status] at queued
      cases queued
    · exact ⟨found, queued⟩
  have later : ∀ row other, QueuedRow state row other →
      QueuedRow { state with rows := state.rows ++ [entry] } row other := by
    rintro row other ⟨found, queued⟩
    refine ⟨?_, queued⟩
    rw [lookup_append unknown, if_neg]
    · exact found
    · rintro rfl
      rw [unknown] at found
      cases found
  refine
    { ordered := ordered_append.mpr ⟨chained.ordered, after⟩
      final := ?_
      anchored := ?_
      wrote := chained.wrote
      forward := ?_
      undo := ?_
      settled := ?_ }
  · rw [List.pairwise_append]
    refine ⟨chained.final, List.pairwise_singleton _ _, fun _ _ new is _ => ?_⟩
    rw [List.mem_singleton.mp is]
    exact status
  · intro other member undoable
    rcases List.mem_append.mp member with old | new
    · exact chained.anchored other old undoable
    · rw [List.mem_singleton.mp new] at undoable
      simp [LogEntry.undoable, TagWriteStatus.undoable, status] at undoable
  · intro row other queued source
    rw [chainHead_added skips]
    exact chained.forward row other (before row other queued) source
  · intro row other queued source
    rw [chainHead_added skips]
    exact chained.undo row other (before row other queued) source
  · intro unqueued
    rw [chainHead_added skips]
    exact chained.settled fun row other queued => unqueued row other (later row other queued)

-- A row that is dispatched while no row is QUEUED; an undo has something to go back to.
theorem Chained.dispatch (chained : Chained state) (unknown : lookup state.rows entry.id = none)
    (after : ∀ other ∈ state.rows, other.key < entry.key) (status : entry.status = .queued)
    (unwritten : state.original entry.id = none) (alone : ∀ other ∈ state.rows, other.status ≠ .queued)
    (undoes : entry.source = .undo → firstSince state.writes ≠ none) :
    Chained { state with rows := state.rows ++ [entry] } := by
  have skips := skips_of_status (.inl status)
  have only : ∀ row other, QueuedRow { state with rows := state.rows ++ [entry] } row other →
      row = entry.id ∧ other = entry := by
    rintro row other ⟨found, queued⟩
    rw [lookup_append unknown] at found
    split at found
    next same =>
      cases found
      exact ⟨same, rfl⟩
    · exact absurd queued (alone other (mem_of_lookup found).1)
  have head := chained.settled fun row other queued => alone other (mem_of_lookup queued.1).1 queued.2
  refine
    { ordered := ordered_append.mpr ⟨chained.ordered, after⟩
      final := ?_
      anchored := ?_
      wrote := chained.wrote
      forward := ?_
      undo := ?_
      settled := ?_ }
  · rw [List.pairwise_append]
    exact ⟨chained.final, List.pairwise_singleton _ _, fun first member _ _ queued => absurd queued (alone first member)⟩
  · intro other member undoable
    rcases List.mem_append.mp member with old | new
    · exact chained.anchored other old undoable
    · rw [List.mem_singleton.mp new] at undoable
      simp [LogEntry.undoable, TagWriteStatus.undoable, status] at undoable
  · intro row other queued source
    obtain ⟨rfl, rfl⟩ := only row other queued
    rw [chainHead_added skips]
    simp [head, unwritten]
  · intro row other queued source
    obtain ⟨rfl, rfl⟩ := only row other queued
    rw [chainHead_added skips]
    refine ⟨fun nothing => undoes source ?_, fun _ => head⟩
    rw [head, nothing]
    rfl
  · intro unqueued
    refine absurd ?_ (unqueued entry.id entry)
    exact ⟨by rw [lookup_append unknown, if_pos rfl], status⟩

end Adding

section Changing

variable {row : RowId} {change : LogEntry Tags → LogEntry Tags}

theorem Chained.final_change (chained : Chained state) (dispatches : Dispatches state) (amends : Amends state row change) :
    (update state.rows row change).Pairwise fun first second => first.status = .queued → second.status = .noOp := by
  obtain ⟨entry, queued, -⟩ := amends.anchor
  rw [update, List.pairwise_map]
  refine chained.final.imp_of_mem ?_
  intro first second _ isSecond order is
  have was : first.status = .queued := by
    split at is
    · exact amends.queued first is
    · exact is
  have noOp := order was
  rw [if_neg]
  · exact noOp
  · rintro rfl
    have found := lookup_of_mem dispatches.distinct isSecond
    obtain rfl : second = entry := Option.some.inj (found.symm.trans queued.1)
    rw [queued.2] at noOp
    cases noOp

theorem ordered_change (ordered : Ordered state.rows) (amends : Amends state row change) :
    Ordered (update state.rows row change) := by
  have keys : ∀ entry : LogEntry Tags, (if entry.id = row then change entry else entry).key = entry.key := by
    intro entry
    split
    · simp [LogEntry.key, amends.id, amends.writtenAt]
    · rfl
  unfold Ordered at *
  rw [update, List.pairwise_map]
  simpa only [keys] using ordered

theorem chainHead_change (chained : Chained state) (dispatches : Dispatches state) (amends : Amends state row change)
    {entry : LogEntry Tags} (queued : QueuedRow state row entry) :
    chainHead (update state.rows row change) = chainStep (chainHead state.rows) (change entry) := by
  obtain ⟨member, rfl⟩ := mem_of_lookup queued.1
  obtain ⟨before, after, split⟩ := List.append_of_mem member
  have distinct := dispatches.distinct
  have final := chained.final
  rw [split] at distinct final ⊢
  have skips : ∀ later ∈ after, later.skips = true := by
    intro later isLater
    have order := List.rel_of_pairwise_cons (List.pairwise_append.mp final).2.1 isLater
    exact skips_of_status (.inr (.inr (order queued.2)))
  rw [update_split distinct, chainHead_skips skips, chainHead_skips skips,
    chainStep_of_skips (skips_of_status (.inl queued.2))]

/-- What a change of the QUEUED row must respect for the chain to stay that of the file. -/
theorem Chained.amend (chained : Chained state) (dispatches : Dispatches state) (amends : Amends state row change)
    {entry : LogEntry Tags} (queued : QueuedRow state row entry)
    (anchored : (change entry).undoable = true → (change entry).beforeTags ≠ none)
    (linked : (change entry).status = .queued ∨
      firstSince state.writes = (chainStep (chainHead state.rows) (change entry)).map LogEntry.id) :
    Chained { state with rows := update state.rows row change } := by
  have head := chainHead_change chained dispatches amends queued
  have mine : lookup (update state.rows row change) row = some (change entry) := by
    rw [lookup_update amends.id, if_pos rfl, queued.1]
    rfl
  have only : ∀ other entry', QueuedRow { state with rows := update state.rows row change } other entry' →
      other = row ∧ entry' = change entry := by
    rintro other entry' ⟨found, status⟩
    change lookup (update state.rows row change) other = some entry' at found
    by_cases same : other = row
    · subst same
      exact ⟨rfl, Option.some.inj (found.symm.trans mine)⟩
    · rw [lookup_update amends.id, if_neg same] at found
      exact absurd (dispatches.oneQueued other row entry' entry ⟨found, status⟩ queued) same
  have standing : (change entry).status = .queued → chainHead (update state.rows row change) = chainHead state.rows := by
    intro stays
    rw [head, chainStep_of_skips (skips_of_status (.inl stays))]
  refine
    { ordered := ordered_change chained.ordered amends
      final := chained.final_change dispatches amends
      anchored := ?_
      wrote := chained.wrote
      forward := ?_
      undo := ?_
      settled := ?_ }
  · intro other member undoable
    obtain ⟨old, was, rfl⟩ := List.mem_map.mp member
    split at undoable
    next same =>
      have found := lookup_of_mem dispatches.distinct was
      rw [same, queued.1] at found
      cases found
      rw [if_pos same]
      exact anchored undoable
    next apart =>
      rw [if_neg apart]
      exact chained.anchored old was undoable
  · intro other entry' queued' source
    obtain ⟨rfl, rfl⟩ := only other entry' queued'
    rw [standing queued'.2]
    exact chained.forward other entry queued (amends.source entry ▸ source)
  · intro other entry' queued' source
    obtain ⟨rfl, rfl⟩ := only other entry' queued'
    rw [standing queued'.2]
    exact chained.undo other entry queued ((amends.source entry).symm.trans source)
  · intro unqueued
    rw [head]
    exact linked.resolve_left fun stays => unqueued row (change entry) ⟨mine, stays⟩

end Changing

/-! ## The steps -/

theorem Chained.firstSince_eq (chained : Chained state)
    (unwritten : ∀ entry ∈ state.rows, entry.status = .queued → state.original entry.id = none) :
    firstSince state.writes = (chainHead state.rows).map LogEntry.id := by
  by_cases unqueued : ∀ row entry, ¬ QueuedRow state row entry
  · exact chained.settled unqueued
  obtain ⟨row, entry, queued⟩ : ∃ row entry, QueuedRow state row entry := by simpa using unqueued
  obtain ⟨member, rfl⟩ := mem_of_lookup queued.1
  have blank := unwritten entry member queued.2
  by_cases source : entry.source = .undo
  · exact (chained.undo entry.id entry queued source).2 fun wrote => chained.wrote entry.id true wrote blank
  · simpa [blank] using chained.forward entry.id entry queued source

theorem Chained.patched (chained : Chained state) (sound : Sound state disk) {row : RowId} {status : TagWriteStatus}
    {beforeTags : Option Tags} {hash : Option Hash} (faithful : truthful state row status = true)
    (stepped : patchTagWrite state row status beforeTags hash = some next) : Chained next := by
  obtain rfl | ⟨entry, queued, leaves, rfl⟩ := patchTagWrite_cases stepped
  · exact chained
  obtain ⟨member, rfl⟩ := mem_of_lookup queued.1
  simp only [truthful, leaves, decide_false, Bool.false_or, queued.1, Option.all_some, queued.2, ne_eq,
    not_true_eq_false] at faithful
  refine (chained.amend sound.dispatches (.patched queued leaves) queued ?_ (.inr ?_)).congr rfl rfl rfl
  · intro undoable blank
    simp only [LogEntry.undoable, Bool.and_eq_true, decide_eq_true_eq] at undoable
    rw [if_neg undoable.2, undoable.1, decide_eq_true_eq] at faithful
    have unwritten := sound.anchors.unwritten entry.id entry queued.1 (Option.or_eq_none_iff.mp blank).1
    rw [unwritten] at faithful
    cases faithful
  · by_cases source : entry.source = .undo
    · rw [if_pos source] at faithful
      by_cases completed : status = .completed
      · rw [if_pos completed, Option.isNone_iff_eq_none] at faithful
        simp [chainStep, LogEntry.completedUndo, source, completed, faithful]
      · rw [if_neg completed, decide_eq_true_eq] at faithful
        rw [(chained.undo entry.id entry queued source).2 faithful, chainStep_of_skips]
        simp [LogEntry.skips, LogEntry.completedUndo, LogEntry.undoable, source, completed]
    · rw [if_neg source, decide_eq_true_eq] at faithful
      rw [chained.forward entry.id entry queued source]
      cases wrote : state.original entry.id with
      | none =>
        rw [wrote] at faithful
        have plain : status.undoable = false := faithful
        simp [chainStep, LogEntry.completedUndo, LogEntry.undoable, source, plain]
      | some first =>
        rw [wrote] at faithful
        have undoable : status.undoable = true := faithful
        cases chainHead state.rows <;>
          simp [chainStep, LogEntry.completedUndo, LogEntry.undoable, source, undoable]

theorem Chained.recorded (chained : Chained state) (dispatches : Dispatches state) {attempt : AttemptId} {row : RowId}
    {tags : Tags} (stepped : recordBeforeSnapshot state attempt row tags = some next) : Chained next := by
  obtain ⟨entry, found, ⟨kept, rfl⟩ | ⟨queued, blank, rfl⟩⟩ := recordBeforeSnapshot_cases stepped
  · exact chained.congr rfl rfl rfl
  have amends : Amends state row fun entry => { entry with beforeTags := some tags } := .recorded ⟨found, queued⟩ blank
  refine (chained.amend dispatches amends ⟨found, queued⟩ ?_ (.inl queued)).congr rfl rfl rfl
  simp

theorem Chained.refused (chained : Chained state) (sound : Sound state disk) {session : SessionId}
    (stepped : refuseJob state session = some next) : Chained next := by
  unfold refuseJob at stepped
  split at stepped <;> cases stepped
  next row stands =>
    obtain ⟨unstarted, entry, queued⟩ := sound.dispatches.dispatching session row stands
    have unwritten : state.original row = none := by
      by_contra written
      exact unstarted (sound.anchors.written row written)
    refine (chained.amend sound.dispatches (.refused queued) queued (by intros; contradiction)
      (.inr ?_)).congr rfl rfl rfl
    rw [chainStep_of_skips (skips_of_status (.inr (.inl rfl)))]
    by_cases source : entry.source = .undo
    · exact (chained.undo row entry queued source).2 fun wrote => chained.wrote row true wrote unwritten
    · simpa [unwritten] using chained.forward row entry queued source

theorem Chained.noopInserted (chained : Chained state) {session : SessionId} {row : RowId}
    (inOrder : InOrder state session row) (stepped : insertNoop state session row = some next) : Chained next := by
  unfold insertNoop at stepped
  split at stepped
  case h_2 => cases stepped
  next startedAt stands =>
    split at stepped <;> cases stepped
    next unknown =>
      refine (chained.noop unknown ?_ rfl).congr rfl rfl rfl
      exact inOrder startedAt (by rw [stands]; rfl)

theorem Chained.inserted (chained : Chained state) (selected : Selected state) (sound : Sound state disk)
    {session : SessionId} {row : RowId} (inOrder : InOrder state session row)
    (stepped : insertEntry state session row = some next) : Chained next := by
  unfold insertEntry at stepped
  split at stepped
  case h_2 => cases stepped
  next startedAt request stands =>
    split at stepped <;> cases stepped
    next unknown =>
      let entry : LogEntry Tags :=
        { id := row, source := request.source, status := .queued, beforeTags := none, afterTags := request.tags,
          writtenAt := startedAt }
      have added : Chained { state with rows := state.rows ++ [entry] } := by
        refine chained.dispatch unknown (inOrder startedAt (by rw [stands]; rfl)) rfl ?_ ?_ ?_
        · by_contra written
          exact sound.dispatches.inserted row (sound.anchors.written row written) unknown
        · intro other member queued
          exact sound.dispatches.counted session startedAt request stands other.id other
            ⟨lookup_of_mem sound.dispatches.distinct member, queued⟩
        · intro source nothing
          obtain ⟨first, _, _, since, -⟩ := selected session request (by rw [stands]; rfl) source
          rw [since] at nothing
          cases nothing
      exact added.congr rfl rfl rfl

theorem request_update {sessions : SessionId → Session Tags} {session other : SessionId} {stage : Session Tags}
    {request : Request Tags} (stands : (Function.update sessions other stage session).request = some request) :
    (sessions session).request = some request ∨ session = other ∧ stage.request = some request := by
  by_cases same : session = other
  · subst same
    rw [Function.update_self] at stands
    exact .inr ⟨rfl, stands⟩
  · rw [Function.update_of_ne same] at stands
    exact .inl stands

theorem request_of_calm {sessions : SessionId → Session Tags} {session other : SessionId} {stage : Session Tags}
    {request : Request Tags} (calm : stage.request = none)
    (stands : (Function.update sessions other stage session).request = some request) :
    (sessions session).request = some request := by
  refine (request_update stands).resolve_right ?_
  rintro ⟨-, here⟩
  rw [calm] at here
  cases here

section Steps

variable [DecidableEq Tags]

-- A write for the QUEUED row.
theorem Chained.write (chained : Chained state) (sound : Sound state disk) {attempt : AttemptId} {content : Content}
    (stepped : write state disk attempt content = some next) : Chained next := by
  obtain ⟨⟨row, entry, beforeTags, stands, queued⟩, -⟩ := sound.anchors.wrote sound.dispatches stepped
  simp only [Tagging.write, stands] at stepped
  cases stepped
  set original := if state.original row = none then Function.update state.original row (some state.content)
    else state.original with originalDefined
  have mine : original row ≠ none := by
    rw [originalDefined]
    split
    · simp
    · assumption
  have kept : ∀ other, state.original other ≠ none → original other ≠ none := by
    intro other written
    rw [originalDefined]
    split
    next blank =>
      rw [Function.update_of_ne]
      · exact written
      · rintro rfl
        exact written blank
    · exact written
  have only : ∀ other entry', QueuedRow state other entry' → other = row ∧ entry' = entry := by
    intro other entry' queued'
    obtain rfl := sound.dispatches.oneQueued other row entry' entry queued' queued
    exact ⟨rfl, Option.some.inj (queued'.1.symm.trans queued.1)⟩
  refine { chained with wrote := ?_, forward := ?_, undo := ?_, settled := ?_ }
  · intro other restored member
    rcases List.mem_append.mp member with old | new
    · exact kept other (chained.wrote other restored old)
    · obtain ⟨rfl, -⟩ := Prod.mk.inj (List.mem_singleton.mp new)
      exact mine
  · intro other entry' queued' source
    obtain ⟨rfl, rfl⟩ := only other entry' queued'
    have restores : restores state disk other content = false := by simp [restores, queued.1, source]
    have written : (original other).map (fun _ => other) = some other := by
      obtain ⟨first, written⟩ := Option.ne_none_iff_exists'.mp mine
      rw [written]
      rfl
    change firstSince (state.writes ++ [_]) = ((chainHead state.rows).map LogEntry.id).or (_ : Option RowId)
    rw [firstSince_append, restores, written, chained.forward other entry' queued source]
    cases chainHead state.rows <;> cases state.original other <;> simp
  · intro other entry' queued' source
    obtain ⟨rfl, rfl⟩ := only other entry' queued'
    obtain ⟨head, linked⟩ := chained.undo other entry' queued source
    refine ⟨head, fun unrestored => ?_⟩
    change (other, true) ∉ state.writes ++ [_] at unrestored
    rw [List.mem_append, List.mem_singleton, not_or] at unrestored
    have restores : restores state disk other content = false := by
      rw [← Bool.not_eq_true]
      intro restores
      exact unrestored.2 (by rw [restores])
    obtain ⟨first, is⟩ := Option.ne_none_iff_exists'.mp head
    change firstSince (state.writes ++ [_]) = (chainHead state.rows).map LogEntry.id
    rw [firstSince_append, restores, linked unrestored.1, is]
    rfl
  · intro unqueued
    exact absurd queued (unqueued row entry)

variable [DecidableEq Hash]

omit [DecidableEq Hash] in
theorem admitted_of_faithful {action : Action Content Tags Hash} (faithful : Faithful state disk action) :
    Admitted state action = true := by
  cases action with
  | serve message =>
    cases message with
    | snapshot => rfl
    | result => exact faithful.1
  | _ => rfl

-- Where a request about an undo comes from.
theorem step_request {action : Action Content Tags Hash} {session : SessionId} {request : Request Tags}
    (stepped : step state disk action = some next) (stands : (next.sessions session).request = some request) :
    (state.sessions session).request = some request ∨ request.source ≠ .undo ∨
      action = .selectUndo session ∧ ∃ entry, getWriteLogToUndo state.rows = some entry ∧ request.tags = entry.beforeTags := by
  cases action with
  | pass | finish =>
    cases stepped
    exact .inl stands
  | abandon =>
    cases stepped
    exact .inl (request_of_calm rfl stands)
  | start =>
    simp only [step] at stepped
    split at stepped <;> cases stepped
    exact .inl (request_of_calm rfl stands)
  | checkReverted =>
    simp only [step, checkReverted] at stepped
    split at stepped <;> cases stepped
    exact .inl (request_of_calm (by split <;> rfl) stands)
  | selectUndo other =>
    simp only [step, selectUndo] at stepped
    split at stepped <;> cases stepped
    rcases request_update stands with old | ⟨rfl, here⟩
    · exact .inl old
    · split at here
      · cases here
      next entry found =>
        cases here
        exact .inr (.inr ⟨rfl, entry, found, rfl⟩)
  | approve =>
    simp only [step] at stepped
    split at stepped <;> cases stepped
    rcases request_update stands with old | ⟨rfl, here⟩
    · exact .inl old
    · cases here
      exact .inr (.inl (by simp))
  | noop =>
    simp only [step, insertNoop] at stepped
    split at stepped
    case h_2 => cases stepped
    split at stepped <;> cases stepped
    exact .inl (request_of_calm rfl stands)
  | lock =>
    simp only [step, lockFile] at stepped
    split at stepped
    case h_2 => cases stepped
    next startedAt _ was =>
      split at stepped <;> cases stepped
      rcases request_update stands with old | ⟨rfl, here⟩
      · exact .inl old
      · exact .inl (by rw [was]; exact here)
  | count =>
    simp only [step, countQueued] at stepped
    split at stepped
    case h_2 => cases stepped
    next startedAt _ was =>
      split at stepped <;> cases stepped
      · exact .inl (request_of_calm rfl stands)
      · rcases request_update stands with old | ⟨rfl, here⟩
        · exact .inl old
        · exact .inl (by rw [was]; exact here)
  | insert =>
    simp only [step, insertEntry] at stepped
    split at stepped
    case h_2 => cases stepped
    split at stepped <;> cases stepped
    exact .inl (request_of_calm rfl (request_of_calm rfl stands))
  | enqueue =>
    simp only [step, enqueueJob] at stepped
    split at stepped <;> cases stepped
    exact .inl (request_of_calm rfl stands)
  | refused =>
    simp only [step, refuseJob] at stepped
    split at stepped <;> cases stepped
    exact .inl (request_of_calm rfl stands)
  | begin => grind [step, setAttempt]
  | refusePath => grind [step, refusePath, finish, send, setAttempt]
  | acquire => grind [step, acquire, setAttempt]
  | snapshotFails => grind [step, snapshotFails, setAttempt, send]
  | snapshot => grind [step, snapshot, setAttempt, send]
  | answer => grind [step, answer, setAttempt, finish]
  | write => grind [step, write]
  | report => grind [step, report, setAttempt, send]
  | serve message =>
    simp only [step, serve] at stepped
    split at stepped
    case isFalse => cases stepped
    cases message with
    | snapshot => grind [recordBeforeSnapshot]
    | result => grind [patchTagWrite]

theorem Selected.step {action : Action Content Tags Hash} (selected : Selected state) (chained : Chained state)
    (dispatches : Dispatches state) (faithful : Faithful state disk action) (stepped : step state disk action = some next) :
    Selected next := by
  intro session request stands source
  have keeps := step_keeps dispatches stepped
  obtain ⟨first, entry, tags, since, found, before, same⟩ : ∃ first entry tags, firstSince state.writes = some first ∧
      lookup state.rows first = some entry ∧ entry.beforeTags = some tags ∧ request.tags = some tags := by
    rcases step_request stepped stands with old | other | ⟨rfl, entry, target, same⟩
    · exact selected session request old source
    · exact absurd source other
    · rw [getWriteLogToUndo_eq chained.ordered] at target
      obtain ⟨member, undoable⟩ := mem_of_chainHead target
      obtain ⟨tags, before⟩ := Option.ne_none_iff_exists'.mp (chained.anchored entry member undoable)
      refine ⟨entry.id, entry, tags, ?_, lookup_of_mem dispatches.distinct member, before, same.trans before⟩
      rw [chained.firstSince_eq faithful, target]
      rfl
  obtain ⟨later, found, kept⟩ := keeps.anchor first entry tags found before
  refine ⟨first, later, tags, ?_, found, kept, same⟩
  by_cases writes : ∃ attempt content, action = .write attempt content
  · obtain ⟨attempt, content, rfl⟩ := writes
    simp only [Tagging.step, Tagging.write] at stepped
    split at stepped
    case h_2 => cases stepped
    next row beforeTags writer =>
      cases stepped
      have restores : restores state disk row content = false := by
        rw [← Bool.not_eq_true]
        exact fun restores => faithful row beforeTags writer restores session request stands source
      change firstSince (state.writes ++ [_]) = some first
      rw [firstSince_append, restores, since]
      rfl
  · rw [(step_unwritten (fun attempt content is => writes ⟨attempt, content, is⟩) stepped).2.1]
    exact since

structure Linked (state : State Content Tags Hash) (disk : Disk Content Tags Hash) : Prop where
  sound : Sound state disk
  chained : Chained state
  selected : Selected state

theorem step_linked {action : Action Content Tags Hash} (linked : Linked state disk)
    (faithful : Faithful state disk action) (stepped : step state disk action = some next) : Linked next disk := by
  refine
    { sound := step_sound linked.sound (admitted_of_faithful faithful) stepped
      chained := ?_
      selected := linked.selected.step linked.chained linked.sound.dispatches faithful stepped }
  cases action with
  | noop => exact linked.chained.noopInserted faithful stepped
  | insert => exact linked.chained.inserted linked.selected linked.sound faithful stepped
  | refused => exact linked.chained.refused linked.sound stepped
  | write => exact linked.chained.write linked.sound stepped
  | serve message =>
    simp only [step, serve] at stepped
    split at stepped
    case isFalse => cases stepped
    cases message with
    | snapshot => exact linked.chained.recorded linked.sound.dispatches stepped
    | result => exact linked.chained.patched linked.sound faithful.2 stepped
  | _ =>
    obtain ⟨-, writes, original⟩ := step_unwritten (by simp) stepped
    exact linked.chained.congr (step_silent rfl stepped) writes original

omit [DecidableEq Tags] [DecidableEq Hash] in
theorem initial_linked (content : Content) (sha256Hash : Hash) : Linked (State.initial content sha256Hash) disk where
  sound := initial_sound content sha256Hash
  chained := by constructor <;> simp [State.initial, Ordered, QueuedRow, lookup, chainHead, firstSince]
  selected := by
    intro session request stands
    cases stands

abbrev AllFaithful (disk : Disk Content Tags Hash) : State Content Tags Hash → List (Action Content Tags Hash) → Prop :=
  Runs.Along (fun state action => step state disk action) fun state action => Faithful state disk action

omit [DecidableEq Tags] [DecidableEq Hash] in
-- A completed undo is the newest row only while there is nothing to go back to.
theorem Linked.reverted (linked : Linked state disk) {entry : LogEntry Tags}
    (latest : getLatestWriteLog state.rows = some entry) (completed : entry.completedUndo = true) :
    firstSince state.writes = none := by
  rcases List.eq_nil_or_concat' state.rows with empty | ⟨before, last, split⟩
  · rw [empty] at latest
    cases latest
  have ordered := linked.chained.ordered
  rw [split] at ordered
  rw [getLatestWriteLog, split, newest_append (ordered_append.mp ordered).2] at latest
  cases latest
  have unqueued : ∀ other ∈ state.rows, other.status = .queued → state.original other.id = none := by
    intro other member queued
    simp only [LogEntry.completedUndo, Bool.and_eq_true, decide_eq_true_eq] at completed
    have final := linked.chained.final
    rw [split] at member final
    rcases List.mem_append.mp member with early | here
    · have noOp := (List.pairwise_append.mp final).2.2 other early entry (by simp) queued
      rw [noOp] at completed
      cases completed.2
    · rw [List.mem_singleton.mp here, completed.2] at queued
      cases queued
  rw [linked.chained.firstSince_eq unqueued, split, chainHead_append, chainStep, if_pos completed]
  rfl

/-- In every run in which the rows are inserted in the order of their keys, the statuses are true and timely, no
request about an undo meets a write that has not been reported, and none stands between its reads and its insert
when the file is restored: an undo carries the anchor of the first write since the file was last restored, there
is nothing to undo only when there is no such write, and a file is terminal exactly when no COMPLETED undo comes
after one of its terminal rows. -/
theorem undo_goes_back_to_first_write (disk : Disk Content Tags Hash) (content : Content) (sha256Hash : Hash)
    (actions : List (Action Content Tags Hash)) (state : State Content Tags Hash)
    (faithful : AllFaithful disk (State.initial content sha256Hash) actions)
    (ran : runWrites disk (State.initial content sha256Hash) actions = some state) :
    (∀ session row next entry, step state disk (.insert session row) = some next →
      lookup next.rows row = some entry → entry.source = .undo →
        ∃ first written, firstSince state.writes = some first ∧ lookup state.rows first = some written ∧
          entry.afterTags = written.beforeTags) ∧
      (∀ session next, Faithful state disk (.selectUndo session) → step state disk (.selectUndo session) = some next →
        next.sessions session = .idle → firstSince state.writes = none) ∧
      (∀ entry, getLatestWriteLog state.rows = some entry → entry.completedUndo = true → firstSince state.writes = none) ∧
      (terminalTagwrite state.rows = true ↔
        ∃ before entry after, state.rows = before ++ entry :: after ∧ entry.terminal = true ∧
          ∀ later ∈ after, later.completedUndo = false) := by
  have linked : Linked state disk :=
    Runs.run_keeps (fun _ _ _ linked faithful stepped => step_linked linked faithful stepped) actions faithful
      (initial_linked content sha256Hash) ran
  refine ⟨?_, ?_, fun _ latest completed => linked.reverted latest completed, terminalTagwrite_iff linked.chained.ordered⟩
  · intro session row next entry stepped found source
    simp only [step, insertEntry] at stepped
    split at stepped
    case h_2 => cases stepped
    next startedAt request stands =>
      split at stepped <;> cases stepped
      next unknown =>
        let new : LogEntry Tags :=
          { id := row, source := request.source, status := .queued, beforeTags := none, afterTags := request.tags,
            writtenAt := startedAt }
        have inserted : lookup (state.rows ++ [new]) row = _ := lookup_append unknown row
        rw [if_pos rfl] at inserted
        obtain rfl := Option.some.inj (inserted.symm.trans found)
        obtain ⟨first, written, tags, since, known, before, same⟩ :=
          linked.selected session request (by rw [stands]; rfl) source
        exact ⟨first, written, since, known, same.trans before.symm⟩
  · intro session next quiet stepped idle
    rw [linked.chained.firstSince_eq quiet]
    simp only [step, selectUndo] at stepped
    split at stepped <;> cases stepped
    simp only [setSession, Function.update_self, getWriteLogToUndo_eq linked.chained.ordered] at idle
    split at idle
    next nothing => rw [nothing]; rfl
    · cases idle

end Steps

end Chains

/-! ## One row and its undo -/

namespace Single

def completes : List (Action Nat Nat Nat) :=
  asks ++ writesAndReports

-- The runs in which nothing is restored.
def plain (state : State Nat Nat Nat) : Action Nat Nat Nat → Bool
  | .noop session row | .insert session row =>
      (state.sessions session).startedAt.all fun startedAt => state.rows.all fun entry => entry.key < toLex (startedAt, row)
  | .selectUndo _ => state.rows.all fun entry => entry.status ≠ .queued || (state.original entry.id).isNone
  | .write attempt content =>
      match state.attempts attempt with
      | .writing row _ => !restores state disk row content
      | _ => true
  | .serve (.result _ row status _ hash seen) => timely state row status hash seen && truthful state row status
  | _ => true

theorem faithful_of_plain (state : State Nat Nat Nat) (action : Action Nat Nat Nat) (is : plain state action = true) :
    Faithful state disk action := by
  cases action with
  | noop session row | insert session row =>
    intro startedAt stands entry member
    simp only [plain, stands, Option.all_some, List.all_eq_true, decide_eq_true_eq] at is
    exact is entry member
  | selectUndo session =>
    intro entry member queued
    simp only [plain, List.all_eq_true] at is
    simpa [queued] using is entry member
  | write attempt content =>
    intro row beforeTags stands restores
    simp only [plain, stands, restores] at is
    cases is
  | serve message =>
    cases message with
    | snapshot => trivial
    | result => exact Bool.and_eq_true_iff.mp is
  | _ => trivial

def undoes : List (Action Nat Nat Nat) :=
  [.pass 1, .start 0, .checkReverted 0, .selectUndo 0, .lock 0, .count 0]

theorem undo_carries_the_anchor :
    ∃ state next entry, runWrites disk (State.initial 3 3) (completes ++ undoes) = some state ∧
      step state disk (.insert 0 2) = some next ∧ lookup next.rows 2 = some entry ∧
      ∃ first written, firstSince state.writes = some first ∧ lookup state.rows first = some written ∧
        entry.afterTags = written.beforeTags := by
  have faithful : AllFaithful disk (State.initial 3 3) (completes ++ undoes) :=
    Runs.Along.imp faithful_of_plain (by decide)
  exact ⟨_, _, _, rfl, rfl, rfl,
    (undo_goes_back_to_first_write disk 3 3 (completes ++ undoes) _ faithful rfl).1 0 2 _ _ rfl rfl rfl⟩

-- The process dies after the save; the file does not open for the retry, which reports FAILED.
def diesAndFails : List (Action Nat Nat Nat) :=
  asks ++ [.write 1 7, .finish 1, .begin 2 1, .refusePath 2, .serve (.result 2 1 .failed none none 1)]

/-- There is no write to undo, and the file was written. -/
theorem landed_write_is_not_undone :
    ∃ state next, runWrites disk (State.initial 3 3) (diesAndFails ++ [.start 0, .checkReverted 0]) = some state ∧
      step state disk (.selectUndo 0) = some next ∧ next.sessions 0 = .idle ∧ firstSince state.writes = some 1 ∧
      state.content = 7 :=
  ⟨_, _, rfl, rfl, rfl, rfl, rfl⟩

end Single

end Phaze.Tagging
