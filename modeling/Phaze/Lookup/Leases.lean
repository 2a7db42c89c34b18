import Phaze.Lookup.Expansion

set_option autoImplicit false

/-!
# Records inside their leases

A lease that runs out lets a second worker take the row, and the record of the first does not look at what became
of it. While every record finds its row active, the rows and the counts stay consistent.
-/

namespace Phaze.Lookup

open Provider (Uuid)

variable {stopStatuses : String → Option (List Nat)} {state next : State}

/-! ## Rows that are replaced -/

theorem setWork_ids (works : List Work) (work : Work) : (setWork works work).map (·.id) = works.map (·.id) := by
  rw [setWork, List.map_map]
  refine List.map_congr_left fun row _ => ?_
  by_cases same : row.id = work.id <;> simp [same]

theorem setBatch_ids (batches : List Batch) (batch : Batch) :
    (setBatch batches batch).map (·.id) = batches.map (·.id) := by
  rw [setBatch, List.map_map]
  refine List.map_congr_left fun row _ => ?_
  by_cases same : row.id = batch.id <;> simp [same]

theorem mem_setWork {works : List Work} {work row : Work} (member : row ∈ setWork works work) :
    (row ∈ works ∧ row.id ≠ work.id) ∨ (row = work ∧ ∃ old ∈ works, old.id = work.id) := by
  obtain ⟨old, there, rfl⟩ := List.mem_map.mp member
  by_cases same : old.id = work.id
  · exact .inr ⟨if_pos same, old, there, same⟩
  · rw [if_neg same]
    exact .inl ⟨there, same⟩

theorem mem_setBatch {batches : List Batch} {batch row : Batch} (member : row ∈ setBatch batches batch) :
    (row ∈ batches ∧ row.id ≠ batch.id) ∨ (row = batch ∧ ∃ old ∈ batches, old.id = batch.id) := by
  obtain ⟨old, there, rfl⟩ := List.mem_map.mp member
  by_cases same : old.id = batch.id
  · exact .inr ⟨if_pos same, old, there, same⟩
  · rw [if_neg same]
    exact .inl ⟨there, same⟩

theorem setBatch_mem {batches : List Batch} (batch : Batch) {row : Batch} (member : row ∈ batches) :
    ∃ new ∈ setBatch batches batch, new.id = row.id ∧ (row.id ≠ batch.id → new = row) ∧
      (row.id = batch.id → new = batch) := by
  refine ⟨_, List.mem_map_of_mem member, ?_⟩
  by_cases same : row.id = batch.id <;> simp [same]

-- The rows of works that have the pairs of those before, at the same ids.
def SamePairs (works others : List Work) : Prop :=
  ∀ row ∈ works, ∃ other ∈ others, other.id = row.id ∧ other.pair = row.pair

theorem setWork_pairs {works : List Work} (work : Work)
    (pair : ∀ row ∈ works, row.id = work.id → work.pair = row.pair) : SamePairs works (setWork works work) := by
  intro row member
  refine ⟨_, List.mem_map_of_mem member, ?_⟩
  by_cases same : row.id = work.id
  · simp [same, pair row member same]
  · simp [same]

/-! ## What is kept -/

structure Sound (state : State) : Prop where
  ids : state.works.map (·.id) = List.range state.works.length
  batchIds : state.batches.map (·.id) = List.range state.batches.length
  single : Single state.works
  failures : ∀ row ∈ state.works, row.failures = state.recorded.count (row.id, true)
  failed : ∀ row ∈ state.works, 5 ≤ row.failures → row.status = .failed
  known : ∀ entry ∈ state.recorded, entry.1 < state.works.length
  providers : ∀ batch ∈ state.batches, batch.providers.Nodup
  counted : ∀ batch ∈ state.batches,
    batch.selected + batch.existing = (state.memberships.filter fun row => row.batchId = batch.id).length
  enrolled : ∀ row ∈ state.memberships, (∃ batch ∈ state.batches, batch.id = row.batchId) ∧
    ∃ work ∈ state.works, work.id = row.workId ∧ (row.batchId, work.mediaId) ∈ state.examined
  below : ∀ entry ∈ state.examined, ∃ batch ∈ state.batches, batch.id = entry.1 ∧
    ∃ cursor, batch.cursor = some cursor ∧ entry.2 ≤ cursor
  once : state.examined.Nodup
  clean : state.refused = []

theorem Sound.initial (files : List Uuid) : Sound (State.initial files) := by
  constructor <;> simp [State.initial, Single]

theorem Sound.apart (sound : Sound state) : (state.works.map (·.id)).Nodup := by
  rw [sound.ids]
  exact List.nodup_range

theorem Sound.batch_eq (sound : Sound state) {first second : Batch} (one : first ∈ state.batches)
    (other : second ∈ state.batches) (same : first.id = second.id) : first = second := by
  refine List.inj_on_of_nodup_map ?_ one other same
  rw [sound.batchIds]
  exact List.nodup_range

theorem work_some {id : Uuid} {row : Work} (found : state.work id = some row) : row ∈ state.works ∧ row.id = id :=
  ⟨List.mem_of_find?_eq_some found, by simpa using List.find?_some found⟩

theorem batch_some {id : Uuid} {row : Batch} (found : state.batch id = some row) : row ∈ state.batches ∧ row.id = id :=
  ⟨List.mem_of_find?_eq_some found, by simpa using List.find?_some found⟩

-- A row whose pair stays is written, and the counts of its failures with it.
theorem Sound.written (sound : Sound state) {row : Work} (member : row ∈ state.works) (work : Work) (id : work.id = row.id)
    (pair : work.pair = row.pair) (active : work.active = true → row.active = true) (recorded : List (Uuid × Bool))
    (others : ∀ other ≠ row.id, recorded.count (other, true) = state.recorded.count (other, true))
    (failures : work.failures = recorded.count (row.id, true)) (failed : 5 ≤ work.failures → work.status = .failed)
    (known : ∀ entry ∈ recorded, entry.1 < state.works.length) :
    Sound { state with works := setWork state.works work, recorded := recorded } where
  ids := by
    rw [setWork_ids, sound.ids]
    simp [setWork]
  batchIds := sound.batchIds
  single := by
    have before : ∀ other ∈ setWork state.works work, other.active = true → ∃ old ∈ state.works, old.active = true ∧
        old.id = other.id ∧ old.pair = other.pair := by
      intro other there live
      rcases mem_setWork there with ⟨old, -⟩ | ⟨rfl, -⟩
      · exact ⟨other, old, live, rfl, rfl⟩
      · exact ⟨row, member, active live, id.symm, pair.symm⟩
    intro first one second other firstActive secondActive same
    obtain ⟨old, there, live, oldId, oldPair⟩ := before first one firstActive
    obtain ⟨old', there', live', oldId', oldPair'⟩ := before second other secondActive
    rw [← oldId, ← oldId']
    exact sound.single old there old' there' live live' (oldPair.trans (same.trans oldPair'.symm))
  failures := by
    intro other there
    rcases mem_setWork there with ⟨old, differs⟩ | ⟨rfl, -⟩
    · rw [others other.id (id ▸ differs)]
      exact sound.failures other old
    · rw [id]
      exact failures
  failed := by
    intro other there
    rcases mem_setWork there with ⟨old, -⟩ | ⟨rfl, -⟩
    · exact sound.failed other old
    · exact failed
  known := by simpa [setWork] using known
  providers := sound.providers
  counted := sound.counted
  enrolled := by
    intro membership there
    obtain ⟨batch, other, known, same, seen⟩ := sound.enrolled membership there
    obtain ⟨new, listed, newId, newPair⟩ := setWork_pairs work
      (fun old present equal => by
        rw [eq_of_ids sound.apart present member (equal.trans id)]
        exact pair) other known
    exact ⟨batch, new, listed, newId.trans same, by rw [show new.mediaId = other.mediaId from congrArg Prod.fst newPair]; exact seen⟩
  below := sound.below
  once := sound.once
  clean := sound.clean

/-! ## The steps of a worker -/

theorem claim_row {now : Int} {reason : Option String} {digest : String} {row written : Work}
    (claimed : claim now reason digest row = .completed written ∨ claim now reason digest row = .running written) :
    row.active = true ∧ written.id = row.id ∧ written.pair = row.pair ∧ written.failures = row.failures := by
  unfold claim at claimed
  cases live : row.active with
  | false => simp [live] at claimed
  | true =>
    simp only [live, Bool.not_true, Bool.false_eq_true, if_false] at claimed
    refine ⟨rfl, ?_⟩
    split at claimed
    · simp at claimed
    · split at claimed
      · simp at claimed
      · cases reason with
        | some reason =>
          simp only [Claim.completed.injEq, reduceCtorEq, or_false] at claimed
          rw [← claimed]
          exact ⟨rfl, rfl, rfl⟩
        | none =>
          simp only at claimed
          split at claimed
          · simp only [Claim.completed.injEq, reduceCtorEq, or_false] at claimed
            rw [← claimed]
            exact ⟨rfl, rfl, rfl⟩
          · simp only [Claim.running.injEq, reduceCtorEq, false_or] at claimed
            rw [← claimed]
            exact ⟨rfl, rfl, rfl⟩

theorem Sound.low (sound : Sound state) {row : Work} (member : row ∈ state.works) (live : row.active = true) :
    row.failures < 5 := by
  by_contra many
  have failed := sound.failed row member (not_lt.mp many)
  rw [Work.active, failed] at live
  cases live

-- What a claim writes counts no failure.
theorem Sound.claimed (sound : Sound state) {row written : Work} (member : row ∈ state.works) (live : row.active = true)
    (id : written.id = row.id) (pair : written.pair = row.pair) (failures : written.failures = row.failures) :
    Sound { state with works := setWork state.works written } := by
  refine sound.written member written id pair (fun _ => live) state.recorded (fun _ _ => rfl) ?_ (fun many => ?_) sound.known
  · rw [failures]
    exact sound.failures row member
  · have := sound.low member live
    omega

theorem Sound.claimWork (sound : Sound state) {worker : WorkerId} {id : Uuid} {reason : Option String} {digest : String}
    (stepped : claimWork state worker id reason digest = some next) : Sound next := by
  unfold Lookup.claimWork at stepped
  split at stepped
  · cases stepped
  · split at stepped
    · cases stepped
      exact sound
    next row found =>
      obtain ⟨member, -⟩ := work_some found
      split at stepped
      · cases stepped
        exact sound
      · cases stepped
        exact sound
      · cases stepped
        exact sound
      next written claimed =>
        cases stepped
        obtain ⟨live, same, pair, failures⟩ := claim_row (.inl claimed)
        exact sound.claimed member live same pair failures
      next written claimed =>
        cases stepped
        obtain ⟨live, same, pair, failures⟩ := claim_row (.inr claimed)
        exact { sound.claimed member live same pair failures with }

theorem live_of_timely {worker : WorkerId} {result : Option LookupResult}
    (inside : timely state (.record worker result) = true) {id : Uuid} {row : Work}
    (looking : state.workers worker = .lookingUp id) (found : state.work id = some row) : row.active = true := by
  simpa [timely, looking, found] using inside

theorem Sound.recordWork (sound : Sound state) {worker : WorkerId} {result : Option LookupResult}
    (inside : timely state (.record worker result) = true)
    (stepped : recordWork stopStatuses state worker result = some next) : Sound next := by
  unfold Lookup.recordWork at stepped
  split at stepped
  · cases stepped
  next id looking =>
    simp only at stepped
    split at stepped
    · cases stepped
      exact { sound with }
    next row found =>
      obtain ⟨member, same⟩ : row ∈ state.works ∧ row.id = id := work_some found
      have live := live_of_timely inside looking found
      have free : occupied (setWorker state worker .idle) (record state.now
          (verdictOf stopStatuses row.providerId result) row) = false := by
        simp only [occupied, List.any_eq_false, Bool.and_eq_true, decide_eq_true_eq, not_and]
        intro other there differs samePair
        exact differs.1 (sound.single other there row member differs.2 live samePair)
      have low := sound.low member live
      have counts := sound.failures row member
      split at stepped
      next refused =>
        simp only [Bool.and_eq_true] at refused
        exact absurd refused.2 (by rw [show (setWorker state worker .idle).now = state.now from rfl, free]; simp)
      · cases stepped
        subst same
        refine { sound.written member (record state.now (verdictOf stopStatuses row.providerId result) row)
          rfl rfl (fun _ => live) (state.recorded ++ [(row.id, _)]) ?_ ?_ ?_ ?_ with }
        · intro other differs
          simp [List.count_append, Ne.symm differs]
        · cases transient : (verdictOf stopStatuses row.providerId result).transient with
          | true => simp [record, transient, List.count_append, counts]
          | false => simp [record, transient, List.count_append, counts]
        · intro many
          unfold record at many ⊢
          cases transient : (verdictOf stopStatuses row.providerId result).transient with
          | true =>
            simp only [transient, if_true] at many
            simp [many]
          | false =>
            simp only [transient] at many
            exact absurd many (by simpa using low)
        · intro entry there
          rcases List.mem_append.mp there with old | new
          · exact sound.known entry old
          · cases List.mem_singleton.mp new
            have listed : row.id ∈ state.works.map (·.id) := List.mem_map_of_mem member
            rwa [sound.ids, List.mem_range] at listed

/-! ## The steps of an expander -/

theorem Sound.created (sound : Sound state) {providers : List String} (distinct : providers.Nodup) :
    Sound (createBatch state providers) := by
  have ids : ∀ batch ∈ state.batches, batch.id ≠ state.batches.length := by
    intro batch member same
    have listed : batch.id ∈ state.batches.map (·.id) := List.mem_map_of_mem member
    rw [sound.batchIds, List.mem_range, same] at listed
    exact lt_irrefl _ listed
  have unenrolled : ∀ row ∈ state.memberships, row.batchId ≠ state.batches.length := by
    intro row member same
    obtain ⟨⟨batch, there, id⟩, -⟩ := sound.enrolled row member
    exact ids batch there (id.trans same)
  refine { sound with batchIds := ?_, providers := ?_, counted := ?_, enrolled := ?_, below := ?_ }
  · simp [createBatch, sound.batchIds, List.range_succ]
  · intro batch there
    rcases List.mem_append.mp there with old | new
    · exact sound.providers batch old
    · cases List.mem_singleton.mp new
      exact distinct
  · intro batch there
    rcases List.mem_append.mp there with old | new
    · exact sound.counted batch old
    · cases List.mem_singleton.mp new
      have none : state.memberships.filter (fun row => row.batchId = state.batches.length) = [] :=
        List.filter_eq_nil_iff.mpr fun row member => by simpa using unenrolled row member
      simp [createBatch, none]
  · intro row there
    obtain ⟨⟨batch, listed, id⟩, work⟩ := sound.enrolled row there
    exact ⟨⟨batch, List.mem_append_left _ listed, id⟩, work⟩
  · intro entry there
    obtain ⟨batch, listed, below⟩ := sound.below entry there
    exact ⟨batch, List.mem_append_left _ listed, below⟩

theorem Sound.ahead (sound : Sound state) {batch : Batch} (member : batch ∈ state.batches) {media : Uuid}
    (past : ∀ cursor, batch.cursor = some cursor → cursor < media) :
    Ahead { works := state.works, memberships := state.memberships, batch := batch } media := by
  intro row there own
  obtain ⟨-, work, listed, id, seen⟩ := sound.enrolled row there
  obtain ⟨other, known, same, cursor, stands, below⟩ := sound.below _ seen
  have equal := sound.batch_eq known member (same.trans own)
  subst equal
  refine ⟨work, listed, id, fun here => ?_⟩
  have := past cursor stands
  rw [← here] at this
  exact absurd below (not_le.mpr this)

-- The rows after a chunk, against those before it.
theorem Sound.chunk (sound : Sound state) {id : Uuid} {batch : Batch} (found : state.batch id = some batch)
    (excluded : Uuid → Bool) :
    ∃ pairs, Within (chunkIds state.files batch) pairs ∧
      Grown { works := state.works, memberships := state.memberships, batch := batch } pairs
        (expandChunk excluded state.files { works := state.works, memberships := state.memberships, batch := batch }) := by
  obtain ⟨member, -⟩ := batch_some found
  have sorted := chunkIds_sorted state.files batch
  obtain ⟨pairs, grown, within⟩ := (Grown.start ⟨state.works, state.memberships, batch⟩ sound.ids
    sound.single).examineAll (show Within [] [] from fun pair known => by cases known) excluded
      (fun media there => sound.ahead member (chunkIds_mem there).2.2)
      (sorted.imp fun less => ne_of_lt less) (fun media _ => List.not_mem_nil) (sound.providers batch member)
  refine ⟨pairs, fun pair known => by simpa using within pair known, ?_⟩
  exact grown.recount rfl rfl rfl rfl

theorem expandChunk_cursor (excluded : Uuid → Bool) (files : List Uuid) (chunk : Chunk) :
    (expandChunk excluded files chunk).batch.cursor = ((chunkIds files chunk.batch).getLast?).or chunk.batch.cursor := by
  simp [expandChunk, examineAll_cursor]

theorem getLast?_upper {ids : List Uuid} (sorted : ids.Pairwise (· < ·)) {media : Uuid} (member : media ∈ ids) :
    ∃ last, ids.getLast? = some last ∧ media ≤ last := by
  have nonempty := List.ne_nil_of_mem member
  refine ⟨ids.getLast nonempty, List.getLast?_eq_some_getLast nonempty, ?_⟩
  rcases List.mem_iff_append.mp member with ⟨before, after, rfl⟩
  cases after with
  | nil => simp
  | cons head rest =>
    have later : media < (before ++ media :: head :: rest).getLast nonempty := by
      have last := List.getLast_mem (l := head :: rest) (by simp)
      have split := (List.pairwise_append.mp sorted).2.1
      have := (List.pairwise_cons.mp split).1 _ last
      simpa using this
    exact later.le

section Chunk

variable {batch : Batch} {final : Chunk} {pairs : List (Uuid × String)}

-- A row that a chunk adds has an id of its own, so nothing is recorded of it.
theorem Sound.added_works (sound : Sound state) (grown : Grown ⟨state.works, state.memberships, batch⟩ pairs final) {row : Work}
    (there : row ∈ final.works) :
    row ∈ state.works ∨ row.failures = 0 ∧ state.recorded.count (row.id, true) = 0 := by
  obtain ⟨added, worksEq, queued⟩ := grown.works
  have ids := grown.ids
  rw [worksEq, List.map_append, sound.ids, List.length_append, List.range_add, List.append_cancel_left_eq] at ids
  rw [worksEq] at there
  rcases List.mem_append.mp there with old | new
  · exact .inl old
  · refine .inr ⟨(queued row new).2, List.count_eq_zero.mpr fun known => ?_⟩
    have listed : row.id ∈ added.map (·.id) := List.mem_map_of_mem new
    rw [ids] at listed
    obtain ⟨offset, -, same⟩ := List.mem_map.mp listed
    have within : row.id < state.works.length := sound.known _ known
    rw [← same] at within
    exact absurd within (not_lt.mpr (Nat.le_add_right _ _))

theorem Grown.kept (grown : Grown ⟨state.works, state.memberships, batch⟩ pairs final) :
    (∀ row ∈ state.works, row ∈ final.works) ∧ state.works.length ≤ final.works.length := by
  obtain ⟨added, worksEq, -⟩ := grown.works
  rw [worksEq, List.length_append]
  exact ⟨fun row there => List.mem_append_left _ there, Nat.le_add_right _ _⟩

theorem Sound.chunk_counted (sound : Sound state) (member : batch ∈ state.batches)
    (grown : Grown ⟨state.works, state.memberships, batch⟩ pairs final) {row : Batch} (there : row ∈ setBatch state.batches final.batch) :
    row.selected + row.existing = (final.memberships.filter fun entry => entry.batchId = row.id).length := by
  obtain ⟨added, membersEq, each, count⟩ := grown.members
  rw [membersEq, List.filter_append, List.length_append]
  rcases mem_setBatch there with ⟨old, differs⟩ | ⟨rfl, -⟩
  · have none : added.filter (fun entry => entry.batchId = row.id) = [] := by
      refine List.filter_eq_nil_iff.mpr fun entry known => ?_
      rw [(each entry known).1]
      simpa using fun same => differs ((grown.id.trans same).symm)
    rw [none]
    exact sound.counted row old
  · have all : added.filter (fun entry => entry.batchId = final.batch.id) = added := by
      refine List.filter_eq_self.mpr fun entry known => ?_
      rw [(each entry known).1, grown.id]
      simp
    rw [all, count, grown.id]
    exact congrArg (· + added.length) (sound.counted batch member)

theorem Sound.chunk_enrolled (sound : Sound state) (member : batch ∈ state.batches)
    (grown : Grown ⟨state.works, state.memberships, batch⟩ pairs final) (within : Within (chunkIds state.files batch) pairs)
    {row : Membership} (there : row ∈ final.memberships) :
    (∃ owner ∈ setBatch state.batches final.batch, owner.id = row.batchId) ∧
      ∃ work ∈ final.works, work.id = row.workId ∧
        (row.batchId, work.mediaId) ∈ state.examined ++ (chunkIds state.files batch).map fun media => (batch.id, media) := by
  obtain ⟨added, membersEq, each, -⟩ := grown.members
  rw [membersEq] at there
  rcases List.mem_append.mp there with old | new
  · obtain ⟨⟨owner, listed, same⟩, work, known, workId, seen⟩ := sound.enrolled row old
    obtain ⟨replaced, listed', same', -⟩ := setBatch_mem final.batch listed
    exact ⟨⟨replaced, listed', same'.trans same⟩, work, grown.kept.1 work known, workId, List.mem_append_left _ seen⟩
  · obtain ⟨own, work, known, workId, pair⟩ := each row new
    obtain ⟨replaced, listed', same', -⟩ := setBatch_mem final.batch member
    refine ⟨⟨replaced, listed', same'.trans own.symm⟩, work, known, workId, List.mem_append_right _ ?_⟩
    exact List.mem_map.mpr ⟨work.mediaId, within _ pair, by rw [own]⟩

-- The cursor moves behind all that the chunk comes to, and never back.
theorem Sound.chunk_below (sound : Sound state) (member : batch ∈ state.batches) (id : final.batch.id = batch.id)
    (cursor : final.batch.cursor = ((chunkIds state.files batch).getLast?).or batch.cursor) {entry : Uuid × Uuid}
    (there : entry ∈ state.examined ++ (chunkIds state.files batch).map fun media => (batch.id, media)) :
    ∃ owner ∈ setBatch state.batches final.batch, owner.id = entry.1 ∧ ∃ reached, owner.cursor = some reached ∧ entry.2 ≤ reached := by
  rcases List.mem_append.mp there with old | new
  · obtain ⟨owner, listed, same, stands, at_, low⟩ := sound.below entry old
    obtain ⟨replaced, listed', same', keeps, becomes⟩ := setBatch_mem final.batch listed
    refine ⟨replaced, listed', same'.trans same, ?_⟩
    by_cases own : owner.id = final.batch.id
    · rw [becomes own, cursor]
      have equal := sound.batch_eq listed member (own.trans id)
      subst equal
      cases last : (chunkIds state.files owner).getLast? with
      | none => exact ⟨stands, by simpa using at_, low⟩
      | some final =>
        have past := (chunkIds_mem (List.mem_of_getLast? last)).2.2 stands at_
        exact ⟨final, rfl, low.trans past.le⟩
    · rw [keeps own]
      exact ⟨stands, at_, low⟩
  · obtain ⟨media, seen, rfl⟩ := List.mem_map.mp new
    obtain ⟨replaced, listed', same', -, becomes⟩ := setBatch_mem final.batch member
    obtain ⟨last, ended, low⟩ := getLast?_upper (chunkIds_sorted state.files batch) seen
    refine ⟨replaced, listed', same', last, ?_, low⟩
    rw [becomes id.symm, cursor, ended]
    rfl

theorem Sound.chunk_once (sound : Sound state) (member : batch ∈ state.batches) :
    (state.examined ++ (chunkIds state.files batch).map fun media => (batch.id, media)).Nodup := by
  have sorted := chunkIds_sorted state.files batch
  refine List.Nodup.append sound.once ?_ ?_
  · exact List.Nodup.map (fun first second same => congrArg Prod.snd same) (sorted.imp fun less => ne_of_lt less)
  · intro entry old new
    obtain ⟨media, there, rfl⟩ := List.mem_map.mp new
    obtain ⟨owner, listed, same, stands, at_, low⟩ := sound.below _ old
    have equal := sound.batch_eq listed member same
    subst equal
    exact absurd low (not_le.mpr ((chunkIds_mem there).2.2 stands at_))

end Chunk

theorem Sound.expanded (sound : Sound state) (id : Uuid) (excluded : Uuid → Bool) :
    Sound (expandBatch state id excluded) := by
  unfold expandBatch
  split
  · exact sound
  next batch found =>
    split
    · exact sound
    next open_ =>
      obtain ⟨member, rfl⟩ := batch_some found
      obtain ⟨pairs, within, grown⟩ := sound.chunk found excluded
      simp only
      generalize done : expandChunk excluded state.files ⟨state.works, state.memberships, batch⟩ = final at grown
      have cursor : final.batch.cursor = ((chunkIds state.files batch).getLast?).or batch.cursor := by
        rw [← done]
        exact expandChunk_cursor excluded state.files ⟨state.works, state.memberships, batch⟩
      exact
        { ids := grown.ids
          batchIds := by
            rw [setBatch_ids, sound.batchIds]
            simp [setBatch]
          single := grown.single
          failures := by
            intro row there
            rcases sound.added_works grown there with old | ⟨none, unrecorded⟩
            · exact sound.failures row old
            · exact none.trans unrecorded.symm
          failed := by
            intro row there many
            rcases sound.added_works grown there with old | ⟨none, -⟩
            · exact sound.failed row old many
            · omega
          known := fun entry there => (sound.known entry there).trans_le grown.kept.2
          providers := by
            intro row there
            rcases mem_setBatch there with ⟨old, -⟩ | ⟨rfl, -⟩
            · exact sound.providers row old
            · rw [grown.providers]
              exact sound.providers batch member
          counted := fun _ there => sound.chunk_counted member grown there
          enrolled := fun _ there => sound.chunk_enrolled member grown within there
          below := fun _ there => sound.chunk_below member grown.id cursor there
          once := sound.chunk_once member
          clean := sound.clean }

theorem step_sound (sound : Sound state) {action : Action} (inside : timely state action = true)
    (stepped : step stopStatuses state action = some next) : Sound next := by
  cases action with
  | pass duration =>
    cases stepped
    exact { sound with }
  | addFile file =>
    simp only [step] at stepped
    split at stepped
    · cases stepped
    · cases stepped
      exact { sound with }
  | removeFile file =>
    cases stepped
    exact { sound with }
  | create providers distinct =>
    cases stepped
    exact sound.created distinct
  | expand batch excluded =>
    cases stepped
    exact sound.expanded batch excluded
  | claim worker work reason digest => exact sound.claimWork stepped
  | record worker result => exact sound.recordWork inside stepped
  | die worker =>
    cases stepped
    exact { sound with }

/-! ## Rows that are over -/

theorem work_setWork {works : List Work} (work : Work) {id : Uuid} (differs : id ≠ work.id) :
    (setWork works work).find? (fun row => row.id = id) = works.find? fun row => row.id = id := by
  rw [setWork, List.find?_map]
  have through : ((fun row : Work => decide (row.id = id)) ∘ fun row => if row.id = work.id then work else row) =
      fun row => decide (row.id = id) := by
    funext row
    by_cases same : row.id = work.id
    · simp [same, Ne.symm differs]
    · simp [same]
  rw [through]
  cases found : works.find? fun row => decide (row.id = id) with
  | none => rfl
  | some row =>
    have same : row.id = id := by simpa using List.find?_some found
    simp [same, differs]

/-- A row that was completed or failed stays as it is. -/
theorem step_keeps_ended (sound : Sound state) {action : Action} (inside : timely state action = true)
    (stepped : step stopStatuses state action = some next) {id : Uuid} {row : Work} (found : state.work id = some row)
    (ended : row.active = false) : next.work id = some row := by
  cases action with
  | pass duration =>
    cases stepped
    exact found
  | addFile file =>
    simp only [step] at stepped
    split at stepped
    · cases stepped
    · cases stepped
      exact found
  | removeFile file =>
    cases stepped
    exact found
  | create providers distinct =>
    cases stepped
    exact found
  | expand batch excluded =>
    cases stepped
    unfold expandBatch
    split
    · exact found
    next row there =>
      split
      · exact found
      · obtain ⟨pairs, -, grown⟩ := sound.chunk there excluded
        obtain ⟨added, worksEq, -⟩ := grown.works
        simp only [State.work, worksEq] at found ⊢
        rw [List.find?_append, found]
        rfl
  | claim worker work reason digest =>
    simp only [step, claimWork] at stepped
    split at stepped
    · cases stepped
    · split at stepped
      · cases stepped
        exact found
      next other there =>
        have differs : ∀ {written : Work}, other.active = true → written.id = other.id → id ≠ written.id := by
          intro written live same equal
          have here : id = work := equal.trans (same.trans (work_some there).2)
          rw [here, there, Option.some.injEq] at found
          rw [found, ended] at live
          cases live
        split at stepped
        · cases stepped
          exact found
        · cases stepped
          exact found
        · cases stepped
          exact found
        next written claimed =>
          cases stepped
          obtain ⟨live, same, -⟩ := claim_row (.inl claimed)
          exact (work_setWork _ (differs live same)).trans found
        next written claimed =>
          cases stepped
          obtain ⟨live, same, -⟩ := claim_row (.inr claimed)
          exact (work_setWork _ (differs live same)).trans found
  | record worker result =>
    simp only [step, recordWork] at stepped
    split at stepped
    · cases stepped
    next work looking =>
      split at stepped
      · cases stepped
        exact found
      next other there =>
        have live := live_of_timely inside looking there
        have differs : id ≠ other.id := by
          intro equal
          have here : id = work := equal.trans (work_some there).2
          rw [here, show state.work work = some other from there, Option.some.injEq] at found
          rw [found, ended] at live
          cases live
        split at stepped
        · cases stepped
          exact found
        · cases stepped
          exact (work_setWork (record _ _ other) differs).trans found
  | die worker =>
    cases stepped
    exact found

/-! ## A file that stays -/

/-- The file is there whenever the batch is expanded. -/
def Present (file batch : Uuid) (state : State) : Action → Prop
  | .expand id _ => id = batch → file ∈ state.files
  | _ => True

-- What the batch has passed of the file it has come to.
def Covers (file batch : Uuid) (state : State) : Prop :=
  ∀ row ∈ state.batches, row.id = batch → row.providers ≠ [] → ∀ upper, row.upperBound = some upper → file ≤ upper →
    ((∃ cursor, row.cursor = some cursor ∧ file ≤ cursor) ∨ row.expanded = true) → (batch, file) ∈ state.examined

theorem expandBatch_covers (sound : Sound state) {file batch id : Uuid} {excluded : Uuid → Bool}
    (present : id = batch → file ∈ state.files) (covers : Covers file batch state) :
    Covers file batch (expandBatch state id excluded) := by
  unfold expandBatch
  split
  · exact covers
  next row found =>
    split
    · exact covers
    next open_ =>
      obtain ⟨member, rfl⟩ := batch_some found
      obtain ⟨pairs, -, grown⟩ := sound.chunk found excluded
      have cursor := expandChunk_cursor excluded state.files ⟨state.works, state.memberships, row⟩
      intro other there same providers upper bounded below passed
      rcases mem_setBatch there with ⟨old, -⟩ | ⟨rfl, -⟩
      · exact List.mem_append_left _ (covers other old same providers upper bounded below passed)
      · have id : row.id = batch := grown.id.symm.trans same
        have bounded : row.upperBound = some upper := grown.upperBound.symm.trans bounded
        by_cases before : ∃ cursor, row.cursor = some cursor ∧ file ≤ cursor
        · rw [grown.providers] at providers
          exact List.mem_append_left _ (covers row member id providers upper bounded below (.inl before))
        · have past : ∀ cursor, row.cursor = some cursor → cursor < file :=
            fun cursor stands => not_le.mp fun low => before ⟨cursor, stands, low⟩
          by_cases seen : file ∈ chunkIds state.files row
          · exact List.mem_append_right _ (List.mem_map.mpr ⟨file, seen, by rw [id]⟩)
          · obtain ⟨full, behind⟩ := chunkIds_covers bounded (present id) below past seen
            have nonempty : chunkIds state.files row ≠ [] := by
              intro empty
              rw [empty] at full
              exact absurd full (by decide)
            rcases passed with ⟨last, stands, low⟩ | done
            · rw [cursor, List.getLast?_eq_some_getLast nonempty, Option.some_or, Option.some.injEq] at stands
              rw [← stands] at low
              exact absurd low (not_le.mpr (behind _ (List.getLast_mem nonempty)))
            · simp only [expandChunk, decide_eq_true_eq] at done
              exact absurd full (not_le.mpr done)

theorem step_covers (sound : Sound state) {file batch : Uuid} {action : Action} (present : Present file batch state action)
    (covers : Covers file batch state) (stepped : step stopStatuses state action = some next) :
    Covers file batch next := by
  cases action with
  | expand id excluded =>
    cases stepped
    exact expandBatch_covers sound present covers
  | create providers distinct =>
    cases stepped
    intro row there same filled upper bounded below passed
    rcases List.mem_append.mp there with old | new
    · exact covers row old same filled upper bounded below passed
    · cases List.mem_singleton.mp new
      simp only at bounded filled passed
      simp [bounded, filled] at passed
  | claim worker work reason digest =>
    simp only [step, claimWork] at stepped
    split at stepped
    · cases stepped
    · split at stepped
      · cases stepped
        exact covers
      · split at stepped <;> cases stepped <;> exact covers
  | record worker result =>
    simp only [step, recordWork] at stepped
    split at stepped
    · cases stepped
    · split at stepped
      · cases stepped
        exact covers
      · split at stepped <;> cases stepped <;> exact covers
  | addFile file =>
    simp only [step] at stepped
    split at stepped <;> cases stepped
    exact covers
  | _ =>
    cases stepped
    exact covers

/-! ## Every run -/

abbrev AllTimely (stopStatuses : String → Option (List Nat)) : State → List Action → Prop :=
  Runs.Along (step stopStatuses) fun state action => timely state action = true

structure Kept (state : State) : Prop where
  single : Single state.works
  clean : state.refused = []
  failures : ∀ row ∈ state.works, row.failures = state.recorded.count (row.id, true)
  failed : ∀ row ∈ state.works, 5 ≤ row.failures → row.status = .failed
  counted : ∀ batch ∈ state.batches,
    batch.selected + batch.existing = (state.memberships.filter fun row => row.batchId = batch.id).length
  once : state.examined.Nodup

theorem run_sound {actions : List Action} (inside : AllTimely stopStatuses state actions) (sound : Sound state)
    (ran : Runs.run (step stopStatuses) state actions = some next) : Sound next :=
  Runs.run_keeps (fun _ _ _ held => step_sound held) actions inside sound ran

theorem run_keeps_ended {actions : List Action} (inside : AllTimely stopStatuses state actions) (sound : Sound state)
    (ran : Runs.run (step stopStatuses) state actions = some next) {id : Uuid} {row : Work}
    (found : state.work id = some row) (ended : row.active = false) : next.work id = some row := by
  induction actions generalizing state with
  | nil =>
    cases ran
    exact found
  | cons action rest ih =>
    obtain ⟨middle, stepped, ran⟩ := Runs.run_cons.mp ran
    exact ih (inside.tail stepped) (step_sound sound inside.head stepped) ran
      (step_keeps_ended sound inside.head stepped found ended)

theorem run_covers {actions : List Action} (inside : AllTimely stopStatuses state actions) (sound : Sound state)
    (ran : Runs.run (step stopStatuses) state actions = some next) {file batch : Uuid}
    (present : Runs.Along (step stopStatuses) (Present file batch) state actions) (covers : Covers file batch state) :
    Covers file batch next := by
  induction actions generalizing state with
  | nil =>
    cases ran
    exact covers
  | cons action rest ih =>
    obtain ⟨middle, stepped, ran⟩ := Runs.run_cons.mp ran
    exact ih (inside.tail stepped) (step_sound sound inside.head stepped) ran (present.tail stepped)
      (step_covers sound present.head covers stepped)

/-- While every record finds its row active: the rows and counts agree, a row that is over stays, and an expanded
batch has come to every file that stayed, once. -/
theorem lookups_keep_their_rows {files : List Uuid} {actions : List Action}
    (inside : AllTimely stopStatuses (State.initial files) actions)
    (ran : Runs.run (step stopStatuses) (State.initial files) actions = some state) :
    Kept state ∧
      (∀ id row, state.work id = some row → row.active = false → ∀ later final, AllTimely stopStatuses state later →
        Runs.run (step stopStatuses) state later = some final → final.work id = some row) ∧
      ∀ file batch, Runs.Along (step stopStatuses) (Present file batch) (State.initial files) actions →
        ∀ row ∈ state.batches, row.id = batch → row.expanded = true → row.providers ≠ [] →
          ∀ upper, row.upperBound = some upper → file ≤ upper → state.examined.count (batch, file) = 1 := by
  have sound := run_sound inside (Sound.initial files) ran
  refine ⟨⟨sound.single, sound.clean, sound.failures, sound.failed, sound.counted, sound.once⟩, ?_, ?_⟩
  · intro id row found ended later final inside ran
    exact run_keeps_ended inside sound ran found ended
  · intro file batch present row there same expanded filled upper bounded below
    have covers : Covers file batch (State.initial files) := by
      intro row there
      cases there
    have seen := run_covers inside (Sound.initial files) ran present covers row there same filled upper bounded below
      (.inr expanded)
    exact List.count_eq_one_of_mem sound.once seen

/-! ## A lease that runs out -/

namespace LateRecord

def found : LookupResult where
  mediaId := 7
  providerId := "tracklists"
  outcome := { status := "found", code := "found", retryAfter := none }
  warnings := []

def searched : List Action :=
  [.create ["tracklists"] (by decide), .expand 0 (fun _ => false)]

def retried : List Action :=
  searched ++ [.claim 0 0 none "hints", .record 0 none, .pass (60 * second), .claim 1 0 none "hints", .record 1 (some found)]

-- The second worker takes the row after the lease and completes it.
def overtaken : List Action :=
  searched ++ [.claim 0 0 none "hints", .pass (121 * second), .claim 1 0 none "hints", .record 1 (some found)]

abbrev after (actions : List Action) : Option State :=
  Runs.run (step fun _ => none) (State.initial [7]) actions

theorem retried_lookup_is_completed :
    (after retried).map (fun state => state.works.map fun row => (row.status, row.failures)) = some [(.completed, 1)] ∧
      ∀ state, after retried = some state → Kept state :=
  ⟨by decide, fun _ ran => (lookups_keep_their_rows (by decide) ran).1⟩

/-- The first worker's record makes the completed row active again, and where another batch has a fresh row for the
pair, the unique index refuses it. -/
theorem late_record_reopens_the_row :
    (after overtaken).map (fun state => state.works.map Work.status) = some [.completed] ∧
      (after (overtaken ++ [.record 0 none])).map (fun state => state.works.map Work.status) = some [.deferred] ∧
      (after (overtaken ++ [.create ["tracklists"] (by decide), .expand 1 (fun _ => false), .record 0 none])).map
        (fun state => state.refused) = some [0] := by
  decide

end LateRecord

end Phaze.Lookup
