import Phaze.Lookup.Protocol

set_option autoImplicit false

/-!
# What one chunk does

A chunk appends rows to the tables it writes, one membership for each pair it comes to, and leaves the other
batches alone.
-/

namespace Phaze.Lookup

open Provider (Uuid)

/-! ## Tables whose ids are positions -/

theorem eq_of_ids {works : List Work} (apart : (works.map (·.id)).Nodup) {first second : Work}
    (one : first ∈ works) (other : second ∈ works) (same : first.id = second.id) : first = second :=
  List.inj_on_of_nodup_map apart one other same

-- No two active rows share a pair.
def Single (works : List Work) : Prop :=
  ∀ first ∈ works, ∀ second ∈ works, first.active = true → second.active = true → first.pair = second.pair →
    first.id = second.id

/-! ## One chunk against the tables it started from -/

structure Grown (base : Chunk) (pairs : List (Uuid × String)) (chunk : Chunk) : Prop where
  works : ∃ added, chunk.works = base.works ++ added ∧ ∀ row ∈ added, row.status = .queued ∧ row.failures = 0
  members : ∃ added, chunk.memberships = base.memberships ++ added ∧
    (∀ row ∈ added, row.batchId = base.batch.id ∧ ∃ work ∈ chunk.works, work.id = row.workId ∧ work.pair ∈ pairs) ∧
    chunk.batch.selected + chunk.batch.existing = base.batch.selected + base.batch.existing + added.length
  ids : chunk.works.map (·.id) = List.range chunk.works.length
  single : Single chunk.works
  id : chunk.batch.id = base.batch.id
  providers : chunk.batch.providers = base.batch.providers
  upperBound : chunk.batch.upperBound = base.batch.upperBound

theorem Grown.start (base : Chunk) (ids : base.works.map (·.id) = List.range base.works.length)
    (single : Single base.works) : Grown base [] base where
  works := ⟨[], by simp⟩
  members := ⟨[], by simp⟩
  ids := ids
  single := single
  id := rfl
  providers := rfl
  upperBound := rfl

theorem Grown.apart {base chunk : Chunk} {pairs : List (Uuid × String)} (grown : Grown base pairs chunk) :
    (chunk.works.map (·.id)).Nodup := by
  rw [grown.ids]
  exact List.nodup_range

-- The memberships that the batch had before are of recordings that the chunk does not come to.
def Ahead (base : Chunk) (media : Uuid) : Prop :=
  ∀ row ∈ base.memberships, row.batchId = base.batch.id → ∃ work ∈ base.works, work.id = row.workId ∧
    work.mediaId ≠ media

-- A pair that is new to the batch has no membership yet.
theorem Grown.unenrolled {base chunk : Chunk} {pairs : List (Uuid × String)} (grown : Grown base pairs chunk)
    {media : Uuid} (ahead : Ahead base media) {provider : String} (fresh : (media, provider) ∉ pairs) {work : Work}
    (member : work ∈ chunk.works) (pair : work.pair = (media, provider)) :
    { batchId := chunk.batch.id, workId := work.id } ∉ chunk.memberships := by
  intro enrolled
  obtain ⟨addedWorks, worksEq, -⟩ := grown.works
  obtain ⟨added, membersEq, each, -⟩ := grown.members
  rw [membersEq] at enrolled
  rcases List.mem_append.mp enrolled with old | new
  · obtain ⟨other, there, same, differs⟩ := ahead _ old grown.id
    have inChunk : other ∈ chunk.works := by
      rw [worksEq]
      exact List.mem_append_left _ there
    have equal := eq_of_ids grown.apart inChunk member same
    subst equal
    exact differs (congrArg Prod.fst pair)
  · obtain ⟨-, other, there, same, known⟩ := each _ new
    have equal := eq_of_ids grown.apart there member same
    subst equal
    exact fresh (pair ▸ known)

theorem Grown.enrolled {base chunk : Chunk} {pairs : List (Uuid × String)} (grown : Grown base pairs chunk)
    {works : List Work} {work : Work} (kept : ∀ row ∈ chunk.works, row ∈ works) (member : work ∈ works)
    (selected existing : Nat)
    (counted : selected + existing = chunk.batch.selected + chunk.batch.existing + 1) :
    ∃ added, chunk.memberships ++ [{ batchId := chunk.batch.id, workId := work.id }] = base.memberships ++ added ∧
      (∀ row ∈ added, row.batchId = base.batch.id ∧ ∃ other ∈ works, other.id = row.workId ∧
        other.pair ∈ work.pair :: pairs) ∧
      selected + existing = base.batch.selected + base.batch.existing + added.length := by
  obtain ⟨added, membersEq, each, count⟩ := grown.members
  refine ⟨added ++ [{ batchId := chunk.batch.id, workId := work.id }], by rw [membersEq, List.append_assoc], ?_, ?_⟩
  · intro row there
    rcases List.mem_append.mp there with old | new
    · obtain ⟨batch, other, known, same, pair⟩ := each row old
      exact ⟨batch, other, kept other known, same, List.mem_cons_of_mem _ pair⟩
    · cases List.mem_singleton.mp new
      exact ⟨grown.id, work, member, rfl, List.mem_cons_self⟩
  · rw [counted, count, List.length_append, List.length_singleton, Nat.add_assoc]

theorem Grown.selectWork {base chunk : Chunk} {pairs : List (Uuid × String)} (grown : Grown base pairs chunk)
    {media : Uuid} (ahead : Ahead base media) {provider : String} (fresh : (media, provider) ∉ pairs) :
    Grown base ((media, provider) :: pairs) (selectWork media chunk provider) := by
  obtain ⟨addedWorks, worksEq, queued⟩ := grown.works
  unfold Lookup.selectWork
  split
  next missed =>
    have none : ∀ row ∈ chunk.works, row.pair = (media, provider) → row.active = false := by
      intro row member pair
      simpa [pair] using List.find?_eq_none.mp missed row member
    have work : (Work.queued chunk.works.length media provider).pair = (media, provider) := rfl
    have grows : ∀ row ∈ chunk.works, row ∈ chunk.works ++ [Work.queued chunk.works.length media provider] :=
      fun row member => List.mem_append_left _ member
    have ids : (chunk.works ++ [Work.queued chunk.works.length media provider]).map (·.id) =
        List.range (chunk.works ++ [Work.queued chunk.works.length media provider]).length := by
      rw [List.map_append, grown.ids, List.length_append, List.length_singleton, List.range_succ]
      rfl
    have unenrolled : { batchId := chunk.batch.id, workId := chunk.works.length } ∉ chunk.memberships := by
      intro enrolled
      obtain ⟨added, membersEq, each, -⟩ := grown.members
      have known : ∃ other ∈ chunk.works, other.id = chunk.works.length := by
        rw [membersEq] at enrolled
        rcases List.mem_append.mp enrolled with old | new
        · obtain ⟨other, there, same, -⟩ := ahead _ old grown.id
          refine ⟨other, ?_, same⟩
          rw [worksEq]
          exact List.mem_append_left _ there
        · obtain ⟨-, other, there, same, -⟩ := each _ new
          exact ⟨other, there, same⟩
      obtain ⟨other, there, same⟩ := known
      have listed : other.id ∈ chunk.works.map (·.id) := List.mem_map_of_mem there
      rw [grown.ids, List.mem_range, same] at listed
      exact absurd listed (lt_irrefl _)
    have members := grown.enrolled grows
      (List.mem_append_right _ (List.mem_singleton_self (Work.queued chunk.works.length media provider)))
      (chunk.batch.selected + 1) chunk.batch.existing (by omega)
    refine ⟨?_, ?_, ids, ?_, grown.id, grown.providers, grown.upperBound⟩
    · refine ⟨addedWorks ++ [Work.queued chunk.works.length media provider], ?_, ?_⟩
      · simp [worksEq]
      · intro row there
        rcases List.mem_append.mp there with old | new
        · exact queued row old
        · cases List.mem_singleton.mp new
          exact ⟨rfl, rfl⟩
    · simp only [enroll, Work.queued, unenrolled, if_false]
      exact members
    · intro first one second other firstActive secondActive same
      rcases List.mem_append.mp one with old | new <;> rcases List.mem_append.mp other with alsoOld | alsoNew
      · exact grown.single first old second alsoOld firstActive secondActive same
      · cases List.mem_singleton.mp alsoNew
        rw [none first old same] at firstActive
        cases firstActive
      · cases List.mem_singleton.mp new
        rw [none second alsoOld same.symm] at secondActive
        cases secondActive
      · cases List.mem_singleton.mp new
        cases List.mem_singleton.mp alsoNew
        rfl
  next work found =>
    have member := List.mem_of_find?_eq_some found
    have pair : work.pair = (media, provider) := by
      have := List.find?_some found
      simp only [Bool.and_eq_true, decide_eq_true_eq] at this
      exact this.1
    have members := grown.enrolled (fun row there => there) member chunk.batch.selected (chunk.batch.existing + 1)
      (by omega)
    refine ⟨grown.works, ?_, grown.ids, grown.single, grown.id, grown.providers, grown.upperBound⟩
    simp only [enroll, grown.unenrolled ahead fresh member pair, if_false]
    rw [← pair]
    exact members

/-! ## A recording, then a chunk of them -/

-- What the expansion has come to of the batch: the pairs of the recordings in `done`.
def Within (done : List Uuid) (pairs : List (Uuid × String)) : Prop :=
  ∀ pair ∈ pairs, pair.1 ∈ done

theorem Grown.recount {base chunk : Chunk} {pairs : List (Uuid × String)} (grown : Grown base pairs chunk) {batch : Batch}
    (id : batch.id = chunk.batch.id) (providers : batch.providers = chunk.batch.providers)
    (upperBound : batch.upperBound = chunk.batch.upperBound)
    (counted : batch.selected + batch.existing = chunk.batch.selected + chunk.batch.existing) :
    Grown base pairs { chunk with batch := batch } where
  works := grown.works
  members := by
    obtain ⟨added, same, each, count⟩ := grown.members
    exact ⟨added, same, each, counted.trans count⟩
  ids := grown.ids
  single := grown.single
  id := id.trans grown.id
  providers := providers.trans grown.providers
  upperBound := upperBound.trans grown.upperBound

theorem Grown.selectAll {base chunk : Chunk} {pairs : List (Uuid × String)} (grown : Grown base pairs chunk) {media : Uuid}
    (ahead : Ahead base media) {providers : List String} (distinct : providers.Nodup)
    (fresh : ∀ provider ∈ providers, (media, provider) ∉ pairs) :
    ∃ more, Grown base more (providers.foldl (Lookup.selectWork media) chunk) ∧
      ∀ pair ∈ more, pair ∈ pairs ∨ pair.1 = media := by
  induction providers generalizing chunk pairs with
  | nil => exact ⟨pairs, grown, fun pair member => .inl member⟩
  | cons provider rest ih =>
    rw [List.nodup_cons] at distinct
    have next := grown.selectWork ahead (fresh provider List.mem_cons_self)
    obtain ⟨more, final, within⟩ := ih next distinct.2 fun other member known => by
      rcases List.mem_cons.mp known with same | old
      · cases same
        exact distinct.1 member
      · exact fresh other (List.mem_cons_of_mem _ member) old
    refine ⟨more, final, fun pair member => ?_⟩
    rcases within pair member with old | new
    · rcases List.mem_cons.mp old with rfl | old
      · exact .inr rfl
      · exact .inl old
    · exact .inr new

theorem Grown.examine {base chunk : Chunk} {pairs : List (Uuid × String)} (grown : Grown base pairs chunk)
    {done : List Uuid} (within : Within done pairs) (excluded : Uuid → Bool) {media : Uuid} (ahead : Ahead base media)
    (unseen : media ∉ done) (distinct : base.batch.providers.Nodup) :
    ∃ more, Grown base more (Lookup.examine excluded chunk media) ∧ Within (media :: done) more := by
  unfold Lookup.examine
  by_cases out : excluded media = true
  · simp only [out, if_true]
    exact ⟨pairs, grown.recount rfl rfl rfl rfl, fun pair member => List.mem_cons_of_mem _ (within pair member)⟩
  · simp only [out]
    rw [← grown.providers] at distinct
    obtain ⟨more, final, all⟩ := grown.selectAll ahead distinct
      fun provider _ known => unseen (within _ known)
    refine ⟨more, final.recount rfl rfl rfl rfl, fun pair member => ?_⟩
    rcases all pair member with old | rfl
    · exact List.mem_cons_of_mem _ (within pair old)
    · exact List.mem_cons_self

theorem Grown.examineAll {base chunk : Chunk} {pairs : List (Uuid × String)} (grown : Grown base pairs chunk)
    {done : List Uuid} (within : Within done pairs) (excluded : Uuid → Bool) {ids : List Uuid}
    (ahead : ∀ media ∈ ids, Ahead base media) (apart : ids.Nodup) (unseen : ∀ media ∈ ids, media ∉ done)
    (distinct : base.batch.providers.Nodup) :
    ∃ more, Grown base more (ids.foldl (Lookup.examine excluded) chunk) ∧ Within (ids ++ done) more := by
  induction ids generalizing chunk pairs done with
  | nil => exact ⟨pairs, grown, within⟩
  | cons media rest ih =>
    rw [List.nodup_cons] at apart
    obtain ⟨pairs, next, covers⟩ :=
      grown.examine within excluded (ahead media List.mem_cons_self) (unseen media List.mem_cons_self) distinct
    obtain ⟨more, final, all⟩ := ih next covers (fun other member => ahead other (List.mem_cons_of_mem _ member)) apart.2
      fun other member known => by
        rcases List.mem_cons.mp known with rfl | old
        · exact apart.1 member
        · exact unseen other (List.mem_cons_of_mem _ member) old
    refine ⟨more, final, fun pair member => ?_⟩
    have := all pair member
    simp only [List.mem_append, List.mem_cons, List.cons_append] at this ⊢
    tauto

theorem examineAll_cursor (excluded : Uuid → Bool) (ids : List Uuid) (chunk : Chunk) :
    (ids.foldl (examine excluded) chunk).batch.cursor = (ids.getLast?).or chunk.batch.cursor := by
  induction ids using List.reverseRecOn with
  | nil => simp
  | append_singleton ids media _ => simp [List.foldl_append, examine]

/-! ## The ids of a chunk -/

theorem chunkIds_mem {files : List Uuid} {batch : Batch} {media : Uuid} (member : media ∈ chunkIds files batch) :
    media ∈ files ∧ (∀ upper, batch.upperBound = some upper → media ≤ upper) ∧
      ∀ cursor, batch.cursor = some cursor → cursor < media := by
  unfold chunkIds at member
  split at member
  · cases member
  next upper bounded =>
    obtain ⟨there, past⟩ := Keyset.mem_behind.mp (Keyset.mem_page member)
    simp only [List.mem_filter, decide_eq_true_eq] at there
    exact ⟨there.1, fun other same => by cases bounded.symm.trans same; exact there.2, past⟩

theorem chunkIds_sorted (files : List Uuid) (batch : Batch) : (chunkIds files batch).Pairwise (· < ·) := by
  unfold chunkIds
  split
  · exact .nil
  · exact Keyset.page_sorted _ _ _

-- A file that the chunk leaves out lies behind everything it comes to.
theorem chunkIds_covers {files : List Uuid} {batch : Batch} {media upper : Uuid} (bounded : batch.upperBound = some upper)
    (present : media ∈ files) (below : media ≤ upper) (past : ∀ cursor, batch.cursor = some cursor → cursor < media)
    (missed : media ∉ chunkIds files batch) :
    chunkSize ≤ (chunkIds files batch).length ∧ ∀ other ∈ chunkIds files batch, other < media := by
  unfold chunkIds at missed ⊢
  rw [bounded] at missed ⊢
  simp only at missed ⊢
  refine Keyset.page_covers (fun first _ second _ same => same) ?_ missed
  exact Keyset.mem_behind.mpr ⟨List.mem_filter.mpr ⟨present, by simpa using below⟩, past⟩

end Phaze.Lookup
