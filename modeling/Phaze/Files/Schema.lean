import Phaze.Shared.OrderedDeletes

set_option autoImplicit false

/-!
# The foreign keys around `files`

The tables a row of `files` or `scan_batches` is reached from, with the columns that name other rows.
-/

namespace Phaze.Files

open ForeignKeys

inductive Table where
  | agents | scan_batches | orphan_companion_diagnostics | files
  | tracklists | tracklist_versions | tracklist_tracks | discogs_links
  | proposals | execution_log | analysis | analysis_window | metadata | tag_write_log
  | file_companions | dedup_resolution | cloud_job | cloud_budget | set_profile
  | companion_content_features | stage_skip | scheduling_ledger
  | provider_source_objects | provider_source_observations | provider_source_reads
  | provider_recording_candidates | provider_recording_selections | provider_selection_events
  | provider_acquisition_attempts | companion_import_runs | companion_import_items
deriving DecidableEq, Repr

inductive Column where
  | agent_id | batch_id | file_id | canonical_file_id | companion_id | media_id | source_file_id
  | tracklist_id | version_id | track_id | proposal_id
  | provider_object_id | source_observation_id | object_id | parent_id | conflict_with_id | observation_id
  | source_object_id | run_id
  -- `payload->>'file_id'` of a ledger row, which no constraint covers.
  | payload_file_id
deriving DecidableEq, Repr

def Table.all : List Table :=
  [.agents, .scan_batches, .orphan_companion_diagnostics, .files,
    .tracklists, .tracklist_versions, .tracklist_tracks, .discogs_links,
    .proposals, .execution_log, .analysis, .analysis_window, .metadata, .tag_write_log,
    .file_companions, .dedup_resolution, .cloud_job, .cloud_budget, .set_profile,
    .companion_content_features, .stage_skip, .scheduling_ledger,
    .provider_source_objects, .provider_source_observations, .provider_source_reads,
    .provider_recording_candidates, .provider_recording_selections, .provider_selection_events,
    .provider_acquisition_attempts, .companion_import_runs, .companion_import_items]

instance : Fintype Table := ⟨⟨Table.all, by decide⟩, fun table => by cases table <;> decide⟩

def Column.all : List Column :=
  [.agent_id, .batch_id, .file_id, .canonical_file_id, .companion_id, .media_id, .source_file_id,
    .tracklist_id, .version_id, .track_id, .proposal_id,
    .provider_object_id, .source_observation_id, .object_id, .parent_id, .conflict_with_id, .observation_id,
    .source_object_id, .run_id, .payload_file_id]

instance : Fintype Column := ⟨⟨Column.all, by decide⟩, fun column => by cases column <;> decide⟩

-- `ForeignKey(…)` and its `ondelete`
def schema : Schema Table Column
  | .scan_batches, .agent_id => some ⟨.agents, .restrict⟩
  | .orphan_companion_diagnostics, .batch_id => some ⟨.scan_batches, .cascade⟩
  | .files, .batch_id => some ⟨.scan_batches, .noAction⟩
  | .files, .agent_id => some ⟨.agents, .restrict⟩
  | .tracklists, .provider_object_id => some ⟨.provider_source_objects, .noAction⟩
  | .tracklists, .file_id => some ⟨.files, .noAction⟩
  | .tracklist_versions, .tracklist_id => some ⟨.tracklists, .noAction⟩
  | .tracklist_versions, .source_observation_id => some ⟨.provider_source_observations, .noAction⟩
  | .tracklist_tracks, .version_id => some ⟨.tracklist_versions, .noAction⟩
  | .discogs_links, .track_id => some ⟨.tracklist_tracks, .noAction⟩
  | .discogs_links, .source_observation_id => some ⟨.provider_source_observations, .noAction⟩
  | .proposals, .file_id => some ⟨.files, .noAction⟩
  | .execution_log, .proposal_id => some ⟨.proposals, .noAction⟩
  | .analysis, .file_id => some ⟨.files, .noAction⟩
  | .analysis_window, .file_id => some ⟨.files, .cascade⟩
  | .metadata, .file_id => some ⟨.files, .noAction⟩
  | .tag_write_log, .file_id => some ⟨.files, .noAction⟩
  | .file_companions, .companion_id => some ⟨.files, .cascade⟩
  | .file_companions, .media_id => some ⟨.files, .cascade⟩
  | .dedup_resolution, .file_id => some ⟨.files, .noAction⟩
  | .dedup_resolution, .canonical_file_id => some ⟨.files, .noAction⟩
  | .cloud_job, .file_id => some ⟨.files, .noAction⟩
  | .cloud_budget, .file_id => some ⟨.files, .cascade⟩
  | .set_profile, .file_id => some ⟨.files, .cascade⟩
  | .companion_content_features, .file_id => some ⟨.files, .cascade⟩
  | .stage_skip, .file_id => some ⟨.files, .noAction⟩
  | .provider_source_objects, .source_file_id => some ⟨.files, .setNull⟩
  | .provider_source_observations, .object_id => some ⟨.provider_source_objects, .noAction⟩
  | .provider_source_observations, .parent_id => some ⟨.provider_source_observations, .noAction⟩
  | .provider_source_observations, .conflict_with_id => some ⟨.provider_source_observations, .noAction⟩
  | .provider_source_reads, .object_id => some ⟨.provider_source_objects, .noAction⟩
  | .provider_source_reads, .observation_id => some ⟨.provider_source_observations, .noAction⟩
  | .provider_recording_candidates, .media_id => some ⟨.files, .cascade⟩
  | .provider_recording_candidates, .observation_id => some ⟨.provider_source_observations, .noAction⟩
  | .provider_recording_selections, .media_id => some ⟨.files, .cascade⟩
  | .provider_recording_selections, .observation_id => some ⟨.provider_source_observations, .noAction⟩
  | .provider_recording_selections, .tracklist_id => some ⟨.tracklists, .setNull⟩
  | .provider_recording_selections, .version_id => some ⟨.tracklist_versions, .setNull⟩
  | .provider_selection_events, .observation_id => some ⟨.provider_source_observations, .noAction⟩
  | .provider_acquisition_attempts, .source_object_id => some ⟨.provider_source_objects, .noAction⟩
  | .provider_acquisition_attempts, .observation_id => some ⟨.provider_source_observations, .noAction⟩
  | .companion_import_items, .run_id => some ⟨.companion_import_runs, .noAction⟩
  | .companion_import_items, .observation_id => some ⟨.provider_source_observations, .noAction⟩
  | _, _ => none

theorem schema_anchored : Anchored schema := by decide

end Phaze.Files
