import Phaze.Files.Schema

set_option autoImplicit false

/-!
# Deleting a scan or a file

`delete_scan_cascade` and `delete_file_cascade` take every row hanging off the files by one ordered
list of deletions, most foreign keys being declared without an `ondelete`. They do what the database
would do on its own if those keys, and a ledger row's `payload->>'file_id'`, were declared to cascade.
-/

namespace Phaze.Files

open ForeignKeys

-- Of what the rows hold beside their references only `scheduling_ledger.function` is read.
structure Facts where
  function : String
deriving DecidableEq

abbrev Entry (Id : Type) := Row Table Column Id Facts

variable {Id : Type}

/-! ## The statements -/

section Statements

variable (file_scope : Entry Id → Bool)

def files_in_scope : Scope Table Column Id Facts := .rows .files file_scope

def tracklists_in_scope : Scope Table Column Id Facts := .within .tracklists .file_id (files_in_scope file_scope)

def versions_in_scope : Scope Table Column Id Facts :=
  .within .tracklist_versions .tracklist_id (tracklists_in_scope file_scope)

def tracks_in_scope : Scope Table Column Id Facts :=
  .within .tracklist_tracks .version_id (versions_in_scope file_scope)

def proposals_in_scope : Scope Table Column Id Facts := .within .proposals .file_id (files_in_scope file_scope)

def file_descendant_steps : List (Statement Table Column Id Facts) :=
  [⟨.discogs_links, .refers [.track_id] (tracks_in_scope file_scope)⟩,
    ⟨.tracklist_tracks, .refers [.version_id] (versions_in_scope file_scope)⟩,
    ⟨.tracklist_versions, .refers [.tracklist_id] (tracklists_in_scope file_scope)⟩,
    ⟨.tracklists, .refers [.file_id] (files_in_scope file_scope)⟩,
    ⟨.execution_log, .refers [.proposal_id] (proposals_in_scope file_scope)⟩,
    ⟨.proposals, .refers [.file_id] (files_in_scope file_scope)⟩,
    ⟨.analysis, .refers [.file_id] (files_in_scope file_scope)⟩,
    ⟨.metadata, .refers [.file_id] (files_in_scope file_scope)⟩,
    ⟨.tag_write_log, .refers [.file_id] (files_in_scope file_scope)⟩,
    ⟨.file_companions, .refers [.media_id, .companion_id] (files_in_scope file_scope)⟩,
    ⟨.dedup_resolution, .refers [.file_id, .canonical_file_id] (files_in_scope file_scope)⟩,
    ⟨.cloud_job, .refers [.file_id] (files_in_scope file_scope)⟩,
    ⟨.cloud_budget, .refers [.file_id] (files_in_scope file_scope)⟩,
    ⟨.companion_content_features, .refers [.file_id] (files_in_scope file_scope)⟩,
    ⟨.stage_skip, .refers [.file_id] (files_in_scope file_scope)⟩,
    ⟨.scheduling_ledger, .refers [.payload_file_id] (files_in_scope file_scope)⟩]

end Statements

-- The rows counted for each table, and the `resolved` transitions recorded for each function.
structure Report where
  counts : List (Table × Nat)
  resolved : List (String × Nat)
deriving DecidableEq

-- `Counter(…).items()`
def counter (values : List String) : List (String × Nat) :=
  values.eraseDups.map fun value => (value, values.count value)

variable [DecidableEq Id]

def execute_ordered (ordered : List (Statement Table Column Id Facts)) (db : Database Table Column Id Facts) :
    Except Refusal (Database Table Column Id Facts × Report) := do
  let (after, answers) ← execute schema ordered db
  return (after,
    { counts := answers.map fun answer => (answer.1, answer.2.length)
      resolved := (answers.filter fun answer => answer.1 = .scheduling_ledger).flatMap fun answer =>
        counter (answer.2.map fun row => row.data.function) })

def scan_steps (batch_id : Id) : List (Statement Table Column Id Facts) :=
  file_descendant_steps (fun row => row.refs .batch_id = some batch_id) ++
    [⟨.files, .rows fun row => row.refs .batch_id = some batch_id⟩, ⟨.scan_batches, .rows fun row => row.id = batch_id⟩]

def file_steps (file_id : Id) : List (Statement Table Column Id Facts) :=
  file_descendant_steps (fun row => row.id = file_id) ++ [⟨.files, .rows fun row => row.id = file_id⟩]

def delete_scan_cascade (db : Database Table Column Id Facts) (batch_id : Id) :
    Except Refusal (Database Table Column Id Facts × Report) :=
  execute_ordered (scan_steps batch_id) db

def delete_file_cascade (db : Database Table Column Id Facts) (file_id : Id) :
    Except Refusal (Database Table Column Id Facts × Report) :=
  execute_ordered (file_steps file_id) db

end Phaze.Files
