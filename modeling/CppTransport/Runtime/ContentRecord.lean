import CppTransport.Library.Json
import Mathlib.Data.Finset.Sort

/-!
# Records of content groups

A content-group record is stored as a JSON object. The serializers of the record, of its payload and
of its base class write into the same object, and the metadata of each into objects inside it; the
deserialization constructors read the members back one by one.

Each serializer is modelled by the log of what it writes, under the paths of keys that it writes to.
The formats in which `boost::posix_time` writes and reads times are parameters.

## What is proved

No serializer writes to or through a member that another one has written (`Layout.Apart`). So the
deserialization constructors give back each record of each of the three kinds of payload, field by
field (`round_trip`).
-/

namespace CppTransport.Runtime.ContentRecord

open Library Json Value

/-! ### Keys -/

def CPPTRANSPORT_NODE_NOTE_UID : String := "uid"
def CPPTRANSPORT_NODE_NOTE_NOTE : String := "note"
def CPPTRANSPORT_NODE_NOTE_TIMESTAMP : String := "timestamp"

def CPPTRANSPORT_NODE_HISTORY_USERID : String := "uid"
def CPPTRANSPORT_NODE_HISTORY_ACTION : String := "action"
def CPPTRANSPORT_NODE_HISTORY_INFO : String := "info"
def CPPTRANSPORT_NODE_HISTORY_TIMESTAMP : String := "timestamp"

def CPPTRANSPORT_NODE_METADATA_GROUP : String := "metadata"
def CPPTRANSPORT_NODE_METADATA_CREATED : String := "created"
def CPPTRANSPORT_NODE_METADATA_EDITED : String := "edited"
def CPPTRANSPORT_NODE_METADATA_RUNTIME_API : String := "api"
def CPPTRANSPORT_NODE_METADATA_HISTORY : String := "history"

def CPPTRANSPORT_NODE_RECORD_NAME : String := "name"
def CPPTRANSPORT_NODE_RECORD_TYPE : String := "record-type"
def CPPTRANSPORT_NODE_RECORD_CONTENT : String := "content-group"

def CPPTRANSPORT_NODE_OUTPUTGROUP_TASK_NAME : String := "parent-task"
def CPPTRANSPORT_NODE_OUTPUTGROUP_DATA_ROOT : String := "output-path"
def CPPTRANSPORT_NODE_OUTPUTGROUP_LOCKED : String := "locked"
def CPPTRANSPORT_NODE_OUTPUTGROUP_NOTES : String := "notes"
def CPPTRANSPORT_NODE_OUTPUTGROUP_TAGS : String := "tags"

def CPPTRANSPORT_NODE_PAYLOAD_INTEGRATION_DATABASE : String := "database-path"
def CPPTRANSPORT_NODE_PAYLOAD_INTEGRATION_FAILED : String := "failed"
def CPPTRANSPORT_NODE_PAYLOAD_INTEGRATION_WORKGROUP : String := "workgroup"
def CPPTRANSPORT_NODE_PAYLOAD_INTEGRATION_FAILED_SERIALS : String := "failed-serials"
def CPPTRANSPORT_NODE_PAYLOAD_INTEGRATION_SEEDED : String := "seeded"
def CPPTRANSPORT_NODE_PAYLOAD_INTEGRATION_SEED_GROUP : String := "seed-group"
def CPPTRANSPORT_NODE_PAYLOAD_INTEGRATION_STATISTICS : String := "has-statistics"
def CPPTRANSPORT_NODE_PAYLOAD_INTEGRATION_ICS : String := "has-ics"
def CPPTRANSPORT_NODE_PAYLOAD_INTEGRATION_SIZE : String := "size"
def CPPTRANSPORT_NODE_PAYLOAD_INTEGRATION_DATA_TYPE : String := "data-type"

def CPPTRANSPORT_NODE_PAYLOAD_POSTINTEGRATION_DATABASE : String := "database-path"
def CPPTRANSPORT_NODE_PAYLOAD_POSTINTEGRATION_FAILED : String := "failed"
def CPPTRANSPORT_NODE_PAYLOAD_POSTINTEGRATION_PAIRED : String := "paired"
def CPPTRANSPORT_NODE_PAYLOAD_POSTINTEGRATION_PARENT_GROUP : String := "parent-group"
def CPPTRANSPORT_NODE_PAYLOAD_POSTINTEGRATION_SEEDED : String := "seeded"
def CPPTRANSPORT_NODE_PAYLOAD_POSTINTEGRATION_SEED_GROUP : String := "seed-group"
def CPPTRANSPORT_NODE_PAYLOAD_POSTINTEGRATION_FAILED_SERIALS : String := "failed-serials"
def CPPTRANSPORT_NODE_PAYLOAD_POSTINTEGRATION_SIZE : String := "size"

def CPPTRANSPORT_NODE_PRECOMPUTED_ROOT : String := "contains-products"
def CPPTRANSPORT_NODE_PRECOMPUTED_ZETA_TWOPF : String := "zeta-twopf"
def CPPTRANSPORT_NODE_PRECOMPUTED_ZETA_THREEPF : String := "zeta-threepf"
def CPPTRANSPORT_NODE_PRECOMPUTED_ZETA_REDBSP : String := "zeta-redbsp"
def CPPTRANSPORT_NODE_PRECOMPUTED_FNL_LOCAL : String := "fNL_local"
def CPPTRANSPORT_NODE_PRECOMPUTED_FNL_EQUI : String := "fNL_equi"
def CPPTRANSPORT_NODE_PRECOMPUTED_FNL_ORTHO : String := "fNL_ortho"
def CPPTRANSPORT_NODE_PRECOMPUTED_FNL_DBI : String := "fNL_DBI"

def CPPTRANSPORT_NODE_PAYLOAD_CONTENT_FAILED : String := "failed"
def CPPTRANSPORT_NODE_PAYLOAD_CONTENT_ARRAY : String := "generated-products"
def CPPTRANSPORT_NODE_PAYLOAD_CONTENT_USED_GROUPS : String := "used-content-groups"
def CPPTRANSPORT_NODE_PAYLOAD_CONTENT_PRODUCT_NAME : String := "parent-product"
def CPPTRANSPORT_NODE_PAYLOAD_CONTENT_FILENAME : String := "filename"
def CPPTRANSPORT_NODE_PAYLOAD_CONTENT_CREATED : String := "creation-time"
def CPPTRANSPORT_NODE_PAYLOAD_CONTENT_NOTES : String := "notes"
def CPPTRANSPORT_NODE_PAYLOAD_CONTENT_TAGS : String := "tags"
def CPPTRANSPORT_NODE_PAYLOAD_GROUPS_SUMMARY : String := "content-groups-summary"

def CPPTRANSPORT_NODE_TIMINGDATA_GROUP : String := "integration-metadata"
def CPPTRANSPORT_NODE_TIMINGDATA_TOTAL_WALLCLOCK_TIME : String := "total-wallclock-time"
def CPPTRANSPORT_NODE_TIMINGDATA_TOTAL_AGG_TIME : String := "total-aggregation-time"
def CPPTRANSPORT_NODE_TIMINGDATA_TOTAL_INT_TIME : String := "total-integration-time"
def CPPTRANSPORT_NODE_TIMINGDATA_GLOBAL_MIN_INT_TIME : String := "global-min-integration-time"
def CPPTRANSPORT_NODE_TIMINGDATA_GLOBAL_MAX_INT_TIME : String := "global-max-integration-time"
def CPPTRANSPORT_NODE_TIMINGDATA_TOTAL_BATCH_TIME : String := "total-batching-time"
def CPPTRANSPORT_NODE_TIMINGDATA_GLOBAL_MIN_BATCH_TIME : String := "global-min-batching-time"
def CPPTRANSPORT_NODE_TIMINGDATA_GLOBAL_MAX_BATCH_TIME : String := "global-max-batching-time"
def CPPTRANSPORT_NODE_TIMINGDATA_NUM_CONFIGURATIONS : String := "configurations-processed"
def CPPTRANSPORT_NODE_TIMINGDATA_NUM_FAILURES : String := "configurations-failed"
def CPPTRANSPORT_NODE_TIMINGDATA_NUM_REFINED : String := "configurations-refined"

def CPPTRANSPORT_NODE_OUTPUTDATA_GROUP : String := "output-metadata"
def CPPTRANSPORT_NODE_OUTPUTDATA_TOTAL_WALLCLOCK_TIME : String := "total-wallclock-time"
def CPPTRANSPORT_NODE_OUTPUTDATA_TOTAL_DB_TIME : String := "total-db-time"
def CPPTRANSPORT_NODE_OUTPUTDATA_TOTAL_AGG_TIME : String := "total-aggregation-time"
def CPPTRANSPORT_NODE_OUTPUTDATA_TIME_CACHE_HITS : String := "time-cache-hits"
def CPPTRANSPORT_NODE_OUTPUTDATA_TIME_CACHE_UNLOADS : String := "time-cache-unloads"
def CPPTRANSPORT_NODE_OUTPUTDATA_TWOPF_CACHE_HITS : String := "twopf-cache-hits"
def CPPTRANSPORT_NODE_OUTPUTDATA_TWOPF_CACHE_UNLOADS : String := "twopf-cache-unloads"
def CPPTRANSPORT_NODE_OUTPUTDATA_THREEPF_CACHE_HITS : String := "threepf-cache-hits"
def CPPTRANSPORT_NODE_OUTPUTDATA_THREEPF_CACHE_UNLOADS : String := "threepf-cache-unloads"
def CPPTRANSPORT_NODE_OUTPUTDATA_DATA_CACHE_HITS : String := "data-cache-hits"
def CPPTRANSPORT_NODE_OUTPUTDATA_DATA_CACHE_UNLOADS : String := "data-cache-unloads"
def CPPTRANSPORT_NODE_OUTPUTDATA_STATS_CACHE_HITS : String := "stats-cache-hits"
def CPPTRANSPORT_NODE_OUTPUTDATA_STATS_CACHE_UNLOADS : String := "stats-cache-unloads"
def CPPTRANSPORT_NODE_OUTPUTDATA_TIME_CACHE_EVICTIONS : String := "time-cache-evictions"
def CPPTRANSPORT_NODE_OUTPUTDATA_TWOPF_CACHE_EVICTIONS : String := "twopf-cache-evictions"
def CPPTRANSPORT_NODE_OUTPUTDATA_THREEPF_CACHE_EVICTIONS : String := "threepf-cache-evictions"
def CPPTRANSPORT_NODE_OUTPUTDATA_DATA_CACHE_EVICTIONS : String := "data-cache-evictions"
def CPPTRANSPORT_NODE_OUTPUTDATA_STATS_CACHE_EVICTIONS : String := "stats-cache-evictions"

/-! ### Times, notes and history -/

/-- How times are written and read. -/
structure IsoFormat (ptime : Type) where
  to_iso_string : ptime → String
  from_iso_string : String → Except String ptime

variable {ptime : Type} (f : IsoFormat ptime)

/-- A time that has been written. -/
def asTime (v : Value) : Except String ptime := do f.from_iso_string (← v.asString)

/-- A note that is attached to a record. -/
structure note (ptime : Type) where
  uid : String
  text : String
  timestamp : ptime

def note.serialize (n : note ptime) : Log :=
  [([CPPTRANSPORT_NODE_NOTE_UID], .string n.uid),
    ([CPPTRANSPORT_NODE_NOTE_NOTE], .string n.text),
    ([CPPTRANSPORT_NODE_NOTE_TIMESTAMP], .string (f.to_iso_string n.timestamp))]

def note.deserialize (reader : Value) : Except String (note ptime) := do
  let uid ← get [CPPTRANSPORT_NODE_NOTE_UID] asString reader
  let text ← get [CPPTRANSPORT_NODE_NOTE_NOTE] asString reader
  let timestamp ← get [CPPTRANSPORT_NODE_NOTE_TIMESTAMP] (asTime f) reader
  return { uid, text, timestamp }

/-- What has been done to a record. -/
inductive history_actions where
  | created
  | add_tag
  | remove_tag
  | add_note
  | remove_note
  | locked
  | unlocked
  | add_content
  | remove_content
deriving DecidableEq, Repr

def history_actions.text : history_actions → String
  | created => "created"
  | add_tag => "add-tag"
  | remove_tag => "remove-tag"
  | add_note => "add-note"
  | remove_note => "remove-note"
  | locked => "lock"
  | unlocked => "unlock"
  | add_content => "add-content"
  | remove_content => "remove-content"

def CPPTRANSPORT_UNKNOWN_METADATA_HISTORY_ACTION : String := "Internal error: Unknown metadata history action"

def history_actions.of_text (s : String) : Except String history_actions :=
  match [created, add_tag, remove_tag, add_note, remove_note, locked, unlocked, add_content, remove_content].find?
    fun a => s = a.text with
  | some a => .ok a
  | none => .error (CPPTRANSPORT_UNKNOWN_METADATA_HISTORY_ACTION ++ " '" ++ s ++ "'")

structure metadata_history (ptime : Type) where
  user_id : String
  action : history_actions
  info : String
  timestamp : ptime

def metadata_history.serialize (h : metadata_history ptime) : Log :=
  [([CPPTRANSPORT_NODE_HISTORY_USERID], .string h.user_id),
    ([CPPTRANSPORT_NODE_HISTORY_INFO], .string h.info),
    ([CPPTRANSPORT_NODE_HISTORY_TIMESTAMP], .string (f.to_iso_string h.timestamp)),
    ([CPPTRANSPORT_NODE_HISTORY_ACTION], .string h.action.text)]

def metadata_history.deserialize (reader : Value) : Except String (metadata_history ptime) := do
  let user_id ← get [CPPTRANSPORT_NODE_HISTORY_USERID] asString reader
  let info ← get [CPPTRANSPORT_NODE_HISTORY_INFO] asString reader
  let timestamp ← get [CPPTRANSPORT_NODE_HISTORY_TIMESTAMP] (asTime f) reader
  let action_str ← get [CPPTRANSPORT_NODE_HISTORY_ACTION] asString reader
  let action ← history_actions.of_text action_str
  return { user_id, action, info, timestamp }

/-- An object with what a serializer writes. -/
def element (log : Log) : Except String Value := writeAll log (.object [])

/-! ### The base class -/

structure record_metadata (ptime : Type) where
  creation_time : ptime
  last_edit_time : ptime
  runtime_api : UInt
  history : List (metadata_history ptime)

/-- What is written, with the array of the history. -/
def record_metadata.log (m : record_metadata ptime) (history : Value) : Log :=
  [([CPPTRANSPORT_NODE_METADATA_GROUP, CPPTRANSPORT_NODE_METADATA_CREATED],
      .string (f.to_iso_string m.creation_time)),
    ([CPPTRANSPORT_NODE_METADATA_GROUP, CPPTRANSPORT_NODE_METADATA_EDITED],
      .string (f.to_iso_string m.last_edit_time)),
    ([CPPTRANSPORT_NODE_METADATA_GROUP, CPPTRANSPORT_NODE_METADATA_RUNTIME_API], .int m.runtime_api.val),
    ([CPPTRANSPORT_NODE_METADATA_GROUP, CPPTRANSPORT_NODE_METADATA_HISTORY], history)]

def record_metadata.serialize (m : record_metadata ptime) : Except String Log := do
  return m.log f (← writeList (fun h => element (h.serialize f)) m.history)

def record_metadata.deserialize (reader : Value) : Except String (record_metadata ptime) := do
  let creation_time ← get [CPPTRANSPORT_NODE_METADATA_GROUP, CPPTRANSPORT_NODE_METADATA_CREATED] (asTime f) reader
  let last_edit_time ← get [CPPTRANSPORT_NODE_METADATA_GROUP, CPPTRANSPORT_NODE_METADATA_EDITED] (asTime f) reader
  let runtime_api ← get [CPPTRANSPORT_NODE_METADATA_GROUP, CPPTRANSPORT_NODE_METADATA_RUNTIME_API] asUInt reader
  let history ← get [CPPTRANSPORT_NODE_METADATA_GROUP, CPPTRANSPORT_NODE_METADATA_HISTORY]
    (readList (metadata_history.deserialize f)) reader
  return { creation_time, last_edit_time, runtime_api, history }

structure repository_record (ptime : Type) where
  name : String
  metadata : record_metadata ptime

def repository_record.serialize (r : repository_record ptime) : Except String Log := do
  return ([CPPTRANSPORT_NODE_RECORD_NAME], .string r.name) :: (← r.metadata.serialize f)

def repository_record.deserialize (reader : Value) : Except String (repository_record ptime) := do
  let metadata ← record_metadata.deserialize f reader
  let name ← get [CPPTRANSPORT_NODE_RECORD_NAME] asString reader
  return { name, metadata }

/-! ### Metadata of payloads -/

structure integration_metadata where
  total_wallclock_time : LargestInt
  total_aggregation_time : LargestInt
  total_integration_time : LargestInt
  global_min_integration_time : LargestInt
  global_max_integration_time : LargestInt
  total_batching_time : LargestInt
  global_min_batching_time : LargestInt
  global_max_batching_time : LargestInt
  total_configurations : UInt
  total_failures : UInt
  total_refinements : UInt

def integration_metadata.serialize (m : integration_metadata) : Log :=
  [([CPPTRANSPORT_NODE_TIMINGDATA_GROUP, CPPTRANSPORT_NODE_TIMINGDATA_TOTAL_WALLCLOCK_TIME],
      .int m.total_wallclock_time),
    ([CPPTRANSPORT_NODE_TIMINGDATA_GROUP, CPPTRANSPORT_NODE_TIMINGDATA_TOTAL_AGG_TIME], .int m.total_aggregation_time),
    ([CPPTRANSPORT_NODE_TIMINGDATA_GROUP, CPPTRANSPORT_NODE_TIMINGDATA_TOTAL_INT_TIME], .int m.total_integration_time),
    ([CPPTRANSPORT_NODE_TIMINGDATA_GROUP, CPPTRANSPORT_NODE_TIMINGDATA_GLOBAL_MIN_INT_TIME],
      .int m.global_min_integration_time),
    ([CPPTRANSPORT_NODE_TIMINGDATA_GROUP, CPPTRANSPORT_NODE_TIMINGDATA_GLOBAL_MAX_INT_TIME],
      .int m.global_max_integration_time),
    ([CPPTRANSPORT_NODE_TIMINGDATA_GROUP, CPPTRANSPORT_NODE_TIMINGDATA_TOTAL_BATCH_TIME], .int m.total_batching_time),
    ([CPPTRANSPORT_NODE_TIMINGDATA_GROUP, CPPTRANSPORT_NODE_TIMINGDATA_GLOBAL_MIN_BATCH_TIME],
      .int m.global_min_batching_time),
    ([CPPTRANSPORT_NODE_TIMINGDATA_GROUP, CPPTRANSPORT_NODE_TIMINGDATA_GLOBAL_MAX_BATCH_TIME],
      .int m.global_max_batching_time),
    ([CPPTRANSPORT_NODE_TIMINGDATA_GROUP, CPPTRANSPORT_NODE_TIMINGDATA_NUM_CONFIGURATIONS],
      .int m.total_configurations.val),
    ([CPPTRANSPORT_NODE_TIMINGDATA_GROUP, CPPTRANSPORT_NODE_TIMINGDATA_NUM_FAILURES], .int m.total_failures.val),
    ([CPPTRANSPORT_NODE_TIMINGDATA_GROUP, CPPTRANSPORT_NODE_TIMINGDATA_NUM_REFINED], .int m.total_refinements.val)]

def integration_metadata.deserialize (reader : Value) : Except String integration_metadata := do
  let group := CPPTRANSPORT_NODE_TIMINGDATA_GROUP
  return {
    total_wallclock_time := ← get [group, CPPTRANSPORT_NODE_TIMINGDATA_TOTAL_WALLCLOCK_TIME] asLargestInt reader
    total_aggregation_time := ← get [group, CPPTRANSPORT_NODE_TIMINGDATA_TOTAL_AGG_TIME] asLargestInt reader
    total_integration_time := ← get [group, CPPTRANSPORT_NODE_TIMINGDATA_TOTAL_INT_TIME] asLargestInt reader
    global_min_integration_time := ←
      get [group, CPPTRANSPORT_NODE_TIMINGDATA_GLOBAL_MIN_INT_TIME] asLargestInt reader
    global_max_integration_time := ←
      get [group, CPPTRANSPORT_NODE_TIMINGDATA_GLOBAL_MAX_INT_TIME] asLargestInt reader
    total_batching_time := ← get [group, CPPTRANSPORT_NODE_TIMINGDATA_TOTAL_BATCH_TIME] asLargestInt reader
    global_min_batching_time := ←
      get [group, CPPTRANSPORT_NODE_TIMINGDATA_GLOBAL_MIN_BATCH_TIME] asLargestInt reader
    global_max_batching_time := ←
      get [group, CPPTRANSPORT_NODE_TIMINGDATA_GLOBAL_MAX_BATCH_TIME] asLargestInt reader
    total_configurations := ← get [group, CPPTRANSPORT_NODE_TIMINGDATA_NUM_CONFIGURATIONS] asUInt reader
    total_failures := ← get [group, CPPTRANSPORT_NODE_TIMINGDATA_NUM_FAILURES] asUInt reader
    total_refinements := ← get [group, CPPTRANSPORT_NODE_TIMINGDATA_NUM_REFINED] asUInt reader }

structure output_metadata where
  work_time : LargestInt
  db_time : LargestInt
  aggregation_time : LargestInt
  time_config_hits : UInt
  twopf_kconfig_hits : UInt
  threepf_kconfig_hits : UInt
  stats_hits : UInt
  data_hits : UInt
  time_config_unloads : UInt
  twopf_kconfig_unloads : UInt
  threepf_kconfig_unloads : UInt
  stats_unloads : UInt
  data_unloads : UInt
  time_config_evictions : LargestInt
  twopf_kconfig_evictions : LargestInt
  threepf_kconfig_evictions : LargestInt
  stats_evictions : LargestInt
  data_evictions : LargestInt

def output_metadata.serialize (m : output_metadata) : Log :=
  let group := CPPTRANSPORT_NODE_OUTPUTDATA_GROUP
  [([group, CPPTRANSPORT_NODE_OUTPUTDATA_TOTAL_WALLCLOCK_TIME], .int m.work_time),
    ([group, CPPTRANSPORT_NODE_OUTPUTDATA_TOTAL_DB_TIME], .int m.db_time),
    ([group, CPPTRANSPORT_NODE_OUTPUTDATA_TOTAL_AGG_TIME], .int m.aggregation_time),
    ([group, CPPTRANSPORT_NODE_OUTPUTDATA_TIME_CACHE_HITS], .int m.time_config_hits.val),
    ([group, CPPTRANSPORT_NODE_OUTPUTDATA_TIME_CACHE_UNLOADS], .int m.time_config_unloads.val),
    ([group, CPPTRANSPORT_NODE_OUTPUTDATA_TWOPF_CACHE_HITS], .int m.twopf_kconfig_hits.val),
    ([group, CPPTRANSPORT_NODE_OUTPUTDATA_TWOPF_CACHE_UNLOADS], .int m.twopf_kconfig_unloads.val),
    ([group, CPPTRANSPORT_NODE_OUTPUTDATA_THREEPF_CACHE_HITS], .int m.threepf_kconfig_hits.val),
    ([group, CPPTRANSPORT_NODE_OUTPUTDATA_THREEPF_CACHE_UNLOADS], .int m.threepf_kconfig_unloads.val),
    ([group, CPPTRANSPORT_NODE_OUTPUTDATA_STATS_CACHE_HITS], .int m.stats_hits.val),
    ([group, CPPTRANSPORT_NODE_OUTPUTDATA_STATS_CACHE_UNLOADS], .int m.stats_unloads.val),
    ([group, CPPTRANSPORT_NODE_OUTPUTDATA_DATA_CACHE_HITS], .int m.data_hits.val),
    ([group, CPPTRANSPORT_NODE_OUTPUTDATA_DATA_CACHE_UNLOADS], .int m.data_unloads.val),
    ([group, CPPTRANSPORT_NODE_OUTPUTDATA_TIME_CACHE_EVICTIONS], .int m.time_config_evictions),
    ([group, CPPTRANSPORT_NODE_OUTPUTDATA_TWOPF_CACHE_EVICTIONS], .int m.twopf_kconfig_evictions),
    ([group, CPPTRANSPORT_NODE_OUTPUTDATA_THREEPF_CACHE_EVICTIONS], .int m.threepf_kconfig_evictions),
    ([group, CPPTRANSPORT_NODE_OUTPUTDATA_STATS_CACHE_EVICTIONS], .int m.stats_evictions),
    ([group, CPPTRANSPORT_NODE_OUTPUTDATA_DATA_CACHE_EVICTIONS], .int m.data_evictions)]

def output_metadata.deserialize (reader : Value) : Except String output_metadata := do
  let group := CPPTRANSPORT_NODE_OUTPUTDATA_GROUP
  return {
    work_time := ← get [group, CPPTRANSPORT_NODE_OUTPUTDATA_TOTAL_WALLCLOCK_TIME] asLargestInt reader
    db_time := ← get [group, CPPTRANSPORT_NODE_OUTPUTDATA_TOTAL_DB_TIME] asLargestInt reader
    aggregation_time := ← get [group, CPPTRANSPORT_NODE_OUTPUTDATA_TOTAL_AGG_TIME] asLargestInt reader
    time_config_hits := ← get [group, CPPTRANSPORT_NODE_OUTPUTDATA_TIME_CACHE_HITS] asUInt reader
    time_config_unloads := ← get [group, CPPTRANSPORT_NODE_OUTPUTDATA_TIME_CACHE_UNLOADS] asUInt reader
    twopf_kconfig_hits := ← get [group, CPPTRANSPORT_NODE_OUTPUTDATA_TWOPF_CACHE_HITS] asUInt reader
    twopf_kconfig_unloads := ← get [group, CPPTRANSPORT_NODE_OUTPUTDATA_TWOPF_CACHE_UNLOADS] asUInt reader
    threepf_kconfig_hits := ← get [group, CPPTRANSPORT_NODE_OUTPUTDATA_THREEPF_CACHE_HITS] asUInt reader
    threepf_kconfig_unloads := ← get [group, CPPTRANSPORT_NODE_OUTPUTDATA_THREEPF_CACHE_UNLOADS] asUInt reader
    data_hits := ← get [group, CPPTRANSPORT_NODE_OUTPUTDATA_DATA_CACHE_HITS] asUInt reader
    data_unloads := ← get [group, CPPTRANSPORT_NODE_OUTPUTDATA_DATA_CACHE_UNLOADS] asUInt reader
    stats_hits := ← get [group, CPPTRANSPORT_NODE_OUTPUTDATA_STATS_CACHE_HITS] asUInt reader
    stats_unloads := ← get [group, CPPTRANSPORT_NODE_OUTPUTDATA_STATS_CACHE_UNLOADS] asUInt reader
    time_config_evictions := ← get [group, CPPTRANSPORT_NODE_OUTPUTDATA_TIME_CACHE_EVICTIONS] asLargestInt reader
    twopf_kconfig_evictions := ← get [group, CPPTRANSPORT_NODE_OUTPUTDATA_TWOPF_CACHE_EVICTIONS] asLargestInt reader
    threepf_kconfig_evictions := ←
      get [group, CPPTRANSPORT_NODE_OUTPUTDATA_THREEPF_CACHE_EVICTIONS] asLargestInt reader
    data_evictions := ← get [group, CPPTRANSPORT_NODE_OUTPUTDATA_DATA_CACHE_EVICTIONS] asLargestInt reader
    stats_evictions := ← get [group, CPPTRANSPORT_NODE_OUTPUTDATA_STATS_CACHE_EVICTIONS] asLargestInt reader }

/-! ### Payloads -/

structure precomputed_products where
  zeta_twopf : Bool
  zeta_threepf : Bool
  zeta_redbsp : Bool
  fNL_local : Bool
  fNL_equi : Bool
  fNL_ortho : Bool
  fNL_DBI : Bool

def precomputed_products.serialize (p : precomputed_products) : Log :=
  let root := CPPTRANSPORT_NODE_PRECOMPUTED_ROOT
  [([root, CPPTRANSPORT_NODE_PRECOMPUTED_ZETA_TWOPF], .bool p.zeta_twopf),
    ([root, CPPTRANSPORT_NODE_PRECOMPUTED_ZETA_THREEPF], .bool p.zeta_threepf),
    ([root, CPPTRANSPORT_NODE_PRECOMPUTED_ZETA_REDBSP], .bool p.zeta_redbsp),
    ([root, CPPTRANSPORT_NODE_PRECOMPUTED_FNL_LOCAL], .bool p.fNL_local),
    ([root, CPPTRANSPORT_NODE_PRECOMPUTED_FNL_EQUI], .bool p.fNL_equi),
    ([root, CPPTRANSPORT_NODE_PRECOMPUTED_FNL_ORTHO], .bool p.fNL_ortho),
    ([root, CPPTRANSPORT_NODE_PRECOMPUTED_FNL_DBI], .bool p.fNL_DBI)]

def precomputed_products.deserialize (reader : Value) : Except String precomputed_products := do
  let root := CPPTRANSPORT_NODE_PRECOMPUTED_ROOT
  return {
    zeta_twopf := ← get [root, CPPTRANSPORT_NODE_PRECOMPUTED_ZETA_TWOPF] asBool reader
    zeta_threepf := ← get [root, CPPTRANSPORT_NODE_PRECOMPUTED_ZETA_THREEPF] asBool reader
    zeta_redbsp := ← get [root, CPPTRANSPORT_NODE_PRECOMPUTED_ZETA_REDBSP] asBool reader
    fNL_local := ← get [root, CPPTRANSPORT_NODE_PRECOMPUTED_FNL_LOCAL] asBool reader
    fNL_equi := ← get [root, CPPTRANSPORT_NODE_PRECOMPUTED_FNL_EQUI] asBool reader
    fNL_ortho := ← get [root, CPPTRANSPORT_NODE_PRECOMPUTED_FNL_ORTHO] asBool reader
    fNL_DBI := ← get [root, CPPTRANSPORT_NODE_PRECOMPUTED_FNL_DBI] asBool reader }

/-- Write serial numbers in ascending order. -/
def write_serials (serials : Finset UInt) : Value := .array (serials.sort.map fun n => .int n.val)

/-- Insert serial numbers one by one. -/
def read_serials (v : Value) : Except String (Finset UInt) := do
  return (← readList asUInt v).foldl (fun serials n => insert n serials) ∅

/-- Write a list of texts. -/
def write_texts (l : List String) : Value := .array (l.map .string)

structure integration_payload where
  container : String
  metadata : integration_metadata
  fail : Bool
  failed_serials : Finset UInt
  workgroup_number : UInt
  seeded : Bool
  seed_group : String
  data_type : String
  statistics : Bool
  initial_conditions : Bool
  size : UInt

def integration_payload.serialize (p : integration_payload) : Log :=
  [([CPPTRANSPORT_NODE_PAYLOAD_INTEGRATION_DATABASE], .string p.container),
    ([CPPTRANSPORT_NODE_PAYLOAD_INTEGRATION_FAILED], .bool p.fail),
    ([CPPTRANSPORT_NODE_PAYLOAD_INTEGRATION_WORKGROUP], .int p.workgroup_number.val),
    ([CPPTRANSPORT_NODE_PAYLOAD_INTEGRATION_SEEDED], .bool p.seeded),
    ([CPPTRANSPORT_NODE_PAYLOAD_INTEGRATION_SEED_GROUP], .string p.seed_group),
    ([CPPTRANSPORT_NODE_PAYLOAD_INTEGRATION_STATISTICS], .bool p.statistics),
    ([CPPTRANSPORT_NODE_PAYLOAD_INTEGRATION_ICS], .bool p.initial_conditions),
    ([CPPTRANSPORT_NODE_PAYLOAD_INTEGRATION_SIZE], .int p.size.val),
    ([CPPTRANSPORT_NODE_PAYLOAD_INTEGRATION_DATA_TYPE], .string p.data_type),
    ([CPPTRANSPORT_NODE_PAYLOAD_INTEGRATION_FAILED_SERIALS], write_serials p.failed_serials)] ++ p.metadata.serialize

def integration_payload.deserialize (reader : Value) : Except String integration_payload := do
  return {
    metadata := ← integration_metadata.deserialize reader
    container := ← get [CPPTRANSPORT_NODE_PAYLOAD_INTEGRATION_DATABASE] asString reader
    fail := ← get [CPPTRANSPORT_NODE_PAYLOAD_INTEGRATION_FAILED] asBool reader
    workgroup_number := ← get [CPPTRANSPORT_NODE_PAYLOAD_INTEGRATION_WORKGROUP] asUInt reader
    seeded := ← get [CPPTRANSPORT_NODE_PAYLOAD_INTEGRATION_SEEDED] asBool reader
    seed_group := ← get [CPPTRANSPORT_NODE_PAYLOAD_INTEGRATION_SEED_GROUP] asString reader
    statistics := ← get [CPPTRANSPORT_NODE_PAYLOAD_INTEGRATION_STATISTICS] asBool reader
    initial_conditions := ← get [CPPTRANSPORT_NODE_PAYLOAD_INTEGRATION_ICS] asBool reader
    size := ← get [CPPTRANSPORT_NODE_PAYLOAD_INTEGRATION_SIZE] asUInt reader
    data_type := ← get [CPPTRANSPORT_NODE_PAYLOAD_INTEGRATION_DATA_TYPE] asString reader
    failed_serials := ← get [CPPTRANSPORT_NODE_PAYLOAD_INTEGRATION_FAILED_SERIALS] read_serials reader }

structure postintegration_payload where
  container : String
  metadata : output_metadata
  precomputed : precomputed_products
  fail : Bool
  failed_serials : Finset UInt
  paired : Bool
  parent_group : String
  seeded : Bool
  seed_group : String
  size : UInt

def postintegration_payload.serialize (p : postintegration_payload) : Log :=
  [([CPPTRANSPORT_NODE_PAYLOAD_POSTINTEGRATION_DATABASE], .string p.container),
    ([CPPTRANSPORT_NODE_PAYLOAD_POSTINTEGRATION_FAILED], .bool p.fail),
    ([CPPTRANSPORT_NODE_PAYLOAD_POSTINTEGRATION_PAIRED], .bool p.paired),
    ([CPPTRANSPORT_NODE_PAYLOAD_POSTINTEGRATION_PARENT_GROUP], .string p.parent_group),
    ([CPPTRANSPORT_NODE_PAYLOAD_POSTINTEGRATION_SEEDED], .bool p.seeded),
    ([CPPTRANSPORT_NODE_PAYLOAD_POSTINTEGRATION_SEED_GROUP], .string p.seed_group),
    ([CPPTRANSPORT_NODE_PAYLOAD_POSTINTEGRATION_SIZE], .int p.size.val),
    ([CPPTRANSPORT_NODE_PAYLOAD_POSTINTEGRATION_FAILED_SERIALS], write_serials p.failed_serials)] ++
    p.metadata.serialize ++ p.precomputed.serialize

/-- The path of the container is read under the key of an integration payload. -/
def postintegration_payload.deserialize (reader : Value) : Except String postintegration_payload := do
  return {
    metadata := ← output_metadata.deserialize reader
    precomputed := ← precomputed_products.deserialize reader
    container := ← get [CPPTRANSPORT_NODE_PAYLOAD_INTEGRATION_DATABASE] asString reader
    fail := ← get [CPPTRANSPORT_NODE_PAYLOAD_POSTINTEGRATION_FAILED] asBool reader
    paired := ← get [CPPTRANSPORT_NODE_PAYLOAD_POSTINTEGRATION_PAIRED] asBool reader
    parent_group := ← get [CPPTRANSPORT_NODE_PAYLOAD_POSTINTEGRATION_PARENT_GROUP] asString reader
    seeded := ← get [CPPTRANSPORT_NODE_PAYLOAD_POSTINTEGRATION_SEEDED] asBool reader
    seed_group := ← get [CPPTRANSPORT_NODE_PAYLOAD_POSTINTEGRATION_SEED_GROUP] asString reader
    size := ← get [CPPTRANSPORT_NODE_PAYLOAD_POSTINTEGRATION_SIZE] asUInt reader
    failed_serials := ← get [CPPTRANSPORT_NODE_PAYLOAD_POSTINTEGRATION_FAILED_SERIALS] read_serials reader }

structure derived_content (ptime : Type) where
  parent_product : String
  filename : String
  created : ptime
  notes : List (note ptime)
  tags : List String
  content_groups : List String

/-- What is written, with the array of notes. -/
def derived_content.log (c : derived_content ptime) (note_list : Value) : Log :=
  [([CPPTRANSPORT_NODE_PAYLOAD_CONTENT_PRODUCT_NAME], .string c.parent_product),
    ([CPPTRANSPORT_NODE_PAYLOAD_CONTENT_FILENAME], .string c.filename),
    ([CPPTRANSPORT_NODE_PAYLOAD_CONTENT_CREATED], .string (f.to_iso_string c.created)),
    ([CPPTRANSPORT_NODE_PAYLOAD_CONTENT_USED_GROUPS], write_texts c.content_groups),
    ([CPPTRANSPORT_NODE_PAYLOAD_CONTENT_NOTES], note_list),
    ([CPPTRANSPORT_NODE_PAYLOAD_CONTENT_TAGS], write_texts c.tags)]

def derived_content.serialize (c : derived_content ptime) : Except String Log := do
  return c.log f (← writeList (fun n => element (n.serialize f)) c.notes)

def derived_content.deserialize (reader : Value) : Except String (derived_content ptime) := do
  return {
    parent_product := ← get [CPPTRANSPORT_NODE_PAYLOAD_CONTENT_PRODUCT_NAME] asString reader
    filename := ← get [CPPTRANSPORT_NODE_PAYLOAD_CONTENT_FILENAME] asString reader
    created := ← get [CPPTRANSPORT_NODE_PAYLOAD_CONTENT_CREATED] (asTime f) reader
    content_groups := ← get [CPPTRANSPORT_NODE_PAYLOAD_CONTENT_USED_GROUPS] (readList asString) reader
    notes := ← get [CPPTRANSPORT_NODE_PAYLOAD_CONTENT_NOTES] (readList (note.deserialize f)) reader
    tags := ← get [CPPTRANSPORT_NODE_PAYLOAD_CONTENT_TAGS] (readList asString) reader }

structure output_payload (ptime : Type) where
  content : List (derived_content ptime)
  metadata : output_metadata
  fail : Bool
  used_groups : List String

/-- What is written, with the array of products. -/
def output_payload.log (p : output_payload ptime) (content_array : Value) : Log :=
  [([CPPTRANSPORT_NODE_PAYLOAD_CONTENT_FAILED], .bool p.fail),
    ([CPPTRANSPORT_NODE_PAYLOAD_CONTENT_ARRAY], content_array),
    ([CPPTRANSPORT_NODE_PAYLOAD_GROUPS_SUMMARY], write_texts p.used_groups)] ++ p.metadata.serialize

def output_payload.serialize (p : output_payload ptime) : Except String Log := do
  return p.log (← writeList (fun c => do element (← c.serialize f)) p.content)

def output_payload.deserialize (reader : Value) : Except String (output_payload ptime) := do
  return {
    metadata := ← output_metadata.deserialize reader
    fail := ← get [CPPTRANSPORT_NODE_PAYLOAD_CONTENT_FAILED] asBool reader
    content := ← get [CPPTRANSPORT_NODE_PAYLOAD_CONTENT_ARRAY] (readList (derived_content.deserialize f)) reader
    used_groups := ← get [CPPTRANSPORT_NODE_PAYLOAD_GROUPS_SUMMARY] (readList asString) reader }

/-! ### Records -/

/-- A kind of payload. -/
structure Layout (Payload : Type) where
  serialize : Payload → Except String Log
  deserialize : Value → Except String Payload

/-- A `content_group_record`. Where the repository is stored is not part of what is written. -/
structure content_group_record (ptime Payload : Type) extends repository_record ptime where
  payload : Payload
  task : String
  locked : Bool
  notes : List (note ptime)
  tags : List String
  /-- The root of the repository. -/
  root : String
  /-- The path of the group. -/
  output : String

namespace content_group_record

variable {Payload : Type} (L : Layout Payload)

/-- What the class writes itself, with the array of notes. -/
def log (r : content_group_record ptime Payload) (note_list : Value) : Log :=
  [([CPPTRANSPORT_NODE_RECORD_TYPE], .string CPPTRANSPORT_NODE_RECORD_CONTENT),
    ([CPPTRANSPORT_NODE_OUTPUTGROUP_TASK_NAME], .string r.task),
    ([CPPTRANSPORT_NODE_OUTPUTGROUP_DATA_ROOT], .string r.output),
    ([CPPTRANSPORT_NODE_OUTPUTGROUP_LOCKED], .bool r.locked),
    ([CPPTRANSPORT_NODE_OUTPUTGROUP_NOTES], note_list),
    ([CPPTRANSPORT_NODE_OUTPUTGROUP_TAGS], write_texts r.tags)]

def serialize (r : content_group_record ptime Payload) : Except String Log := do
  let note_list ← writeList (fun n => element (n.serialize f)) r.notes
  let payload ← L.serialize r.payload
  let base ← r.torepository_record.serialize f
  return r.log note_list ++ payload ++ base

def deserialize (root : String) (reader : Value) : Except String (content_group_record ptime Payload) := do
  return {
    torepository_record := ← repository_record.deserialize f reader
    payload := ← L.deserialize reader
    root
    task := ← get [CPPTRANSPORT_NODE_OUTPUTGROUP_TASK_NAME] asString reader
    output := ← get [CPPTRANSPORT_NODE_OUTPUTGROUP_DATA_ROOT] asString reader
    locked := ← get [CPPTRANSPORT_NODE_OUTPUTGROUP_LOCKED] asBool reader
    notes := ← get [CPPTRANSPORT_NODE_OUTPUTGROUP_NOTES] (readList (note.deserialize f)) reader
    tags := ← get [CPPTRANSPORT_NODE_OUTPUTGROUP_TAGS] (readList asString) reader }

end content_group_record

/-! ### Reading what has been written -/

section Read

variable {f} {reader : Value}

/-- What is written as a list of texts can be read. -/
theorem readList_write_texts (l : List String) : readList asString (write_texts l) = .ok l := by
  have hread : (l.map Value.string).mapM asString = .ok l := by
    induction l with
    | nil => rfl
    | cons s l ih =>
      rw [List.map_cons, List.mapM_cons, ih]
      rfl
  exact hread

theorem read_serials_write_serials (serials : Finset UInt) : read_serials (write_serials serials) = .ok serials := by
  have hread : ∀ l : List UInt, (l.map fun n => Value.int n.val).mapM asUInt = .ok l := by
    intro l
    induction l with
    | nil => rfl
    | cons n l ih =>
      rw [List.map_cons, List.mapM_cons, ih, asUInt_int]
      rfl
  have hinsert : ∀ (l : List UInt) (s : Finset UInt), l.foldl (fun s n => insert n s) s = s ∪ l.toFinset := by
    intro l
    induction l with
    | nil => simp
    | cons n l ih =>
      intro s
      rw [List.foldl_cons, ih, List.toFinset_cons, Finset.insert_union, Finset.union_insert]
  have hlist : readList asUInt (write_serials serials) = .ok serials.sort := hread _
  rw [read_serials, hlist]
  change Except.ok (serials.sort.foldl (fun s n => insert n s) ∅) = _
  rw [hinsert, Finset.sort_toFinset, Finset.empty_union]

theorem asTime_string (hiso : ∀ t, f.from_iso_string (f.to_iso_string t) = .ok t) (t : ptime) :
    asTime f (.string (f.to_iso_string t)) = .ok t := hiso t

/-- An element of a list: an object with what has been written. -/
theorem element_ok (log : Log) (h : Separate (log.map (·.1))) : ∃ v, element log = .ok v ∧ Reads v log :=
  read_writeAll h

theorem history_actions.of_text_text (a : history_actions) : of_text a.text = .ok a := by cases a <;> rfl

theorem note_round_trip (hiso : ∀ t, f.from_iso_string (f.to_iso_string t) = .ok t) (n : note ptime) :
    ∃ v, element (n.serialize f) = .ok v ∧ note.deserialize f v = .ok n := by
  obtain ⟨v, hv, hreads⟩ := element_ok (n.serialize f) (by simp only [note.serialize, List.map]; decide)
  refine ⟨v, hv, ?_⟩
  simp only [note.serialize, reads_cons] at hreads
  obtain ⟨huid, htext, htime, -⟩ := hreads
  simp only [note.deserialize, get_of_read huid, get_of_read htext, get_of_read htime, asTime_string hiso]
  rfl

theorem history_round_trip (hiso : ∀ t, f.from_iso_string (f.to_iso_string t) = .ok t) (h : metadata_history ptime) :
    ∃ v, element (h.serialize f) = .ok v ∧ metadata_history.deserialize f v = .ok h := by
  obtain ⟨v, hv, hreads⟩ := element_ok (h.serialize f) (by simp only [metadata_history.serialize, List.map]; decide)
  refine ⟨v, hv, ?_⟩
  simp only [metadata_history.serialize, reads_cons] at hreads
  obtain ⟨huid, hinfo, htime, haction, -⟩ := hreads
  simp only [metadata_history.deserialize, get_of_read huid, get_of_read hinfo, get_of_read htime,
    get_of_read haction, asTime_string hiso, asString, bind, Except.bind, history_actions.of_text_text]
  rfl

/-- A serializer writes to these paths, and what it has written can be read back, whatever else there is. -/
structure Writes {α : Type} (serialize : α → Except String Log) (deserialize : Value → Except String α)
    (paths : List (List String)) : Prop where
  paths_eq : ∀ a, ∃ log, serialize a = .ok log ∧ log.map (·.1) = paths ∧
    ∀ v, Reads v log → deserialize v = .ok a

def base_paths : List (List String) :=
  [[CPPTRANSPORT_NODE_RECORD_NAME],
    [CPPTRANSPORT_NODE_METADATA_GROUP, CPPTRANSPORT_NODE_METADATA_CREATED],
    [CPPTRANSPORT_NODE_METADATA_GROUP, CPPTRANSPORT_NODE_METADATA_EDITED],
    [CPPTRANSPORT_NODE_METADATA_GROUP, CPPTRANSPORT_NODE_METADATA_RUNTIME_API],
    [CPPTRANSPORT_NODE_METADATA_GROUP, CPPTRANSPORT_NODE_METADATA_HISTORY]]

theorem repository_record_writes (hiso : ∀ t, f.from_iso_string (f.to_iso_string t) = .ok t) :
    Writes (repository_record.serialize f) (repository_record.deserialize f) base_paths := by
  refine ⟨fun r => ?_⟩
  obtain ⟨history, hwrite, hread⟩ :=
    readList_writeList (l := r.metadata.history) fun h _ => history_round_trip hiso h
  have hlog : repository_record.serialize f r =
      .ok (([CPPTRANSPORT_NODE_RECORD_NAME], .string r.name) :: r.metadata.log f history) := by
    simp only [repository_record.serialize, record_metadata.serialize, hwrite]
    rfl
  refine ⟨_, hlog, rfl, fun v hreads => ?_⟩
  simp only [record_metadata.log, reads_cons] at hreads
  obtain ⟨hname, hcreated, hedited, hapi, hhistory, -⟩ := hreads
  simp only [repository_record.deserialize, record_metadata.deserialize, get_of_read hname, get_of_read hcreated,
    get_of_read hedited, get_of_read hapi, get_of_read hhistory, asTime_string hiso, hread, asUInt_int]
  rfl

theorem integration_metadata_reads (m : integration_metadata) (h : Reads reader m.serialize) :
    integration_metadata.deserialize reader = .ok m := by
  simp only [integration_metadata.serialize, reads_cons] at h
  obtain ⟨h₁, h₂, h₃, h₄, h₅, h₆, h₇, h₈, h₉, h₁₀, h₁₁, -⟩ := h
  simp only [integration_metadata.deserialize, get_of_read h₁, get_of_read h₂, get_of_read h₃, get_of_read h₄,
    get_of_read h₅, get_of_read h₆, get_of_read h₇, get_of_read h₈, get_of_read h₉, get_of_read h₁₀, get_of_read h₁₁,
    asLargestInt_int, asUInt_int]
  rfl

theorem output_metadata_reads (m : output_metadata) (h : Reads reader m.serialize) :
    output_metadata.deserialize reader = .ok m := by
  simp only [output_metadata.serialize, reads_cons] at h
  obtain ⟨h₁, h₂, h₃, h₄, h₅, h₆, h₇, h₈, h₉, h₁₀, h₁₁, h₁₂, h₁₃, h₁₄, h₁₅, h₁₆, h₁₇, h₁₈, -⟩ := h
  simp only [output_metadata.deserialize, get_of_read h₁, get_of_read h₂, get_of_read h₃, get_of_read h₄,
    get_of_read h₅, get_of_read h₆, get_of_read h₇, get_of_read h₈, get_of_read h₉, get_of_read h₁₀, get_of_read h₁₁,
    get_of_read h₁₂, get_of_read h₁₃, get_of_read h₁₄, get_of_read h₁₅, get_of_read h₁₆, get_of_read h₁₇,
    get_of_read h₁₈, asLargestInt_int, asUInt_int]
  rfl

theorem precomputed_products_reads (p : precomputed_products) (h : Reads reader p.serialize) :
    precomputed_products.deserialize reader = .ok p := by
  simp only [precomputed_products.serialize, reads_cons] at h
  obtain ⟨h₁, h₂, h₃, h₄, h₅, h₆, h₇, -⟩ := h
  simp only [precomputed_products.deserialize, get_of_read h₁, get_of_read h₂, get_of_read h₃, get_of_read h₄,
    get_of_read h₅, get_of_read h₆, get_of_read h₇]
  rfl

end Read

/-! ### Round trips -/

section RoundTrip

variable {f}

/-- The paths of the metadata of postintegration and output tasks. -/
def output_metadata_paths : List (List String) :=
  [CPPTRANSPORT_NODE_OUTPUTDATA_TOTAL_WALLCLOCK_TIME, CPPTRANSPORT_NODE_OUTPUTDATA_TOTAL_DB_TIME,
    CPPTRANSPORT_NODE_OUTPUTDATA_TOTAL_AGG_TIME, CPPTRANSPORT_NODE_OUTPUTDATA_TIME_CACHE_HITS,
    CPPTRANSPORT_NODE_OUTPUTDATA_TIME_CACHE_UNLOADS, CPPTRANSPORT_NODE_OUTPUTDATA_TWOPF_CACHE_HITS,
    CPPTRANSPORT_NODE_OUTPUTDATA_TWOPF_CACHE_UNLOADS, CPPTRANSPORT_NODE_OUTPUTDATA_THREEPF_CACHE_HITS,
    CPPTRANSPORT_NODE_OUTPUTDATA_THREEPF_CACHE_UNLOADS, CPPTRANSPORT_NODE_OUTPUTDATA_STATS_CACHE_HITS,
    CPPTRANSPORT_NODE_OUTPUTDATA_STATS_CACHE_UNLOADS, CPPTRANSPORT_NODE_OUTPUTDATA_DATA_CACHE_HITS,
    CPPTRANSPORT_NODE_OUTPUTDATA_DATA_CACHE_UNLOADS, CPPTRANSPORT_NODE_OUTPUTDATA_TIME_CACHE_EVICTIONS,
    CPPTRANSPORT_NODE_OUTPUTDATA_TWOPF_CACHE_EVICTIONS, CPPTRANSPORT_NODE_OUTPUTDATA_THREEPF_CACHE_EVICTIONS,
    CPPTRANSPORT_NODE_OUTPUTDATA_STATS_CACHE_EVICTIONS, CPPTRANSPORT_NODE_OUTPUTDATA_DATA_CACHE_EVICTIONS].map
      fun k => [CPPTRANSPORT_NODE_OUTPUTDATA_GROUP, k]

def integration_paths : List (List String) :=
  [CPPTRANSPORT_NODE_PAYLOAD_INTEGRATION_DATABASE, CPPTRANSPORT_NODE_PAYLOAD_INTEGRATION_FAILED,
    CPPTRANSPORT_NODE_PAYLOAD_INTEGRATION_WORKGROUP, CPPTRANSPORT_NODE_PAYLOAD_INTEGRATION_SEEDED,
    CPPTRANSPORT_NODE_PAYLOAD_INTEGRATION_SEED_GROUP, CPPTRANSPORT_NODE_PAYLOAD_INTEGRATION_STATISTICS,
    CPPTRANSPORT_NODE_PAYLOAD_INTEGRATION_ICS, CPPTRANSPORT_NODE_PAYLOAD_INTEGRATION_SIZE,
    CPPTRANSPORT_NODE_PAYLOAD_INTEGRATION_DATA_TYPE, CPPTRANSPORT_NODE_PAYLOAD_INTEGRATION_FAILED_SERIALS].map
      (fun k => [k]) ++
  [CPPTRANSPORT_NODE_TIMINGDATA_TOTAL_WALLCLOCK_TIME, CPPTRANSPORT_NODE_TIMINGDATA_TOTAL_AGG_TIME,
    CPPTRANSPORT_NODE_TIMINGDATA_TOTAL_INT_TIME, CPPTRANSPORT_NODE_TIMINGDATA_GLOBAL_MIN_INT_TIME,
    CPPTRANSPORT_NODE_TIMINGDATA_GLOBAL_MAX_INT_TIME, CPPTRANSPORT_NODE_TIMINGDATA_TOTAL_BATCH_TIME,
    CPPTRANSPORT_NODE_TIMINGDATA_GLOBAL_MIN_BATCH_TIME, CPPTRANSPORT_NODE_TIMINGDATA_GLOBAL_MAX_BATCH_TIME,
    CPPTRANSPORT_NODE_TIMINGDATA_NUM_CONFIGURATIONS, CPPTRANSPORT_NODE_TIMINGDATA_NUM_FAILURES,
    CPPTRANSPORT_NODE_TIMINGDATA_NUM_REFINED].map fun k => [CPPTRANSPORT_NODE_TIMINGDATA_GROUP, k]

def postintegration_paths : List (List String) :=
  [CPPTRANSPORT_NODE_PAYLOAD_POSTINTEGRATION_DATABASE, CPPTRANSPORT_NODE_PAYLOAD_POSTINTEGRATION_FAILED,
    CPPTRANSPORT_NODE_PAYLOAD_POSTINTEGRATION_PAIRED, CPPTRANSPORT_NODE_PAYLOAD_POSTINTEGRATION_PARENT_GROUP,
    CPPTRANSPORT_NODE_PAYLOAD_POSTINTEGRATION_SEEDED, CPPTRANSPORT_NODE_PAYLOAD_POSTINTEGRATION_SEED_GROUP,
    CPPTRANSPORT_NODE_PAYLOAD_POSTINTEGRATION_SIZE, CPPTRANSPORT_NODE_PAYLOAD_POSTINTEGRATION_FAILED_SERIALS].map
      (fun k => [k]) ++ output_metadata_paths ++
  [CPPTRANSPORT_NODE_PRECOMPUTED_ZETA_TWOPF, CPPTRANSPORT_NODE_PRECOMPUTED_ZETA_THREEPF,
    CPPTRANSPORT_NODE_PRECOMPUTED_ZETA_REDBSP, CPPTRANSPORT_NODE_PRECOMPUTED_FNL_LOCAL,
    CPPTRANSPORT_NODE_PRECOMPUTED_FNL_EQUI, CPPTRANSPORT_NODE_PRECOMPUTED_FNL_ORTHO,
    CPPTRANSPORT_NODE_PRECOMPUTED_FNL_DBI].map fun k => [CPPTRANSPORT_NODE_PRECOMPUTED_ROOT, k]

def output_paths : List (List String) :=
  [CPPTRANSPORT_NODE_PAYLOAD_CONTENT_FAILED, CPPTRANSPORT_NODE_PAYLOAD_CONTENT_ARRAY,
    CPPTRANSPORT_NODE_PAYLOAD_GROUPS_SUMMARY].map (fun k => [k]) ++ output_metadata_paths

/-- What the serializer of a group writes itself. -/
def group_paths : List (List String) :=
  [CPPTRANSPORT_NODE_RECORD_TYPE, CPPTRANSPORT_NODE_OUTPUTGROUP_TASK_NAME, CPPTRANSPORT_NODE_OUTPUTGROUP_DATA_ROOT,
    CPPTRANSPORT_NODE_OUTPUTGROUP_LOCKED, CPPTRANSPORT_NODE_OUTPUTGROUP_NOTES,
    CPPTRANSPORT_NODE_OUTPUTGROUP_TAGS].map fun k => [k]

/-- The layouts of the three kinds of payload. -/
def integration_layout : Layout integration_payload where
  serialize p := .ok p.serialize
  deserialize := integration_payload.deserialize

def postintegration_layout : Layout postintegration_payload where
  serialize p := .ok p.serialize
  deserialize := postintegration_payload.deserialize

def output_layout (f : IsoFormat ptime) : Layout (output_payload ptime) where
  serialize := output_payload.serialize f
  deserialize := output_payload.deserialize f

theorem integration_layout_writes :
    Writes integration_layout.serialize integration_layout.deserialize integration_paths := by
  refine ⟨fun p => ⟨p.serialize, rfl, rfl, fun v hreads => ?_⟩⟩
  simp only [integration_payload.serialize, reads_append, reads_cons] at hreads
  obtain ⟨⟨h₁, h₂, h₃, h₄, h₅, h₆, h₇, h₈, h₉, h₁₀, -⟩, hmetadata⟩ := hreads
  simp only [integration_layout, integration_payload.deserialize, integration_metadata_reads _ hmetadata,
    get_of_read h₁, get_of_read h₂, get_of_read h₃, get_of_read h₄, get_of_read h₅, get_of_read h₆, get_of_read h₇,
    get_of_read h₈, get_of_read h₉, get_of_read h₁₀, asUInt_int, read_serials_write_serials]
  rfl

theorem postintegration_layout_writes :
    Writes postintegration_layout.serialize postintegration_layout.deserialize postintegration_paths := by
  refine ⟨fun p => ⟨p.serialize, rfl, rfl, fun v hreads => ?_⟩⟩
  simp only [postintegration_payload.serialize, reads_append, reads_cons] at hreads
  obtain ⟨⟨⟨h₁, h₂, h₃, h₄, h₅, h₆, h₇, h₈, -⟩, hmetadata⟩, hprecomputed⟩ := hreads
  -- both keys of the container have the same text
  have hcontainer : read [CPPTRANSPORT_NODE_PAYLOAD_INTEGRATION_DATABASE] v = .ok (.string p.container) := h₁
  simp only [postintegration_layout, postintegration_payload.deserialize, output_metadata_reads _ hmetadata,
    precomputed_products_reads _ hprecomputed, get_of_read hcontainer, get_of_read h₂, get_of_read h₃, get_of_read h₄,
    get_of_read h₅, get_of_read h₆, get_of_read h₇, get_of_read h₈, asUInt_int, read_serials_write_serials]
  rfl

theorem derived_content_round_trip (hiso : ∀ t, f.from_iso_string (f.to_iso_string t) = .ok t)
    (c : derived_content ptime) :
    ∃ v, (do element (← c.serialize f)) = .ok v ∧ derived_content.deserialize f v = .ok c := by
  obtain ⟨note_list, hwrite, hread⟩ := readList_writeList (l := c.notes) fun n _ => note_round_trip hiso n
  obtain ⟨v, hv, hreads⟩ := element_ok (c.log f note_list) (by simp only [derived_content.log, List.map]; decide)
  refine ⟨v, ?_, ?_⟩
  · simp only [derived_content.serialize, hwrite]
    exact hv
  simp only [derived_content.log, reads_cons] at hreads
  obtain ⟨h₁, h₂, h₃, h₄, h₅, h₆, -⟩ := hreads
  simp only [derived_content.deserialize, get_of_read h₁, get_of_read h₂, get_of_read h₃, get_of_read h₄,
    get_of_read h₅, get_of_read h₆, asTime_string hiso, readList_write_texts, hread]
  rfl

theorem output_layout_writes (hiso : ∀ t, f.from_iso_string (f.to_iso_string t) = .ok t) :
    Writes (output_layout f).serialize (output_layout f).deserialize output_paths := by
  refine ⟨fun p => ?_⟩
  obtain ⟨content_array, hwrite, hread⟩ :=
    readList_writeList (l := p.content) fun c _ => derived_content_round_trip hiso c
  have hlog : p.serialize f = .ok (p.log content_array) := by
    simp only [output_payload.serialize, hwrite]
    rfl
  refine ⟨_, hlog, rfl, fun v hreads => ?_⟩
  simp only [output_payload.log, reads_append, reads_cons] at hreads
  obtain ⟨⟨h₁, h₂, h₃, -⟩, hmetadata⟩ := hreads
  simp only [output_layout, output_payload.deserialize, output_metadata_reads _ hmetadata, get_of_read h₁,
    get_of_read h₂, get_of_read h₃, readList_write_texts, hread]
  rfl

/-- The serializers of the group, of the payload and of the base class do not overwrite one another's members. -/
def Layout.Apart (paths : List (List String)) : Prop := Separate (group_paths ++ paths ++ base_paths)

theorem integration_separate : Layout.Apart integration_paths := by
  unfold Layout.Apart
  decide

theorem postintegration_separate : Layout.Apart postintegration_paths := by
  unfold Layout.Apart
  decide

theorem output_separate : Layout.Apart output_paths := by
  unfold Layout.Apart
  decide

/-- The serializers write to separate paths, and what they have written is read back as the same record. -/
def RoundTrips {Payload : Type} (f : IsoFormat ptime) (L : Layout Payload) : Prop :=
  ∀ r : content_group_record ptime Payload, ∃ log writer, r.serialize f L = .ok log ∧ Separate (log.map (·.1)) ∧
    writeAll log (.object []) = .ok writer ∧ content_group_record.deserialize f L r.root writer = .ok r

/-- A record comes back when the serializers of its payload keep to paths of their own. -/
theorem round_trips_of_writes {Payload : Type} {L : Layout Payload} {paths : List (List String)}
    (hiso : ∀ t, f.from_iso_string (f.to_iso_string t) = .ok t) (hL : Writes L.serialize L.deserialize paths)
    (hapart : Layout.Apart paths) : RoundTrips f L := by
  intro r
  obtain ⟨note_list, hwrite, hread⟩ := readList_writeList (l := r.notes) fun n _ => note_round_trip hiso n
  obtain ⟨payload, hpayload, hpaths, hpayload_reads⟩ := hL.paths_eq r.payload
  obtain ⟨base, hbase, hbase_paths, hbase_reads⟩ := (repository_record_writes hiso).paths_eq r.torepository_record
  have hlog : r.serialize f L = .ok (r.log note_list ++ payload ++ base) := by
    simp only [content_group_record.serialize, hwrite, hpayload, hbase]
    rfl
  have hseparate : Separate ((r.log note_list ++ payload ++ base).map (·.1)) := by
    rw [List.map_append, List.map_append, hpaths, hbase_paths]
    exact hapart
  obtain ⟨writer, hwritten, hreads⟩ := read_writeAll hseparate
  refine ⟨_, writer, hlog, hseparate, hwritten, ?_⟩
  simp only [content_group_record.log, reads_append, reads_cons] at hreads
  obtain ⟨⟨⟨-, htask, houtput, hlocked, hnotes, htags, -⟩, hpayload'⟩, hbase'⟩ := hreads
  simp only [content_group_record.deserialize, hbase_reads _ hbase', hpayload_reads _ hpayload', get_of_read htask,
    get_of_read houtput, get_of_read hlocked, get_of_read hnotes, get_of_read htags, readList_write_texts, hread]
  rfl

/-- **Round trip** of content-group records with each kind of payload. -/
theorem round_trip (f : IsoFormat ptime) (hiso : ∀ t, f.from_iso_string (f.to_iso_string t) = .ok t) :
    RoundTrips f integration_layout ∧ RoundTrips f postintegration_layout ∧ RoundTrips f (output_layout f) :=
  ⟨round_trips_of_writes hiso integration_layout_writes integration_separate,
    round_trips_of_writes hiso postintegration_layout_writes postintegration_separate,
    round_trips_of_writes hiso (output_layout_writes hiso) output_separate⟩

/-- A time to the second, by its text `YYYYMMDDThhmmss`. -/
def is_iso_string (s : String) : Bool :=
  let cs := s.toList
  cs.length = 15 && (cs.take 8).all Char.isDigit && cs[8]? = some 'T' && (cs.drop 9).all Char.isDigit

/-- Times to the second are written without a fraction. -/
def whole_seconds : IsoFormat {s : String // is_iso_string s} where
  to_iso_string t := t.1
  from_iso_string s := if h : is_iso_string s then .ok ⟨s, h⟩ else .error "bad time"

theorem round_trip_whole_seconds : RoundTrips whole_seconds integration_layout ∧
    RoundTrips whole_seconds postintegration_layout ∧ RoundTrips whole_seconds (output_layout whole_seconds) :=
  round_trip whole_seconds fun t => dif_pos t.2

end RoundTrip

end CppTransport.Runtime.ContentRecord
