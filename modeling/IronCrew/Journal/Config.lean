import IronCrew.Run.Status
import Mathlib.Algebra.Order.Ring.Nat

/-!
# Journal configuration

The resource policy of a run-event journal. Durations are in nanoseconds.
-/

namespace IronCrew

open Outcome

def hardMaxEventsPerRun : Nat := 10000
def hardMaxBytesPerRun : Nat := 64 * 1024 * 1024
def hardMaxEventBytes : Nat := 16 * 1024 * 1024
def minJournalRetentionSecs : Nat := 60
def maxJournalRetentionSecs : Nat := 30 * 24 * 60 * 60
def hardJournalMaxTotalEvents : Nat := 10000000
def hardJournalMaxTotalBytes : Nat := 8 * 1024 * 1024 * 1024
def defaultJournalPageMaxEvents : Nat := 64
def hardJournalPageMaxBytes : Nat := hardMaxBytesPerRun
def minJournalPollIntervalMs : Nat := 100
def maxJournalPollIntervalMs : Nat := 5000
def minJournalReadTimeoutMs : Nat := 100
def maxJournalReadTimeoutMs : Nat := 30000
def minJournalWriteTimeoutMs : Nat := 100
def maxJournalWriteTimeoutMs : Nat := 5000
def hardJournalPruneBatch : Nat := 10000
def minEventBytes : Nat := 1024
def minPageBytes : Nat := 1024

structure RunEventJournalConfig where
  maxEventsPerRun : Nat := 1000
  maxBytesPerRun : Nat := 4 * 1024 * 1024
  maxEventBytes : Nat := 256 * 1024
  retention : Nat := 60 * 60 * 10 ^ 9
  maxTotalEvents : Nat := 100000
  maxTotalBytes : Nat := 256 * 1024 * 1024
  pageMaxEvents : Nat := defaultJournalPageMaxEvents
  pageMaxBytes : Nat := 512 * 1024
  pollInterval : Nat := 500 * 10 ^ 6
  readTimeout : Nat := 2000 * 10 ^ 6
  writeTimeout : Nat := 1500 * 10 ^ 6
  pruneBatch : Nat := 1000

def configError (message : String) : IronCrewError :=
  .validation ("Invalid run-event journal configuration: " ++ message)

def validateRange (label : String) (value min max : Nat) : Except IronCrewError Unit :=
  ensure (min ≤ value ∧ value ≤ max)
    (configError (label ++ " must be between " ++ toString min ++ " and " ++ toString max))

def validateDurationSecs (label : String) (value min max : Nat) : Except IronCrewError Unit := do
  ensure (value % 10 ^ 9 = 0) (configError (label ++ " must use whole seconds"))
  validateRange label (value / 10 ^ 9) min max

def validateDurationMillis (label : String) (value min max : Nat) : Except IronCrewError Unit := do
  ensure (value / 10 ^ 6 < 2 ^ 64 ∧ value % 10 ^ 6 = 0)
    (configError (label ++ " must use whole milliseconds"))
  validateRange label (value / 10 ^ 6) min max

/-- `RunEventWriteTiming::checked`, as far as its callers ask whether it exists: the database deadline
is four fifths of the attempt, and three attempts with their backoff fit a `Duration`. -/
def writeTimingExists (attemptTimeout : Nat) : Bool :=
  let databaseTimeout := attemptTimeout * 4 / 5
  attemptTimeout ≠ 0 && databaseTimeout ≠ 0 && databaseTimeout < attemptTimeout &&
    3 * attemptTimeout + (50 + 100 + 500) * 10 ^ 6 < 2 ^ 64 * 10 ^ 9

def RunEventJournalConfig.validate (config : RunEventJournalConfig) : Except IronCrewError Unit := do
  validateRange "max_events_per_run" config.maxEventsPerRun 1 hardMaxEventsPerRun
  validateRange "max_bytes_per_run" config.maxBytesPerRun minEventBytes hardMaxBytesPerRun
  validateRange "max_event_bytes" config.maxEventBytes minEventBytes hardMaxEventBytes
  validateDurationSecs "retention" config.retention minJournalRetentionSecs maxJournalRetentionSecs
  validateRange "max_total_events" config.maxTotalEvents 1 hardJournalMaxTotalEvents
  validateRange "max_total_bytes" config.maxTotalBytes minEventBytes hardJournalMaxTotalBytes
  validateRange "page_max_events" config.pageMaxEvents 1 defaultJournalPageMaxEvents
  validateRange "page_max_bytes" config.pageMaxBytes minPageBytes hardJournalPageMaxBytes
  validateDurationMillis "poll_interval" config.pollInterval minJournalPollIntervalMs
    maxJournalPollIntervalMs
  validateDurationMillis "read_timeout" config.readTimeout minJournalReadTimeoutMs
    maxJournalReadTimeoutMs
  validateDurationMillis "write_timeout" config.writeTimeout minJournalWriteTimeoutMs
    maxJournalWriteTimeoutMs
  ensure (writeTimingExists config.writeTimeout)
    (configError "write_timeout timing arithmetic overflow")
  validateRange "prune_batch" config.pruneBatch 1 hardJournalPruneBatch
  ensure (config.maxEventBytes ≤ config.maxBytesPerRun)
    (configError "max_event_bytes cannot exceed max_bytes_per_run")
  ensure (config.maxEventBytes ≤ config.pageMaxBytes)
    (configError "page_max_bytes must be at least max_event_bytes")
  ensure (config.maxEventsPerRun ≤ config.maxTotalEvents)
    (configError "max_events_per_run cannot exceed max_total_events")
  ensure (config.maxBytesPerRun ≤ config.maxTotalBytes)
    (configError "max_bytes_per_run cannot exceed max_total_bytes")
  ensure (config.pageMaxEvents ≤ config.maxEventsPerRun)
    (configError "page_max_events cannot exceed max_events_per_run")
  ensure (config.pruneBatch ≤ config.maxTotalEvents)
    (configError "prune_batch cannot exceed max_total_events")

/-- The bounds a validated configuration gives its users. -/
structure RunEventJournalConfig.Valid (config : RunEventJournalConfig) : Prop where
  maxEventsPerRun_le : config.maxEventsPerRun ≤ hardMaxEventsPerRun
  maxBytesPerRun_le : config.maxBytesPerRun ≤ hardMaxBytesPerRun
  maxTotalEvents_le : config.maxTotalEvents ≤ hardJournalMaxTotalEvents
  maxTotalBytes_le : config.maxTotalBytes ≤ hardJournalMaxTotalBytes
  pageMaxEvents_pos : 1 ≤ config.pageMaxEvents
  pageMaxEvents_le : config.pageMaxEvents ≤ defaultJournalPageMaxEvents
  pageMaxBytes_le : config.pageMaxBytes ≤ hardJournalPageMaxBytes
  maxEventBytes_le : config.maxEventBytes ≤ config.pageMaxBytes

theorem validateRange_ok_iff {label : String} {value min max : Nat} {result : Unit} :
    validateRange label value min max = .ok result ↔ min ≤ value ∧ value ≤ max := by
  unfold validateRange
  exact ensure_ok_iff

theorem RunEventJournalConfig.valid_of_validate {config : RunEventJournalConfig}
    (hvalidate : config.validate = .ok ()) : config.Valid := by
  simp only [RunEventJournalConfig.validate, unit_bind_ok_iff, ensure_ok_iff,
    validateRange_ok_iff] at hvalidate
  obtain ⟨hevents, hbytes, -, -, htotalEvents, htotalBytes, hpageEvents, hpageBytes, -, -, -, -, -,
    -, heventBytes, -⟩ := hvalidate
  exact
    { maxEventsPerRun_le := hevents.2
      maxBytesPerRun_le := hbytes.2
      maxTotalEvents_le := htotalEvents.2
      maxTotalBytes_le := htotalBytes.2
      pageMaxEvents_pos := hpageEvents.1
      pageMaxEvents_le := hpageEvents.2
      pageMaxBytes_le := hpageBytes.2
      maxEventBytes_le := heventBytes }

end IronCrew
