import IronCrew.Journal.Append
import Mathlib.Data.List.Dedup

/-!
# Pruning keeps the journal's accounts

The counters of the journal are functions of its rows. Deleting rows updates the state row of every
run that lost some, so the equations survive, and leaves the sequence numbering of every run alone.
-/

namespace IronCrew

open Checked Outcome

variable {Payload : Type}

def SameEnd (state state' : RunEventStateRow) : Prop :=
  state'.latestSequence = state.latestSequence ∧
    state'.terminalEventSequence = state.terminalEventSequence ∧
    state.droppedThrough ≤ state'.droppedThrough

structure Shrinks (before after : RunEventTables Payload) : Prop where
  rows : after.events.Sublist before.events
  states : ∀ runId state, before.runEventState runId = some state → ∃ state',
    after.runEventState runId = some state' ∧ SameEnd state state'
  absent : ∀ runId, before.runEventState runId = none → after.runEventState runId = none

theorem Shrinks.refl (tables : RunEventTables Payload) : Shrinks tables tables where
  rows := List.Sublist.refl _
  states _ state hstate := ⟨state, hstate, rfl, rfl, le_rfl⟩
  absent _ hnone := hnone

theorem Shrinks.trans {before mid after : RunEventTables Payload} (hfirst : Shrinks before mid)
    (hsecond : Shrinks mid after) : Shrinks before after where
  rows := hsecond.rows.trans hfirst.rows
  states runId state hstate := by
    obtain ⟨state₁, hstate₁, hlatest₁, hterminal₁, hdropped₁⟩ := hfirst.states runId state hstate
    obtain ⟨state₂, hstate₂, hlatest₂, hterminal₂, hdropped₂⟩ := hsecond.states runId state₁ hstate₁
    exact ⟨state₂, hstate₂, hlatest₂.trans hlatest₁, hterminal₂.trans hterminal₁,
      hdropped₁.trans hdropped₂⟩
  absent runId hnone := hsecond.absent runId (hfirst.absent runId hnone)

def RunEventRow.key (row : RunEventRow Payload) : String × Nat :=
  (row.runId, row.sequence)

open RunEventTables in
theorem updateState_ok {tables tables' : RunEventTables Payload} {context runId : String}
    {state : RunEventStateRow} (hupdate : tables.updateState context runId state = .ok tables') :
    tables' = { tables with states := tables.states.insert runId state } := by
  simp only [updateState, bind_ok_iff] at hupdate
  obtain ⟨_, _, _, _, _, _, _, _, hresult⟩ := hupdate
  cases hresult
  rfl

variable {runId : String}

open RunEventTables in
theorem mem_evictedRuns {deleted : List (RunEventRow Payload)} :
    runId ∈ evictedRuns deleted ↔ ∃ row ∈ deleted, row.runId = runId := by
  rw [evictedRuns, List.mem_insertionSort, List.mem_dedup, List.mem_map]

open RunEventTables in
theorem nodup_evictedRuns (deleted : List (RunEventRow Payload)) : (evictedRuns deleted).Nodup :=
  (List.perm_insertionSort _ _).nodup_iff.mpr (List.nodup_dedup _)

theorem RunEventRow.eq_of_key_eq {events : List (RunEventRow Payload)} {a b : RunEventRow Payload}
    (hnodup : (events.map RunEventRow.key).Nodup) (ha : a ∈ events) (hb : b ∈ events)
    (hkey : a.key = b.key) : a = b :=
  List.inj_on_of_nodup_map hnodup ha hb hkey

variable [RunEventPayload Payload]

def bytesOf (rows : List (RunEventRow Payload)) : Nat :=
  (rows.map RunEventRow.accounted).sum

def RunEventRow.Valid (config : RunEventJournalConfig) (row : RunEventRow Payload) : Prop :=
  RunEventAppendEntry.validate
    { sequence := row.sequence
      eventType := row.eventType
      payload := row.payload
      payloadBytes := row.payloadBytes }
    config.maxEventBytes = .ok ()

structure RunAccounts (config : RunEventJournalConfig) (rows : List (RunEventRow Payload))
    (state : RunEventStateRow) : Prop where
  events_eq : state.retainedEvents = rows.length
  bytes_eq : state.retainedBytes = bytesOf rows
  events_le : state.retainedEvents ≤ config.maxEventsPerRun
  bytes_le : state.retainedBytes ≤ config.maxBytesPerRun
  dropped_le : state.droppedThrough ≤ state.latestSequence
  within : ∀ row ∈ rows, state.droppedThrough < row.sequence ∧ row.sequence ≤ state.latestSequence
  reason : 0 < state.droppedThrough → state.evictionReason.isSome
  terminal : ∀ sequence, state.terminalEventSequence = some sequence →
    sequence = state.latestSequence ∧ 0 < sequence
  complete : ∀ row ∈ rows, row.eventType = "run_complete" →
    state.terminalEventSequence = some row.sequence

structure JournalInvariant (config : RunEventJournalConfig) (tables : RunEventTables Payload) :
    Prop where
  accounts : ∀ runId state, tables.runEventState runId = some state →
    RunAccounts config (tables.rowsOf runId) state
  stateful : ∀ row ∈ tables.events, ∃ state, tables.runEventState row.runId = some state
  keys_nodup : (tables.events.map RunEventRow.key).Nodup
  valid : ∀ row ∈ tables.events, row.Valid config
  usage_events : tables.usage.retainedEvents = tables.events.length
  usage_bytes : tables.usage.retainedBytes = bytesOf tables.events
  total_events_le : tables.usage.retainedEvents ≤ config.maxTotalEvents
  total_bytes_le : tables.usage.retainedBytes ≤ config.maxTotalBytes

/-! ### Deleting candidates -/

variable {reason : RunEventGapReason} {result : RunEventTables Payload × RunEventPruneSummary}
  {config : RunEventJournalConfig}

section Delete

open RunEventTables

theorem foldl_recordDeleted (rows : List (RunEventRow Payload)) (eviction : RunEventRunEviction) :
    (rows.foldl recordDeleted eviction).events = eviction.events + rows.length ∧
      (rows.foldl recordDeleted eviction).bytes = eviction.bytes + bytesOf rows := by
  induction rows generalizing eviction with
  | nil => simp [bytesOf]
  | cons row rows ih =>
    obtain ⟨hevents, hbytes⟩ := ih (recordDeleted eviction row)
    rw [List.foldl_cons, hevents, hbytes]
    simp only [recordDeleted, List.length_cons, bytesOf, List.map_cons, List.sum_cons]
    omega

variable {state state' : RunEventStateRow}

theorem stateAfterEviction_ok {earliest : Option Nat} {eviction eviction' : RunEventRunEviction}
    (hafter : stateAfterEviction runId state earliest eviction reason = .ok (state', eviction')) :
    eviction.events ≤ state.retainedEvents ∧ eviction.bytes ≤ state.retainedBytes ∧
      state'.retainedEvents = state.retainedEvents - eviction.events ∧
      state'.retainedBytes = state.retainedBytes - eviction.bytes ∧
      state'.latestSequence = state.latestSequence ∧
      state'.terminalEventSequence = state.terminalEventSequence ∧
      boundaryAfterEviction state state'.retainedEvents earliest = .ok state'.droppedThrough ∧
      state'.evictionReason =
        (if state.droppedThrough < state'.droppedThrough then some reason
        else state.evictionReason) ∧
      state'.flow = state.flow ∧ state'.ownerInstanceId = state.ownerInstanceId := by
  simp only [stateAfterEviction, bind_ok_iff, require_ok_iff, checkedSub,
    Option.ite_none_right_eq_some, Option.some.injEq] at hafter
  obtain ⟨_, ⟨hevents, rfl⟩, _, ⟨hbytes, rfl⟩, dropped, hdropped, hstate⟩ := hafter
  cases hstate
  exact ⟨hevents, hbytes, rfl, rfl, rfl, rfl, hdropped, rfl, rfl, rfl⟩

theorem foldlM_pruneRun {deleted : List (RunEventRow Payload)}
    {runs : List String} {kept : RunEventTables Payload} {summary : RunEventPruneSummary}
    (hnodup : runs.Nodup)
    (hfold : runs.foldlM (pruneRun deleted reason) (kept, summary) = .ok result) :
    result.1.events = kept.events ∧ result.1.usage = kept.usage ∧
      (∀ runId, runId ∉ runs → result.1.runEventState runId = kept.runEventState runId ∧
        result.2.lookup runId = summary.lookup runId) ∧
      ∀ runId ∈ runs, ∃ state state' eviction, kept.runEventState runId = some state ∧
        stateAfterEviction runId state (kept.earliest runId)
          ((deleted.filter (·.runId = runId)).foldl recordDeleted {}) reason
          = .ok (state', eviction) ∧
        result.1.runEventState runId = some state' ∧ result.2.lookup runId = some eviction := by
  induction runs generalizing kept summary with
  | nil =>
    cases hfold
    exact ⟨rfl, rfl, fun _ _ => ⟨rfl, rfl⟩, by simp⟩
  | cons runId runs ih =>
    obtain ⟨hnotMem, hnodup⟩ := List.nodup_cons.mp hnodup
    rw [List.foldlM_cons] at hfold
    obtain ⟨⟨mid, midSummary⟩, hprune, hrest⟩ := bind_ok_iff.mp hfold
    simp only [pruneRun, bind_ok_iff, require_ok_iff] at hprune
    obtain ⟨state, hstate, ⟨state', eviction⟩, hafter, tables, hupdate, hmid⟩ := hprune
    cases hmid
    cases updateState_ok hupdate
    obtain ⟨hevents, husage, hothers, hpruned⟩ := ih hnodup hrest
    refine ⟨hevents, husage, fun other hother => ?_, fun other hother => ?_⟩
    · obtain ⟨hne, hother⟩ := not_or.mp (mt List.mem_cons.mpr hother)
      obtain ⟨hstate, hsummary⟩ := hothers other hother
      exact ⟨hstate.trans (AList.lookup_insert_ne hne), hsummary.trans (AList.lookup_insert_ne hne)⟩
    · obtain rfl | hother := List.mem_cons.mp hother
      · obtain ⟨hafterState, hsummary⟩ := hothers _ hnotMem
        exact ⟨state, state', eviction, hstate, hafter, hafterState.trans (AList.lookup_insert _),
          hsummary.trans (AList.lookup_insert _)⟩
      · have hne : other ≠ runId := fun heq => hnotMem (heq ▸ hother)
        obtain ⟨before, after, lost, hbefore, hlost, hresult⟩ := hpruned other hother
        have hsame : kept.runEventState other = some before := by
          rw [← hbefore]
          exact (AList.lookup_insert_ne hne).symm
        exact ⟨before, after, lost, hsame, hlost, hresult⟩

theorem bytesOf_filter_add (p : RunEventRow Payload → Bool) (rows : List (RunEventRow Payload)) :
    bytesOf (rows.filter p) + bytesOf (rows.filter fun row => !p row) = bytesOf rows := by
  induction rows with
  | nil => rfl
  | cons row rows ih =>
    simp only [bytesOf, List.filter_cons, List.map_cons, List.sum_cons] at ih ⊢
    cases hp : p row <;> simp <;> omega

variable {rows : List (RunEventRow Payload)}

theorem foldlM_countDeleted {usage usage' : RunEventUsageRow}
    (hfold : rows.foldlM countDeleted usage = .ok usage') :
    usage'.retainedEvents + rows.length = usage.retainedEvents ∧
      usage'.retainedBytes + bytesOf rows = usage.retainedBytes := by
  induction rows generalizing usage with
  | nil =>
    cases hfold
    simp [bytesOf]
  | cons row rows ih =>
    rw [List.foldlM_cons] at hfold
    obtain ⟨counted, hcount, hrest⟩ := bind_ok_iff.mp hfold
    simp only [countDeleted, ensure_bind_ok_iff] at hcount
    obtain ⟨⟨hevents, hbytes, -⟩, hcounted⟩ := hcount
    cases hcounted
    obtain ⟨hcountEvents, hcountBytes⟩ := ih hrest
    simp only [List.length_cons, bytesOf, List.map_cons, List.sum_cons] at hcountEvents hcountBytes ⊢
    constructor <;> omega

theorem boundaryAfterEviction_ok {state : RunEventStateRow}
    {before after : List (RunEventRow Payload)} {retained boundary : Nat}
    (haccounts : RunAccounts config before state) (hsubset : ∀ row ∈ after, row ∈ before)
    (hretained : retained = after.length)
    (hboundary : boundaryAfterEviction state retained (after.map (·.sequence)).min?
      = .ok boundary) :
    state.droppedThrough ≤ boundary ∧ boundary ≤ state.latestSequence ∧
      ∀ row ∈ after, boundary < row.sequence := by
  unfold boundaryAfterEviction at hboundary
  split at hboundary
  · rename_i hzero
    cases hboundary
    have hempty : after = [] := List.length_eq_zero_iff.mp (hretained.symm.trans hzero)
    exact ⟨haccounts.dropped_le, le_rfl, by simp [hempty]⟩
  · obtain ⟨earliest, hearliest, hmax⟩ := bind_ok_iff.mp hboundary
    cases hmax
    obtain ⟨hmem, hleast⟩ := List.min?_eq_some_iff.mp (require_ok_iff.mp hearliest)
    obtain ⟨first, hfirst, hsequence⟩ := List.mem_map.mp hmem
    have hwithin := haccounts.within first (hsubset first hfirst)
    refine ⟨le_max_left _ _, by omega, fun row hrow => ?_⟩
    have hle := hleast row.sequence (List.mem_map_of_mem hrow)
    omega

theorem RunAccounts.evict {eviction : RunEventRunEviction} {lost : RunEventRow Payload → Bool}
    (haccounts : RunAccounts config rows state)
    (hafter : stateAfterEviction runId state
      ((rows.filter fun row => !lost row).map (·.sequence)).min?
      ((rows.filter lost).foldl recordDeleted {}) reason = .ok (state', eviction)) :
    RunAccounts config (rows.filter fun row => !lost row) state' ∧ SameEnd state state' := by
  obtain ⟨hleEvents, hleBytes, heventsEq, hbytesEq, hlatest, hterminal, hboundary, hreason, -⟩ :=
    stateAfterEviction_ok hafter
  obtain ⟨htallyEvents, htallyBytes⟩ := foldl_recordDeleted (rows.filter lost) {}
  rw [htallyEvents, Nat.zero_add] at heventsEq hleEvents
  rw [htallyBytes, Nat.zero_add] at hbytesEq hleBytes
  have hsplitEvents := List.length_eq_length_filter_add lost (l := rows)
  have hsplitBytes := bytesOf_filter_add lost rows
  have hretained : state'.retainedEvents = (rows.filter fun row => !lost row).length := by
    rw [heventsEq, haccounts.events_eq]
    omega
  have hless : ∀ row ∈ rows.filter fun row => !lost row, row ∈ rows := fun row hrow =>
    List.mem_of_mem_filter hrow
  obtain ⟨hdropped, hlatestLe, habove⟩ :=
    boundaryAfterEviction_ok haccounts hless hretained hboundary
  refine ⟨?_, hlatest, hterminal, hdropped⟩
  exact
    { events_eq := hretained
      bytes_eq := by
        rw [hbytesEq, haccounts.bytes_eq]
        omega
      events_le := by
        rw [heventsEq]
        exact (Nat.sub_le _ _).trans haccounts.events_le
      bytes_le := by
        rw [hbytesEq]
        exact (Nat.sub_le _ _).trans haccounts.bytes_le
      dropped_le := by
        rw [hlatest]
        exact hlatestLe
      within := fun row hrow => by
        rw [hlatest]
        exact ⟨habove row hrow, (haccounts.within row (hless row hrow)).2⟩
      reason := fun hpos => by
        rw [hreason]
        split
        · rfl
        · exact haccounts.reason (by omega)
      terminal := fun sequence hsequence => by
        rw [hlatest]
        rw [hterminal] at hsequence
        exact haccounts.terminal sequence hsequence
      complete := fun row hrow htype => by
        rw [hterminal]
        exact haccounts.complete row (hless row hrow) htype }

theorem deleteRunEventCandidates_ok
    {tables : RunEventTables Payload} {candidates : List RunEventDeleteCandidate}
    (hinv : JournalInvariant config tables)
    (hdelete : tables.deleteRunEventCandidates candidates reason = .ok result) :
    JournalInvariant config result.1 ∧ Shrinks tables result.1 ∧
      result.1.events = tables.events.filter fun row => !selectedBy candidates row := by
  unfold deleteRunEventCandidates at hdelete
  split at hdelete
  · rename_i hempty
    cases hdelete
    refine ⟨hinv, Shrinks.refl _, ?_⟩
    simp [hempty, selectedBy]
  · simp only [ensure_bind_ok_iff] at hdelete
    obtain ⟨-, hdelete⟩ := hdelete
    obtain ⟨usage, husage, hdelete⟩ := bind_ok_iff.mp hdelete
    obtain ⟨-, hfold⟩ := ensure_bind_ok_iff.mp hdelete
    obtain ⟨hevents, husageEq, hothers, hpruned⟩ :=
      foldlM_pruneRun (nodup_evictedRuns _) hfold
    obtain ⟨hcountEvents, hcountBytes⟩ := foldlM_countDeleted husage
    simp only at hevents husageEq
    have hrows : ∀ runId, result.1.rowsOf runId
        = (tables.rowsOf runId).filter fun row => !selectedBy candidates row := by
      intro runId
      rw [rowsOf, rowsOf, hevents, List.filter_filter, List.filter_filter]
      simp only [Bool.and_comm]
    have hlost : ∀ runId, (tables.events.filter (selectedBy candidates)).filter (·.runId = runId)
        = (tables.rowsOf runId).filter (selectedBy candidates) := by
      intro runId
      rw [rowsOf, List.filter_filter, List.filter_filter]
      simp only [Bool.and_comm]
    have hsubset : ∀ row ∈ result.1.events, row ∈ tables.events := by
      intro row hrow
      rw [hevents] at hrow
      exact List.mem_of_mem_filter hrow
    -- a run that lost no row keeps its rows and its state
    have huntouched : ∀ runId, runId ∉ evictedRuns (tables.events.filter (selectedBy candidates)) →
        result.1.rowsOf runId = tables.rowsOf runId ∧
          result.1.runEventState runId = tables.runEventState runId := by
      intro runId hnotMem
      refine ⟨?_, (hothers runId hnotMem).1⟩
      rw [hrows, List.filter_eq_self]
      intro row hrow
      obtain ⟨hmem, hrun⟩ := List.mem_filter.mp hrow
      cases hselected : selectedBy candidates row with
      | false => rfl
      | true =>
        refine absurd (mem_evictedRuns.mpr ⟨row, ?_, by simpa using hrun⟩) hnotMem
        exact List.mem_filter.mpr ⟨hmem, hselected⟩
    have hevicted : ∀ runId ∈ evictedRuns (tables.events.filter (selectedBy candidates)),
        ∃ state state', tables.runEventState runId = some state ∧
          result.1.runEventState runId = some state' ∧
          RunAccounts config (result.1.rowsOf runId) state' ∧ SameEnd state state' := by
      intro runId hmem
      obtain ⟨state, state', eviction, hstate, hafter, hresult, -⟩ := hpruned runId hmem
      have hearliest : RunEventTables.earliest
            { tables with
              events := tables.events.filter fun row => !selectedBy candidates row, usage } runId
          = (((tables.rowsOf runId).filter fun row => !selectedBy candidates row).map
              (·.sequence)).min? := by
        rw [RunEventTables.earliest, ← hrows, rowsOf, rowsOf, hevents]
      rw [hlost, hearliest] at hafter
      refine ⟨state, state', hstate, hresult, ?_⟩
      rw [hrows]
      exact (hinv.accounts runId state hstate).evict hafter
    have hstates : ∀ runId state, tables.runEventState runId = some state → ∃ state',
        result.1.runEventState runId = some state' ∧
          RunAccounts config (result.1.rowsOf runId) state' ∧ SameEnd state state' := by
      intro runId state hstate
      by_cases hmem : runId ∈ evictedRuns (tables.events.filter (selectedBy candidates))
      · obtain ⟨before, after, hbefore, hafter, hrest⟩ := hevicted runId hmem
        rw [hstate] at hbefore
        cases hbefore
        exact ⟨after, hafter, hrest⟩
      · obtain ⟨hsameRows, hsameState⟩ := huntouched runId hmem
        refine ⟨state, hsameState.trans hstate, ?_, rfl, rfl, le_rfl⟩
        rw [hsameRows]
        exact hinv.accounts runId state hstate
    have habsent : ∀ runId, tables.runEventState runId = none →
        result.1.runEventState runId = none := by
      intro runId hnone
      by_cases hmem : runId ∈ evictedRuns (tables.events.filter (selectedBy candidates))
      · obtain ⟨state, _, hstate, _⟩ := hevicted runId hmem
        rw [hnone] at hstate
        cases hstate
      · rw [(huntouched runId hmem).2]
        exact hnone
    have hsplitEvents := List.length_eq_length_filter_add (selectedBy candidates)
      (l := tables.events)
    have hsplitBytes := bytesOf_filter_add (selectedBy candidates) tables.events
    have husageEvents := hinv.usage_events
    have husageBytes := hinv.usage_bytes
    have htotalEvents := hinv.total_events_le
    have htotalBytes := hinv.total_bytes_le
    have hsublist : result.1.events.Sublist tables.events := by
      rw [hevents]
      exact List.filter_sublist
    refine ⟨?_, ⟨hsublist, fun runId state hstate => ?_, habsent⟩, hevents⟩
    · exact
        { accounts := fun runId state' hstate' => by
            cases hbefore : tables.runEventState runId with
            | none =>
              rw [habsent runId hbefore] at hstate'
              cases hstate'
            | some state =>
              obtain ⟨after, hafter, haccounts, -⟩ := hstates runId state hbefore
              rw [hstate'] at hafter
              cases hafter
              exact haccounts
          stateful := fun row hrow => by
            obtain ⟨state, hstate⟩ := hinv.stateful row (hsubset row hrow)
            obtain ⟨state', hstate', -⟩ := hstates row.runId state hstate
            exact ⟨state', hstate'⟩
          keys_nodup := by
            rw [hevents]
            exact hinv.keys_nodup.sublist (List.filter_sublist.map _)
          valid := fun row hrow => hinv.valid row (hsubset row hrow)
          usage_events := by
            rw [husageEq, hevents]
            omega
          usage_bytes := by
            rw [husageEq, hevents]
            omega
          total_events_le := by
            rw [husageEq]
            omega
          total_bytes_le := by
            rw [husageEq]
            omega }
    · obtain ⟨state', hstate', -, hend⟩ := hstates runId state hstate
      exact ⟨state', hstate', hend⟩

end Delete

/-! ### Making room -/

section Capacity

open RunEventTables

theorem exists_take_of_takeCandidates (events bytes : Nat) (rows : List (RunEventRow Payload)) :
    ∃ count, takeCandidates events bytes rows = (rows.take count).map candidate := by
  induction rows generalizing events bytes with
  | nil => exact ⟨0, rfl⟩
  | cons row rows ih =>
    rw [takeCandidates]
    split
    · exact ⟨1, by simp⟩
    · obtain ⟨count, hcount⟩ := ih (events - 1) (bytes - row.accounted)
      exact ⟨count + 1, by rw [hcount, List.take_succ_cons, List.map_cons]⟩

theorem filter_selectedBy_perm {events chosen : List (RunEventRow Payload)}
    (hnodup : (events.map RunEventRow.key).Nodup) (hchosen : chosen.Subperm events) :
    (events.filter (selectedBy (chosen.map candidate))).Perm chosen := by
  have hevents : events.Nodup := hnodup.of_map _
  have hchosenNodup : chosen.Nodup := by
    obtain ⟨sub, hperm, hsub⟩ := hchosen
    exact hperm.nodup_iff.mp (hevents.sublist hsub)
  rw [List.perm_ext_iff_of_nodup (hevents.filter _) hchosenNodup]
  intro row
  simp only [List.mem_filter, selectedBy, List.any_map, List.any_eq_true, Function.comp, candidate,
    Bool.and_eq_true]
  constructor
  · rintro ⟨hrow, other, hother, hrun, hsequence⟩
    have hkey : other.key = row.key := Prod.ext (of_decide_eq_true hrun) (of_decide_eq_true hsequence)
    rw [← RunEventRow.eq_of_key_eq hnodup (hchosen.subset hother) hrow hkey]
    exact hother
  · intro hrow
    exact ⟨hchosen.subset hrow, row, hrow, decide_eq_true rfl, decide_eq_true rfl⟩

theorem bytesOf_perm {a b : List (RunEventRow Payload)} (hperm : a.Perm b) :
    bytesOf a = bytesOf b :=
  (hperm.map _).sum_nat

theorem sum_payloadBytes_candidate (rows : List (RunEventRow Payload)) :
    ((rows.map candidate).map (·.payloadBytes)).sum = bytesOf rows := by
  rw [List.map_map]
  rfl

/-- Deleting candidates taken from rows that satisfy `scope` frees their number and their bytes
among the rows that satisfy it. -/
theorem freed_of_events_eq {tables tables' : RunEventTables Payload}
    {chosen : List (RunEventRow Payload)} {scope : RunEventRow Payload → Bool}
    (hnodup : (tables.events.map RunEventRow.key).Nodup)
    (hchosen : chosen.Subperm (tables.events.filter scope))
    (hevents : tables'.events
      = tables.events.filter fun row => !selectedBy (chosen.map candidate) row) :
    (tables'.events.filter scope).length + chosen.length = (tables.events.filter scope).length ∧
      bytesOf (tables'.events.filter scope) + bytesOf chosen
        = bytesOf (tables.events.filter scope) := by
  have hscoped : ((tables.events.filter scope).map RunEventRow.key).Nodup :=
    hnodup.sublist (List.filter_sublist.map _)
  have hperm := filter_selectedBy_perm hscoped hchosen
  have hkept : tables'.events.filter scope
      = (tables.events.filter scope).filter fun row => !selectedBy (chosen.map candidate) row := by
    rw [hevents, List.filter_filter, List.filter_filter]
    simp only [Bool.and_comm]
  have hsplitEvents := List.length_eq_length_filter_add (selectedBy (chosen.map candidate))
    (l := tables.events.filter scope)
  have hsplitBytes := bytesOf_filter_add (selectedBy (chosen.map candidate))
    (tables.events.filter scope)
  rw [hperm.length_eq] at hsplitEvents
  rw [bytesOf_perm hperm] at hsplitBytes
  rw [hkept]
  constructor <;> omega

theorem evictRows_ok {select : RunEventTables Payload → List (RunEventRow Payload)}
    {refusal : IronCrewError} (scope : RunEventRow Payload → Bool)
    (hselect : ∀ tables, (select tables).Subperm (tables.events.filter scope))
    {tables : RunEventTables Payload} {summary : RunEventPruneSummary}
    {remainingEvents remainingBytes totalEvicted : Nat} (hinv : JournalInvariant config tables)
    (hevict : evictRows select reason refusal tables summary remainingEvents remainingBytes
      totalEvicted = .ok result) :
    JournalInvariant config result.1 ∧ Shrinks tables result.1 ∧
      (result.1.events.filter scope).length + remainingEvents ≤ (tables.events.filter scope).length ∧
      bytesOf (result.1.events.filter scope) + remainingBytes
        ≤ bytesOf (tables.events.filter scope) := by
  fun_induction evictRows select reason refusal tables summary remainingEvents remainingBytes
    totalEvicted with
  | case1 tables summary remainingEvents remainingBytes totalEvicted hdone =>
    cases hevict
    obtain ⟨rfl, rfl⟩ := hdone
    exact ⟨hinv, Shrinks.refl _, le_rfl, le_rfl⟩
  | case2 => cases hevict
  | case3 => cases hevict
  | case4 tables summary remainingEvents remainingBytes totalEvicted _ candidates _ tables' deleted
      hdelete ih =>
      obtain ⟨hkept, hshrinks, hevents⟩ := deleteRunEventCandidates_ok hinv hdelete
      simp only at hkept hshrinks hevents
      obtain ⟨hfinal, hshrinks', hfreedEvents, hfreedBytes⟩ := ih hkept hevict
      obtain ⟨count, hcount⟩ :=
        exists_take_of_takeCandidates remainingEvents remainingBytes (select tables)
      have hcandidates : candidates = ((select tables).take count).map candidate := hcount
      have hchosen : ((select tables).take count).Subperm (tables.events.filter scope) :=
        (List.take_sublist _ _).subperm.trans (hselect tables)
      rw [hcandidates] at hevents hfreedEvents hfreedBytes
      obtain ⟨hstepEvents, hstepBytes⟩ := freed_of_events_eq hinv.keys_nodup hchosen hevents
      rw [List.length_map] at hfreedEvents
      rw [sum_payloadBytes_candidate] at hfreedBytes
      refine ⟨hfinal, hshrinks.trans hshrinks', ?_, ?_⟩ <;> omega

end Capacity

end IronCrew
