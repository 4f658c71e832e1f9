import Mathlib.Data.List.Induction
import IronCrew.Proof.Journal.Retention

/-!
# The gap of a summary

What several deletions record for a run is merged into one eviction. Its boundaries are the widest of
those merged, but its reason is the one of the last deletion among those with the largest new boundary,
and a deletion that leaves the boundary where it was has none.
-/

namespace IronCrew

namespace RunEventRunEviction

def Advances (eviction : RunEventRunEviction) : Prop :=
  eviction.previousDroppedThrough < eviction.newDroppedThrough

instance (eviction : RunEventRunEviction) : Decidable eviction.Advances :=
  inferInstanceAs (Decidable (_ < _))

structure Recorded (eviction : RunEventRunEviction) : Prop where
  events_pos : 0 < eviction.events
  reason_iff : eviction.reason.isSome = true ↔ eviction.Advances

def IsLatest (evictions : List RunEventRunEviction) (latest : RunEventRunEviction) : Prop :=
  ∃ before after, evictions = before ++ latest :: after ∧
    (∀ eviction ∈ before, eviction.newDroppedThrough ≤ latest.newDroppedThrough) ∧
    ∀ eviction ∈ after, eviction.newDroppedThrough < latest.newDroppedThrough

/-- The gap reported for `evictions` spans their boundaries and has the reason of one that advanced. -/
structure GapKept (evictions : List RunEventRunEviction) (reported : Option RunEventGap) : Prop where
  spans : ∀ gap, reported = some gap → ∃ first ∈ evictions, ∃ last ∈ evictions,
    (∀ eviction ∈ evictions, first.previousDroppedThrough ≤ eviction.previousDroppedThrough ∧
      eviction.newDroppedThrough ≤ last.newDroppedThrough) ∧
    gap.firstSequence = first.previousDroppedThrough + 1 ∧
    gap.lastSequence = last.newDroppedThrough ∧
    ∃ eviction ∈ evictions, eviction.Advances ∧ eviction.reason = some gap.reason
  reported : (∃ eviction ∈ evictions, eviction.Advances) → ∃ gap, reported = some gap

variable {evictions : List RunEventRunEviction}

theorem IsLatest.mem {latest : RunEventRunEviction} (hlatest : IsLatest evictions latest) :
    latest ∈ evictions := by
  obtain ⟨before, after, rfl, -⟩ := hlatest
  simp

theorem IsLatest.le {latest eviction : RunEventRunEviction} (hlatest : IsLatest evictions latest)
    (heviction : eviction ∈ evictions) : eviction.newDroppedThrough ≤ latest.newDroppedThrough := by
  obtain ⟨before, after, rfl, hbefore, hafter⟩ := hlatest
  rcases List.mem_append.mp heviction with hmem | hmem
  · exact hbefore _ hmem
  · rcases List.mem_cons.mp hmem with rfl | hmem
    · exact le_rfl
    · exact (hafter _ hmem).le

theorem IsLatest.eq {latest other : RunEventRunEviction} (hlatest : IsLatest evictions latest)
    (hother : IsLatest evictions other) : latest = other := by
  obtain ⟨before, after, rfl, hbefore, hafter⟩ := hlatest
  obtain ⟨before', after', hsplit, hbefore', hafter'⟩ := hother
  obtain ⟨between, rfl, hrest⟩ | ⟨between, rfl, hrest⟩ := List.append_eq_append_iff.mp hsplit
  · cases between with
    | nil => exact (List.cons.inj hrest).1
    | cons head between =>
      obtain ⟨rfl, rfl⟩ := List.cons.inj hrest
      have hle := hbefore' latest (by simp)
      have hlt := hafter other (by simp)
      omega
  · cases between with
    | nil => exact (List.cons.inj hrest).1.symm
    | cons head between =>
      obtain ⟨rfl, rfl⟩ := List.cons.inj hrest
      have hle := hbefore other (by simp)
      have hlt := hafter' latest (by simp)
      omega

/-- What the merge of `evictions` has of them. -/
structure Merged (evictions : List RunEventRunEviction) (merged : RunEventRunEviction) : Prop where
  events_pos : 0 < merged.events
  previous_le : ∀ eviction ∈ evictions,
    merged.previousDroppedThrough ≤ eviction.previousDroppedThrough
  previous_mem : ∃ eviction ∈ evictions,
    eviction.previousDroppedThrough = merged.previousDroppedThrough
  latest : ∃ latest, IsLatest evictions latest ∧
    merged.newDroppedThrough = latest.newDroppedThrough ∧ merged.reason = latest.reason

theorem Merged.append {merged other : RunEventRunEviction} (hmerged : Merged evictions merged)
    (hother : 0 < other.events) : Merged (evictions ++ [other]) (merged.merge other) := by
  have hpos := hmerged.events_pos
  obtain ⟨first, hfirst, hleast⟩ := hmerged.previous_mem
  obtain ⟨latest, hlatest, hboundary, hreason⟩ := hmerged.latest
  obtain ⟨before, after, hsplit, hbefore, hafter⟩ := id hlatest
  have hmin : ∀ eviction ∈ evictions ++ [other],
      min merged.previousDroppedThrough other.previousDroppedThrough ≤
        eviction.previousDroppedThrough := by
    intro eviction heviction
    rcases List.mem_append.mp heviction with hmem | hmem
    · exact (min_le_left _ _).trans (hmerged.previous_le _ hmem)
    · rw [List.mem_singleton.mp hmem]
      exact min_le_right _ _
  have hmem : ∃ eviction ∈ evictions ++ [other], eviction.previousDroppedThrough =
      min merged.previousDroppedThrough other.previousDroppedThrough := by
    rcases le_total merged.previousDroppedThrough other.previousDroppedThrough with hle | hle
    · exact ⟨first, by simp [hfirst], by rw [min_eq_left hle, hleast]⟩
    · exact ⟨other, by simp, by rw [min_eq_right hle]⟩
  rw [merge, if_neg hother.ne', if_neg hpos.ne']
  split
  · rename_i hle
    refine ⟨Nat.add_pos_left hpos _, hmin, hmem, other, ⟨evictions, [], rfl, fun eviction heviction => ?_,
      nofun⟩, rfl, rfl⟩
    exact (hlatest.le heviction).trans (hboundary.ge.trans hle)
  · rename_i hlt
    refine ⟨Nat.add_pos_left hpos _, hmin, hmem, latest, ⟨before, after ++ [other], by simp [hsplit],
      hbefore, fun eviction heviction => ?_⟩, hboundary, hreason⟩
    rcases List.mem_append.mp heviction with hmem | hmem
    · exact hafter _ hmem
    · rw [List.mem_singleton.mp hmem]
      omega

theorem merged_foldl (hevictions : ∀ eviction ∈ evictions, 0 < eviction.events)
    (hne : evictions ≠ []) : Merged evictions (evictions.foldl merge {}) := by
  induction evictions using List.reverseRecOn with
  | nil => exact absurd rfl hne
  | append_singleton evictions other ih =>
    have hother : 0 < other.events := hevictions other (by simp)
    rw [List.foldl_append]
    by_cases hempty : evictions = []
    · subst hempty
      refine ⟨?_, by simp [merge, hother.ne'], ⟨other, by simp [merge, hother.ne']⟩, other,
        ⟨[], [], rfl, nofun, nofun⟩, ?_⟩ <;> simp [merge, hother.ne', hother]
    · exact (ih (fun eviction hmem => hevictions eviction (by simp [hmem])) hempty).append hother

/-- The merge of what deletions recorded keeps their gap exactly when the last of those with the largest
new boundary advanced, if any did. -/
theorem gapKept_foldl_iff (hevictions : ∀ eviction ∈ evictions, eviction.Recorded) :
    GapKept evictions (evictions.foldl merge {}).gap ↔
      ((∃ eviction ∈ evictions, eviction.Advances) →
        ∃ latest, IsLatest evictions latest ∧ latest.Advances) := by
  by_cases hempty : evictions = []
  · subst hempty
    exact iff_of_true ⟨nofun, by simp⟩ (by simp)
  obtain ⟨-, hprevious, ⟨first, hfirst, hleast⟩, latest, hlatest, hboundary, hreason⟩ :=
    merged_foldl (fun eviction hmem => (hevictions eviction hmem).events_pos) hempty
  have hadvances := (hevictions latest hlatest.mem).reason_iff
  generalize evictions.foldl merge {} = merged at *
  have hgap (gap : RunEventGap) (hreported : merged.gap = some gap) : latest.Advances ∧
      gap.firstSequence = first.previousDroppedThrough + 1 ∧
      gap.lastSequence = latest.newDroppedThrough ∧ latest.reason = some gap.reason := by
    obtain ⟨reason, hsome, hspan⟩ := Option.bind_eq_some_iff.mp hreported
    split at hspan
    · cases hspan
    · cases hspan
      rw [← hreason]
      refine ⟨hadvances.mp ?_, by rw [hleast], hboundary, hsome⟩
      rw [← hreason, hsome]
      rfl
  constructor
  · rintro hkept hany
    obtain ⟨gap, hreported⟩ := hkept.reported hany
    exact ⟨latest, hlatest, (hgap gap hreported).1⟩
  · intro hlast
    refine ⟨fun gap hreported => ?_, fun hany => ?_⟩
    · obtain ⟨hadvanced, hstart, hend, hsame⟩ := hgap gap hreported
      exact ⟨first, hfirst, latest, hlatest.mem,
        fun eviction hmem => ⟨hleast ▸ hprevious eviction hmem, hlatest.le hmem⟩, hstart, hend, latest,
        hlatest.mem, hadvanced, hsame⟩
    · obtain ⟨other, hother, hadvanced⟩ := hlast hany
      rw [← hlatest.eq hother] at hadvanced
      obtain ⟨reason, hsome⟩ := Option.isSome_iff_exists.mp (hadvances.mpr hadvanced)
      have hwide : ¬ merged.newDroppedThrough ≤ merged.previousDroppedThrough := by
        have hle := hprevious latest hlatest.mem
        unfold Advances at hadvanced
        omega
      exact ⟨_, by rw [gap, hreason, hsome, Option.bind_some, if_neg hwide]⟩

end RunEventRunEviction

/-! ### Summaries -/

namespace RunEventPruneSummary

open RunEventRunEviction

theorem merge_default (eviction : RunEventRunEviction) : eviction.merge {} = eviction := by
  simp [RunEventRunEviction.merge]

theorem forRun_insert_entries (entries : List (Sigma fun _ : String => RunEventRunEviction))
    (hnodup : entries.NodupKeys) (summary : RunEventPruneSummary) (runId : String) :
    forRun (entries.foldl (fun summary entry =>
        summary.insert entry.1 ((forRun summary entry.1).merge entry.2)) summary) runId =
      (forRun summary runId).merge ((entries.dlookup runId).getD {}) := by
  induction entries generalizing summary with
  | nil => exact (merge_default _).symm
  | cons entry entries ih =>
    obtain ⟨key, eviction⟩ := entry
    obtain ⟨hkey, hnodup⟩ := List.nodupKeys_cons.mp hnodup
    rw [List.foldl_cons, ih hnodup]
    by_cases hsame : runId = key
    · subst hsame
      rw [List.dlookup_cons_eq, List.dlookup_eq_none.mpr hkey]
      simp [forRun, merge_default]
    · rw [List.dlookup_cons_ne _ _ hsame]
      simp only [forRun, AList.lookup_insert_ne hsame]

theorem forRun_foldl_merge (summaries : List RunEventPruneSummary) (summary : RunEventPruneSummary)
    (runId : String) : forRun (summaries.foldl merge summary) runId =
      (summaries.filterMap (·.lookup runId)).foldl RunEventRunEviction.merge (forRun summary runId) := by
  induction summaries generalizing summary with
  | nil => rfl
  | cons other summaries ih =>
    have hother := forRun_insert_entries other.entries other.nodupKeys summary runId
    rw [List.foldl_cons, ih, List.filterMap_cons]
    change forRun (merge summary other) runId =
      (forRun summary runId).merge ((other.lookup runId).getD {}) at hother
    rw [hother]
    cases other.lookup runId with
    | none => simp only [Option.getD_none, merge_default]
    | some eviction => rfl

/-- Summaries merged in any order report the gap of a run as it was recorded exactly when, if any of the
deletions advanced its boundary, the last of those with the largest new boundary did. -/
theorem mergedGap_kept_iff (summaries : List RunEventPruneSummary) (runId : String)
    (hrecorded : ∀ summary ∈ summaries, ∀ eviction, summary.lookup runId = some eviction →
      eviction.Recorded) :
    let evictions := summaries.filterMap (·.lookup runId)
    GapKept evictions (forRun (summaries.foldl merge ∅) runId).gap ↔
      ((∃ eviction ∈ evictions, eviction.Advances) →
        ∃ latest, IsLatest evictions latest ∧ latest.Advances) := by
  intro evictions
  rw [forRun_foldl_merge]
  refine gapKept_foldl_iff fun eviction hmem => ?_
  obtain ⟨summary, hsummary, hlookup⟩ := List.mem_filterMap.mp hmem
  exact hrecorded summary hsummary eviction hlookup

end RunEventPruneSummary

/-! ### Deletions -/

namespace RunEventTables

open Checked Outcome

variable {Payload : Type} [RunEventPayload Payload]

theorem stateAfterEviction_recorded {runId : String} {state state' : RunEventStateRow}
    {earliest : Option Nat} {eviction eviction' : RunEventRunEviction} {reason : RunEventGapReason}
    (hevents : 0 < eviction.events) (hreason : eviction.reason = none)
    (hafter : stateAfterEviction runId state earliest eviction reason = .ok (state', eviction')) :
    eviction'.Recorded := by
  simp only [stateAfterEviction, bind_ok_iff] at hafter
  obtain ⟨_, -, _, -, boundary, -, hstate⟩ := hafter
  cases hstate
  refine ⟨hevents, ?_⟩
  unfold RunEventRunEviction.Advances
  by_cases hadvanced : state.droppedThrough < boundary <;> simp [hadvanced, hreason]

theorem foldl_recordDeleted_reason (rows : List (RunEventRow Payload)) (eviction : RunEventRunEviction) :
    (rows.foldl recordDeleted eviction).reason = eviction.reason := by
  induction rows generalizing eviction with
  | nil => rfl
  | cons row rows ih => exact ih _

theorem deleteRunEventCandidates_recorded {tables : RunEventTables Payload}
    {candidates : List RunEventDeleteCandidate} {reason : RunEventGapReason}
    {result : RunEventTables Payload × RunEventPruneSummary}
    (hdelete : tables.deleteRunEventCandidates candidates reason = .ok result) (runId : String)
    (eviction : RunEventRunEviction) (hlookup : result.2.lookup runId = some eviction) :
    eviction.Recorded := by
  unfold deleteRunEventCandidates at hdelete
  split at hdelete
  · cases hdelete
    cases hlookup
  · simp only [bind_ok_iff] at hdelete
    obtain ⟨_, -, _, -, _, -, hfold⟩ := hdelete
    obtain ⟨-, -, hothers, hpruned⟩ := foldlM_pruneRun (nodup_evictedRuns _) hfold
    by_cases hmem : runId ∈ evictedRuns (tables.events.filter (selectedBy candidates))
    · obtain ⟨state, state', recorded, -, hafter, -, hrecorded⟩ := hpruned runId hmem
      rw [hlookup] at hrecorded
      cases hrecorded
      obtain ⟨row, hrow, hrunId⟩ := mem_evictedRuns.mp hmem
      refine stateAfterEviction_recorded ?_ (foldl_recordDeleted_reason _ _) hafter
      rw [(foldl_recordDeleted _ _).1, Nat.zero_add]
      exact List.length_pos_of_mem (List.mem_filter.mpr ⟨hrow, decide_eq_true hrunId⟩)
    · rw [(hothers runId hmem).2] at hlookup
      cases hlookup

end RunEventTables

namespace Sample

def globalEvictions : List RunEventPruneSummary :=
  [(∅ : RunEventPruneSummary).insert "run-1"
    { events := 1, bytes := 10, firstSequence := 1, lastSequence := 1, previousDroppedThrough := 0
      newDroppedThrough := 1, reason := some .globalCapacity },
   (∅ : RunEventPruneSummary).insert "run-1"
    { events := 1, bytes := 10, firstSequence := 3, lastSequence := 3, previousDroppedThrough := 1
      newDroppedThrough := 1, reason := none }]

def laterEviction : RunEventPruneSummary :=
  (∅ : RunEventPruneSummary).insert "run-1"
    { events := 1, bytes := 10, firstSequence := 2, lastSequence := 2, previousDroppedThrough := 1
      newDroppedThrough := 3, reason := some .globalCapacity }

end Sample

open RunEventPruneSummary RunEventRunEviction in
/-- The second deletion takes the reason of the first from the summary, and with it the gap. -/
theorem mergedGap_lost :
    (forRun (Sample.globalEvictions.foldl merge ∅) "run-1").gap = none ∧
      ¬ GapKept (Sample.globalEvictions.filterMap (·.lookup "run-1"))
        (forRun (Sample.globalEvictions.foldl merge ∅) "run-1").gap := by
  have hnone : (forRun (Sample.globalEvictions.foldl merge ∅) "run-1").gap = none := by decide
  refine ⟨hnone, fun hkept => ?_⟩
  obtain ⟨gap, hgap⟩ := hkept.reported ⟨_, List.mem_cons_self, by decide⟩
  rw [hnone] at hgap
  cases hgap

open RunEventPruneSummary RunEventRunEviction in
/-- The deletion of the row between them moves the boundary over both. -/
theorem mergedGap_kept_sample :
    let summaries := Sample.globalEvictions ++ [Sample.laterEviction]
    GapKept (summaries.filterMap (·.lookup "run-1"))
      (forRun (summaries.foldl merge ∅) "run-1").gap := by
  refine (mergedGap_kept_iff _ _ ?_).mpr fun _ =>
    ⟨_, ⟨Sample.globalEvictions.filterMap (·.lookup "run-1"), [], rfl, by decide, nofun⟩, by decide⟩
  simp only [Sample.globalEvictions, Sample.laterEviction, List.cons_append, List.nil_append,
    List.mem_cons, List.not_mem_nil, or_false]
  rintro _ (rfl | rfl | rfl) eviction hlookup
  all_goals
    rw [AList.lookup_insert] at hlookup
    cases hlookup
    exact ⟨by decide, by decide⟩

end IronCrew
