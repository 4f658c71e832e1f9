import IronCrew.Api.FlowEvents
import IronCrew.Proof.Journal.Read

/-!
# What a durable event stream delivers

A stretch of the stream accounts for the sequences between two cursors, and stretches compose. The
stream of a terminal run is the stretch from the client's cursor to the latest sequence, followed by
at most one synthesized event, whenever the run's terminal event was recorded. When it was not, the
stream closes after its first page, and is complete only if that page reaches the end.
-/

namespace IronCrew

open Checked Outcome RunEventTables

variable {Payload : Type}

/-! ### Stretches of the stream -/

variable {row : RunEventRow Payload}

section Stretch

/-- Each event says what the journal holds at `now`. -/
def StreamEvent.Reports (tables : RunEventTables Payload) (runId : String) (now : Int) :
    StreamEvent Payload → Prop
  | .journalGap id gap => id.sequence = gap.lastSequence ∧
      ∀ row ∈ tables.liveRows runId now,
        ¬ (gap.firstSequence ≤ row.sequence ∧ row.sequence ≤ gap.lastSequence)
  | .entry id eventType payload => ∃ row ∈ tables.liveRows runId now,
      row.sequence = id.sequence ∧ row.eventType = eventType ∧ row.payload = payload
  | .synthesized _ _ _ _ => True
  | .error _ => False

structure Stretch (tables : RunEventTables Payload) (runId : String) (now : Int) (first last : Nat)
    (events : List (StreamEvent Payload)) : Prop where
  le : first ≤ last
  covered : events.flatMap StreamEvent.covered = List.range' (first + 1) (last - first)
  increasing : (events.filterMap StreamEvent.id).Pairwise (·.sequence < ·.sequence)
  within : ∀ cursor ∈ events.filterMap StreamEvent.id,
    cursor.runId = runId ∧ first < cursor.sequence ∧ cursor.sequence ≤ last
  reports : ∀ event ∈ events, event.Reports tables runId now

/-- No `run_complete` has been sent. -/
def Unfinished (events : List (StreamEvent Payload)) : Prop :=
  ∀ event ∈ events, event.isRunComplete = false

/-- One `run_complete` was sent, and it came last. -/
def Finished (events : List (StreamEvent Payload)) : Prop :=
  ∃ body last, events = body ++ [last] ∧ Unfinished body ∧ last.isRunComplete = true

variable {tables : RunEventTables Payload} {runId : String} {now : Int} {first mid last : Nat}
  {events later : List (StreamEvent Payload)}

theorem Unfinished.append (hevents : Unfinished events) (hlater : Unfinished later) :
    Unfinished (events ++ later) := by
  intro event hevent
  obtain hevent | hevent := List.mem_append.mp hevent
  · exact hevents event hevent
  · exact hlater event hevent

theorem Unfinished.finished_append (hevents : Unfinished events) (hlater : Finished later) :
    Finished (events ++ later) := by
  obtain ⟨body, event, rfl, hbody, hevent⟩ := hlater
  exact ⟨events ++ body, event, (List.append_assoc ..).symm, hevents.append hbody, hevent⟩

theorem Finished.eq_of_isRunComplete (hfinished : Finished events) {a b : StreamEvent Payload}
    (ha : a ∈ events) (hb : b ∈ events) (hcompleteA : a.isRunComplete = true)
    (hcompleteB : b.isRunComplete = true) : a = b := by
  obtain ⟨body, final, rfl, hbody, -⟩ := hfinished
  have hfinal : ∀ event ∈ body ++ [final], event.isRunComplete = true → event = final := by
    intro event hevent hcomplete
    obtain hevent | hevent := List.mem_append.mp hevent
    · rw [hbody event hevent] at hcomplete
      cases hcomplete
    · exact List.mem_singleton.mp hevent
  exact (hfinal a ha hcompleteA).trans (hfinal b hb hcompleteB).symm

theorem Stretch.nil (first : Nat) : Stretch tables runId now first first [] where
  le := le_rfl
  covered := by simp
  increasing := List.Pairwise.nil
  within := by simp
  reports := by simp

theorem Stretch.append (hevents : Stretch tables runId now first mid events)
    (hlater : Stretch tables runId now mid last later) :
    Stretch tables runId now first last (events ++ later) := by
  have hle := hevents.le
  have hle' := hlater.le
  refine ⟨hle.trans hle', ?_, ?_, ?_, ?_⟩
  · calc (events ++ later).flatMap StreamEvent.covered
      _ = List.range' (first + 1) (mid - first) ++ List.range' (mid + 1) (last - mid) := by
        rw [List.flatMap_append, hevents.covered, hlater.covered]
      _ = List.range' (first + 1) (last - first) := by
        have hstart : mid + 1 = first + 1 + (mid - first) := by omega
        rw [hstart, List.range'_append_1]
        congr 1
        omega
  · rw [List.filterMap_append]
    refine List.pairwise_append.mpr ⟨hevents.increasing, hlater.increasing, ?_⟩
    intro cursor hcursor next hnext
    exact (hevents.within cursor hcursor).2.2.trans_lt (hlater.within next hnext).2.1
  · intro cursor hcursor
    rw [List.filterMap_append, List.mem_append] at hcursor
    obtain hcursor | hcursor := hcursor
    · obtain ⟨hrun, habove, hbelow⟩ := hevents.within cursor hcursor
      exact ⟨hrun, habove, hbelow.trans hle'⟩
    · obtain ⟨hrun, habove, hbelow⟩ := hlater.within cursor hcursor
      exact ⟨hrun, hle.trans_lt habove, hbelow⟩
  · intro event hevent
    obtain hevent | hevent := List.mem_append.mp hevent
    · exact hevents.reports event hevent
    · exact hlater.reports event hevent

theorem Stretch.synthesized (first : Nat) (status : RunStatus) (durationMs : Nat)
    (usage : UsageSnapshot) :
    Stretch tables runId now first first [.synthesized runId status durationMs usage] where
  le := le_rfl
  covered := by simp [StreamEvent.covered]
  increasing := List.Pairwise.nil
  within := by simp [StreamEvent.id]
  reports := by simp [StreamEvent.Reports]

theorem Stretch.entry {id : RunEventCursor}
    (hrow : row ∈ tables.liveRows runId now) (hrun : id.runId = runId)
    (hsequence : id.sequence = row.sequence) (hfirst : row.sequence = first + 1) :
    Stretch tables runId now first (first + 1) [.entry id row.eventType row.payload] where
  le := Nat.le_succ _
  covered := by
    rw [Nat.add_sub_cancel_left]
    simp [StreamEvent.covered, hsequence, hfirst]
  increasing := List.pairwise_singleton _ _
  within := by
    intro cursor hcursor
    have hcursorId : cursor = id := by simpa [StreamEvent.id] using hcursor
    subst hcursorId
    exact ⟨hrun, by omega, by omega⟩
  reports := by
    intro event hevent
    obtain rfl := List.mem_singleton.mp hevent
    exact ⟨row, hrow, hsequence.symm, rfl, rfl⟩

theorem Stretch.gap {id : RunEventCursor} {gap : RunEventGap} (hrun : id.runId = runId)
    (hsequence : id.sequence = last) (hlast : gap.lastSequence = last)
    (hfirst : gap.firstSequence = first + 1) (hlt : first < last)
    (hmissing : ∀ row ∈ tables.liveRows runId now,
      ¬ (gap.firstSequence ≤ row.sequence ∧ row.sequence ≤ gap.lastSequence)) :
    Stretch tables runId now first last [.journalGap id gap] where
  le := hlt.le
  covered := by
    simp [StreamEvent.covered, hlast, hfirst]
  increasing := List.pairwise_singleton _ _
  within := by
    intro cursor hcursor
    have hcursorId : cursor = id := by simpa [StreamEvent.id] using hcursor
    subst hcursorId
    exact ⟨hrun, by omega, by omega⟩
  reports := by
    intro event hevent
    obtain rfl := List.mem_singleton.mp hevent
    exact ⟨hsequence.trans hlast.symm, hmissing⟩

end Stretch

/-! ### One page -/

variable {page : RunEventPage Payload} {state : StreamState Payload} {sequence : Nat}

section Page

variable [RunEventPayload Payload] {config : RunEventJournalConfig}
  {tables : RunEventTables Payload} {flow runId : String} {run : RunFence} {now : Int}

theorem terminalSequence_of_run_complete (hinv : JournalInvariant config tables)
    (hrow : row ∈ tables.liveRows runId now)
    (htype : row.eventType = "run_complete") :
    tables.terminalSequence runId = some row.sequence ∧ row.sequence = tables.latestOf runId := by
  obtain ⟨hmem, -⟩ := mem_liveRows.mp hrow
  obtain ⟨hevent, hrun⟩ := List.mem_filter.mp hmem
  obtain ⟨state, hstate⟩ := hinv.stateful row hevent
  rw [of_decide_eq_true hrun] at hstate
  have hterminal := (hinv.accounts runId state hstate).complete row hmem htype
  have hsequence : tables.terminalSequence runId = some row.sequence := by
    rw [terminalSequence, hstate]
    exact hterminal
  exact ⟨hsequence, (terminalSequence_within hinv hsequence).1⟩

theorem expect_new (message : String) (hrunId : validateRunId runId = .ok ())
    (hsequence : sequence ≠ 0) :
    ∃ id, expect message (RunEventCursor.new runId sequence).toOption = .ok id ∧
      id.runId = runId ∧ id.sequence = sequence := by
  obtain ⟨id, hid, hrun, hseq⟩ := RunEventCursor.new_eq_ok hrunId hsequence
  exact ⟨id, by rw [hid]; rfl, hrun, hseq⟩

/-- Consecutive rows are sent one by one; `run_complete` ends the list, so stopping there leaves none
of them behind. -/
theorem deliverEntries_ok (hinv : JournalInvariant config tables)
    (hrunId : validateRunId runId = .ok ()) {rows : List (RunEventRow Payload)} {after : Nat}
    (hlive : ∀ row ∈ rows, row ∈ tables.liveRows runId now)
    (hrange : rows.map (·.sequence) = List.range' (after + 1) rows.length)
    (hlatest : after + rows.length ≤ tables.latestOf runId) :
    ∃ events deliveredTerminal,
      deliverEntries runId after (rows.map RunEventRow.entry)
        = .ok (events, after + rows.length, deliveredTerminal) ∧
      Stretch tables runId now after (after + rows.length) events ∧
      (deliveredTerminal = false → Unfinished events) ∧
      (deliveredTerminal = true → Finished events ∧ after + rows.length = tables.latestOf runId) := by
  induction rows generalizing after with
  | nil => exact ⟨[], false, rfl, Stretch.nil after, fun _ => by simp [Unfinished], by simp⟩
  | cons row rows ih =>
    simp only [List.map_cons, List.length_cons, List.range'_succ, List.cons.injEq] at hrange
    obtain ⟨hfirst, hrest⟩ := hrange
    rw [List.length_cons] at hlatest ⊢
    have hrow := hlive row (List.mem_cons_self ..)
    obtain ⟨id, hid, hrun, hsequence⟩ := expect_new
      "validated journal event must have a valid cursor" hrunId
      (hfirst.trans_ne (Nat.succ_ne_zero _))
    have hstretch := Stretch.entry hrow hrun hsequence hfirst
    by_cases hcomplete : row.eventType = "run_complete"
    · -- the terminal event is the latest, so it is the last of the page
      have hlast := (terminalSequence_of_run_complete hinv hrow hcomplete).2
      obtain rfl : rows = [] := by
        refine List.length_eq_zero_iff.mp ?_
        omega
      refine ⟨[.entry id row.eventType row.payload], true, ?_, hstretch, by simp, fun _ => ⟨?_, ?_⟩⟩
      · refine bind_ok_iff.mpr ⟨id, hid, ?_⟩
        simp only [RunEventRow.entry, if_pos hcomplete, hfirst]
        rfl
      · exact ⟨[], _, rfl, by simp [Unfinished], by simp [StreamEvent.isRunComplete, hcomplete]⟩
      · simp only [List.length_nil]
        omega
    · obtain ⟨events, deliveredTerminal, hevents, hstretch', hunfinished, hfinished⟩ :=
        ih (fun other hother => hlive other (List.mem_cons_of_mem _ hother))
          hrest (by omega)
      have hsent : Unfinished [StreamEvent.entry id row.eventType row.payload] := by
        simp [Unfinished, StreamEvent.isRunComplete, hcomplete]
      have hend : after + 1 + rows.length = after + (rows.length + 1) := by omega
      rw [hend] at hevents hstretch' hfinished
      refine ⟨.entry id row.eventType row.payload :: events, deliveredTerminal, ?_,
        hstretch.append hstretch', fun hnot => hsent.append (hunfinished hnot), fun hdone => ?_⟩
      · refine bind_ok_iff.mpr ⟨id, hid, ?_⟩
        simp only [RunEventRow.entry, if_neg hcomplete, hfirst]
        exact bind_ok_iff.mpr ⟨_, hevents, rfl⟩
      · exact ⟨hsent.finished_append (hfinished hdone).1, (hfinished hdone).2⟩

def afterPage (runId : String) (acknowledgedThrough : Option Nat) (state : StreamState Payload)
    (page : RunEventPage Payload) (sent : List (StreamEvent Payload)) :
    List (StreamEvent Payload) × Option (StreamState Payload) :=
  match (page.terminal.bind (closeStream runId acknowledgedThrough page.lastSequence) :
      Option (List (StreamEvent Payload))) with
  | some closing => (sent ++ closing, none)
  | none => (sent, some { state with afterSequence := page.lastSequence, pendingPage := none })

omit [RunEventPayload Payload] in
theorem deliverPage_eq {acknowledgedThrough : Option Nat}
    {notices events : List (StreamEvent Payload)} (after : Nat)
    {deliveredTerminal : Bool}
    (hnotices : (match page.gap with
      | some gap => do
        let notice ← deliverGap runId gap
        return ([notice], max state.afterSequence gap.lastSequence)
      | none => .ok ([], state.afterSequence)) = .ok (notices, after))
    (hevents : deliverEntries runId after page.events
      = .ok (events, page.lastSequence, deliveredTerminal)) :
    deliverPage runId acknowledgedThrough state page
      = .ok (if deliveredTerminal then (notices ++ events, none)
        else afterPage runId acknowledgedThrough state page (notices ++ events)) := by
  refine bind_ok_iff.mpr ⟨_, hnotices, bind_ok_iff.mpr ⟨_, hevents, ?_⟩⟩
  cases deliveredTerminal with
  | true => rfl
  | false =>
    simp only [Bool.false_eq_true, if_false, afterPage]
    cases (page.terminal.bind (closeStream runId acknowledgedThrough page.lastSequence) :
        Option (List (StreamEvent Payload))) with
    | none => rfl
    | some closing => rfl

theorem deliverPage_ok (hinv : JournalInvariant config tables)
    (hrunId : validateRunId runId = .ok ()) (acknowledgedThrough : Option Nat)
    (hpage : ReadPage config tables run runId now state.afterSequence page) :
    ∃ sent deliveredTerminal,
      deliverPage runId acknowledgedThrough state page
        = .ok (if deliveredTerminal then (sent, none)
          else afterPage runId acknowledgedThrough state page sent) ∧
      Stretch tables runId now state.afterSequence page.lastSequence sent ∧
      (deliveredTerminal = false → Unfinished sent) ∧
      (deliveredTerminal = true → Finished sent ∧ page.lastSequence = tables.latestOf runId) := by
  have hcontents := hpage.contents
  have hafter := hpage.after_eq
  have hlatest := (hpage.covered_eq hinv).2.2.1
  obtain ⟨pageRunId, pageAfter, events, bounds, gap, terminal⟩ := page
  simp only [RunEventPage.lastSequence] at *
  subst hafter
  cases hcontents with
  | gap last reason hfirst hlast hmissing =>
    obtain ⟨id, hid, hrun, hsequence⟩ := expect_new
      "validated journal gap must have a valid cursor" hrunId
      (Nat.ne_of_gt (Nat.lt_of_le_of_lt (Nat.zero_le _) hfirst))
    let gap : RunEventGap := { firstSequence := state.afterSequence + 1, lastSequence := last, reason }
    refine ⟨[.journalGap id gap] ++ [], false, deliverPage_eq last ?_ rfl, ?_, ?_, by simp⟩
    · have hnotice : (deliverGap runId gap : Except Panic (StreamEvent Payload))
          = .ok (.journalGap id gap) :=
        bind_ok_iff.mpr ⟨id, hid, rfl⟩
      refine bind_ok_iff.mpr ⟨_, hnotice, ?_⟩
      rw [max_eq_right hfirst.le]
      rfl
    · refine Stretch.gap hrun hsequence rfl rfl hfirst fun row hrow hwithin => ?_
      exact absurd hwithin.2 (Nat.not_le_of_lt (hmissing row hrow hwithin.1))
    · simp [Unfinished, StreamEvent.isRunComplete]
  | done hdone =>
    exact ⟨[] ++ [], false, deliverPage_eq _ rfl rfl, Stretch.nil _, by simp [Unfinished], by simp⟩
  | rows rows hsome hrows hrange hcount hbytes =>
    rw [lastSequence_rows hrange] at hlatest ⊢
    obtain ⟨events, deliveredTerminal, hevents, hspec⟩ := deliverEntries_ok hinv hrunId
      (fun row hrow => (mem_rowsAfter.mp (hrows.subset hrow)).1) hrange hlatest
    refine ⟨[] ++ events, deliveredTerminal, deliverPage_eq _ rfl ?_, hspec⟩
    simp only [RunEventPage.lastSequence]
    rw [lastSequence_rows hrange]
    exact hevents

end Page

/-! ### The end of a page of a terminal run -/

section Closing

variable [RunEventPayload Payload] {config : RunEventJournalConfig}
  {tables : RunEventTables Payload} {runId : String} {run : RunFence} {now : Int}
  {acknowledgedThrough : Option Nat} {state : StreamState Payload} {page : RunEventPage Payload}

def Ended (run : RunFence) : Prop :=
  ∃ status, RunStatus.fromStr run.status = .ok status ∧ status.isTerminal

theorem ReadPage.terminal_eq {after : Nat}
    (hpage : ReadPage config tables run runId now after page) (hended : Ended run) :
    ∃ terminal, page.terminal = some terminal ∧
      terminal.eventSequence = tables.terminalSequence runId := by
  obtain ⟨status, hstatus, hterminal⟩ := hended
  obtain ⟨terminal, hsome⟩ := Option.isSome_iff_exists.mp ((hpage.terminal status hstatus).mpr hterminal)
  exact ⟨terminal, hsome, hpage.terminalSequence terminal hsome⟩

theorem deliverPage_recorded (hinv : JournalInvariant config tables)
    (hrunId : validateRunId runId = .ok ())
    (hpage : ReadPage config tables run runId now state.afterSequence page)
    (hended : Ended run) (hrecorded : tables.terminalSequence runId = some sequence)
    (hunseen : cursorAcknowledgesTerminal acknowledgedThrough sequence = false) :
    ∃ sent, (deliverPage runId acknowledgedThrough state page = .ok (sent, none) ∧
        Stretch tables runId now state.afterSequence (tables.latestOf runId) sent ∧ Finished sent) ∨
      (deliverPage runId acknowledgedThrough state page = .ok (sent, some { state with
          afterSequence := page.lastSequence
          pendingPage := none }) ∧
        page.lastSequence < tables.latestOf runId ∧
        Stretch tables runId now state.afterSequence page.lastSequence sent ∧ Unfinished sent) := by
  obtain ⟨sent, deliveredTerminal, hdeliver, hstretch, hunfinished, hfinished⟩ :=
    deliverPage_ok hinv hrunId acknowledgedThrough hpage
  obtain ⟨terminal, hsome, heventSequence⟩ := hpage.terminal_eq hended
  have hlatest := (terminalSequence_within hinv hrecorded).1
  have hle := (hpage.covered_eq hinv).2.2.1
  cases deliveredTerminal with
  | true =>
    obtain ⟨hdone, hlast⟩ := hfinished rfl
    exact ⟨sent, Or.inl ⟨hdeliver, hlast ▸ hstretch, hdone⟩⟩
  | false =>
    simp only [Bool.false_eq_true, if_false, afterPage, hsome, Option.bind_some, closeStream,
      heventSequence, hrecorded, hunseen] at hdeliver
    by_cases hmore : page.lastSequence < sequence
    · rw [if_pos hmore] at hdeliver
      exact ⟨sent, Or.inr ⟨hdeliver, hlatest ▸ hmore, hstretch, hunfinished rfl⟩⟩
    · rw [if_neg hmore] at hdeliver
      have hlast : page.lastSequence = tables.latestOf runId := by omega
      rw [hlast] at hstretch
      refine ⟨_, Or.inl ⟨hdeliver, hstretch.append (Stretch.synthesized _ _ _ _), ?_⟩⟩
      exact (hunfinished rfl).finished_append ⟨[], _, rfl, by simp [Unfinished], rfl⟩

theorem deliverPage_unrecorded (hinv : JournalInvariant config tables)
    (hrunId : validateRunId runId = .ok ()) (acknowledgedThrough : Option Nat)
    (hpage : ReadPage config tables run runId now state.afterSequence page)
    (hended : Ended run) (hrecorded : tables.terminalSequence runId = none) :
    ∃ sent, deliverPage runId acknowledgedThrough state page = .ok (sent, none) ∧
      Stretch tables runId now state.afterSequence page.lastSequence sent ∧ Finished sent := by
  obtain ⟨sent, deliveredTerminal, hdeliver, hstretch, hunfinished, hfinished⟩ :=
    deliverPage_ok hinv hrunId acknowledgedThrough hpage
  obtain ⟨terminal, hsome, heventSequence⟩ := hpage.terminal_eq hended
  cases deliveredTerminal with
  | true => exact ⟨sent, hdeliver, hstretch, (hfinished rfl).1⟩
  | false =>
    simp only [Bool.false_eq_true, if_false, afterPage, hsome, Option.bind_some, closeStream,
      heventSequence, hrecorded] at hdeliver
    refine ⟨_, hdeliver, hstretch.append (Stretch.synthesized _ _ _ _), ?_⟩
    exact (hunfinished rfl).finished_append ⟨[], _, rfl, by simp [Unfinished], rfl⟩

theorem deliverPage_acknowledged (hinv : JournalInvariant config tables)
    (hpage : ReadPage config tables run runId now state.afterSequence page)
    (hended : Ended run) (hrecorded : tables.terminalSequence runId = some sequence)
    (hseen : cursorAcknowledgesTerminal acknowledgedThrough sequence = true)
    (hafter : state.afterSequence = tables.latestOf runId) :
    deliverPage runId acknowledgedThrough state page = .ok ([], none) := by
  obtain ⟨terminal, hsome, heventSequence⟩ := hpage.terminal_eq hended
  have hlatest := (terminalSequence_within hinv hrecorded).1
  obtain ⟨hevents, hgap, hlast⟩ : page.events = [] ∧ page.gap = none ∧
      page.lastSequence = state.afterSequence := by
    have hbounds := boundsAt_facts hinv runId now
    have hcontents := hpage.contents
    have hcursor := hpage.after_eq
    obtain ⟨pageRunId, pageAfter, events, bounds, gap, pageTerminal⟩ := page
    simp only [RunEventPage.lastSequence] at hcontents hcursor ⊢
    cases hcontents with
    | gap last reason hfirst hend hmissing => omega
    | done hdone => exact ⟨rfl, rfl, hcursor⟩
    | rows rows hrows hinitial hrange hcount hbytes =>
      have hpos := List.length_pos_iff.mpr hrows
      have hend := rows_end_le (fun row hrow => (hbounds.within row hrow).2) hrows hinitial hrange
      rw [hbounds.latest_eq] at hend
      omega
  have hdeliver : deliverPage runId acknowledgedThrough state page
      = .ok (if false then ([] ++ [], none)
        else afterPage runId acknowledgedThrough state page ([] ++ [])) :=
    deliverPage_eq state.afterSequence (by rw [hgap]) (by rw [hevents, hlast]; rfl)
  simp only [Bool.false_eq_true, if_false, afterPage, hsome, Option.bind_some, closeStream,
    heventSequence, hrecorded, hlast, hafter, ← hlatest, lt_irrefl, hseen, if_true] at hdeliver
  exact hdeliver

end Closing

/-! ### When one page reaches the end -/

section OnePage

variable [RunEventPayload Payload] {config : RunEventJournalConfig}
  {tables : RunEventTables Payload} {flow runId : String} {run : RunFence} {now : Int} {after : Nat}

/-- Everything after the cursor fits one page: the dropped range does not end between the cursor and
the latest sequence, and either no live row follows the cursor, or the live rows that follow are all
the sequences up to the latest and keep the limits of a page. -/
def OnePage (config : RunEventJournalConfig) (tables : RunEventTables Payload) (runId : String)
    (now : Int) (after : Nat) : Prop :=
  let rows := tables.rowsAfter runId now after
  let droppedThrough := (tables.boundsAt runId now).1.droppedThrough
  ¬ (after < droppedThrough ∧ droppedThrough < tables.latestOf runId) ∧
    (rows = [] ∨
      (rows.map (·.sequence) = List.range' (after + 1) (tables.latestOf runId - after) ∧
        rows.length ≤ config.pageMaxEvents ∧
        (bytesOf rows ≤ config.pageMaxBytes ∨ rows.length = 1)))

theorem ReadPage.lastSequence_of_dropped (hpage : ReadPage config tables run runId now after page)
    (hdropped : after < (tables.boundsAt runId now).1.droppedThrough) :
    page.lastSequence = (tables.boundsAt runId now).1.droppedThrough := by
  have hcomputed := hpage.computed
  rw [pageContents, if_pos hdropped] at hcomputed
  obtain ⟨reason, -, hresult⟩ := bind_ok_iff.mp hcomputed
  obtain ⟨-, hgap⟩ := Prod.mk.inj (Except.ok.inj hresult)
  rw [RunEventPage.lastSequence, ← hgap]

theorem ReadPage.lastSequence_of_noRows (hinv : JournalInvariant config tables)
    (hpage : ReadPage config tables run runId now after page)
    (hdropped : ¬ after < (tables.boundsAt runId now).1.droppedThrough)
    (hnone : tables.rowsAfter runId now after = []) :
    page.lastSequence = tables.latestOf runId := by
  have hcomputed := hpage.computed
  simp only [pageContents, if_neg hdropped, max_eq_left (Nat.le_of_not_lt hdropped), pageRows, hnone,
    List.take_nil, boundedSequences, List.map_nil, splitAtGap] at hcomputed
  obtain ⟨hevents, hgap⟩ := Prod.mk.inj (Except.ok.inj hcomputed)
  rw [RunEventPage.lastSequence, ← hevents, ← hgap, boundsAt_latest, hpage.after_eq]
  by_cases hlt : after < tables.latestOf runId
  · rw [if_pos hlt]
  · rw [if_neg hlt]
    obtain ⟨-, hafter, hle, -⟩ := hpage.covered_eq hinv
    exact le_antisymm (hafter.trans hle) (Nat.le_of_not_lt hlt)

theorem ReadPage.lastSequence_of_fits (hpage : ReadPage config tables run runId now after page)
    (hdropped : ¬ after < (tables.boundsAt runId now).1.droppedThrough)
    (hsome : tables.rowsAfter runId now after ≠ [])
    (hrange : (tables.rowsAfter runId now after).map (·.sequence)
      = List.range' (after + 1) (tables.rowsAfter runId now after).length)
    (hcount : (tables.rowsAfter runId now after).length ≤ config.pageMaxEvents)
    (hbytes : bytesOf (tables.rowsAfter runId now after) ≤ config.pageMaxBytes ∨
      (tables.rowsAfter runId now after).length = 1) :
    page.lastSequence = after + (tables.rowsAfter runId now after).length := by
  have hcomputed := hpage.computed
  rw [pageContents, if_neg hdropped, max_eq_left (Nat.le_of_not_lt hdropped)] at hcomputed
  have hpageRows : pageRows config tables runId now after = tables.rowsAfter runId now after := by
    rw [pageRows, List.take_of_length_le hcount,
      boundedSequences_eq_self (hbytes.imp_right fun hlength => hlength.le)]
  have hsplit : splitAtGap (after + 1)
      ((tables.rowsAfter runId now after).map RunEventRow.entry)
      = ((tables.rowsAfter runId now after).map RunEventRow.entry, none) := by
    apply splitAtGap_of_range
    rw [map_entry_sequence, List.length_map, hrange]
  obtain ⟨row, rows, hcons⟩ := List.exists_cons_of_ne_nil hsome
  simp only [hpageRows, hsplit] at hcomputed
  have hlast := lastSequence_rows hrange
  simp only [hcons, List.map_cons] at hcomputed hlast ⊢
  obtain ⟨hevents, hgap⟩ := Prod.mk.inj (Except.ok.inj hcomputed)
  rw [RunEventPage.lastSequence, ← hevents, ← hgap, hpage.after_eq]
  exact hlast

section

variable (hinv : JournalInvariant config tables)
  (hpage : ReadPage config tables run runId now after page)
include hinv hpage

theorem ReadPage.rows_of_lastSequence (hlast : page.lastSequence = tables.latestOf runId) :
    tables.rowsAfter runId now after = [] ∨
      ((tables.rowsAfter runId now after).map (·.sequence)
          = List.range' (after + 1) (tables.latestOf runId - after) ∧
        (tables.rowsAfter runId now after).length ≤ config.pageMaxEvents ∧
        (bytesOf (tables.rowsAfter runId now after) ≤ config.pageMaxBytes ∨
          (tables.rowsAfter runId now after).length = 1)) := by
  have hbounds := boundsAt_facts hinv runId now
  have hbelow : ∀ row ∈ tables.rowsAfter runId now after, row.sequence ≤ tables.latestOf runId :=
    fun row hrow => hbounds.latest_eq ▸ (hbounds.within row (mem_rowsAfter.mp hrow).1).2
  have hcontents := hpage.contents
  have hafter := hpage.after_eq
  obtain ⟨pageRunId, pageAfter, events, bounds, gap, terminal⟩ := page
  simp only [RunEventPage.lastSequence] at hlast hafter hcontents
  subst hafter
  cases hcontents with
  | gap last reason hfirst hle hmissing =>
    left
    rw [List.eq_nil_iff_forall_not_mem]
    intro row hrow
    obtain ⟨hlive, habove⟩ := mem_rowsAfter.mp hrow
    have hgap := hmissing row hlive habove
    have hlatest := hbelow row hrow
    simp only at hlast
    omega
  | done hdone =>
    left
    rw [List.eq_nil_iff_forall_not_mem]
    intro row hrow
    have habove := (mem_rowsAfter.mp hrow).2
    have hlatest := hbelow row hrow
    omega
  | rows rows hsome hrows hrange hcount hbytes =>
    right
    simp only [lastSequence_rows hrange] at hlast
    obtain ⟨rest, hrest⟩ := hrows
    have hnumbered := numbered_rowsAfter hinv runId now pageAfter
    rw [← hrest] at hnumbered hbelow ⊢
    obtain rfl : rest = [] := by
      rw [List.eq_nil_iff_forall_not_mem]
      intro row hrow
      -- the last row of the page already has the latest sequence
      have hpos := List.length_pos_iff.mpr hsome
      have hmem : tables.latestOf runId ∈ rows.map (·.sequence) := by
        rw [hrange, List.mem_range'_1]
        omega
      obtain ⟨final, hfinal, hsequence⟩ := List.mem_map.mp hmem
      have hlt := (List.pairwise_append.mp hnumbered).2.2 final hfinal row hrow
      have hle := hbelow row (List.mem_append_right _ hrow)
      omega
    rw [List.append_nil]
    refine ⟨?_, hcount, hbytes⟩
    rw [hrange, ← hlast, Nat.add_sub_cancel_left]

theorem ReadPage.lastSequence_eq_latest_iff :
    page.lastSequence = tables.latestOf runId ↔ OnePage config tables runId now after := by
  have hbounds := boundsAt_facts hinv runId now
  constructor
  · intro hlast
    refine ⟨fun hdropped => ?_, ?_⟩
    · have hsame := hpage.lastSequence_of_dropped hdropped.1
      omega
    · exact hpage.rows_of_lastSequence hinv hlast
  · rintro ⟨hboundary, hrows⟩
    by_cases hdropped : after < (tables.boundsAt runId now).1.droppedThrough
    · have hle := hbounds.dropped_le
      have hlatest := hbounds.latest_eq
      rw [hpage.lastSequence_of_dropped hdropped]
      omega
    · by_cases hnone : tables.rowsAfter runId now after = []
      · exact hpage.lastSequence_of_noRows hinv hdropped hnone
      · obtain hnil | ⟨hrange, hcount, hbytes⟩ := hrows
        · exact absurd hnil hnone
        · have hlength : (tables.rowsAfter runId now after).length = tables.latestOf runId - after := by
            simpa using congrArg List.length hrange
          obtain ⟨-, hafter, hle, -⟩ := hpage.covered_eq hinv
          rw [hpage.lastSequence_of_fits hdropped hnone (by rw [hrange, hlength]) hcount hbytes,
            hlength]
          omega

end

end OnePage

/-! ### The loop -/

section Loop

variable [RunEventPayload Payload] {config : RunEventJournalConfig}
  {tables : RunEventTables Payload} {flow runId : String} {run : RunFence} {now : Int}
  {acknowledgedThrough : Option Nat} {faults : Nat → Option StreamFault}

/-- Of any five reads in a row, one completes. -/
def Recovers (faults : Nat → Option StreamFault) : Prop :=
  ∀ attempt, ∃ k < 5, faults (attempt + k) = none

structure FailuresCounted (faults : Nat → Option StreamFault) (state : StreamState Payload) : Prop
    where
  le : state.consecutiveFailures ≤ state.attempts
  failed : ∀ attempt < state.attempts, state.attempts - state.consecutiveFailures ≤ attempt →
    (faults attempt).isSome

omit [RunEventPayload Payload] in
theorem FailuresCounted.lt (hrecovers : Recovers faults)
    (hcounted : FailuresCounted faults state) : state.consecutiveFailures < 5 := by
  by_contra hmany
  have hle := hcounted.le
  obtain ⟨k, hk, hnone⟩ := hrecovers (state.attempts - state.consecutiveFailures)
  have hfailed := hcounted.failed (state.attempts - state.consecutiveFailures + k) (by omega)
    (by omega)
  rw [hnone] at hfailed
  cases hfailed

omit [RunEventPayload Payload] in
theorem FailuresCounted.succ (hcounted : FailuresCounted faults state)
    (hfault : (faults state.attempts).isSome) :
    FailuresCounted faults { state with
      consecutiveFailures := state.consecutiveFailures + 1
      attempts := state.attempts + 1 } where
  le := Nat.succ_le_succ hcounted.le
  failed := by
    intro attempt hlt habove
    simp only at hlt habove
    obtain rfl | hbefore := Nat.lt_succ_iff_lt_or_eq.mp hlt |>.symm
    · exact hfault
    · exact hcounted.failed attempt hbefore (by omega)

def remaining (latest : Nat) (state : StreamState Payload) : Nat :=
  5 * (latest - state.afterSequence) + (4 - state.consecutiveFailures)

/-- From `state`, the loop sends `events` and returns within `bound` more rounds. -/
def Returns (config : RunEventJournalConfig) (run : RunFence) (now : Int) (flow runId : String)
    (tables : RunEventTables Payload) (acknowledgedThrough : Option Nat)
    (faults : Nat → Option StreamFault) (state : StreamState Payload) (bound : Nat)
    (events : List (StreamEvent Payload)) : Prop :=
  ∀ fuel, bound < fuel → streamLoop config (some run) now flow runId tables acknowledgedThrough
    faults fuel state = .ok (events, true)

theorem Returns.of_return {sent : List (StreamEvent Payload)}
    (hstep : streamStep config (some run) now flow runId tables acknowledgedThrough faults state
      = .ok (sent, none)) (bound : Nat) :
    Returns config run now flow runId tables acknowledgedThrough faults state bound sent := by
  intro fuel hfuel
  cases fuel with
  | zero => cases hfuel
  | succ fuel =>
    rw [streamLoop, hstep]
    rfl

theorem Returns.of_next {state next : StreamState Payload} {bound : Nat}
    {sent events : List (StreamEvent Payload)}
    (hstep : streamStep config (some run) now flow runId tables acknowledgedThrough faults state
      = .ok (sent, some next))
    (hnext : Returns config run now flow runId tables acknowledgedThrough faults next bound events) :
    Returns config run now flow runId tables acknowledgedThrough faults state (bound + 1)
      (sent ++ events) := by
  intro fuel hfuel
  cases fuel with
  | zero => cases hfuel
  | succ fuel =>
    refine bind_ok_iff.mpr ⟨_, hstep, bind_ok_iff.mpr ⟨(events, true), ?_, rfl⟩⟩
    exact hnext fuel (Nat.lt_of_succ_lt_succ hfuel)

theorem streamLoop_recorded (hinv : JournalInvariant config tables)
    (hconfig : config.validate = .ok ()) (hrun : ReadableRun run flow runId)
    (hended : Ended run) (hrecorded : tables.terminalSequence runId = some sequence)
    (hunseen : cursorAcknowledgesTerminal acknowledgedThrough sequence = false)
    (hrecovers : Recovers faults) (bound : Nat) (state : StreamState Payload)
    (hpending : state.pendingPage = none) (hafter : state.afterSequence < tables.latestOf runId)
    (hcounted : FailuresCounted faults state)
    (hbound : remaining (tables.latestOf runId) state ≤ bound) :
    ∃ events, Returns config run now flow runId tables acknowledgedThrough faults state bound
        events ∧
      Stretch tables runId now state.afterSequence (tables.latestOf runId) events ∧
      Finished events := by
  induction bound generalizing state with
  | zero =>
    unfold remaining at hbound
    omega
  | succ bound ih =>
    cases hfault : faults state.attempts with
    | some fault =>
      have hnext := hcounted.succ (Option.isSome_iff_exists.mpr ⟨fault, hfault⟩)
      have hfew := hnext.lt hrecovers
      have hstep : streamStep config (some run) now flow runId tables acknowledgedThrough faults
          state = .ok ([], some { state with
            consecutiveFailures := state.consecutiveFailures + 1
            attempts := state.attempts + 1 }) := by
        simp only [streamStep, hpending, readAttempt, hfault]
        rw [if_neg (Nat.not_le_of_lt hfew)]
      have hless : remaining (tables.latestOf runId) { state with
          consecutiveFailures := state.consecutiveFailures + 1
          attempts := state.attempts + 1 } ≤ bound := by
        simp only [remaining] at hbound hfew ⊢
        omega
      obtain ⟨events, hreturns, hspec⟩ := ih { state with
          consecutiveFailures := state.consecutiveFailures + 1
          attempts := state.attempts + 1 } hpending hafter hnext hless
      exact ⟨events, Returns.of_next hstep hreturns, hspec⟩
    | none =>
      obtain ⟨page, hread, hpage⟩ := readRunEventsJournal_ok hinv hconfig hrun now hafter.le
      let reading : StreamState Payload :=
        { state with consecutiveFailures := 0, attempts := state.attempts + 1 }
      have hstep : streamStep config (some run) now flow runId tables acknowledgedThrough faults
          state = deliverPage runId acknowledgedThrough reading page := by
        simp only [streamStep, hpending, readAttempt, hfault, hread, Except.mapError]
        rfl
      replace hpage : ReadPage config tables run runId now reading.afterSequence page := hpage
      obtain ⟨sent, ⟨hdeliver, hstretch, hfinished⟩ | ⟨hdeliver, hmore, hstretch, hunfinished⟩⟩ :=
        deliverPage_recorded hinv hrun.runId_ok hpage hended hrecorded hunseen
      · exact ⟨sent, Returns.of_return (hstep.trans hdeliver) _, hstretch, hfinished⟩
      · have hprogress := (hpage.covered_eq hinv).2.2.2 hafter
        let advanced : StreamState Payload :=
          { reading with afterSequence := page.lastSequence, pendingPage := none }
        have hless : remaining (tables.latestOf runId) advanced ≤ bound := by
          simp only [remaining, reading, advanced] at hbound hprogress hmore ⊢
          omega
        have hcountedNext : FailuresCounted faults advanced :=
          ⟨Nat.zero_le _, fun attempt hlt habove => absurd hlt (Nat.not_lt_of_le habove)⟩
        obtain ⟨events, hreturns, hrest, hfinished⟩ := ih advanced rfl hmore hcountedNext hless
        exact ⟨sent ++ events, Returns.of_next (hstep.trans hdeliver) hreturns,
          hstretch.append hrest, hunfinished.finished_append hfinished⟩

end Loop

/-! ### Complete streams -/

section Complete

def StreamEvent.delivered : StreamEvent Payload → Option (Nat × String × Payload)
  | .journalGap _ _ => none
  | .entry id eventType payload => some (id.sequence, eventType, payload)
  | .synthesized _ _ _ _ => none
  | .error _ => none

def RunEventRow.delivered (row : RunEventRow Payload) : Nat × String × Payload :=
  (row.sequence, row.eventType, row.payload)

/-- The stream a client with the cursor `after` should receive from a terminal run. -/
structure StreamComplete (tables : RunEventTables Payload) (runId : String) (now : Int) (after : Nat)
    (events : List (StreamEvent Payload)) : Prop where
  -- the retained events after the cursor, once and in order
  delivered : events.filterMap StreamEvent.delivered
    = (tables.rowsAfter runId now after).map RunEventRow.delivered
  -- events and gap notices together account for every sequence
  covered : events.flatMap StreamEvent.covered
    = List.range' (after + 1) (tables.latestOf runId - after)
  -- a gap notice covers missing sequences only
  gaps : ∀ id gap, .journalGap id gap ∈ events → ∀ row ∈ tables.liveRows runId now,
    ¬ (gap.firstSequence ≤ row.sequence ∧ row.sequence ≤ gap.lastSequence)
  increasing : (events.filterMap StreamEvent.id).Pairwise (·.sequence < ·.sequence)
  acknowledged : (∃ sequence, tables.terminalSequence runId = some sequence ∧ sequence ≤ after) →
    Unfinished events
  finished : ¬ (∃ sequence, tables.terminalSequence runId = some sequence ∧ sequence ≤ after) →
    Finished events
  synthesized : ∀ runId' status durationMs usage,
    .synthesized runId' status durationMs usage ∈ events →
      ∀ row ∈ tables.rowsAfter runId now after, row.eventType ≠ "run_complete"
  errorFree : ∀ message, .error message ∉ events

variable [RunEventPayload Payload] {config : RunEventJournalConfig}
  {tables : RunEventTables Payload} {runId : String} {now : Int} {after : Nat}
  {events : List (StreamEvent Payload)}

theorem Stretch.delivered_of_live (hinv : JournalInvariant config tables)
    (hstretch : Stretch tables runId now after (tables.latestOf runId) events)
    (hrow : row ∈ tables.rowsAfter runId now after) :
    ∃ id, StreamEvent.entry id row.eventType row.payload ∈ events ∧ id.sequence = row.sequence := by
  obtain ⟨hlive, habove⟩ := mem_rowsAfter.mp hrow
  have hbounds := boundsAt_facts hinv runId now
  have hbelow := (hbounds.within row hlive).2
  rw [hbounds.latest_eq] at hbelow
  have hmem : row.sequence ∈ events.flatMap StreamEvent.covered := by
    rw [hstretch.covered, List.mem_range'_1]
    omega
  obtain ⟨event, hevent, hcovered⟩ := List.mem_flatMap.mp hmem
  have hreports := hstretch.reports event hevent
  cases event with
  | journalGap id gap =>
    rw [StreamEvent.covered, List.mem_range'_1] at hcovered
    exact absurd ⟨hcovered.1, by omega⟩ (hreports.2 row hlive)
  | entry id eventType payload =>
    obtain ⟨other, hother, hsequence, rfl, rfl⟩ := hreports
    have hsame : id.sequence = row.sequence := (List.mem_singleton.mp hcovered).symm
    -- one run has one row for a sequence
    obtain ⟨hmemOther, hrunOther⟩ := List.mem_filter.mp (mem_liveRows.mp hother).1
    obtain ⟨hmemRow, hrunRow⟩ := List.mem_filter.mp (mem_liveRows.mp hlive).1
    have hkey : other.key = row.key := Prod.ext
      ((of_decide_eq_true hrunOther).trans (of_decide_eq_true hrunRow).symm)
      (hsequence.trans hsame)
    rw [RunEventRow.eq_of_key_eq hinv.keys_nodup hmemOther hmemRow hkey] at hevent
    exact ⟨id, hevent, hsame⟩
  | synthesized runId' status durationMs usage => cases hcovered
  | error message => cases hcovered

omit [RunEventPayload Payload] in
theorem mem_delivered {value : Nat × String × Payload} :
    value ∈ events.filterMap StreamEvent.delivered ↔
      ∃ id eventType payload, StreamEvent.entry id eventType payload ∈ events ∧
        (id.sequence, eventType, payload) = value := by
  rw [List.mem_filterMap]
  constructor
  · rintro ⟨event, hevent, hvalue⟩
    cases event with
    | entry id eventType payload => exact ⟨id, eventType, payload, hevent, Option.some.inj hvalue⟩
    | journalGap id gap => cases hvalue
    | synthesized runId' status durationMs usage => cases hvalue
    | error message => cases hvalue
  · rintro ⟨id, eventType, payload, hevent, rfl⟩
    exact ⟨_, hevent, rfl⟩

section

variable (hinv : JournalInvariant config tables)
  (hstretch : Stretch tables runId now after (tables.latestOf runId) events)
include hinv hstretch

theorem Stretch.delivered_eq : events.filterMap StreamEvent.delivered
      = (tables.rowsAfter runId now after).map RunEventRow.delivered := by
  have hsent : (events.filterMap StreamEvent.delivered).Pairwise (·.1 < ·.1) := by
    refine List.pairwise_filterMap.mpr ((List.pairwise_filterMap.mp hstretch.increasing).imp ?_)
    intro event next hids value hvalue value' hvalue'
    cases event with
    | entry id eventType payload =>
      cases next with
      | entry id' eventType' payload' =>
        cases hvalue
        cases hvalue'
        exact hids id rfl id' rfl
      | journalGap id' gap' => cases hvalue'
      | synthesized runId' status durationMs usage => cases hvalue'
      | error message => cases hvalue'
    | journalGap id gap => cases hvalue
    | synthesized runId' status durationMs usage => cases hvalue
    | error message => cases hvalue
  have hrows : ((tables.rowsAfter runId now after).map RunEventRow.delivered).Pairwise (·.1 < ·.1) :=
    List.pairwise_map.mpr (numbered_rowsAfter hinv runId now after)
  have hirrefl : Std.Irrefl fun a b : Nat × String × Payload => a.1 < b.1 :=
    ⟨fun _ => Nat.lt_irrefl _⟩
  have hasymm : Std.Asymm fun a b : Nat × String × Payload => a.1 < b.1 :=
    ⟨fun _ _ hlt hgt => absurd hlt (Nat.not_lt_of_lt hgt)⟩
  refine hsent.eq_of_mem_iff hrows fun value => ?_
  rw [mem_delivered, List.mem_map]
  constructor
  · rintro ⟨id, eventType, payload, hevent, rfl⟩
    obtain ⟨row, hlive, hsequence, rfl, rfl⟩ := hstretch.reports _ hevent
    have habove := (hstretch.within id (List.mem_filterMap.mpr ⟨_, hevent, rfl⟩)).2.1
    exact ⟨row, mem_rowsAfter.mpr ⟨hlive, hsequence ▸ habove⟩, by rw [← hsequence]; rfl⟩
  · rintro ⟨row, hrow, rfl⟩
    obtain ⟨id, hevent, hsequence⟩ := hstretch.delivered_of_live hinv hrow
    exact ⟨id, row.eventType, row.payload, hevent, by rw [hsequence]; rfl⟩

theorem Stretch.complete
    (hacknowledged : (∃ sequence, tables.terminalSequence runId = some sequence ∧
      sequence ≤ after) → Unfinished events)
    (hfinished : ¬ (∃ sequence, tables.terminalSequence runId = some sequence ∧
      sequence ≤ after) → Finished events) : StreamComplete tables runId now after events where
  delivered := hstretch.delivered_eq hinv
  covered := hstretch.covered
  gaps _ _ hgap := (hstretch.reports _ hgap).2
  increasing := hstretch.increasing
  acknowledged := hacknowledged
  finished := hfinished
  synthesized := by
    intro runId' status durationMs usage hmem row hrow htype
    obtain ⟨id, hevent, -⟩ := hstretch.delivered_of_live hinv hrow
    have hcomplete : (StreamEvent.entry id row.eventType row.payload).isRunComplete = true :=
      decide_eq_true htype
    by_cases hseen : ∃ sequence, tables.terminalSequence runId = some sequence ∧ sequence ≤ after
    · rw [hacknowledged hseen _ hevent] at hcomplete
      cases hcomplete
    · cases (hfinished hseen).eq_of_isRunComplete hmem hevent rfl hcomplete
  errorFree message hmem := hstretch.reports _ hmem

end

theorem openStream_ok {run : RunFence} {flow : String} {cursor : Option RunEventCursor}
    {start : StreamState Payload}
    (hopen : openStream config (some run) now flow runId cursor tables = .ok start) :
    ∃ page, tables.readRunEventsJournal config (some run) now flow runId
        ((cursor.map (·.sequence)).getD 0) = .ok page ∧
      start = { afterSequence := (cursor.map (·.sequence)).getD 0, pendingPage := some page } := by
  obtain ⟨boundsPage, hboundsPage, hopen⟩ := bind_ok_iff.mp hopen
  cases cursor with
  | none =>
    cases hopen
    exact ⟨boundsPage, mapError_ok_iff.mp hboundsPage, rfl⟩
  | some cursor =>
    obtain ⟨-, hopen⟩ := unit_bind_ok_iff.mp hopen
    obtain ⟨page, hpage, hopen⟩ := bind_ok_iff.mp hopen
    obtain ⟨-, hopen⟩ := unit_bind_ok_iff.mp hopen
    cases hopen
    exact ⟨page, mapError_ok_iff.mp hpage, rfl⟩

section Endings

variable {run : RunFence} {flow : String} {page : RunEventPage Payload}
  {acknowledgedThrough : Option Nat} {faults : Nat → Option StreamFault}
  {start : StreamState Payload}

theorem streamStep_of_pending (hpending : start.pendingPage = some page) :
    streamStep config (some run) now flow runId tables acknowledgedThrough faults start
      = deliverPage runId acknowledgedThrough start page := by
  simp only [streamStep, hpending]

theorem complete_iff_of_unrecorded (hinv : JournalInvariant config tables)
    (hrun : ReadableRun run flow runId) (hended : Ended run) (hpending : start.pendingPage = some page)
    (hpage : ReadPage config tables run runId now start.afterSequence page)
    (hrecorded : tables.terminalSequence runId = none) (bound : Nat) :
    ∃ events, Returns config run now flow runId tables acknowledgedThrough faults start bound
        events ∧
      (StreamComplete tables runId now start.afterSequence events ↔
        OnePage config tables runId now start.afterSequence) := by
  obtain ⟨sent, hdeliver, hstretch, hfinished⟩ := deliverPage_unrecorded hinv hrun.runId_ok
    acknowledgedThrough hpage hended hrecorded
  refine ⟨sent, Returns.of_return ((streamStep_of_pending hpending).trans hdeliver) bound, ?_⟩
  rw [← hpage.lastSequence_eq_latest_iff hinv]
  obtain ⟨-, hafter, hlatest, -⟩ := hpage.covered_eq hinv
  constructor
  · intro hcomplete
    have hlength := congrArg List.length (hstretch.covered.symm.trans hcomplete.covered)
    simp only [List.length_range'] at hlength
    omega
  · intro hlast
    rw [hlast] at hstretch
    refine hstretch.complete hinv ?_ fun _ => hfinished
    rintro ⟨sequence, hsequence, -⟩
    rw [hrecorded] at hsequence
    cases hsequence

theorem complete_of_recorded (hinv : JournalInvariant config tables)
    (hconfig : config.validate = .ok ()) (hrun : ReadableRun run flow runId)
    (hended : Ended run) (hpending : start.pendingPage = some page)
    (hcounted : FailuresCounted faults start)
    (hpage : ReadPage config tables run runId now start.afterSequence page)
    (hrecorded : tables.terminalSequence runId = some sequence)
    (hcursor : cursorAcknowledgesTerminal acknowledgedThrough sequence
      = decide (sequence ≤ start.afterSequence))
    (hrecovers : Recovers faults) :
    ∃ events, Returns config run now flow runId tables acknowledgedThrough faults start
        (5 * tables.latestOf runId + 5) events ∧
      StreamComplete tables runId now start.afterSequence events := by
  obtain ⟨-, hafter, hle, hprogress⟩ := hpage.covered_eq hinv
  have hlatest := (terminalSequence_within hinv hrecorded).1
  by_cases hseen : sequence ≤ start.afterSequence
  · have hend : start.afterSequence = tables.latestOf runId :=
      le_antisymm (hafter.trans hle) (hlatest ▸ hseen)
    have hdeliver := deliverPage_acknowledged hinv hpage hended hrecorded
      (hcursor.trans (decide_eq_true hseen)) hend
    refine ⟨[], Returns.of_return ((streamStep_of_pending hpending).trans hdeliver) _, ?_⟩
    have hstretch : Stretch tables runId now start.afterSequence (tables.latestOf runId) [] := by
      rw [hend]
      exact Stretch.nil _
    exact hstretch.complete hinv (fun _ => by simp [Unfinished]) fun hnot =>
      absurd ⟨sequence, hrecorded, hseen⟩ hnot
  · have hunseen := hcursor.trans (decide_eq_false hseen)
    have hcomplete : ∀ events,
        Stretch tables runId now start.afterSequence (tables.latestOf runId) events →
        Finished events → StreamComplete tables runId now start.afterSequence events := by
      intro events hstretch hfinished
      refine hstretch.complete hinv ?_ fun _ => hfinished
      rintro ⟨other, hother, hle⟩
      cases hrecorded.symm.trans hother
      exact absurd hle hseen
    obtain ⟨sent, ⟨hdeliver, hstretch, hfinished⟩ | ⟨hdeliver, hmore, hstretch, hunfinished⟩⟩ :=
      deliverPage_recorded hinv hrun.runId_ok hpage hended hrecorded hunseen
    · exact ⟨sent, Returns.of_return ((streamStep_of_pending hpending).trans hdeliver) _,
        hcomplete sent hstretch hfinished⟩
    · obtain ⟨events, hreturns, hrest, hfinished⟩ := streamLoop_recorded hinv hconfig hrun hended
        hrecorded hunseen hrecovers (5 * tables.latestOf runId + 4)
        { start with afterSequence := page.lastSequence, pendingPage := none } rfl hmore
        ⟨hcounted.le, hcounted.failed⟩ (by simp only [remaining]; omega)
      exact ⟨sent ++ events,
        Returns.of_next ((streamStep_of_pending hpending).trans hdeliver) hreturns,
        hcomplete _ (hstretch.append hrest) (hunfinished.finished_append hfinished)⟩

end Endings

/-- **Stream completeness.** The stream of a terminal run returns, after a number of rounds bounded by
the sequences it has to account for; and it is complete exactly when the run's terminal event is on
record or everything after the cursor fits one page. -/
theorem flowEvents_complete_iff {Payload : Type} [RunEventPayload Payload]
    (config : RunEventJournalConfig) (tables : RunEventTables Payload)
    (hinv : JournalInvariant config tables) (run : RunFence) (flow runId : String) (now : Int)
    (status : RunStatus) (hstatus : RunStatus.fromStr run.status = .ok status)
    (hterminal : status.isTerminal) (cursor : Option RunEventCursor) (start : StreamState Payload)
    (hopen : openStream config (some run) now flow runId cursor tables = .ok start)
    (faults : Nat → Option StreamFault) (hrecovers : Recovers faults) :
    ∃ events, (∀ fuel, 5 * tables.latestOf runId + 5 < fuel →
        streamLoop config (some run) now flow runId tables (cursor.map (·.sequence)) faults fuel start
          = .ok (events, true)) ∧
      (StreamComplete tables runId now ((cursor.map (·.sequence)).getD 0) events ↔
        (tables.terminalSequence runId).isSome ∨
          OnePage config tables runId now ((cursor.map (·.sequence)).getD 0)) := by
  obtain ⟨page, hread, rfl⟩ := openStream_ok hopen
  have hended : Ended run := ⟨status, hstatus, hterminal⟩
  obtain ⟨hrun, hconfig, hafter⟩ := readableRun_of_read hstatus hterminal hread
  obtain ⟨page', hread', hpage⟩ := readRunEventsJournal_ok hinv hconfig hrun now hafter
  obtain rfl : page = page' := Except.ok.inj (hread.symm.trans hread')
  cases hrecorded : tables.terminalSequence runId with
  | none =>
    simp only [Option.isSome_none, Bool.false_eq_true, false_or]
    exact complete_iff_of_unrecorded hinv hrun hended rfl hpage hrecorded _
  | some sequence =>
    have hcursor : cursorAcknowledgesTerminal (cursor.map (·.sequence)) sequence
        = decide (sequence ≤ (cursor.map (·.sequence)).getD 0) := by
      have hpos := (terminalSequence_within hinv hrecorded).2
      cases cursor with
      | none =>
        simp only [cursorAcknowledgesTerminal, Option.map_none, Option.any_none, Option.getD_none]
        exact (decide_eq_false (Nat.not_le_of_lt hpos)).symm
      | some cursor => rfl
    have hcounted : FailuresCounted faults
        { afterSequence := (cursor.map (·.sequence)).getD 0, pendingPage := some page } :=
      ⟨le_rfl, fun attempt hlt => absurd hlt (Nat.not_lt_zero _)⟩
    obtain ⟨events, hreturns, hcomplete⟩ := complete_of_recorded hinv hconfig hrun hended
      rfl hcounted hpage hrecorded hcursor hrecovers
    exact ⟨events, hreturns, iff_of_true hcomplete (Or.inl rfl)⟩

end Complete

/-! ### A run that lost its owner -/

section Abandoned

/-- Two events of a run whose owner never wrote its `run_complete`. -/
def abandonedJournal (config : RunEventJournalConfig) : RunEventTables TagPayload :=
  RunEventTables.run config
    [.append "worker" (some (crewRun "running")) 0 0
      { runId := "run"
        flow := "crew"
        ownerInstanceId := "worker"
        entries := [tagEntry 1 "log", tagEntry 2 "log"] }]

theorem abandonedJournal_invariant (config : RunEventJournalConfig) :
    JournalInvariant config (abandonedJournal config) :=
  ((JournalInvariant.empty config).foldl _).1

theorem openStream_abandoned (config : RunEventJournalConfig) (hconfig : config.validate = .ok ()) :
    ∃ page, ReadPage config (abandonedJournal config) (crewRun "abandoned") "run" 0 0 page ∧
      openStream config (some (crewRun "abandoned")) 0 "crew" "run" none (abandonedJournal config)
        = .ok { afterSequence := 0, pendingPage := some page } := by
  obtain ⟨page, hread, hpage⟩ := readRunEventsJournal_ok (abandonedJournal_invariant config) hconfig
    (readableRun_crewRun .abandoned) 0 (Nat.zero_le _)
  exact ⟨page, hpage, bind_ok_iff.mpr ⟨page, mapError_ok_iff.mpr hread, rfl⟩⟩

/-- With the default limits both events fit the first page, and the stream is complete. -/
theorem flowEvents_complete_abandoned :
    ∃ start events, openStream {} (some (crewRun "abandoned")) 0 "crew" "run" none
        (abandonedJournal {}) = .ok start ∧
      streamLoop {} (some (crewRun "abandoned")) 0 "crew" "run" (abandonedJournal {}) none
        (fun _ => none) 16 start = .ok (events, true) ∧
      StreamComplete (abandonedJournal {}) "run" 0 0 events := by
  obtain ⟨page, -, hopen⟩ := openStream_abandoned {} rfl
  have hlatest : (abandonedJournal {}).latestOf "run" = 2 := by decide +kernel
  have hone : OnePage {} (abandonedJournal {}) "run" 0 0 := by
    unfold OnePage
    decide +kernel
  obtain ⟨events, hreturns, hcomplete⟩ := flowEvents_complete_iff {} (abandonedJournal {})
    (abandonedJournal_invariant {}) (crewRun "abandoned") "crew" "run" 0 .abandoned rfl rfl
    none _ hopen (fun _ => none) fun attempt => ⟨0, by decide, rfl⟩
  exact ⟨_, events, hopen, hreturns 16 (by rw [hlatest]; decide), hcomplete.mpr (Or.inr hone)⟩

/-- With one event a page the stream closes after the first event and never sends the second. -/
theorem flowEvents_incomplete_abandoned :
    ∃ start events, openStream singleEventPages (some (crewRun "abandoned")) 0 "crew" "run" none
        (abandonedJournal singleEventPages) = .ok start ∧
      (∀ fuel, 0 < fuel → streamLoop singleEventPages (some (crewRun "abandoned")) 0 "crew" "run"
        (abandonedJournal singleEventPages) none (fun _ => none) fuel start = .ok (events, true)) ∧
      ¬ StreamComplete (abandonedJournal singleEventPages) "run" 0 0 events := by
  obtain ⟨page, hpage, hopen⟩ := openStream_abandoned singleEventPages rfl
  have hrecorded : (abandonedJournal singleEventPages).terminalSequence "run" = none := by
    decide +kernel
  have hmore : ¬ OnePage singleEventPages (abandonedJournal singleEventPages) "run" 0 0 := by
    unfold OnePage
    decide +kernel
  let start : StreamState TagPayload := { afterSequence := 0, pendingPage := some page }
  have hpending : start.pendingPage = some page := rfl
  obtain ⟨events, hreturns, hcomplete⟩ := complete_iff_of_unrecorded
    (abandonedJournal_invariant singleEventPages) (readableRun_crewRun .abandoned)
    ⟨_, RunStatus.fromStr_toString .abandoned, rfl⟩ hpending hpage hrecorded 0
  exact ⟨_, events, hopen, hreturns, mt hcomplete.mp hmore⟩

end Abandoned

end IronCrew
