import IronCrew.Proof.Store.Atomicity

/-!
# Conversations as compare-and-swap

A conversation is written in two ways: a plain save, fenced by its revision and identity, and the
commit of a keyed turn, fenced by its claim as well. Both raise the revision by one, and a plain save
or a removal waits for the turn in flight.
-/

namespace IronCrew

open Checked Fallible Outcome

section Conversations

variable [Platform] {b : Budget} {call : JsonCall} {disk : Disk} {store : JsonFileStore}

/-! ### What a write is based on -/

def Disk.storedConversation (disk : Disk) (flowPath : Option String) (id : String) :
    Option (JsonFile ConversationRecord) :=
  disk.conversationFile (flowPath.map encodeFlowComponent) id

def ConversationRecord.BasedOn (given : ConversationRecord)
    (stored : Option (JsonFile ConversationRecord)) : Prop :=
  (stored = none ∧ given.revision = 0) ∨
    ∃ saved, stored = some (.decoded saved) ∧ saved.revision = given.revision ∧
      saved.execution = given.execution

def Disk.TurnIdle (disk : Disk) (flowScope id : String) : Prop :=
  ∀ stem record, disk.ledgerFile stem = some (.decoded record) → ¬ record.turnOn flowScope id

def ConversationRecord.advanced (given : ConversationRecord) : ConversationRecord :=
  { given with revision := given.revision + 1 }

def Disk.putConversation (disk : Disk) (given : ConversationRecord) : Disk :=
  disk.insert (conversationFilePath given.flowPath given.id) (.decoded given.advanced)

structure SaveReady (given : ConversationRecord) (disk : Disk) : Prop where
  idle : disk.TurnIdle given.flowScope given.id
  based : given.BasedOn (disk.storedConversation given.flowPath given.id)

variable {given : ConversationRecord} {flowPath : Option String}

theorem saveConversation_spec (hfirst : given.revision = 0 → b = .calm) :
    Spec b disk (store.saveConversation given)
      (fun revision after => revision = given.revision + 1 ∧ SaveReady given disk ∧
        after = disk.putConversation given)
      (fun _ after => after = disk ∨ (SaveReady given disk ∧ after = disk.putConversation given)) := by
  refine spec_lift_bind ?_ fun _ _ => Or.inl rfl
  intro _ _
  apply (activeConversationIdempotencyExists_spec.failing
    fun _ _ h => Or.inl h).bind
  rintro active after ⟨rfl, hidle⟩
  cases active with
  | true => exact spec_throw (Or.inl rfl)
  | false =>
    apply (loadConversationFile_spec.failing fun _ _ h => Or.inl h).bind
    rintro current next ⟨rfl, hsome, hnone⟩
    refine spec_lift_bind ?_ fun _ _ => Or.inl rfl
    intro _ hcurrent
    rw [ensure_ok_iff] at hcurrent
    have hready : SaveReady given next := by
      refine ⟨hidle rfl, ?_⟩
      cases current with
      | none =>
        have hzero : given.revision = 0 := by simpa [ConversationRecord.isCurrent] using hcurrent
        exact Or.inl ⟨hnone (hfirst hzero) rfl, hzero⟩
      | some saved =>
        simp only [ConversationRecord.isCurrent, Bool.and_eq_true, decide_eq_true_eq]
          at hcurrent
        exact Or.inr ⟨saved, hsome saved rfl, hcurrent⟩
    refine spec_lift_bind ?_ fun _ _ => Or.inl rfl
    intro nextRevision hnext
    have hrevision := (checkedAdd_eq_some_iff.mp (require_ok_iff.mp hnext)).2
    subst hrevision
    apply (writeRecordAtomic_spec.failing ?_).bind
    · rintro _ final rfl
      exact spec_pure ⟨rfl, hready, rfl⟩
    · rintro _ final (⟨-, rfl⟩ | ⟨-, rfl⟩)
      · exact Or.inl rfl
      · exact Or.inr ⟨hready, rfl⟩

theorem deleteConversation_spec {id : String} : Spec b disk (store.deleteConversation flowPath id)
      (fun _ after => disk.TurnIdle (flowPath.getD "") id ∧
        (after = disk ∨ after = disk.erase (conversationFilePath flowPath id)))
      (fun _ after => after = disk ∨ (disk.TurnIdle (flowPath.getD "") id ∧
        after = disk.erase (conversationFilePath flowPath id))) := by
  refine spec_lift_bind ?_ fun _ _ => Or.inl rfl
  intro _ _
  apply (activeConversationIdempotencyExists_spec.failing
    fun _ _ h => Or.inl h).bind
  rintro active after ⟨rfl, hidle⟩
  cases active with
  | true => exact spec_throw (Or.inl rfl)
  | false =>
    have hturn := hidle rfl
    refine spec_ifExists (fun _ => spec_pure ⟨hturn, Or.inl rfl⟩) fun _ => ?_
    apply (deletesConversation_spec.failing fun _ _ h => Or.inl h).bind
    rintro deletes final ⟨rfl, -⟩
    split_ifs with hdeletes
    · exact spec_pure ⟨hturn, Or.inl rfl⟩
    · exact spec_removeFile ⟨hturn, Or.inr rfl⟩ (fun _ => Or.inl rfl) fun _ => Or.inr ⟨hturn, rfl⟩

/-- The disks that a commit may leave once it has passed its checks: with the conversation written,
and then with the record completed as well. -/
def Committed (completion : IdempotencyCompletion) (given : ConversationRecord)
    (disk after : Disk) : Prop :=
  ∃ record saved, CommitReady completion given disk record saved ∧
    (after = disk.putConversation given ∨ ∃ body, after =
      (disk.putConversation given).insert (.ledger completion.keyHash)
        (.decoded (completion.complete body record)))

variable {completion : IdempotencyCompletion}

theorem commitConversation_spec {limits : IdempotencyLimits} :
    Spec b disk (store.commitConversationIdempotencyWithLimits completion given limits)
      (fun commit after => if commit.alreadyCompleted then after = disk
        else commit.revision = given.revision + 1 ∧ Committed completion given disk after)
      (fun _ after => after = disk ∨ Committed completion given disk after) := by
  apply spec_commit jsonIdempotencyResponseBytes_spec
  · exact fun _ => Or.inl rfl
  · exact fun _ _ _ _ _ _ => rfl
  intro record saved totals hready _
  apply (writeRecordAtomic_spec.failing ?_).bind
  swap
  · rintro _ after (⟨-, rfl⟩ | ⟨-, rfl⟩)
    · exact Or.inl rfl
    · exact Or.inr ⟨record, saved, hready, Or.inl rfl⟩
  rintro _ after rfl
  apply (writeRecordAtomic_spec.failing ?_).bind
  · rintro _ final rfl
    exact spec_pure ⟨rfl, record, saved, hready, Or.inr ⟨_, rfl⟩⟩
  · rintro _ final (⟨-, rfl⟩ | ⟨-, rfl⟩)
    · exact Or.inr ⟨record, saved, hready, Or.inl rfl⟩
    · exact Or.inr ⟨record, saved, hready, Or.inr ⟨_, rfl⟩⟩

/-! ### One call -/

/-- A first save meets no fault. Any other call may: a save of a later revision and a commit need the
file, and a removal of a file that cannot be examined removes nothing. -/
def JsonCall.FirstSaveCalm (call : JsonCall) : Prop :=
  ∀ given, call.op = .saveConversation given → given.revision = 0 →
    (call.world ∅).pending = []

theorem JsonCall.save_cases (hop : call.op = .saveConversation given)
    (hfirst : call.FirstSaveCalm) :
    (∀ reply, call.reply disk = .ok reply → reply = .revision (given.revision + 1) ∧
      SaveReady given disk ∧ call.next disk = disk.putConversation given) ∧
    (call.next disk = disk ∨
      (SaveReady given disk ∧ call.next disk = disk.putConversation given)) := by
  have hexecute : call.execute = JsonReply.revision <$> call.store.saveConversation given := by
    rw [JsonCall.execute, hop]
  have hbudget : ∃ b : Budget, b.Allows (call.world disk) ∧ (given.revision = 0 → b = .calm) := by
    by_cases hzero : given.revision = 0
    · exact ⟨.calm, hfirst given hop hzero, fun _ => rfl⟩
    · exact ⟨.any, trivial, fun h => absurd h hzero⟩
  obtain ⟨b, hallows, hcalm⟩ := hbudget
  have hspec : Spec b disk (call.store.saveConversation given) _ _ := saveConversation_spec hcalm
  obtain ⟨hok, herror⟩ := hspec.of_map hexecute hallows
  constructor
  · intro reply hreply
    obtain ⟨revision, rfl, rfl, hready, hnext⟩ := hok reply hreply
    exact ⟨rfl, hready, hnext⟩
  · cases hreply : call.reply disk with
    | ok reply =>
      obtain ⟨value, -, -, hready, hnext⟩ := hok reply hreply
      exact Or.inr ⟨hready, hnext⟩
    | error error => exact herror error hreply

theorem JsonCall.commit_cases {limits : IdempotencyLimits}
    (hop : call.op = .commitConversationIdempotency completion given limits) :
    (∀ commit, call.reply disk = .ok (.commit commit) →
      if commit.alreadyCompleted then call.next disk = disk
      else commit.revision = given.revision + 1 ∧
        Committed completion given disk (call.next disk)) ∧
    (call.next disk = disk ∨ Committed completion given disk (call.next disk)) := by
  have hexecute : call.execute = JsonReply.commit <$>
      call.store.commitConversationIdempotencyWithLimits completion given limits := by
    rw [JsonCall.execute, hop]
  have hspec : Spec .any disk (call.store.commitConversationIdempotencyWithLimits completion given
      limits) _ _ := commitConversation_spec
  obtain ⟨hok, herror⟩ := hspec.of_map hexecute trivial
  constructor
  · intro commit hreply
    obtain ⟨value, hvalue, hpost⟩ := hok _ hreply
    cases hvalue
    exact hpost
  · cases hreply : call.reply disk with
    | ok reply =>
      obtain ⟨commit, -, hpost⟩ := hok reply hreply
      by_cases hdone : commit.alreadyCompleted = true
      · rw [if_pos hdone] at hpost
        exact Or.inl hpost
      · rw [if_neg hdone] at hpost
        exact Or.inr hpost.2
    | error error => exact herror error hreply

theorem JsonCall.delete_cases {id : String} (hop : call.op = .deleteConversation flowPath id) :
    (∀ reply, call.reply disk = .ok reply → disk.TurnIdle (flowPath.getD "") id) ∧
    (call.next disk = disk ∨ (disk.TurnIdle (flowPath.getD "") id ∧
      call.next disk = disk.erase (conversationFilePath flowPath id))) := by
  have hexecute : call.execute =
      (fun _ => JsonReply.done) <$> call.store.deleteConversation flowPath id := by
    rw [JsonCall.execute, hop]
    exact (map_eq_pure_bind _ _).symm
  have hspec : Spec .any disk (call.store.deleteConversation flowPath id) _ _ :=
    deleteConversation_spec
  obtain ⟨hok, herror⟩ := hspec.of_map hexecute trivial
  constructor
  · intro reply hreply
    obtain ⟨-, -, hidle, -⟩ := hok reply hreply
    exact hidle
  · cases hreply : call.reply disk with
    | ok reply =>
      obtain ⟨-, -, hidle, hnext⟩ := hok reply hreply
      exact hnext.imp_right fun h => ⟨hidle, h⟩
    | error error => exact herror error hreply

inductive JsonCall.Alters (call : JsonCall) (disk : Disk) (flow : Option String) (stem : String) :
    Option ConversationRecord → Prop where
  | saved {given : ConversationRecord} (hop : call.op = .saveConversation given)
      (hready : SaveReady given disk) (hflow : given.flowPath.map encodeFlowComponent = flow)
      (hstem : given.id = stem) : Alters call disk flow stem (some given.advanced)
  | committed {completion : IdempotencyCompletion} {given saved : ConversationRecord}
      {limits : IdempotencyLimits} {record : IdempotencyRecord}
      (hop : call.op = .commitConversationIdempotency completion given limits)
      (hready : CommitReady completion given disk record saved)
      (hflow : given.flowPath.map encodeFlowComponent = flow) (hstem : given.id = stem) :
      Alters call disk flow stem (some given.advanced)
  | deleted {flowPath : Option String} (hop : call.op = .deleteConversation flowPath stem)
      (hidle : disk.TurnIdle (flowPath.getD "") stem)
      (hflow : flowPath.map encodeFlowComponent = flow) : Alters call disk flow stem none

variable {stem : String} {flow : Option String}

theorem putConversation_file :
    (disk.putConversation given).conversationFile flow stem = disk.conversationFile flow stem ∨
      (given.flowPath.map encodeFlowComponent = flow ∧ given.id = stem ∧
        (disk.putConversation given).conversationFile flow stem =
          some (.decoded given.advanced)) := by
  by_cases heq : conversationFilePath given.flowPath given.id = .conversation flow stem
  · have hparts := heq
    rw [conversationFilePath, StorePath.conversation.injEq] at hparts
    obtain ⟨rfl, rfl⟩ := hparts
    exact Or.inr ⟨rfl, rfl, Disk.conversationFile_insert_self⟩
  · exact Or.inl (Disk.conversationFile_insert_ne heq)

theorem JsonCall.conversation_cases (hfirst : call.FirstSaveCalm) (flow : Option String)
    (stem : String) :
    (call.next disk).conversationFile flow stem = disk.conversationFile flow stem ∨
      ∃ after, call.Alters disk flow stem after ∧
        (call.next disk).conversationFile flow stem = after.map JsonFile.decoded := by
  have hchange := (call.next_effect disk).conversation flow stem
  cases hop : call.op with
  | saveConversation given =>
    obtain hsame | ⟨hready, hnext⟩ := (call.save_cases hop hfirst).2
    · rw [hsame]
      exact Or.inl rfl
    · rw [hnext]
      obtain hsame | ⟨hflow, hstem, hfile⟩ := putConversation_file
      · exact Or.inl hsame
      · exact Or.inr ⟨_, .saved hop hready hflow hstem, hfile⟩
  | commitConversationIdempotency completion given limits =>
    obtain hsame | ⟨record, saved, hready, hnext⟩ := (call.commit_cases hop).2
    · rw [hsame]
      exact Or.inl rfl
    · have hfile : (call.next disk).conversationFile flow stem =
          (disk.putConversation given).conversationFile flow stem := by
        obtain hnext | ⟨body, hnext⟩ := hnext
        · rw [hnext]
        · rw [hnext, Disk.conversationFile_insert_ne (by simp)]
      rw [hfile]
      obtain hsame | ⟨hflow, hstem, hput⟩ := putConversation_file
      · exact Or.inl hsame
      · exact Or.inr ⟨_, .committed hop hready hflow hstem, hput⟩
  | deleteConversation flowPath id =>
    obtain hsame | ⟨hidle, hnext⟩ := (call.delete_cases hop).2
    · rw [hsame]
      exact Or.inl rfl
    · rw [hnext]
      by_cases heq : conversationFilePath flowPath id = .conversation flow stem
      · have hparts := heq
        rw [conversationFilePath, StorePath.conversation.injEq] at hparts
        obtain ⟨rfl, rfl⟩ := hparts
        exact Or.inr ⟨none, .deleted hop hidle rfl, Disk.conversationFile_erase_self⟩
      · exact Or.inl (Disk.conversationFile_erase_ne heq)
  | _ =>
    left
    generalize disk.conversationFile flow stem = before at hchange
    generalize (call.next disk).conversationFile flow stem = after at hchange
    cases hchange with
    | same => rfl
    | committed hcommit _ => simp [hop] at hcommit
    | saved hsave _ => simp [hop] at hsave
    | deleted hdelete _ => simp [hop] at hdelete

/-! ### Successful writes -/

inductive JsonCall.Writes (call : JsonCall) (disk : Disk) (given : ConversationRecord) :
    Nat → Prop where
  | saved {revision : Nat} (hop : call.op = .saveConversation given)
      (hreply : call.reply disk = .ok (.revision revision)) : Writes call disk given revision
  | committed {completion : IdempotencyCompletion} {limits : IdempotencyLimits}
      {commit : ConversationIdempotencyCommit}
      (hop : call.op = .commitConversationIdempotency completion given limits)
      (hreply : call.reply disk = .ok (.commit commit)) (hnew : commit.alreadyCompleted = false) :
      Writes call disk given commit.revision

structure Swaps (given : ConversationRecord) (revision : Nat) (before after : Disk) : Prop where
  based : given.BasedOn (before.storedConversation given.flowPath given.id)
  revision_eq : revision = given.revision + 1
  stored : after.storedConversation given.flowPath given.id =
    some (.decoded { given with revision })

theorem JsonCall.Writes.swaps {revision : Nat}
    (hwrites : call.Writes disk given revision) (hfirst : call.FirstSaveCalm) :
    Swaps given revision disk (call.next disk) := by
  cases hwrites with
  | saved hop hreply =>
    obtain ⟨heq, hready, hnext⟩ := (call.save_cases hop hfirst).1 _ hreply
    have hrevision : revision = given.revision + 1 := JsonReply.revision.inj heq
    refine ⟨hready.based, hrevision, ?_⟩
    rw [hnext, hrevision]
    exact Disk.conversationFile_insert_self
  | committed hop hreply hnew =>
    have hpost := (call.commit_cases hop).1 _ hreply
    rw [hnew, if_neg Bool.false_ne_true] at hpost
    obtain ⟨hrevision, record, saved, hready, hnext⟩ := hpost
    refine ⟨Or.inr ⟨saved, hready.stored, hready.revision_eq, hready.execution_eq⟩, hrevision, ?_⟩
    have hput : (disk.putConversation given).storedConversation given.flowPath given.id =
        some (.decoded given.advanced) := Disk.conversationFile_insert_self
    obtain hnext | ⟨body, hnext⟩ := hnext
    · rw [hnext, hput, hrevision]
      rfl
    · rw [hnext, Disk.storedConversation, Disk.conversationFile_insert_ne (by simp)]
      rw [Disk.storedConversation] at hput
      rw [hput, hrevision]
      rfl

/-! ### Between two removals -/

def JsonOp.Deletes (op : JsonOp) (flow : Option String) (stem : String) : Prop :=
  ∃ flowPath, op = .deleteConversation flowPath stem ∧ flowPath.map encodeFlowComponent = flow

def Follows (before after : Option (JsonFile ConversationRecord)) : Prop :=
  ∀ old, before = some (.decoded old) →
    ∃ new, after = some (.decoded new) ∧ (new = old ∨ old.revision < new.revision)

omit [Platform] in
theorem Follows.refl (file : Option (JsonFile ConversationRecord)) : Follows file file :=
  fun old hold => ⟨old, hold, Or.inl rfl⟩

omit [Platform] in
theorem Follows.trans {before mid after : Option (JsonFile ConversationRecord)}
    (hfirst : Follows before mid) (hsecond : Follows mid after) : Follows before after := by
  intro old hold
  obtain ⟨between, hbetween, hlater⟩ := hfirst old hold
  obtain ⟨new, hnew, hnewer⟩ := hsecond between hbetween
  refine ⟨new, hnew, ?_⟩
  obtain rfl | hlt := hlater
  · exact hnewer
  · obtain rfl | hlt' := hnewer
    · exact Or.inr hlt
    · exact Or.inr (hlt.trans hlt')

omit [Platform] in
theorem ConversationRecord.BasedOn.follows
    {stored : Option (JsonFile ConversationRecord)} (hbased : given.BasedOn stored) :
    Follows stored (some (.decoded given.advanced)) := by
  intro old hold
  refine ⟨given.advanced, rfl, Or.inr ?_⟩
  obtain ⟨hnone, -⟩ | ⟨saved, hsaved, hrevision, -⟩ := hbased
  · rw [hnone] at hold
    cases hold
  · rw [hsaved] at hold
    cases hold
    rw [hrevision]
    exact Nat.lt_succ_self _

theorem JsonCall.follows_next (hfirst : call.FirstSaveCalm) (hkeep : ¬ call.op.Deletes flow stem) :
    Follows (disk.conversationFile flow stem) ((call.next disk).conversationFile flow stem) := by
  obtain hsame | ⟨after, halters, hafter⟩ := call.conversation_cases hfirst flow stem
  · rw [hsame]
    exact Follows.refl _
  · rw [hafter]
    cases halters with
    | saved hop hready hflow hstem =>
      subst hflow hstem
      exact hready.based.follows
    | committed hop hready hflow hstem =>
      subst hflow hstem
      exact ConversationRecord.BasedOn.follows
        (Or.inr ⟨_, hready.stored, hready.revision_eq, hready.execution_eq⟩)
    | deleted hop _ hflow => exact absurd ⟨_, hop, hflow⟩ hkeep

theorem follows_runCalls (disk : Disk) (calls : List JsonCall)
    (hfirst : ∀ call ∈ calls, call.FirstSaveCalm)
    (hkeep : ∀ call ∈ calls, ¬ call.op.Deletes flow stem) :
    Follows (disk.conversationFile flow stem) ((runCalls disk calls).conversationFile flow stem) := by
  apply runCalls_invariant_of_mem
    (P := fun after => Follows (disk.conversationFile flow stem) (after.conversationFile flow stem))
    calls _ (Follows.refl _)
  intro current call hcall hfollows
  exact hfollows.trans (call.follows_next (hfirst call hcall) (hkeep call hcall))

theorem writes_increasing {first second : JsonCall} {mid : List JsonCall}
    {given given' : ConversationRecord} {revision revision' : Nat}
    (hcalm : ∀ call ∈ first :: (mid ++ [second]), call.FirstSaveCalm)
    (hwrites : first.Writes disk given revision)
    (hwrites' : second.Writes (runCalls (first.next disk) mid) given' revision')
    (hflow : given'.flowPath = given.flowPath) (hid : given'.id = given.id)
    (hkeep : ∀ call ∈ mid, ¬ call.op.Deletes (given.flowPath.map encodeFlowComponent) given.id) :
    given.revision < given'.revision := by
  have hswap := hwrites.swaps (hcalm first (by simp))
  have hswap' := hwrites'.swaps (hcalm second (by simp))
  have hfollows := follows_runCalls (first.next disk) mid
    (fun call hcall => hcalm call (by simp [hcall])) hkeep
  obtain ⟨new, hnew, hlater⟩ := hfollows _ hswap.stored
  have hbase : new.revision = given'.revision := by
    have hbased := hswap'.based
    rw [Disk.storedConversation, hflow, hid, hnew] at hbased
    obtain ⟨hnone, -⟩ | ⟨saved, hsaved, hrevision, -⟩ := hbased
    · cases hnone
    · cases hsaved
      exact hrevision
  rw [← hbase]
  obtain rfl | hlt := hlater
  · exact Nat.lt_of_lt_of_eq (Nat.lt_succ_self _) hswap.revision_eq.symm
  · exact (Nat.lt_of_lt_of_eq (Nat.lt_succ_self _) hswap.revision_eq.symm).trans hlt

/-! ### One change for each claim -/

def JsonOp.conversation? : JsonOp → Option (Option String × String)
  | .commitConversationIdempotency _ conversation _ => some (conversation.flowPath, conversation.id)
  | .saveConversation record => some (record.flowPath, record.id)
  | .deleteConversation flowPath id => some (flowPath, id)
  | _ => none

def JsonCall.SeparateFile (flowPath : Option String) (call : JsonCall) : Prop :=
  ∀ flow id, call.op.conversation? = some (flow, id) →
    flow.map encodeFlowComponent = flowPath.map encodeFlowComponent → flow = flowPath

variable {record : IdempotencyRecord}

/-- A record that is in flight after a call was in flight before it, for the same turn, unless the call
has claimed it. -/
theorem RecordChange.continued {before : Option (JsonFile IdempotencyRecord)}
    (hchange : RecordChange call stem before (some (.decoded record)))
    (hflight : record.state.isInFlight) :
    (∃ old, before = some (.decoded old) ∧ old.state.isInFlight ∧
      record.attemptId = old.attemptId ∧ record.operation = old.operation ∧
      record.resourceId = old.resourceId ∧ record.scope = old.scope ∧
      record.exclusiveScope = old.exclusiveScope ∧ record.baseRevision = old.baseRevision) ∨
    ∃ claim limits, call.op = .claimIdempotency claim limits ∧ claim.keyHash = stem ∧
      claim.attemptId = record.attemptId := by
  cases hchange with
  | same => exact Or.inl ⟨record, rfl, hflight, rfl, rfl, rfl, rfl, rfl, rfl⟩
  | created counts hop hstem _ => exact Or.inr ⟨_, _, hop, hstem.symm, rfl⟩
  | renewed _ _ hold => exact Or.inl ⟨_, rfl, hold, rfl, rfl, rfl, rfl, rfl, rfl⟩
  | started _ _ hstate => exact Or.inl ⟨_, rfl, by rw [hstate]; rfl, rfl, rfl, rfl, rfl, rfl, rfl⟩
  | completed => cases hflight
  | finished => cases hflight
  | marked => cases hflight
  | lapsed => cases hflight
  | detached _ hstate _ =>
    rw [IdempotencyRecord.detach, hstate] at hflight
    cases hflight

/-- An attempt that has changed the conversation: while its record is in flight, the conversation has
left the revision that the record was claimed at. -/
def AttemptSpent (key attemptId : String) (flowPath : Option String) (id : String) (disk : Disk) :
    Prop :=
  ∀ record, disk.ledgerFile key = some (.decoded record) → record.state.isInFlight →
    record.attemptId = attemptId → ∃ stored,
      disk.storedConversation flowPath id = some (.decoded stored) ∧ stored.flowPath = flowPath ∧
      stored.id = id ∧ ensureConversationClaim record stored = .ok () ∧
      record.baseRevision ≠ some stored.revision

section Spent

variable {key attemptId id : String} {flowPath : Option String} {given saved : ConversationRecord}

theorem CommitReady.isInFlight
    (hready : CommitReady completion given disk record saved) : record.state.isInFlight :=
  isInFlight_of_open hready.open_state.1 hready.open_state.2

theorem Committed.attemptSpent {after : Disk} (hcommitted : Committed completion given disk after) :
    AttemptSpent completion.keyHash completion.attemptId given.flowPath given.id after := by
  obtain ⟨record, saved, hready, hafter⟩ := hcommitted
  intro found hfound hflight _
  obtain rfl | ⟨body, rfl⟩ := hafter
  · rw [Disk.putConversation, Disk.ledgerFile_insert_ne (by simp [conversationFilePath]),
      hready.holds.file_eq] at hfound
    cases hfound
    refine ⟨given.advanced, Disk.conversationFile_insert_self, rfl, rfl, hready.claim, ?_⟩
    rw [hready.base]
    simp [ConversationRecord.advanced]
  · rw [Disk.ledgerFile_insert_self] at hfound
    cases hfound
    cases hflight

theorem AttemptSpent.not_ready
    (hspent : AttemptSpent completion.keyHash completion.attemptId given.flowPath given.id disk) :
    ¬ CommitReady completion given disk record saved := by
  intro hready
  have hattempt : record.attemptId = completion.attemptId :=
    (ensure_ok_iff.mp hready.fence).2.2.1
  obtain ⟨stored, hstored, -, -, -, hbase⟩ :=
    hspent record hready.holds.file_eq hready.isInFlight hattempt
  have heq := hstored.symm.trans hready.stored
  cases heq
  apply hbase
  rw [hready.base, hready.revision_eq]

theorem AttemptSpent.next (hspent : AttemptSpent key attemptId flowPath id disk)
    (hscopes : ScopesExclusive disk) (hfirst : call.FirstSaveCalm)
    (hseparate : call.SeparateFile flowPath)
    (hclaim : ∀ claim limits, call.op = .claimIdempotency claim limits → claim.keyHash = key →
      claim.attemptId ≠ attemptId) :
    AttemptSpent key attemptId flowPath id (call.next disk) := by
  intro record hrecord hflight hattempt
  have hchange := (call.next_effect disk).ledger key
  rw [hrecord] at hchange
  obtain ⟨old, hold, holdFlight, hattemptEq, hoperation, hresource, hscope, hexclusive, hbase⟩ |
    ⟨claim, limits, hop, hkey, hsame⟩ := hchange.continued hflight
  swap
  · exact absurd (hsame.trans hattempt) (hclaim claim limits hop hkey)
  obtain ⟨stored, hstored, hflowEq, hidEq, hturn, hrevision⟩ :=
    hspent old hold holdFlight (hattemptEq.symm.trans hattempt)
  have hclaimed := ensure_ok_iff.mp hturn
  have hactive : old.turnOn (flowPath.getD "") id := by
    rw [← hflowEq, ← hidEq]
    simp only [IdempotencyRecord.turnOn, Bool.and_eq_true, decide_eq_true_eq]
    exact ⟨⟨⟨hclaimed.1, hclaimed.2.2.1⟩, hclaimed.2.1⟩, holdFlight⟩
  have hunchanged : (call.next disk).storedConversation flowPath id =
      disk.storedConversation flowPath id := by
    obtain hsame | ⟨after, halters, -⟩ :=
      call.conversation_cases hfirst (flowPath.map encodeFlowComponent) id
    · exact hsame
    exfalso
    cases halters with
    | @saved given hop hready hflow hstem =>
      have hsame := hseparate given.flowPath given.id (by rw [hop]; rfl) hflow
      refine hready.idle key old hold ?_
      rw [ConversationRecord.flowScope, hsame, hstem]
      exact hactive
    | @deleted path hop hidle hflow =>
      have hsame := hseparate path id (by rw [hop]; rfl) hflow
      refine hidle key old hold ?_
      rw [hsame]
      exact hactive
    | @committed completion given saved limits other hop hready hflow hstem =>
      have hsame := hseparate given.flowPath given.id (by rw [hop]; rfl) hflow
      have heq : some (JsonFile.decoded stored) = some (.decoded saved) := by
        rw [← hstored, ← hready.stored, ← hsame, hstem]
        rfl
      cases heq
      -- both claims hold the scope of this conversation, so they are one
      have hscopeEq : other.exclusiveScope = old.exclusiveScope := by
        rw [(ensure_ok_iff.mp hready.claim).2.2.2, hclaimed.2.2.2, ← hready.execution_eq,
          ConversationRecord.flowScope, ConversationRecord.flowScope, hsame, hflowEq, hstem, hidEq]
      have hkey := hscopes.exclusive _ completion.keyHash key other old hready.holds.file_eq hold
        (hscopeEq.trans hclaimed.2.2.2) hclaimed.2.2.2 hready.isInFlight holdFlight
      have hfile := hready.holds.file_eq
      rw [hkey, hold] at hfile
      cases hfile
      exact hrevision (hready.base.trans (congrArg some hready.revision_eq.symm))
  refine ⟨stored, hunchanged.trans hstored, hflowEq, hidEq, ?_, ?_⟩
  · apply ensure_of
    rw [hoperation, hresource, hscope, hexclusive]
    exact hclaimed
  · rw [hbase]
    exact hrevision

theorem attemptSpent_runCalls (calls : List JsonCall) (hscopes : ScopesExclusive disk)
    (hspent : AttemptSpent key attemptId flowPath id disk)
    (hfirst : ∀ call ∈ calls, call.FirstSaveCalm)
    (hseparate : ∀ call ∈ calls, call.SeparateFile flowPath)
    (hclaim : ∀ call ∈ calls, ∀ claim limits, call.op = .claimIdempotency claim limits →
      claim.keyHash = key → claim.attemptId ≠ attemptId) :
    AttemptSpent key attemptId flowPath id (runCalls disk calls) := by
  have hrun : ScopesExclusive (runCalls disk calls) ∧
      AttemptSpent key attemptId flowPath id (runCalls disk calls) := by
    refine runCalls_invariant_of_mem
      (P := fun disk => ScopesExclusive disk ∧ AttemptSpent key attemptId flowPath id disk)
      calls ?_ ⟨hscopes, hspent⟩
    rintro current call hcall ⟨hcurrent, hspent⟩
    exact ⟨hcurrent.next call, hspent.next hcurrent (hfirst call hcall) (hseparate call hcall)
      (hclaim call hcall)⟩
  exact hrun.2

end Spent

/-! ### Whole runs -/

inductive JsonOp.PlainWrite (flowScope id : String) : JsonOp → Prop where
  | save {given : ConversationRecord} (hscope : given.flowScope = flowScope) (hid : given.id = id) :
      PlainWrite flowScope id (.saveConversation given)
  | delete {flowPath : Option String} (hscope : flowPath.getD "" = flowScope) :
      PlainWrite flowScope id (.deleteConversation flowPath id)

theorem JsonCall.plain_idle {flowScope id : String} {reply : JsonReply}
    (hplain : call.op.PlainWrite flowScope id) (hfirst : call.FirstSaveCalm)
    (hreply : call.reply disk = .ok reply) : disk.TurnIdle flowScope id := by
  cases hop : call.op with
  | saveConversation given =>
    rw [hop] at hplain
    cases hplain with
    | save hscope hid =>
      subst hscope hid
      exact ((call.save_cases hop hfirst).1 reply hreply).2.1.idle
  | deleteConversation flowPath other =>
    rw [hop] at hplain
    cases hplain with
    | delete hscope =>
      subst hscope
      exact (call.delete_cases hop).1 reply hreply
  | _ =>
    rw [hop] at hplain
    cases hplain

def JsonCall.Commits (call : JsonCall) (disk : Disk) (keyHash attemptId : String)
    (flowPath : Option String) (id : String) : Prop :=
  ∃ completion given limits, call.op = .commitConversationIdempotency completion given limits ∧
    completion.keyHash = keyHash ∧ completion.attemptId = attemptId ∧ given.flowPath = flowPath ∧
    given.id = id ∧
    (call.next disk).storedConversation flowPath id ≠ disk.storedConversation flowPath id

theorem JsonCall.Commits.committed {keyHash attemptId id : String}
    (hcommits : call.Commits disk keyHash attemptId flowPath id) :
    ∃ completion given, completion.keyHash = keyHash ∧ completion.attemptId = attemptId ∧
      given.flowPath = flowPath ∧ given.id = id ∧
      Committed completion given disk (call.next disk) := by
  obtain ⟨completion, given, limits, hop, hkey, hattempt, hflow, hid, hchanged⟩ := hcommits
  refine ⟨completion, given, hkey, hattempt, hflow, hid, ?_⟩
  obtain hsame | hcommitted := (call.commit_cases hop).2
  · rw [hsame] at hchanged
    exact absurd rfl hchanged
  · exact hcommitted

structure ComparesAndSwaps (calls : List JsonCall) (flowPath : Option String) (id : String) :
    Prop where
  -- a successful write was given what is stored, and raises the revision by one
  swaps : ∀ (pre : List JsonCall) (call : JsonCall) (post : List JsonCall)
    (given : ConversationRecord) (revision : Nat), calls = pre ++ call :: post →
    call.Writes (runCalls ∅ pre) given revision → given.flowPath = flowPath → given.id = id →
    Swaps given revision (runCalls ∅ pre) (runCalls ∅ (pre ++ [call]))
  -- a commit that was made before is answered from its record, and changes nothing
  replays : ∀ (pre : List JsonCall) (call : JsonCall) (post : List JsonCall)
    (completion : IdempotencyCompletion) (given : ConversationRecord) (limits : IdempotencyLimits)
    (commit : ConversationIdempotencyCommit), calls = pre ++ call :: post →
    call.op = .commitConversationIdempotency completion given limits →
    call.reply (runCalls ∅ pre) = .ok (.commit commit) → commit.alreadyCompleted →
    runCalls ∅ (pre ++ [call]) = runCalls ∅ pre
  -- between two removals, bases increase and a revision stands for one content
  increasing : ∀ (pre : List JsonCall) (first : JsonCall) (mid : List JsonCall) (second : JsonCall)
    (post : List JsonCall) (given given' : ConversationRecord) (revision revision' : Nat),
    calls = pre ++ first :: (mid ++ second :: post) →
    first.Writes (runCalls ∅ pre) given revision →
    second.Writes (runCalls ∅ (pre ++ first :: mid)) given' revision' →
    given.flowPath = flowPath → given.id = id → given'.flowPath = flowPath → given'.id = id →
    (∀ call ∈ mid, ¬ call.op.Deletes (flowPath.map encodeFlowComponent) id) →
    given.revision < given'.revision
  content : ∀ (pre mid post : List JsonCall) (old new : ConversationRecord), calls = pre ++ mid ++ post →
    (∀ call ∈ mid, ¬ call.op.Deletes (flowPath.map encodeFlowComponent) id) →
    (runCalls ∅ pre).storedConversation flowPath id = some (.decoded old) →
    (runCalls ∅ (pre ++ mid)).storedConversation flowPath id = some (.decoded new) →
    new.revision = old.revision → new = old
  -- a snapshot of another incarnation is refused
  incarnation : ∀ (pre : List JsonCall) (call : JsonCall) (post : List JsonCall)
    (given : ConversationRecord) (revision : Nat) (stored : ConversationRecord),
    calls = pre ++ call :: post →
    (runCalls ∅ pre).storedConversation flowPath id = some (.decoded stored) →
    stored.execution.incarnationId ≠ given.execution.incarnationId →
    given.flowPath = flowPath → given.id = id → ¬ call.Writes (runCalls ∅ pre) given revision
  -- a keyed turn in flight keeps plain writes out
  blocked : ∀ (pre : List JsonCall) (call : JsonCall) (post : List JsonCall) (stem : String)
    (record : IdempotencyRecord), calls = pre ++ call :: post →
    (runCalls ∅ pre).ledgerRecord? stem = some record → record.turnOn (flowPath.getD "") id →
    call.op.PlainWrite (flowPath.getD "") id → ∀ reply, call.reply (runCalls ∅ pre) ≠ .ok reply
  -- an attempt changes the conversation again only after it was claimed again
  once : ∀ (pre : List JsonCall) (first : JsonCall) (mid : List JsonCall) (second : JsonCall)
    (post : List JsonCall) (keyHash attemptId : String),
    calls = pre ++ first :: (mid ++ second :: post) →
    first.Commits (runCalls ∅ pre) keyHash attemptId flowPath id →
    second.Commits (runCalls ∅ (pre ++ first :: mid)) keyHash attemptId flowPath id →
    ∃ call ∈ mid, ∃ (claim : IdempotencyClaim) (limits : IdempotencyLimits),
      call.op = .claimIdempotency claim limits ∧ claim.keyHash = keyHash ∧ claim.attemptId = attemptId

theorem conversation_compare_and_swap {calls : List JsonCall} {flowPath : Option String}
    {id : String} (hfirst : ∀ call ∈ calls, call.FirstSaveCalm)
    (hseparate : ∀ call ∈ calls, call.SeparateFile flowPath) :
    ComparesAndSwaps calls flowPath id := by
  have hswaps : ∀ pre call post given revision, calls = pre ++ call :: post →
      call.Writes (runCalls ∅ pre) given revision →
      Swaps given revision (runCalls ∅ pre) (runCalls ∅ (pre ++ [call])) := by
    intro pre call post given revision hcalls hwrites
    rw [runCalls_append]
    exact hwrites.swaps (hfirst call (by simp [hcalls]))
  constructor
  · intro pre call post given revision hcalls hwrites _ _
    exact hswaps pre call post given revision hcalls hwrites
  · intro pre call post completion given limits commit hcalls hop hreply hdone
    have hpost := (call.commit_cases hop).1 commit hreply
    rw [if_pos hdone] at hpost
    rw [runCalls_append]
    exact hpost
  · intro pre first mid second post given given' revision revision' hcalls hwrites hwrites' hflow hid
      hflow' hid' hkeep
    rw [runCalls_append] at hwrites'
    refine writes_increasing ?_ hwrites hwrites' (hflow'.trans hflow.symm) (hid'.trans hid.symm) ?_
    · intro call hcall
      apply hfirst
      rw [hcalls]
      simp only [List.mem_cons, List.mem_append, List.not_mem_nil, or_false] at hcall ⊢
      tauto
    · rw [hflow, hid]
      exact hkeep
  · intro pre mid post old new hcalls hkeep hold hnew hrevision
    rw [runCalls_append] at hnew
    have hfollows := follows_runCalls (runCalls ∅ pre) mid
      (fun call hcall => hfirst call (by simp [hcalls, hcall])) hkeep
    obtain ⟨found, hfound, hlater⟩ := hfollows old hold
    have heq := hfound.symm.trans hnew
    cases heq
    obtain rfl | hlt := hlater
    · rfl
    · exact absurd hrevision hlt.ne'
  · intro pre call post given revision stored hcalls hstored hne hflow hid hwrites
    have hbased := (hswaps pre call post given revision hcalls hwrites).based
    rw [hflow, hid, hstored] at hbased
    obtain ⟨hnone, -⟩ | ⟨saved, hsaved, -, hexecution⟩ := hbased
    · cases hnone
    · cases hsaved
      exact hne (congrArg ConversationExecution.incarnationId hexecution)
  · intro pre call post stem record hcalls hrecord hturn hplain reply hreply
    have hidle := call.plain_idle hplain (hfirst call (by simp [hcalls])) hreply
    exact hidle stem record (Disk.ledgerRecord?_eq_some_iff.mp hrecord) hturn
  · intro pre first mid second post keyHash attemptId hcalls hcommits hcommits'
    by_contra hnone
    push Not at hnone
    rw [runCalls_append] at hcommits'
    obtain ⟨completion, given, rfl, rfl, rfl, rfl, hcommitted⟩ := hcommits.committed
    obtain ⟨completion', given', hkey, hattempt, hflow, hid, record, saved, hready, -⟩ :=
      hcommits'.committed
    have hscopes : ScopesExclusive (first.next (runCalls ∅ pre)) :=
      (scopesExclusive_runCalls pre fun _ => rfl).next first
    have hspent := attemptSpent_runCalls mid hscopes hcommitted.attemptSpent
      (fun call hcall => hfirst call (by simp [hcalls, hcall]))
      (fun call hcall => hseparate call (by simp [hcalls, hcall])) hnone
    rw [← hkey, ← hattempt, ← hflow, ← hid] at hspent
    exact hspent.not_ready hready

end Conversations

namespace Sample

def turnCompletion : IdempotencyCompletion :=
  { keyHash := turnClaim.keyHash
    principalId := turnClaim.principalId
    requestFingerprint := turnClaim.requestFingerprint
    attemptId := turnClaim.attemptId
    ownerInstanceId := turnClaim.ownerInstanceId
    responseStatus := 200
    responseBody := some "answer"
    completedAt := "2026-07-19T12:01:00+00:00"
    expiresAt := "2026-07-20T12:01:00+00:00" }

def commitCall : JsonCall :=
  { store := store "pod-1"
    op := .commitConversationIdempotency turnCompletion { conversation with revision := 1 } limits }

def turn : List JsonCall :=
  [saveCall, { store := store "pod-1", op := .claimIdempotency turnClaim limits }, commitCall]

end Sample

/-- Two of its writes succeed, the save at revision 0 and the commit at revision 1. -/
theorem conversation_compare_and_swap_turn :
    letI := Sample.platform
    (∃ given, Sample.saveCall.Writes (runCalls ∅ []) given 1 ∧ given.revision = 0) ∧
      (∃ given, Sample.commitCall.Writes (runCalls ∅ (Sample.turn.take 2)) given 2 ∧
        given.revision = 1) ∧
      ComparesAndSwaps Sample.turn (some "research") "chat-1" := by
  let _ := Sample.platform
  refine ⟨⟨Sample.conversation, ?_, rfl⟩, ⟨{ Sample.conversation with revision := 1 }, ?_, rfl⟩, ?_⟩
  · exact .saved rfl (by decide +kernel)
  · have hreply : Sample.commitCall.reply (runCalls ∅ (Sample.turn.take 2)) =
        .ok (.commit ⟨2, true, false⟩) := by decide +kernel
    exact .committed rfl hreply rfl
  · apply conversation_compare_and_swap
    · intro call hcall given _ _
      simp only [Sample.turn, List.mem_cons, List.not_mem_nil, or_false] at hcall
      obtain rfl | rfl | rfl := hcall <;> rfl
    · intro call hcall flow id hop _
      simp only [Sample.turn, List.mem_cons, List.not_mem_nil, or_false] at hcall
      obtain rfl | rfl | rfl := hcall
      · cases hop
        rfl
      · cases hop
      · cases hop
        rfl

/-- The commit is sent once more. It succeeds, although the stored revision is past the one it was
given, and the revision stays. -/
theorem commit_again_succeeds_on_old_revision :
    letI := Sample.platform
    let given := { Sample.conversation with revision := 1 }
    let disk := runCalls ∅ Sample.turn
    Sample.commitCall.op =
        .commitConversationIdempotency Sample.turnCompletion given Sample.limits ∧
      Sample.commitCall.reply disk = .ok (.commit ⟨2, true, true⟩) ∧
      disk.storedConversation given.flowPath given.id =
        some (.decoded { given with revision := 2 }) ∧
      (Sample.commitCall.next disk).storedConversation given.flowPath given.id =
        some (.decoded { given with revision := 2 }) := by
  refine ⟨rfl, ?_⟩
  decide +kernel

end IronCrew
