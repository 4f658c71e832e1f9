import IronCrew.Lib.Runs
import IronCrew.Usage.Tracker

/-!
# Exactly-once usage accounting

A node's counters are a function of the history: its total is its opening total with the receipts of
the settled attempts at its descendants added in settlement order, and its `inFlight` is the number
of live attempts there. Two facts about a lineage carry this through a step: it is exactly the set of
ancestors, and it names each of them once, so a locked update reaches every ancestor exactly once.
-/

namespace IronCrew

open Checked

def linksAt (links : List (List Nat)) (tracker : Nat) : List Nat :=
  links[tracker]?.getD []

/-- `node` is `tracker` or one of the scopes it reports to, directly or not. -/
def Descends (links : List (List Nat)) (tracker node : Nat) : Prop :=
  Worklist.Reaches (linksAt links) tracker node

theorem usageLinks_eq (nodes : List UsageNode) :
    usageLinks nodes = linksAt (nodes.map UsageNode.links) := by
  funext tracker
  simp only [usageLinks, linksAt, List.getElem?_map]
  cases nodes[tracker]? <;> rfl

/-! ### Locked updates -/

def withStates (update : UsageState → UsageState) (lineage : List Nat) (nodes : List UsageNode) :
    List UsageNode :=
  nodes.mapIdx fun i node =>
    if i ∈ lineage then { node with state := update node.state } else node

variable {tracker : Nat}

section Updates

variable {update : UsageState → UsageState} {lineage : List Nat} {nodes : List UsageNode}

theorem getElem?_withStates (i : Nat) :
    (withStates update lineage nodes)[i]? = nodes[i]?.map fun node =>
      if i ∈ lineage then { node with state := update node.state } else node := by
  simp [withStates, List.getElem?_mapIdx]

@[simp]
theorem length_withStates : (withStates update lineage nodes).length = nodes.length := by
  simp [withStates]

theorem links_withStates :
    (withStates update lineage nodes).map UsageNode.links = nodes.map UsageNode.links := by
  apply List.ext_getElem?
  intro tracker
  simp only [List.getElem?_map, getElem?_withStates]
  cases nodes[tracker]? with
  | none => rfl
  | some node =>
    simp only [Option.map_some]
    split <;> rfl

theorem withStates_nil : withStates update [] nodes = nodes := by
  apply List.ext_getElem?
  intro i
  rw [getElem?_withStates]
  cases nodes[i]? <;> simp

theorem withStates_cons {node : UsageNode} (hnode : nodes[tracker]? = some node)
    (hnotMem : tracker ∉ lineage) :
    withStates update lineage (nodes.set tracker { node with state := update node.state })
      = withStates update (tracker :: lineage) nodes := by
  apply List.ext_getElem?
  intro i
  rw [getElem?_withStates, getElem?_withStates]
  by_cases hi : tracker = i
  · subst hi
    have hlt : tracker < nodes.length := (List.getElem?_eq_some_iff.mp hnode).1
    simp [hnode, hnotMem, List.getElem?_set_self hlt]
  · rw [List.getElem?_set_ne hi]
    simp [Ne.symm hi]

theorem updateStates_eq (nodes : List UsageNode) (update : UsageState → UsageState)
    (attempt : UsageState → Except Panic UsageState) (hnodup : lineage.Nodup)
    (hlocked : ∀ tracker ∈ lineage, ∃ node, nodes[tracker]? = some node ∧
      attempt node.state = .ok (update node.state)) :
    updateStates attempt lineage nodes = .ok (withStates update lineage nodes) := by
  induction lineage generalizing nodes with
  | nil =>
    rw [withStates_nil]
    rfl
  | cons tracker lineage ih =>
    obtain ⟨hnotMem, hnodup⟩ := List.nodup_cons.mp hnodup
    obtain ⟨node, hnode, hok⟩ := hlocked tracker (List.mem_cons_self ..)
    have hrest := ih (nodes.set tracker { node with state := update node.state }) hnodup
      fun other hother => by
        obtain ⟨node', hnode', hok'⟩ := hlocked other (List.mem_cons_of_mem _ hother)
        have hne : tracker ≠ other := fun heq => hnotMem (heq ▸ hother)
        refine ⟨node', ?_, hok'⟩
        rw [List.getElem?_set_ne hne]
        exact hnode'
    rw [← withStates_cons hnode hnotMem, ← hrest]
    simp [updateStates, hnode, hok, bind, Except.bind, pure, Except.pure]

theorem lockedStates_cons {node : UsageNode} (hnode : nodes[tracker]? = some node) :
    lockedStates nodes (tracker :: lineage) = node.state :: lockedStates nodes lineage := by
  simp [lockedStates, hnode]

theorem lockedStates_congr {nodes' : List UsageNode}
    (hsame : ∀ tracker ∈ lineage, nodes'[tracker]? = nodes[tracker]?) :
    lockedStates nodes' lineage = lockedStates nodes lineage := by
  unfold lockedStates
  exact List.filterMap_congr fun tracker hmem => by rw [hsame tracker hmem]

theorem mem_lockedStates {state : UsageState} :
    state ∈ lockedStates nodes lineage ↔
      ∃ tracker ∈ lineage, ∃ node, nodes[tracker]? = some node ∧ node.state = state := by
  simp [lockedStates, List.mem_filterMap]

theorem withStates_withStates {update' : UsageState → UsageState} :
    withStates update' lineage (withStates update lineage nodes)
      = withStates (update' ∘ update) lineage nodes := by
  apply List.ext_getElem?
  intro i
  simp only [getElem?_withStates]
  cases nodes[i]? with
  | none => rfl
  | some node => by_cases hi : i ∈ lineage <;> simp [hi]

def UsageState.credit (receipt : UsageReceipt) (state : UsageState) : UsageState :=
  match state.totalWith receipt with
  | .ok settled => { state with settled }
  | .error _ => state

theorem foldl_zip_totals {receipt : UsageReceipt} {totals : List UsageAggregate}
    (hnodup : lineage.Nodup) (hlocked : ∀ tracker ∈ lineage, tracker < nodes.length)
    (htotals : (lockedStates nodes lineage).mapM (·.totalWith receipt) = .ok totals) :
    (lineage.zip totals).foldl
        (fun nodes target =>
          nodes.modify target.1 fun node => { node with state.settled := target.2 })
        nodes
      = withStates (UsageState.credit receipt) lineage nodes := by
  induction lineage generalizing nodes totals with
  | nil => simp [withStates_nil]
  | cons tracker lineage ih =>
    obtain ⟨hnotMem, hnodup⟩ := List.nodup_cons.mp hnodup
    have hlt := hlocked tracker (List.mem_cons_self ..)
    have hnode : nodes[tracker]? = some nodes[tracker] := List.getElem?_eq_getElem hlt
    rw [lockedStates_cons hnode, List.mapM_cons] at htotals
    cases hfirst : nodes[tracker].state.totalWith receipt with
    | error error => simp [hfirst, bind, Except.bind] at htotals
    | ok total =>
      cases hrest : (lockedStates nodes lineage).mapM (·.totalWith receipt) with
      | error error => simp [hfirst, hrest, bind, Except.bind] at htotals
      | ok rest =>
        simp only [hfirst, hrest, bind, Except.bind, pure, Except.pure] at htotals
        cases htotals
        have hcredit : nodes.modify tracker
              (fun node => { node with state.settled := total })
            = nodes.set tracker { nodes[tracker] with
                state := nodes[tracker].state.credit receipt } := by
          rw [List.modify_eq_set_getElem?, hnode]
          simp [UsageState.credit, hfirst]
        have hsame : ∀ other ∈ lineage,
            (nodes.set tracker { nodes[tracker] with
              state := nodes[tracker].state.credit receipt })[other]? = nodes[other]? :=
          fun other hother => by
            have hne : tracker ≠ other := fun heq => hnotMem (heq ▸ hother)
            exact List.getElem?_set_ne hne
        rw [List.zip_cons_cons, List.foldl_cons, hcredit, ← withStates_cons hnode hnotMem]
        refine ih hnodup (fun other hother => ?_) ?_
        · rw [List.length_set]
          exact hlocked other (List.mem_cons_of_mem _ hother)
        · rw [lockedStates_congr hsame]
          exact hrest

end Updates

/-! ### Lineages -/

section Lineages

variable {address : Nat → Nat} {nodes : List UsageNode} {links : List (List Nat)} {tracker : Nat}
  {lineage : List Nat}

theorem mem_ancestry_iff (hlineage : ancestry address nodes tracker = some lineage) (node : Nat) :
    node ∈ lineage ↔ Descends (nodes.map UsageNode.links) tracker node := by
  unfold ancestry at hlineage
  obtain ⟨collected, hcollect, rfl⟩ := Option.map_eq_some_iff.mp hlineage
  rw [List.mem_insertionSort, Descends, ← usageLinks_eq]
  exact Worklist.mem_collect_iff hcollect node

theorem nodup_ancestry (hlineage : ancestry address nodes tracker = some lineage) :
    lineage.Nodup := by
  unfold ancestry at hlineage
  obtain ⟨collected, hcollect, rfl⟩ := Option.map_eq_some_iff.mp hlineage
  rw [(List.perm_insertionSort _ _).nodup_iff]
  exact Worklist.nodup_of_collect hcollect List.nodup_nil

def OlderLinks (links : List (List Nat)) : Prop :=
  ∀ tracker, ∀ target ∈ linksAt links tracker, target < tracker

theorem le_of_descends (holder : OlderLinks links) {node : Nat} (hdesc : Descends links tracker node) :
    node ≤ tracker := by
  induction hdesc with
  | refl => exact le_rfl
  | tail _ hlink ih => exact (holder _ _ hlink).le.trans ih

theorem linksAt_append {new : List Nat} (hlt : tracker < links.length) :
    linksAt (links ++ [new]) tracker = linksAt links tracker := by
  simp only [linksAt]
  rw [List.getElem?_append_left hlt]

theorem descends_append {new : List Nat} (holder : OlderLinks links)
    (hlt : tracker < links.length) (node : Nat) :
    Descends (links ++ [new]) tracker node ↔ Descends links tracker node := by
  constructor
  · intro hdesc
    induction hdesc with
    | refl => exact .refl
    | tail _ hlink ih =>
      refine ih.tail ?_
      rwa [linksAt_append ((le_of_descends holder ih).trans_lt hlt)] at hlink
  · intro hdesc
    induction hdesc with
    | refl => exact .refl
    | tail hdesc hlink ih =>
      refine ih.tail ?_
      rwa [linksAt_append ((le_of_descends holder hdesc).trans_lt hlt)]

theorem ancestry_append {new : UsageNode} (holder : OlderLinks (nodes.map UsageNode.links))
    (hlt : tracker < nodes.length) :
    ancestry address (nodes ++ [new]) tracker = ancestry address nodes tracker := by
  unfold ancestry
  rw [usageLinks_eq, usageLinks_eq, List.map_append, List.map_singleton,
    Worklist.collect_congr fun other => other < nodes.length]
  · exact fun other hother => linksAt_append (by simpa using hother)
  · exact fun other hother target htarget => (holder other target htarget).trans hother
  · simpa using hlt

end Lineages

/-! ### What one operation does to the nodes -/

def UsageState.register (state : UsageState) : UsageState :=
  { state with inFlight := state.inFlight + 1 }

def UsageState.release (state : UsageState) : UsageState :=
  { state with inFlight := state.inFlight - 1 }

def UsageState.poison (state : UsageState) : UsageState :=
  { state.release with overflowed := true }

theorem credit_release {state : UsageState} {receipt : UsageReceipt} {total : UsageAggregate}
    (htotal : state.totalWith receipt = .ok total) :
    state.release.credit receipt
      = { state with inFlight := state.inFlight - 1, settled := total } := by
  have hreleased : state.release.totalWith receipt = .ok total := htotal
  simp only [UsageState.credit, hreleased]
  rfl

section Operations

variable {address : Nat → Nat} {nodes : List UsageNode} {tracker : Nat} {lineage : List Nat}

theorem startAttempt_cases (hlineage : ancestry address nodes tracker = some lineage)
    (hlocked : ∀ node ∈ lineage, node < nodes.length) :
    startAttempt address nodes tracker = .ok (nodes, .error .overflow) ∨
      ((∀ node ∈ lineage, ∀ value, nodes[node]? = some value → value.state.admits) ∧
        startAttempt address nodes tracker =
          .ok (withStates UsageState.register lineage nodes,
            .ok { tracker := some tracker, receipt := UsageReceipt.default })) := by
  unfold startAttempt
  have hexpect : lineageOf address nodes tracker = .ok lineage := by
    rw [lineageOf, hlineage, expect]
  by_cases hadmits : (lockedStates nodes lineage).all UsageState.admits = true
  · right
    refine ⟨fun node hnode value hvalue => List.all_eq_true.mp hadmits value.state
      (mem_lockedStates.mpr ⟨node, hnode, value, hvalue, rfl⟩), ?_⟩
    have hupdate := updateStates_eq nodes UsageState.register
      (fun state => do return { state with inFlight := ← addU64 state.inFlight 1 })
      (nodup_ancestry hlineage) fun node hnode => by
        have hlt := hlocked node hnode
        refine ⟨nodes[node], List.getElem?_eq_getElem hlt, ?_⟩
        have hadmit := List.all_eq_true.mp hadmits nodes[node].state
          (mem_lockedStates.mpr ⟨node, hnode, nodes[node], List.getElem?_eq_getElem hlt, rfl⟩)
        simp only [UsageState.admits, Bool.and_eq_true, Option.isSome_iff_exists,
          Option.bind_eq_some_iff, checkedAdd_eq_some_iff] at hadmit
        obtain ⟨-, count, requests, ⟨-, rfl⟩, hbound, -⟩ := hadmit
        have hroom : nodes[node].state.inFlight + 1 < u64Bound := by omega
        simp [addU64_of_lt hroom, UsageState.register, bind, Except.bind, pure, Except.pure]
    simp only [hexpect, bind, Except.bind, hadmits, if_true] at hupdate ⊢
    rw [hupdate]
    rfl
  · left
    simp [hexpect, hadmits, bind, Except.bind, pure, Except.pure]

/-- `settle` releases the attempt in the whole lineage, and credits its receipt to every node of it
or poisons every node of it. -/
theorem settleReceipt_cases (hlineage : ancestry address nodes tracker = some lineage)
    (hlive : ∀ node ∈ lineage, ∃ value, nodes[node]? = some value ∧ 0 < value.state.inFlight)
    (receipt : UsageReceipt) :
    ((∀ node ∈ lineage, ∀ value, nodes[node]? = some value →
        ∃ total, value.state.totalWith receipt = .ok total) ∧
      settleReceipt address nodes tracker receipt =
        .ok (withStates (UsageState.credit receipt ∘ UsageState.release) lineage nodes, .ok ())) ∨
    ((∃ node ∈ lineage, ∃ value, nodes[node]? = some value ∧
        value.state.totalWith receipt = .error .overflow) ∧
      settleReceipt address nodes tracker receipt =
        .ok (withStates UsageState.poison lineage nodes, .error .overflow)) := by
  have hnodup := nodup_ancestry hlineage
  have hexpect : lineageOf address nodes tracker = .ok lineage := by
    rw [lineageOf, hlineage, expect]
  have hrelease := updateStates_eq nodes UsageState.release
    (fun state => do
      return { state with inFlight := ← expect "live usage attempt" (checkedSub state.inFlight 1) })
    hnodup fun node hnode => by
      obtain ⟨value, hvalue, hpos⟩ := hlive node hnode
      refine ⟨value, hvalue, ?_⟩
      have hone : 1 ≤ value.state.inFlight := hpos
      simp [expect, checkedSub, hone, UsageState.release, bind, Except.bind, pure, Except.pure]
  have hreleased : ∀ node ∈ lineage, ∃ value, nodes[node]? = some value ∧
      (withStates UsageState.release lineage nodes)[node]?
        = some { value with state := value.state.release } := by
    intro node hnode
    obtain ⟨value, hvalue, _⟩ := hlive node hnode
    exact ⟨value, hvalue, by simp [getElem?_withStates, hvalue, hnode]⟩
  unfold settleReceipt
  simp only [hexpect, bind, Except.bind] at hrelease ⊢
  rw [hrelease]
  obtain ⟨totals, htotals, hall⟩ | ⟨error, htotals, state, hstate, hfail⟩ := Runs.mapM_cases
    (fun state : UsageState => state.totalWith receipt)
    (lockedStates (withStates UsageState.release lineage nodes) lineage)
  · refine Or.inl ⟨fun node hnode value hvalue => ?_, ?_⟩
    · obtain ⟨value', hvalue', hnew⟩ := hreleased node hnode
      rw [hvalue] at hvalue'
      cases hvalue'
      exact hall value.state.release (mem_lockedStates.mpr ⟨node, hnode, _, hnew, rfl⟩)
    · have hwrite := foldl_zip_totals hnodup
        (fun node hnode => by
          obtain ⟨value, hvalue, _⟩ := hlive node hnode
          simpa using (List.getElem?_eq_some_iff.mp hvalue).1)
        htotals
      simp only [htotals, hwrite, withStates_withStates, pure, Except.pure]
  · cases error
    refine Or.inr ⟨?_, ?_⟩
    · obtain ⟨node, hnode, value, hvalue, rfl⟩ := mem_lockedStates.mp hstate
      obtain ⟨value', hvalue', hnew⟩ := hreleased node hnode
      rw [hnew] at hvalue
      cases hvalue
      exact ⟨node, hnode, value', hvalue', hfail⟩
    · have hpoison := updateStates_eq (withStates UsageState.release lineage nodes)
        (fun state => { state with overflowed := true })
        (fun state => .ok { state with overflowed := true }) hnodup fun node hnode => by
          obtain ⟨value, _, hnew⟩ := hreleased node hnode
          exact ⟨_, hnew, rfl⟩
      simp only [htotals, hpoison, withStates_withStates, pure, Except.pure]
      rfl

end Operations

/-! ### The accounting invariant -/

open Classical in
/-- One for a live attempt that was started at `node` or at a descendant of it. -/
noncomputable def liveWeight (links : List (List Nat)) (node : Nat) : Option Nat → Nat
  | some tracker => if Descends links tracker node then 1 else 0
  | none => 0

namespace TrackerHistory

noncomputable def liveAt (history : TrackerHistory) (node : Nat) : Nat :=
  (history.live.map (liveWeight history.links node)).sum

open Classical in
/-- The receipts settled at `node` or at a descendant of it, in settlement order. -/
noncomputable def receiptsAt (history : TrackerHistory) (node : Nat) : List UsageReceipt :=
  (history.settled.filter fun entry => Descends history.links entry.1 node).map Prod.snd

end TrackerHistory

def foldReceipts (opening : UsageAggregate) (receipts : List UsageReceipt) :
    Except UsageOverflow UsageAggregate :=
  receipts.foldlM UsageAggregate.add opening

structure NodeAccounts (history : TrackerHistory) (node : Nat) (value : UsageNode) : Prop where
  inFlight_eq : value.state.inFlight = history.liveAt node
  settled_eq : value.state.overflowed = false → ∀ opening, history.opening[node]? = some opening →
    foldReceipts opening (history.receiptsAt node) = .ok value.state.settled

def heldTracker (slot : Option UsageAttempt) : Option Nat :=
  slot.bind UsageAttempt.tracker

/-- The program's links and held attempts are those of the history, and the counters are what the
history determines. -/
structure TrackerInvariant (address : Nat → Nat) (system : TrackerSystem)
    (history : TrackerHistory) : Prop where
  links_eq : system.nodes.map UsageNode.links = history.links
  live_eq : system.attempts.map heldTracker = history.live
  olderLinks : OlderLinks history.links
  bounded : ∀ tracker < system.nodes.length,
    ∃ lineage, ancestry address system.nodes tracker = some lineage
  live_lt : ∀ tracker, some tracker ∈ history.live → tracker < system.nodes.length
  settled_lt : ∀ entry ∈ history.settled, entry.1 < system.nodes.length
  opening_length : history.opening.length = system.nodes.length
  accounts : ∀ node value, system.nodes[node]? = some value → NodeAccounts history node value

variable {lineage : List Nat} {update : UsageState → UsageState}

theorem foldReceipts_append (opening : UsageAggregate) (receipts : List UsageReceipt)
    (receipt : UsageReceipt) :
    foldReceipts opening (receipts ++ [receipt])
      = foldReceipts opening receipts >>= fun total => total.add receipt := by
  unfold foldReceipts
  rw [List.foldlM_append]
  simp

section Steps

variable {address : Nat → Nat} {system : TrackerSystem} {history : TrackerHistory}

theorem ancestry_withStates {nodes : List UsageNode} :
    ancestry address (withStates update lineage nodes) tracker = ancestry address nodes tracker := by
  unfold ancestry
  rw [usageLinks_eq, links_withStates, ← usageLinks_eq]

section

variable (hinv : TrackerInvariant address system history)
include hinv

theorem TrackerInvariant.mem_iff (hlineage : ancestry address system.nodes tracker = some lineage)
    (node : Nat) : node ∈ lineage ↔ Descends history.links tracker node := by
  rw [← hinv.links_eq]
  exact mem_ancestry_iff hlineage node

theorem TrackerInvariant.lt_of_mem (hlineage : ancestry address system.nodes tracker = some lineage)
    (hlt : tracker < system.nodes.length) {node : Nat} (hnode : node ∈ lineage) :
    node < system.nodes.length :=
  (le_of_descends hinv.olderLinks ((hinv.mem_iff hlineage node).mp hnode)).trans_lt hlt

theorem TrackerInvariant.links_length : history.links.length = system.nodes.length := by
  rw [← hinv.links_eq, List.length_map]

theorem TrackerInvariant.live_slot {slot : Nat} {attempt : UsageAttempt}
    (hslot : system.attempts[slot]? = some (some attempt)) :
    history.live[slot]? = some attempt.tracker := by
  simp [← hinv.live_eq, hslot, heldTracker]

theorem TrackerInvariant.updateLineage {attempts : List (Option UsageAttempt)}
    {live : List (Option Nat)} {settled : List (Nat × UsageReceipt)}
    (hlive : attempts.map heldTracker = live)
    (hlive_lt : ∀ tracker, some tracker ∈ live → tracker < system.nodes.length)
    (hsettled : ∀ entry ∈ settled, entry.1 < system.nodes.length)
    (haccounts : ∀ node value, system.nodes[node]? = some value →
      NodeAccounts { history with live, settled } node
        (if node ∈ lineage then { value with state := update value.state } else value)) :
    TrackerInvariant address { nodes := withStates update lineage system.nodes, attempts }
      { history with live, settled } := by
  refine
    { links_eq := links_withStates.trans hinv.links_eq
      live_eq := hlive
      olderLinks := hinv.olderLinks
      bounded := ?_
      live_lt := by simpa using hlive_lt
      settled_lt := by simpa using hsettled
      opening_length := by simpa using hinv.opening_length
      accounts := ?_ }
  · intro tracker hlt
    rw [ancestry_withStates]
    exact hinv.bounded tracker (by simpa using hlt)
  · intro node value hvalue
    simp only at hvalue
    rw [getElem?_withStates] at hvalue
    obtain ⟨old, hold, rfl⟩ := Option.map_eq_some_iff.mp hvalue
    exact haccounts node old hold

theorem TrackerInvariant.openNode {new : UsageNode}
    (hlinks : ∀ target ∈ new.links, target < system.nodes.length)
    (hbounded : ∃ lineage, ancestry address (system.nodes ++ [new]) system.nodes.length = some lineage)
    (hinFlight : new.state.inFlight = 0) :
    TrackerInvariant address { system with nodes := system.nodes ++ [new] }
      { history with
        opening := history.opening ++ [new.state.settled]
        links := history.links ++ [new.links] } := by
  classical
  have hlength := hinv.links_length
  have holder : OlderLinks (history.links ++ [new.links]) := by
    intro tracker target htarget
    by_cases hlt : tracker < history.links.length
    · rw [linksAt_append hlt] at htarget
      exact hinv.olderLinks tracker target htarget
    · by_cases heq : tracker = history.links.length
      · subst heq
        rw [linksAt, List.getElem?_concat_length, Option.getD_some] at htarget
        rw [hlength]
        exact hlinks target htarget
      · rw [linksAt, List.getElem?_eq_none (by simp; omega)] at htarget
        simp at htarget
  have hdescends : ∀ tracker < system.nodes.length, ∀ node,
      Descends (history.links ++ [new.links]) tracker node ↔ Descends history.links tracker node :=
    fun tracker hlt node => descends_append hinv.olderLinks (hlength ▸ hlt) node
  -- nothing that exists reports to a node that did not
  have hnotDescends : ∀ tracker < system.nodes.length,
      ¬ Descends history.links tracker system.nodes.length := fun tracker hlt hdesc =>
    absurd (le_of_descends hinv.olderLinks hdesc) (by omega)
  have hweight : ∀ node, ∀ slot ∈ history.live,
      liveWeight (history.links ++ [new.links]) node slot = liveWeight history.links node slot := by
    intro node slot hslot
    cases slot with
    | none => rfl
    | some tracker => exact if_congr (hdescends tracker (hinv.live_lt tracker hslot) node) rfl rfl
  have hlive : ∀ node, ((history.live.map (liveWeight (history.links ++ [new.links]) node)).sum
      = history.liveAt node) := fun node => by rw [List.map_congr_left (hweight node)]; rfl
  have hreceipts : ∀ node, (history.settled.filter
        fun entry => Descends (history.links ++ [new.links]) entry.1 node).map Prod.snd
      = history.receiptsAt node := fun node => by
    rw [List.filter_congr fun entry hmem =>
      decide_eq_decide.mpr (hdescends entry.1 (hinv.settled_lt entry hmem) node)]
    rfl
  refine
    { links_eq := by simp [hinv.links_eq]
      live_eq := hinv.live_eq
      olderLinks := holder
      bounded := ?_
      live_lt := fun tracker hmem => by
        have hlt := hinv.live_lt tracker hmem
        simp only [List.length_append, List.length_singleton]
        omega
      settled_lt := fun entry hmem => by
        have hlt := hinv.settled_lt entry hmem
        simp only [List.length_append, List.length_singleton]
        omega
      opening_length := by simp [hinv.opening_length]
      accounts := ?_ }
  · intro tracker hlt
    by_cases hold : tracker < system.nodes.length
    · rw [ancestry_append (hinv.links_eq ▸ hinv.olderLinks) hold]
      exact hinv.bounded tracker hold
    · have heq : tracker = system.nodes.length := by
        simp only [List.length_append, List.length_singleton] at hlt
        omega
      rw [heq]
      exact hbounded
  · intro node value hvalue
    simp only at hvalue
    by_cases hold : node < system.nodes.length
    · rw [List.getElem?_append_left hold] at hvalue
      have haccounts := hinv.accounts node value hvalue
      refine ⟨haccounts.inFlight_eq.trans (hlive node).symm, fun hclean opening hopening => ?_⟩
      simp only at hopening
      rw [List.getElem?_append_left (hinv.opening_length ▸ hold)] at hopening
      exact (congrArg (foldReceipts opening) (hreceipts node)).trans
        (haccounts.settled_eq hclean opening hopening)
    · have heq : node = system.nodes.length := by
        have hlt := (List.getElem?_eq_some_iff.mp hvalue).1
        simp only [List.length_append, List.length_singleton] at hlt
        omega
      subst heq
      simp only [List.getElem?_concat_length, Option.some.injEq] at hvalue
      subst hvalue
      refine ⟨?_, fun _ opening hopening => ?_⟩
      · refine hinFlight.trans ((hlive _).trans (List.sum_eq_zero fun weight hmem => ?_)).symm
        obtain ⟨slot, hslot, rfl⟩ := List.mem_map.mp hmem
        cases slot with
        | none => rfl
        | some tracker => exact if_neg (hnotDescends tracker (hinv.live_lt tracker hslot))
      · have hempty : history.receiptsAt system.nodes.length = [] := by
          simp only [TrackerHistory.receiptsAt, List.map_eq_nil_iff, List.filter_eq_nil_iff,
            decide_eq_true_eq]
          exact fun entry hmem => hnotDescends entry.1 (hinv.settled_lt entry hmem)
        simp only at hopening
        rw [← hinv.opening_length, List.getElem?_concat_length, Option.some.injEq] at hopening
        rw [← hopening]
        exact congrArg (foldReceipts _) ((hreceipts _).trans hempty)

end

theorem TrackerInvariant.start (hinv : TrackerInvariant address system history) (tracker : Nat) :
    ∃ next, TrackerSystem.step address (system, history) (.start tracker) = .ok next ∧
      TrackerInvariant address next.1 next.2 := by
  classical
  by_cases hlt : tracker < system.nodes.length
  · obtain ⟨lineage, hlineage⟩ := hinv.bounded tracker hlt
    have hlocked : ∀ node ∈ lineage, node < system.nodes.length :=
      fun node hnode => hinv.lt_of_mem hlineage hlt hnode
    obtain hstart | ⟨-, hstart⟩ := startAttempt_cases hlineage hlocked
    · exact ⟨_, by simp [TrackerSystem.step, hlt, hstart, bind, Except.bind, pure, Except.pure]; rfl,
        hinv⟩
    · refine ⟨_, by
        simp [TrackerSystem.step, hlt, hstart, bind, Except.bind, pure, Except.pure]; rfl, ?_⟩
      refine hinv.updateLineage (by simp [hinv.live_eq, heldTracker]) ?_ hinv.settled_lt ?_
      · intro other hmem
        obtain hmem | hmem := List.mem_append.mp hmem
        · exact hinv.live_lt other hmem
        · cases List.mem_singleton.mp hmem
          exact hlt
      · intro node value hvalue
        have haccounts := hinv.accounts node value hvalue
        have hlive : TrackerHistory.liveAt { history with live := history.live ++ [some tracker] } node
            = history.liveAt node + (if Descends history.links tracker node then 1 else 0) := by
          simp [TrackerHistory.liveAt, liveWeight]
        by_cases hnode : node ∈ lineage
        · rw [if_pos hnode]
          refine ⟨?_, haccounts.settled_eq⟩
          simp only [hlive, if_pos ((hinv.mem_iff hlineage node).mp hnode),
            UsageState.register, haccounts.inFlight_eq]
        · rw [if_neg hnode]
          refine ⟨?_, haccounts.settled_eq⟩
          simp only [hlive, if_neg (mt (hinv.mem_iff hlineage node).mpr hnode), add_zero,
            haccounts.inFlight_eq]
  · exact ⟨_, by simp [TrackerSystem.step, hlt]; rfl, hinv⟩

theorem tracker_observe (attempt : UsageAttempt) (receipt : UsageReceipt) :
    (attempt.observe receipt).tracker = attempt.tracker := by
  unfold UsageAttempt.observe
  split <;> rfl

section

variable (hinv : TrackerInvariant address system history)
include hinv

theorem TrackerInvariant.setSlot {slot : Nat} {old : UsageAttempt} {new : Option UsageAttempt}
    (hslot : system.attempts[slot]? = some (some old)) (hnew : heldTracker new = old.tracker) :
    TrackerInvariant address { system with attempts := system.attempts.set slot new } history := by
  refine { hinv with live_eq := ?_ }
  obtain ⟨hlt, hvalue⟩ := List.getElem?_eq_some_iff.mp (hinv.live_slot hslot)
  simp only [List.map_set, hinv.live_eq, hnew, ← hvalue, List.set_getElem_self]

/-- Settling a live attempt: the whole lineage releases it, and every node of the lineage takes its
receipt or none does. -/
theorem TrackerInvariant.settleLive {slot : Nat} {kept : Option UsageAttempt}
    (receipt : UsageReceipt) (hslot : history.live[slot]? = some (some tracker))
    (hkept : heldTracker kept = none)
    (hlineage : ancestry address system.nodes tracker = some lineage)
    (hinFlight : ∀ state, (update state).inFlight = state.inFlight - 1)
    (hupdate : (∀ state, (update state).overflowed = true) ∨
      (update = UsageState.credit receipt ∘ UsageState.release ∧
        ∀ node ∈ lineage, ∀ value, system.nodes[node]? = some value →
          ∃ total, value.state.totalWith receipt = .ok total)) : TrackerInvariant address
      { nodes := withStates update lineage system.nodes
        attempts := system.attempts.set slot kept }
      (history.settle slot receipt) := by
  classical
  have hlt : tracker < system.nodes.length :=
    hinv.live_lt tracker (List.mem_of_getElem? hslot)
  simp only [TrackerHistory.settle, hslot]
  refine hinv.updateLineage (by simp [List.map_set, hinv.live_eq, hkept]) ?_ ?_ ?_
  · intro other hmem
    obtain hmem | hmem := List.mem_or_eq_of_mem_set hmem
    · exact hinv.live_lt other hmem
    · cases hmem
  · intro entry hmem
    obtain hmem | hmem := List.mem_append.mp hmem
    · exact hinv.settled_lt entry hmem
    · rw [List.mem_singleton.mp hmem]
      exact hlt
  · intro node value hvalue
    have haccounts := hinv.accounts node value hvalue
    have hset := Runs.sum_map_set (liveWeight history.links node) none hslot
    simp only [liveWeight, add_zero] at hset
    have hreceipts : TrackerHistory.receiptsAt
          { history with
            live := history.live.set slot none
            settled := history.settled ++ [(tracker, receipt)] } node
        = history.receiptsAt node
          ++ if Descends history.links tracker node then [receipt] else [] := by
      by_cases hdesc : Descends history.links tracker node <;>
        simp [TrackerHistory.receiptsAt, hdesc]
    by_cases hnode : node ∈ lineage
    · have hdesc := (hinv.mem_iff hlineage node).mp hnode
      rw [if_pos hdesc] at hset hreceipts
      rw [if_pos hnode]
      refine ⟨?_, fun hclean opening hopening => ?_⟩
      · simp only [hinFlight, haccounts.inFlight_eq, TrackerHistory.liveAt]
        omega
      · obtain hpoisoned | ⟨rfl, hfits⟩ := hupdate
        · simp [hpoisoned] at hclean
        · obtain ⟨total, htotal⟩ := hfits node hnode value hvalue
          -- the node took the receipt, so it had not overflowed before
          have hbefore : value.state.overflowed = false := by
            cases hover : value.state.overflowed with
            | false => rfl
            | true => simp [UsageState.totalWith, hover] at htotal
          have hadd : value.state.settled.add receipt = .ok total := by
            simpa [UsageState.totalWith, hbefore] using htotal
          simp only [hreceipts, Function.comp, credit_release htotal, foldReceipts_append,
            haccounts.settled_eq hbefore opening hopening]
          exact hadd
    · have hdesc := mt (hinv.mem_iff hlineage node).mpr hnode
      rw [if_neg hdesc] at hset hreceipts
      rw [if_neg hnode]
      refine ⟨?_, fun hclean opening hopening => ?_⟩
      · simp only [haccounts.inFlight_eq, TrackerHistory.liveAt]
        omega
      · simp only [hreceipts, List.append_nil]
        exact haccounts.settled_eq hclean opening hopening

theorem TrackerInvariant.inFlight_pos {slot : Nat}
    (hslot : history.live[slot]? = some (some tracker))
    (hlineage : ancestry address system.nodes tracker = some lineage) :
    ∀ node ∈ lineage, ∃ value, system.nodes[node]? = some value ∧ 0 < value.state.inFlight := by
  intro node hnode
  have hlt := hinv.lt_of_mem hlineage (hinv.live_lt tracker (List.mem_of_getElem? hslot)) hnode
  refine ⟨system.nodes[node], List.getElem?_eq_getElem hlt, ?_⟩
  have hle := Runs.le_sum_map (liveWeight history.links node) hslot
  rw [liveWeight, if_pos ((hinv.mem_iff hlineage node).mp hnode)] at hle
  rw [(hinv.accounts node _ (List.getElem?_eq_getElem hlt)).inFlight_eq]
  exact hle

theorem TrackerInvariant.settle {slot : Nat} {old : UsageAttempt} (attempt : UsageAttempt)
    (keep : UsageAttempt → Option UsageAttempt) (hslot : system.attempts[slot]? = some (some old))
    (hsame : attempt.tracker = old.tracker)
    (hkeep : ∀ other, other.tracker = none → heldTracker (keep other) = none) :
    ∃ next, system.settle address slot attempt keep = .ok next ∧
      TrackerInvariant address next (history.settle slot attempt.receipt) := by
  have hlive := hinv.live_slot hslot
  unfold TrackerSystem.settle
  cases htracker : attempt.tracker with
  | none =>
    have hold : old.tracker = none := hsame.symm.trans htracker
    refine ⟨_, rfl, ?_⟩
    simp only [TrackerHistory.settle, hlive, hold]
    exact hinv.setSlot hslot ((hkeep attempt htracker).trans hold.symm)
  | some tracker =>
    rw [← hsame, htracker] at hlive
    obtain ⟨lineage, hlineage⟩ := hinv.bounded tracker
      (hinv.live_lt tracker (List.mem_of_getElem? hlive))
    have hretired := hkeep { attempt with tracker := none } rfl
    have hcases := settleReceipt_cases hlineage (hinv.inFlight_pos hlive hlineage) attempt.receipt
    obtain ⟨hfits, hsettle⟩ | ⟨_, hsettle⟩ := hcases
    · refine ⟨_, by simp only [hsettle, bind, Except.bind, pure, Except.pure]; rfl, ?_⟩
      refine hinv.settleLive attempt.receipt hlive hretired hlineage (fun state => ?_)
        (Or.inr ⟨rfl, hfits⟩)
      simp only [Function.comp, UsageState.credit]
      split <;> rfl
    · refine ⟨_, by simp only [hsettle, bind, Except.bind, pure, Except.pure]; rfl, ?_⟩
      exact hinv.settleLive attempt.receipt hlive hretired hlineage (fun _ => rfl)
        (Or.inl fun _ => rfl)

theorem TrackerInvariant.openRoot (settled : UsageAggregate) :
    TrackerInvariant address { system with nodes := system.nodes ++ [{ state := { settled } }] }
      { history with
        opening := history.opening ++ [settled]
        links := history.links ++ [[]] } := by
  refine hinv.openNode (by simp [UsageNode.links]) ?_ rfl
  have hlinks : usageLinks (system.nodes ++ [{ state := { settled } }]) system.nodes.length = [] := by
    simp [usageLinks, UsageNode.links]
  refine ⟨[system.nodes.length], ?_⟩
  simp [ancestry, maxAncestryNodes, Worklist.collect, hlinks]

theorem TrackerInvariant.openChild {parent : Nat} (observer : Option Nat)
    (hparent : parent < system.nodes.length)
    (hobserver : ∀ other, observer = some other → other < system.nodes.length) :
    TrackerInvariant address
      (system.openNode history (newChild address system.nodes parent observer) {}
        (observer.toList ++ [parent])).1
      (system.openNode history (newChild address system.nodes parent observer) {}
        (observer.toList ++ [parent])).2 := by
  unfold newChild
  simp only
  split
  · exact hinv
  · cases hlineage : ancestry address _ system.nodes.length with
    | none => exact hinv
    | some lineage =>
      refine hinv.openNode (fun target htarget => ?_) ⟨lineage, hlineage⟩ rfl
      simp only [UsageNode.links, Option.toList_some, List.mem_append, Option.mem_toList,
        List.mem_singleton] at htarget
      obtain htarget | rfl := htarget
      · exact hobserver target htarget
      · exact hparent

theorem TrackerInvariant.step (op : TrackerOp) :
    ∃ next, TrackerSystem.step address (system, history) op = .ok next ∧
      TrackerInvariant address next.1 next.2 := by
  cases op with
  | root => exact ⟨_, rfl, hinv.openRoot {}⟩
  | restore settled => exact ⟨_, rfl, hinv.openRoot settled⟩
  | child parent =>
    simp only [TrackerSystem.step]
    by_cases hlt : parent < system.nodes.length
    · rw [if_pos hlt]
      exact ⟨_, rfl, hinv.openChild none hlt (by simp)⟩
    · rw [if_neg hlt]
      exact ⟨_, rfl, hinv⟩
  | childObservedBy parent observer =>
    simp only [TrackerSystem.step]
    by_cases hlt : parent < system.nodes.length ∧ observer < system.nodes.length
    · rw [if_pos hlt]
      refine ⟨_, rfl, hinv.openChild (some observer) hlt.1 ?_⟩
      rintro other ⟨⟩
      exact hlt.2
    · rw [if_neg hlt]
      exact ⟨_, rfl, hinv⟩
  | start tracker => exact hinv.start tracker
  | observe slot receipt =>
    simp only [TrackerSystem.step]
    match hslot : system.attempts[slot]? with
    | none => exact ⟨_, rfl, hinv⟩
    | some none => exact ⟨_, rfl, hinv⟩
    | some (some attempt) => exact ⟨_, rfl, hinv.setSlot hslot (tracker_observe attempt receipt)⟩
  | finish slot receipt =>
    simp only [TrackerSystem.step]
    match hslot : system.attempts[slot]? with
    | none => exact ⟨_, rfl, hinv⟩
    | some none => exact ⟨_, rfl, hinv⟩
    | some (some attempt) =>
      obtain ⟨next, hsettle, hnext⟩ := hinv.settle _ some hslot
        (tracker_observe attempt receipt) fun _ hnone => hnone
      exact ⟨_, by simp only [hsettle]; rfl, hnext⟩
  | drop slot =>
    simp only [TrackerSystem.step]
    match hslot : system.attempts[slot]? with
    | none => exact ⟨_, rfl, hinv⟩
    | some none => exact ⟨_, rfl, hinv⟩
    | some (some attempt) =>
      obtain ⟨next, hsettle, hnext⟩ := hinv.settle attempt (fun _ => none) hslot
        rfl fun _ _ => rfl
      exact ⟨_, by simp only [hsettle]; rfl, hnext⟩

end

end Steps

/-! ### Whole executions -/

theorem TrackerInvariant.empty (address : Nat → Nat) : TrackerInvariant address {} {} := by
  refine
    { links_eq := rfl
      live_eq := rfl
      olderLinks := fun tracker target htarget => ?_
      bounded := by simp
      live_lt := by simp
      settled_lt := by simp
      opening_length := rfl
      accounts := by simp }
  simp [linksAt] at htarget

/-- Every node a scope reports to takes the receipt, or every one of them is marked as overflowed
with its total as it was; the other nodes are untouched. -/
def SettledTogether (links : List (List Nat)) (nodes nodes' : List UsageNode) (tracker : Nat)
    (receipt : UsageReceipt) : Prop :=
  (∀ node, ¬ Descends links tracker node → nodes'[node]? = nodes[node]?) ∧
  ((∀ node, Descends links tracker node → ∃ value total, nodes[node]? = some value ∧
      value.state.totalWith receipt = .ok total ∧
      nodes'[node]? = some { value with
        state := { value.state with inFlight := value.state.inFlight - 1, settled := total } }) ∨
    ((∃ node value, Descends links tracker node ∧ nodes[node]? = some value ∧
        value.state.totalWith receipt = .error .overflow) ∧
      ∀ node, Descends links tracker node → ∃ value, nodes[node]? = some value ∧
        nodes'[node]? = some { value with
          state := { value.state with
            inFlight := value.state.inFlight - 1, overflowed := true } }))

theorem settleReceipt_together {address : Nat → Nat} {nodes : List UsageNode}
    (hlineage : ancestry address nodes tracker = some lineage)
    (hlive : ∀ node ∈ lineage, ∃ value, nodes[node]? = some value ∧ 0 < value.state.inFlight)
    (receipt : UsageReceipt) :
    ∃ nodes' outcome, settleReceipt address nodes tracker receipt = .ok (nodes', outcome) ∧
      SettledTogether (nodes.map UsageNode.links) nodes nodes' tracker receipt := by
  have hmem : ∀ node, Descends (nodes.map UsageNode.links) tracker node ↔ node ∈ lineage :=
    fun node => (mem_ancestry_iff hlineage node).symm
  have houtside : ∀ (update : UsageState → UsageState) node, node ∉ lineage →
      (withStates update lineage nodes)[node]? = nodes[node]? := by
    intro update node hnode
    rw [getElem?_withStates]
    simp [hnode]
  obtain ⟨hfits, hsettle⟩ | ⟨⟨node, hnode, value, hvalue, hover⟩, hsettle⟩ :=
    settleReceipt_cases hlineage hlive receipt
  · refine ⟨_, _, hsettle, ?_, Or.inl ?_⟩
    · simpa only [hmem] using houtside _
    · intro node hnode
      rw [hmem] at hnode
      obtain ⟨value, hvalue, _⟩ := hlive node hnode
      obtain ⟨total, htotal⟩ := hfits node hnode value hvalue
      refine ⟨value, total, hvalue, htotal, ?_⟩
      simp [getElem?_withStates, hvalue, hnode, credit_release htotal]
  · refine ⟨_, _, hsettle, ?_, Or.inr ⟨⟨node, value, (hmem node).mpr hnode, hvalue, hover⟩, ?_⟩⟩
    · simpa only [hmem] using houtside _
    · intro node hnode
      rw [hmem] at hnode
      obtain ⟨value, hvalue, _⟩ := hlive node hnode
      refine ⟨value, hvalue, ?_⟩
      simp [getElem?_withStates, hvalue, hnode, UsageState.poison, UsageState.release]

/-- Every execution over every graph of scopes runs through: no ancestry is unsupported and no
`checked_sub` fails. It ends with the counters of every node equal to what the accepted starts, the
settled receipts and the links of the history determine, and settling any live attempt next is
all-or-nothing over its lineage. -/
theorem usageTracker_exactlyOnce (address : Nat → Nat) (ops : List TrackerOp) :
    ∃ system history, TrackerSystem.run address ops = .ok (system, history) ∧
      history.opening.length = system.nodes.length ∧
      (∀ node value, system.nodes[node]? = some value → ∃ opening,
        history.opening[node]? = some opening ∧
        value.state.inFlight = history.liveAt node ∧
        (value.state.overflowed = false →
          foldReceipts opening (history.receiptsAt node) = .ok value.state.settled)) ∧
      ∀ (slot : Nat) tracker, history.live[slot]? = some (some tracker) →
        ∀ receipt, ∃ nodes' outcome,
          settleReceipt address system.nodes tracker receipt = .ok (nodes', outcome) ∧
          SettledTogether history.links system.nodes nodes' tracker receipt := by
  obtain ⟨⟨system, history⟩, hrun, hinv⟩ := Runs.foldlM_ok
    (fun state => TrackerInvariant address state.1 state.2)
    (fun _ op hinv => hinv.step op) ops ({}, {}) (TrackerInvariant.empty address)
  refine ⟨system, history, hrun, hinv.opening_length, ?_, ?_⟩
  · intro node value hvalue
    have hlt : node < history.opening.length := by
      rw [hinv.opening_length]
      exact (List.getElem?_eq_some_iff.mp hvalue).1
    have haccounts := hinv.accounts node value hvalue
    exact ⟨_, List.getElem?_eq_getElem hlt, haccounts.inFlight_eq, fun hclean =>
      haccounts.settled_eq hclean _ (List.getElem?_eq_getElem hlt)⟩
  · intro slot tracker hslot receipt
    obtain ⟨lineage, hlineage⟩ := hinv.bounded tracker
      (hinv.live_lt tracker (List.mem_of_getElem? hslot))
    rw [← hinv.links_eq]
    exact settleReceipt_together hlineage (hinv.inFlight_pos hslot hlineage) receipt

/-- A root, two children and a scope below both: of two attempts at the lowest scope one is settled,
and the root counts the other once and takes the receipt once. -/
theorem usageTracker_exactlyOnce_diamond : ∃ system history value,
    TrackerSystem.run id [.root, .child 0, .child 0, .childObservedBy 1 2, .start 3, .start 3,
        .finish 0 UsageReceipt.default] = .ok (system, history) ∧
      history.links = [[], [0], [0], [2, 1]] ∧ history.live = [none, some 3] ∧
      system.nodes[0]? = some value ∧ value.state.settled.requests = 1 ∧
      history.liveAt 0 = 1 ∧ foldReceipts {} (history.receiptsAt 0) = .ok value.state.settled := by
  obtain ⟨system, history, hrun, -, haccounts, -⟩ := usageTracker_exactlyOnce id
    [.root, .child 0, .child 0, .childObservedBy 1 2, .start 3, .start 3,
      .finish 0 UsageReceipt.default]
  have hshown : (TrackerSystem.run id [.root, .child 0, .child 0, .childObservedBy 1 2, .start 3,
        .start 3, .finish 0 UsageReceipt.default]).map (fun state =>
          (state.2.opening[0]?, state.2.links, state.2.live, state.1.nodes[0]?.map fun node =>
            (node.state.inFlight, node.state.overflowed, node.state.settled.requests)))
      = .ok (some ({} : UsageAggregate), [[], [0], [0], [2, 1]], [none, some 3],
          some (1, false, 1)) := by
    simp [TrackerSystem.run, TrackerSystem.step, TrackerSystem.openNode, newChild, ancestry,
      maxScopeDepth, maxAncestryNodes, Worklist.collect, usageLinks, UsageNode.links, startAttempt,
      lineageOf, lockedStates, UsageState.admits, updateStates, addU64, checkedAdd, u64Bound, expect,
      TrackerSystem.settle, settleReceipt, checkedSub, UsageState.totalWith, UsageAttempt.observe,
      TrackerHistory.settle, bind, Except.bind, pure, Except.pure]
    rfl
  rw [hrun] at hshown
  simp only [Except.map, Except.ok.injEq, Prod.mk.injEq, Option.map_eq_some_iff] at hshown
  obtain ⟨hfirst, hlinks, hheld, value, hvalue, hinFlight, hclean, hrequests⟩ := hshown
  obtain ⟨opening, hopening, hlive, hsettled⟩ := haccounts 0 value hvalue
  cases hfirst.symm.trans hopening
  exact ⟨system, history, value, hrun, hlinks, hheld, hvalue, hrequests, hlive.symm.trans hinFlight,
    hsettled hclean⟩

end IronCrew
