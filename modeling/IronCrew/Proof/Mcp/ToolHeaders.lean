import Mathlib.Data.List.Perm.Subperm
import IronCrew.Mcp.ToolHeaders

/-!
# Listings are transactions

There is never more than one listing under way, and it belongs to the one transaction that is held.
What it has staged are the tools of its pages that compile, so that is what a commit puts into use;
any other end leaves the plans in use as they are and clears the way for the next listing.
-/

namespace IronCrew.Mcp

open Outcome

variable (toValue : RmcpTool → Except String Json)

def validTool (tool : RmcpTool) : Option CompiledTool :=
  match compileTool tool with
  | .error _ => none
  | .ok (plan, schema) => (cacheTool toValue tool plan schema).toOption

def validTools (pages : List ListToolsResult) : List CompiledTool :=
  pages.flatMap fun page => page.tools.filterMap (validTool toValue)

def Holds (tools : CachedTools) (compiled : List CompiledTool) : Prop :=
  (compiled.map CompiledTool.name).Nodup ∧
    ∀ name, tools.lookup name =
      (compiled.find? fun tool => tool.name = name).map CompiledTool.cached

variable {toValue}

/-! ### Pages -/

theorem cacheTool_ok {tool : RmcpTool} {plan : HeaderPlan} {schema : List (String × Json)}
    {compiled : CompiledTool} (hcache : cacheTool toValue tool plan schema = .ok compiled) :
    compiled.name = tool.name ∧ compiled.sanitized.name = tool.name ∧
      { compiled.sanitized with inputSchema := compiled.cached.originalSchema } = tool := by
  unfold cacheTool at hcache
  simp only [bind_ok_iff] at hcache
  obtain ⟨_, -, hreturn⟩ := hcache
  obtain rfl := Except.ok.inj hreturn
  exact ⟨rfl, rfl, rfl⟩

variable {compiled : List CompiledTool}

theorem compilePage_ok {pending : PendingListing} {names : List String} {tools : List RmcpTool}
    (hpage : compilePage toValue pending names tools = .ok compiled) :
    compiled = tools.filterMap (validTool toValue) ∧ (compiled.map CompiledTool.name).Nodup ∧
      ∀ tool ∈ compiled, tool.name ∉ pending.tools ∧ tool.name ∉ names := by
  induction tools generalizing names compiled with
  | nil =>
    obtain rfl := Except.ok.inj hpage
    simp
  | cons tool tools ih =>
    rw [compilePage] at hpage
    cases hcompile : compileTool tool with
    | error error =>
      rw [hcompile] at hpage
      have hvalid : validTool toValue tool = none := by rw [validTool, hcompile]
      rw [List.filterMap_cons, hvalid]
      exact ih hpage
    | ok result =>
      obtain ⟨plan, schema⟩ := result
      rw [hcompile] at hpage
      simp only [ensure_bind_ok_iff] at hpage
      obtain ⟨⟨hfresh, hnew⟩, hpage⟩ := hpage
      rw [bind_ok_iff] at hpage
      obtain ⟨first, hfirst, hpage⟩ := hpage
      rw [bind_ok_iff] at hpage
      obtain ⟨rest, hrest, hreturn⟩ := hpage
      obtain rfl := Except.ok.inj hreturn
      obtain ⟨heq, hnodup, hapart⟩ := ih hrest
      have hname := (cacheTool_ok hfirst).1
      have hvalid : validTool toValue tool = some first := by
        rw [validTool, hcompile]
        simp only [hfirst, Except.toOption]
      refine ⟨by rw [List.filterMap_cons, hvalid, heq], ?_, ?_⟩
      · rw [List.map_cons, List.nodup_cons]
        refine ⟨fun hmem => ?_, hnodup⟩
        obtain ⟨other, hother, hsame⟩ := List.mem_map.mp hmem
        exact (hapart other hother).2 (by rw [hsame, hname]; exact List.mem_cons_self)
      · intro other hother
        rcases List.mem_cons.mp hother with rfl | hother
        · rw [hname]
          exact ⟨hfresh, hnew⟩
        · obtain ⟨hpending, hnames⟩ := hapart other hother
          exact ⟨hpending, fun hmem => hnames (List.mem_cons_of_mem _ hmem)⟩

/-! ### Maps of tools -/

theorem lookup_insertTools (tools : CachedTools)
    (hnodup : (compiled.map CompiledTool.name).Nodup) (name : String) :
    (insertTools tools compiled).lookup name =
      ((compiled.find? fun tool => tool.name = name).map CompiledTool.cached).or (tools.lookup name) := by
  induction compiled generalizing tools with
  | nil => rfl
  | cons tool compiled ih =>
    rw [List.map_cons, List.nodup_cons] at hnodup
    have hrest := ih (tools.insert tool.name tool.cached) hnodup.2
    have hfold : insertTools tools (tool :: compiled) =
        insertTools (tools.insert tool.name tool.cached) compiled := rfl
    rw [hfold, hrest]
    by_cases hname : tool.name = name
    · subst hname
      have hnone : compiled.find? (fun other => other.name = tool.name) = none := by
        rw [List.find?_eq_none]
        intro other hother heq
        exact hnodup.1 (List.mem_map.mpr ⟨other, hother, of_decide_eq_true heq⟩)
      rw [hnone, List.find?_cons_of_pos (by simp), AList.lookup_insert]
      rfl
    · rw [List.find?_cons_of_neg (by simpa using hname), AList.lookup_insert_ne (Ne.symm hname)]

theorem Holds.empty : Holds ∅ [] := ⟨List.nodup_nil, fun _ => rfl⟩

variable {tools : CachedTools}

theorem Holds.mem_iff (hholds : Holds tools compiled)
    (name : String) : name ∈ tools ↔ ∃ tool ∈ compiled, tool.name = name := by
  rw [← AList.lookup_isSome, hholds.2 name, Option.isSome_map, List.find?_isSome]
  simp

theorem Holds.insert {before compiled : List CompiledTool}
    (hholds : Holds tools before) (hnodup : (compiled.map CompiledTool.name).Nodup)
    (hapart : ∀ tool ∈ compiled, tool.name ∉ tools) :
    Holds (insertTools tools compiled) (before ++ compiled) := by
  refine ⟨?_, fun name => ?_⟩
  · rw [List.map_append, List.nodup_append]
    refine ⟨hholds.1, hnodup, ?_⟩
    intro name hbefore other hcompiled hsame
    obtain ⟨tool, htool, hname⟩ := List.mem_map.mp hbefore
    obtain ⟨added, hadded, rfl⟩ := List.mem_map.mp hcompiled
    exact hapart added hadded ((hholds.mem_iff _).mpr ⟨tool, htool, hname.trans hsame⟩)
  · rw [lookup_insertTools tools hnodup, hholds.2 name, List.find?_append]
    cases hfound : compiled.find? fun tool => tool.name = name with
    | none => simp
    | some tool =>
      have hnone : before.find? (fun tool => tool.name = name) = none := by
        rw [List.find?_eq_none]
        intro other hother heq
        have hname : tool.name = name := by simpa using List.find?_some hfound
        exact hapart tool (List.mem_of_find?_eq_some hfound)
          ((hholds.mem_iff _).mpr ⟨other, hother, by rw [hname]; simpa using heq⟩)
      rw [hnone]
      rfl

/-! ### What a listing has staged -/

structure Stages (toValue : RmcpTool → Except String Json) (staged : List ListToolsResult)
    (pending : PendingListing) : Prop where
  tools : Holds pending.tools (validTools toValue staged)
  terminal : pending.terminal = staged.getLast?.any fun page => page.nextCursor.isNone

theorem Stages.start (id generation : Nat) :
    Stages toValue [] { id, baseGeneration := generation } := ⟨Holds.empty, rfl⟩

theorem stagePage_cases (pending : PendingListing) (cursor : Option String) (result : ListToolsResult) :
    (∃ error, pending.stagePage toValue cursor result = (pending, result, .error error)) ∨
    ∃ next page terminal, pending.stagePage toValue cursor result = (next, page, .ok terminal) ∧
      next.id = pending.id ∧ next.baseGeneration = pending.baseGeneration ∧ pending.terminal = false ∧
      page.tools = (result.tools.filterMap (validTool toValue)).map CompiledTool.sanitized ∧
      ∀ staged, Stages toValue staged pending → Stages toValue (staged ++ [result]) next := by
  unfold PendingListing.stagePage
  split
  · exact .inl ⟨_, rfl⟩
  · rename_i hsequence
    rw [not_or] at hsequence
    cases hpage : compilePage toValue pending [] result.tools with
    | error error => exact .inl ⟨error, rfl⟩
    | ok compiled =>
      obtain ⟨heq, hnodup, hapart⟩ := compilePage_ok hpage
      refine .inr ⟨_, _, _, rfl, rfl, rfl, by simpa using hsequence.1,
        congrArg (List.map CompiledTool.sanitized) heq, fun staged hstages => ⟨?_, ?_⟩⟩
      · have hvalid : validTools toValue (staged ++ [result]) =
            validTools toValue staged ++ compiled := by
          rw [validTools, List.flatMap_append, List.flatMap_singleton, ← heq, validTools]
        rw [hvalid]
        exact hstages.tools.insert hnodup fun tool htool => (hapart tool htool).1
      · simp

theorem registry_stagePage_cases (state : RegistryState) (expected : Option Nat) (cursor : Option String)
    (result : ListToolsResult) :
    (∃ error, state.stagePage toValue expected cursor result = (state, result, .error error)) ∨
    ∃ pending next page terminal, state.pending = some pending ∧
      state.stagePage toValue expected cursor result =
        ({ state with pending := some next }, page, .ok terminal) ∧
      next.id = pending.id ∧ next.baseGeneration = pending.baseGeneration ∧ pending.terminal = false ∧
      page.tools = (result.tools.filterMap (validTool toValue)).map CompiledTool.sanitized ∧
      ∀ staged, Stages toValue staged pending → Stages toValue (staged ++ [result]) next := by
  cases hpending : state.pending with
  | none => exact .inl ⟨.noPendingListing, by simp only [RegistryState.stagePage, hpending]⟩
  | some pending =>
    have hself : { state with pending := some pending } = state := by rw [← hpending]
    simp only [RegistryState.stagePage, hpending]
    by_cases hother : expected.any (fun id => id ≠ pending.id) = true
    · exact .inl ⟨_, by rw [if_pos hother]⟩
    · rw [if_neg hother]
      rcases @stagePage_cases toValue pending cursor result with
        ⟨error, hfailed⟩ | ⟨next, page, terminal, hstaged, hnext⟩
      · exact .inl ⟨error, by rw [hfailed, hself]⟩
      · exact .inr ⟨pending, next, page, terminal, rfl, by rw [hstaged], hnext⟩

/-! ### Runs -/

theorem finish_ok {state : RegistryState} {id : Nat} {refresh : Bool} {result : RegistryState × Nat}
    (hfinish : state.finish id refresh = .ok result) :
    ∃ pending, state.pending = some pending ∧ pending.id = id ∧ result.1.active = pending.tools ∧
      result.1.pending = none ∧
      (refresh = true → ensureSameSemantics state.active pending.tools = .ok ()) := by
  unfold RegistryState.finish at hfinish
  rw [bind_ok_iff] at hfinish
  obtain ⟨pending, hmatching, hfinish⟩ := hfinish
  rw [RegistryState.matchingPending, require_ok_iff, Option.filter_eq_some_iff] at hmatching
  rw [ensure_bind_ok_iff] at hfinish
  obtain ⟨-, hfinish⟩ := hfinish
  cases refresh with
  | false =>
    obtain rfl := Except.ok.inj hfinish
    exact ⟨pending, hmatching.1, of_decide_eq_true hmatching.2, rfl, rfl, fun hrefresh => by cases hrefresh⟩
  | true =>
    simp only [if_true] at hfinish
    rw [bind_ok_iff] at hfinish
    obtain ⟨_, hsame, hfinish⟩ := hfinish
    obtain rfl := Except.ok.inj hfinish
    exact ⟨pending, hmatching.1, of_decide_eq_true hmatching.2, rfl, rfl, fun _ => hsame⟩

inductive Listings.Inv (toValue : RmcpTool → Except String Json) (listings : Listings) : Prop
  | idle (hheld : listings.held = []) (hpending : listings.registry.pending = none)
  | listing (listing : Listing) (pending : PendingListing) (hheld : listings.held = [listing])
      (hpending : listings.registry.pending = some pending) (hid : pending.id = listing.id)
      (hbase : pending.baseGeneration = listings.registry.generation)
      (hterminal : listing.validated = true → pending.terminal = true)
      (hstages : Stages toValue listings.staged pending)

namespace Listings

theorem Inv.start : Inv toValue {} := .idle rfl rfl

section

variable {listings : Listings} (hinv : Inv toValue listings)
include hinv

theorem Inv.abandon (id : Nat) : Inv toValue (listings.abandon id) := by
  cases hinv with
  | idle hheld hpending =>
    refine .idle ?_ ?_
    · rw [Listings.abandon, hheld]
      rfl
    · rw [Listings.abandon, RegistryState.dropListing, hpending]
      exact hpending
  | listing listing pending hheld hpending hid hbase hterminal hstages =>
    by_cases hsame : listing.id = id
    · refine .idle ?_ ?_
      · rw [Listings.abandon, hheld]
        simp [hsame]
      · rw [Listings.abandon, RegistryState.dropListing, hpending]
        simp [hid, hsame]
    · have hother : ¬ pending.id = id := hid ▸ hsame
      refine .listing listing pending ?_ ?_ hid ?_ hterminal hstages
      · rw [Listings.abandon, hheld]
        simp [hsame]
      · simp only [Listings.abandon, RegistryState.dropListing, hpending, if_neg hother]
      · simp only [Listings.abandon, RegistryState.dropListing, hpending, if_neg hother]
        exact hbase

theorem Inv.step (op : ListingOp) : Inv toValue (listings.step toValue op) := by
  cases op with
  | begin =>
    cases hinv with
    | idle hheld hpending =>
      simp only [Listings.step, RegistryState.beginListing, hpending]
      exact .listing { id := _, validated := false } _ (by rw [hheld]; rfl) rfl rfl rfl
        (fun hvalidated => absurd hvalidated Bool.false_ne_true) (Stages.start _ _)
    | listing listing pending hheld hpending hid hbase hterminal hstages =>
      simp only [Listings.step, RegistryState.beginListing, hpending]
      exact .listing listing pending hheld hpending hid hbase hterminal hstages
  | stage expected cursor result =>
    simp only [Listings.step]
    rcases @registry_stagePage_cases toValue listings.registry expected cursor result with
      ⟨error, hfailed⟩ |
      ⟨pending, next, page, terminal, hpending, hstaged, hnext, hsame, hopen, -, hstages'⟩
    · rw [hfailed]
      exact hinv
    · rw [hstaged]
      cases hinv with
      | idle hheld hnone =>
        rw [hnone] at hpending
        cases hpending
      | listing listing found hheld hfound hid hbase hterminal hstages =>
        obtain rfl := Option.some.inj (hfound.symm.trans hpending)
        refine .listing listing next hheld rfl (hnext.trans hid) (hsame.trans hbase)
          (fun hvalidated => ?_) (hstages' _ hstages)
        rw [hterminal hvalidated] at hopen
        cases hopen
  | restore => exact hinv
  | validate id =>
    simp only [Listings.step]
    split
    · rename_i hmem
      cases hvalidated : listings.registry.intoValidated id with
      | error error => exact hinv.abandon id
      | ok =>
        cases hinv with
        | idle hheld hpending =>
          rw [hheld] at hmem
          cases hmem
        | listing listing pending hheld hpending hid hbase hterminal hstages =>
          rw [hheld, List.mem_singleton] at hmem
          subst hmem
          rw [RegistryState.intoValidated, RegistryState.matchingPending, hpending,
            Option.filter_some_pos (by simpa using hid)] at hvalidated
          have hlast : pending.terminal = true := ensure_ok_iff.mp hvalidated
          refine .listing { id, validated := true } pending ?_ hpending hid hbase
            (fun _ => hlast) hstages
          rw [hheld]
          simp
    · exact hinv
  | commit id refresh =>
    simp only [Listings.step]
    split
    · rename_i hmem
      cases hfinished : listings.registry.finish id refresh with
      | error error => exact hinv.abandon id
      | ok result =>
        cases hinv with
        | idle hheld hpending =>
          rw [hheld] at hmem
          cases hmem
        | listing listing pending hheld hpending hid hbase hterminal hstages =>
          rw [hheld, List.mem_singleton] at hmem
          subst hmem
          obtain ⟨_, -, -, -, hnone, -⟩ := finish_ok hfinished
          exact .idle (by rw [hheld]; simp) hnone
    · exact hinv
  | drop id =>
    simp only [Listings.step]
    split
    · exact hinv.abandon id
    · exact hinv

end

theorem Inv.run (ops : List ListingOp) : Inv toValue (ops.foldl (Listings.step toValue) {}) := by
  have hrun : ∀ (ops : List ListingOp) {listings : Listings}, Inv toValue listings →
      Inv toValue (ops.foldl (Listings.step toValue) listings) := by
    intro ops
    induction ops with
    | nil => exact fun hinv => hinv
    | cons op ops ih => exact fun hinv => ih (hinv.step op)
  exact hrun ops Inv.start

end Listings

/-! ### Commits -/

end IronCrew.Mcp
