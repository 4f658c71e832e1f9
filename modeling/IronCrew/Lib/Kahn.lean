import Mathlib.Data.List.MinMax
import Mathlib.Data.Set.Finite.Basic
import IronCrew.Lib.Checked
import IronCrew.Lib.Totals

/-!
# Kahn's algorithm

Nodes with in-degrees: a node is released when its in-degree reaches zero. `drain` releases nodes one
by one through a queue, `layers` takes all the free nodes at once. A decrement below zero stops the
computation, so that a run that returns never made one.
-/

namespace Kahn

open Checked

variable {α : Type} {deps : α → List α}

/-! ### Orders of the nodes -/

abbrev DependsOn (deps : α → List α) (node dep : α) : Prop := dep ∈ deps node

def Acyclic (deps : α → List α) : Prop :=
  ∀ node, ¬ Relation.TransGen (DependsOn deps) node node

theorem acyclic_of_level (level : α → Nat)
    (hless : ∀ node dep, dep ∈ deps node → level dep < level node) : Acyclic deps := by
  have hreaches : ∀ node other, Relation.TransGen (DependsOn deps) node other →
      level other < level node := by
    intro node other hpath
    induction hpath with
    | single hdep => exact hless _ _ hdep
    | tail _ hdep ih => exact (hless _ _ hdep).trans ih
  intro node hcycle
  exact lt_irrefl _ (hreaches node node hcycle)

def Ordered (deps : α → List α) (order : List α) : Prop :=
  ∀ before node after, order = before ++ node :: after → ∀ dep ∈ deps node, dep ∈ before

variable {node : α} {order : List α}

theorem Ordered.snoc (hordered : Ordered deps order)
    (hnode : ∀ dep ∈ deps node, dep ∈ order) : Ordered deps (order ++ [node]) := by
  intro before other after hsplit
  -- the last element of the split is the new one, and `other` is that one or comes before it
  obtain rfl | ⟨rest, last, rfl⟩ := List.eq_nil_or_concat after
  · obtain ⟨horder, hlast⟩ := List.append_inj' hsplit rfl
    simp only [List.cons.injEq, and_true] at hlast
    rwa [← horder, ← hlast]
  · have hrest : order ++ [node] = (before ++ other :: rest) ++ [last] := by simpa using hsplit
    obtain ⟨horder, -⟩ := List.append_inj' hrest rfl
    exact hordered before other rest horder

theorem ordered_nil : Ordered deps [] := by
  intro before node after hsplit
  simp at hsplit

theorem Ordered.mem_left {order before after : List α} {node other : α}
    (hordered : Ordered deps order) (hsplit : order = before ++ node :: after)
    (hreaches : Relation.TransGen (DependsOn deps) node other) : other ∈ before := by
  induction hreaches generalizing before after with
  | single hdep => exact hordered _ _ _ hsplit _ hdep
  | tail _ hdep ih =>
    have hmid := ih hsplit
    obtain ⟨left, right, rfl⟩ := List.append_of_mem hmid
    have hleft := hordered left _ (right ++ node :: after) (by simpa using hsplit) _ hdep
    exact List.mem_append_left _ hleft

theorem Ordered.acyclic (hordered : Ordered deps order) (hnodup : order.Nodup)
    (hnode : node ∈ order) : ¬ Relation.TransGen (DependsOn deps) node node := by
  intro hcycle
  obtain ⟨before, after, rfl⟩ := List.append_of_mem hnode
  have hbefore := hordered.mem_left rfl hcycle
  exact (List.nodup_append.mp hnodup).2.2 node hbefore node (by simp) rfl

theorem exists_cycle {rest : List α} (hrest : rest ≠ [])
    (hstuck : ∀ node ∈ rest, ∃ dep ∈ deps node, dep ∈ rest) : ¬ Acyclic deps := by
  intro hacyclic
  let reaches : {node // node ∈ rest} → {node // node ∈ rest} → Prop :=
    fun first second => Relation.TransGen (DependsOn deps) second.1 first.1
  have hfinite : Finite {node // node ∈ rest} := rest.finite_toSet
  have hirrefl : Std.Irrefl reaches := ⟨fun node => hacyclic node.1⟩
  have hwf : WellFounded reaches := Finite.wellFounded_of_trans_of_irrefl reaches
  obtain ⟨start, hstart⟩ := List.exists_mem_of_ne_nil rest hrest
  obtain ⟨least, -, hleast⟩ := hwf.has_min Set.univ ⟨⟨start, hstart⟩, trivial⟩
  obtain ⟨dep, hdep, hmem⟩ := hstuck least.1 least.2
  exact hleast ⟨dep, hmem⟩ trivial (.single hdep)

/-! ### The algorithm -/

variable [DecidableEq α]

structure IterationOrder (α : Type) where
  arrange : List α → List α
  perm : ∀ keys, (arrange keys).Perm keys

abbrev Degrees (α : Type) := AList fun _ : α => Nat

namespace Degrees

def total (degrees : Degrees α) : Nat :=
  Totals.ofEntries degrees id

theorem total_insert {degrees : Degrees α} {old : Nat} (new : Nat)
    (hold : degrees.lookup node = some old) :
    total (degrees.insert node new) + old = degrees.total + new := by
  rw [total, total, Totals.ofEntries_insert, Totals.ofEntries_erase hold, id, id]
  omega

end Degrees

/-! ### One node at a time -/

def release (degrees : Degrees α) (queue : List α) : List α → Except Panic (Degrees α × List α)
  | [] => .ok (degrees, queue)
  | neighbour :: rest => do
    let degree ← expect "neighbour has no in-degree" (degrees.lookup neighbour)
    let degree ← subU64 degree 1
    release (degrees.insert neighbour degree)
      (if degree = 0 then queue ++ [neighbour] else queue) rest

variable {degrees degrees' : Degrees α}

theorem release_total {queue queue' neighbours : List α}
    (hrelease : release degrees queue neighbours = .ok (degrees', queue')) :
    degrees'.total + queue'.length ≤ degrees.total + queue.length := by
  induction neighbours generalizing degrees queue with
  | nil =>
    cases hrelease
    exact le_rfl
  | cons neighbour rest ih =>
    rw [release] at hrelease
    cases hlookup : degrees.lookup neighbour with
    | none =>
      rw [hlookup] at hrelease
      cases hrelease
    | some degree =>
      rw [hlookup] at hrelease
      by_cases hzero : degree = 0
      · rw [hzero] at hrelease
        cases hrelease
      · have hsub : subU64 degree 1 = .ok (degree - 1) := subU64_of_le (by omega)
        simp only [expect, hsub, bind, Except.bind] at hrelease
        have hrest := ih hrelease
        have hinsert := Degrees.total_insert (degree - 1) hlookup
        have hqueue : (if degree - 1 = 0 then queue ++ [neighbour] else queue).length ≤
            queue.length + 1 := by
          split <;> simp
        omega

def drain (adjacency : α → List α) (degrees : Degrees α) (visited : List α) :
    List α → Except Panic (Degrees α × List α)
  | [] => .ok (degrees, visited)
  | node :: queue =>
    match _hrelease : release degrees queue (adjacency node) with
    | .error panic => .error panic
    | .ok (degrees', queue') => drain adjacency degrees' (visited ++ [node]) queue'
termination_by queue => degrees.total + queue.length
decreasing_by
  have htotal := release_total _hrelease
  simp only [List.length_cons]
  omega

/-! ### All free nodes at a time -/

def relax (degrees : Degrees α) : List α → Except Panic (Degrees α)
  | [] => .ok degrees
  | neighbour :: rest =>
    match degrees.lookup neighbour with
    | none => relax degrees rest
    | some degree => do
      let degree ← subU64 degree 1
      relax (degrees.insert neighbour degree) rest

def retire (adjacency : α → List α) (degrees : Degrees α) : List α → Except Panic (Degrees α)
  | [] => .ok degrees
  | node :: rest => do
    let degrees ← relax degrees (adjacency node)
    retire adjacency (degrees.erase node) rest

namespace Degrees

def free (degrees : Degrees α) (order : IterationOrder α) : List α :=
  (order.arrange degrees.keys).filter fun node => degrees.lookup node = some 0

def size (degrees : Degrees α) : Nat :=
  degrees.keys.length

section

variable {degrees : Degrees α} {node : α}

theorem size_insert {degree : Nat} (hnode : node ∈ degrees) :
    size (degrees.insert node degree) = degrees.size := by
  have hlength := List.length_erase_of_mem (AList.mem_keys.mp hnode)
  have hpos := List.length_pos_of_mem (AList.mem_keys.mp hnode)
  rw [size, size, AList.keys_insert, List.length_cons, hlength]
  omega

theorem size_erase_le : size (degrees.erase node) ≤ degrees.size := by
  rw [size, size, AList.keys_erase]
  exact List.length_erase_le

theorem size_erase_lt (hnode : node ∈ degrees) : size (degrees.erase node) < degrees.size := by
  have hlength := List.length_erase_of_mem (AList.mem_keys.mp hnode)
  have hpos := List.length_pos_of_mem (AList.mem_keys.mp hnode)
  rw [size, size, AList.keys_erase, hlength]
  omega

end

end Degrees

variable {neighbours : List α}

theorem relax_keys (hrelax : relax degrees neighbours = .ok degrees') :
    degrees'.size = degrees.size ∧ ∀ node, node ∈ degrees' ↔ node ∈ degrees := by
  induction neighbours generalizing degrees with
  | nil =>
    cases hrelax
    exact ⟨rfl, fun _ => Iff.rfl⟩
  | cons neighbour rest ih =>
    rw [relax] at hrelax
    cases hlookup : degrees.lookup neighbour with
    | none =>
      rw [hlookup] at hrelax
      exact ih hrelax
    | some degree =>
      rw [hlookup] at hrelax
      have hmem : neighbour ∈ degrees :=
        AList.lookup_isSome.mp (Option.isSome_of_eq_some hlookup)
      cases hsub : subU64 degree 1 with
      | error panic =>
        simp only [hsub, bind, Except.bind] at hrelax
        cases hrelax
      | ok less =>
        simp only [hsub, bind, Except.bind] at hrelax
        obtain ⟨hsize, hkeys⟩ := ih hrelax
        refine ⟨hsize.trans (Degrees.size_insert hmem), ?_⟩
        intro node
        rw [hkeys, AList.mem_insert]
        constructor
        · rintro (rfl | hnode)
          · exact hmem
          · exact hnode
        · exact Or.inr

theorem retire_size {adjacency : α → List α} {ready : List α}
    (hretire : retire adjacency degrees ready = .ok degrees') :
    degrees'.size ≤ degrees.size ∧
      ∀ node rest, ready = node :: rest → node ∈ degrees → degrees'.size < degrees.size := by
  induction ready generalizing degrees with
  | nil =>
    cases hretire
    exact ⟨le_rfl, by simp⟩
  | cons node rest ih =>
    rw [retire] at hretire
    cases hrelax : relax degrees (adjacency node) with
    | error panic =>
      rw [hrelax] at hretire
      cases hretire
    | ok relaxed =>
      simp only [hrelax, bind, Except.bind] at hretire
      obtain ⟨hsize, hkeys⟩ := relax_keys hrelax
      have hrest := (ih hretire).1
      refine ⟨(hrest.trans Degrees.size_erase_le).trans hsize.le, ?_⟩
      rintro first others ⟨⟩ hfirst
      calc degrees'.size ≤ Degrees.size (relaxed.erase node) := hrest
        _ < relaxed.size := Degrees.size_erase_lt ((hkeys node).mpr hfirst)
        _ = degrees.size := hsize

def layers (adjacency : α → List α) (order : IterationOrder α) (degrees : Degrees α) :
    Except Panic (List (List α)) :=
  match _hfree : degrees.free order with
  | [] => .ok []
  | node :: rest =>
    match _hretire : retire adjacency degrees (node :: rest) with
    | .error panic => .error panic
    | .ok degrees' => do
      let later ← layers adjacency order degrees'
      return (node :: rest) :: later
termination_by degrees.size
decreasing_by
  have hnode : node ∈ degrees.free order := by
    rw [_hfree]
    exact List.mem_cons_self ..
  have hmem : node ∈ degrees :=
    AList.mem_keys.mpr ((order.perm _).mem_iff.mp (List.mem_filter.mp hnode).1)
  exact (retire_size _hretire).2 node rest rfl hmem

/-! ### What the passes do to the in-degrees -/

section Passes

theorem release_spec : ∀ {degrees : Degrees α} {queue : List α},
    (∀ node ∈ neighbours, ∃ degree, degrees.lookup node = some degree ∧
      neighbours.count node ≤ degree) →
    ∃ degrees' fresh, release degrees queue neighbours = .ok (degrees', queue ++ fresh) ∧
      (∀ node, degrees'.lookup node =
        (degrees.lookup node).map (· - neighbours.count node)) ∧
      fresh.Nodup ∧
      ∀ node, node ∈ fresh ↔
        node ∈ neighbours ∧ degrees.lookup node = some (neighbours.count node) := by
  induction neighbours with
  | nil =>
    intro degrees queue _
    refine ⟨degrees, [], by simp [release], ?_, List.nodup_nil, by simp⟩
    intro node
    simp
  | cons first rest ih =>
    intro degrees queue hcounts
    obtain ⟨degree, hlookup, hcount⟩ := hcounts first (List.mem_cons_self ..)
    rw [List.count_cons_self] at hcount
    have hsub : subU64 degree 1 = .ok (degree - 1) := subU64_of_le (by omega)
    have hrest : ∀ node ∈ rest, ∃ degree',
        (degrees.insert first (degree - 1)).lookup node = some degree' ∧
          rest.count node ≤ degree' := by
      intro node hnode
      by_cases heq : node = first
      · subst heq
        exact ⟨degree - 1, AList.lookup_insert degrees, by omega⟩
      · obtain ⟨other, hother, hle⟩ := hcounts node (List.mem_cons_of_mem _ hnode)
        rw [List.count_cons_of_ne (Ne.symm heq)] at hle
        exact ⟨other, by rwa [AList.lookup_insert_ne heq], hle⟩
    obtain ⟨degrees', fresh, hrelease, hdegrees, hnodup, hfresh⟩ :=
      @ih (degrees.insert first (degree - 1))
        (if degree - 1 = 0 then queue ++ [first] else queue) hrest
    refine ⟨degrees', (if degree - 1 = 0 then [first] else []) ++ fresh, ?_, ?_, ?_, ?_⟩
    · simp only [release, hlookup, expect, hsub, bind, Except.bind, hrelease]
      split <;> simp
    · intro node
      rw [hdegrees]
      by_cases heq : node = first
      · subst heq
        rw [AList.lookup_insert, hlookup, List.count_cons_self]
        simp only [Option.map_some, Option.some.injEq]
        omega
      · rw [AList.lookup_insert_ne heq, List.count_cons_of_ne (Ne.symm heq)]
    · split
      · rename_i hzero
        refine List.nodup_append.mpr ⟨List.nodup_singleton _, hnodup, ?_⟩
        intro node hnode other hother heq
        rw [List.mem_singleton] at hnode
        subst heq hnode
        have hmem := ((hfresh node).mp hother).1
        have hpos := List.count_pos_iff.mpr hmem
        omega
      · exact hnodup
    · intro node
      rw [List.mem_append, hfresh]
      by_cases heq : node = first
      · subst heq
        rw [AList.lookup_insert, hlookup, List.count_cons_self]
        simp only [Option.some.injEq, List.mem_cons, true_or, true_and]
        have hmem : node ∈ rest ↔ 0 < rest.count node := List.count_pos_iff.symm
        rw [hmem]
        split
        · simp only [List.mem_singleton, true_or, true_iff]
          omega
        · simp only [List.not_mem_nil, false_or]
          omega
      · rw [AList.lookup_insert_ne heq, List.count_cons_of_ne (Ne.symm heq)]
        have hfirst : node ∉ (if degree - 1 = 0 then [first] else []) := by
          split <;> simp [heq]
        simp [hfirst, heq]

theorem relax_spec : ∀ {degrees : Degrees α},
    (∀ node degree, degrees.lookup node = some degree → neighbours.count node ≤ degree) →
    ∃ degrees', relax degrees neighbours = .ok degrees' ∧
      ∀ node, degrees'.lookup node = (degrees.lookup node).map (· - neighbours.count node) := by
  induction neighbours with
  | nil =>
    intro degrees _
    exact ⟨degrees, rfl, by simp⟩
  | cons first rest ih =>
    intro degrees hcounts
    rw [relax]
    cases hlookup : degrees.lookup first with
    | none =>
      have hrest : ∀ node degree, degrees.lookup node = some degree →
          rest.count node ≤ degree := by
        intro node degree hdegree
        exact (List.count_le_count_cons ..).trans (hcounts node degree hdegree)
      obtain ⟨degrees', hrelax, hdegrees⟩ := ih hrest
      refine ⟨degrees', hrelax, ?_⟩
      intro node
      rw [hdegrees]
      by_cases heq : node = first
      · subst heq
        rw [hlookup]
        rfl
      · rw [List.count_cons_of_ne (Ne.symm heq)]
    | some degree =>
      have hcount := hcounts first degree hlookup
      rw [List.count_cons_self] at hcount
      have hsub : subU64 degree 1 = .ok (degree - 1) := subU64_of_le (by omega)
      have hrest : ∀ node degree', (degrees.insert first (degree - 1)).lookup node =
          some degree' → rest.count node ≤ degree' := by
        intro node degree' hdegree
        by_cases heq : node = first
        · subst heq
          rw [AList.lookup_insert, Option.some.injEq] at hdegree
          omega
        · rw [AList.lookup_insert_ne heq] at hdegree
          have hle := hcounts node degree' hdegree
          rwa [List.count_cons_of_ne (Ne.symm heq)] at hle
      obtain ⟨degrees', hrelax, hdegrees⟩ := ih hrest
      refine ⟨degrees', ?_, ?_⟩
      · simp only [hsub, bind, Except.bind, hrelax]
      · intro node
        rw [hdegrees]
        by_cases heq : node = first
        · subst heq
          rw [AList.lookup_insert, hlookup, List.count_cons_self]
          simp only [Option.map_some, Option.some.injEq]
          omega
        · rw [AList.lookup_insert_ne heq, List.count_cons_of_ne (Ne.symm heq)]

end Passes

/-! ### The graph behind the in-degrees -/

section Graph

variable {nodes : List α} {adjacency : α → List α}

def Represents (nodes : List α) (deps adjacency : α → List α) : Prop :=
  ∀ node dep, (adjacency dep).count node = if node ∈ nodes then (deps node).count dep else 0

def waiting (deps : α → List α) (done : List α) (node : α) : Nat :=
  (deps node).countP (· ∉ done)

theorem waiting_nil : waiting deps [] node = (deps node).length := by
  simp [waiting]

variable {done : List α}

theorem waiting_eq_zero_iff :
    waiting deps done node = 0 ↔ ∀ dep ∈ deps node, dep ∈ done := by
  simp [waiting, List.countP_eq_zero]

theorem waiting_snoc {finished node : α} (hfresh : finished ∉ done) :
    waiting deps done node = waiting deps (done ++ [finished]) node +
      (deps node).count finished := by
  unfold waiting
  induction deps node with
  | nil => rfl
  | cons dep rest ih =>
    rw [List.countP_cons, List.countP_cons, List.count_cons, ih]
    by_cases heq : dep = finished
    · subst heq
      simp only [hfresh, not_false_eq_true, decide_true, if_true, List.mem_append,
        List.mem_singleton, or_true, not_true_eq_false, decide_false, Bool.false_eq_true,
        if_false, beq_self_eq_true]
      omega
    · simp only [List.mem_append, List.mem_singleton, heq, or_false, beq_iff_eq, if_false]
      omega

/-! ### The queue -/

/-- The state of `drain`: the nodes that left the queue are in dependency order, and the queue holds
the other free nodes. -/
structure Draining (nodes : List α) (deps : α → List α) (degrees : Degrees α)
    (visited queue : List α) : Prop where
  nodup : (visited ++ queue).Nodup
  ready : ∀ node, node ∈ visited ++ queue ↔ node ∈ nodes ∧ waiting deps visited node = 0
  degree : ∀ node, degrees.lookup node =
    if node ∈ nodes then some (waiting deps visited node) else none
  ordered : Ordered deps visited

theorem Draining.next {degrees : Degrees α} {visited queue : List α} {first : α}
    (hrepresents : Represents nodes deps adjacency)
    (hstate : Draining nodes deps degrees visited (first :: queue)) :
    ∃ degrees' queue', release degrees queue (adjacency first) = .ok (degrees', queue') ∧
      Draining nodes deps degrees' (visited ++ [first]) queue' := by
  have hfirst : first ∉ visited := by
    intro hmem
    exact (List.nodup_append.mp hstate.nodup).2.2 first hmem first (by simp) rfl
  have hwaits : ∀ node, waiting deps visited node =
      waiting deps (visited ++ [first]) node + (deps node).count first :=
    fun node => waiting_snoc hfirst
  have hcounts : ∀ node ∈ adjacency first, ∃ degree, degrees.lookup node = some degree ∧
      (adjacency first).count node ≤ degree := by
    intro node hnode
    have hmem : node ∈ nodes := by
      by_contra hout
      have hcount := hrepresents node first
      rw [if_neg hout] at hcount
      exact (List.count_eq_zero.mp hcount) hnode
    refine ⟨waiting deps visited node, by rw [hstate.degree, if_pos hmem], ?_⟩
    rw [hrepresents, if_pos hmem, hwaits]
    omega
  obtain ⟨degrees', fresh, hrelease, hdegrees, hnodup, hfresh⟩ := @release_spec _ _ _ degrees queue hcounts
  have hnew : ∀ node, node ∈ fresh ↔ node ∈ nodes ∧ waiting deps visited node ≠ 0 ∧
      waiting deps (visited ++ [first]) node = 0 := by
    intro node
    rw [hfresh, hstate.degree, ← List.count_pos_iff, hrepresents, hwaits]
    by_cases hmem : node ∈ nodes
    · simp only [hmem, if_true, Option.some.injEq, true_and]
      omega
    · simp [hmem]
  refine ⟨degrees', queue ++ fresh, hrelease, ?_, ?_, ?_, ?_⟩
  · have hsplit : visited ++ [first] ++ (queue ++ fresh) = visited ++ first :: queue ++ fresh := by
      simp
    rw [hsplit]
    refine List.nodup_append.mpr ⟨hstate.nodup, hnodup, ?_⟩
    rintro node hold other hother rfl
    exact ((hnew node).mp hother).2.1 ((hstate.ready node).mp hold).2
  · intro node
    have hsplit : node ∈ visited ++ [first] ++ (queue ++ fresh) ↔
        node ∈ visited ++ first :: queue ∨ node ∈ fresh := by
      simp [or_assoc]
    rw [hsplit, hstate.ready, hnew]
    have hle := hwaits node
    constructor
    · rintro (⟨hmem, hzero⟩ | ⟨hmem, -, hzero⟩)
      · exact ⟨hmem, by omega⟩
      · exact ⟨hmem, hzero⟩
    · rintro ⟨hmem, hzero⟩
      by_cases hold : waiting deps visited node = 0
      · exact Or.inl ⟨hmem, hold⟩
      · exact Or.inr ⟨hmem, hold, hzero⟩
  · intro node
    rw [hdegrees, hstate.degree, hrepresents]
    by_cases hmem : node ∈ nodes
    · simp only [hmem, if_true, Option.map_some, Option.some.injEq, hwaits]
      omega
    · simp [hmem]
  · apply hstate.ordered.snoc
    exact waiting_eq_zero_iff.mp ((hstate.ready first).mp (by simp)).2

theorem Draining.drain (hrepresents : Represents nodes deps adjacency) {degrees : Degrees α}
    {visited queue : List α} (hstate : Draining nodes deps degrees visited queue) :
    ∃ degrees' order, drain adjacency degrees visited queue = .ok (degrees', order) ∧
      Draining nodes deps degrees' order [] := by
  fun_induction Kahn.drain adjacency degrees visited queue with
  | case1 degrees visited => exact ⟨degrees, visited, rfl, hstate⟩
  | case2 degrees visited node queue panic hrelease =>
    obtain ⟨degrees', queue', hok, -⟩ := hstate.next hrepresents
    rw [hrelease] at hok
    cases hok
  | case3 degrees visited node queue degrees' queue' hrelease ih =>
    obtain ⟨_, _, hok, hnext⟩ := hstate.next hrepresents
    rw [hrelease] at hok
    cases hok
    exact ih hnext

/-- What is left when the queue is empty: everything was released, or the rest contains a cycle. -/
theorem Draining.length_eq_iff {degrees : Degrees α}
    (hclosed : ∀ node ∈ nodes, ∀ dep ∈ deps node, dep ∈ nodes)
    (houter : ∀ node, node ∉ nodes → deps node = []) (hnodup : nodes.Nodup)
    (hstate : Draining nodes deps degrees order []) :
    order.length = nodes.length ↔ Acyclic deps := by
  have hready : ∀ node, node ∈ order ↔ node ∈ nodes ∧ waiting deps order node = 0 := by
    simpa using hstate.ready
  have horder : order.Nodup := by simpa using hstate.nodup
  have hsub : order ⊆ nodes := fun node hnode => ((hready node).mp hnode).1
  constructor
  · intro hlength node hcycle
    have hperm := (List.subperm_of_subset horder hsub).perm_of_length_le hlength.ge
    by_cases hnode : node ∈ nodes
    · exact hstate.ordered.acyclic horder (hperm.mem_iff.mpr hnode) hcycle
    · obtain ⟨next, hdep, -⟩ := Relation.TransGen.head'_iff.mp hcycle
      rw [DependsOn, houter node hnode] at hdep
      cases hdep
  · intro hacyclic
    have hall : ∀ node ∈ nodes, node ∈ order := by
      by_contra hmissing
      push Not at hmissing
      obtain ⟨start, hstart, hout⟩ := hmissing
      have hrest : nodes.filter (· ∉ order) ≠ [] :=
        List.ne_nil_of_mem (List.mem_filter.mpr ⟨hstart, by simpa using hout⟩)
      refine exists_cycle hrest ?_ hacyclic
      intro node hnode
      simp only [List.mem_filter, decide_eq_true_eq] at hnode
      have hwaiting : ¬ ∀ dep ∈ deps node, dep ∈ order := by
        intro hdone
        exact hnode.2 ((hready node).mpr ⟨hnode.1, waiting_eq_zero_iff.mpr hdone⟩)
      push Not at hwaiting
      obtain ⟨dep, hdep, hlate⟩ := hwaiting
      exact ⟨dep, hdep, by simpa using ⟨hclosed node hnode.1 dep hdep, hlate⟩⟩
    have hperm := (List.perm_ext_iff_of_nodup horder hnodup).mpr fun node =>
      ⟨fun h => hsub h, hall node⟩
    exact hperm.length_eq

/-! ### The layers -/

def Layering (nodes : List α) (deps : α → List α) (degrees : Degrees α) (done : List α) : Prop :=
  ∀ node, degrees.lookup node =
    if node ∈ nodes ∧ node ∉ done then some (waiting deps done node) else none

theorem Layering.retire (hrepresents : Represents nodes deps adjacency) {ready : List α} :
    ∀ {degrees : Degrees α} {done : List α}, (done ++ ready).Nodup →
      Layering nodes deps degrees done →
      ∃ degrees', retire adjacency degrees ready = .ok degrees' ∧
        Layering nodes deps degrees' (done ++ ready) := by
  induction ready with
  | nil =>
    intro degrees done _ hdegrees
    exact ⟨degrees, rfl, by rwa [List.append_nil]⟩
  | cons first rest ih =>
    intro degrees done hnodup hdegrees
    have hfirst : first ∉ done := by
      intro hmem
      exact (List.nodup_append.mp hnodup).2.2 first hmem first (by simp) rfl
    have hwaits : ∀ node, waiting deps done node =
        waiting deps (done ++ [first]) node + (deps node).count first :=
      fun node => waiting_snoc hfirst
    have hcounts : ∀ node degree, degrees.lookup node = some degree →
        (adjacency first).count node ≤ degree := by
      intro node degree hdegree
      rw [hdegrees] at hdegree
      split_ifs at hdegree with hmem
      rw [hrepresents, if_pos hmem.1]
      rw [Option.some.injEq, hwaits] at hdegree
      omega
    obtain ⟨relaxed, hrelax, hrelaxed⟩ := relax_spec hcounts
    have hnext : Layering nodes deps (relaxed.erase first) (done ++ [first]) := by
      intro node
      by_cases heq : node = first
      · subst heq
        rw [AList.lookup_erase, if_neg (by simp)]
      · rw [AList.lookup_erase_ne heq, hrelaxed, hdegrees, hrepresents]
        by_cases hmem : node ∈ nodes ∧ node ∉ done
        · have hlater : node ∈ nodes ∧ node ∉ done ++ [first] := by
            simpa [heq] using hmem
          simp only [if_pos hmem, if_pos hlater, if_pos hmem.1, Option.map_some,
            Option.some.injEq, hwaits]
          omega
        · have hlater : ¬ (node ∈ nodes ∧ node ∉ done ++ [first]) := by
            simpa [heq] using hmem
          rw [if_neg hmem, if_neg hlater]
          rfl
    obtain ⟨degrees', hretire, hfinal⟩ := ih (by simpa using hnodup) hnext
    refine ⟨degrees', ?_, by simpa using hfinal⟩
    rw [Kahn.retire, hrelax]
    exact hretire

/-- Each layer holds the nodes whose dependencies are all in earlier layers, and after the last layer
no node is free. -/
def Layered (nodes : List α) (deps : α → List α) : List α → List (List α) → Prop
  | done, [] => ∀ node ∈ nodes, node ∉ done → ∃ dep ∈ deps node, dep ∉ done
  | done, layer :: later => layer ≠ [] ∧ layer.Nodup ∧
      (∀ node, node ∈ layer ↔ node ∈ nodes ∧ node ∉ done ∧ ∀ dep ∈ deps node, dep ∈ done) ∧
      Layered nodes deps (done ++ layer) later

theorem Layering.free {degrees : Degrees α} {order : IterationOrder α}
    (hdegrees : Layering nodes deps degrees done) :
    (degrees.free order).Nodup ∧ ∀ node, node ∈ degrees.free order ↔
      node ∈ nodes ∧ node ∉ done ∧ ∀ dep ∈ deps node, dep ∈ done := by
  constructor
  · exact ((order.perm degrees.keys).nodup_iff.mpr degrees.keys_nodup).filter _
  · intro node
    rw [Degrees.free, List.mem_filter, (order.perm _).mem_iff, ← AList.mem_keys,
      ← AList.lookup_isSome, decide_eq_true_eq, hdegrees]
    by_cases hmem : node ∈ nodes ∧ node ∉ done
    · simp [hmem, waiting_eq_zero_iff]
    · rw [if_neg hmem]
      simp only [Option.isSome_none, Bool.false_eq_true, reduceCtorEq, and_self, false_iff]
      exact fun hnode => hmem ⟨hnode.1, hnode.2.1⟩

theorem Layering.nodup_free {degrees : Degrees α} {done ready : List α} {order : IterationOrder α}
    (hdegrees : Layering nodes deps degrees done) (hdone : done.Nodup)
    (hfree : degrees.free order = ready) : (done ++ ready).Nodup := by
  subst hfree
  obtain ⟨hnodup, hmem⟩ := @Layering.free _ _ _ _ _ _ order hdegrees
  refine List.nodup_append.mpr ⟨hdone, hnodup, ?_⟩
  rintro node hold other hother rfl
  exact ((hmem node).mp hother).2.1 hold

theorem Layering.layers (hrepresents : Represents nodes deps adjacency) (order : IterationOrder α)
    {degrees : Degrees α} (hdone : done.Nodup)
    (hdegrees : Layering nodes deps degrees done) :
    ∃ result, layers adjacency order degrees = .ok result ∧ Layered nodes deps done result := by
  fun_induction Kahn.layers adjacency order degrees generalizing done with
  | case1 degrees hfree =>
    refine ⟨[], rfl, ?_⟩
    intro node hnode hlate
    by_contra hready
    push Not at hready
    have hmem : node ∈ degrees.free order := (hdegrees.free.2 node).mpr ⟨hnode, hlate, hready⟩
    rw [hfree] at hmem
    cases hmem
  | case2 degrees first rest hfree panic hretire =>
    obtain ⟨degrees', hok, -⟩ := hdegrees.retire hrepresents (hdegrees.nodup_free hdone hfree)
    rw [hretire] at hok
    cases hok
  | case3 degrees first rest hfree degrees' hretire ih =>
    have hnodup := hdegrees.nodup_free hdone hfree
    obtain ⟨_, hok, hnext⟩ := hdegrees.retire hrepresents hnodup
    rw [hretire] at hok
    cases hok
    obtain ⟨later, hlayers, hlayered⟩ := ih hnodup hnext
    refine ⟨(first :: rest) :: later, by rw [hlayers]; rfl, by simp, ?_, ?_, hlayered⟩
    · exact (List.nodup_append.mp hnodup).2.1
    · intro node
      rw [← hfree]
      exact hdegrees.free.2 node

/-! ### Positions -/

variable {layers : List (List α)}

omit [DecidableEq α] in
theorem Layered.mem_iff (hlayered : Layered nodes deps done layers) {i : Nat} {layer : List α}
    (hlayer : layers[i]? = some layer) :
    layer.Nodup ∧ ∀ node, node ∈ layer ↔ node ∈ nodes ∧ node ∉ done ++ (layers.take i).flatten ∧
      ∀ dep ∈ deps node, dep ∈ done ++ (layers.take i).flatten := by
  induction layers generalizing done i with
  | nil => cases hlayer
  | cons first later ih =>
    obtain ⟨-, hnodup, hfirst, hlater⟩ := hlayered
    cases i with
    | zero =>
      cases hlayer
      simpa using ⟨hnodup, hfirst⟩
    | succ i =>
      have hrest := ih hlater hlayer
      simpa [List.append_assoc] using hrest

theorem Layered.covers
    (hclosed : ∀ node ∈ nodes, ∀ dep ∈ deps node, dep ∈ nodes) (hacyclic : Acyclic deps)
    (hlayered : Layered nodes deps done layers) :
    ∀ node ∈ nodes, node ∈ done ++ layers.flatten := by
  induction layers generalizing done with
  | nil =>
    by_contra hmissing
    push Not at hmissing
    obtain ⟨start, hstart, hout⟩ := hmissing
    have hrest : nodes.filter (· ∉ done) ≠ [] :=
      List.ne_nil_of_mem (List.mem_filter.mpr ⟨hstart, by simpa using hout⟩)
    refine exists_cycle hrest ?_ hacyclic
    intro node hnode
    simp only [List.mem_filter, decide_eq_true_eq] at hnode
    obtain ⟨dep, hdep, hlate⟩ := hlayered node hnode.1 hnode.2
    exact ⟨dep, hdep, by simpa using ⟨hclosed node hnode.1 dep hdep, hlate⟩⟩
  | cons first later ih =>
    intro node hnode
    simpa using ih hlayered.2.2.2 node hnode

omit [DecidableEq α] in
theorem Layered.nodup (hdone : done.Nodup)
    (hlayered : Layered nodes deps done layers) : (done ++ layers.flatten).Nodup := by
  induction layers generalizing done with
  | nil => simpa using hdone
  | cons first later ih =>
    obtain ⟨-, hnodup, hfirst, hlater⟩ := hlayered
    have hnext : (done ++ first).Nodup := by
      refine List.nodup_append.mpr ⟨hdone, hnodup, ?_⟩
      rintro node hold other hother rfl
      exact ((hfirst node).mp hother).2.1 hold
    simpa using ih hnext hlater

def levelOf (layers : List (List α)) (node : α) : Nat :=
  layers.findIdx (node ∈ ·)

theorem mem_iff_levelOf (hnodup : layers.flatten.Nodup) {i : Nat}
    {layer : List α} (hlayer : layers[i]? = some layer)
    (hnode : node ∈ layers.flatten) : node ∈ layer ↔ levelOf layers node = i := by
  induction layers generalizing i with
  | nil => cases hlayer
  | cons first later ih =>
    rw [List.flatten_cons, List.nodup_append] at hnodup
    rw [List.flatten_cons, List.mem_append] at hnode
    rw [levelOf, List.findIdx_cons]
    by_cases hfirst : node ∈ first
    · have hout : node ∉ later.flatten := fun hmem => hnodup.2.2 node hfirst node hmem rfl
      rw [decide_eq_true hfirst, cond_true]
      cases i with
      | zero =>
        cases hlayer
        simp [hfirst]
      | succ i =>
        have hmem : layer ∈ later := List.mem_of_getElem? hlayer
        constructor
        · intro hlate
          exact absurd (List.mem_flatten.mpr ⟨layer, hmem, hlate⟩) hout
        · intro heq
          cases heq
    · have hlater := hnode.resolve_left hfirst
      rw [decide_eq_false hfirst, cond_false]
      cases i with
      | zero =>
        cases hlayer
        simp [hfirst]
      | succ i =>
        have hrest := ih hnodup.2.1 hlayer hlater
        rw [hrest, levelOf]
        omega

theorem mem_take_iff {i : Nat} (hnode : node ∈ layers.flatten) :
    node ∈ (layers.take i).flatten ↔ levelOf layers node < i := by
  induction layers generalizing i with
  | nil => cases hnode
  | cons first later ih =>
    rw [List.flatten_cons, List.mem_append] at hnode
    rw [levelOf, List.findIdx_cons]
    cases i with
    | zero => simp
    | succ i =>
      rw [List.take_succ_cons, List.flatten_cons, List.mem_append]
      by_cases hfirst : node ∈ first
      · simp [hfirst]
      · have hrest := @ih i (hnode.resolve_left hfirst)
        rw [decide_eq_false hfirst, cond_false, hrest, levelOf]
        simp [hfirst]

theorem Layered.level_eq
    (hclosed : ∀ node ∈ nodes, ∀ dep ∈ deps node, dep ∈ nodes) (hacyclic : Acyclic deps)
    (hlayered : Layered nodes deps [] layers) (hnode : node ∈ nodes) :
    levelOf layers node = ((deps node).map fun dep => levelOf layers dep + 1).foldr max 0 := by
  have hcovers : ∀ other ∈ nodes, other ∈ layers.flatten := by
    simpa using hlayered.covers hclosed hacyclic
  obtain ⟨layer, hmem, hin⟩ := List.mem_flatten.mp (hcovers node hnode)
  obtain ⟨i, hlayer⟩ := List.mem_iff_getElem?.mp hmem
  have hnodup : layers.flatten.Nodup := by simpa using hlayered.nodup List.nodup_nil
  have hlevel : levelOf layers node = i :=
    (mem_iff_levelOf hnodup hlayer (hcovers node hnode)).mp hin
  obtain ⟨-, hearlier, hdeps⟩ := ((hlayered.mem_iff hlayer).2 node).mp hin
  rw [List.nil_append] at hearlier hdeps
  rw [hlevel]
  apply le_antisymm
  · cases i with
    | zero => exact Nat.zero_le _
    | succ k =>
      -- the node was not free one layer earlier: some dependency is in the layer just before
      obtain ⟨before, hbefore⟩ : ∃ before, layers[k]? = some before := by
        have hlength := (List.getElem?_eq_some_iff.mp hlayer).1
        exact ⟨layers[k], List.getElem?_eq_getElem (by omega)⟩
      have hlate : ¬ ∀ dep ∈ deps node, dep ∈ (layers.take k).flatten := by
        intro hready
        have hnot : node ∉ (layers.take k).flatten := by
          rw [mem_take_iff (hcovers node hnode), hlevel]
          omega
        have hfree := ((hlayered.mem_iff hbefore).2 node).mpr
          ⟨hnode, by simpa using hnot, by simpa using hready⟩
        have heq := (mem_iff_levelOf hnodup hbefore (hcovers node hnode)).mp hfree
        omega
      push Not at hlate
      obtain ⟨dep, hdep, hnot⟩ := hlate
      rw [mem_take_iff (hcovers dep (hclosed node hnode dep hdep))] at hnot
      have hstep : k + 1 ≤ levelOf layers dep + 1 := by omega
      have hlevels : levelOf layers dep + 1 ∈ (deps node).map fun dep => levelOf layers dep + 1 :=
        List.mem_map.mpr ⟨dep, hdep, rfl⟩
      exact List.le_max_of_le hlevels hstep
  · apply List.max_le_of_forall_le
    intro level hlevels
    obtain ⟨dep, hdep, rfl⟩ := List.mem_map.mp hlevels
    have hless := hdeps dep hdep
    rw [mem_take_iff (hcovers dep (hclosed node hnode dep hdep))] at hless
    exact hless

end Graph

end Kahn
