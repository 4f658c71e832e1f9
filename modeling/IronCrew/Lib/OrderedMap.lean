import Mathlib.Algebra.Order.Ring.Nat
import Mathlib.Data.List.Basic

/-!
# Maps in key order

A map whose entries are a list in increasing order of their keys, so that to go through the list is
to go through the map in key order.
-/

namespace OrderedMap

variable {α : Type}

/-- A new entry at its place, or in place of the entry of its key. -/
def insert (key : Nat) (value : α) : List (Nat × α) → List (Nat × α)
  | [] => [(key, value)]
  | (head, old) :: entries =>
    if key < head then (key, value) :: (head, old) :: entries
    else if key = head then (key, value) :: entries
    else (head, old) :: insert key value entries

def find? (key : Nat) (entries : List (Nat × α)) : Option α :=
  (entries.find? fun entry => entry.1 == key).map Prod.snd

def Ordered (entries : List (Nat × α)) : Prop :=
  (entries.map Prod.fst).Pairwise (· < ·)

variable {entries : List (Nat × α)} {key : Nat}

theorem insert_of_lt (value : α) (hlt : ∀ entry ∈ entries, entry.1 < key) :
    insert key value entries = entries ++ [(key, value)] := by
  induction entries with
  | nil => rfl
  | cons head entries ih =>
    obtain ⟨hhead, hrest⟩ := List.forall_mem_cons.mp hlt
    rw [insert, if_neg (Nat.lt_asymm hhead), if_neg (Nat.ne_of_gt hhead), ih hrest,
      List.cons_append]

theorem insert_concat (value old : α) (hlt : ∀ entry ∈ entries, entry.1 < key) :
    insert key value (entries ++ [(key, old)]) = entries ++ [(key, value)] := by
  induction entries with
  | nil => simp [insert]
  | cons head entries ih =>
    obtain ⟨hhead, hrest⟩ := List.forall_mem_cons.mp hlt
    rw [List.cons_append, insert, if_neg (Nat.lt_asymm hhead), if_neg (Nat.ne_of_gt hhead),
      ih hrest, List.cons_append]

theorem find?_concat (value : α) (hlt : ∀ entry ∈ entries, entry.1 < key) :
    find? key (entries ++ [(key, value)]) = some value := by
  have hnone : entries.find? (fun entry => entry.1 == key) = none := by
    rw [List.find?_eq_none]
    intro entry hentry
    simp [Nat.ne_of_lt (hlt entry hentry)]
  simp [find?, List.find?_append, hnone]

@[simp]
theorem find?_nil (key : Nat) : find? key ([] : List (Nat × α)) = none := rfl

theorem find?_cons (key head : Nat) (value : α) (entries : List (Nat × α)) :
    find? key ((head, value) :: entries) = if head = key then some value else find? key entries := by
  unfold find?
  rw [List.find?_cons]
  by_cases heq : head = key
  · simp [heq]
  · have hbeq : (head == key) = false := beq_false_of_ne heq
    simp [heq, hbeq]

theorem find?_insert (key : Nat) (value : α) (entries : List (Nat × α)) (other : Nat) :
    find? other (insert key value entries) = if key = other then some value else find? other entries := by
  induction entries with
  | nil => rw [insert, find?_cons]
  | cons head entries ih =>
    obtain ⟨head, old⟩ := head
    rw [insert]
    split
    · rw [find?_cons]
    · split
      · rename_i _ heq
        subst heq
        rw [find?_cons, find?_cons]
        split <;> rfl
      · rename_i _ hne
        rw [find?_cons, find?_cons, ih]
        by_cases hhead : head = other
        · subst hhead
          simp [hne]
        · simp [hhead]

theorem forall_mem_insert {value : α} {p : Nat → Prop}
    (hkey : p key) (hentries : ∀ entry ∈ entries, p entry.1) :
    ∀ entry ∈ insert key value entries, p entry.1 := by
  induction entries with
  | nil => simpa [insert] using hkey
  | cons head entries ih =>
    obtain ⟨hhead, hrest⟩ := List.forall_mem_cons.mp hentries
    rw [insert]
    split
    · exact List.forall_mem_cons.mpr ⟨hkey, hentries⟩
    · split
      · exact List.forall_mem_cons.mpr ⟨hkey, hrest⟩
      · exact List.forall_mem_cons.mpr ⟨hhead, ih hrest⟩

theorem ordered_cons_iff {head : Nat × α} :
    Ordered (head :: entries) ↔ (∀ entry ∈ entries, head.1 < entry.1) ∧ Ordered entries := by
  simp [Ordered]

theorem ordered_insert {value : α}
    (hordered : Ordered entries) : Ordered (insert key value entries) := by
  induction entries with
  | nil => simp [insert, Ordered]
  | cons head entries ih =>
    obtain ⟨hhead, hrest⟩ := ordered_cons_iff.mp hordered
    rw [insert]
    split
    · rename_i hlt
      refine ordered_cons_iff.mpr ⟨List.forall_mem_cons.mpr ⟨hlt, ?_⟩, hordered⟩
      exact fun entry hentry => Nat.lt_trans hlt (hhead entry hentry)
    · split
      · rename_i _ heq
        exact ordered_cons_iff.mpr ⟨fun entry hentry => heq ▸ hhead entry hentry, hrest⟩
      · rename_i hnlt hne
        refine ordered_cons_iff.mpr ⟨forall_mem_insert ?_ hhead, ih hrest⟩
        omega

theorem find?_eq_none_of_lt
    (hlt : ∀ entry ∈ entries, key < entry.1) : find? key entries = none := by
  induction entries with
  | nil => rfl
  | cons head entries ih =>
    obtain ⟨hhead, hrest⟩ := List.forall_mem_cons.mp hlt
    rw [find?_cons, if_neg (Nat.ne_of_gt hhead), ih hrest]

theorem find?_of_mem (hordered : Ordered entries) {entry : Nat × α}
    (hentry : entry ∈ entries) : find? entry.1 entries = some entry.2 := by
  induction entries with
  | nil => cases hentry
  | cons head entries ih =>
    obtain ⟨hfirst, hrest⟩ := ordered_cons_iff.mp hordered
    rw [find?_cons]
    rcases List.mem_cons.mp hentry with rfl | htail
    · rw [if_pos rfl]
    · rw [if_neg (Nat.ne_of_lt (hfirst entry htail)), ih hrest htail]

theorem ext {entries others : List (Nat × α)} (hentries : Ordered entries) (hothers : Ordered others)
    (hfind : ∀ key, find? key entries = find? key others) : entries = others := by
  induction entries generalizing others with
  | nil =>
    cases others with
    | nil => rfl
    | cons head others =>
      have hhead := hfind head.1
      rw [find?_cons, if_pos rfl] at hhead
      cases hhead
  | cons head entries ih =>
    obtain ⟨hfirst, hentries⟩ := ordered_cons_iff.mp hentries
    cases others with
    | nil =>
      have hhead := hfind head.1
      rw [find?_cons, if_pos rfl] at hhead
      cases hhead
    | cons other others =>
      obtain ⟨hsecond, hothers⟩ := ordered_cons_iff.mp hothers
      have hleft := hfind head.1
      have hright := hfind other.1
      rw [find?_cons, find?_cons, if_pos rfl] at hleft
      rw [find?_cons, find?_cons, if_pos rfl] at hright
      -- the smaller of the two first keys is found on one side only
      have hkey : head.1 = other.1 := by
        rcases Nat.lt_trichotomy head.1 other.1 with hlt | heq | hgt
        · have hnone : find? head.1 others = none :=
            find?_eq_none_of_lt fun entry hentry => Nat.lt_trans hlt (hsecond entry hentry)
          rw [if_neg (Nat.ne_of_gt hlt), hnone] at hleft
          cases hleft
        · exact heq
        · have hnone : find? other.1 entries = none :=
            find?_eq_none_of_lt fun entry hentry => Nat.lt_trans hgt (hfirst entry hentry)
          rw [if_neg (Nat.ne_of_gt hgt), hnone] at hright
          cases hright
      rw [if_pos hkey.symm, Option.some.injEq] at hleft
      have htail : entries = others := by
        refine ih hentries hothers fun key => ?_
        have hrest := hfind key
        rw [find?_cons, find?_cons, hkey] at hrest
        by_cases heq : other.1 = key
        · subst heq
          rw [find?_eq_none_of_lt hsecond, find?_eq_none_of_lt (hkey ▸ hfirst)]
        · simpa [heq] using hrest
      rw [htail, Prod.ext hkey hleft]

theorem ordered_filter (hordered : Ordered entries) (p : Nat × α → Bool) :
    Ordered (entries.filter p) :=
  List.Pairwise.sublist (List.filter_sublist.map Prod.fst) hordered

theorem find?_filter (hordered : Ordered entries) (p : Nat × α → Bool) (key : Nat) :
    find? key (entries.filter p) = (find? key entries).filter fun value => p (key, value) := by
  induction entries with
  | nil => rfl
  | cons head entries ih =>
    obtain ⟨hfirst, hrest⟩ := ordered_cons_iff.mp hordered
    obtain ⟨head, value⟩ := head
    rw [find?_cons]
    by_cases hkey : head = key
    · subst hkey
      rw [if_pos rfl]
      by_cases hkept : p (head, value) = true
      · rw [List.filter_cons_of_pos hkept, find?_cons, if_pos rfl]
        exact (if_pos hkept).symm
      · have hnone : find? head (entries.filter p) = none :=
          find?_eq_none_of_lt fun entry hentry => hfirst entry (List.mem_filter.mp hentry).1
        rw [List.filter_cons_of_neg hkept, hnone]
        exact (if_neg hkept).symm
    · rw [if_neg hkey, ← ih hrest]
      by_cases hkept : p (head, value) = true
      · rw [List.filter_cons_of_pos hkept, find?_cons, if_neg hkey]
      · rw [List.filter_cons_of_neg hkept]

theorem sum_insert (f : α → Nat) (key : Nat) (value : α) (hordered : Ordered entries) :
    ((insert key value entries).map fun entry => f entry.2).sum + ((find? key entries).map f).getD 0 =
      (entries.map fun entry => f entry.2).sum + f value := by
  induction entries with
  | nil => simp [insert]
  | cons head entries ih =>
    obtain ⟨hfirst, hrest⟩ := ordered_cons_iff.mp hordered
    rw [insert]
    split
    · rename_i hlt
      have hnone : find? key (head :: entries) = none :=
        find?_eq_none_of_lt (List.forall_mem_cons.mpr
          ⟨hlt, fun entry hentry => Nat.lt_trans hlt (hfirst entry hentry)⟩)
      rw [hnone]
      simp only [List.map_cons, List.sum_cons, Option.map_none, Option.getD_none]
      omega
    · split
      · rename_i _ heq
        rw [find?_cons, if_pos heq.symm]
        simp only [List.map_cons, List.sum_cons, Option.map_some, Option.getD_some]
        omega
      · rename_i _ hne
        have hsum := ih hrest
        rw [find?_cons, if_neg (Ne.symm hne)]
        simp only [List.map_cons, List.sum_cons]
        omega

@[ext]
structure Map (α : Type) where
  entries : List (Nat × α)
  ordered : Ordered entries

namespace Map

def empty : Map α := ⟨[], List.Pairwise.nil⟩

def find? (key : Nat) (map : Map α) : Option α :=
  OrderedMap.find? key map.entries

def insert (key : Nat) (value : α) (map : Map α) : Map α :=
  ⟨OrderedMap.insert key value map.entries, ordered_insert map.ordered⟩

def filter (p : Nat × α → Bool) (map : Map α) : Map α :=
  ⟨map.entries.filter p, ordered_filter map.ordered p⟩

def remove (key : Nat) (map : Map α) : Map α :=
  map.filter fun entry => entry.1 ≠ key

theorem ext_find? {map other : Map α} (hfind : ∀ key, map.find? key = other.find? key) : map = other :=
  Map.ext (OrderedMap.ext map.ordered other.ordered hfind)

theorem find?_of_mem {map : Map α} {entry : Nat × α} (hentry : entry ∈ map.entries) :
    map.find? entry.1 = some entry.2 :=
  OrderedMap.find?_of_mem map.ordered hentry

theorem find?_insert (key : Nat) (value : α) (map : Map α) (other : Nat) :
    (map.insert key value).find? other = if key = other then some value else map.find? other :=
  OrderedMap.find?_insert key value map.entries other

theorem find?_filter (p : Nat × α → Bool) (map : Map α) (key : Nat) :
    (map.filter p).find? key = (map.find? key).filter fun value => p (key, value) :=
  OrderedMap.find?_filter map.ordered p key

theorem find?_remove (key : Nat) (map : Map α) (other : Nat) :
    (map.remove key).find? other = if key = other then none else map.find? other := by
  rw [remove, find?_filter]
  by_cases hkey : key = other
  · subst hkey
    cases map.find? key <;> simp
  · have hne : ¬ other = key := fun heq => hkey heq.symm
    cases map.find? other <;> simp [hkey, hne]

theorem filter_filter (p q : Nat × α → Bool) (map : Map α) :
    (map.filter q).filter p = map.filter fun entry => p entry && q entry :=
  Map.ext (List.filter_filter)

theorem filter_insert {p : Nat × α → Bool} {value : α} (map : Map α)
    (hkept : p (key, value) = true) :
    (map.insert key value).filter p = (map.filter p).insert key value := by
  apply ext_find?
  intro other
  rw [find?_filter, find?_insert, find?_insert, find?_filter]
  by_cases hkey : key = other
  · subst hkey
    rw [if_pos rfl, if_pos rfl]
    exact if_pos hkept
  · rw [if_neg hkey, if_neg hkey]

end Map

end OrderedMap
