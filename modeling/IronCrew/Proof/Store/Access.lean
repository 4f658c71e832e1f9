import IronCrew.Store.Json.System

/-!
# What one access to the store does

A specification follows an operation from one disk to the next. Its budget says which faults may
still come: any at all, a single access that is lost, or none. An access that fails under the second
leaves the third, which is what a rollback needs.
-/

namespace IronCrew

open Fallible

def World.pending (world : World) : List Fault :=
  world.faults.reduceOption

inductive Budget where
  | any
  | single
  | calm
  deriving DecidableEq

namespace Budget

def Allows : Budget → World → Prop
  | .any, _ => True
  | .single, world => world.pending = [] ∨ world.pending = [.lost]
  | .calm, world => world.pending = []

def spent : Budget → Budget
  | .any => .any
  | .single => .calm
  | .calm => .calm

theorem Allows.of_spent {b : Budget} {world : World} (hallows : b.spent.Allows world) :
    b.Allows world := by
  cases b with
  | any => trivial
  | single => exact Or.inl hallows
  | calm => exact hallows

end Budget

structure At (b : Budget) (disk : Disk) (world : World) : Prop where
  disk_eq : world.disk = disk
  allows : b.Allows world

section Spec

variable {α β : Type}

/-- From this disk, whatever faults the budget lets come and in whatever order a directory is listed,
the operation returns in `post` or fails in `fail`. -/
def Spec (b : Budget) (disk : Disk) (m : StoreM α) (post : α → Disk → Prop)
    (fail : IronCrewError → Disk → Prop) : Prop :=
  ∀ world, At b disk world →
    Meets m world (fun value world => ∃ disk, At b disk world ∧ post value disk)
      (fun error world => ∃ disk, At b disk world ∧ fail error disk)

variable {b : Budget} {disk : Disk} {m : StoreM α} {f : α → StoreM β}
  {post post' : α → Disk → Prop} {fail fail' : IronCrewError → Disk → Prop}

theorem Spec.weaken (hm : Spec b disk m post fail)
    (hpost : ∀ value disk, post value disk → post' value disk)
    (hfail : ∀ error disk, fail error disk → fail' error disk) : Spec b disk m post' fail' := by
  intro world hat
  apply (hm world hat).weaken
  · rintro value after ⟨disk, hat, h⟩
    exact ⟨disk, hat, hpost value disk h⟩
  · rintro error after ⟨disk, hat, h⟩
    exact ⟨disk, hat, hfail error disk h⟩

theorem Spec.failing (hm : Spec b disk m post fail)
    (hfail : ∀ error disk, fail error disk → fail' error disk) : Spec b disk m post fail' :=
  hm.weaken (fun _ _ h => h) hfail

theorem Spec.total (hm : Spec b disk m post fun _ _ => False) : Spec b disk m post fail :=
  hm.failing fun _ _ h => h.elim

theorem spec_pure {value : α} (hpost : post value disk) :
    Spec b disk (pure value) post fail :=
  fun _ hat => meets_pure ⟨disk, hat, hpost⟩

theorem spec_throw {error : IronCrewError} (hfail : fail error disk) :
    Spec b disk (throw error) post fail :=
  fun _ hat => meets_throw ⟨disk, hat, hfail⟩

theorem Spec.bind {post : β → Disk → Prop} {mid : α → Disk → Prop}
    (hm : Spec b disk m mid fail)
    (hf : ∀ value disk, mid value disk → Spec b disk (f value) post fail) :
    Spec b disk (m >>= f) post fail := by
  intro world hat
  apply Meets.bind
  apply (hm world hat).weaken
  · rintro value after ⟨disk, hat, hmid⟩
    exact hf value disk hmid after hat
  · intro error after h
    exact h

variable {result : Except IronCrewError α}

theorem spec_lift (hok : ∀ value, result = .ok value → post value disk)
    (herror : ∀ error, result = .error error → fail error disk) :
    Spec b disk (liftM result) post fail :=
  fun _ hat => meets_lift (fun value h => ⟨disk, hat, hok value h⟩)
    (fun error h => ⟨disk, hat, herror error h⟩)

theorem spec_lift_bind {post : β → Disk → Prop}
    (hok : ∀ value, result = .ok value → Spec b disk (f value) post fail)
    (herror : ∀ error, result = .error error → fail error disk) :
    Spec b disk (liftM result >>= f) post fail := by
  have hlift : Spec b disk (liftM result) (fun value after => result = .ok value ∧ after = disk)
      fail := spec_lift (fun value h => ⟨h, rfl⟩) herror
  apply hlift.bind
  rintro value after ⟨hvalue, rfl⟩
  exact hok value hvalue

theorem Spec.attempt_bind {post : β → Disk → Prop} {k : Except IronCrewError α → StoreM β}
    {mid : α → Disk → Prop} {failed : IronCrewError → Disk → Prop}
    (hm : Spec b disk m mid failed)
    (hok : ∀ value disk, mid value disk → Spec b disk (k (.ok value)) post fail)
    (herror : ∀ error disk, failed error disk → Spec b disk (k (.error error)) post fail) :
    Spec b disk (attempt m >>= k) post fail := by
  intro world hat
  apply Meets.bind
  apply Meets.attempt
  apply (hm world hat).weaken
  · rintro value after ⟨disk, hat, hmid⟩
    exact hok value disk hmid after hat
  · rintro error after ⟨disk, hat, hfailed⟩
    exact herror error disk hfailed after hat

theorem Spec.of_spent (hm : ∀ world, At b.spent disk world →
      Meets m world (fun value world => ∃ disk, At b.spent disk world ∧ post value disk)
        (fun error world => ∃ disk, At b.spent disk world ∧ fail error disk))
    {world : World} (hat : At b.spent disk world) :
    Meets m world (fun value world => ∃ disk, At b disk world ∧ post value disk)
      (fun error world => ∃ disk, At b disk world ∧ fail error disk) := by
  apply (hm world hat).weaken
  · rintro value after ⟨disk, hat, h⟩
    exact ⟨disk, ⟨hat.disk_eq, hat.allows.of_spent⟩, h⟩
  · rintro error after ⟨disk, hat, h⟩
    exact ⟨disk, ⟨hat.disk_eq, hat.allows.of_spent⟩, h⟩

theorem Spec.map {g : α → β} (hm : Spec b disk m post fail) :
    Spec b disk (g <$> m) (fun value disk => ∃ a, g a = value ∧ post a disk) fail := by
  have hbind : (g <$> m) = m >>= fun a => pure (g a) := by
    rw [bind_pure_comp]
  rw [hbind]
  apply hm.bind
  intro a after hpost
  exact spec_pure ⟨a, rfl, hpost⟩

theorem Spec.and (hm : Spec b disk m post fail) (hm' : Spec b disk m post' fail') :
    Spec b disk m (fun value disk => post value disk ∧ post' value disk)
      (fun error disk => fail error disk ∧ fail' error disk) := by
  intro world hat
  have hfirst := hm world hat
  have hsecond := hm' world hat
  unfold Meets at hfirst hsecond ⊢
  cases hrun : m world with
  | ok value after =>
    rw [hrun] at hfirst hsecond
    obtain ⟨final, hfinal, hpost⟩ := hfirst
    obtain ⟨final', hfinal', hpost'⟩ := hsecond
    obtain rfl := hfinal.disk_eq.symm.trans hfinal'.disk_eq
    exact ⟨final, hfinal, hpost, hpost'⟩
  | error error after =>
    rw [hrun] at hfirst hsecond
    obtain ⟨final, hfinal, hfail⟩ := hfirst
    obtain ⟨final', hfinal', hfail'⟩ := hsecond
    obtain rfl := hfinal.disk_eq.symm.trans hfinal'.disk_eq
    exact ⟨final, hfinal, hfail, hfail'⟩

theorem spec_true : Spec .any disk m (fun _ _ => True) (fun _ _ => True) := by
  intro world _
  unfold Meets
  cases m world with
  | ok value after => exact ⟨after.disk, ⟨rfl, trivial⟩, trivial⟩
  | error error after => exact ⟨after.disk, ⟨rfl, trivial⟩, trivial⟩

end Spec

/-! ### Faults -/

def Budget.Next (b : Budget) (disk : Disk) (world : World) : Option Fault → Prop
  | none => At b disk world
  | some .lost => b ≠ .calm ∧ At b.spent disk world
  | some .unconfirmed => b = .any ∧ At b disk world

theorem nextFault_meets {b : Budget} {disk : Disk} {world : World} (hat : At b disk world) :
    Meets nextFault world (fun fault after => b.Next disk after fault) (fun _ _ => False) := by
  obtain ⟨hdisk, hallows⟩ := hat
  cases hfaults : world.faults with
  | nil =>
    simp only [Meets, nextFault, hfaults]
    exact ⟨hdisk, hallows⟩
  | cons fault faults =>
    simp only [Meets, nextFault, hfaults]
    have hpending : world.pending = fault.toList ++ faults.reduceOption := by
      rw [World.pending, hfaults]
      cases fault <;> rfl
    cases fault with
    | none =>
      refine ⟨hdisk, ?_⟩
      cases b with
      | any => trivial
      | single =>
        simp only [Budget.Allows, hpending, Option.toList_none, List.nil_append] at hallows
        exact hallows
      | calm =>
        simp only [Budget.Allows, hpending, Option.toList_none, List.nil_append] at hallows
        exact hallows
    | some fault =>
      cases b with
      | any => cases fault <;> exact ⟨by decide, hdisk, trivial⟩
      | single =>
        simp only [Budget.Allows, hpending, Option.toList_some] at hallows
        cases fault with
        | lost =>
          refine ⟨by decide, hdisk, ?_⟩
          simpa [Budget.spent, Budget.Allows, World.pending] using hallows
        | unconfirmed => simp at hallows
      | calm => simp [Budget.Allows, hpending] at hallows

/-! ### Accesses -/

section Access

variable {b : Budget} {disk : Disk} {path : StorePath}

section Bind

variable {α : Type} {world : World} {post : α → World → Prop} {fail : IronCrewError → World → Prop}

theorem nextFault_bind (hat : At b disk world) {rest : Option Fault → StoreM α}
    (hrest : ∀ fault after, b.Next disk after fault → Meets (rest fault) after post fail) :
    Meets (nextFault >>= rest) world post fail :=
  ((nextFault_meets hat).weaken hrest fun _ _ h => h.elim).bind

theorem get_bind {rest : World → StoreM α} (hrest : Meets (rest world) world post fail) :
    Meets (get >>= rest) world post fail :=
  Meets.bind hrest

end Bind

theorem pathExists_spec :
    Spec b disk (pathExists path)
      (fun found after => after = disk ∧ (found = true → (disk.lookup path).isSome) ∧
        (b = .calm → found = false → disk.lookup path = none))
      (fun _ _ => False) := by
  intro world hat
  apply nextFault_bind hat
  rintro fault after hfault
  have hafter : At b disk after ∧ (b = .calm → fault = none) := by
    match fault with
    | none => exact ⟨hfault, fun _ => rfl⟩
    | some .lost =>
      exact ⟨⟨hfault.2.disk_eq, hfault.2.allows.of_spent⟩, fun hcalm => absurd hcalm hfault.1⟩
    | some .unconfirmed => exact ⟨hfault.2, fun hcalm => by simp [hfault.1] at hcalm⟩
  apply get_bind
  rw [← hafter.1.disk_eq]
  refine meets_pure ⟨disk, hafter.1, hafter.1.disk_eq.symm, ?_, ?_⟩
  · intro hfound
    exact (Bool.and_eq_true_iff.mp hfound).2
  · intro hcalm hfound
    rw [hafter.2 hcalm] at hfound
    simpa using hfound

variable {fail : IronCrewError → Disk → Prop}

/-- The branch every operation takes on a record's file before it reads it. -/
theorem spec_ifExists {α : Type} {missing present : StoreM α} {post : α → Disk → Prop}
    (hmissing : (b = .calm → disk.lookup path = none) → Spec b disk missing post fail)
    (hpresent : (disk.lookup path).isSome → Spec b disk present post fail) :
    Spec b disk (pathExists path >>= fun found => if !found then missing else present) post fail := by
  apply pathExists_spec.total.bind
  rintro found after ⟨rfl, hsome, hnone⟩
  cases found with
  | false => exact hmissing fun hcalm => hnone hcalm rfl
  | true => exact hpresent (hsome rfl)

theorem readJsonRecord_spec :
    Spec b disk (readJsonRecord path)
      (fun record after => after = disk ∧
        disk.lookup path = some (record.elim .malformed .decoded))
      (fun _ after => after = disk) := by
  intro world hat
  apply nextFault_bind hat
  rintro fault after hfault
  match fault with
  | some .lost =>
    exact meets_throw ⟨disk, ⟨hfault.2.disk_eq, hfault.2.allows.of_spent⟩, rfl⟩
  | some .unconfirmed => exact meets_throw ⟨disk, hfault.2, rfl⟩
  | none =>
    apply get_bind
    rw [hfault.disk_eq]
    cases hlookup : disk.lookup path with
    | none => exact meets_throw ⟨disk, hfault, rfl⟩
    | some file =>
      cases file with
      | decoded record => exact meets_pure ⟨disk, hfault, rfl, rfl⟩
      | malformed => exact meets_pure ⟨disk, hfault, rfl, rfl⟩
      | unreadable => exact meets_throw ⟨disk, hfault, rfl⟩

variable {record : path.Record}

theorem readJsonRecord_calm (hfile : disk.lookup path = some (.decoded record)) :
    Spec .calm disk (readJsonRecord path) (fun found after => found = some record ∧ after = disk)
      (fun _ _ => False) := by
  intro world hat
  apply nextFault_bind hat
  rintro fault after hfault
  match fault with
  | some .lost => exact absurd rfl hfault.1
  | some .unconfirmed => cases hfault.1
  | none =>
    apply get_bind
    rw [hfault.disk_eq, hfile]
    exact meets_pure ⟨disk, hfault, rfl, rfl⟩

theorem At.insert {world : World} (hat : At b disk world) :
    At b (disk.insert path (.decoded record)) (world.insert path record) := by
  obtain ⟨rfl, hallows⟩ := hat
  refine ⟨rfl, ?_⟩
  cases b <;> exact hallows

theorem At.erase {world : World} (hat : At b disk world) :
    At b (disk.erase path) (world.erase path) := by
  obtain ⟨rfl, hallows⟩ := hat
  refine ⟨rfl, ?_⟩
  cases b <;> exact hallows

section Change

variable {refuse : Disk → Option IronCrewError} {change : World → World} {target : Disk}

section

variable {world : World} (hat : At b disk world)
  (hchange : ∀ {world}, At b disk world → At b target (change world))
include hat hchange

theorem applyChange_meets : Meets (applyChange refuse change) world
      (fun _ after => refuse disk = none ∧ At b target after)
      (fun _ after => (refuse disk).isSome ∧ At b disk after) := by
  apply get_bind
  rw [hat.disk_eq]
  cases hrefuse : refuse disk with
  | some error => exact meets_throw ⟨rfl, hat⟩
  | none => exact ⟨rfl, hchange hat⟩

theorem changeFiles_meets : Meets (changeFiles refuse change) world
      (fun _ after => refuse disk = none ∧ At b target after)
      (fun _ after => (b ≠ .calm ∧ At b.spent disk after) ∨
        ((refuse disk).isSome ∧ At b disk after) ∨
        (b = .any ∧ refuse disk = none ∧ At b target after)) := by
  apply nextFault_bind hat
  rintro fault after hfault
  match fault with
  | some .lost => exact meets_throw (Or.inl hfault)
  | none =>
    apply (applyChange_meets hfault hchange).weaken (fun _ _ h => h)
    intro error final h
    exact Or.inr (Or.inl h)
  | some .unconfirmed =>
    apply Meets.bind
    apply (applyChange_meets hfault.2 hchange).weaken
    · rintro _ final ⟨hrefuse, hfinal⟩
      exact meets_throw (Or.inr (Or.inr ⟨hfault.1, hrefuse, hfinal⟩))
    · intro error final h
      exact Or.inr (Or.inl h)

end

theorem changeFiles_spec (hchange : ∀ {world}, At b disk world → At b target (change world)) :
    Spec b disk (changeFiles refuse change)
      (fun _ after => refuse disk = none ∧ after = target)
      (fun _ after => (b ≠ .calm ∧ after = disk) ∨ ((refuse disk).isSome ∧ after = disk) ∨
        (b = .any ∧ refuse disk = none ∧ after = target)) := by
  intro world hat
  apply (changeFiles_meets hat hchange).weaken
  · rintro _ after ⟨hrefuse, hafter⟩
    exact ⟨target, hafter, hrefuse, rfl⟩
  · rintro _ after (⟨hcalm, hafter⟩ | ⟨hrefuse, hafter⟩ | ⟨hany, hrefuse, hafter⟩)
    · exact ⟨disk, ⟨hafter.disk_eq, hafter.allows.of_spent⟩, Or.inl ⟨hcalm, rfl⟩⟩
    · exact ⟨disk, hafter, Or.inr (Or.inl ⟨hrefuse, rfl⟩)⟩
    · exact ⟨target, hafter, Or.inr (Or.inr ⟨hany, hrefuse, rfl⟩)⟩

end Change

theorem writeRecordAtomic_spec :
    Spec b disk (writeRecordAtomic path record)
      (fun _ after => after = disk.insert path (.decoded record))
      (fun _ after => (b ≠ .calm ∧ after = disk) ∨
        (b = .any ∧ after = disk.insert path (.decoded record))) := by
  apply (changeFiles_spec At.insert).weaken
  · exact fun _ after h => h.2
  · rintro _ after (h | ⟨hrefuse, -⟩ | ⟨hany, -, hafter⟩)
    · exact Or.inl h
    · cases hrefuse
    · exact Or.inr ⟨hany, hafter⟩

theorem writeRecordAtomic_invariant {P : Disk → Prop} {path : StorePath} {record : path.Record}
    (hbefore : P disk) (hafter : P (disk.insert path (.decoded record))) :
    Spec b disk (writeRecordAtomic path record) (fun _ after => P after)
      (fun _ after => P after) := by
  apply writeRecordAtomic_spec.weaken
  · rintro _ after rfl
    exact hafter
  · rintro _ after (⟨-, rfl⟩ | ⟨-, rfl⟩)
    · exact hbefore
    · exact hafter

theorem attempt_write_spec {α : Type} {k : Except IronCrewError Unit → StoreM α}
    {post : α → Disk → Prop}
    (hok : Spec b (disk.insert path (.decoded record)) (k (.ok ())) post fail)
    (hlost : ∀ error, Spec b.spent disk (k (.error error)) post fail)
    (hunconfirmed : ∀ error, b = .any →
      Spec b (disk.insert path (.decoded record)) (k (.error error)) post fail) :
    Spec b disk (attempt (writeRecordAtomic path record) >>= k) post fail := by
  intro world hat
  apply Meets.bind
  apply Meets.attempt
  apply (changeFiles_meets hat At.insert).weaken
  · intro _ after hafter
    exact hok after hafter.2
  · rintro error after (⟨hcalm, hafter⟩ | ⟨hrefuse, -⟩ | ⟨hany, -, hafter⟩)
    · exact Spec.of_spent (hlost error) hafter
    · cases hrefuse
    · exact hunconfirmed error hany after hafter

theorem writeRecordCreateNew_spec :
    Spec b disk (writeRecordCreateNew path record)
      (fun _ after => disk.lookup path = none ∧ after = disk.insert path (.decoded record))
      (fun _ after => after = disk ∨
        (b = .any ∧ disk.lookup path = none ∧ after = disk.insert path (.decoded record))) := by
  apply (changeFiles_spec At.insert).weaken
  · rintro _ after ⟨hrefuse, hafter⟩
    exact ⟨by simpa using hrefuse, hafter⟩
  · rintro _ after (⟨-, hafter⟩ | ⟨-, hafter⟩ | ⟨hany, hrefuse, hafter⟩)
    · exact Or.inl hafter
    · exact Or.inl hafter
    · exact Or.inr ⟨hany, by simpa using hrefuse, hafter⟩

theorem removeFile_spec :
    Spec b disk (removeFile path)
      (fun _ after => (disk.lookup path).isSome ∧ after = disk.erase path)
      (fun _ after => (b ≠ .calm ∧ after = disk) ∨ (disk.lookup path = none ∧ after = disk) ∨
        (b = .any ∧ (disk.lookup path).isSome ∧ after = disk.erase path)) := by
  apply (changeFiles_spec At.erase).weaken
  · rintro _ after ⟨hrefuse, hafter⟩
    exact ⟨by simpa [Option.isSome_iff_ne_none] using hrefuse, hafter⟩
  · rintro _ after (h | ⟨hrefuse, hafter⟩ | ⟨hany, hrefuse, hafter⟩)
    · exact Or.inl h
    · exact Or.inr (Or.inl ⟨by simpa using hrefuse, hafter⟩)
    · exact Or.inr (Or.inr ⟨hany, by simpa [Option.isSome_iff_ne_none] using hrefuse, hafter⟩)

theorem spec_removeFile {post : Unit → Disk → Prop}
    (hgone : post () (disk.erase path)) (hkept : ∀ error, fail error disk)
    (hlost : ∀ error, fail error (disk.erase path)) : Spec b disk (removeFile path) post fail := by
  apply removeFile_spec.weaken
  · rintro _ after ⟨-, rfl⟩
    exact hgone
  · rintro error after (⟨-, rfl⟩ | ⟨-, rfl⟩ | ⟨-, -, rfl⟩)
    · exact hkept error
    · exact hkept error
    · exact hlost error

end Access

end IronCrew
