import Mathlib.Algebra.Order.Ring.Nat
import Mathlib.Data.List.Forall2

/-!
# JSON values

A parsed JSON value and the ways a program looks into it. Looking for a member that is not there
gives `null`, so a path through a value can be written without checks in between.
-/

inductive JsonNumber where
  | posInt (value : Nat)
  -- minus one more than the given number
  | negInt (value : Nat)
  -- the bits of a finite double
  | float (bits : UInt64)

inductive Json where
  | null
  | bool (value : Bool)
  | number (value : JsonNumber)
  | string (value : String)
  | array (items : List Json)
  | object (members : List (String × Json))

namespace Json

def get (key : String) : Json → Option Json
  | object members => (members.find? fun member => member.1 == key).map Prod.snd
  | _ => none

/-- `value[key]`. -/
def field (value : Json) (key : String) : Json :=
  (value.get key).getD null

def asStr : Json → Option String
  | string value => some value
  | _ => none

def asU64 : Json → Option Nat
  | number (.posInt value) => some value
  | _ => none

def asArray : Json → Option (List Json)
  | array items => some items
  | _ => none

def strAt (value : Json) (key default : String) : String :=
  ((value.field key).asStr).getD default

def ofRecord (names : List String) (values : List Json) : Json :=
  object (names.zip values)

def member (members : List (String × Json)) (name : String) : Except String Json :=
  match members.lookup name with
  | some value => .ok value
  | none => .error ("missing field `" ++ name ++ "`")

/-- The values of the fields of a record in the order of their names. Every field has to be there
once and there may be no other; an array holds the values in that order. -/
def record (names : List String) : Json → Except String (List Json)
  | object members =>
    match members.find? fun member => member.1 ∉ names with
    | some member => .error ("unknown field `" ++ member.1 ++ "`")
    | none =>
      if (members.map Prod.fst).Nodup then names.mapM (member members)
      else .error "duplicate field"
  | array items =>
    if items.length = names.length then .ok items else .error "invalid length"
  | _ => .error "invalid type"

theorem mapM_member {members : List (String × Json)} (names : List String) (values : List Json)
    (hlength : values.length = names.length)
    (hmembers : ∀ pair ∈ names.zip values, members.lookup pair.1 = some pair.2) :
    names.mapM (member members) = .ok values := by
  induction names generalizing values with
  | nil =>
    obtain rfl : values = [] := List.length_eq_zero_iff.mp hlength
    rfl
  | cons name names ih =>
    obtain ⟨value, values, rfl⟩ := List.exists_cons_of_length_eq_add_one hlength
    rw [List.zip_cons_cons, List.forall_mem_cons] at hmembers
    have hhead : member members name = .ok value := by simp [member, hmembers.1]
    have htail := ih values (by simpa using hlength) hmembers.2
    rw [List.mapM_cons, hhead, htail]
    rfl

theorem lookup_zip {names : List String} {values : List Json} (hnodup : names.Nodup) :
    ∀ pair ∈ names.zip values, (names.zip values).lookup pair.1 = some pair.2 := by
  induction names generalizing values with
  | nil => simp
  | cons name names ih =>
    cases values with
    | nil => simp
    | cons value values =>
      obtain ⟨hfresh, hnodup⟩ := List.nodup_cons.mp hnodup
      intro pair hpair
      obtain rfl | hpair := List.mem_cons.mp hpair
      · simp
      · have hne : (pair.1 == name) = false := by
          refine beq_false_of_ne fun heq => hfresh ?_
          exact heq ▸ (List.of_mem_zip hpair).1
        rw [List.zip_cons_cons, List.lookup_cons, hne]
        exact ih hnodup pair hpair

theorem record_ofRecord {names : List String} {values : List Json}
    (hlength : values.length = names.length) (hnodup : names.Nodup) :
    record names (ofRecord names values) = .ok values := by
  have hknown : (names.zip values).find? (fun member => member.1 ∉ names) = none := by
    rw [List.find?_eq_none]
    intro member hmember
    simpa using (List.of_mem_zip hmember).1
  have hnames : (names.zip values).map Prod.fst = names := List.map_fst_zip (Nat.le_of_eq hlength.symm)
  simp only [record, ofRecord, hknown, hnames, hnodup, if_true]
  exact mapM_member names values hlength (lookup_zip hnodup)

end Json

structure JsonTexts where
  toText : Json → String
  Represents : String → Json → Prop
  toText_represents : ∀ value, Represents (toText value) value
  not_represents_empty : ∀ value, ¬ Represents "" value

def JsonTexts.SameValue (texts : JsonTexts) (text other : String) : Prop :=
  ∃ value, texts.Represents text value ∧ texts.Represents other value

/-!
## Equality of JSON values

Two values are the same when they differ in the order of members only, at any depth. What makes two
numbers the same is a parameter: a number can be its digits, or the quantity they stand for.
-/

namespace JsonNumber

def isZero (bits : UInt64) : Prop := bits = 0 ∨ bits = 0x8000000000000000

def Equal : JsonNumber → JsonNumber → Prop
  | posInt a, posInt b => a = b
  | negInt a, negInt b => a = b
  | float a, float b => a = b ∨ (isZero a ∧ isZero b)
  | _, _ => False

def equal : JsonNumber → JsonNumber → Bool
  | posInt a, posInt b => a == b
  | negInt a, negInt b => a == b
  | float a, float b => a == b || (a <<< 1 == 0 && b <<< 1 == 0)
  | _, _ => false

/-- Not an infinity and not a NaN. -/
def IsFinite (bits : UInt64) : Prop := bits &&& 0x7FF0000000000000 ≠ 0x7FF0000000000000

def Representable : JsonNumber → Prop
  | posInt value => value < 2 ^ 64
  | negInt value => value < 2 ^ 63
  | float bits => IsFinite bits

end JsonNumber

namespace Json

theorem induction {P : Json → Prop} (null : P .null) (bool : ∀ value, P (.bool value))
    (number : ∀ value, P (.number value)) (string : ∀ value, P (.string value))
    (array : ∀ items, (∀ item ∈ items, P item) → P (.array items))
    (object : ∀ members, (∀ member ∈ members, P member.2) → P (.object members)) :
    ∀ value, P value := by
  refine fun value => @Json.rec P (fun items => ∀ item ∈ items, P item)
    (fun members => ∀ member ∈ members, P member.2) (fun member => P member.2) null bool number string
    array object ?_ ?_ ?_ ?_ ?_ value
  · exact fun item hitem => absurd hitem List.not_mem_nil
  · exact fun item items hitem hitems => List.forall_mem_cons.mpr ⟨hitem, hitems⟩
  · exact fun member hmember => absurd hmember List.not_mem_nil
  · exact fun member members hmember hmembers => List.forall_mem_cons.mpr ⟨hmember, hmembers⟩
  · exact fun key value hvalue => hvalue

mutual

/-- What a program can hold: lengths fit 64 bits, and no object has a name twice. -/
def Representable : Json → Prop
  | .null => True
  | .bool _ => True
  | .number value => value.Representable
  | .string value => value.utf8ByteSize < 2 ^ 64
  | .array items => items.length < 2 ^ 64 ∧ RepresentableItems items
  | .object members =>
    members.length < 2 ^ 64 ∧ (members.map Prod.fst).Nodup ∧ RepresentableMembers members

def RepresentableItems : List Json → Prop
  | [] => True
  | item :: items => Representable item ∧ RepresentableItems items

def RepresentableMembers : List (String × Json) → Prop
  | [] => True
  | (key, value) :: members =>
    key.utf8ByteSize < 2 ^ 64 ∧ Representable value ∧ RepresentableMembers members

end

section Same

variable (number : JsonNumber → JsonNumber → Prop)

mutual

/-- Equality of values up to the order of members, given the equality of numbers. -/
def Same : Json → Json → Prop
  | .null, .null => True
  | .bool a, .bool b => a = b
  | .number a, .number b => number a b
  | .string a, .string b => a = b
  | .array as, .array bs => SameItems as bs
  | .object as, .object bs => as.length = bs.length ∧ SameMembers as bs
  | _, _ => False

def SameItems : List Json → List Json → Prop
  | [], [] => True
  | a :: as, b :: bs => Same a b ∧ SameItems as bs
  | _, _ => False

def SameMembers : List (String × Json) → List (String × Json) → Prop
  | [], _ => True
  | (key, value) :: members, others =>
    (∃ other, (key, other) ∈ others ∧ Same value other) ∧ SameMembers members others

end

theorem sameItems_iff (as bs : List Json) :
    SameItems number as bs ↔ List.Forall₂ (Same number) as bs := by
  induction as generalizing bs with
  | nil => cases bs <;> simp [SameItems]
  | cons a as ih => cases bs <;> simp [SameItems, ih]

theorem sameMembers_iff (as bs : List (String × Json)) :
    SameMembers number as bs ↔
      ∀ member ∈ as, ∃ other, (member.1, other) ∈ bs ∧ Same number member.2 other := by
  induction as with
  | nil => simp [SameMembers]
  | cons member as ih => rw [SameMembers, ih, List.forall_mem_cons]

end Same

section Computed

mutual

/-- Equality as it is computed on values whose members are in the order of their names. -/
def equal (number : JsonNumber → JsonNumber → Bool) : Json → Json → Bool
  | .null, .null => true
  | .bool a, .bool b => a == b
  | .number a, .number b => number a b
  | .string a, .string b => a == b
  | .array as, .array bs => equalItems number as bs
  | .object as, .object bs => equalMembers number as bs
  | _, _ => false

def equalItems (number : JsonNumber → JsonNumber → Bool) : List Json → List Json → Bool
  | [], [] => true
  | a :: as, b :: bs => equal number a b && equalItems number as bs
  | _, _ => false

def equalMembers (number : JsonNumber → JsonNumber → Bool) :
    List (String × Json) → List (String × Json) → Bool
  | [], [] => true
  | (key, value) :: as, (other, otherValue) :: bs =>
    key == other && equal number value otherValue && equalMembers number as bs
  | _, _ => false

end

end Computed

theorem representableItems_iff (items : List Json) :
    RepresentableItems items ↔ ∀ item ∈ items, Representable item := by
  induction items with
  | nil => simp [RepresentableItems]
  | cons item items ih => rw [RepresentableItems, ih, List.forall_mem_cons]

theorem representableMembers_iff (members : List (String × Json)) :
    RepresentableMembers members ↔
      ∀ member ∈ members, member.1.utf8ByteSize < 2 ^ 64 ∧ Representable member.2 := by
  induction members with
  | nil => simp [RepresentableMembers]
  | cons member members ih => rw [RepresentableMembers, ih, List.forall_mem_cons, and_assoc]

end Json
