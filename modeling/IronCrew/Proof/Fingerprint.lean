import IronCrew.Api.Fingerprint
import IronCrew.Proof.UsageWire
import IronCrew.Store.Postgres.Idempotency

/-!
# Fingerprints tell requests apart

Every field is read back from the bytes that start with it, and a JSON value from its tag and its
parts, by induction over the value. So two requests feed the digest the same bytes only if they mean
the same, and with a digest that does not collide on them their fingerprints are equal only then.
-/

namespace IronCrew

open Decimal Checked Outcome Encoding

/-! ### Fields -/

section Fields

theorem fieldBytes_selfDelimiting :
    SelfDelimiting (fun value => value.length < 2 ^ 64) (· = ·) fieldBytes := by
  intro a b ha hb
  exact prefixed_selfDelimiting 8 a b (by simpa using ha) (by simpa using hb)

theorem tagBytes_selfDelimiting :
    SelfDelimiting (fun tag : String => tag.utf8ByteSize < 2 ^ 64) (· = ·) tagBytes := by
  intro a b ha hb x y heq
  obtain ⟨hbytes, hrest⟩ := fieldBytes_selfDelimiting (utf8 a) (utf8 b) ha hb x y heq
  exact ⟨utf8_injective hbytes, hrest⟩

theorem bigEndian_eight_inj {a b : Nat} (ha : a < 2 ^ 64) (hb : b < 2 ^ 64)
    (heq : bigEndian 8 a = bigEndian 8 b) : a = b := by
  refine bigEndian_injOn 8 ?_ ?_ heq
  · simpa using ha
  · simpa using hb

end Fields

/-! ### Numbers -/

/-- How a finite double is printed: with as many digits as tell it from every other double, and with a
point or an exponent, which an integer never has. -/
structure FloatText (floatText : UInt64 → String) : Prop where
  injective : ∀ a b, JsonNumber.IsFinite a → JsonNumber.IsFinite b → floatText a = floatText b → a = b
  marked : ∀ bits, JsonNumber.IsFinite bits → ∃ c ∈ (floatText bits).toList, c = '.' ∨ c = 'e'
  short : ∀ bits, JsonNumber.IsFinite bits → (floatText bits).utf8ByteSize ≤ 24

section Numbers

variable {floatText : UInt64 → String}

theorem toString_injOn {a b : Nat} (ha : a < 2 ^ 64) (hb : b < 2 ^ 64)
    (heq : toString a = toString b) : a = b := by
  have hparsed := Wire.parse_toString ha
  rw [heq, Wire.parse_toString hb] at hparsed
  exact (Except.ok.inj hparsed).symm

theorem toList_toString (value : Nat) : (toString value).toList = Nat.toDigits 10 value :=
  Nat.toList_repr

theorem isDigit_of_mem_toString {value : Nat} : ∀ c ∈ (toString value).toList, c.isDigit := by
  rw [toList_toString]
  exact isDigit_of_mem_digits

theorem toString_ne_minus (a b : Nat) : toString a ≠ "-" ++ toString b := by
  intro heq
  have hmem : '-' ∈ (toString a).toList := by
    rw [heq, String.toList_append]
    exact List.mem_append_left _ (by decide)
  exact absurd (isDigit_of_mem_toString _ hmem) (by decide)

theorem FloatText.ne_toString (hfloat : FloatText floatText) {bits : UInt64}
    (hfinite : JsonNumber.IsFinite bits) (sign : String) (hsign : ∀ c ∈ sign.toList, c = '-')
    (value : Nat) : floatText bits ≠ sign ++ toString value := by
  intro heq
  obtain ⟨c, hmem, hmark⟩ := hfloat.marked bits hfinite
  rw [heq, String.toList_append, List.mem_append] at hmem
  obtain hmem | hmem := hmem
  · rw [hsign c hmem] at hmark
    exact absurd hmark (by decide)
  · have hdigit := isDigit_of_mem_toString c hmem
    obtain rfl | rfl := hmark <;> exact absurd hdigit (by decide)

theorem numberText_injective (hfloat : FloatText floatText) {a b : JsonNumber}
    (ha : a.Representable) (hb : b.Representable)
    (heq : numberText floatText a = numberText floatText b) : a = b := by
  have hplain : ∀ c ∈ "".toList, c = '-' := by simp
  have hminus : ∀ c ∈ "-".toList, c = '-' := by simp
  cases a with
  | posInt a =>
    cases b with
    | posInt b => rw [toString_injOn ha hb heq]
    | negInt b => exact absurd heq (toString_ne_minus _ _)
    | float b => exact absurd heq.symm (by simpa [numberText] using hfloat.ne_toString hb "" hplain a)
  | negInt a =>
    cases b with
    | posInt b => exact absurd heq.symm (toString_ne_minus _ _)
    | negInt b =>
      have hsuffix : toString (a + 1) = toString (b + 1) := by
        simpa [numberText] using heq
      simp only [JsonNumber.Representable] at ha hb
      have hsucc := toString_injOn (by omega) (by omega) hsuffix
      rw [Nat.succ_injective hsucc]
    | float b => exact absurd heq.symm (hfloat.ne_toString hb "-" hminus _)
  | float a =>
    cases b with
    | posInt b => exact absurd heq (by simpa [numberText] using hfloat.ne_toString ha "" hplain b)
    | negInt b => exact absurd heq (hfloat.ne_toString ha "-" hminus _)
    | float b => rw [hfloat.injective a b ha hb heq]

theorem numberText_size (hfloat : FloatText floatText) {value : JsonNumber}
    (hvalue : value.Representable) : (numberText floatText value).utf8ByteSize < 2 ^ 64 := by
  cases value with
  | posInt value =>
    have hshort := length_toDigits_le hvalue
    rw [numberText, utf8ByteSize_toString]
    omega
  | negInt value =>
    simp only [JsonNumber.Representable] at hvalue
    have hfits : value + 1 < u64Bound := by
      unfold u64Bound
      omega
    have hshort := length_toDigits_le hfits
    have hsign : "-".utf8ByteSize = 1 := by decide
    rw [numberText, String.utf8ByteSize_append, utf8ByteSize_toString, hsign]
    omega
  | float bits =>
    have hshort := hfloat.short bits hvalue
    rw [numberText]
    omega

end Numbers

/-! ### JSON values -/

section Values

variable {floatText : UInt64 → String}

def jsonTag : Json → String
  | .null => "null"
  | .bool value => if value then "true" else "false"
  | .number _ => "number"
  | .string _ => "string"
  | .array _ => "array"
  | .object _ => "object"

theorem itemsBytes_eq (items : List Json) :
    itemsBytes floatText items = items.flatMap (jsonBytes floatText) := by
  induction items with
  | nil => rfl
  | cons item items ih => rw [itemsBytes, ih, List.flatMap_cons]

theorem memberBytes_eq (members : List (String × Json)) :
    memberBytes floatText members
      = members.map fun member => (member.1, jsonBytes floatText member.2) := by
  induction members with
  | nil => rfl
  | cons member members ih => rw [memberBytes, ih, List.map_cons]

theorem jsonBytes_tag (value : Json) :
    ∃ rest, jsonBytes floatText value = tagBytes (jsonTag value) ++ rest := by
  cases value <;> simp only [jsonBytes, jsonTag] <;>
    first | exact ⟨_, rfl⟩ | exact ⟨[], (List.append_nil _).symm⟩

theorem jsonTag_size (value : Json) : (jsonTag value).utf8ByteSize < 2 ^ 64 := by
  have hsizes : ∀ tag ∈ ["null", "true", "false", "number", "string", "array", "object"],
      tag.utf8ByteSize < 2 ^ 64 := by decide
  apply hsizes
  cases value with
  | bool value => cases value <;> simp [jsonTag]
  | _ => simp [jsonTag]

variable {x y : List UInt8}

theorem jsonTag_eq {a b : Json}
    (heq : jsonBytes floatText a ++ x = jsonBytes floatText b ++ y) : jsonTag a = jsonTag b := by
  obtain ⟨resta, hresta⟩ := @jsonBytes_tag floatText a
  obtain ⟨restb, hrestb⟩ := @jsonBytes_tag floatText b
  rw [hresta, hrestb, List.append_assoc, List.append_assoc] at heq
  exact (tagBytes_selfDelimiting _ _ (jsonTag_size a) (jsonTag_size b) _ _ heq).1

/-! #### Members in the order of their names -/

def sortMembers (members : List (String × List UInt8)) : List (String × List UInt8) :=
  members.insertionSort (·.1 ≤ ·.1)

theorem sortMembers_perm (members : List (String × List UInt8)) :
    (sortMembers members).Perm members :=
  List.perm_insertionSort _ _

theorem sortMembers_eq_of_perm {as bs : List (String × List UInt8)}
    (hnodup : (as.map Prod.fst).Nodup) (hperm : as.Perm bs) : sortMembers as = sortMembers bs := by
  have htotal : Std.Total fun a b : String × List UInt8 => a.1 ≤ b.1 :=
    ⟨fun a b => String.le_total a.1 b.1⟩
  have htrans : IsTrans (String × List UInt8) fun a b => a.1 ≤ b.1 :=
    ⟨fun _ _ _ hab hbc => String.le_trans hab hbc⟩
  have hsame : (sortMembers as).Perm (sortMembers bs) :=
    ((sortMembers_perm as).trans hperm).trans (sortMembers_perm bs).symm
  refine hsame.eq_of_pairwise (fun a b ha hb hab hba => ?_) (List.pairwise_insertionSort _ _)
    (List.pairwise_insertionSort _ _)
  have ha : a ∈ as := (sortMembers_perm as).mem_iff.mp ha
  have hb : b ∈ as := hperm.mem_iff.mpr ((sortMembers_perm bs).mem_iff.mp hb)
  exact List.inj_on_of_nodup_map hnodup ha hb (String.le_antisymm hab hba)

theorem jsonBytes_object (members : List (String × Json)) :
    jsonBytes floatText (.object members)
      = tagBytes "object" ++ (fieldBytes (bigEndian 8 members.length) ++
          (sortMembers (members.map fun member => (member.1, jsonBytes floatText member.2))).flatMap
            fun member => tagBytes member.1 ++ member.2) := by
  rw [jsonBytes, memberBytes_eq]
  rfl

theorem count_selfDelimiting {a b : Nat} (ha : a < 2 ^ 64) (hb : b < 2 ^ 64)
    (heq : fieldBytes (bigEndian 8 a) ++ x = fieldBytes (bigEndian 8 b) ++ y) : a = b ∧ x = y := by
  obtain ⟨hcount, hrest⟩ :=
    fieldBytes_selfDelimiting _ _ (by simp) (by simp) _ _ heq
  exact ⟨bigEndian_eight_inj ha hb hcount, hrest⟩

theorem members_same {as bs : List (String × Json)}
    (ih : ∀ member ∈ as, ∀ other : Json, other.Representable → ∀ x y : List UInt8,
      jsonBytes floatText member.2 ++ x = jsonBytes floatText other ++ y →
        Json.Same (· = ·) member.2 other ∧ x = y)
    (has : ∀ member ∈ as, member.1.utf8ByteSize < 2 ^ 64 ∧ member.2.Representable)
    (hbs : ∀ member ∈ bs, member.1.utf8ByteSize < 2 ^ 64 ∧ member.2.Representable)
    (hlength : as.length = bs.length)
    (heq : (sortMembers (as.map fun member => (member.1, jsonBytes floatText member.2))).flatMap
          (fun member => tagBytes member.1 ++ member.2) ++ x
        = (sortMembers (bs.map fun member => (member.1, jsonBytes floatText member.2))).flatMap
          (fun member => tagBytes member.1 ++ member.2) ++ y) :
    (∀ member ∈ as, ∃ other, (member.1, other) ∈ bs ∧ Json.Same (· = ·) member.2 other) ∧ x = y := by
  have hmem : ∀ (members : List (String × Json)) (pair : String × List UInt8),
      pair ∈ sortMembers (members.map fun member => (member.1, jsonBytes floatText member.2)) ↔
        ∃ member ∈ members, (member.1, jsonBytes floatText member.2) = pair := by
    intro members pair
    rw [(sortMembers_perm _).mem_iff, List.mem_map]
  have hlengths : (sortMembers (as.map fun member => (member.1, jsonBytes floatText member.2))).length
      = (sortMembers (bs.map fun member => (member.1, jsonBytes floatText member.2))).length := by
    rw [(sortMembers_perm _).length_eq, (sortMembers_perm _).length_eq, List.length_map,
      List.length_map, hlength]
  have hitem : ∀ a ∈ sortMembers (as.map fun member => (member.1, jsonBytes floatText member.2)),
      ∀ b ∈ sortMembers (bs.map fun member => (member.1, jsonBytes floatText member.2)),
      ∀ u v, (tagBytes a.1 ++ a.2) ++ u = (tagBytes b.1 ++ b.2) ++ v → a = b ∧ u = v := by
    intro a ha b hb u v huv
    obtain ⟨member, hmember, rfl⟩ := (hmem as a).mp ha
    obtain ⟨other, hother, rfl⟩ := (hmem bs b).mp hb
    rw [List.append_assoc, List.append_assoc] at huv
    obtain ⟨hname, hvalues⟩ := tagBytes_selfDelimiting _ _ (has member hmember).1
      (hbs other hother).1 _ _ huv
    obtain ⟨-, rfl⟩ := ih member hmember other.2 (hbs other hother).2 _ _ hvalues
    exact ⟨Prod.ext hname (List.append_cancel_right hvalues), rfl⟩
  obtain ⟨hpairs, hrest⟩ := forall₂_of_flatMap hlengths hitem heq
  rw [List.forall₂_eq_eq_eq] at hpairs
  refine ⟨fun member hmember => ?_, hrest⟩
  have hpair := (hmem as _).mpr ⟨member, hmember, rfl⟩
  rw [hpairs, hmem] at hpair
  obtain ⟨other, hother, hsame⟩ := hpair
  obtain ⟨hname, hbytes⟩ := Prod.mk.inj hsame
  obtain ⟨hvalue, -⟩ := ih member hmember other.2 (hbs other hother).2 [] [] (by rw [hbytes])
  exact ⟨other.2, by rw [← hname]; exact hother, hvalue⟩

theorem jsonBytes_selfDelimiting (hfloat : FloatText floatText) :
    SelfDelimiting Json.Representable (Json.Same (· = ·)) (jsonBytes floatText) := by
  intro a
  induction a using Json.induction with
  | null =>
    intro b _ _ x y heq
    have htag := jsonTag_eq heq
    cases b with
    | null => exact ⟨trivial, List.append_cancel_left heq⟩
    | bool value => cases value <;> exact absurd htag (by decide)
    | _ => exact absurd htag (by simp [jsonTag])
  | bool a =>
    intro b _ _ x y heq
    have htag := jsonTag_eq heq
    cases b with
    | bool b =>
      have hsame : a = b := by
        revert htag
        cases a <;> cases b <;> decide
      subst hsame
      exact ⟨rfl, List.append_cancel_left heq⟩
    | _ => cases a <;> exact absurd htag (by simp [jsonTag])
  | number a =>
    intro b ha hb x y heq
    have htag := jsonTag_eq heq
    cases b with
    | number b =>
      simp only [jsonBytes, List.append_assoc] at heq
      obtain ⟨htext, hrest⟩ := tagBytes_selfDelimiting _ _ (numberText_size hfloat ha)
        (numberText_size hfloat hb) _ _ (List.append_cancel_left heq)
      exact ⟨numberText_injective hfloat ha hb htext, hrest⟩
    | bool value => cases value <;> exact absurd htag (by simp [jsonTag])
    | _ => exact absurd htag (by simp [jsonTag])
  | string a =>
    intro b ha hb x y heq
    have htag := jsonTag_eq heq
    cases b with
    | string b =>
      simp only [jsonBytes, List.append_assoc] at heq
      exact tagBytes_selfDelimiting _ _ ha hb _ _ (List.append_cancel_left heq)
    | bool value => cases value <;> exact absurd htag (by simp [jsonTag])
    | _ => exact absurd htag (by simp [jsonTag])
  | array as ih =>
    intro b ha hb x y heq
    have htag := jsonTag_eq heq
    cases b with
    | array bs =>
      simp only [Json.Representable, Json.representableItems_iff] at ha hb
      simp only [jsonBytes, itemsBytes_eq, List.append_assoc] at heq
      obtain ⟨hlength, hitems⟩ :=
        count_selfDelimiting ha.1 hb.1 (List.append_cancel_left heq)
      obtain ⟨hsame, hrest⟩ := forall₂_of_flatMap hlength
        (fun a hamem b hbmem => ih a hamem b (ha.2 a hamem) (hb.2 b hbmem)) hitems
      exact ⟨(Json.sameItems_iff _ _ _).mpr hsame, hrest⟩
    | bool value => cases value <;> exact absurd htag (by simp [jsonTag])
    | _ => exact absurd htag (by simp [jsonTag])
  | object as ih =>
    intro b ha hb x y heq
    have htag := jsonTag_eq heq
    cases b with
    | object bs =>
      simp only [Json.Representable, Json.representableMembers_iff] at ha hb
      rw [jsonBytes_object, jsonBytes_object, List.append_assoc, List.append_assoc,
        List.append_assoc, List.append_assoc] at heq
      obtain ⟨hlength, hmembers⟩ :=
        count_selfDelimiting ha.1 hb.1 (List.append_cancel_left heq)
      obtain ⟨hsame, hrest⟩ := members_same
        (fun member hmember other hother =>
          ih member hmember other (ha.2.2 member hmember).2 hother) ha.2.2 hb.2.2 hlength hmembers
      exact ⟨⟨hlength, (Json.sameMembers_iff _ _ _).mpr hsame⟩, hrest⟩
    | bool value => cases value <;> exact absurd htag (by simp [jsonTag])
    | _ => exact absurd htag (by simp [jsonTag])

theorem jsonBytes_eq_of_same {a b : Json} (ha : a.Representable) (hb : b.Representable)
    (hsame : Json.Same (· = ·) a b) : jsonBytes floatText a = jsonBytes floatText b := by
  induction a using Json.induction generalizing b with
  | null => cases b <;> first | rfl | exact hsame.elim
  | bool a =>
    cases b with
    | bool b => rw [show a = b from hsame]
    | _ => exact hsame.elim
  | number a =>
    cases b with
    | number b => rw [show a = b from hsame]
    | _ => exact hsame.elim
  | string a =>
    cases b with
    | string b => rw [show a = b from hsame]
    | _ => exact hsame.elim
  | array as ih =>
    cases b with
    | array bs =>
      simp only [Json.Representable, Json.representableItems_iff] at ha hb
      have hitems := (Json.sameItems_iff _ _ _).mp hsame
      have hbytes := flatMap_eq_of_forall₂ hitems fun a hamem b hbmem =>
        ih a hamem (ha.2 a hamem) (hb.2 b hbmem)
      rw [jsonBytes, jsonBytes, itemsBytes_eq, itemsBytes_eq, hbytes, hitems.length_eq]
    | _ => exact hsame.elim
  | object as ih =>
    cases b with
    | object bs =>
      simp only [Json.Representable, Json.representableMembers_iff] at ha hb
      obtain ⟨hlength, hmembers⟩ := hsame
      rw [Json.sameMembers_iff] at hmembers
      have hnames : (as.map fun member => (member.1, jsonBytes floatText member.2)).map Prod.fst
          = as.map Prod.fst := by simp [Function.comp_def]
      have hnodup := hnames ▸ ha.2.1
      have hsubset : as.map (fun member => (member.1, jsonBytes floatText member.2))
          ⊆ bs.map fun member => (member.1, jsonBytes floatText member.2) := by
        intro pair hpair
        obtain ⟨member, hmember, rfl⟩ := List.mem_map.mp hpair
        obtain ⟨other, hother, hvalue⟩ := hmembers member hmember
        have hbytes := ih member hmember (ha.2.2 member hmember).2 (hb.2.2 _ hother).2 hvalue
        exact List.mem_map.mpr ⟨_, hother, by rw [hbytes]⟩
      have hperm := (List.subperm_of_subset (hnodup.of_map _) hsubset).perm_of_length_le
        (by rw [List.length_map, List.length_map, hlength])
      rw [jsonBytes_object, jsonBytes_object, sortMembers_eq_of_perm hnodup hperm, hlength]
    | _ => exact hsame.elim

end Values

/-! ### Requests -/

section Requests

variable {sha256 : List UInt8 → List UInt8} {floatText : UInt64 → String}

def RunRequest (flow : String) (body : Option Json) : Prop :=
  flow.utf8ByteSize < 2 ^ 64 ∧ ∀ value ∈ body, value.Representable

structure MessageRequest (flow conversationId incarnationId content : String)
    (images : Option (List String)) : Prop where
  flow_lt : flow.utf8ByteSize < 2 ^ 64
  conversationId_lt : conversationId.utf8ByteSize < 2 ^ 64
  incarnationId_lt : incarnationId.utf8ByteSize < 2 ^ 64
  content_lt : content.utf8ByteSize < 2 ^ 64
  count_lt : (images.getD []).length < 2 ^ 64
  image_lt : ∀ image ∈ images.getD [], image.utf8ByteSize < 2 ^ 64

theorem finish_eq_iff {queried : Set (List UInt8)} (hsha : Set.InjOn sha256 queried)
    {a b : FingerprintEncoder} (ha : a.fed ∈ queried) (hb : b.fed ∈ queried) :
    a.finish sha256 = b.finish sha256 ↔ a.fed = b.fed := by
  refine ⟨fun heq => hsha ha hb (encodeHex_injective heq), fun heq => ?_⟩
  rw [FingerprintEncoder.finish, FingerprintEncoder.finish, heq]

/-- The rest of what a run request feeds, after its flow. -/
def bodyBytes (floatText : UInt64 → String) : Option Json → List UInt8
  | some value => tagBytes "body:present" ++ jsonBytes floatText value
  | none => tagBytes "body:missing"

theorem runEncoder_fed (flow : String) (body : Option Json) :
    (runEncoder floatText flow body).fed
      = tagBytes "ironcrew:flow.run:v1" ++ (tagBytes flow ++ bodyBytes floatText body) := by
  cases body <;>
    simp [runEncoder, bodyBytes, FingerprintEncoder.new, FingerprintEncoder.field,
      FingerprintEncoder.json, tagBytes]

theorem bodyBytes_eq_iff (hfloat : FloatText floatText) {a b : Option Json}
    (ha : ∀ value ∈ a, value.Representable) (hb : ∀ value ∈ b, value.Representable) :
    bodyBytes floatText a = bodyBytes floatText b ↔ Option.Rel (Json.Same (· = ·)) a b := by
  have htag : ∀ value : Json, tagBytes "body:present" ++ jsonBytes floatText value
      ≠ tagBytes "body:missing" := by
    intro value heq
    have htags := tagBytes_selfDelimiting "body:present" "body:missing" (by decide) (by decide)
      (jsonBytes floatText value) [] (by rw [heq, List.append_nil])
    exact absurd htags.1 (by decide)
  cases a with
  | none =>
    cases b with
    | none => exact ⟨fun _ => .none, fun _ => rfl⟩
    | some b => exact ⟨fun heq => absurd heq.symm (htag b), fun hrel => by cases hrel⟩
  | some a =>
    cases b with
    | none => exact ⟨fun heq => absurd heq (htag a), fun hrel => by cases hrel⟩
    | some b =>
      have ha := ha a rfl
      have hb := hb b rfl
      constructor
      · intro heq
        exact .some ((jsonBytes_selfDelimiting hfloat).same_of_eq ha hb
          (List.append_cancel_left heq))
      · rintro (hsame | _)
        rw [bodyBytes, bodyBytes, jsonBytes_eq_of_same ha hb hsame]

theorem runEncoder_fed_eq_iff (hfloat : FloatText floatText) {flow flow' : String}
    {body body' : Option Json} (hrun : RunRequest flow body) (hrun' : RunRequest flow' body') :
    (runEncoder floatText flow body).fed = (runEncoder floatText flow' body').fed ↔
      flow = flow' ∧ Option.Rel (Json.Same (· = ·)) body body' := by
  rw [runEncoder_fed, runEncoder_fed, List.append_cancel_left_eq, ← bodyBytes_eq_iff hfloat hrun.2
    hrun'.2]
  refine ⟨fun heq => tagBytes_selfDelimiting _ _ hrun.1 hrun'.1 _ _ heq, ?_⟩
  rintro ⟨rfl, hbody⟩
  rw [hbody]

theorem foldl_field (images : List String) (encoder : FingerprintEncoder) :
    (images.foldl (fun encoder image => encoder.field (utf8 image)) encoder).fed
      = encoder.fed ++ images.flatMap tagBytes := by
  induction images generalizing encoder with
  | nil => simp
  | cons image images ih =>
    rw [List.foldl_cons, ih, List.flatMap_cons, ← List.append_assoc]
    rfl

theorem conversationMessageEncoder_fed (flow conversationId incarnationId content : String)
    (images : Option (List String)) :
    (conversationMessageEncoder flow conversationId incarnationId content images).fed
      = tagBytes "ironcrew:conversation.message:v2" ++ (tagBytes flow ++ (tagBytes conversationId ++
          (tagBytes incarnationId ++ (tagBytes content ++
            (fieldBytes (bigEndian 8 (images.getD []).length) ++
              (images.getD []).flatMap tagBytes))))) := by
  rw [conversationMessageEncoder, foldl_field]
  simp [FingerprintEncoder.new, FingerprintEncoder.field, tagBytes]

theorem conversationMessageEncoder_fed_eq_iff {flow flow' conversationId conversationId'
    incarnationId incarnationId' content content' : String} {images images' : Option (List String)}
    (hmessage : MessageRequest flow conversationId incarnationId content images)
    (hmessage' : MessageRequest flow' conversationId' incarnationId' content' images') :
    (conversationMessageEncoder flow conversationId incarnationId content images).fed
        = (conversationMessageEncoder flow' conversationId' incarnationId' content' images').fed ↔
      flow = flow' ∧ conversationId = conversationId' ∧ incarnationId = incarnationId' ∧
        content = content' ∧ images.getD [] = images'.getD [] := by
  rw [conversationMessageEncoder_fed, conversationMessageEncoder_fed, List.append_cancel_left_eq]
  constructor
  · intro heq
    obtain ⟨rfl, hids⟩ := tagBytes_selfDelimiting _ _ hmessage.flow_lt hmessage'.flow_lt _ _ heq
    obtain ⟨rfl, hincarnations⟩ := tagBytes_selfDelimiting _ _ hmessage.conversationId_lt
      hmessage'.conversationId_lt _ _ hids
    obtain ⟨rfl, hcontents⟩ := tagBytes_selfDelimiting _ _ hmessage.incarnationId_lt
      hmessage'.incarnationId_lt _ _ hincarnations
    obtain ⟨rfl, himages⟩ :=
      tagBytes_selfDelimiting _ _ hmessage.content_lt hmessage'.content_lt _ _ hcontents
    obtain ⟨hlength, hlist⟩ := count_selfDelimiting hmessage.count_lt hmessage'.count_lt himages
    obtain ⟨hsame, -⟩ := tagBytes_selfDelimiting.flatMap hlength hmessage.image_lt
      hmessage'.image_lt (congrArg (· ++ ([] : List UInt8)) hlist)
    rw [List.forall₂_eq_eq_eq] at hsame
    exact ⟨rfl, rfl, rfl, rfl, hsame⟩
  · rintro ⟨rfl, rfl, rfl, rfl, himages⟩
    rw [himages]

theorem runEncoder_fed_ne_message (flow : String) (body : Option Json)
    (flow' conversationId incarnationId content : String) (images : Option (List String)) :
    (runEncoder floatText flow body).fed
      ≠ (conversationMessageEncoder flow' conversationId incarnationId content images).fed := by
  intro heq
  rw [runEncoder_fed, conversationMessageEncoder_fed] at heq
  obtain ⟨hdomain, -⟩ := tagBytes_selfDelimiting _ _ (by decide) (by decide) _ _ heq
  exact absurd hdomain (by decide)

end Requests

/-! ### Keys -/

section Keys

variable {sha256 : List UInt8 → List UInt8}

theorem keyMessage_separated {principalId : PrincipalId}
    (hnamed : principalId ≠ .legacyDigest sha256) (bytes : List UInt8) :
    keyMessage sha256 principalId bytes = tagBytes "ironcrew:idempotency-key:v2" ++
        (tagBytes principalId ++ fieldBytes bytes) ∧
      (keyMessage sha256 principalId bytes).head? = some 0 := by
  have hfed : keyMessage sha256 principalId bytes = tagBytes "ironcrew:idempotency-key:v2" ++
      (tagBytes principalId ++ fieldBytes bytes) := by
    rw [keyMessage, if_neg hnamed]
    simp [FingerprintEncoder.new, FingerprintEncoder.field, tagBytes]
  refine ⟨hfed, ?_⟩
  have hdomain : (tagBytes "ironcrew:idempotency-key:v2").head? = some 0 := by decide
  rw [hfed, List.head?_append, hdomain]
  rfl

structure ClientKey (bytes : List UInt8) : Prop where
  some : bytes ≠ []
  short : bytes.length ≤ 128
  visible : ∀ byte ∈ bytes, isVisibleAscii byte

theorem ClientKey.head_ne_zero {bytes : List UInt8} (hkey : ClientKey bytes) :
    bytes.head? ≠ Option.some 0 := by
  intro hhead
  have hvisible := hkey.visible 0 (List.mem_of_mem_head? hhead)
  exact absurd hvisible (by decide)

theorem parseKeyHeader_eq_some {values : List (List UInt8)} {label : String} {required : Bool}
    {principalId : PrincipalId} {key : RequestKey}
    (hparse : parseKeyHeader sha256 values label required principalId = .ok (some key)) :
    ∃ bytes, values = [bytes] ∧ ClientKey bytes ∧
      key.keyHash = encodeHex (sha256 (keyMessage sha256 principalId bytes)) := by
  match values with
  | [] =>
    rw [parseKeyHeader] at hparse
    split at hparse <;> cases hparse
  | _ :: _ :: _ => cases hparse
  | [bytes] =>
    rw [parseKeyHeader] at hparse
    obtain ⟨hvisible, hkey⟩ := ensure_bind_ok_iff.mp hparse
    cases hkey
    obtain ⟨hsome, hshort, hall⟩ := by simpa only [not_or, not_not] using hvisible
    exact ⟨bytes, rfl, ⟨hsome, Nat.not_lt.mp hshort, List.all_eq_true.mp hall⟩, rfl⟩

theorem keyMessage_inj {principalId principalId' : PrincipalId} {bytes bytes' : List UInt8}
    (hprincipal : principalId.utf8ByteSize < 2 ^ 64) (hprincipal' : principalId'.utf8ByteSize < 2 ^ 64)
    (hkey : ClientKey bytes) (hkey' : ClientKey bytes')
    (heq : keyMessage sha256 principalId bytes = keyMessage sha256 principalId' bytes') :
    principalId = principalId' ∧ bytes = bytes' := by
  have hplain : ∀ bytes, keyMessage sha256 (.legacyDigest sha256) bytes = bytes :=
    fun bytes => if_pos rfl
  by_cases hlegacy : principalId = .legacyDigest sha256 <;>
    by_cases hlegacy' : principalId' = .legacyDigest sha256
  · rw [hlegacy, hlegacy', hplain, hplain] at heq
    exact ⟨hlegacy.trans hlegacy'.symm, heq⟩
  · rw [hlegacy, hplain] at heq
    rw [heq] at hkey
    exact absurd (keyMessage_separated hlegacy' bytes').2 hkey.head_ne_zero
  · rw [hlegacy', hplain] at heq
    rw [← heq] at hkey'
    exact absurd (keyMessage_separated hlegacy bytes).2 hkey'.head_ne_zero
  · rw [(keyMessage_separated hlegacy bytes).1, (keyMessage_separated hlegacy' bytes').1,
      List.append_cancel_left_eq] at heq
    obtain ⟨hsame, hfields⟩ := tagBytes_selfDelimiting _ _ hprincipal hprincipal' _ _ heq
    have hshort := hkey.short
    have hshort' := hkey'.short
    obtain ⟨hbytes, -⟩ := fieldBytes_selfDelimiting bytes bytes' (by omega) (by omega) [] []
      (congrArg (· ++ ([] : List UInt8)) hfields)
    exact ⟨hsame, hbytes⟩

end Keys

/-! ### Everything at once -/

/-- With a digest that does not collide on what the server feeds to it: a run fingerprint stands for
the flow and the body, a message fingerprint for all that the message says, neither is ever the other,
and a key hash stands for the principal and the client's key. -/
theorem fingerprints_injective (sha256 : List UInt8 → List UInt8) (floatText : UInt64 → String)
    (queried : Set (List UInt8)) (hfloat : FloatText floatText) (hsha : Set.InjOn sha256 queried) :
    (∀ flow body flow' body', RunRequest flow body → RunRequest flow' body' →
      (runEncoder floatText flow body).fed ∈ queried →
      (runEncoder floatText flow' body').fed ∈ queried →
      (runFingerprint sha256 floatText flow body = runFingerprint sha256 floatText flow' body' ↔
        flow = flow' ∧ Option.Rel (Json.Same (· = ·)) body body')) ∧
    (∀ flow conversationId incarnationId content images flow' conversationId' incarnationId' content'
        images',
      MessageRequest flow conversationId incarnationId content images →
      MessageRequest flow' conversationId' incarnationId' content' images' →
      (conversationMessageEncoder flow conversationId incarnationId content images).fed ∈ queried →
      (conversationMessageEncoder flow' conversationId' incarnationId' content' images').fed
        ∈ queried →
      (conversationMessageFingerprint sha256 flow conversationId incarnationId content images
          = conversationMessageFingerprint sha256 flow' conversationId' incarnationId' content'
              images' ↔
        flow = flow' ∧ conversationId = conversationId' ∧ incarnationId = incarnationId' ∧
          content = content' ∧ images.getD [] = images'.getD [])) ∧
    (∀ flow body flow' conversationId incarnationId content images,
      (runEncoder floatText flow body).fed ∈ queried →
      (conversationMessageEncoder flow' conversationId incarnationId content images).fed ∈ queried →
      runFingerprint sha256 floatText flow body
        ≠ conversationMessageFingerprint sha256 flow' conversationId incarnationId content images) ∧
    (∀ values values' label label' required required' principalId principalId' key key',
      principalId.utf8ByteSize < 2 ^ 64 → principalId'.utf8ByteSize < 2 ^ 64 →
      (∀ bytes ∈ values, keyMessage sha256 principalId bytes ∈ queried) →
      (∀ bytes ∈ values', keyMessage sha256 principalId' bytes ∈ queried) →
      parseKeyHeader sha256 values label required principalId = .ok (some key) →
      parseKeyHeader sha256 values' label' required' principalId' = .ok (some key') →
      key.keyHash = key'.keyHash → principalId = principalId' ∧ values = values') := by
  refine ⟨?_, ?_, ?_, ?_⟩
  · intro flow body flow' body' hrun hrun' hfed hfed'
    rw [runFingerprint, runFingerprint, finish_eq_iff hsha hfed hfed']
    exact runEncoder_fed_eq_iff hfloat hrun hrun'
  · intro flow conversationId incarnationId content images flow' conversationId' incarnationId'
      content' images' hmessage hmessage' hfed hfed'
    rw [conversationMessageFingerprint, conversationMessageFingerprint,
      finish_eq_iff hsha hfed hfed']
    exact conversationMessageEncoder_fed_eq_iff hmessage hmessage'
  · intro flow body flow' conversationId incarnationId content images hfed hfed' heq
    exact runEncoder_fed_ne_message flow body flow' conversationId incarnationId content images
      ((finish_eq_iff hsha hfed hfed').mp heq)
  · intro values values' label label' required required' principalId principalId' key key' hprincipal
      hprincipal' hqueried hqueried' hparse hparse' heq
    obtain ⟨bytes, rfl, hkey, hhash⟩ := parseKeyHeader_eq_some hparse
    obtain ⟨bytes', rfl, hkey', hhash'⟩ := parseKeyHeader_eq_some hparse'
    rw [hhash, hhash'] at heq
    have hmessages := hsha (hqueried bytes (List.mem_singleton_self _))
      (hqueried' bytes' (List.mem_singleton_self _)) (encodeHex_injective heq)
    obtain ⟨hsame, hbytes⟩ := keyMessage_inj hprincipal hprincipal' hkey hkey' hmessages
    exact ⟨hsame, by rw [hbytes]⟩

/-! ### Bodies of one flow -/

namespace Sample

def doubleText (bits : UInt64) : String :=
  if bits.toNat < 2 ^ 63 then toString bits.toNat ++ ".0"
  else "-" ++ toString (bits.toNat - 2 ^ 63) ++ ".0"

def ordered : Json :=
  .object [("a", .bool true), ("b", .array [.number (.posInt 1), .number (.posInt 2)])]

def reordered : Json :=
  .object [("b", .array [.number (.posInt 1), .number (.posInt 2)]), ("a", .bool true)]

def zero : Json := .number (.float 0)

def negativeZero : Json := .number (.float 0x8000000000000000)

def fed (body : Option Json) : List UInt8 :=
  (runEncoder doubleText "flow" body).fed

def sha256 (message : List UInt8) : List UInt8 :=
  if message = fed (some ordered) then
    bigEndian 32 0x28c311443740d9b8ff9442bfb33287470750027014d549eae4525ecdaccd4ea2
  else if message = fed none then
    bigEndian 32 0x4729bb91be7e7851b6c4fe1033d2d7a5ffa2b2ee9f68607017fbaf732ad532cf
  else if message = fed (some .null) then
    bigEndian 32 0x4f03a3962d9d16b9fba7cf06a6825718eb351066fdafc3dc0a018e62e6ba642b
  else if message = fed (some zero) then
    bigEndian 32 0xed7342a3c56517087c7e735e6faf65a92b288a6dd1736dcd4714672d0ce3e5d6
  else if message = fed (some negativeZero) then
    bigEndian 32 0x4bc674e1d58497dff68cf55fba6cc128254709d5c119fb32bead22775903a213
  else []

theorem doubleText_floatText : FloatText doubleText where
  injective a b _ _ heq := by
    have ha := a.toNat_lt
    have hb := b.toNat_lt
    refine UInt64.toNat_inj.mp ?_
    unfold doubleText at heq
    split at heq <;> split at heq
    · exact toString_injOn (by omega) (by omega) ((String.append_left_inj _).mp heq)
    · exact absurd ((String.append_left_inj _).mp heq) (toString_ne_minus _ _)
    · exact absurd ((String.append_left_inj _).mp heq).symm (toString_ne_minus _ _)
    · have hdigits := (String.append_right_inj _).mp ((String.append_left_inj _).mp heq)
      have hsame := toString_injOn (by omega) (by omega) hdigits
      omega
  marked bits _ := by
    have hpoint : ∀ text : String, '.' ∈ (text ++ ".0").toList := by
      intro text
      rw [String.toList_append]
      exact List.mem_append_right _ (by decide)
    unfold doubleText
    split
    · exact ⟨'.', hpoint _, Or.inl rfl⟩
    · exact ⟨'.', hpoint _, Or.inl rfl⟩
  short bits _ := by
    have hshort := length_toDigits_le bits.toNat_lt
    have hmagnitude : bits.toNat - 2 ^ 63 < u64Bound := (Nat.sub_le _ _).trans_lt bits.toNat_lt
    have hshort' := length_toDigits_le hmagnitude
    have hpoint : ".0".utf8ByteSize = 2 := by decide
    have hsign : "-".utf8ByteSize = 1 := by decide
    unfold doubleText
    split
    · rw [String.utf8ByteSize_append, utf8ByteSize_toString, hpoint]
      omega
    · rw [String.utf8ByteSize_append, String.utf8ByteSize_append, utf8ByteSize_toString, hpoint, hsign]
      omega

def queried : Set (List UInt8) := {fed (some ordered), fed none, fed (some .null)}

theorem sha256_injOn : Set.InjOn sha256 queried := by
  have hordered : sha256 (fed (some ordered)) ≠ sha256 (fed none) ∧
      sha256 (fed (some ordered)) ≠ sha256 (fed (some .null)) := by decide +kernel
  have hmissing : sha256 (fed none) ≠ sha256 (fed (some .null)) := by decide +kernel
  rintro _ (rfl | rfl | rfl) _ (rfl | rfl | rfl) heq
  · rfl
  · exact absurd heq hordered.1
  · exact absurd heq hordered.2
  · exact absurd heq.symm hordered.1
  · rfl
  · exact absurd heq hmissing
  · exact absurd heq.symm hordered.2
  · exact absurd heq.symm hmissing
  · rfl

end Sample

/-- The order of members does not matter, and a missing body is not `null`. -/
theorem fingerprints_injective_bodies :
    runFingerprint Sample.sha256 Sample.doubleText "flow" (some Sample.ordered)
        = runFingerprint Sample.sha256 Sample.doubleText "flow" (some Sample.reordered) ∧
      runFingerprint Sample.sha256 Sample.doubleText "flow" none
        ≠ runFingerprint Sample.sha256 Sample.doubleText "flow" (some .null) := by
  obtain ⟨hrun, -⟩ := fingerprints_injective Sample.sha256 Sample.doubleText Sample.queried
    Sample.doubleText_floatText Sample.sha256_injOn
  have hflow : "flow".utf8ByteSize < 2 ^ 64 := by decide
  have hordered : Sample.ordered.Representable := by
    simp [Sample.ordered, Json.Representable, Json.RepresentableItems, Json.RepresentableMembers,
      JsonNumber.Representable]
    decide
  have hreordered : Sample.reordered.Representable := by
    simp [Sample.reordered, Json.Representable, Json.RepresentableItems, Json.RepresentableMembers,
      JsonNumber.Representable]
    decide
  have hsame : Json.Same (· = ·) Sample.ordered Sample.reordered :=
    ⟨rfl, ⟨_, List.mem_cons_of_mem _ (List.mem_cons_self ..), rfl⟩,
      ⟨_, List.mem_cons_self .., rfl, rfl, trivial⟩, trivial⟩
  have hfed : Sample.fed (some Sample.reordered) = Sample.fed (some Sample.ordered) := by
    decide +kernel
  constructor
  · refine (hrun "flow" _ "flow" _ ⟨hflow, ?_⟩ ⟨hflow, ?_⟩ (Or.inl rfl) (Or.inl hfed)).mpr
      ⟨rfl, .some hsame⟩
    · rintro _ ⟨⟩
      exact hordered
    · rintro _ ⟨⟩
      exact hreordered
  · intro heq
    have hnull : RunRequest "flow" (some .null) := by
      refine ⟨hflow, ?_⟩
      rintro _ ⟨⟩
      trivial
    obtain ⟨-, hbody⟩ := (hrun "flow" none "flow" (some .null) ⟨hflow, by simp⟩ hnull
      (Or.inr (Or.inl rfl)) (Or.inr (Or.inr rfl))).mp heq
    cases hbody

/-- Two bodies that are equal as values, with different fingerprints. -/
theorem runFingerprint_zero_sign :
    Json.Same JsonNumber.Equal Sample.zero Sample.negativeZero ∧
      runFingerprint Sample.sha256 Sample.doubleText "flow" (some Sample.zero)
        ≠ runFingerprint Sample.sha256 Sample.doubleText "flow" (some Sample.negativeZero) := by
  refine ⟨Or.inr ⟨Or.inl rfl, Or.inr rfl⟩, ?_⟩
  decide +kernel

end IronCrew
