import IronCrew.Proof.Store.JsonTokens
import Mathlib.Data.Set.List

/-!
# The preflight of conversation JSON

Each function of the recogniser takes off the front of a text what the grammar describes there, and takes
it off whenever it is there. With the counters carried along, it accepts exactly the values within its
limits.
-/

namespace IronCrew.ConversationJson

open JsonGrammar Outcome Utf8

variable {label : String} {limits : Limits} {depth nodes : Nat}

/-! ### What a parser takes off -/

/-- A value that nests so deep stays within the limits on what it holds. -/
structure Fits (limits : Limits) (depth : Nat) (extent : Extent) : Prop where
  depth : extent.depth ≤ depth
  entries : extent.entries ≤ limits.containerEntries
  stringBytes : extent.stringBytes ≤ limits.stringBytes

def Sound (limits : Limits) (depth : Nat) (described : List Char → Extent → Prop)
    (parse : Parser → Except IronCrewError Parser) : Prop :=
  ∀ chars nodes next, parse ⟨encode chars, nodes⟩ = .ok next →
    ∃ text rest extent, chars = text ++ rest ∧ described text extent ∧
      next = ⟨encode rest, nodes + extent.nodes⟩ ∧ nodes + extent.nodes ≤ limits.nodes ∧
      Fits limits depth extent

theorem skipWhitespace_encode (chars : List Char) :
    (⟨encode chars, nodes⟩ : Parser).skipWhitespace = ⟨encode (chars.dropWhile isWs), nodes⟩ := by
  rw [Parser.skipWhitespace, reads_whitespace.dropWhile]

theorem skipWhitespace_sound (chars : List Char) :
    ∃ ws rest, chars = ws ++ rest ∧ IsWs ws ∧
      ∀ nodes, (⟨encode chars, nodes⟩ : Parser).skipWhitespace = ⟨encode rest, nodes⟩ :=
  ⟨chars.takeWhile isWs, chars.dropWhile isWs, List.takeWhile_append_dropWhile.symm,
    isWs_takeWhile chars, fun _ => skipWhitespace_encode chars⟩

variable {ws : List Char} {chars : List Char} {next : Parser} {c : Char} {detail : String}

theorem skipWhitespace_complete (hws : IsWs ws) {first : Char}
    (hfirst : isWs first = false) (rest : List Char) :
    (⟨encode (ws ++ first :: rest), nodes⟩ : Parser).skipWhitespace =
      ⟨encode (first :: rest), nodes⟩ := by
  rw [skipWhitespace_encode, dropWhile_isWs hws hfirst]

theorem bumpNode_ok_iff {parser next : Parser} :
    parser.bumpNode label limits = .ok next ↔
      parser.nodes + 1 ≤ limits.nodes ∧ { parser with nodes := parser.nodes + 1 } = next := by
  rw [Parser.bumpNode, ensure_bind_ok_iff]
  exact and_congr_right fun _ => ⟨fun hok => Except.ok.inj hok, fun hsame => congrArg Except.ok hsame⟩

theorem expect_ok_iff (hc : c.toNat < 128) :
    (⟨encode chars, nodes⟩ : Parser).expect label (ascii c) detail = .ok next ↔
      ∃ rest, chars = c :: rest ∧ next = ⟨encode rest, nodes⟩ := by
  rw [Parser.expect, ensure_bind_ok_iff, head?_encode_iff hc]
  constructor
  · rintro ⟨⟨rest, rfl⟩, hnext⟩
    rw [encode_ascii hc] at hnext
    cases hnext
    exact ⟨rest, rfl, rfl⟩
  · rintro ⟨rest, rfl, rfl⟩
    refine ⟨⟨rest, rfl⟩, ?_⟩
    rw [encode_ascii hc]
    rfl

theorem parseString_sound
    (hparse : (⟨encode ('"' :: chars), nodes⟩ : Parser).parseString label limits = .ok next) :
    ∃ body rest, chars = body ++ '"' :: rest ∧ next = ⟨encode rest, nodes⟩ ∧ IsChars body ∧
      byteSize body ≤ limits.stringBytes := by
  obtain ⟨bytes, hbody, hnext⟩ := bind_ok_iff.mp hparse
  cases hnext
  rw [encode_ascii (by decide), List.tail_cons] at hbody
  obtain ⟨body, rest, rfl, rfl, hchars, hsize⟩ :=
    parseStringBody_sound (List.forall_mem_nil _) (Nat.zero_le _) hbody
  exact ⟨body, rest, rfl, rfl, hchars, by simpa using hsize⟩

theorem parseString_complete {body : List Char} (hbody : IsChars body)
    (hsize : byteSize body ≤ limits.stringBytes) (rest : List Char) :
    (⟨encode ('"' :: (body ++ '"' :: rest)), nodes⟩ : Parser).parseString label limits =
      .ok ⟨encode rest, nodes⟩ := by
  rw [Parser.parseString, encode_ascii (by decide), List.tail_cons, List.length_cons,
    parseStringBody_complete hbody (Nat.lt_succ_self _) (by simpa using hsize)]
  rfl

theorem parseNumber_sound (hparse : (⟨encode chars, nodes⟩ : Parser).parseNumber label = .ok next) :
    ∃ number rest, chars = number ++ rest ∧ next = ⟨encode rest, nodes⟩ ∧ IsNumber number := by
  obtain ⟨bytes, hscan, hnext⟩ := bind_ok_iff.mp hparse
  cases hnext
  obtain ⟨number, rest, rfl, rfl, hnumber⟩ := scanNumber_sound (require_ok_iff.mp hscan)
  exact ⟨number, rest, rfl, rfl, hnumber⟩

theorem parseNumber_complete {number rest : List Char} (hnumber : IsNumber number)
    (hrest : Ends rest) :
    (⟨encode (number ++ rest), nodes⟩ : Parser).parseNumber label = .ok ⟨encode rest, nodes⟩ := by
  rw [Parser.parseNumber, scanNumber_complete hnumber hrest]
  rfl

theorem isPrefixOf_encode_iff {text : List Char} (htext : ∀ c ∈ text, c.toNat < 128) :
    (encode text).isPrefixOf (encode chars) = true ↔ ∃ rest, chars = text ++ rest := by
  induction text generalizing chars with
  | nil => simp
  | cons c text ih =>
    obtain ⟨hc, htext⟩ := List.forall_mem_cons.mp htext
    rw [encode_ascii hc]
    constructor
    · intro hfront
      cases hbytes : encode chars with
      | nil => rw [hbytes] at hfront; cases hfront
      | cons first bytes =>
        rw [hbytes, List.isPrefixOf_cons_cons, Bool.and_eq_true, beq_iff_eq] at hfront
        obtain ⟨own, others, rfl, hown, -, rfl⟩ :=
          (reads_ascii hc).cons_of_test hbytes (decide_eq_true hfront.1.symm)
        obtain ⟨rest, rfl⟩ := (ih htext).mp hfront.2
        exact ⟨rest, by rw [of_decide_eq_true hown, List.cons_append]⟩
    · rintro ⟨rest, rfl⟩
      rw [List.cons_append, encode_ascii hc, List.isPrefixOf_cons_cons, beq_self_eq_true,
        Bool.true_and]
      exact (ih htext).mpr ⟨rest, rfl⟩

theorem parseLiteral_ok_iff {literal : String} (hliteral : ∀ c ∈ literal.toList, c.toNat < 128) :
    (⟨encode chars, nodes⟩ : Parser).parseLiteral label literal = .ok next ↔
      ∃ rest, chars = literal.toList ++ rest ∧ next = ⟨encode rest, nodes⟩ := by
  rw [Parser.parseLiteral, ensure_bind_ok_iff, toUTF8_eq, isPrefixOf_encode_iff hliteral]
  constructor
  · rintro ⟨⟨rest, rfl⟩, hnext⟩
    rw [encode_append, List.drop_left] at hnext
    cases hnext
    exact ⟨rest, rfl, rfl⟩
  · rintro ⟨rest, rfl, rfl⟩
    refine ⟨⟨rest, rfl⟩, ?_⟩
    rw [encode_append, List.drop_left]
    rfl

/-! ### Entries of a container -/

def passEntries (label : String) (close : Char) (detail : String)
    (parseEntry : Parser → Except IronCrewError Parser) : Nat → Parser → Except IronCrewError Parser
  | 0, _ => .error (limitError label "container-entry")
  | left + 1, parser => do
    let parser ← parseEntry parser
    let parser := parser.skipWhitespace
    if parser.rest.head? = some (ascii close) then
      return { parser with rest := parser.rest.tail }
    let parser ← parser.expect label (ascii ',') detail
    passEntries label close detail parseEntry left parser.skipWhitespace

def parseMember (label : String) (limits : Limits)
    (parseValue : Parser → Except IronCrewError Parser) (parser : Parser) :
    Except IronCrewError Parser := do
  let parser ← parser.bumpNode label limits
  ensure (parser.rest.head? = some (ascii '"')) (invalidError label "contains a non-string object key")
  let parser ← parser.parseString label limits
  let parser ← parser.skipWhitespace.expect label (ascii ':') "contains invalid object syntax"
  parseValue parser.skipWhitespace

variable {parse : Parser → Except IronCrewError Parser} {left : Nat}

theorem parseElements_eq (parser : Parser) :
    parser.parseElements label parse left =
      passEntries label ']' "contains invalid array syntax" parse left parser := by
  induction left generalizing parser with
  | zero => rfl
  | succ left ih => simp only [Parser.parseElements, passEntries, ih]

theorem parseEntries_eq (parser : Parser) :
    parser.parseEntries label limits parse left =
      passEntries label '\x7d' "contains invalid object syntax" (parseMember label limits parse) left
        parser := by
  induction left generalizing parser with
  | zero => rfl
  | succ left ih => simp only [Parser.parseEntries, passEntries, parseMember, bind_assoc, ih]

theorem fits_together_cons {first : Extent} {others : List Extent} :
    Fits limits depth (.together (first :: others)) ↔
      Fits limits depth first ∧ Fits limits depth (.together others) := by
  constructor
  · rintro ⟨hdepth, hentries, hbytes⟩
    obtain ⟨hdepth, hdepth'⟩ := Nat.max_le.mp hdepth
    obtain ⟨hentries, hentries'⟩ := Nat.max_le.mp hentries
    obtain ⟨hbytes, hbytes'⟩ := Nat.max_le.mp hbytes
    exact ⟨⟨hdepth, hentries, hbytes⟩, ⟨hdepth', hentries', hbytes'⟩⟩
  · rintro ⟨⟨hdepth, hentries, hbytes⟩, ⟨hdepth', hentries', hbytes'⟩⟩
    exact ⟨Nat.max_le.mpr ⟨hdepth, hdepth'⟩, Nat.max_le.mpr ⟨hentries, hentries'⟩,
      Nat.max_le.mpr ⟨hbytes, hbytes'⟩⟩

theorem fits_together_nil : Fits limits depth (.together []) :=
  ⟨Nat.zero_le _, Nat.zero_le _, Nat.zero_le _⟩

/-- White space around an entry belongs to it. -/
def Padded (described : List Char → Extent → Prop) : Prop :=
  ∀ {before text after extent}, IsWs before → IsWs after → described text extent →
    described (before ++ (text ++ after)) extent

theorem passEntries_sound {described : List Char → Extent → Prop} {close : Char}
    (hclose : close.toNat < 128) (hparse : Sound limits depth described parse)
    (hpadded : Padded described) {before chars : List Char} (hbefore : IsWs before)
    (hpass : passEntries label close detail parse left ⟨encode chars, nodes⟩ = .ok next) :
    ∃ (entries : List (List Char × Extent)) (rest : List Char), entries ≠ [] ∧
      (∀ entry ∈ entries, described entry.1 entry.2) ∧
      before ++ chars = separated (entries.map Prod.fst) ++ close :: rest ∧
      next = ⟨encode rest, nodes + (Extent.together (entries.map Prod.snd)).nodes⟩ ∧
      nodes + (Extent.together (entries.map Prod.snd)).nodes ≤ limits.nodes ∧
      entries.length ≤ left ∧ Fits limits depth (.together (entries.map Prod.snd)) := by
  induction left generalizing before chars nodes with
  | zero => cases hpass
  | succ left ih =>
    obtain ⟨entered, hentry, hpass⟩ := bind_ok_iff.mp hpass
    obtain ⟨text, behind, extent, rfl, htext, rfl, hnodes, hfits⟩ := hparse _ _ _ hentry
    obtain ⟨after, rest, rfl, hafter, hskip⟩ := skipWhitespace_sound behind
    have hdescribed := hpadded hbefore hafter htext
    simp only [hskip] at hpass
    split_ifs at hpass with hlast
    · obtain ⟨rest, rfl⟩ := (head?_encode_iff hclose rest).mp hlast
      rw [encode_ascii hclose] at hpass
      cases hpass
      refine ⟨[(before ++ (text ++ after), extent)], rest, List.cons_ne_nil _ _,
        by simpa using hdescribed, by simp [separated], rfl, hnodes, Nat.le_add_left _ _, ?_⟩
      exact fits_together_cons.mpr ⟨hfits, fits_together_nil⟩
    · obtain ⟨comma, hcomma, hpass⟩ := bind_ok_iff.mp hpass
      obtain ⟨behind, rfl, rfl⟩ := (expect_ok_iff (by decide)).mp hcomma
      obtain ⟨ws, chars, rfl, hws, hskip⟩ := skipWhitespace_sound behind
      rw [hskip] at hpass
      obtain ⟨entries, rest, hsome, hall, hchars, rfl, hnodes, hlength, hothers⟩ := ih hws hpass
      refine ⟨(before ++ (text ++ after), extent) :: entries, rest, List.cons_ne_nil _ _,
        List.forall_mem_cons.mpr ⟨hdescribed, hall⟩, ?_, ?_, ?_, Nat.succ_le_succ hlength,
        fits_together_cons.mpr ⟨hfits, hothers⟩⟩
      · rw [hchars]
        cases entries with
        | nil => exact absurd rfl hsome
        | cons entry entries => simp [separated]
      · simp only [List.map_cons, Extent.together, Nat.add_assoc]
      · simp only [List.map_cons, Extent.together]
        omega

theorem exists_map_of_forall {α β : Type} {good : α → Prop} {f : α → β} {list : List β}
    (hall : ∀ b ∈ list, ∃ a, good a ∧ f a = b) :
    ∃ source : List α, (∀ a ∈ source, good a) ∧ source.map f = list := by
  have hrange : list ∈ Set.range (List.map fun a : {a // good a} => f a) := by
    rw [Set.range_list_map]
    intro b hb
    obtain ⟨a, ha, rfl⟩ := hall b hb
    exact ⟨⟨a, ha⟩, rfl⟩
  obtain ⟨source, rfl⟩ := hrange
  refine ⟨source.map Subtype.val, fun a ha => ?_, by rw [List.map_map]; rfl⟩
  obtain ⟨own, -, rfl⟩ := List.mem_map.mp ha
  exact own.2

theorem isWs_append {front back : List Char} (hfront : IsWs front) (hback : IsWs back) :
    IsWs (front ++ back) :=
  fun c hc => (List.mem_append.mp hc).elim (hfront c) (hback c)

theorem isWs_nil : IsWs [] := List.forall_mem_nil _

def IsElement (text : List Char) (extent : Extent) : Prop :=
  ∃ element : Element, (element.Spaced ∧ IsValue element.text element.extent) ∧
    (element.chars, element.extent) = (text, extent)

def IsMember (text : List Char) (extent : Extent) : Prop :=
  ∃ member : Member, (member.Spaced ∧ IsChars member.key ∧ IsValue member.text member.value) ∧
    (member.chars, member.extent) = (text, extent)

theorem isElement_padded : Padded IsElement := by
  rintro before text after extent hbefore hafter ⟨element, ⟨⟨hspace, hspace'⟩, hvalue⟩, hsame⟩
  cases hsame
  refine ⟨{ element with before := before ++ element.before, after := element.after ++ after },
    ⟨⟨isWs_append hbefore hspace, isWs_append hspace' hafter⟩, hvalue⟩, ?_⟩
  simp only [Element.chars, List.append_assoc]

theorem isMember_padded : Padded IsMember := by
  rintro before text after extent hbefore hafter ⟨member, ⟨hspaced, hkey, hvalue⟩, hsame⟩
  cases hsame
  obtain ⟨hspace, hspaceKey, hspaceValue, hspace'⟩ := hspaced
  refine ⟨{ member with before := before ++ member.before, after := member.after ++ after },
    ⟨⟨isWs_append hbefore hspace, hspaceKey, hspaceValue, isWs_append hspace' hafter⟩, hkey, hvalue⟩,
    ?_⟩
  simp only [Member.chars, Member.extent, List.append_assoc, List.cons_append]

theorem isElement_sound (hparse : Sound limits depth IsValue parse) :
    Sound limits depth IsElement parse := by
  intro chars nodes next hnext
  obtain ⟨text, rest, extent, hchars, hvalue, hcounted⟩ := hparse chars nodes next hnext
  refine ⟨text, rest, extent, hchars, ⟨⟨[], text, [], extent⟩, ⟨⟨isWs_nil, isWs_nil⟩, hvalue⟩, ?_⟩,
    hcounted⟩
  simp only [Element.chars, List.nil_append, List.append_nil]

theorem parseMember_sound (hparse : Sound limits depth IsValue parse) :
    Sound limits depth IsMember (parseMember label limits parse) := by
  intro chars nodes next hnext
  obtain ⟨bumped, hbump, hnext⟩ := bind_ok_iff.mp hnext
  obtain ⟨hnodes, rfl⟩ := bumpNode_ok_iff.mp hbump
  obtain ⟨hquote, hnext⟩ := ensure_bind_ok_iff.mp hnext
  obtain ⟨others, rfl⟩ := (head?_encode_iff (by decide) chars).mp hquote
  obtain ⟨keyed, hstring, hnext⟩ := bind_ok_iff.mp hnext
  obtain ⟨key, behind, rfl, rfl, hkey, hsize⟩ := parseString_sound hstring
  obtain ⟨afterKey, colon, rfl, hafterKey, hskip⟩ := skipWhitespace_sound behind
  obtain ⟨coloned, hcolon, hnext⟩ := bind_ok_iff.mp hnext
  rw [hskip] at hcolon
  obtain ⟨behind, rfl, rfl⟩ := (expect_ok_iff (by decide)).mp hcolon
  obtain ⟨beforeValue, behind, rfl, hbeforeValue, hskip⟩ := skipWhitespace_sound behind
  rw [hskip] at hnext
  obtain ⟨text, rest, value, rfl, hvalue, rfl, hcount, hdepth, hentries, hbytes⟩ := hparse _ _ _ hnext
  refine ⟨quoted key ++ (afterKey ++ ':' :: (beforeValue ++ text)), rest,
    value.keyed (byteSize key), ?_, ?_, ?_, ?_, hdepth, hentries, Nat.max_le.mpr ⟨hsize, hbytes⟩⟩
  · simp [quoted]
  · refine ⟨⟨[], key, afterKey, beforeValue, text, [], value⟩,
      ⟨⟨isWs_nil, hafterKey, hbeforeValue, isWs_nil⟩, hkey, hvalue⟩, ?_⟩
    simp only [Member.chars, Member.extent, List.nil_append, List.append_nil]
  · simp only [Extent.keyed, Nat.add_assoc, Nat.add_comm 1]
  · have hsum : nodes + 1 + value.nodes ≤ limits.nodes := hcount
    simp only [Extent.keyed]
    omega

/-! ### Values -/

theorem literal_ascii {literal : List Char} (hliteral : literal ∈ literals) :
    ∀ c ∈ literal, c.toNat < 128 := by
  simp only [literals, List.mem_cons, List.not_mem_nil, or_false] at hliteral
  rcases hliteral with rfl | rfl | rfl <;>
    exact List.forall_iff_forall_mem.mp (by decide)

theorem fits_scalar {stringBytes : Nat} (hsize : stringBytes ≤ limits.stringBytes) :
    Fits limits (depth + 1) (.scalar stringBytes) :=
  ⟨Nat.le_add_left _ _, Nat.zero_le _, hsize⟩

theorem fits_container_iff {entries : List Extent} :
    Fits limits (depth + 1) (.container entries) ↔
      entries.length ≤ limits.containerEntries ∧ Fits limits depth (.together entries) := by
  constructor
  · rintro ⟨hdepth, hentries, hbytes⟩
    obtain ⟨hlength, hentries⟩ := Nat.max_le.mp hentries
    exact ⟨hlength, Nat.le_of_succ_le_succ hdepth, hentries, hbytes⟩
  · rintro ⟨hlength, hfits⟩
    exact ⟨Nat.succ_le_succ hfits.depth, Nat.max_le.mpr ⟨hlength, hfits.entries⟩, hfits.stringBytes⟩

def TakesValue (limits : Limits) (depth nodes : Nat) (chars : List Char) (next : Parser) : Prop :=
  ∃ text rest extent, chars = text ++ rest ∧ IsValue text extent ∧
    next = ⟨encode rest, nodes + extent.nodes⟩ ∧ nodes + extent.nodes ≤ limits.nodes ∧
    Fits limits depth extent

theorem parseArray_sound (hparse : Sound limits depth IsValue parse) {chars : List Char}
    {next : Parser} (hnodes : nodes + 1 ≤ limits.nodes)
    (hnext : (⟨encode ('[' :: chars), nodes + 1⟩ : Parser).parseArray label limits parse = .ok next) :
    TakesValue limits (depth + 1) nodes ('[' :: chars) next := by
  obtain ⟨before, behind, rfl, hbefore, hskip⟩ := skipWhitespace_sound chars
  rw [Parser.parseArray, encode_ascii (by decide), List.tail_cons, hskip] at hnext
  split_ifs at hnext with hempty
  · obtain ⟨rest, rfl⟩ := (head?_encode_iff (by decide) behind).mp hempty
    rw [encode_ascii (by decide)] at hnext
    cases hnext
    exact ⟨'[' :: (before ++ [']']), rest, .container [], by simp, .emptyArray hbefore, rfl, hnodes,
      fits_container_iff.mpr ⟨Nat.zero_le _, fits_together_nil⟩⟩
  · rw [parseElements_eq] at hnext
    obtain ⟨entries, rest, hsome, hall, hchars, rfl, hcount, hlength, hfits⟩ :=
      passEntries_sound (by decide) (isElement_sound hparse) isElement_padded hbefore hnext
    obtain ⟨elements, hgood, rfl⟩ := exists_map_of_forall hall
    simp only [List.map_map, List.length_map] at hchars hcount hlength hfits ⊢
    refine ⟨'[' :: (separated (elements.map Element.chars) ++ [']']), rest,
      .container (elements.map Element.extent), ?_,
      .array (fun hnone => hsome (by rw [hnone]; rfl)) (fun e he => (hgood e he).1)
        fun e he => (hgood e he).2, ?_, ?_, fits_container_iff.mpr ⟨by simpa using hlength, hfits⟩⟩
    · rw [hchars, List.cons_append, List.append_assoc]
      rfl
    · exact congrArg (Parser.mk _) (Nat.add_right_comm nodes 1 _)
    · exact Nat.add_right_comm nodes 1 _ ▸ hcount

theorem parseObject_sound (hparse : Sound limits depth IsValue parse)
    (hnodes : nodes + 1 ≤ limits.nodes)
    (hnext : (⟨encode ('\x7b' :: chars), nodes + 1⟩ : Parser).parseObject label limits parse =
      .ok next) :
    TakesValue limits (depth + 1) nodes ('\x7b' :: chars) next := by
  obtain ⟨before, behind, rfl, hbefore, hskip⟩ := skipWhitespace_sound chars
  rw [Parser.parseObject, encode_ascii (by decide), List.tail_cons, hskip] at hnext
  split_ifs at hnext with hempty
  · obtain ⟨rest, rfl⟩ := (head?_encode_iff (by decide) behind).mp hempty
    rw [encode_ascii (by decide)] at hnext
    cases hnext
    exact ⟨'\x7b' :: (before ++ ['\x7d']), rest, .container [], by simp, .emptyObject hbefore, rfl,
      hnodes, fits_container_iff.mpr ⟨Nat.zero_le _, fits_together_nil⟩⟩
  · rw [parseEntries_eq] at hnext
    obtain ⟨entries, rest, hsome, hall, hchars, rfl, hcount, hlength, hfits⟩ :=
      passEntries_sound (by decide) (parseMember_sound hparse) isMember_padded hbefore hnext
    obtain ⟨members, hgood, rfl⟩ := exists_map_of_forall hall
    simp only [List.map_map, List.length_map] at hchars hcount hlength hfits ⊢
    refine ⟨'\x7b' :: (separated (members.map Member.chars) ++ ['\x7d']), rest,
      .container (members.map Member.extent), ?_,
      .object (fun hnone => hsome (by rw [hnone]; rfl)) (fun m hm => (hgood m hm).1)
        (fun m hm => (hgood m hm).2.1) fun m hm => (hgood m hm).2.2, ?_, ?_,
      fits_container_iff.mpr ⟨by simpa using hlength, hfits⟩⟩
    · rw [hchars, List.cons_append, List.append_assoc]
      rfl
    · exact congrArg (Parser.mk _) (Nat.add_right_comm nodes 1 _)
    · exact Nat.add_right_comm nodes 1 _ ▸ hcount

theorem takesValue_scalar {text rest : List Char} {stringBytes : Nat}
    (hnodes : nodes + 1 ≤ limits.nodes) (hvalue : IsValue text (.scalar stringBytes))
    (hsize : stringBytes ≤ limits.stringBytes) :
    TakesValue limits (depth + 1) nodes (text ++ rest) ⟨encode rest, nodes + 1⟩ :=
  ⟨text, rest, _, rfl, hvalue, rfl, hnodes, fits_scalar hsize⟩

theorem parseLiteral_sound {literal : String} (hliteral : literal.toList ∈ literals)
    (hnodes : nodes + 1 ≤ limits.nodes)
    (hnext : (⟨encode chars, nodes + 1⟩ : Parser).parseLiteral label literal = .ok next) :
    TakesValue limits (depth + 1) nodes chars next := by
  obtain ⟨rest, rfl, rfl⟩ := (parseLiteral_ok_iff (literal_ascii hliteral)).mp hnext
  exact takesValue_scalar hnodes (.literal hliteral) (Nat.zero_le _)

theorem parseValue_sound : Sound limits depth IsValue (Parser.parseValue label limits depth) := by
  induction depth with
  | zero => intro chars nodes next hnext; cases hnext
  | succ depth ih =>
    intro chars nodes next hnext
    obtain ⟨bumped, hbump, hnext⟩ := bind_ok_iff.mp hnext
    obtain ⟨hnodes, rfl⟩ := bumpNode_ok_iff.mp hbump
    cases hbytes : encode chars with
    | nil => rw [hbytes] at hnext; cases hnext
    | cons first bytes =>
      have hhead : ∀ {c : Char}, c.toNat < 128 → first = ascii c → ∃ rest, chars = c :: rest :=
        fun hc hfirst => (head?_encode_iff hc chars).mp (by rw [hbytes, hfirst]; rfl)
      simp only [hbytes, List.head?_cons] at hnext
      rw [← hbytes] at hnext
      by_cases hobject : first = ascii '\x7b'
      · obtain ⟨others, rfl⟩ := hhead (by decide) hobject
        rw [if_pos hobject] at hnext
        exact parseObject_sound ih hnodes hnext
      by_cases harray : first = ascii '['
      · obtain ⟨others, rfl⟩ := hhead (by decide) harray
        rw [if_neg hobject, if_pos harray] at hnext
        exact parseArray_sound ih hnodes hnext
      by_cases hstring : first = ascii '"'
      · obtain ⟨others, rfl⟩ := hhead (by decide) hstring
        rw [if_neg hobject, if_neg harray, if_pos hstring] at hnext
        obtain ⟨body, rest, rfl, rfl, hbody, hsize⟩ := parseString_sound hnext
        have hchars : '"' :: (body ++ '"' :: rest) = quoted body ++ rest := by simp [quoted]
        rw [hchars]
        exact takesValue_scalar hnodes (.string hbody) hsize
      rw [if_neg hobject, if_neg harray, if_neg hstring] at hnext
      split_ifs at hnext with htrue hfalse hnull hnumber
      · exact parseLiteral_sound (by decide) hnodes hnext
      · exact parseLiteral_sound (by decide) hnodes hnext
      · exact parseLiteral_sound (by decide) hnodes hnext
      · obtain ⟨number, rest, rfl, rfl, hnumber⟩ := parseNumber_sound hnext
        exact takesValue_scalar hnodes (.number hnumber) (Nat.zero_le _)

/-! ### What a parser does not miss -/

/-- The parser takes the value off whatever comes behind it, when the count has room. -/
def Completes (limits : Limits) (parse : Parser → Except IronCrewError Parser) (text : List Char)
    (extent : Extent) : Prop :=
  ∀ rest nodes, Ends rest → nodes + extent.nodes ≤ limits.nodes →
    parse ⟨encode (text ++ rest), nodes⟩ = .ok ⟨encode rest, nodes + extent.nodes⟩

/-- What may come behind an entry of a container. -/
def structural : List Char := [',', ']', '\x7d']

/-- The parser takes the entry off up to the white space behind it. -/
def Passes (limits : Limits) (parse : Parser → Except IronCrewError Parser) (text : List Char)
    (extent : Extent) : Prop :=
  ∀ c ∈ structural, ∀ rest nodes, nodes + extent.nodes ≤ limits.nodes → ∃ after, IsWs after ∧
    parse (⟨encode (text ++ c :: rest), nodes⟩ : Parser).skipWhitespace =
      .ok ⟨encode (after ++ c :: rest), nodes + extent.nodes⟩

theorem structural_cases {c : Char} (hc : c ∈ structural) : c = ',' ∨ c = ']' ∨ c = '\x7d' := by
  simpa [structural] using hc

theorem structural_spec (hc : c ∈ structural) : c.toNat < 128 ∧ isWs c = false := by
  rcases structural_cases hc with rfl | rfl | rfl <;> decide

theorem ends_cons (hc : isWs c = true ∨ c ∈ structural) (rest : List Char) : Ends (c :: rest) := by
  intro own hown
  cases hown
  rcases hc with hc | hc
  · simp only [isWs, Bool.or_eq_true, decide_eq_true_eq] at hc
    rcases hc with ((rfl | rfl) | rfl) | rfl <;> decide
  · rcases structural_cases hc with rfl | rfl | rfl <;> decide

theorem ends_append (hws : IsWs ws) (hc : c ∈ structural)
    (rest : List Char) : Ends (ws ++ c :: rest) := by
  cases ws with
  | nil => exact ends_cons (.inr hc) rest
  | cons first ws => exact ends_cons (.inl (hws first List.mem_cons_self)) _

theorem passEntries_complete {close : Char} (hclose : close ∈ structural)
    (hcomma : close ≠ ',') {entries : List (List Char × Extent)} (hsome : entries ≠ [])
    (hpasses : ∀ entry ∈ entries, Passes limits parse entry.1 entry.2)
    (hnodes : nodes + (Extent.together (entries.map Prod.snd)).nodes ≤ limits.nodes)
    (hlength : entries.length ≤ left) (rest : List Char) :
    passEntries label close detail parse left
        (⟨encode (separated (entries.map Prod.fst) ++ close :: rest), nodes⟩ : Parser).skipWhitespace =
      .ok ⟨encode rest, nodes + (Extent.together (entries.map Prod.snd)).nodes⟩ := by
  obtain ⟨hascii, hclosing⟩ := structural_spec hclose
  induction entries generalizing left nodes with
  | nil => exact absurd rfl hsome
  | cons entry others ih =>
    obtain ⟨hentry, hothers⟩ := List.forall_mem_cons.mp hpasses
    obtain ⟨left, rfl⟩ : ∃ room, left = room + 1 :=
      Nat.exists_eq_succ_of_ne_zero (Nat.ne_of_gt (Nat.lt_of_lt_of_le (Nat.succ_pos _) hlength))
    simp only [List.map_cons, Extent.together] at hnodes ⊢
    cases others with
    | nil =>
      obtain ⟨after, hafter, hparse⟩ := hentry close hclose rest nodes (by omega)
      have hskip : (⟨encode (after ++ close :: rest), nodes + entry.2.nodes⟩ : Parser).skipWhitespace
          = ⟨encode (close :: rest), nodes + entry.2.nodes⟩ :=
        skipWhitespace_complete hafter hclosing rest
      simp only [List.map_nil, separated, passEntries, hparse, ok_bind, hskip, encode_ascii hascii,
        List.head?_cons, if_true]
      rfl
    | cons next others =>
      obtain ⟨tail, htail⟩ : ∃ tail,
          separated ((next :: others).map Prod.fst) ++ close :: rest = tail := ⟨_, rfl⟩
      have hrest : passEntries label close detail parse left
          (⟨encode tail, nodes + entry.2.nodes⟩ : Parser).skipWhitespace =
          .ok ⟨encode rest, nodes + entry.2.nodes +
            (Extent.together ((next :: others).map Prod.snd)).nodes⟩ := by
        rw [← htail]
        exact ih (List.cons_ne_nil _ _) hothers (by omega) (Nat.le_of_succ_le_succ hlength)
      obtain ⟨after, hafter, hparse⟩ := hentry ',' (by decide) tail nodes (by omega)
      have hskip : (⟨encode (after ++ ',' :: tail), nodes + entry.2.nodes⟩ : Parser).skipWhitespace =
          ⟨encode (',' :: tail), nodes + entry.2.nodes⟩ :=
        skipWhitespace_complete hafter (by decide) tail
      have hopen : ¬ (encode (',' :: tail)).head? = some (ascii close) := by
        rw [head?_encode_iff hascii]
        rintro ⟨behind, heq⟩
        exact hcomma (List.cons_eq_cons.mp heq).1.symm
      have hchars : separated (entry.1 :: (next :: others).map Prod.fst) ++ close :: rest =
          entry.1 ++ ',' :: tail := by
        rw [← htail]
        exact List.append_assoc _ _ _
      rw [hchars, passEntries, hparse, ok_bind]
      simp only [hskip]
      rw [if_neg hopen, (expect_ok_iff (by decide)).mpr ⟨tail, rfl, rfl⟩, ok_bind, hrest,
        Nat.add_assoc]

theorem element_passes {element : Element} (hspaced : element.Spaced)
    (hvalue : IsValue element.text element.extent)
    (hparse : Completes limits parse element.text element.extent) :
    Passes limits parse element.chars element.extent := by
  intro c hc rest nodes hnodes
  obtain ⟨first, others, htext, hfirst, -⟩ := hvalue.head
  refine ⟨element.after, hspaced.2, ?_⟩
  have hskip : (⟨encode (element.chars ++ c :: rest), nodes⟩ : Parser).skipWhitespace =
      ⟨encode (element.text ++ (element.after ++ c :: rest)), nodes⟩ := by
    have hchars : element.chars ++ c :: rest =
        element.before ++ first :: (others ++ (element.after ++ c :: rest)) := by
      simp [Element.chars, htext]
    rw [hchars, skipWhitespace_complete hspaced.1 hfirst, htext]
    rfl
  rw [hskip]
  exact hparse _ nodes (ends_append hspaced.2 hc rest) hnodes

theorem ensure_head (hc : c.toNat < 128) (chars : List Char) {error : IronCrewError} :
    ensure ((encode (c :: chars)).head? = some (ascii c)) error = .ok () :=
  ensure_of ((head?_encode_iff hc _).mpr ⟨chars, rfl⟩)

theorem member_passes {member : Member} (hspaced : member.Spaced) (hkey : IsChars member.key)
    (hvalue : IsValue member.text member.value) (hfits : Fits limits depth member.extent)
    (hparse : Completes limits parse member.text member.value) :
    Passes limits (parseMember label limits parse) member.chars member.extent := by
  intro c hc rest nodes hnodes
  obtain ⟨hbefore, hafterKey, hbeforeValue, hafter⟩ := hspaced
  obtain ⟨first, others, htext, hfirst, -⟩ := hvalue.head
  refine ⟨member.after, hafter, ?_⟩
  have hkeyBytes : byteSize member.key ≤ limits.stringBytes := (Nat.max_le.mp hfits.stringBytes).1
  have hcount : nodes + (member.value.nodes + 1) ≤ limits.nodes := hnodes
  have hcount' : nodes + 1 + member.value.nodes ≤ limits.nodes := by omega
  have hbump : nodes + 1 ≤ limits.nodes := by omega
  obtain ⟨valued, hvalued⟩ : ∃ valued, member.text ++ (member.after ++ c :: rest) = valued := ⟨_, rfl⟩
  obtain ⟨behind, hbehind⟩ : ∃ behind,
      member.afterKey ++ ':' :: (member.beforeValue ++ valued) = behind := ⟨_, rfl⟩
  have hchars : member.chars ++ c :: rest = member.before ++ '"' :: (member.key ++ '"' :: behind) := by
    rw [← hbehind, ← hvalued]
    simp [Member.chars, quoted]
  have hcolon : (⟨encode behind, nodes + 1⟩ : Parser).skipWhitespace =
      ⟨encode (':' :: (member.beforeValue ++ valued)), nodes + 1⟩ := by
    rw [← hbehind]
    exact skipWhitespace_complete hafterKey (by decide) _
  have hskip : (⟨encode (member.beforeValue ++ valued), nodes + 1⟩ : Parser).skipWhitespace =
      ⟨encode valued, nodes + 1⟩ := by
    rw [← hvalued, htext]
    exact skipWhitespace_complete hbeforeValue hfirst _
  have hlast : parse ⟨encode valued, nodes + 1⟩ =
      .ok ⟨encode (member.after ++ c :: rest), nodes + 1 + member.value.nodes⟩ := by
    rw [← hvalued]
    exact hparse _ _ (ends_append hafter hc rest) hcount'
  rw [hchars, skipWhitespace_complete hbefore (by decide), parseMember,
    bumpNode_ok_iff.mpr ⟨hbump, rfl⟩, ok_bind, ensure_head (by decide), ok_bind,
    parseString_complete hkey hkeyBytes, ok_bind, hcolon,
    (expect_ok_iff (by decide)).mpr ⟨_, rfl, rfl⟩, ok_bind, hskip, hlast]
  rw [Member.extent, Extent.keyed, Nat.add_assoc, Nat.add_comm 1]

theorem parseValue_succ (hc : c.toNat < 128) (hnodes : nodes + 1 ≤ limits.nodes)
    (chars : List Char) :
    (⟨encode (c :: chars), nodes⟩ : Parser).parseValue label limits (depth + 1) =
      let parser : Parser := ⟨encode (c :: chars), nodes + 1⟩
      let inner := Parser.parseValue label limits depth
      if ascii c = ascii '\x7b' then parser.parseObject label limits inner
      else if ascii c = ascii '[' then parser.parseArray label limits inner
      else if ascii c = ascii '"' then parser.parseString label limits
      else if ascii c = ascii 't' then parser.parseLiteral label "true"
      else if ascii c = ascii 'f' then parser.parseLiteral label "false"
      else if ascii c = ascii 'n' then parser.parseLiteral label "null"
      else if ascii c = ascii '-' || isDigit (ascii c) then parser.parseNumber label
      else .error (invalidError label "contains invalid JSON") := by
  rw [Parser.parseValue, bumpNode_ok_iff.mpr ⟨hnodes, rfl⟩, ok_bind]
  simp only [encode_ascii hc, List.head?_cons]

theorem parseArray_empty (hws : IsWs ws) (rest : List Char) :
    (⟨encode ('[' :: (ws ++ ']' :: rest)), nodes⟩ : Parser).parseArray label limits parse =
      .ok ⟨encode rest, nodes⟩ := by
  rw [Parser.parseArray, encode_ascii (by decide), List.tail_cons,
    skipWhitespace_complete hws (by decide), encode_ascii (by decide)]
  rfl

theorem parseObject_empty (hws : IsWs ws) (rest : List Char) :
    (⟨encode ('\x7b' :: (ws ++ '\x7d' :: rest)), nodes⟩ : Parser).parseObject label limits parse =
      .ok ⟨encode rest, nodes⟩ := by
  rw [Parser.parseObject, encode_ascii (by decide), List.tail_cons,
    skipWhitespace_complete hws (by decide), encode_ascii (by decide)]
  rfl

theorem parseArray_complete {elements : List Element} (hsome : elements ≠ [])
    (hspaced : ∀ e ∈ elements, e.Spaced) (hvalues : ∀ e ∈ elements, IsValue e.text e.extent)
    (hparse : ∀ e ∈ elements, Completes limits parse e.text e.extent)
    (hnodes : nodes + (Extent.together (elements.map Element.extent)).nodes ≤ limits.nodes)
    (hlength : elements.length ≤ limits.containerEntries) (rest : List Char) :
    (⟨encode ('[' :: (separated (elements.map Element.chars) ++ ']' :: rest)), nodes⟩ :
        Parser).parseArray label limits parse =
      .ok ⟨encode rest, nodes + (Extent.together (elements.map Element.extent)).nodes⟩ := by
  obtain ⟨chars, hchars⟩ : ∃ chars, separated (elements.map Element.chars) ++ ']' :: rest = chars :=
    ⟨_, rfl⟩
  have hopen : ¬ (⟨encode chars, nodes⟩ : Parser).skipWhitespace.rest.head? = some (ascii ']') := by
    cases elements with
    | nil => exact absurd rfl hsome
    | cons element others =>
      obtain ⟨first, behind, htext, hfirst, hopen⟩ := (hvalues element List.mem_cons_self).head
      obtain ⟨more, hmore⟩ := separated_cons element.chars (others.map Element.chars)
      have hstart : chars = element.before ++ first :: (behind ++ (element.after ++ (more ++
          ']' :: rest))) := by
        rw [← hchars, List.map_cons, hmore]
        simp [Element.chars, htext]
      rw [hstart, skipWhitespace_complete (hspaced element List.mem_cons_self).1 hfirst,
        head?_encode_iff (by decide)]
      rintro ⟨others, heq⟩
      exact hopen (List.cons_eq_cons.mp heq).1
  have hpasses : ∀ entry ∈ elements.map fun e => (e.chars, e.extent),
      Passes limits parse entry.1 entry.2 := by
    intro entry hentry
    obtain ⟨element, helement, rfl⟩ := List.mem_map.mp hentry
    exact element_passes (hspaced _ helement) (hvalues _ helement) (hparse _ helement)
  have hpassed : passEntries label ']' "contains invalid array syntax" parse limits.containerEntries
      (⟨encode (separated ((elements.map fun e => (e.chars, e.extent)).map Prod.fst) ++ ']' :: rest),
        nodes⟩ : Parser).skipWhitespace =
      .ok ⟨encode rest, nodes +
        (Extent.together ((elements.map fun e => (e.chars, e.extent)).map Prod.snd)).nodes⟩ := by
    refine passEntries_complete (by decide) (by decide) (by simpa using hsome) hpasses ?_
      (by simpa using hlength) rest
    rw [List.map_map]
    exact hnodes
  rw [List.map_map, List.map_map] at hpassed
  rw [Parser.parseArray, encode_ascii (by decide), List.tail_cons, hchars, if_neg hopen,
    parseElements_eq, ← hchars]
  exact hpassed

theorem parseObject_complete {members : List Member} (hsome : members ≠ [])
    (hspaced : ∀ m ∈ members, m.Spaced) (hkeys : ∀ m ∈ members, IsChars m.key)
    (hvalues : ∀ m ∈ members, IsValue m.text m.value)
    (hparse : ∀ m ∈ members, Completes limits parse m.text m.value)
    (hfits : ∀ m ∈ members, Fits limits depth m.extent)
    (hnodes : nodes + (Extent.together (members.map Member.extent)).nodes ≤ limits.nodes)
    (hlength : members.length ≤ limits.containerEntries) (rest : List Char) :
    (⟨encode ('\x7b' :: (separated (members.map Member.chars) ++ '\x7d' :: rest)), nodes⟩ :
        Parser).parseObject label limits parse =
      .ok ⟨encode rest, nodes + (Extent.together (members.map Member.extent)).nodes⟩ := by
  obtain ⟨chars, hchars⟩ : ∃ chars, separated (members.map Member.chars) ++ '\x7d' :: rest = chars :=
    ⟨_, rfl⟩
  have hopen : ¬ (⟨encode chars, nodes⟩ : Parser).skipWhitespace.rest.head? = some (ascii '\x7d') := by
    cases members with
    | nil => exact absurd rfl hsome
    | cons member others =>
      obtain ⟨more, hmore⟩ := separated_cons member.chars (others.map Member.chars)
      have hstart : ∃ behind, chars = member.before ++ '"' :: behind := by
        rw [← hchars, List.map_cons, hmore]
        simp [Member.chars, quoted]
      obtain ⟨behind, rfl⟩ := hstart
      rw [skipWhitespace_complete (hspaced member List.mem_cons_self).1 (by decide),
        head?_encode_iff (by decide)]
      rintro ⟨others, heq⟩
      cases heq
  have hpasses : ∀ entry ∈ members.map fun m => (m.chars, m.extent),
      Passes limits (parseMember label limits parse) entry.1 entry.2 := by
    intro entry hentry
    obtain ⟨member, hmember, rfl⟩ := List.mem_map.mp hentry
    exact member_passes (hspaced _ hmember) (hkeys _ hmember) (hvalues _ hmember) (hfits _ hmember)
      (hparse _ hmember)
  have hpassed : passEntries label '\x7d' "contains invalid object syntax"
      (parseMember label limits parse) limits.containerEntries
      (⟨encode (separated ((members.map fun m => (m.chars, m.extent)).map Prod.fst) ++ '\x7d' :: rest),
        nodes⟩ : Parser).skipWhitespace =
      .ok ⟨encode rest, nodes +
        (Extent.together ((members.map fun m => (m.chars, m.extent)).map Prod.snd)).nodes⟩ := by
    refine passEntries_complete (by decide) (by decide) (by simpa using hsome) hpasses ?_
      (by simpa using hlength) rest
    rw [List.map_map]
    exact hnodes
  rw [List.map_map, List.map_map] at hpassed
  rw [Parser.parseObject, encode_ascii (by decide), List.tail_cons, hchars, if_neg hopen,
    parseEntries_eq, ← hchars]
  exact hpassed

variable {extent : Extent}

theorem fits_of_mem {extents : List Extent} (hfits : Fits limits depth (.together extents))
    (hmem : extent ∈ extents) : Fits limits depth extent := by
  induction extents with
  | nil => cases hmem
  | cons first others ih =>
    obtain ⟨hfirst, hothers⟩ := fits_together_cons.mp hfits
    rcases List.mem_cons.mp hmem with rfl | hmem
    · exact hfirst
    · exact ih hothers hmem

theorem fits_value {member : Member} (hfits : Fits limits depth member.extent) :
    Fits limits depth member.value :=
  ⟨hfits.depth, hfits.entries, (Nat.max_le.mp hfits.stringBytes).2⟩

theorem parseValue_number {number rest : List Char} (hnumber : IsNumber number) (hrest : Ends rest)
    (hnodes : nodes + 1 ≤ limits.nodes) :
    (⟨encode (number ++ rest), nodes⟩ : Parser).parseValue label limits (depth + 1) =
      .ok ⟨encode rest, nodes + 1⟩ := by
  have hdone : (⟨encode (number ++ rest), nodes + 1⟩ : Parser).parseNumber label =
      .ok ⟨encode rest, nodes + 1⟩ := parseNumber_complete hnumber hrest
  obtain ⟨first, others, rfl, rfl | hdigit⟩ := isNumber_head hnumber
  · exact (parseValue_succ (by decide) hnodes _).trans hdone
  · have hascii := reads_digit.lt_of_own hdigit
    have hne : ∀ {c : Char}, c.toNat < 128 → c.isDigit = false → ascii first ≠ ascii c := by
      intro c hc hnodigit
      refine byte_ne_ascii hascii hc ?_
      rintro rfl
      rw [hnodigit] at hdigit
      cases hdigit
    have htest : isDigit (ascii first) = true := (reads_digit.ascii first hascii).trans hdigit
    rw [List.cons_append, parseValue_succ hascii hnodes]
    simp only [if_neg (hne (show '\x7b'.toNat < 128 by decide) (by decide)),
      if_neg (hne (show '['.toNat < 128 by decide) (by decide)),
      if_neg (hne (show '"'.toNat < 128 by decide) (by decide)),
      if_neg (hne (show 't'.toNat < 128 by decide) (by decide)),
      if_neg (hne (show 'f'.toNat < 128 by decide) (by decide)),
      if_neg (hne (show 'n'.toNat < 128 by decide) (by decide)), htest, Bool.or_true, if_true]
    exact hdone

theorem parseValue_complete {text : List Char} (hvalue : IsValue text extent)
    (hfits : Fits limits depth extent) :
    Completes limits (Parser.parseValue label limits depth) text extent := by
  intro rest nodes hrest hnodes
  induction hvalue generalizing depth rest nodes with
  | literal htext =>
    obtain ⟨depth, rfl⟩ := Nat.exists_eq_add_of_le' hfits.depth
    simp only [literals, List.mem_cons, List.not_mem_nil, or_false] at htext
    rcases htext with rfl | rfl | rfl
    · exact (parseValue_succ (by decide) hnodes _).trans
        ((parseLiteral_ok_iff (literal_ascii (by decide))).mpr ⟨rest, rfl, rfl⟩)
    · exact (parseValue_succ (by decide) hnodes _).trans
        ((parseLiteral_ok_iff (literal_ascii (by decide))).mpr ⟨rest, rfl, rfl⟩)
    · exact (parseValue_succ (by decide) hnodes _).trans
        ((parseLiteral_ok_iff (literal_ascii (by decide))).mpr ⟨rest, rfl, rfl⟩)
  | number hnumber =>
    obtain ⟨depth, rfl⟩ := Nat.exists_eq_add_of_le' hfits.depth
    exact parseValue_number hnumber hrest hnodes
  | string hchars =>
    obtain ⟨depth, rfl⟩ := Nat.exists_eq_add_of_le' hfits.depth
    rw [quoted, List.cons_append, List.append_assoc]
    exact (parseValue_succ (by decide) hnodes _).trans
      (parseString_complete hchars hfits.stringBytes rest)
  | @emptyArray ws hws =>
    obtain ⟨depth, rfl⟩ := Nat.exists_eq_add_of_le' hfits.depth
    rw [List.cons_append, List.append_assoc]
    exact (parseValue_succ (by decide) hnodes _).trans (parseArray_empty hws rest)
  | @array elements hsome hspaced hvalues ih =>
    obtain ⟨depth, rfl⟩ := Nat.exists_eq_add_of_le' (Nat.le_trans (Nat.le_add_left 1 _) hfits.depth)
    obtain ⟨hlength, hfits⟩ := fits_container_iff.mp hfits
    have hcount : nodes + 1 + (Extent.together (elements.map Element.extent)).nodes ≤ limits.nodes := by
      rw [Nat.add_right_comm]
      exact hnodes
    rw [List.cons_append, List.append_assoc]
    refine (parseValue_succ (by decide) (by omega) _).trans ((parseArray_complete hsome hspaced hvalues
      (fun e he rest nodes hrest hnodes => ih e he ?_ rest nodes hrest hnodes) hcount
      (by simpa using hlength) rest).trans ?_)
    · exact fits_of_mem hfits (List.mem_map_of_mem he)
    · exact congrArg (fun count => Except.ok (Parser.mk _ count)) (Nat.add_right_comm nodes 1 _)
  | emptyObject hws =>
    obtain ⟨depth, rfl⟩ := Nat.exists_eq_add_of_le' hfits.depth
    rw [List.cons_append, List.append_assoc]
    exact (parseValue_succ (by decide) hnodes _).trans (parseObject_empty hws rest)
  | @object members hsome hspaced hkeys hvalues ih =>
    obtain ⟨depth, rfl⟩ := Nat.exists_eq_add_of_le' (Nat.le_trans (Nat.le_add_left 1 _) hfits.depth)
    obtain ⟨hlength, hfits⟩ := fits_container_iff.mp hfits
    have hcount : nodes + 1 + (Extent.together (members.map Member.extent)).nodes ≤ limits.nodes := by
      rw [Nat.add_right_comm]
      exact hnodes
    have heach : ∀ m ∈ members, Fits limits depth m.extent :=
      fun m hm => fits_of_mem hfits (List.mem_map_of_mem hm)
    rw [List.cons_append, List.append_assoc]
    refine (parseValue_succ (by decide) (by omega) _).trans ((parseObject_complete hsome hspaced hkeys
      hvalues (fun m hm rest nodes hrest hnodes => ih m hm ?_ rest nodes hrest hnodes) heach hcount
      (by simpa using hlength) rest).trans ?_)
    · exact fits_value (heach m hm)
    · exact congrArg (fun count => Except.ok (Parser.mk _ count)) (Nat.add_right_comm nodes 1 _)

/-! ### Documents -/

/-- The character a value of the kind begins with. -/
def Root.opens : Root → Char
  | .object => '\x7b'
  | .array => '['

theorem Root.opening_eq (root : Root) : root.opens.toNat < 128 ∧ root.opening = ascii root.opens := by
  cases root <;> exact ⟨by decide, rfl⟩

theorem parseDocument_sound {root : Root}
    (hparse : parseDocument label root limits (encode chars) = .ok ()) :
    ∃ value extent, IsDocument chars value extent ∧ value.head? = some root.opens ∧
      extent.nodes ≤ limits.nodes ∧ Fits limits limits.depth extent := by
  obtain ⟨hascii, hopening⟩ := root.opening_eq
  obtain ⟨before, behind, rfl, hbefore, hskip⟩ := skipWhitespace_sound chars
  rw [parseDocument, hskip, hopening, ensure_bind_ok_iff] at hparse
  obtain ⟨hhead, hparse⟩ := hparse
  obtain ⟨others, hothers⟩ := (head?_encode_iff hascii behind).mp hhead
  obtain ⟨next, hnext, hparse⟩ := bind_ok_iff.mp hparse
  obtain ⟨value, rest, extent, rfl, hvalue, rfl, hnodes, hfits⟩ := parseValue_sound _ _ _ hnext
  obtain ⟨after, last, rfl, hafter, hskip⟩ := skipWhitespace_sound rest
  rw [hskip, ensure_ok_iff] at hparse
  have hlast : last = [] := by
    cases last with
    | nil => rfl
    | cons c last =>
      rcases encode_cons_cases c last with ⟨-, hbytes⟩ | ⟨-, first, rest, -, -, hbytes⟩ <;>
        cases hbytes.symm.trans hparse
  subst hlast
  refine ⟨value, extent, ⟨before, after, by simp, hbefore, hafter, hvalue⟩, ?_, by simpa using hnodes,
    hfits⟩
  obtain ⟨first, more, rfl, -⟩ := hvalue.head
  cases hothers
  rfl

theorem parseDocument_complete {root : Root} {chars value : List Char}
    (hdocument : IsDocument chars value extent) (hroot : value.head? = some root.opens)
    (hnodes : extent.nodes ≤ limits.nodes) (hfits : Fits limits limits.depth extent) :
    parseDocument label root limits (encode chars) = .ok () := by
  obtain ⟨hascii, hopening⟩ := root.opening_eq
  obtain ⟨before, after, rfl, hbefore, hafter, hvalue⟩ := hdocument
  have hends : Ends after := by
    cases after with
    | nil => rintro c ⟨⟩
    | cons first after => exact ends_cons (.inl (hafter first List.mem_cons_self)) after
  obtain ⟨first, others, htext, hfirst, -⟩ := hvalue.head
  have hskip : (⟨encode (before ++ (value ++ after)), 0⟩ : Parser).skipWhitespace =
      ⟨encode (value ++ after), 0⟩ := by
    rw [htext]
    exact skipWhitespace_complete hbefore hfirst _
  have hhead : (encode (value ++ after)).head? = some root.opening := by
    rw [hopening, head?_encode_iff hascii]
    refine ⟨others ++ after, ?_⟩
    rw [htext] at hroot ⊢
    cases hroot
    rfl
  have hparsed : (⟨encode (value ++ after), 0⟩ : Parser).parseValue label limits limits.depth =
      .ok ⟨encode after, 0 + extent.nodes⟩ :=
    parseValue_complete hvalue hfits after 0 hends (by simpa using hnodes)
  have hend : (⟨encode after, 0 + extent.nodes⟩ : Parser).skipWhitespace.rest = [] := by
    rw [skipWhitespace_encode, List.dropWhile_eq_nil_iff.mpr hafter]
    rfl
  rw [parseDocument, hskip, ensure_of hhead, ok_bind, hparsed, ok_bind, ensure_of hend]

/-- The preflight accepts the JSON values of the expected kind within the limits and no other text. What
it leaves behind a value is the text from a later character on, and the loop over a string ends. -/
theorem preflight_ok_iff (raw label : String) (root : Root) (limits : Limits) :
    (preflight raw label root limits = .ok () ↔
      ∃ value extent, IsDocument raw.toList value extent ∧ value.head? = some root.opens ∧
        raw.utf8ByteSize ≤ limits.bytes ∧ extent.depth ≤ limits.depth ∧ extent.nodes ≤ limits.nodes ∧
        extent.entries ≤ limits.containerEntries ∧ extent.stringBytes ≤ limits.stringBytes) ∧
      (∀ depth nodes chars next, chars <:+ raw.toList →
        (⟨encode chars, nodes⟩ : Parser).parseValue label limits depth = .ok next →
          ∃ rest, rest <:+ raw.toList ∧ next.rest = encode rest) ∧
      ∀ fuel passed bytes, bytes.length < fuel →
        parseStringBody label limits.stringBytes fuel passed bytes =
          parseStringBody label limits.stringBytes (bytes.length + 1) passed bytes := by
  refine ⟨⟨fun hpreflight => ?_, ?_⟩, fun depth nodes chars next hsuffix hparse => ?_,
    fun fuel passed bytes hfuel => parseStringBody_fuel hfuel (Nat.lt_succ_self _)⟩
  · obtain ⟨hbytes, hparse⟩ := ensure_bind_ok_iff.mp hpreflight
    rw [toUTF8_eq] at hparse
    obtain ⟨value, extent, hdocument, hroot, hnodes, hfits⟩ := parseDocument_sound hparse
    exact ⟨value, extent, hdocument, hroot, hbytes, hfits.depth, hnodes, hfits.entries,
      hfits.stringBytes⟩
  · rintro ⟨value, extent, hdocument, hroot, hbytes, hdepth, hnodes, hentries, hstring⟩
    rw [preflight, ensure_of hbytes, ok_bind, toUTF8_eq]
    exact parseDocument_complete hdocument hroot hnodes ⟨hdepth, hentries, hstring⟩
  · obtain ⟨text, rest, extent, rfl, -, rfl, -⟩ := parseValue_sound _ _ _ hparse
    exact ⟨rest, (List.suffix_append text rest).trans hsuffix, rfl⟩

end IronCrew.ConversationJson
