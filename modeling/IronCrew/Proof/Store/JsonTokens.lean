import IronCrew.Lib.JsonGrammar
import IronCrew.Lib.Utf8
import IronCrew.Store.ConversationJson

/-!
# Numbers and strings of conversation JSON

The recogniser reads the bytes of a text and tests them for ASCII characters only, so that it reads its
characters. The scanner of numbers takes off the front of a text what the grammar calls a number, and
takes it off whenever no character behind it could belong to it; the loop over a string stops behind the
quote that closes it.
-/

namespace IronCrew.ConversationJson

open JsonGrammar Outcome Utf8

variable {label : String} {limits : Limits}

/-! ### Tests -/

theorem reads_digit : Reads isDigit Char.isDigit where
  ascii := fun c hc => (reads_range (by decide) (by decide)).ascii c hc
  bytes := fun b hb => (reads_range (by decide) (by decide)).bytes b hb
  chars := fun c hc => (reads_range (by decide) (by decide)).chars c hc

theorem reads_ascii {c : Char} (hc : c.toNat < 128) :
    Reads (fun own => own = ascii c) (fun own => own = c) :=
  reads_eq hc

theorem reads_whitespace : Reads isWhitespace isWs :=
  ((reads_ascii (by decide)).or (reads_ascii (by decide))).or (reads_ascii (by decide)) |>.or
    (reads_ascii (by decide))

theorem reads_hexDigit : Reads isHexDigit JsonGrammar.isHexDigit :=
  (reads_digit.or (reads_range (by decide) (by decide))).or (reads_range (by decide) (by decide))

theorem reads_escape : Reads isEscape JsonGrammar.isEscape := by
  have hsplit : isEscape = fun own => own = ascii '"' || own = ascii '\\' || own = ascii '/' ||
      own = ascii 'b' || own = ascii 'f' || own = ascii 'n' || own = ascii 'r' || own = ascii 't' := by
    funext own
    simp [isEscape, Bool.or_assoc]
  rw [hsplit]
  exact ((((((((reads_ascii (by decide)).or (reads_ascii (by decide))).or (reads_ascii (by decide))).or
    (reads_ascii (by decide))).or (reads_ascii (by decide))).or (reads_ascii (by decide))).or
    (reads_ascii (by decide))).or (reads_ascii (by decide)))

theorem encode_ascii {c : Char} (hc : c.toNat < 128) (chars : List Char) :
    encode (c :: chars) = ascii c :: encode chars :=
  encode_cons_ascii hc chars

theorem byte_ne_ascii {c d : Char} (hc : c.toNat < 128) (hd : d.toNat < 128) (hne : c ≠ d) :
    byte c ≠ ascii d :=
  fun heq => hne (of_decide_eq_true (((reads_ascii hd).ascii c hc).symm.trans (decide_eq_true heq)))

theorem head?_encode_iff {c : Char} (hc : c.toNat < 128) (chars : List Char) :
    (encode chars).head? = some (ascii c) ↔ ∃ rest, chars = c :: rest := by
  constructor
  · intro hhead
    obtain ⟨bytes, hbytes⟩ : ∃ bytes, encode chars = ascii c :: bytes := by
      cases hencode : encode chars with
      | nil => rw [hencode] at hhead; cases hhead
      | cons first bytes =>
        rw [hencode] at hhead
        cases hhead
        exact ⟨bytes, rfl⟩
    obtain ⟨own, rest, rfl, hown, -⟩ := (reads_ascii hc).cons_of_test hbytes (by simp)
    exact ⟨rest, by rw [of_decide_eq_true hown]⟩
  · rintro ⟨rest, rfl⟩
    rw [encode_ascii hc]
    rfl

/-! ### Numbers -/

/-- No character comes that could belong to a number before it. -/
def Ends (rest : List Char) : Prop :=
  ∀ c ∈ rest.head?, c.isDigit = false ∧ c ≠ '.' ∧ c ≠ 'e' ∧ c ≠ 'E'

theorem consumeDigits_encode {digits rest : List Char} (hdigits : ∀ c ∈ digits, c.isDigit = true)
    (hrest : ∀ c ∈ rest.head?, c.isDigit = false) :
    consumeDigits (encode (digits ++ rest)) = encode rest := by
  rw [consumeDigits, reads_digit.dropWhile, List.dropWhile_append_of_pos hdigits]
  cases rest with
  | nil => rfl
  | cons c rest => rw [List.dropWhile_cons, if_neg (by simp [hrest c rfl])]

theorem consumeDigits_spec (chars : List Char) :
    ∃ digits rest, chars = digits ++ rest ∧ consumeDigits (encode chars) = encode rest ∧
      ∀ c ∈ digits, c.isDigit = true :=
  ⟨chars.takeWhile Char.isDigit, chars.dropWhile Char.isDigit, List.takeWhile_append_dropWhile.symm,
    reads_digit.dropWhile chars, fun _ hc => List.mem_takeWhile_imp hc⟩

variable {chars : List Char} {bytes : List UInt8} {step : Nat}

theorem digits?_sound (hscan : digits? (encode chars) = some bytes) :
    ∃ digits rest, chars = digits ++ rest ∧ bytes = encode rest ∧ IsDigits digits := by
  cases hencode : encode chars with
  | nil => rw [hencode] at hscan; cases hscan
  | cons first others =>
    rw [hencode, digits?] at hscan
    by_cases hdigit : isDigit first = true
    · obtain ⟨c, chars, rfl, hc, -, rfl⟩ := reads_digit.cons_of_test hencode hdigit
      rw [if_pos hdigit] at hscan
      obtain ⟨digits, rest, rfl, hconsumed, hdigits⟩ := consumeDigits_spec chars
      refine ⟨c :: digits, rest, rfl, ?_, List.cons_ne_nil _ _,
        List.forall_mem_cons.mpr ⟨hc, hdigits⟩⟩
      rw [← hconsumed]
      exact (Option.some.inj hscan).symm
    · rw [if_neg hdigit] at hscan
      cases hscan

theorem digits?_complete {digits rest : List Char} (hdigits : IsDigits digits)
    (hrest : ∀ c ∈ rest.head?, c.isDigit = false) :
    digits? (encode (digits ++ rest)) = some (encode rest) := by
  obtain ⟨hsome, hall⟩ := hdigits
  cases digits with
  | nil => exact absurd rfl hsome
  | cons c digits =>
    obtain ⟨hc, hdigits⟩ := List.forall_mem_cons.mp hall
    obtain ⟨hencode, htest⟩ := reads_digit.test_of_cons hc (digits ++ rest)
    rw [List.cons_append, hencode, digits?, if_pos htest, consumeDigits_encode hdigits hrest]

theorem integer?_sound (hscan : integer? (encode chars) = some bytes) :
    ∃ int rest, chars = int ++ rest ∧ bytes = encode rest ∧ IsInt int := by
  cases hencode : encode chars with
  | nil => rw [hencode] at hscan; cases hscan
  | cons first others =>
    rw [hencode, integer?] at hscan
    by_cases hzero : first = ascii '0'
    · obtain ⟨c, chars, rfl, hc, -, rfl⟩ :=
        (reads_ascii (c := '0') (by decide)).cons_of_test hencode (decide_eq_true hzero)
      rw [if_pos hzero] at hscan
      obtain rfl := of_decide_eq_true hc
      exact ⟨['0'], chars, rfl, (Option.some.inj hscan).symm, .zero⟩
    · rw [if_neg hzero] at hscan
      by_cases hdigit : isDigit first = true
      · obtain ⟨c, chars, rfl, hc, rfl, rfl⟩ := reads_digit.cons_of_test hencode hdigit
        rw [if_pos hdigit] at hscan
        obtain ⟨digits, rest, rfl, hconsumed, hdigits⟩ := consumeDigits_spec chars
        refine ⟨c :: digits, rest, rfl, ?_, .nonzero hc (fun hsame => ?_) hdigits⟩
        · rw [← hconsumed]
          exact (Option.some.inj hscan).symm
        · rw [hsame] at hzero
          exact hzero rfl
      · rw [if_neg hdigit] at hscan
        cases hscan

theorem integer?_complete {int rest : List Char} (hint : IsInt int)
    (hrest : ∀ c ∈ rest.head?, c.isDigit = false) :
    integer? (encode (int ++ rest)) = some (encode rest) := by
  cases hint with
  | zero =>
    rw [List.singleton_append, encode_ascii (by decide), integer?, if_pos rfl]
  | @nonzero c digits hc hzero hdigits =>
    obtain ⟨hencode, htest⟩ := reads_digit.test_of_cons hc (digits ++ rest)
    have hnonzero : byte c ≠ ascii '0' :=
      byte_ne_ascii (reads_digit.lt_of_own hc) (by decide) hzero
    rw [List.cons_append, hencode, integer?, if_neg hnonzero, if_pos htest,
      consumeDigits_encode hdigits hrest]

theorem fraction?_sound (hscan : fraction? (encode chars) = some bytes) :
    ∃ frac rest, chars = frac ++ rest ∧ bytes = encode rest ∧ IsFrac frac := by
  cases hencode : encode chars with
  | nil =>
    rw [hencode] at hscan
    cases hscan
    exact ⟨[], chars, rfl, hencode.symm, .none⟩
  | cons first others =>
    rw [hencode, fraction?] at hscan
    by_cases hdot : first = ascii '.'
    · obtain ⟨c, chars, rfl, hc, -, rfl⟩ :=
        (reads_ascii (c := '.') (by decide)).cons_of_test hencode (decide_eq_true hdot)
      rw [if_pos hdot] at hscan
      obtain rfl := of_decide_eq_true hc
      obtain ⟨digits, rest, rfl, rfl, hdigits⟩ := digits?_sound hscan
      exact ⟨'.' :: digits, rest, rfl, rfl, .some hdigits⟩
    · rw [if_neg hdot] at hscan
      exact ⟨[], chars, rfl, by rw [hencode]; exact (Option.some.inj hscan).symm, .none⟩

theorem fraction?_complete {frac rest : List Char} (hfrac : IsFrac frac)
    (hrest : ∀ c ∈ rest.head?, c.isDigit = false ∧ c ≠ '.') :
    fraction? (encode (frac ++ rest)) = some (encode rest) := by
  cases hfrac with
  | none =>
    rw [List.nil_append]
    have hdot : ∀ first ∈ (encode rest).head?, decide (first = ascii '.') = false :=
      (reads_ascii (by decide)).head_false fun c hc => decide_eq_false (hrest c hc).2
    cases hencode : encode rest with
    | nil => rfl
    | cons first others =>
      have hfirst := hdot first (by rw [hencode]; rfl)
      rw [fraction?, if_neg (of_decide_eq_false hfirst)]
  | some hdigits =>
    rw [List.cons_append, encode_ascii (by decide), fraction?, if_pos rfl,
      digits?_complete hdigits fun c hc => (hrest c hc).1]

theorem exponent?_cons (first : UInt8) (bytes : List UInt8) :
    exponent? (first :: bytes) =
      if first = ascii 'e' ∨ first = ascii 'E' then
        if bytes.head? = some (ascii '+') ∨ bytes.head? = some (ascii '-') then digits? bytes.tail
        else digits? bytes
      else some (first :: bytes) := by
  cases bytes with
  | nil => simp [exponent?, digits?]
  | cons sign unsigned => simp [exponent?]

theorem exponent?_sound (hscan : exponent? (encode chars) = some bytes) :
    ∃ exp rest, chars = exp ++ rest ∧ bytes = encode rest ∧ IsExp exp := by
  cases hencode : encode chars with
  | nil =>
    rw [hencode] at hscan
    cases hscan
    exact ⟨[], chars, rfl, hencode.symm, .none⟩
  | cons first others =>
    rw [hencode, exponent?_cons] at hscan
    by_cases he : first = ascii 'e' ∨ first = ascii 'E'
    · rw [if_pos he] at hscan
      obtain ⟨e, after, rfl, hown, -, rfl⟩ :=
        ((reads_ascii (c := 'e') (by decide)).or (reads_ascii (c := 'E') (by decide))).cons_of_test
          hencode (by simpa using he)
      have hletter : e = 'e' ∨ e = 'E' := by simpa using hown
      by_cases hsign : (encode after).head? = some (ascii '+') ∨
          (encode after).head? = some (ascii '-')
      · rw [if_pos hsign] at hscan
        rcases hsign with hplus | hminus
        · obtain ⟨unsigned, rfl⟩ := (head?_encode_iff (by decide) after).mp hplus
          rw [encode_ascii (by decide), List.tail_cons] at hscan
          obtain ⟨digits, rest, rfl, rfl, hdigits⟩ := digits?_sound hscan
          exact ⟨e :: (['+'] ++ digits), rest, rfl, rfl, .some hletter (.inr (.inl rfl)) hdigits⟩
        · obtain ⟨unsigned, rfl⟩ := (head?_encode_iff (by decide) after).mp hminus
          rw [encode_ascii (by decide), List.tail_cons] at hscan
          obtain ⟨digits, rest, rfl, rfl, hdigits⟩ := digits?_sound hscan
          exact ⟨e :: (['-'] ++ digits), rest, rfl, rfl, .some hletter (.inr (.inr rfl)) hdigits⟩
      · rw [if_neg hsign] at hscan
        obtain ⟨digits, rest, rfl, rfl, hdigits⟩ := digits?_sound hscan
        exact ⟨e :: ([] ++ digits), rest, rfl, rfl, .some hletter (.inl rfl) hdigits⟩
    · rw [if_neg he] at hscan
      exact ⟨[], chars, rfl, by rw [hencode]; exact (Option.some.inj hscan).symm, .none⟩

theorem exponent?_complete {exp rest : List Char} (hexp : IsExp exp)
    (hrest : ∀ c ∈ rest.head?, c.isDigit = false ∧ c ≠ 'e' ∧ c ≠ 'E') :
    exponent? (encode (exp ++ rest)) = some (encode rest) := by
  have hnodigit : ∀ c ∈ rest.head?, c.isDigit = false := fun c hc => (hrest c hc).1
  cases hexp with
  | none =>
    rw [List.nil_append]
    have hletter : ∀ first ∈ (encode rest).head?,
        (decide (first = ascii 'e') || decide (first = ascii 'E')) = false :=
      ((reads_ascii (by decide)).or (reads_ascii (by decide))).head_false fun c hc => by
        simpa using (hrest c hc).2
    cases hencode : encode rest with
    | nil => rfl
    | cons first others =>
      have hfirst := hletter first (by rw [hencode]; rfl)
      rw [exponent?_cons, if_neg (by simpa using hfirst)]
  | @some e sign digits he hsign hdigits =>
    have hstart : encode (e :: (sign ++ digits) ++ rest) =
        ascii e :: encode (sign ++ (digits ++ rest)) := by
      rw [List.cons_append, List.append_assoc, encode_ascii (by rcases he with rfl | rfl <;> decide)]
    have hletter : ascii e = ascii 'e' ∨ ascii e = ascii 'E' := by
      rcases he with rfl | rfl
      · exact .inl rfl
      · exact .inr rfl
    have hdone := digits?_complete hdigits hnodigit
    rw [hstart, exponent?_cons, if_pos hletter]
    rcases hsign with rfl | rfl | rfl
    · rw [List.nil_append, if_neg, hdone]
      simp only [head?_encode_iff (show '+'.toNat < 128 by decide),
        head?_encode_iff (show '-'.toNat < 128 by decide)]
      obtain ⟨hsome, hall⟩ := hdigits
      cases digits with
      | nil => exact absurd rfl hsome
      | cons first others =>
        have hfirst := hall first List.mem_cons_self
        rintro (⟨unsigned, heq⟩ | ⟨unsigned, heq⟩) <;> cases heq <;> revert hfirst <;> decide
    · rw [List.singleton_append, encode_ascii (by decide), if_pos (.inl rfl), List.tail_cons, hdone]
    · rw [List.singleton_append, encode_ascii (by decide), if_pos (.inr rfl), List.tail_cons, hdone]

theorem scanNumber_sound (hscan : scanNumber (encode chars) = some bytes) :
    ∃ number rest, chars = number ++ rest ∧ bytes = encode rest ∧ IsNumber number := by
  have hminus : ∃ minus unsigned, chars = minus ++ unsigned ∧ (minus = [] ∨ minus = ['-']) ∧
      (if (encode chars).head? = some (ascii '-') then (encode chars).tail else encode chars) =
        encode unsigned := by
    by_cases hsign : (encode chars).head? = some (ascii '-')
    · obtain ⟨rest, rfl⟩ := (head?_encode_iff (by decide) chars).mp hsign
      refine ⟨['-'], rest, rfl, .inr rfl, ?_⟩
      rw [if_pos hsign, encode_ascii (by decide), List.tail_cons]
    · exact ⟨[], chars, rfl, .inl rfl, if_neg hsign⟩
  obtain ⟨minus, unsigned, rfl, hsign, hunsigned⟩ := hminus
  rw [scanNumber, hunsigned] at hscan
  obtain ⟨afterInt, hinteger, hscan⟩ := Option.bind_eq_some_iff.mp hscan
  obtain ⟨int, rest, rfl, rfl, hint⟩ := integer?_sound hinteger
  obtain ⟨afterFrac, hfraction, hscan⟩ := Option.bind_eq_some_iff.mp hscan
  obtain ⟨frac, rest, rfl, rfl, hfrac⟩ := fraction?_sound hfraction
  obtain ⟨exp, rest, rfl, rfl, hexp⟩ := exponent?_sound hscan
  exact ⟨minus ++ (int ++ (frac ++ exp)), rest, by simp only [List.append_assoc], rfl,
    minus, int, frac, exp, rfl, hsign, hint, hfrac, hexp⟩
theorem scanNumber_complete {number rest : List Char} (hnumber : IsNumber number)
    (hrest : Ends rest) : scanNumber (encode (number ++ rest)) = some (encode rest) := by
  obtain ⟨minus, int, frac, exp, rfl, hminus, hint, hfrac, hexp⟩ := hnumber
  have hbehindExp : exponent? (encode (exp ++ rest)) = some (encode rest) :=
    exponent?_complete hexp fun c hc => ⟨(hrest c hc).1, (hrest c hc).2.2⟩
  have hbehindFrac : fraction? (encode (frac ++ (exp ++ rest))) = some (encode (exp ++ rest)) := by
    refine fraction?_complete hfrac fun c hc => ?_
    cases hexp with
    | none => exact ⟨(hrest c hc).1, (hrest c hc).2.1⟩
    | some he hsign hdigits =>
      cases hc
      rcases he with rfl | rfl <;> decide
  have hbehindInt : integer? (encode (int ++ (frac ++ (exp ++ rest)))) =
      some (encode (frac ++ (exp ++ rest))) := by
    refine integer?_complete hint fun c hc => ?_
    cases hfrac with
    | some hdigits => cases hc; decide
    | none =>
      cases hexp with
      | none => exact (hrest c hc).1
      | some he hsign hdigits =>
        cases hc
        rcases he with rfl | rfl <;> decide
  have hunsigned : ∀ unsigned, integer? unsigned = some (encode (frac ++ (exp ++ rest))) →
      (do
        let bytes ← integer? unsigned
        let bytes ← fraction? bytes
        exponent? bytes) = some (encode rest) := by
    intro unsigned hinteger
    simp only [hinteger, hbehindFrac, hbehindExp, Option.bind_eq_bind, Option.bind_some]
  rw [scanNumber]
  refine hunsigned _ ?_
  rcases hminus with rfl | rfl
  · rw [if_neg, List.nil_append]
    · simpa only [List.append_assoc] using hbehindInt
    · rw [head?_encode_iff (by decide)]
      rintro ⟨others, heq⟩
      cases hint with
      | zero => cases heq
      | nonzero hfirst hzero hothers =>
        cases heq
        revert hfirst
        decide
  · rw [List.singleton_append, List.cons_append, encode_ascii (by decide), List.head?_cons, if_pos rfl,
      List.tail_cons]
    simpa only [List.append_assoc] using hbehindInt

/-! ### Strings -/

theorem stringStep_quote (bytes : List UInt8) :
    stringStep label (ascii '"' :: bytes) = .ok none := by
  cases bytes <;> rfl

theorem stringStep_plain {byte : UInt8} (hquote : byte ≠ ascii '"') (hslash : byte ≠ ascii '\\')
    (hcontrol : ¬ byte < 0x20) (bytes : List UInt8) :
    stringStep label (byte :: bytes) = .ok (some (bytes, 1)) := by
  cases bytes <;> simp only [stringStep, if_neg hquote, if_neg hslash, if_neg hcontrol]

theorem stringStep_escape (escape : UInt8) (bytes : List UInt8) :
    stringStep label (ascii '\\' :: escape :: bytes) =
      if escape = ascii 'u' then
        if 4 ≤ bytes.length ∧ (bytes.take 4).all isHexDigit then .ok (some (bytes.drop 4, 6))
        else .error (invalidError label "contains an invalid Unicode escape")
      else if isEscape escape then .ok (some (bytes, 2))
      else .error (invalidError label "contains an invalid string escape") := by
  have hquote : ¬ ascii '\\' = ascii '"' := by decide
  simp only [stringStep, if_neg hquote, if_true]

theorem stringStep_high {byte : UInt8} (hbyte : 128 ≤ byte) (bytes : List UInt8) :
    stringStep label (byte :: bytes) = .ok (some (bytes, 1)) := by
  have hlow : ∀ {own : UInt8}, own < 128 → byte ≠ own := by
    rintro own hown rfl
    exact absurd (UInt8.lt_of_lt_of_le hown hbyte) (UInt8.lt_irrefl _)
  refine stringStep_plain (hlow (by decide)) (hlow (by decide)) (fun hcontrol => ?_) bytes
  exact absurd (UInt8.lt_of_lt_of_le (UInt8.lt_trans hcontrol (by decide)) hbyte) (UInt8.lt_irrefl _)

theorem byteSize_of_ascii {text : List Char} (htext : ∀ c ∈ text, c.toNat < 128) :
    byteSize text = text.length := by
  induction text with
  | nil => rfl
  | cons c text ih =>
    obtain ⟨hc, htext⟩ := List.forall_mem_cons.mp htext
    have hrest := ih htext
    simp only [byteSize, List.map_cons, List.sum_cons, List.length_cons,
      utf8Size_of_ascii hc] at hrest ⊢
    omega

theorem stringStep_escape_sound {after : List UInt8}
    (hstep : stringStep label (ascii '\\' :: encode chars) = .ok (some (after, step))) :
    ∃ text rest, chars = text ++ rest ∧ after = encode rest ∧ step = byteSize ('\\' :: text) ∧
      ∀ body, IsChars body → IsChars ('\\' :: text ++ body) := by
  cases hbytes : encode chars with
  | nil => rw [hbytes] at hstep; cases hstep
  | cons escape bytes =>
    rw [hbytes, stringStep_escape] at hstep
    by_cases hu : escape = ascii 'u'
    · obtain ⟨c, others, rfl, hc, -, rfl⟩ :=
        (reads_ascii (c := 'u') (by decide)).cons_of_test hbytes (decide_eq_true hu)
      obtain rfl := of_decide_eq_true hc
      rw [if_pos hu] at hstep
      by_cases hhex : 4 ≤ (encode others).length ∧ ((encode others).take 4).all isHexDigit = true
      · rw [if_pos hhex] at hstep
        cases hstep
        obtain ⟨hex, rest, rfl, hlength, hdigits, hdrop⟩ := reads_hexDigit.take_of_all hhex.1 hhex.2
        refine ⟨'u' :: hex, rest, rfl, hdrop, ?_, fun body hbody => ?_⟩
        · rw [byteSize_of_ascii, List.length_cons, List.length_cons, hlength]
          refine List.forall_mem_cons.mpr ⟨by decide, List.forall_mem_cons.mpr ⟨by decide, ?_⟩⟩
          exact fun c hc => reads_hexDigit.lt_of_own (hdigits c hc)
        · exact .unicode hlength hdigits hbody
      · rw [if_neg hhex] at hstep
        cases hstep
    · rw [if_neg hu] at hstep
      by_cases hescape : isEscape escape = true
      · rw [if_pos hescape] at hstep
        cases hstep
        obtain ⟨c, others, rfl, hc, -, rfl⟩ := reads_escape.cons_of_test hbytes hescape
        refine ⟨[c], others, rfl, rfl, ?_, fun body hbody => .escape hc hbody⟩
        rw [byteSize_of_ascii]
        · rfl
        · exact List.forall_mem_cons.mpr ⟨by decide,
            List.forall_mem_cons.mpr ⟨reads_escape.lt_of_own hc, by simp⟩⟩
      · rw [if_neg hescape] at hstep
        cases hstep

theorem stringStep_sound {after : List UInt8}
    (hstep : stringStep label (encode chars) = .ok (some (after, step))) :
    ∃ text rest front, chars = text ++ rest ∧ after = front ++ encode rest ∧
      (∀ byte ∈ front, 128 ≤ byte) ∧ step + front.length = byteSize text ∧
      ∀ body, IsChars body → IsChars (text ++ body) := by
  cases chars with
  | nil => cases hstep
  | cons c others =>
    rcases encode_cons_cases c others with ⟨hc, hbytes⟩ | ⟨hc, first, front, hchar, hfirst, hbytes⟩
    · rw [hbytes] at hstep
      by_cases hquote : c = '"'
      · rw [hquote] at hstep
        have hnone : stringStep label (ascii '"' :: encode others) = .ok none := stringStep_quote _
        cases hnone.symm.trans hstep
      by_cases hslash : c = '\\'
      · rw [hslash] at hstep
        obtain ⟨text, rest, rfl, rfl, rfl, hbody⟩ := stringStep_escape_sound hstep
        exact ⟨'\\' :: text, rest, [], by rw [hslash]; rfl, rfl, by simp, rfl, hbody⟩
      have hnoquote := byte_ne_ascii hc (by decide) hquote
      have hnoslash := byte_ne_ascii hc (by decide) hslash
      by_cases hcontrol : byte c < 0x20
      · exfalso
        revert hstep
        cases others <;> simp [stringStep, hnoquote, hnoslash, hcontrol]
      rw [stringStep_plain hnoquote hnoslash hcontrol] at hstep
      cases hstep
      refine ⟨[c], others, [], rfl, rfl, by simp, ?_, fun body hbody => .unescaped ?_ hbody⟩
      · rw [byteSize_of_ascii (by simpa using hc)]
        rfl
      · rw [UInt8.lt_iff_toNat_lt, toNat_byte hc] at hcontrol
        simp only [isUnescaped, Bool.and_eq_true, decide_eq_true_eq]
        exact ⟨⟨Nat.not_lt.mp hcontrol, hquote⟩, hslash⟩
    · rw [hbytes, stringStep_high hfirst] at hstep
      cases hstep
      have hsize : front.length + 1 = c.utf8Size := by
        rw [← String.length_utf8EncodeChar, hchar, List.length_cons]
      refine ⟨[c], others, front, rfl, rfl, fun byte hmem => ?_, ?_, fun body hbody => ?_⟩
      · exact le_of_mem_utf8EncodeChar hc byte (by rw [hchar]; exact List.mem_cons_of_mem _ hmem)
      · simp only [byteSize, List.map_cons, List.map_nil, List.sum_cons, List.sum_nil]
        omega
      · refine .unescaped ?_ hbody
        have hother : ∀ {d : Char}, d.toNat < 128 → c ≠ d := by
          rintro d hd rfl
          exact absurd hd (Nat.not_lt.mpr hc)
        simp only [isUnescaped, Bool.and_eq_true, decide_eq_true_eq, ne_eq]
        exact ⟨⟨by omega, hother (by decide)⟩, hother (by decide)⟩

theorem stringStep_none (hstep : stringStep label (encode chars) = .ok none) :
    ∃ rest, chars = '"' :: rest := by
  refine (head?_encode_iff (by decide) chars).mp ?_
  cases hbytes : encode chars with
  | nil => rw [hbytes] at hstep; cases hstep
  | cons byte bytes =>
    rw [hbytes] at hstep
    by_cases hquote : byte = ascii '"'
    · rw [hquote, List.head?_cons]
    by_cases hslash : byte = ascii '\\'
    · cases bytes with
      | nil => rw [hslash] at hstep; cases hstep
      | cons escape bytes =>
        rw [hslash, stringStep_escape] at hstep
        split_ifs at hstep <;> cases hstep
    by_cases hcontrol : byte < 0x20
    · revert hstep
      cases bytes <;> simp [stringStep, hquote, hslash, hcontrol]
    rw [stringStep_plain hquote hslash hcontrol] at hstep
    cases hstep

theorem stringStep_length {bytes after : List UInt8}
    (hstep : stringStep label bytes = .ok (some (after, step))) : after.length < bytes.length := by
  cases bytes with
  | nil => cases hstep
  | cons byte bytes =>
    by_cases hquote : byte = ascii '"'
    · rw [hquote, stringStep_quote] at hstep
      cases hstep
    by_cases hslash : byte = ascii '\\'
    · cases bytes with
      | nil => rw [hslash] at hstep; cases hstep
      | cons escape bytes =>
        rw [hslash, stringStep_escape] at hstep
        split_ifs at hstep <;> cases hstep
        · simp only [List.length_drop, List.length_cons]
          omega
        · simp only [List.length_cons]
          omega
    by_cases hcontrol : byte < 0x20
    · revert hstep
      cases bytes <;> simp [stringStep, hquote, hslash, hcontrol]
    rw [stringStep_plain hquote hslash hcontrol] at hstep
    cases hstep
    exact Nat.lt_succ_self _

variable {limit fuel passed : Nat}

theorem parseStringBody_succ (bytes : List UInt8) :
    parseStringBody label limit (fuel + 1) passed bytes =
      match stringStep label bytes with
      | .error error => .error error
      | .ok none => .ok bytes.tail
      | .ok (some (after, step)) =>
        if passed + step ≤ limit then parseStringBody label limit fuel (passed + step) after
        else .error (limitError label "string-byte") := by
  rw [parseStringBody]
  cases hstep : stringStep label bytes with
  | error error => rfl
  | ok next =>
    rcases next with _ | ⟨after, step⟩
    · rfl
    · simp only [ok_bind]
      by_cases hfits : passed + step ≤ limit
      · rw [ensure_of hfits, if_pos hfits, ok_bind]
      · rw [ensure, if_neg hfits, if_neg hfits, error_bind]

theorem parseStringBody_fuel {fuel' : Nat} (hfuel : bytes.length < fuel)
    (hfuel' : bytes.length < fuel') :
    parseStringBody label limit fuel passed bytes = parseStringBody label limit fuel' passed bytes := by
  induction fuel generalizing fuel' passed bytes with
  | zero => cases hfuel
  | succ fuel ih =>
    cases fuel' with
    | zero => cases hfuel'
    | succ fuel' =>
      rw [parseStringBody_succ, parseStringBody_succ]
      cases hstep : stringStep label bytes with
      | error error => rfl
      | ok next =>
        rcases next with _ | ⟨after, step⟩
        · rfl
        · have hshorter := stringStep_length hstep
          have hsame : parseStringBody label limit fuel (passed + step) after =
              parseStringBody label limit fuel' (passed + step) after :=
            ih (by omega) (by omega)
          simp only [hsame]

theorem parseStringBody_sound {front bytes : List UInt8}
    (hfront : ∀ byte ∈ front, 128 ≤ byte) (hpassed : passed ≤ limit)
    (hparse : parseStringBody label limit fuel passed (front ++ encode chars) = .ok bytes) :
    ∃ body rest, chars = body ++ '"' :: rest ∧ bytes = encode rest ∧ IsChars body ∧
      passed + front.length + byteSize body ≤ limit := by
  induction fuel generalizing passed front chars with
  | zero => cases hparse
  | succ fuel ih =>
    rw [parseStringBody_succ] at hparse
    cases front with
    | cons byte front =>
      obtain ⟨hbyte, hfront⟩ := List.forall_mem_cons.mp hfront
      rw [List.cons_append, stringStep_high hbyte] at hparse
      simp only at hparse
      split_ifs at hparse with hfits
      obtain ⟨body, rest, hchars, hbytes, hbody, hsize⟩ := ih hfront hfits hparse
      refine ⟨body, rest, hchars, hbytes, hbody, ?_⟩
      rw [List.length_cons]
      omega
    | nil =>
      rw [List.nil_append] at hparse
      cases hstep : stringStep label (encode chars) with
      | error error => rw [hstep] at hparse; cases hparse
      | ok next =>
        rw [hstep] at hparse
        rcases next with _ | ⟨after, step⟩
        · obtain ⟨rest, rfl⟩ := stringStep_none hstep
          rw [encode_ascii (by decide)] at hparse
          cases hparse
          exact ⟨[], rest, rfl, rfl, .nil, hpassed⟩
        · simp only at hparse
          split_ifs at hparse with hfits
          obtain ⟨text, rest, front, rfl, rfl, hfront, hsize, htext⟩ := stringStep_sound hstep
          obtain ⟨body, rest, rfl, rfl, hbody, hfit⟩ := ih hfront hfits hparse
          refine ⟨text ++ body, rest, (List.append_assoc _ _ _).symm, rfl, htext body hbody, ?_⟩
          rw [List.length_nil, byteSize_append]
          omega

theorem parseStringBody_step {bytes after : List UInt8} (hfuel : bytes.length < fuel)
    (hstep : stringStep label bytes = .ok (some (after, step))) (hfits : passed + step ≤ limit) :
    parseStringBody label limit fuel passed bytes =
      parseStringBody label limit fuel (passed + step) after := by
  have hshorter := stringStep_length hstep
  cases fuel with
  | zero => cases hfuel
  | succ fuel =>
    rw [parseStringBody_succ, hstep]
    simp only [if_pos hfits]
    exact parseStringBody_fuel (by omega) (by omega)

theorem parseStringBody_high {front bytes : List UInt8} (hfront : ∀ byte ∈ front, 128 ≤ byte)
    (hfuel : (front ++ bytes).length < fuel) (hfits : passed + front.length ≤ limit) :
    parseStringBody label limit fuel passed (front ++ bytes) =
      parseStringBody label limit fuel (passed + front.length) bytes := by
  induction front generalizing passed with
  | nil => rfl
  | cons byte front ih =>
    obtain ⟨hbyte, hfront⟩ := List.forall_mem_cons.mp hfront
    rw [List.cons_append, List.length_cons] at hfuel
    rw [List.length_cons] at hfits ⊢
    rw [List.cons_append, parseStringBody_step (by rw [List.length_cons]; exact hfuel)
      (stringStep_high hbyte _) (by omega), ih hfront (by omega) (by omega)]
    congr 1
    omega

theorem parseStringBody_complete {body rest : List Char} (hbody : IsChars body)
    (hfuel : (encode (body ++ '"' :: rest)).length < fuel) (hfits : passed + byteSize body ≤ limit) :
    parseStringBody label limit fuel passed (encode (body ++ '"' :: rest)) = .ok (encode rest) := by
  induction hbody generalizing passed with
  | nil =>
    cases fuel with
    | zero => cases hfuel
    | succ fuel =>
      rw [List.nil_append, encode_ascii (by decide), parseStringBody_succ, stringStep_quote]
      rfl
  | @unescaped c body hc hbody ih =>
    simp only [isUnescaped, Bool.and_eq_true, decide_eq_true_eq] at hc
    obtain ⟨⟨hcontrol, hquote⟩, hslash⟩ := hc
    have hsize : byteSize (c :: body) = c.utf8Size + byteSize body := rfl
    rw [List.cons_append] at hfuel ⊢
    rcases encode_cons_cases c (body ++ '"' :: rest) with
      ⟨hc, hbytes⟩ | ⟨hc, first, front, hchar, hfirst, hbytes⟩
    · have hplain : ¬ byte c < 0x20 := by
        rw [UInt8.lt_iff_toNat_lt, toNat_byte hc]
        exact Nat.not_lt.mpr hcontrol
      rw [utf8Size_of_ascii hc] at hsize
      rw [hbytes] at hfuel ⊢
      rw [List.length_cons] at hfuel
      rw [parseStringBody_step (by rw [List.length_cons]; exact hfuel)
        (stringStep_plain (byte_ne_ascii hc (by decide) hquote) (byte_ne_ascii hc (by decide) hslash)
          hplain _) (by omega)]
      exact ih (by omega) (by omega)
    · have hchars : encode (c :: (body ++ '"' :: rest)) =
          (first :: front) ++ encode (body ++ '"' :: rest) := hbytes
      have hlength : (first :: front).length = c.utf8Size := by
        rw [← String.length_utf8EncodeChar, hchar]
      rw [hchars] at hfuel ⊢
      rw [parseStringBody_high ?_ hfuel (by omega), hlength]
      · rw [List.length_append] at hfuel
        exact ih (by omega) (by omega)
      · intro byte hmem
        exact le_of_mem_utf8EncodeChar hc byte (by rw [hchar]; exact hmem)
  | @escape c body hc hbody ih =>
    obtain ⟨hencode, htest⟩ := reads_escape.test_of_cons hc (body ++ '"' :: rest)
    have hascii := reads_escape.lt_of_own hc
    have hsize : byteSize ('\\' :: c :: body) = byteSize ['\\', c] + byteSize body :=
      byteSize_append ['\\', c] body
    have hpair : byteSize ['\\', c] = 2 :=
      byteSize_of_ascii (List.forall_mem_cons.mpr ⟨by decide, by simpa using hascii⟩)
    have hbytes : encode ('\\' :: c :: body ++ '"' :: rest) =
        ascii '\\' :: byte c :: encode (body ++ '"' :: rest) := by
      rw [List.cons_append, List.cons_append, encode_ascii (by decide), hencode]
    have hu : byte c ≠ ascii 'u' := by
      intro heq
      rw [heq] at htest
      revert htest
      decide
    rw [hbytes] at hfuel ⊢
    simp only [List.length_cons] at hfuel
    rw [parseStringBody_step (by simp only [List.length_cons]; exact hfuel)
      (by rw [stringStep_escape, if_neg hu, if_pos htest]) (by omega)]
    exact ih (by omega) (by omega)
  | @unicode hex body hlength hhex hbody ih =>
    obtain ⟨digits, hencode, hdigits, hall⟩ := reads_hexDigit.take_append hhex (body ++ '"' :: rest)
    rw [hlength] at hdigits
    have hsize : byteSize ('\\' :: 'u' :: (hex ++ body)) =
        byteSize ('\\' :: 'u' :: hex) + byteSize body :=
      byteSize_append ('\\' :: 'u' :: hex) body
    have hunit : byteSize ('\\' :: 'u' :: hex) = 6 := by
      rw [byteSize_of_ascii, List.length_cons, List.length_cons, hlength]
      refine List.forall_mem_cons.mpr ⟨by decide, List.forall_mem_cons.mpr ⟨by decide, ?_⟩⟩
      exact fun c hc => reads_hexDigit.lt_of_own (hhex c hc)
    have hbytes : encode ('\\' :: 'u' :: (hex ++ body) ++ '"' :: rest) =
        ascii '\\' :: ascii 'u' :: (digits ++ encode (body ++ '"' :: rest)) := by
      rw [List.cons_append, List.cons_append, encode_ascii (by decide), encode_ascii (by decide),
        List.append_assoc, hencode]
    rw [hbytes] at hfuel ⊢
    have hstep : stringStep label
        (ascii '\\' :: ascii 'u' :: (digits ++ encode (body ++ '"' :: rest))) =
          .ok (some (encode (body ++ '"' :: rest), 6)) := by
      rw [stringStep_escape, if_pos rfl, List.take_left' hdigits, List.drop_left' hdigits, if_pos]
      exact ⟨by rw [List.length_append, hdigits]; exact Nat.le_add_right _ _, hall⟩
    rw [parseStringBody_step hfuel hstep (by omega)]
    simp only [List.length_cons, List.length_append] at hfuel
    exact ih (by omega) (by omega)

end IronCrew.ConversationJson
