import IronCrew.Engine.AppDb.SqlSplit
import IronCrew.Lib.SqlLexer
import IronCrew.Lib.Utf8
import Mathlib.Data.List.Infix
import Mathlib.Data.List.TakeWhile

/-!
# The splitter against the lexer

The splitter is compared with a lexer for SQL, token by token: from a state between two tokens it reads
the text of the next token and is again between two tokens. What it does not know are quoted identifiers,
escapes with a backslash, comments in comments, words with dollar signs, tags with letters outside ASCII,
numbers beyond the word size and lone carriage returns; a token of these kinds is understood when
nothing in it looks like something else.
-/

namespace IronCrew

open SqlLexer

namespace SqlSplit

/-! ### What the splitter understands -/

def Doubled : List Char → Bool
  | [] => true
  | [c] => c ≠ '\''
  | c :: d :: rest => if c = '\'' then d = '\'' && Doubled rest else Doubled (d :: rest)

def isAsciiTagPart (c : Char) : Bool := c.isAlphanum || c = '_'

/-- What comes after a dollar sign makes neither a placeholder nor a tag of it. -/
def OpensNothing (rest : List Char) : Prop :=
  !(rest.head?.any Char.isDigit) ∧ (rest.dropWhile isAsciiTagPart).head? ≠ some '$'

structure Passes (c : Char) (rest : List Char) : Prop where
  semicolon : c ≠ ';'
  quote : c ≠ '\''
  dashes : ¬ (c = '-' ∧ rest.head? = some '-')
  slash : ¬ (c = '/' ∧ rest.head? = some '*')
  dollar : c = '$' → OpensNothing rest

def Inert : List Char → Prop
  | [] => True
  | c :: rest => Passes c rest ∧ Inert rest

def IsAscii (tag : List Char) : Prop := ∀ c ∈ tag, c.toNat < 0x80

/-- A comment whose opener and closer share no character and that has no comment in it. -/
def Flat (body : List Char) : Prop := body.head? ≠ some '/' ∧ ¬ ['/', '*'] <:+: body

def TokenUnderstood : Token → Prop
  | .word _ rest => Inert rest
  | .placeholder digits => placeholderNumber digits < 2 ^ 64
  | .escaped _ body => Doubled body
  | .identifier body => Inert body
  | .dollarQuoted tag _ => IsAscii tag
  | .lineComment _ ending => ending ≠ ['\r']
  | .blockComment body => Flat body
  | _ => True

def UnclosedUnderstood : Unclosed → Prop
  | .quoted _ => True
  | .escaped _ body => Doubled body
  | .identifier _ => False
  | .dollarQuoted tag _ => IsAscii tag
  | .blockComment body => Flat body

instance (rest : List Char) : Decidable (OpensNothing rest) := inferInstanceAs (Decidable (_ ∧ _))

instance (c : Char) (rest : List Char) : Decidable (Passes c rest) :=
  decidable_of_iff
    (c ≠ ';' ∧ c ≠ '\'' ∧ ¬ (c = '-' ∧ rest.head? = some '-') ∧ ¬ (c = '/' ∧ rest.head? = some '*') ∧
      (c = '$' → OpensNothing rest))
    ⟨fun ⟨semicolon, quote, dashes, slash, dollar⟩ => ⟨semicolon, quote, dashes, slash, dollar⟩,
      fun ⟨semicolon, quote, dashes, slash, dollar⟩ => ⟨semicolon, quote, dashes, slash, dollar⟩⟩

instance decidableInert : (text : List Char) → Decidable (Inert text)
  | [] => isTrue trivial
  | c :: rest => @instDecidableAnd (Passes c rest) (Inert rest) _ (decidableInert rest)

instance (tag : List Char) : Decidable (IsAscii tag) := inferInstanceAs (Decidable (∀ c ∈ tag, _))
instance (body : List Char) : Decidable (Flat body) := inferInstanceAs (Decidable (_ ∧ _))

instance : DecidablePred TokenUnderstood
  | .word _ rest => inferInstanceAs (Decidable (Inert rest))
  | .placeholder digits => inferInstanceAs (Decidable (placeholderNumber digits < 2 ^ 64))
  | .escaped _ body => inferInstanceAs (Decidable (Doubled body = true))
  | .identifier body => inferInstanceAs (Decidable (Inert body))
  | .dollarQuoted tag _ => inferInstanceAs (Decidable (IsAscii tag))
  | .lineComment _ ending => inferInstanceAs (Decidable (ending ≠ ['\r']))
  | .blockComment body => inferInstanceAs (Decidable (Flat body))
  | .plain _ | .semicolon | .quoted _ => isTrue trivial

instance : DecidablePred UnclosedUnderstood
  | .quoted _ => isTrue trivial
  | .escaped _ body => inferInstanceAs (Decidable (Doubled body = true))
  | .identifier _ => isFalse id
  | .dollarQuoted tag _ => inferInstanceAs (Decidable (IsAscii tag))
  | .blockComment body => inferInstanceAs (Decidable (Flat body))

variable {rest : List Char} {tag : List Char}

theorem readPlaceholder_eq_none (hdigit : !(rest.head?.any Char.isDigit)) :
    readPlaceholder rest = none := by
  cases rest with
  | nil => rfl
  | cons c rest => simp_all [readPlaceholder]

theorem readDollarTag_append (htag : ∀ c ∈ tag, isAsciiTagPart c) (rest : List Char) :
    readDollarTag (tag ++ '$' :: rest) = some (tag, tag.length + 2) := by
  induction tag with
  | nil => simp [readDollarTag]
  | cons c tag ih =>
    have hc := htag c List.mem_cons_self
    have hdollar : c ≠ '$' := by
      rintro rfl
      exact absurd hc (by decide)
    rw [List.cons_append, readDollarTag, ih fun c hc => htag c (List.mem_cons_of_mem _ hc)]
    simp_all [isAsciiTagPart]

theorem readDollarTag_eq_none
    (hrest : (rest.dropWhile isAsciiTagPart).head? ≠ some '$') : readDollarTag rest = none := by
  induction rest with
  | nil => rfl
  | cons c rest ih =>
    rw [readDollarTag]
    by_cases hc : isAsciiTagPart c = true
    · rw [List.dropWhile_cons_of_pos hc] at hrest
      have hdollar : c ≠ '$' := by
        rintro rfl
        exact absurd hc (by decide)
      rw [if_neg hdollar, ih hrest]
      simp
    · rw [List.dropWhile_cons_of_neg hc, List.head?_cons] at hrest
      have hdollar : c ≠ '$' := fun h => hrest (congrArg some h)
      rw [if_neg hdollar, if_neg]
      simpa [isAsciiTagPart] using hc

/-- No character of a tag comes first, and no dollar sign. -/
def Ends (next : List Char) : Prop := ∀ d ∈ next.head?, isAsciiTagPart d = false ∧ d ≠ '$'

theorem OpensNothing.append {rest next : List Char} (hopens : OpensNothing rest) (hends : Ends next) :
    OpensNothing (rest ++ next) := by
  obtain ⟨hdigit, htag⟩ := hopens
  have hnext : OpensNothing next := by
    cases next with
    | nil => exact ⟨rfl, by simp⟩
    | cons d next =>
      obtain ⟨hpart, hdollar⟩ := hends d rfl
      have hpart' := hpart
      rw [isAsciiTagPart, Char.isAlphanum, Bool.or_eq_false_iff, Bool.or_eq_false_iff] at hpart'
      exact ⟨by simp [hpart'.1.2], by simp [hpart, hdollar]⟩
  refine ⟨?_, ?_⟩
  · cases rest with
    | nil => exact hnext.1
    | cons d rest => exact hdigit
  · rw [List.dropWhile_append]
    split_ifs with hempty
    · exact hnext.2
    · cases hrest : rest.dropWhile isAsciiTagPart with
      | nil => exact absurd (by rw [hrest]; rfl) hempty
      | cons d rest' => rwa [hrest] at htag

variable {c : Char}

theorem Passes.append {rest next : List Char} (hpasses : Passes c rest) (hends : Ends next)
    (hminus : c = '-' → next.head? ≠ some '-') (hslash : c = '/' → next.head? ≠ some '*') :
    Passes c (rest ++ next) := by
  refine
    { semicolon := hpasses.semicolon
      quote := hpasses.quote
      dashes := ?_
      slash := ?_
      dollar := fun hdollar => (hpasses.dollar hdollar).append hends }
  · cases rest with
    | nil => exact fun h => hminus h.1 h.2
    | cons d rest => exact hpasses.dashes
  · cases rest with
    | nil => exact fun h => hslash h.1 h.2
    | cons d rest => exact hpasses.slash

def unclosedMessage : Unclosed → String
  | .quoted _ | .escaped _ _ => "unterminated single-quoted string"
  | .identifier _ => "unterminated quoted identifier"
  | .dollarQuoted tag _ => "unterminated dollar-quoted string ($" ++ String.ofList tag ++ "$)"
  | .blockComment _ => "unterminated block comment"

/-! ### Regions -/

namespace Splitter

def cross (splitter : Splitter) (closer : List Char) (cut : Cut) : Splitter :=
  match cut.rest with
  | some rest =>
    run { splitter with state := .normal, current := splitter.current ++ cut.body ++ closer } rest
  | none => { splitter with current := splitter.current ++ cut.body }

variable (splitter : Splitter)

theorem cross_after (closer front : List Char) (cut : Cut) :
    splitter.cross closer (cut.after front) =
      { splitter with current := splitter.current ++ front }.cross closer cut := by
  obtain ⟨body, rest⟩ := cut
  cases rest <;> simp [cross, Cut.after]

theorem run_nil : splitter.run [] = splitter := by
  rw [run]

theorem run_cons (c : Char) (rest : List Char) :
    splitter.run (c :: rest) = (splitter.step c rest).1.run (splitter.step c rest).2 := by
  rw [run]

variable {splitter : Splitter}

theorem run_singleQuote (hstate : splitter.state = .singleQuote)
    (hcontent : splitter.hasContent = true) (chars : List Char) :
    splitter.run chars = splitter.cross ['\''] (readQuoted '\'' chars) := by
  fun_induction readQuoted '\'' chars generalizing splitter with
  | case1 => simp [run_nil, cross]
  | case2 => simp [run_cons, run_nil, step, hstate, cross, push, hcontent]
  | case3 c hc => simp [run_cons, run_nil, step, hstate, cross, push, hcontent, hc]
  | case4 rest ih =>
    rw [cross_after, run_cons]
    simpa [step, hstate, push, hcontent] using
      @ih { splitter with current := splitter.current ++ ['\'', '\''] } hstate hcontent
  | case5 d rest hd => simp [run_cons, step, hstate, cross, push, hcontent, hd]
  | case6 c d rest hc ih =>
    rw [cross_after, run_cons]
    simpa [step, hstate, push, hcontent, hc] using
      @ih { splitter with current := splitter.current ++ [c] } hstate hcontent

theorem readQuoted_cons {quote c : Char} (hc : c ≠ quote) (rest : List Char) :
    readQuoted quote (c :: rest) = (readQuoted quote rest).after [c] := by
  cases rest <;> simp [readQuoted, hc, Cut.after]

theorem doubled_cons (hc : c ≠ '\'') (rest : List Char) : Doubled (c :: rest) = Doubled rest := by
  cases rest <;> simp [Doubled, hc]

theorem not_doubled_quote (chars : List Char) :
    Doubled ('\'' :: (readEscaped chars).body) = false := by
  fun_induction readEscaped chars with
  | case1 => rfl
  | case2 => rfl
  | case3 c hc => simp [Doubled, hc]
  | case4 d rest ih => simp [Cut.after, Doubled]
  | case5 rest hd ih => simpa [Cut.after, Doubled] using ih
  | case6 d rest hc hd => rfl
  | case7 c d rest hescape hc ih => simp [Cut.after, Doubled, hc]

theorem readQuoted_of_readEscaped (chars : List Char) (hdoubled : Doubled (readEscaped chars).body) :
    readQuoted '\'' chars = readEscaped chars := by
  fun_induction readEscaped chars with
  | case1 => rfl
  | case2 => rfl
  | case3 c hc => simp [readQuoted, hc]
  | case4 d rest ih =>
    have hescape : Doubled (d :: (readEscaped rest).body) := by
      rw [← doubled_cons (by decide : '\\' ≠ '\'')]
      exact hdoubled
    have hd : d ≠ '\'' := by
      rintro rfl
      rw [not_doubled_quote] at hescape
      cases hescape
    rw [doubled_cons hd] at hescape
    rw [readQuoted_cons (by decide), readQuoted_cons hd, ih hescape]
    rfl
  | case5 rest hd ih =>
    have hrest : Doubled (readEscaped rest).body := by
      simpa [Cut.after, Doubled] using hdoubled
    simp [readQuoted, ih hrest]
  | case6 d rest hc hd => simp [readQuoted, hc]
  | case7 c d rest hescape hc ih =>
    have hrest : Doubled (readEscaped (d :: rest)).body := by
      rw [← doubled_cons hc]
      exact hdoubled
    rw [readQuoted_cons hc, ih hrest]

theorem closingTag_eq (tag : List Char) : closingTag tag = dollarTag tag := rfl

theorem run_dollarQuote (hstate : splitter.state = .dollarQuote tag)
    (hcontent : splitter.hasContent = true) (chars : List Char) :
    splitter.run chars = splitter.cross (dollarTag tag) (readUntil (dollarTag tag) chars) := by
  fun_induction readUntil (dollarTag tag) chars generalizing splitter with
  | case1 => simp [run_nil, cross]
  | case2 c rest hcloser =>
    have hc : c = '$' := (List.cons_prefix_cons.mp hcloser).1.symm
    subst hc
    rw [run_cons]
    simp only [step, hstate, cross, closingTag_eq, hcloser, and_self, if_true, List.append_nil]
    simp [dollarTag]
  | case3 c rest hcloser ih =>
    rw [cross_after, run_cons]
    have hstep : ¬ (c = '$' ∧ closingTag tag <+: c :: rest) := fun h => hcloser h.2
    simpa [step, hstate, push, hcontent, hstep] using
      @ih { splitter with current := splitter.current ++ [c] } hstate hcontent

theorem run_blockComment (hstate : splitter.state = .blockComment)
    (chars : List Char) (hflat : ¬ ['/', '*'] <:+: (readComment 0 chars).body) :
    splitter.run chars = splitter.cross ['*', '/'] (readComment 0 chars) := by
  generalize hdepth : 0 = depth at *
  fun_induction readComment depth chars generalizing splitter with
  | case1 => simp [run_nil, cross]
  | case2 depth c => simp [run_cons, run_nil, step, hstate, cross, push]
  | case3 c d rest hcloser =>
    rw [run_cons]
    simp [step, hstate, cross, hcloser]
  | case4 c d rest hcloser depth ih => exact absurd hdepth (Nat.succ_ne_zero depth).symm
  | case5 depth c d rest hcloser hopener ih =>
    rw [hopener.1, hopener.2] at hflat
    exact absurd (List.prefix_append ['/', '*'] _).isInfix hflat
  | case6 depth c d rest hcloser hopener ih =>
    rw [cross_after, run_cons]
    have hrest : ¬ ['/', '*'] <:+: (readComment depth (d :: rest)).body := fun h =>
      hflat (h.trans (List.suffix_append [c] _).isInfix)
    simpa [step, hstate, push, hcloser] using
      @ih { splitter with current := splitter.current ++ [c] } hstate hdepth hrest

theorem run_lineComment (hstate : splitter.state = .lineComment)
    {body : List Char} (hbody : '\n' ∉ body) (after : List Char) :
    splitter.run (body ++ after) = { splitter with current := splitter.current ++ body }.run after := by
  induction body generalizing splitter with
  | nil => simp
  | cons c body ih =>
    rw [List.mem_cons, not_or] at hbody
    rw [List.cons_append, run_cons]
    have hc : c ≠ '\n' := Ne.symm hbody.1
    simpa [step, hstate, push, hc] using
      @ih { splitter with current := splitter.current ++ [c] } hstate hbody.2

/-! ### Characters that pass -/

theorem step_of_passes (hstate : splitter.state = .normal) (hpasses : Passes c rest) :
    splitter.step c rest = (splitter.push .normal c, rest) := by
  simp only [step, hstate, if_neg hpasses.semicolon, if_neg hpasses.quote, if_neg hpasses.dashes,
    if_neg hpasses.slash]
  split_ifs with hdollar
  · obtain ⟨hdigit, htag⟩ := hpasses.dollar hdollar
    rw [readPlaceholder_eq_none hdigit, readDollarTag_eq_none htag]
  · rfl

theorem run_inert (hstate : splitter.state = .normal) {text next : List Char}
    (hinert : Inert text) (hends : Ends next)
    (hnext : ('-' ∉ text ∧ '/' ∉ text) ∨ next.head? = some '"') :
    splitter.run (text ++ next) =
      { splitter with
          current := splitter.current ++ text
          hasContent := splitter.hasContent || text.any (!isUnicodeWhitespace ·) }.run next := by
  induction text generalizing splitter with
  | nil => simp
  | cons c text ih =>
    obtain ⟨hpasses, hinert⟩ := hinert
    have hpasses' : Passes c (text ++ next) := by
      refine hpasses.append hends ?_ ?_
      · rintro rfl
        rcases hnext with ⟨hminus, -⟩ | hquote
        · exact absurd List.mem_cons_self hminus
        · simp [hquote]
      · rintro rfl
        rcases hnext with ⟨-, hslash⟩ | hquote
        · exact absurd List.mem_cons_self hslash
        · simp [hquote]
    have hrest : ('-' ∉ text ∧ '/' ∉ text) ∨ next.head? = some '"' := by
      simp only [List.mem_cons, not_or] at hnext
      exact hnext.imp_left fun h => ⟨h.1.2, h.2.2⟩
    rw [List.cons_append, run_cons, step_of_passes hstate hpasses']
    have hrun := @ih (splitter.push .normal c) rfl hinert hrest
    simpa [push, Bool.or_assoc, ← hstate] using hrun

/-! ### Tokens -/

def take (splitter : Splitter) : Token → Splitter
  | .semicolon => splitter.pushStatement
  | token =>
    { splitter with
      current := splitter.current ++ token.text
      hasContent := splitter.hasContent || token.significant isUnicodeWhitespace
      maxPlaceholder := max splitter.maxPlaceholder token.number }

def Follows (splitter : Splitter) (chars : List Char) : Reading → Prop
  | .ok (token, after) =>
    TokenUnderstood token → (splitter.run chars).finish = ((splitter.take token).run after).finish
  | .error unclosed =>
    UnclosedUnderstood unclosed → (splitter.run chars).finish = .error (unclosedMessage unclosed)

theorem follows_close {splitter entered : Splitter} {chars closer : List Char} {cut : Cut}
    {closed : List Char → Token} {unclosed : List Char → Unclosed} {understood : Prop}
    (hclosed : TokenUnderstood (closed cut.body) → understood)
    (hunclosed : UnclosedUnderstood (unclosed cut.body) → understood)
    (hrun : understood → splitter.run chars = entered.cross closer cut)
    (htake : { entered with state := .normal, current := entered.current ++ cut.body ++ closer } =
      splitter.take (closed cut.body))
    (hfinish : { entered with current := entered.current ++ cut.body }.finish =
      .error (unclosedMessage (unclosed cut.body))) :
    splitter.Follows chars (cut.close closed unclosed) := by
  obtain ⟨body, after⟩ := cut
  cases after with
  | none =>
    intro hunderstood
    rw [hrun (hunclosed hunderstood)]
    exact hfinish
  | some after =>
    intro hunderstood
    rw [hrun (hclosed hunderstood), ← htake]
    rfl

theorem follows_quoted (hstate : splitter.state = .normal) (rest : List Char) :
    splitter.Follows ('\'' :: rest) ((readQuoted '\'' rest).close .quoted .quoted) := by
  refine @follows_close splitter (splitter.push .singleQuote '\'') _ ['\''] _ _ _ True
    (fun _ => trivial) (fun _ => trivial) (fun _ => ?_) ?_ rfl
  · rw [run_cons, ← run_singleQuote rfl (by simp [push])]
    simp [step, hstate]
  · simp [push, take, hstate, Token.text, Token.significant.eq_def, Token.number]

theorem follows_escaped (hstate : splitter.state = .normal) {letter : Char}
    (hletter : letter = 'E' ∨ letter = 'e') (rest : List Char) :
    splitter.Follows (letter :: '\'' :: rest)
      ((readEscaped rest).close (.escaped letter) (.escaped letter)) := by
  have hpasses : Passes letter ('\'' :: rest) := by
    rcases hletter with rfl | rfl <;> exact ⟨by decide, by decide, by simp, by simp, by simp⟩
  have hspace : isUnicodeWhitespace letter = false := by
    rcases hletter with rfl | rfl <;> decide
  refine @follows_close splitter ((splitter.push .normal letter).push .singleQuote '\'') _ ['\''] _ _ _
    (Doubled (readEscaped rest).body) id id (fun hdoubled => ?_) ?_ rfl
  · rw [run_cons, step_of_passes hstate hpasses, run_cons, ← readQuoted_of_readEscaped rest hdoubled,
      ← run_singleQuote rfl (by simp [push])]
    simp [step, push]
  · simp [push, take, Token.text, Token.significant.eq_def, Token.number, hspace, hstate]

theorem head?_readComment_slash (rest : List Char) :
    (readComment 0 ('/' :: rest)).body.head? = some '/' := by
  cases rest with
  | nil => rfl
  | cons d rest =>
    rw [readComment, if_neg (by simp)]
    split_ifs <;> rfl

theorem follows_blockComment (hstate : splitter.state = .normal) (rest : List Char) :
    splitter.Follows ('/' :: '*' :: rest) ((readComment 0 rest).close .blockComment .blockComment) := by
  refine @follows_close splitter ((splitter.push .blockComment '/').push .blockComment '*') _ ['*', '/']
    _ _ _ (Flat (readComment 0 rest).body) id id (fun hflat => ?_) ?_ rfl
  · have hslash : rest.head? ≠ some '/' := by
      intro hhead
      rw [eq_cons_drop_of_head? hhead] at hflat
      exact hflat.1 (head?_readComment_slash _)
    rw [run_cons, ← run_blockComment rfl rest hflat.2]
    simp [step, hstate, run_cons, push, hslash]
  · simp [push, take, hstate, Token.text, Token.significant.eq_def, Token.number]

theorem isAsciiTagPart_of_isTagPart (hascii : c.toNat < 0x80)
    (hpart : isTagPart isUnicodeWhitespace c) : isAsciiTagPart c := by
  have hnot : ¬ 0x80 ≤ c.toNat := by omega
  simpa [isTagPart, isWordStart, isAsciiTagPart, Char.isAlphanum, hnot, or_right_comm] using hpart

theorem isTagPart_of_isAsciiTagPart (hpart : isAsciiTagPart c) :
    isTagPart isUnicodeWhitespace c := by
  simp only [isAsciiTagPart, Char.isAlphanum, Bool.or_eq_true, decide_eq_true_eq] at hpart
  simp only [isTagPart, isWordStart, Bool.or_eq_true, decide_eq_true_eq]
  tauto

theorem opensNothing_of_readDollar (hdigits : rest.takeWhile Char.isDigit = [])
    (htag : (rest.dropWhile (isTagPart isUnicodeWhitespace)).head? ≠ some '$') : OpensNothing rest := by
  refine ⟨?_, fun hhead => ?_⟩
  · cases rest with
    | nil => rfl
    | cons d rest => simpa [List.takeWhile_cons] using hdigits
  · obtain ⟨after, hafter⟩ := List.head?_eq_some_iff.mp hhead
    have hrest := List.takeWhile_append_dropWhile (p := isAsciiTagPart) (l := rest)
    rw [hafter] at hrest
    rw [← hrest, List.dropWhile_append_of_pos, List.dropWhile_cons_of_neg (by decide)] at htag
    · exact htag rfl
    · intro c hc
      exact isTagPart_of_isAsciiTagPart (List.mem_takeWhile_imp hc)

section

variable (hstate : splitter.state = .normal)
include hstate

theorem follows_placeholder {digits : List Char} (hdigits : ∀ c ∈ digits, c.isDigit)
    (hne : digits ≠ []) (hrest : rest.takeWhile Char.isDigit = []) :
    splitter.Follows ('$' :: (digits ++ rest)) (.ok (.placeholder digits, rest)) := by
  intro hnumber
  have htake : (digits ++ rest).takeWhile Char.isDigit = digits := by
    rw [List.takeWhile_append_of_pos hdigits, hrest, List.append_nil]
  have hread : readPlaceholder (digits ++ rest) =
      some (placeholderNumber digits, 1 + digits.length) := by
    rw [readPlaceholder, htake, if_neg (by simpa using hne), parseUsize]
    exact congrArg _ (if_pos hnumber)
  rw [run_cons]
  simp [step, hstate, hread, take, Token.text, Token.significant.eq_def, Token.number, Nat.add_comm 1]

theorem step_dollarTag (htag : ∀ c ∈ tag, isAsciiTagPart c) (hhead : !(tag.head?.any Char.isDigit))
    (rest : List Char) : splitter.step '$' (tag ++ '$' :: rest) =
      ({ splitter with
          state := .dollarQuote tag
          current := splitter.current ++ dollarTag tag
          hasContent := true }, rest) := by
  have hdigit : !((tag ++ '$' :: rest).head?.any Char.isDigit) := by
    cases tag with
    | nil => rfl
    | cons c tag => exact hhead
  have htake : ('$' :: (tag ++ '$' :: rest)).take (tag.length + 2) = dollarTag tag := by
    rw [show '$' :: (tag ++ '$' :: rest) = dollarTag tag ++ rest by simp [dollarTag]]
    exact List.take_left' (by simp [dollarTag])
  simp [step, hstate, readPlaceholder_eq_none hdigit, readDollarTag_append htag, htake]

theorem follows_dollarQuoted (htag : ∀ c ∈ tag, isTagPart isUnicodeWhitespace c)
    (hhead : !(tag.head?.any Char.isDigit)) (rest : List Char) :
    splitter.Follows ('$' :: (tag ++ '$' :: rest))
      ((readUntil (dollarTag tag) rest).close (.dollarQuoted tag) (.dollarQuoted tag)) := by
  refine @follows_close splitter
    { splitter with
      state := .dollarQuote tag
      current := splitter.current ++ dollarTag tag
      hasContent := true } _ (dollarTag tag) _ _ _ (IsAscii tag) id id (fun hascii => ?_) ?_ rfl
  · have hparts : ∀ c ∈ tag, isAsciiTagPart c := fun c hc =>
      isAsciiTagPart_of_isTagPart (hascii c hc) (htag c hc)
    rw [run_cons, step_dollarTag hstate hparts hhead]
    exact run_dollarQuote rfl rfl rest
  · simp [take, Token.text, Token.significant.eq_def, Token.number, hstate]

theorem follows_plain (hpasses : Passes c rest) :
    splitter.Follows (c :: rest) (.ok (.plain c, rest)) := by
  rintro -
  rw [run_cons, step_of_passes hstate hpasses]
  simp [push, take, hstate, Token.text, Token.significant.eq_def, Token.number]

end

theorem drop_length_takeWhile (p : Char → Bool) (rest : List Char) :
    rest.drop (rest.takeWhile p).length = rest.dropWhile p := by
  induction rest with
  | nil => rfl
  | cons c rest ih => by_cases hc : p c <;> simp [hc, ih]

theorem takeWhile_dropWhile (p : Char → Bool) (rest : List Char) :
    (rest.dropWhile p).takeWhile p = [] := by
  have hhead := List.head?_dropWhile_not p rest
  cases hafter : rest.dropWhile p with
  | nil => rfl
  | cons c after =>
    rw [hafter] at hhead
    rw [List.takeWhile_cons_of_neg (by simpa using hhead)]

theorem follows_dollar (hstate : splitter.state = .normal) (rest : List Char) :
    splitter.Follows ('$' :: rest) (readDollar isUnicodeWhitespace rest) := by
  simp only [readDollar, ← List.drop_drop, drop_length_takeWhile]
  split_ifs with hempty hclosed
  · have hfollows := @follows_placeholder _ splitter hstate _ (fun c hc => List.mem_takeWhile_imp hc) hempty
      (takeWhile_dropWhile Char.isDigit rest)
    rwa [List.takeWhile_append_dropWhile] at hfollows
  · have hhead : !((rest.takeWhile (isTagPart isUnicodeWhitespace)).head?.any Char.isDigit) := by
      cases rest with
      | nil => rfl
      | cons d rest =>
        have hd : d.isDigit = false := by simpa [List.takeWhile_cons] using hempty
        by_cases hpart : isTagPart isUnicodeWhitespace d <;> simp [hpart, hd]
    have hfollows := @follows_dollarQuoted _ splitter hstate (fun c hc => List.mem_takeWhile_imp hc) hhead
      ((rest.dropWhile (isTagPart isUnicodeWhitespace)).drop 1)
    rwa [← eq_cons_drop_of_head? hclosed, List.takeWhile_append_dropWhile] at hfollows
  · exact follows_plain hstate ⟨by decide, by decide, by simp, by simp,
      fun _ => opensNothing_of_readDollar (not_not.mp hempty) hclosed⟩

theorem not_isUnicodeWhitespace_of_isWordStart (hc : isWordStart isUnicodeWhitespace c) :
    isUnicodeWhitespace c = false := by
  by_contra hspace
  have hspace' := hspace
  simp only [isUnicodeWhitespace, Bool.not_eq_false, Bool.or_eq_true, Bool.and_eq_true, beq_iff_eq,
    decide_eq_true_eq] at hspace
  simp only [isWordStart, Bool.or_eq_true, Bool.and_eq_true, decide_eq_true_eq] at hc
  rcases hc with (halpha | rfl) | ⟨-, hc⟩
  · have hrange := Utf8.isAlpha_iff.mp halpha
    omega
  · exact hspace' rfl
  · simp_all

theorem isWordPart_sign (hc : c ∈ [';', '\'', '-', '/']) :
    isWordPart isUnicodeWhitespace c = false := by
  simp only [List.mem_cons, List.not_mem_nil, or_false] at hc
  rcases hc with rfl | rfl | rfl | rfl <;> rfl

section

variable (hstate : splitter.state = .normal)
include hstate

theorem follows_word {letter : Char} (hletter : isWordStart isUnicodeWhitespace letter)
    (rest : List Char) :
    splitter.Follows (letter :: rest) (readWord isUnicodeWhitespace letter rest) := by
  simp only [readWord]
  split_ifs with hescape
  · have hfollows := follows_escaped hstate hescape.1 (rest.drop 1)
    rwa [← eq_cons_drop_of_head? hescape.2] at hfollows
  · intro hinert
    have hword : ∀ c ∈ rest.takeWhile (isWordPart isUnicodeWhitespace), isWordPart isUnicodeWhitespace c :=
      fun c hc => List.mem_takeWhile_imp hc
    have hends : Ends (rest.dropWhile (isWordPart isUnicodeWhitespace)) := by
      intro d hd
      have hpart := List.head?_dropWhile_not (isWordPart isUnicodeWhitespace) rest
      rw [hd] at hpart
      simp only [isWordPart, Bool.or_eq_false_iff, decide_eq_false_iff_not] at hpart
      refine ⟨?_, hpart.2⟩
      by_contra hascii
      rw [isTagPart_of_isAsciiTagPart (by simpa using hascii)] at hpart
      exact absurd hpart.1 (by decide)
    have hsign : ∀ c ∈ [';', '\'', '-', '/'], letter ≠ c := by
      rintro c hc rfl
      have hpart := isWordPart_sign hc
      simp [isWordPart, isTagPart, hletter] at hpart
    have hdollar : letter ≠ '$' := by
      rintro rfl
      cases hletter
    have hspace := not_isUnicodeWhitespace_of_isWordStart hletter
    have hpasses : Passes letter rest :=
      ⟨hsign _ (by simp), hsign _ (by simp), fun h => hsign _ (by simp) h.1,
        fun h => hsign _ (by simp) h.1, fun h => absurd h hdollar⟩
    have hsigns : '-' ∉ rest.takeWhile (isWordPart isUnicodeWhitespace) ∧
        '/' ∉ rest.takeWhile (isWordPart isUnicodeWhitespace) :=
      ⟨fun h => absurd (hword _ h) (by decide), fun h => absurd (hword _ h) (by decide)⟩
    have hrun := @run_inert (splitter.push .normal letter) rfl _ _ hinert hends (Or.inl hsigns)
    rw [List.takeWhile_append_dropWhile] at hrun
    rw [run_cons, step_of_passes hstate hpasses, hrun]
    simp [push, take, hstate, Token.text, Token.significant.eq_def, Token.number, hspace]

theorem follows_lineComment (rest : List Char) :
    splitter.Follows ('-' :: '-' :: rest) (readLineComment rest) := by
  intro hending
  have hbody : '\n' ∉ rest.takeWhile (!isLineEnd ·) := fun h =>
    absurd (List.mem_takeWhile_imp h) (by decide)
  have hrun := @run_lineComment ((splitter.push .lineComment '-').push .lineComment '-') rfl _ hbody
    (rest.dropWhile (!isLineEnd ·))
  have hopen : splitter.run ('-' :: '-' :: rest) =
      ((splitter.push .lineComment '-').push .lineComment '-').run rest := by
    simp [run_cons, step, hstate, push]
  have hhead := List.head?_dropWhile_not (!isLineEnd ·) rest
  rw [List.takeWhile_append_dropWhile] at hrun
  rw [hopen, hrun]
  cases hafter : rest.dropWhile (!isLineEnd ·) with
  | nil =>
    simp [lineEnding, run_nil, finish, pushStatement, push, take, Token.text, Token.significant.eq_def,
      Token.number, hstate]
  | cons c after =>
    rw [hafter] at hhead hending
    have hend : c = '\n' ∨ c = '\r' := by simpa [isLineEnd, or_iff_not_imp_left] using hhead
    rcases hend with rfl | rfl
    · simp [lineEnding, run_cons, step, push, take, Token.text, Token.significant.eq_def, Token.number, hstate,
        isUnicodeWhitespace]
    · cases after with
      | nil => exact absurd rfl hending
      | cons d after =>
        by_cases hd : d = '\n'
        · subst hd
          simp [lineEnding, run_cons, step, push, take, Token.text, Token.significant.eq_def, Token.number,
            hstate, isUnicodeWhitespace]
        · exact absurd (by simp [lineEnding, hd]) hending

theorem follows_identifier (rest : List Char) :
    splitter.Follows ('"' :: rest) ((readQuoted '"' rest).close .identifier .identifier) := by
  have htext := readQuoted_text '"' rest
  rcases hcut : readQuoted '"' rest with ⟨body, _ | after⟩
  · exact False.elim
  · intro hinert
    have hquote : ∀ next, Passes '"' next := fun next =>
      ⟨by decide, by decide, by simp, by simp, by simp⟩
    have hrun := @run_inert (splitter.push .normal '"') rfl body ('"' :: after) hinert
      (by simp [Ends, isAsciiTagPart]) (Or.inr rfl)
    rw [hcut] at htext
    have hrest : rest = body ++ '"' :: after := htext.symm
    rw [hrest, run_cons, step_of_passes hstate (hquote _), hrun, run_cons, step_of_passes rfl (hquote _)]
    have hspace : isUnicodeWhitespace '"' = false := rfl
    simp [push, take, hstate, Token.text, Token.significant.eq_def, Token.number, hspace]

theorem follows_readToken (c : Char) (rest : List Char) :
    splitter.Follows (c :: rest) (readToken isUnicodeWhitespace c rest) := by
  simp only [readToken]
  split_ifs with hsemicolon hquote hdouble hline hblock hdollar hword
  · rintro -
    rw [hsemicolon, run_cons]
    simp [step, hstate, take]
  · rw [hquote]
    exact follows_quoted hstate rest
  · rw [hdouble]
    exact follows_identifier hstate rest
  · rw [hline.1, eq_cons_drop_of_head? hline.2]
    exact follows_lineComment hstate (rest.drop 1)
  · rw [hblock.1, eq_cons_drop_of_head? hblock.2]
    exact follows_blockComment hstate (rest.drop 1)
  · rw [hdollar]
    exact follows_dollar hstate rest
  · exact follows_word hstate hword rest
  · exact follows_plain hstate ⟨hsemicolon, hquote, hline, hblock, fun h => absurd h hdollar⟩

theorem take_state (token : Token) : (splitter.take token).state = .normal := by
  cases token <;> exact hstate

end

theorem run_lex {chars : List Char} :
    ∀ {splitter : Splitter}, splitter.state = .normal →
      (∀ token ∈ (lex isUnicodeWhitespace chars).tokens, TokenUnderstood token) →
      (∀ unclosed ∈ (lex isUnicodeWhitespace chars).unclosed, UnclosedUnderstood unclosed) →
      (splitter.run chars).finish =
        match (lex isUnicodeWhitespace chars).unclosed with
        | some unclosed => .error (unclosedMessage unclosed)
        | none => ((lex isUnicodeWhitespace chars).tokens.foldl take splitter).finish := by
  induction chars using lex_induction isUnicodeWhitespace with
  | hnil =>
    intro splitter hstate htokens hunclosed
    simp [lex, run_nil]
  | hunclosed c rest unclosed hread =>
    intro splitter hstate htokens hunclosed
    have hfollows := follows_readToken hstate c rest
    rw [lex_cons, hread] at hunclosed ⊢
    rw [hread] at hfollows
    exact hfollows (hunclosed unclosed rfl)
  | htoken c rest token after hread ih =>
    intro splitter hstate htokens hunclosed
    have hfollows := follows_readToken hstate c rest
    rw [lex_cons, hread] at htokens hunclosed ⊢
    rw [hread] at hfollows
    exact (hfollows (htokens token List.mem_cons_self)).trans
      (ih (take_state hstate token) (fun other hother => htokens other (List.mem_cons_of_mem _ hother))
        hunclosed)

/-! ### Fragments -/

def between (statements : List SplitStatement) (fragment : List Token) : Splitter :=
  { current := tokensText fragment
    hasContent := fragment.any (Token.significant isUnicodeWhitespace)
    maxPlaceholder := SqlLexer.maxPlaceholder fragment
    statements }

theorem take_between (statements : List SplitStatement) (fragment : List Token) {token : Token}
    (htoken : token ≠ .semicolon) :
    (between statements fragment).take token = between statements (fragment ++ [token]) := by
  cases token with
  | semicolon => exact absurd rfl htoken
  | _ => simp [take, between, tokensText, SqlLexer.maxPlaceholder]

end Splitter

def fragmentStatement (fragment : List Token) : SplitStatement :=
  { sql := trimText (String.ofList (tokensText fragment))
    maxPlaceholder := SqlLexer.maxPlaceholder fragment }

def fragmentStatements (fragments : List (List Token)) : List SplitStatement :=
  (fragments.filter (·.any (Token.significant isUnicodeWhitespace))).map fragmentStatement

theorem fragmentStatements_append (fragments others : List (List Token)) :
    fragmentStatements (fragments ++ others) =
      fragmentStatements fragments ++ fragmentStatements others := by
  simp [fragmentStatements]

theorem trimText_ne_empty {chars : List Char} (hc : c ∈ chars)
    (hspace : isUnicodeWhitespace c = false) : (trimText (String.ofList chars)).isEmpty = false := by
  by_contra hempty
  have htrim : trimChars chars = [] := by
    simpa [trimText] using hempty
  rw [trimChars, List.reverse_eq_nil_iff, List.dropWhile_eq_nil_iff] at htrim
  have hall : ∀ d ∈ chars.dropWhile isUnicodeWhitespace, isUnicodeWhitespace d = true := fun d hd =>
    htrim d (List.mem_reverse.mpr hd)
  have hhead := List.head?_dropWhile_not isUnicodeWhitespace chars
  cases hdrop : chars.dropWhile isUnicodeWhitespace with
  | nil =>
    have hc := List.dropWhile_eq_nil_iff.mp hdrop c hc
    rw [hspace] at hc
    cases hc
  | cons d rest =>
    rw [hdrop] at hhead hall
    have hd := hall d List.mem_cons_self
    simp_all

namespace Splitter

theorem pushStatement_between (statements : List SplitStatement) {fragment : List Token}
    (hsolid : ∀ token ∈ fragment, token.significant isUnicodeWhitespace →
      ∃ c ∈ token.text, isUnicodeWhitespace c = false) :
    (between statements fragment).pushStatement =
      between (statements ++ fragmentStatements [fragment]) [] := by
  by_cases hcontent : fragment.any (Token.significant isUnicodeWhitespace) = true
  · obtain ⟨token, htoken, hsignificant⟩ := List.any_eq_true.mp hcontent
    obtain ⟨c, hc, hspace⟩ := hsolid token htoken hsignificant
    have hsql : (trimText (String.ofList (tokensText fragment))).isEmpty = false :=
      trimText_ne_empty (List.mem_flatMap.mpr ⟨token, htoken, hc⟩) hspace
    simp only [pushStatement, between, fragmentStatements, hcontent, hsql, List.filter_cons,
      Bool.not_false, and_self, if_true]
    rfl
  · rw [Bool.not_eq_true] at hcontent
    simp only [pushStatement, between, fragmentStatements, hcontent, List.filter_cons, Bool.false_eq_true,
      false_and, if_false, List.filter_nil, List.map_nil, List.append_nil]
    rfl

theorem foldl_take (tokens : List Token) :
    ∀ {statements : List SplitStatement} {fragment : List Token},
      (∀ token ∈ fragment ++ tokens, token.significant isUnicodeWhitespace →
        ∃ c ∈ token.text, isUnicodeWhitespace c = false) →
      (tokens.foldl take (between statements fragment)).finish =
        .ok (statements ++
          fragmentStatements ((tokens.splitOn .semicolon).modifyHead (fragment ++ ·))) := by
  induction tokens with
  | nil =>
    intro statements fragment hsolid
    have hpush := pushStatement_between statements fun token htoken =>
      hsolid token (List.mem_append_left _ htoken)
    rw [List.foldl_nil, finish]
    simp only [hpush, List.splitOn_nil, List.modifyHead_cons, List.append_nil]
    rfl
  | cons token tokens ih =>
    intro statements fragment hsolid
    rw [List.foldl_cons, List.splitOn_cons_eq_if_modifyHead]
    by_cases htoken : token = .semicolon
    · have hpush := pushStatement_between statements fun token htoken =>
        hsolid token (List.mem_append_left _ htoken)
      rw [htoken, take, hpush, ih fun token htoken => hsolid token (by simp_all), if_pos (by rfl)]
      have hsplit : (tokens.splitOn .semicolon).modifyHead ([] ++ ·) = tokens.splitOn .semicolon := by
        cases tokens.splitOn .semicolon <;> simp
      rw [hsplit, List.modifyHead_cons, List.append_nil, List.append_assoc, ← fragmentStatements_append,
        List.singleton_append]
    · rw [take_between _ _ htoken, ih (by simpa using hsolid), if_neg (by simpa using htoken)]
      have hsplit : (tokens.splitOn .semicolon).modifyHead ((fragment ++ [token]) ++ ·) =
          ((tokens.splitOn .semicolon).modifyHead (token :: ·)).modifyHead (fragment ++ ·) := by
        cases tokens.splitOn .semicolon <;> simp
      rw [hsplit]

end Splitter

theorem readToken_of_space (hspace : isUnicodeWhitespace c = true) (rest : List Char) :
    readToken isUnicodeWhitespace c rest = .ok (.plain c, rest) := by
  have hsign : ∀ d, isUnicodeWhitespace d = false → c ≠ d := by
    rintro d hd rfl
    rw [hspace] at hd
    cases hd
  have hword : isWordStart isUnicodeWhitespace c ≠ true := fun hword => by
    rw [Splitter.not_isUnicodeWhitespace_of_isWordStart hword] at hspace
    cases hspace
  simp only [readToken, hsign _ (show isUnicodeWhitespace ';' = false from rfl),
    hsign _ (show isUnicodeWhitespace '\'' = false from rfl),
    hsign _ (show isUnicodeWhitespace '"' = false from rfl),
    hsign _ (show isUnicodeWhitespace '-' = false from rfl),
    hsign _ (show isUnicodeWhitespace '/' = false from rfl),
    hsign _ (show isUnicodeWhitespace '$' = false from rfl), hword, false_and, if_false, Bool.false_eq_true]

theorem solid_of_readToken {rest after : List Char} {token : Token}
    (hread : readToken isUnicodeWhitespace c rest = .ok (token, after))
    (hsignificant : token.significant isUnicodeWhitespace) :
    ∃ d ∈ token.text, isUnicodeWhitespace d = false := by
  have htext := readToken_text isUnicodeWhitespace c rest
  rw [hread, Reading.text] at htext
  obtain ⟨d, text, hd⟩ := List.exists_cons_of_ne_nil token.text_ne_nil
  rw [hd, List.cons_append, List.cons.injEq] at htext
  refine ⟨c, by rw [hd, htext.1]; exact List.mem_cons_self, ?_⟩
  by_contra hspace
  rw [readToken_of_space (by simpa using hspace), Except.ok.injEq, Prod.mk.injEq] at hread
  rw [← hread.1] at hsignificant
  simp [Token.significant.eq_def, hspace] at hsignificant

theorem solid_of_lex (chars : List Char) :
    ∀ token ∈ (lex isUnicodeWhitespace chars).tokens, token.significant isUnicodeWhitespace →
      ∃ c ∈ token.text, isUnicodeWhitespace c = false := by
  induction chars using lex_induction isUnicodeWhitespace with
  | hnil => simp [lex]
  | hunclosed c rest unclosed hread =>
    rw [lex_cons, hread]
    simp
  | htoken c rest token after hread ih =>
    rw [lex_cons, hread]
    intro other hother
    rcases List.mem_cons.mp hother with rfl | hother
    · exact solid_of_readToken hread
    · exact ih other hother

/-! ### Whole texts -/

/-- What the lexer makes of a text. -/
def referenceStatements (sql : String) : Except String (List SplitStatement) :=
  let lexed := lex isUnicodeWhitespace sql.toList
  match lexed.unclosed with
  | some unclosed => .error (unclosedMessage unclosed)
  | none => .ok (fragmentStatements lexed.fragments)

structure Understood (sql : String) : Prop where
  tokens : ∀ token ∈ (lex isUnicodeWhitespace sql.toList).tokens, TokenUnderstood token
  unclosed : ∀ unclosed ∈ (lex isUnicodeWhitespace sql.toList).unclosed, UnclosedUnderstood unclosed

instance (sql : String) : Decidable (Understood sql) :=
  decidable_of_iff
    ((∀ token ∈ (lex isUnicodeWhitespace sql.toList).tokens, TokenUnderstood token) ∧
      ∀ unclosed ∈ (lex isUnicodeWhitespace sql.toList).unclosed, UnclosedUnderstood unclosed)
    ⟨fun ⟨tokens, unclosed⟩ => ⟨tokens, unclosed⟩, fun ⟨tokens, unclosed⟩ => ⟨tokens, unclosed⟩⟩

end SqlSplit

open SqlSplit

/-- The tokens of a text are the whole text, and so are its fragments with the semicolons between them.
Of a text whose tokens the splitter understands it makes the statements that the lexer makes. -/
theorem splitStatements_reference (sql : String) :
    (lex isUnicodeWhitespace sql.toList).text = sql.toList ∧
    ((lex isUnicodeWhitespace sql.toList).unclosed = none →
      [';'].intercalate ((lex isUnicodeWhitespace sql.toList).fragments.map tokensText) = sql.toList) ∧
    (Understood sql → splitStatements sql = referenceStatements sql) := by
  refine ⟨lex_text _ _, Lexed.intercalate_fragments _, fun hunderstood => ?_⟩
  rw [splitStatements, Splitter.run_lex rfl hunderstood.tokens hunderstood.unclosed, referenceStatements]
  cases hunclosed : (lex isUnicodeWhitespace sql.toList).unclosed with
  | some unclosed => rfl
  | none =>
    have hfold := @Splitter.foldl_take (lex isUnicodeWhitespace sql.toList).tokens [] []
      (solid_of_lex sql.toList)
    have hsplit : (lex isUnicodeWhitespace sql.toList).fragments.modifyHead ([] ++ ·) =
        (lex isUnicodeWhitespace sql.toList).fragments := by
      cases (lex isUnicodeWhitespace sql.toList).fragments <;> simp
    rw [← Lexed.fragments, hsplit, List.nil_append] at hfold
    exact hfold

/-- A string, a quoted identifier, comments and a placeholder. -/
theorem splitStatements_reference_sample :
    splitStatements "SELECT \"id\" FROM t WHERE s = 'it''s; $9' /* ; */ AND k = $2; -- done; $3" =
      .ok
        [{ sql := "SELECT \"id\" FROM t WHERE s = 'it''s; $9' /* ; */ AND k = $2"
           maxPlaceholder := 2 }] := by
  rw [(splitStatements_reference _).2.2 (by decide +kernel)]
  decide +kernel

/-- A semicolon in a quoted identifier, a dollar sign in a word, a comment in a comment, an escaped quote,
a comment that ends at a carriage return, a tag outside ASCII and a number beyond the word size. -/
theorem splitStatements_differs :
    (["SELECT \"a;b\"", "SELECT a$1", "/* /* */ ; SELECT 1; */ SELECT 2", "SELECT E'\\';'",
        "-- a\rSELECT 1", "SELECT $é$;$é$", "SELECT $18446744073709551616"].all fun sql =>
      splitStatements sql ≠ referenceStatements sql) = true := by
  decide +kernel

end IronCrew
