import Mathlib.Data.List.Basic

/-!
# A lexer for SQL

What a text of PostgreSQL's dialect of SQL is made of, as far as it decides where a statement ends:
strings and quoted identifiers with doubled quotes, escape strings, dollar-quoted strings, comments,
words, placeholders and semicolons. Comments in a comment nest, a word may hold dollar signs after its
first letter, and a comment to the end of the line takes the line end with it. White space is that of
Unicode. Standard-conforming strings are on: a backslash means nothing in a plain string.
-/

namespace SqlLexer

/-- What precedes the end of a region, and what follows it: nothing when the region is not closed. -/
structure Cut where
  body : List Char
  rest : Option (List Char)

namespace Cut

def after (front : List Char) (cut : Cut) : Cut :=
  { cut with body := front ++ cut.body }

def text (closer : List Char) (cut : Cut) : List Char :=
  cut.body ++ (cut.rest.map (closer ++ ·)).getD []

@[simp]
theorem text_closed (closer rest : List Char) :
    ({ body := [], rest := some rest } : Cut).text closer = closer ++ rest := rfl

@[simp]
theorem text_unclosed (closer body : List Char) :
    ({ body, rest := none } : Cut).text closer = body := by
  simp [text]

@[simp]
theorem text_after (closer front : List Char) (cut : Cut) :
    (cut.after front).text closer = front ++ cut.text closer := by
  simp [text, after]

end Cut

def readQuoted (quote : Char) : List Char → Cut
  | [] => { body := [], rest := none }
  | [c] => if c = quote then { body := [], rest := some [] } else { body := [c], rest := none }
  | c :: d :: rest =>
    if c = quote then
      if d = quote then (readQuoted quote rest).after [c, d]
      else { body := [], rest := some (d :: rest) }
    else (readQuoted quote (d :: rest)).after [c]

/-- Up to a single quote that is neither doubled nor behind a backslash. -/
def readEscaped : List Char → Cut
  | [] => { body := [], rest := none }
  | [c] => if c = '\'' then { body := [], rest := some [] } else { body := [c], rest := none }
  | c :: d :: rest =>
    if c = '\\' then (readEscaped rest).after [c, d]
    else if c = '\'' then
      if d = '\'' then (readEscaped rest).after [c, d]
      else { body := [], rest := some (d :: rest) }
    else (readEscaped (d :: rest)).after [c]

def readUntil (closer : List Char) : List Char → Cut
  | [] => { body := [], rest := none }
  | c :: rest =>
    if closer <+: c :: rest then { body := [], rest := some ((c :: rest).drop closer.length) }
    else (readUntil closer rest).after [c]

def readComment : Nat → List Char → Cut
  | _, [] => { body := [], rest := none }
  | _, [c] => { body := [c], rest := none }
  | depth, c :: d :: rest =>
    if c = '*' ∧ d = '/' then
      match depth with
      | 0 => { body := [], rest := some rest }
      | depth + 1 => (readComment depth rest).after [c, d]
    else if c = '/' ∧ d = '*' then (readComment (depth + 1) rest).after [c, d]
    else (readComment depth (d :: rest)).after [c]

def isLineEnd (c : Char) : Bool := c = '\n' || c = '\r'

def lineEnding : List Char → List Char
  | '\n' :: _ => ['\n']
  | '\r' :: '\n' :: _ => ['\r', '\n']
  | '\r' :: _ => ['\r']
  | _ => []

variable (isSpace : Char → Bool)

def isWordStart (c : Char) : Bool :=
  c.isAlpha || c = '_' || 0x80 ≤ c.toNat && !isSpace c

def isTagPart (c : Char) : Bool :=
  isWordStart isSpace c || c.isDigit

def isWordPart (c : Char) : Bool :=
  isTagPart isSpace c || c = '$'

inductive Token where
  -- a character that opens nothing
  | plain (c : Char)
  | semicolon
  | word (letter : Char) (rest : List Char)
  | placeholder (digits : List Char)
  | quoted (body : List Char)
  | escaped (letter : Char) (body : List Char)
  | identifier (body : List Char)
  | dollarQuoted (tag body : List Char)
  | lineComment (body ending : List Char)
  | blockComment (body : List Char)
  deriving DecidableEq

/-- A region that the end of the text leaves open. -/
inductive Unclosed where
  | quoted (body : List Char)
  | escaped (letter : Char) (body : List Char)
  | identifier (body : List Char)
  | dollarQuoted (tag body : List Char)
  | blockComment (body : List Char)

def dollarTag (tag : List Char) : List Char := '$' :: tag ++ ['$']

def Token.text : Token → List Char
  | plain c => [c]
  | semicolon => [';']
  | word letter rest => letter :: rest
  | placeholder digits => '$' :: digits
  | quoted body => ['\''] ++ body ++ ['\'']
  | escaped letter body => [letter, '\''] ++ body ++ ['\'']
  | identifier body => ['"'] ++ body ++ ['"']
  | dollarQuoted tag body => dollarTag tag ++ body ++ dollarTag tag
  | lineComment body ending => ['-', '-'] ++ body ++ ending
  | blockComment body => ['/', '*'] ++ body ++ ['*', '/']

def Unclosed.text : Unclosed → List Char
  | quoted body => ['\''] ++ body
  | escaped letter body => [letter, '\''] ++ body
  | identifier body => ['"'] ++ body
  | dollarQuoted tag body => dollarTag tag ++ body
  | blockComment body => ['/', '*'] ++ body

def Token.significant : Token → Bool
  | plain c => !isSpace c
  | semicolon => false
  | lineComment _ _ => false
  | blockComment _ => false
  | _ => true

abbrev Reading := Except Unclosed (Token × List Char)

def Cut.close (cut : Cut) (closed : List Char → Token) (unclosed : List Char → Unclosed) : Reading :=
  match cut.rest with
  | some rest => .ok (closed cut.body, rest)
  | none => .error (unclosed cut.body)

def readLineComment (rest : List Char) : Reading :=
  let after := rest.dropWhile (!isLineEnd ·)
  .ok (.lineComment (rest.takeWhile (!isLineEnd ·)) (lineEnding after),
    after.drop (lineEnding after).length)

def readDollar (rest : List Char) : Reading :=
  let digits := rest.takeWhile Char.isDigit
  let tag := rest.takeWhile (isTagPart isSpace)
  if digits ≠ [] then .ok (.placeholder digits, rest.drop digits.length)
  else if (rest.drop tag.length).head? = some '$' then
    (readUntil (dollarTag tag) (rest.drop (tag.length + 1))).close (.dollarQuoted tag) (.dollarQuoted tag)
  else .ok (.plain '$', rest)

def readWord (c : Char) (rest : List Char) : Reading :=
  if (c = 'E' ∨ c = 'e') ∧ rest.head? = some '\'' then
    (readEscaped (rest.drop 1)).close (.escaped c) (.escaped c)
  else
    .ok (.word c (rest.takeWhile (isWordPart isSpace)), rest.dropWhile (isWordPart isSpace))

def readToken (c : Char) (rest : List Char) : Reading :=
  if c = ';' then .ok (.semicolon, rest)
  else if c = '\'' then (readQuoted c rest).close .quoted .quoted
  else if c = '"' then (readQuoted c rest).close .identifier .identifier
  else if c = '-' ∧ rest.head? = some '-' then readLineComment (rest.drop 1)
  else if c = '/' ∧ rest.head? = some '*' then
    (readComment 0 (rest.drop 1)).close .blockComment .blockComment
  else if c = '$' then readDollar isSpace rest
  else if isWordStart isSpace c then readWord isSpace c rest
  else .ok (.plain c, rest)

theorem readQuoted_text (quote : Char) (chars : List Char) :
    (readQuoted quote chars).text [quote] = chars := by
  fun_induction readQuoted quote chars <;> simp_all

theorem readEscaped_text (chars : List Char) : (readEscaped chars).text ['\''] = chars := by
  fun_induction readEscaped chars <;> simp_all

theorem readUntil_text (closer chars : List Char) : (readUntil closer chars).text closer = chars := by
  fun_induction readUntil closer chars with
  | case1 => rfl
  | case2 c rest hcloser => exact (List.prefix_iff_eq_append.mp hcloser)
  | case3 c rest hcloser ih => rw [Cut.text_after, ih, List.singleton_append]

theorem readComment_text (depth : Nat) (chars : List Char) :
    (readComment depth chars).text ['*', '/'] = chars := by
  fun_induction readComment depth chars <;> simp_all

theorem prefix_lineEnding (after : List Char) : lineEnding after <+: after := by
  fun_cases lineEnding after <;> simp

def Reading.text : Reading → List Char
  | .ok (token, rest) => token.text ++ rest
  | .error unclosed => unclosed.text

theorem Cut.close_text {closed : List Char → Token} {unclosed : List Char → Unclosed}
    {opener closer : List Char} (hclosed : ∀ body, (closed body).text = opener ++ body ++ closer)
    (hunclosed : ∀ body, (unclosed body).text = opener ++ body) (cut : Cut) :
    Reading.text (cut.close closed unclosed) = opener ++ cut.text closer := by
  obtain ⟨body, rest⟩ := cut
  cases rest with
  | none => simp [Cut.close, Reading.text, Cut.text, hunclosed]
  | some rest => simp [Cut.close, Reading.text, Cut.text, hclosed]

theorem eq_cons_drop_of_head? {rest : List Char} {c : Char} (hhead : rest.head? = some c) :
    rest = c :: rest.drop 1 := by
  obtain ⟨tail, rfl⟩ := List.head?_eq_some_iff.mp hhead
  rfl

theorem readLineComment_text (rest : List Char) :
    Reading.text (readLineComment rest) = '-' :: '-' :: rest := by
  have hending := List.prefix_iff_eq_append.mp (prefix_lineEnding (rest.dropWhile (!isLineEnd ·)))
  simp only [readLineComment, Reading.text, Token.text, List.cons_append, List.append_assoc, hending,
    List.takeWhile_append_dropWhile, List.nil_append]

theorem readDollar_text (rest : List Char) :
    Reading.text (readDollar isSpace rest) = '$' :: rest := by
  have hdigits := List.prefix_iff_eq_append.mp
    (List.takeWhile_prefix Char.isDigit : rest.takeWhile Char.isDigit <+: rest)
  simp only [readDollar]
  split_ifs with hempty hclosed
  · simp only [Reading.text, Token.text, List.cons_append, hdigits]
  · have hrest := List.prefix_iff_eq_append.mp
      (List.takeWhile_prefix (isTagPart isSpace) : rest.takeWhile (isTagPart isSpace) <+: rest)
    rw [Cut.close_text (fun _ => rfl) fun _ => rfl, readUntil_text, ← List.drop_drop]
    simp only [dollarTag, List.cons_append, List.append_assoc, List.nil_append,
      ← eq_cons_drop_of_head? hclosed, hrest]
  · rfl

theorem readWord_text (c : Char) (rest : List Char) :
    Reading.text (readWord isSpace c rest) = c :: rest := by
  simp only [readWord]
  split_ifs with hescape
  · rw [Cut.close_text (fun _ => rfl) fun _ => rfl, readEscaped_text, List.cons_append,
      List.singleton_append, ← eq_cons_drop_of_head? hescape.2]
  · simp [Reading.text, Token.text]

theorem readToken_text (c : Char) (rest : List Char) :
    Reading.text (readToken isSpace c rest) = c :: rest := by
  simp only [readToken]
  split_ifs with hsemicolon hquote hdouble hline hblock hdollar hword
  · rw [hsemicolon]
    rfl
  · rw [Cut.close_text (fun _ => rfl) fun _ => rfl, hquote, readQuoted_text]
    rfl
  · rw [Cut.close_text (fun _ => rfl) fun _ => rfl, hdouble, readQuoted_text]
    rfl
  · rw [readLineComment_text, hline.1, ← eq_cons_drop_of_head? hline.2]
  · rw [Cut.close_text (fun _ => rfl) fun _ => rfl, readComment_text, hblock.1, List.cons_append,
      List.singleton_append, ← eq_cons_drop_of_head? hblock.2]
  · rw [readDollar_text, hdollar]
  · exact readWord_text isSpace c rest
  · rfl

theorem Token.text_ne_nil (token : Token) : token.text ≠ [] := by
  cases token <;> simp [text, dollarTag]

theorem length_of_readToken {c : Char} {rest after : List Char} {token : Token}
    (hread : readToken isSpace c rest = .ok (token, after)) : after.length < (c :: rest).length := by
  have htext := readToken_text isSpace c rest
  rw [hread] at htext
  rw [← htext, Reading.text, List.length_append]
  have := List.length_pos_of_ne_nil token.text_ne_nil
  omega

structure Lexed where
  tokens : List Token
  unclosed : Option Unclosed

def Lexed.cons (token : Token) (lexed : Lexed) : Lexed :=
  { lexed with tokens := token :: lexed.tokens }

def lex : List Char → Lexed
  | [] => { tokens := [], unclosed := none }
  | c :: rest =>
    match _hread : readToken isSpace c rest with
    | .error unclosed => { tokens := [], unclosed := some unclosed }
    | .ok (token, after) => (lex after).cons token
termination_by chars => chars.length
decreasing_by
  exact length_of_readToken isSpace _hread

theorem lex_cons (c : Char) (rest : List Char) :
    lex isSpace (c :: rest) =
      match readToken isSpace c rest with
      | .error unclosed => { tokens := [], unclosed := some unclosed }
      | .ok (token, after) => (lex isSpace after).cons token := by
  rw [lex]
  split <;> simp_all

theorem lex_induction {motive : List Char → Prop} (hnil : motive [])
    (hunclosed : ∀ c rest unclosed, readToken isSpace c rest = .error unclosed → motive (c :: rest))
    (htoken : ∀ c rest token after, readToken isSpace c rest = .ok (token, after) → motive after →
      motive (c :: rest)) (chars : List Char) : motive chars := by
  fun_induction lex isSpace chars with
  | case1 => exact hnil
  | case2 c rest unclosed hread => exact hunclosed c rest unclosed hread
  | case3 c rest token after hread ih => exact htoken c rest token after hread ih

def tokensText (tokens : List Token) : List Char :=
  tokens.flatMap Token.text

def Lexed.text (lexed : Lexed) : List Char :=
  tokensText lexed.tokens ++ (lexed.unclosed.map Unclosed.text).getD []

theorem lex_text (chars : List Char) : (lex isSpace chars).text = chars := by
  induction chars using lex_induction isSpace with
  | hnil => simp [lex, Lexed.text, tokensText]
  | hunclosed c rest unclosed hread =>
    have htext := readToken_text isSpace c rest
    rw [hread] at htext
    rw [lex_cons, hread]
    exact htext
  | htoken c rest token after hread ih =>
    have htext := readToken_text isSpace c rest
    rw [hread] at htext
    rw [lex_cons, hread]
    simp only [Lexed.text, Lexed.cons, tokensText, List.flatMap_cons, List.append_assoc]
    rw [← htext]
    exact congrArg (token.text ++ ·) ih

/-! ### Statements -/

def Lexed.fragments (lexed : Lexed) : List (List Token) :=
  lexed.tokens.splitOn .semicolon

theorem intercalate_flatMap {α β : Type} (f : α → List β) (separator : α) (lists : List (List α)) :
    ([separator].intercalate lists).flatMap f = (f separator).intercalate (lists.map (·.flatMap f)) := by
  induction lists with
  | nil => rfl
  | cons list lists ih =>
    cases lists with
    | nil => simp
    | cons next lists =>
      simp only [List.intercalate_cons_cons, List.flatMap_append, ih, List.map_cons,
        List.flatMap_cons, List.flatMap_nil, List.append_nil]

theorem Lexed.intercalate_fragments {chars : List Char} (hclosed : (lex isSpace chars).unclosed = none) :
    [';'].intercalate ((lex isSpace chars).fragments.map tokensText) = chars := by
  have htext := lex_text isSpace chars
  have hfragments := intercalate_flatMap Token.text .semicolon (lex isSpace chars).fragments
  rw [Lexed.fragments, List.intercalate_splitOn] at hfragments
  rw [Lexed.text, hclosed, Option.map_none, Option.getD_none, List.append_nil] at htext
  exact hfragments.symm.trans htext

def placeholderNumber (digits : List Char) : Nat :=
  digits.foldl (fun number digit => number * 10 + (digit.toNat - '0'.toNat)) 0

def Token.number : Token → Nat
  | placeholder digits => placeholderNumber digits
  | _ => 0

def maxPlaceholder (fragment : List Token) : Nat :=
  (fragment.map Token.number).foldl max 0

end SqlLexer
