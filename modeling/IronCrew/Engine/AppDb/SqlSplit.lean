import IronCrew.Utils.Text

/-!
# Splitting declared operations into statements

The body of an operation is cut at its semicolons, and the highest placeholder of every statement is
kept. The splitter knows single-quoted strings, dollar-quoted strings and the two kinds of comments; what
is in them neither cuts nor counts.
-/

namespace IronCrew

structure SplitStatement where
  sql : String
  maxPlaceholder : Nat
  deriving DecidableEq

namespace SqlSplit

inductive State where
  | normal
  | singleQuote
  | lineComment
  | blockComment
  | dollarQuote (tag : List Char)

/-- The variables of the loop. -/
structure Splitter where
  state : State := .normal
  current : List Char := []
  hasContent : Bool := false
  maxPlaceholder : Nat := 0
  statements : List SplitStatement := []

/-- `parse::<usize>`, of digits. -/
def parseUsize (digits : List Char) : Option Nat :=
  let number := digits.foldl (fun number digit => number * 10 + (digit.toNat - '0'.toNat)) 0
  if number < 2 ^ 64 then some number else none

/-- A placeholder and the characters it takes, given what follows its dollar sign. -/
def readPlaceholder (rest : List Char) : Option (Nat × Nat) :=
  let digits := rest.takeWhile Char.isDigit
  if digits.isEmpty then none
  else (parseUsize digits).map fun placeholder => (placeholder, 1 + digits.length)

/-- The opening tag of a dollar-quoted string and the characters it takes, given what follows its dollar
sign. -/
def readDollarTag : List Char → Option (List Char × Nat)
  | [] => none
  | c :: rest =>
    if c = '$' then some ([], 2)
    else if c.isAlphanum ∨ c = '_' then
      (readDollarTag rest).map fun tag => (c :: tag.1, tag.2 + 1)
    else none

def closingTag (tag : List Char) : List Char := '$' :: tag ++ ['$']

namespace Splitter

def pushStatement (splitter : Splitter) : Splitter :=
  let sql := trimText (String.ofList splitter.current)
  let statement := { sql, maxPlaceholder := splitter.maxPlaceholder }
  { state := splitter.state
    statements :=
      if splitter.hasContent ∧ !sql.isEmpty then splitter.statements ++ [statement]
      else splitter.statements }

/-- The end of an iteration: the character is taken in the state that it led to. -/
def push (splitter : Splitter) (state : State) (c : Char) : Splitter :=
  let content :=
    match state with
    | .normal => !isUnicodeWhitespace c
    | .singleQuote | .dollarQuote _ => true
    | .lineComment | .blockComment => false
  { splitter with
    state
    current := splitter.current ++ [c]
    hasContent := splitter.hasContent || content }

/-- One iteration at `c`, and what it leaves to read. -/
def step (splitter : Splitter) (c : Char) (rest : List Char) : Splitter × List Char :=
  match splitter.state with
  | .normal =>
    if c = ';' then (splitter.pushStatement, rest)
    else if c = '\'' then (splitter.push .singleQuote c, rest)
    else if c = '-' ∧ rest.head? = some '-' then (splitter.push .lineComment c, rest)
    else if c = '/' ∧ rest.head? = some '*' then (splitter.push .blockComment c, rest)
    else if c = '$' then
      match readPlaceholder rest with
      | some (placeholder, consumed) =>
        ({ splitter with
            maxPlaceholder := max splitter.maxPlaceholder placeholder
            current := splitter.current ++ (c :: rest).take consumed
            hasContent := true },
          rest.drop (consumed - 1))
      | none =>
        match readDollarTag rest with
        | some (tag, consumed) =>
          ({ splitter with
              state := .dollarQuote tag
              current := splitter.current ++ (c :: rest).take consumed
              hasContent := true },
            rest.drop (consumed - 1))
        | none => (splitter.push .normal c, rest)
    else (splitter.push .normal c, rest)
  | .singleQuote =>
    if c = '\'' then
      -- a doubled quote stays in the string
      if rest.head? = some '\'' then
        ({ splitter with current := splitter.current ++ ['\''] }.push .singleQuote c, rest.drop 1)
      else (splitter.push .normal c, rest)
    else (splitter.push .singleQuote c, rest)
  | .lineComment =>
    if c = '\n' then (splitter.push .normal c, rest) else (splitter.push .lineComment c, rest)
  | .blockComment =>
    if c = '*' ∧ rest.head? = some '/' then
      ({ splitter with state := .normal, current := splitter.current ++ ['*', '/'] }, rest.drop 1)
    else (splitter.push .blockComment c, rest)
  | .dollarQuote tag =>
    if c = '$' ∧ closingTag tag <+: c :: rest then
      ({ splitter with state := .normal, current := splitter.current ++ closingTag tag },
        rest.drop ((closingTag tag).length - 1))
    else (splitter.push (.dollarQuote tag) c, rest)

theorem step_rest (splitter : Splitter) (c : Char) (rest : List Char) :
    (splitter.step c rest).2.length ≤ rest.length := by
  unfold step
  repeat' split
  all_goals simp

def run (splitter : Splitter) : List Char → Splitter
  | [] => splitter
  | c :: rest => run (splitter.step c rest).1 (splitter.step c rest).2
termination_by chars => chars.length
decreasing_by
  exact Nat.lt_succ_of_le (splitter.step_rest c rest)

def finish (splitter : Splitter) : Except String (List SplitStatement) :=
  match splitter.state with
  | .normal | .lineComment => .ok splitter.pushStatement.statements
  | .singleQuote => .error "unterminated single-quoted string"
  | .blockComment => .error "unterminated block comment"
  | .dollarQuote tag =>
    .error ("unterminated dollar-quoted string ($" ++ String.ofList tag ++ "$)")

end Splitter

end SqlSplit

open SqlSplit in
def splitStatements (sql : String) : Except String (List SplitStatement) :=
  (Splitter.run {} sql.toList).finish

end IronCrew
