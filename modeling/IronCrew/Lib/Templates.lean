import Mathlib.Data.List.Infix

/-!
# Texts with expressions in them

A template is plain text with expressions in it, each between a dollar sign with an opening brace and
the brace that closes it; braces inside an expression nest, and an expression may be left open at the
end. Data put into a template before it is read is read along with it. That makes no difference exactly
when the parts are separated: no expression opens in the data or across the edge of two parts, and none
is open where a part ends.
-/

namespace Templates

inductive Segment where
  | literal (c : Char)
  | expression (text : List Char)
  deriving DecidableEq

/-- Where a reader stands. `inside` counts the braces open in the expression and holds its text so far. -/
inductive Mode where
  | text
  -- after a dollar sign that may open an expression
  | dollar
  | inside (depth : Nat) (expr : List Char)
  deriving DecidableEq

namespace Mode

def step : Mode → Char → List Segment × Mode
  | text, c => if c = '$' then ([], dollar) else ([.literal c], text)
  | dollar, c =>
    if c = '\x7b' then ([], inside 0 [])
    else if c = '$' then ([.literal '$'], dollar)
    else ([.literal '$', .literal c], text)
  | inside depth expr, c =>
    if c = '\x7b' then ([], inside (depth + 1) (expr ++ [c]))
    else if c = '\x7d' then
      if depth = 0 then ([.expression expr], text) else ([], inside (depth - 1) (expr ++ [c]))
    else ([], inside depth (expr ++ [c]))

def flush : Mode → List Segment
  | text => []
  | dollar => [.literal '$']
  | inside _ expr => [.expression expr]

def emitted : Mode → List Char → List Segment
  | _, [] => []
  | mode, c :: rest => (mode.step c).1 ++ emitted (mode.step c).2 rest

def after (mode : Mode) (chars : List Char) : Mode :=
  chars.foldl (fun mode c => (mode.step c).2) mode

def segments (mode : Mode) (chars : List Char) : List Segment :=
  mode.emitted chars ++ (mode.after chars).flush

def Ready (mode : Mode) (next : List Char) : Prop :=
  next = [] ∨ mode = text ∨ mode = dollar ∧ next.head? ≠ some '\x7b'

instance (mode : Mode) (next : List Char) : Decidable (mode.Ready next) :=
  inferInstanceAs (Decidable (_ ∨ _))

variable (mode : Mode)

@[simp]
theorem segments_nil : mode.segments [] = mode.flush := rfl

@[simp]
theorem segments_cons (c : Char) (rest : List Char) :
    mode.segments (c :: rest) = (mode.step c).1 ++ (mode.step c).2.segments rest := by
  simp [segments, emitted, after]

theorem emitted_append (chars next : List Char) :
    mode.emitted (chars ++ next) = mode.emitted chars ++ (mode.after chars).emitted next := by
  induction chars generalizing mode with
  | nil => rfl
  | cons c chars ih =>
    rw [List.cons_append, emitted, emitted, ih, List.append_assoc]
    rfl

theorem segments_append (chars next : List Char) :
    mode.segments (chars ++ next) = mode.emitted chars ++ (mode.after chars).segments next := by
  have hafter : mode.after (chars ++ next) = (mode.after chars).after next := List.foldl_append
  rw [segments, emitted_append, hafter, List.append_assoc]
  rfl

theorem segments_text_cons {c : Char} {rest : List Char}
    (hplain : ¬ (c = '$' ∧ rest.head? = some '\x7b')) :
    text.segments (c :: rest) = .literal c :: text.segments rest := by
  by_cases hdollar : c = '$'
  · subst hdollar
    cases rest with
    | nil => rfl
    | cons next rest =>
      have hnext : next ≠ '\x7b' := by simpa using hplain
      by_cases hagain : next = '$'
      · subst hagain
        simp [step]
      · simp [step, hnext, hagain]
  · simp [step, hdollar]

theorem Ready.segments {mode : Mode} {next : List Char} (hready : mode.Ready next) :
    mode.segments next = mode.flush ++ text.segments next := by
  obtain rfl | rfl | ⟨rfl, hhead⟩ := hready
  · simp [flush]
  · rfl
  · have hcons := segments_text_cons (c := '$') (fun hopen => hhead hopen.2)
    simpa [step, flush] using hcons

/-! ### Counting segments -/

theorem step_length (c : Char) :
    (mode.step c).1.length + (mode.step c).2.flush.length ≤ mode.flush.length + 1 := by
  cases mode <;> simp only [step] <;> split_ifs <;> simp [flush]

theorem segments_length_le (chars : List Char) :
    (mode.segments chars).length ≤ mode.flush.length + chars.length := by
  induction chars generalizing mode with
  | nil => simp
  | cons c rest ih =>
    have hrest := ih (mode.step c).2
    have hstep := step_length mode c
    simp only [segments_cons, List.length_append, List.length_cons]
    omega

/-- Braces open inside an expression; outside there are none. -/
def depth : Mode → Nat
  | inside depth _ => depth + 1
  | _ => 0

theorem inside_length_le (inner : Nat) (expr : List Char) (mode : Mode) (chars : List Char)
    (hdepth : mode.depth ≤ inner) (hchars : mode = text → chars ≠ []) :
    ((inside inner expr).segments chars).length ≤ (mode.segments chars).length := by
  induction chars generalizing inner expr mode with
  | nil =>
    cases mode with
    | text => exact absurd rfl (hchars rfl)
    | dollar => simp [flush]
    | inside depth expr => simp [flush]
  | cons c rest ih =>
    have hinner : ∀ (inner : Nat) (expr : List Char),
        ((inside inner expr).segments rest).length ≤ 1 + (text.segments rest).length := by
      intro inner expr
      by_cases hrest : rest = []
      · simp [hrest, flush]
      · exact Nat.le_add_left_of_le (ih inner expr text (Nat.zero_le _) fun _ => hrest)
    simp only [segments_cons, List.length_append]
    by_cases hopen : c = '\x7b'
    · subst hopen
      cases mode with
      | text => simpa [step] using hinner _ _
      | dollar => simpa [step] using ih _ _ (inside 0 []) (by simp [depth]) (by simp)
      | inside k e => simpa [step] using ih _ _ (inside (k + 1) _) (Nat.succ_le_succ hdepth) (by simp)
    by_cases hclose : c = '\x7d'
    · subst hclose
      by_cases hzero : inner = 0
      · subst hzero
        cases mode with
        | text => simp [step]
        | dollar => simp [step]
        | inside k e => exact absurd hdepth (by simp [depth])
      · have hnext := hinner (inner - 1) (expr ++ ['\x7d'])
        cases mode with
        | text => simpa [step, hzero] using hnext
        | dollar => simp [step, hzero]; omega
        | inside k e =>
          by_cases hk : k = 0
          · simpa [step, hzero, hk] using hnext
          · have hless : k + 1 ≤ inner := hdepth
            simpa [step, hzero, hk] using
              ih _ _ (inside (k - 1) _) (by simp only [depth]; omega) (by simp)
    have hstep : (inside inner expr).step c = ([], inside inner (expr ++ [c])) := by
      simp [step, hopen, hclose]
    rw [hstep]
    by_cases hdollar : c = '$'
    · subst hdollar
      cases mode with
      | text => simpa [step] using ih _ _ dollar (Nat.zero_le _) (by simp)
      | dollar =>
        have hnext := ih inner (expr ++ ['$']) dollar (Nat.zero_le _) (by simp)
        simp [step]
        omega
      | inside k e => simpa [step] using ih _ _ (inside k (e ++ ['$'])) hdepth (by simp)
    · have hnext := hinner inner (expr ++ [c])
      cases mode with
      | text => simpa [step, hdollar] using hnext
      | dollar => simp [step, hopen, hdollar]; omega
      | inside k e =>
        simpa [step, hopen, hclose] using ih _ _ (inside k (e ++ [c])) hdepth (by simp)

theorem inside_length_le_succ (depth : Nat) (expr chars : List Char) :
    ((inside depth expr).segments chars).length ≤ 1 + (text.segments chars).length := by
  by_cases hchars : chars = []
  · simp [hchars, flush]
  · exact Nat.le_add_left_of_le (inside_length_le depth expr text chars (Nat.zero_le _) fun _ => hchars)

theorem segments_length_lt {mode : Mode} {next : List Char} (hready : ¬ mode.Ready next) :
    (mode.segments next).length < mode.flush.length + (text.segments next).length := by
  simp only [Ready, not_or] at hready
  obtain ⟨hnext, htext, hdollar⟩ := hready
  cases mode with
  | text => exact absurd rfl htext
  | dollar =>
    obtain ⟨rest, rfl⟩ : ∃ rest, next = '\x7b' :: rest := by
      cases next with
      | nil => exact absurd rfl hnext
      | cons c rest =>
        have hopen : c = '\x7b' := by simpa using hdollar
        exact ⟨rest, by rw [hopen]⟩
    have hle := inside_length_le_succ 0 [] rest
    simp only [segments_cons, step, flush, List.length_append]
    simp
    omega
  | inside depth expr =>
    have hle := inside_length_le depth expr text next (Nat.zero_le _) fun _ => hnext
    simp only [flush, List.length_singleton]
    omega

end Mode

/-! ### Plain data -/

def opening : List Char := ['$', '\x7b']

def segments (chars : List Char) : List Segment := Mode.text.segments chars

theorem segments_append_of_ready {chars next : List Char}
    (hready : (Mode.text.after chars).Ready next) :
    segments (chars ++ next) = segments chars ++ segments next := by
  rw [segments, Mode.segments_append, hready.segments, ← List.append_assoc]
  rfl

theorem segments_append_length_lt {chars next : List Char}
    (hready : ¬ (Mode.text.after chars).Ready next) :
    (segments (chars ++ next)).length < (segments chars).length + (segments next).length := by
  have hlt := Mode.segments_length_lt hready
  have hchars : segments chars =
      Mode.text.emitted chars ++ (Mode.text.after chars).flush := rfl
  rw [hchars, segments, Mode.segments_append, List.length_append, List.length_append]
  change _ < _ + (Mode.text.segments next).length
  omega

theorem segments_append_length_le (chars next : List Char) :
    (segments (chars ++ next)).length ≤ (segments chars).length + (segments next).length := by
  by_cases hready : (Mode.text.after chars).Ready next
  · rw [segments_append_of_ready hready, List.length_append]
  · exact (segments_append_length_lt hready).le

theorem segments_of_plain {chars : List Char} (hplain : ¬ opening <:+: chars) :
    segments chars = chars.map .literal := by
  induction chars with
  | nil => rfl
  | cons c rest ih =>
    have hopen : ¬ (c = '$' ∧ rest.head? = some '\x7b') := by
      rintro ⟨rfl, hhead⟩
      obtain ⟨tail, rfl⟩ := List.head?_eq_some_iff.mp hhead
      exact hplain ⟨[], tail, rfl⟩
    have hrest := ih fun hopens => hplain (hopens.trans (List.suffix_cons c rest).isInfix)
    rw [segments, Mode.segments_text_cons hopen, List.map_cons, ← hrest]
    rfl

theorem segments_length_lt_of_opening {chars : List Char} (hopening : opening <:+: chars) :
    (segments chars).length < chars.length := by
  obtain ⟨before, after, rfl⟩ := hopening
  have happend := segments_append_length_le before (opening ++ after)
  have hbefore := Mode.segments_length_le .text before
  have hafter := Mode.segments_length_le (.inside 0 []) after
  have hopened : segments (opening ++ after) = (Mode.inside 0 []).segments after := rfl
  rw [hopened] at happend
  simp only [segments, Mode.flush, opening, List.append_assoc, List.length_append, List.length_cons,
    List.length_nil] at happend hbefore hafter ⊢
  omega

/-! ### Templates with data in them -/

inductive Piece where
  | template (text : List Char)
  | data (text : List Char)

namespace Piece

def text : Piece → List Char
  | template text => text
  | data text => text

def expand : Piece → List Segment
  | template text => segments text
  | data text => text.map .literal

def Plain : Piece → Prop
  | template _ => True
  | data text => ¬ opening <:+: text

instance : (piece : Piece) → Decidable piece.Plain
  | template _ => isTrue trivial
  | data text => inferInstanceAs (Decidable (¬ opening <:+: text))

theorem Plain.segments_eq {piece : Piece} (hplain : piece.Plain) :
    segments piece.text = piece.expand := by
  cases piece with
  | template text => rfl
  | data text => exact segments_of_plain hplain

theorem segments_length_le (piece : Piece) : (segments piece.text).length ≤ piece.expand.length := by
  cases piece with
  | template text => exact Nat.le_refl _
  | data text => simpa [Mode.flush, Piece.text, expand, segments] using Mode.segments_length_le .text text

theorem segments_length_lt {piece : Piece} (hplain : ¬ piece.Plain) :
    (segments piece.text).length < piece.expand.length := by
  cases piece with
  | template text => exact absurd trivial hplain
  | data text => simpa [Piece.text, expand] using segments_length_lt_of_opening (not_not.mp hplain)

end Piece

def substituted (pieces : List Piece) : List Char := pieces.flatMap Piece.text

def expand (pieces : List Piece) : List Segment := pieces.flatMap Piece.expand

def Piece.take (count : Nat) : Piece → Piece
  | .template text => .template (text.take count)
  | .data text => .data (text.take count)

/-- The pieces of the first `count` characters. -/
def takePieces : Nat → List Piece → List Piece
  | _, [] => []
  | count, piece :: rest =>
    if piece.text.length ≤ count then piece :: takePieces (count - piece.text.length) rest
    else [piece.take count]

def extendPieces (suffix : List Char) : List Piece → List Piece
  | [] => [.template suffix]
  | [.template text] => [.template (text ++ suffix)]
  | piece :: rest => piece :: extendPieces suffix rest

theorem substituted_takePieces (count : Nat) (pieces : List Piece) :
    substituted (takePieces count pieces) = (substituted pieces).take count := by
  induction pieces generalizing count with
  | nil => simp [takePieces, substituted]
  | cons piece rest ih =>
    simp only [substituted] at ih
    simp only [takePieces, substituted, List.flatMap_cons, List.take_append]
    split
    next hfits => rw [List.flatMap_cons, ih, List.take_of_length_le hfits]
    next hcut =>
      rw [Nat.sub_eq_zero_of_le (Nat.le_of_not_le hcut), List.take_zero]
      cases piece <;> simp [Piece.take, Piece.text]

theorem substituted_extendPieces (suffix : List Char) (pieces : List Piece) :
    substituted (extendPieces suffix pieces) = substituted pieces ++ suffix := by
  fun_induction extendPieces suffix pieces with
  | case1 => simp [substituted, Piece.text]
  | case2 text => simp [substituted, Piece.text]
  | case3 piece rest hrest ih =>
    simp only [substituted, List.flatMap_cons, List.append_assoc] at ih ⊢
    rw [ih]

/-- No expression opens in data or across the edge of a piece, or is open at one. -/
def Separated : List Piece → Prop
  | [] => True
  | piece :: rest =>
    piece.Plain ∧ (Mode.text.after piece.text).Ready (substituted rest) ∧ Separated rest

instance : (pieces : List Piece) → Decidable (Separated pieces)
  | [] => isTrue trivial
  | _ :: rest =>
    have := instDecidableSeparated rest
    inferInstanceAs (Decidable (_ ∧ _ ∧ _))

theorem segments_substituted_length_le (pieces : List Piece) :
    (segments (substituted pieces)).length ≤ (expand pieces).length := by
  induction pieces with
  | nil => exact Nat.le_refl _
  | cons piece rest ih =>
    have happend := segments_append_length_le piece.text (substituted rest)
    have hpiece := piece.segments_length_le
    simp only [substituted, expand, List.flatMap_cons, List.length_append] at happend ih ⊢
    omega

theorem Separated.segments_eq {pieces : List Piece} (hseparated : Separated pieces) :
    segments (substituted pieces) = expand pieces := by
  induction pieces with
  | nil => rfl
  | cons piece rest ih =>
    obtain ⟨hplain, hready, hrest⟩ := hseparated
    calc segments (substituted (piece :: rest))
        = segments piece.text ++ segments (substituted rest) := segments_append_of_ready hready
      _ = piece.expand ++ expand rest := by rw [hplain.segments_eq, ih hrest]
      _ = expand (piece :: rest) := rfl

theorem segments_length_lt_of_not_separated {pieces : List Piece} (hjoined : ¬ Separated pieces) :
    (segments (substituted pieces)).length < (expand pieces).length := by
  induction pieces with
  | nil => exact absurd trivial hjoined
  | cons piece rest ih =>
    have happend := segments_append_length_le piece.text (substituted rest)
    have hpiece := piece.segments_length_le
    have hrest := segments_substituted_length_le rest
    simp only [substituted, expand, List.flatMap_cons, List.length_append] at happend ih hrest ⊢
    by_cases hplain : piece.Plain
    · by_cases hready : (Mode.text.after piece.text).Ready (substituted rest)
      · have hlater := ih fun hseparated => hjoined ⟨hplain, hready, hseparated⟩
        omega
      · have hlt := segments_append_length_lt hready
        simp only [substituted] at hlt
        omega
    · have hlt := Piece.segments_length_lt hplain
      omega

theorem segments_substituted_iff (pieces : List Piece) :
    segments (substituted pieces) = expand pieces ↔ Separated pieces := by
  refine ⟨fun heq => ?_, Separated.segments_eq⟩
  by_contra hjoined
  exact absurd (congrArg List.length heq) (segments_length_lt_of_not_separated hjoined).ne

/-! ### The brace that closes an expression -/

/-- Read from inside `depth` braces: none of them is closed twice, and at the end all are closed. -/
structure Closes (depth : Nat) (text : List Char) : Prop where
  within : ∀ before, before <+: text → before.count '\x7d' ≤ depth + before.count '\x7b'
  closed : text.count '\x7d' = depth + text.count '\x7b'

/-- What stands between an opening brace and the brace that matches it. -/
abbrev Balanced (text : List Char) : Prop := Closes 0 text

theorem closes_nil (depth : Nat) : Closes depth [] ↔ depth = 0 := by
  refine ⟨fun hcloses => by simpa using hcloses.closed.symm, fun hdepth => ⟨fun before hbefore => ?_, ?_⟩⟩
  · simp [List.prefix_nil.mp hbefore]
  · simp [hdepth]

theorem closes_cons (depth : Nat) (c : Char) (text : List Char) :
    Closes depth (c :: text) ↔
      if c = '\x7b' then Closes (depth + 1) text
      else if c = '\x7d' then 0 < depth ∧ Closes (depth - 1) text
      else Closes depth text := by
  have hwithin : ∀ (d : Nat), (∀ before, before <+: c :: text →
      before.count '\x7d' ≤ d + before.count '\x7b') ↔
      ∀ before, before <+: text →
        (c :: before).count '\x7d' ≤ d + (c :: before).count '\x7b' := by
    intro d
    refine ⟨fun hall before hbefore => hall _ ((List.prefix_cons_inj c).mpr hbefore), ?_⟩
    intro hall before hbefore
    rcases List.prefix_cons_iff.mp hbefore with rfl | ⟨rest, rfl, hrest⟩
    · simp
    · exact hall rest hrest
  by_cases hopen : c = '\x7b'
  · subst hopen
    rw [if_pos rfl]
    refine ⟨fun ⟨hall, hclosed⟩ => ⟨fun before hbefore => ?_, ?_⟩,
      fun ⟨hall, hclosed⟩ => ⟨(hwithin depth).mpr fun before hbefore => ?_, ?_⟩⟩
    · have hcons := (hwithin depth).mp hall before hbefore
      simp at hcons
      omega
    · simp at hclosed
      omega
    · have htext := hall before hbefore
      simp
      omega
    · simp
      omega
  by_cases hclose : c = '\x7d'
  · subst hclose
    rw [if_neg hopen, if_pos rfl]
    refine ⟨fun ⟨hall, hclosed⟩ => ?_, fun ⟨hdepth, hall, hclosed⟩ =>
      ⟨(hwithin depth).mpr fun before hbefore => ?_, ?_⟩⟩
    · have hfirst := (hwithin depth).mp hall [] List.nil_prefix
      simp at hfirst
      refine ⟨hfirst, ⟨fun before hbefore => ?_, ?_⟩⟩
      · have hcons := (hwithin depth).mp hall before hbefore
        simp at hcons
        omega
      · simp at hclosed
        omega
    · have htext := hall before hbefore
      simp
      omega
    · simp
      omega
  · rw [if_neg hopen, if_neg hclose]
    have hcount : ∀ rest : List Char, (c :: rest).count '\x7d' = rest.count '\x7d' ∧
        (c :: rest).count '\x7b' = rest.count '\x7b' := by
      intro rest
      exact ⟨List.count_cons_of_ne hclose, List.count_cons_of_ne hopen⟩
    refine ⟨fun ⟨hall, hclosed⟩ => ⟨fun before hbefore => ?_, ?_⟩,
      fun ⟨hall, hclosed⟩ => ⟨(hwithin depth).mpr fun before hbefore => ?_, ?_⟩⟩
    · simpa [hcount before] using (hwithin depth).mp hall before hbefore
    · simpa [hcount text] using hclosed
    · simpa [hcount before] using hall before hbefore
    · simpa [hcount text] using hclosed

/-- The matching brace is the first at which all are closed, so no other matches. -/
theorem Balanced.eq_of_append_eq {expr other rest otherRest : List Char} (hexpr : Balanced expr)
    (hother : Balanced other) (htext : expr ++ '\x7d' :: rest = other ++ '\x7d' :: otherRest) :
    expr = other := by
  have hnot : ∀ {short long shortRest longRest : List Char}, Balanced short → Balanced long →
      short ++ '\x7d' :: shortRest = long ++ '\x7d' :: longRest → ¬ short.length < long.length := by
    intro short long shortRest longRest hshort hlong heq hlength
    have hwhole : short ++ ['\x7d'] <+: long ++ '\x7d' :: longRest := ⟨shortRest, by simp [← heq]⟩
    have hbefore : short ++ ['\x7d'] <+: long :=
      List.prefix_of_prefix_length_le hwhole (List.prefix_append _ _)
        (by simpa [Nat.succ_le_iff] using hlength)
    have hwithin := hlong.within _ hbefore
    have hclosed := hshort.closed
    simp at hwithin hclosed
    omega
  have hlength : expr.length = other.length :=
    Nat.le_antisymm (Nat.le_of_not_lt (hnot hother hexpr htext.symm))
      (Nat.le_of_not_lt (hnot hexpr hother htext))
  exact (List.append_inj htext hlength).1

theorem Mode.inside_segments (depth : Nat) (expr text : List Char) :
    (∃ body rest, text = body ++ '\x7d' :: rest ∧ Closes depth body ∧
        (Mode.inside depth expr).segments text = .expression (expr ++ body) :: Mode.text.segments rest) ∨
      (∀ body rest, text = body ++ '\x7d' :: rest → ¬ Closes depth body) ∧
        (Mode.inside depth expr).segments text = [.expression (expr ++ text)] := by
  induction text generalizing depth expr with
  | nil => exact .inr ⟨by simp, by simp [flush]⟩
  | cons c text ih =>
    -- the reader goes on inside, at another depth
    have hgoes : ∀ next, (Mode.inside depth expr).step c = ([], .inside next (expr ++ [c])) →
        (∀ body, Closes depth (c :: body) ↔ Closes next body) →
        (c = '\x7d' → ¬ Closes depth []) →
        (∃ body rest, c :: text = body ++ '\x7d' :: rest ∧ Closes depth body ∧
          (Mode.inside depth expr).segments (c :: text) =
            .expression (expr ++ body) :: Mode.text.segments rest) ∨
        (∀ body rest, c :: text = body ++ '\x7d' :: rest → ¬ Closes depth body) ∧
          (Mode.inside depth expr).segments (c :: text) = [.expression (expr ++ c :: text)] := by
      intro next hstep hcloses hfirst
      rw [segments_cons, hstep]
      obtain ⟨body, rest, rfl, hbody, hsegments⟩ | ⟨hnone, hsegments⟩ := ih next (expr ++ [c])
      · exact .inl ⟨c :: body, rest, rfl, (hcloses body).mpr hbody, by simpa using hsegments⟩
      · refine .inr ⟨fun body rest htext => ?_, by simpa using hsegments⟩
        cases body with
        | nil =>
          obtain ⟨rfl, rfl⟩ := List.cons_eq_cons.mp htext
          exact hfirst rfl
        | cons first body =>
          obtain ⟨rfl, rfl⟩ := List.cons_eq_cons.mp htext
          exact fun hclosed => hnone body rest rfl ((hcloses body).mp hclosed)
    by_cases hopen : c = '\x7b'
    · subst hopen
      exact hgoes (depth + 1) rfl (fun body => by rw [closes_cons, if_pos rfl]) (by simp)
    by_cases hclose : c = '\x7d'
    · subst hclose
      by_cases hzero : depth = 0
      · subst hzero
        exact .inl ⟨[], text, rfl, (closes_nil 0).mpr rfl, by simp [step]⟩
      · refine hgoes (depth - 1) (by simp [step, hzero]) (fun body => ?_) fun _ => ?_
        · rw [closes_cons, if_neg hopen, if_pos rfl, and_iff_right (Nat.pos_of_ne_zero hzero)]
        · rwa [closes_nil]
    · exact hgoes depth (by simp [step, hopen, hclose])
        (fun body => by rw [closes_cons, if_neg hopen, if_neg hclose]) fun heq => absurd heq hclose

section Plain

variable {plain : List Char} (hopen : '\x7b' ∉ plain) (hclose : '\x7d' ∉ plain)

include hopen hclose

theorem closes_plain_append (depth : Nat) (text : List Char) :
    Closes depth (plain ++ text) ↔ Closes depth text := by
  induction plain with
  | nil => rfl
  | cons c plain ih =>
    rw [List.mem_cons, not_or] at hopen hclose
    rw [List.cons_append, closes_cons, if_neg (Ne.symm hopen.1), if_neg (Ne.symm hclose.1),
      ih hopen.2 hclose.2]

theorem closes_append_plain (depth : Nat) (text : List Char) :
    Closes depth (text ++ plain) ↔ Closes depth text := by
  induction text generalizing depth with
  | nil =>
    have hplain := closes_plain_append hopen hclose depth []
    rwa [List.append_nil] at hplain
  | cons c text ih => rw [List.cons_append, closes_cons, closes_cons, ih, ih, ih]

end Plain

/-- An expression up to its matching brace is read apart from what comes behind it. -/
theorem segments_expression {expr : List Char} (hexpr : Balanced expr) (rest : List Char) :
    segments (opening ++ expr ++ '\x7d' :: rest) = .expression expr :: segments rest := by
  have hinside : segments (opening ++ expr ++ '\x7d' :: rest) =
      (Mode.inside 0 []).segments (expr ++ '\x7d' :: rest) := rfl
  rw [hinside]
  obtain ⟨body, tail, htext, hbody, hread⟩ | ⟨hnone, -⟩ :=
    Mode.inside_segments 0 [] (expr ++ '\x7d' :: rest)
  · obtain rfl := hexpr.eq_of_append_eq hbody htext
    have htail : rest = tail := by simpa using htext
    rw [hread, htail]
    rfl
  · exact absurd hexpr (hnone expr rest rfl)

theorem Mode.length_le_of_mem_segments {mode : Mode} {chars expr : List Char}
    (hexpr : Segment.expression expr ∈ mode.segments chars) :
    (∃ depth before, mode = inside depth before ∧ expr.length ≤ before.length + chars.length) ∨
      expr.length ≤ chars.length := by
  induction chars generalizing mode with
  | nil =>
    cases mode with
    | text => simp [flush] at hexpr
    | dollar => simp [flush] at hexpr
    | inside depth before =>
      obtain rfl : expr = before := by simpa [flush] using hexpr
      exact .inl ⟨depth, expr, rfl, Nat.le_add_right _ _⟩
  | cons c rest ih =>
    rw [segments_cons, List.mem_append] at hexpr
    cases mode with
    | text =>
      simp only [step] at hexpr
      split at hexpr
      all_goals
        rcases hexpr with hnow | hlater
        · simp at hnow
        · rcases ih hlater with ⟨_, _, hmode, _⟩ | hle
          · cases hmode
          · exact .inr (Nat.le_succ_of_le hle)
    | dollar =>
      simp only [step] at hexpr
      split at hexpr
      · rcases hexpr with hnow | hlater
        · simp at hnow
        · rcases ih hlater with ⟨_, before, hmode, hle⟩ | hle
          · obtain ⟨-, rfl⟩ := Mode.inside.inj hmode
            exact .inr (Nat.le_succ_of_le (by simpa using hle))
          · exact .inr (Nat.le_succ_of_le hle)
      · split at hexpr
        all_goals
          rcases hexpr with hnow | hlater
          · simp at hnow
          · rcases ih hlater with ⟨_, _, hmode, _⟩ | hle
            · cases hmode
            · exact .inr (Nat.le_succ_of_le hle)
    | inside depth before =>
      -- inside, the character joins the text of the expression or closes it
      have hgoes : ∀ next, Segment.expression expr ∈ (inside next (before ++ [c])).segments rest →
          expr.length ≤ before.length + (rest.length + 1) := by
        intro next hlater
        rcases ih hlater with ⟨_, _, hmode, hle⟩ | hle
        · obtain ⟨-, rfl⟩ := Mode.inside.inj hmode
          simp only [List.length_append, List.length_singleton] at hle
          omega
        · omega
      refine .inl ⟨depth, before, rfl, ?_⟩
      simp only [step] at hexpr
      split at hexpr
      · exact hgoes _ (by simpa using hexpr)
      · split at hexpr
        · split at hexpr
          · rcases hexpr with hnow | hlater
            · obtain rfl : expr = before := by simpa using hnow
              exact Nat.le_add_right _ _
            · rcases ih hlater with ⟨_, _, hmode, _⟩ | hle
              · cases hmode
              · simp only [List.length_cons]
                omega
          · exact hgoes _ (by simpa using hexpr)
        · exact hgoes _ (by simpa using hexpr)

theorem length_le_of_mem_segments {chars expr : List Char}
    (hexpr : Segment.expression expr ∈ segments chars) : expr.length ≤ chars.length := by
  rcases Mode.length_le_of_mem_segments hexpr with ⟨_, _, hmode, _⟩ | hle
  · cases hmode
  · exact hle

/-! ### Expansion in one pass -/

/-- The expansion of a template: each expression, up to its matching brace, gives the value that it
names, or nothing, and reading goes on behind it. -/
inductive Expands (value : List Char → Option (List Char)) : List Char → List Char → Prop
  | done : Expands value [] []
  | literal {c : Char} {rest text : List Char} (hplain : ¬ opening <+: c :: rest)
      (hrest : Expands value rest text) : Expands value (c :: rest) (c :: text)
  | expression {expr rest text : List Char} (hexpr : Balanced expr) (hrest : Expands value rest text) :
      Expands value (opening ++ expr ++ '\x7d' :: rest) ((value expr).getD [] ++ text)
  | unterminated {expr : List Char}
      (hopen : ∀ body rest, expr = body ++ '\x7d' :: rest → ¬ Balanced body) :
      Expands value (opening ++ expr) ((value expr).getD [])

def Segment.expansion (value : List Char → Option (List Char)) : Segment → List Char
  | literal c => [c]
  | expression text => (value text).getD []

variable {value : List Char → Option (List Char)}

theorem expands_segments (value : List Char → Option (List Char)) (chars : List Char) :
    Expands value chars ((segments chars).flatMap (Segment.expansion value)) := by
  induction hlength : chars.length using Nat.strong_induction_on generalizing chars with
  | _ length ih =>
    subst hlength
    cases chars with
    | nil => exact .done
    | cons c rest =>
      by_cases hopens : opening <+: c :: rest
      · obtain ⟨inner, hinner⟩ := hopens
        rw [← hinner] at ih ⊢
        have hsegments : segments (opening ++ inner) = (Mode.inside 0 []).segments inner := rfl
        rw [hsegments]
        obtain ⟨body, after, rfl, hbody, hread⟩ | ⟨hnone, hread⟩ := Mode.inside_segments 0 [] inner
        · rw [hread, List.flatMap_cons, ← List.append_assoc]
          refine .expression hbody (ih _ ?_ after rfl)
          simp
          omega
        · rw [hread]
          simpa [Segment.expansion] using Expands.unterminated hnone
      · have hplain : ¬ (c = '$' ∧ rest.head? = some '\x7b') := by
          rintro ⟨rfl, hhead⟩
          obtain ⟨tail, rfl⟩ := List.head?_eq_some_iff.mp hhead
          exact hopens ⟨tail, rfl⟩
        rw [segments, Mode.segments_text_cons hplain]
        exact .literal hopens (ih rest.length (Nat.lt_succ_self _) rest rfl)

theorem Expands.eq {chars text : List Char} (hexpands : Expands value chars text)
    {other : List Char} (hother : Expands value chars other) : text = other := by
  induction hexpands generalizing other with
  | done => cases hother with | done => rfl
  | @literal c rest text hplain hrest ih =>
    generalize hchars : c :: rest = chars at hother
    cases hother with
    | done => simp at hchars
    | literal _ hnext =>
      obtain ⟨rfl, rfl⟩ := List.cons_eq_cons.mp hchars
      rw [ih hnext]
    | expression => exact absurd ⟨_, by rw [hchars, List.append_assoc]⟩ hplain
    | unterminated => exact absurd ⟨_, hchars.symm⟩ hplain
  | @expression expr rest text hexpr hrest ih =>
    generalize hchars : opening ++ expr ++ '\x7d' :: rest = chars at hother
    cases hother with
    | done => simp [opening] at hchars
    | literal hplain => exact absurd ⟨_, by rw [← hchars, List.append_assoc]⟩ hplain
    | @expression otherExpr otherRest otherText hotherExpr hotherRest =>
      rw [List.append_assoc, List.append_assoc, List.append_cancel_left_eq] at hchars
      obtain rfl := hexpr.eq_of_append_eq hotherExpr hchars
      rw [List.append_cancel_left_eq, List.cons_eq_cons] at hchars
      obtain ⟨-, rfl⟩ := hchars
      rw [ih hotherRest]
    | unterminated hopen =>
      rw [List.append_assoc, List.append_cancel_left_eq] at hchars
      exact absurd hexpr (hopen expr rest hchars.symm)
  | @unterminated expr hopen =>
    generalize hchars : opening ++ expr = chars at hother
    cases hother with
    | done => simp [opening] at hchars
    | literal hplain => exact absurd ⟨_, hchars⟩ hplain
    | expression hotherExpr =>
      rw [List.append_assoc, List.append_cancel_left_eq] at hchars
      exact absurd hotherExpr (hopen _ _ hchars)
    | unterminated =>
      rw [List.append_cancel_left_eq] at hchars
      rw [hchars]

end Templates
