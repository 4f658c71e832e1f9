import IronCrew.Lib.Lines
import IronCrew.Utils.Text

/-!
# The lines do not depend on the chunks

After any chunks the buffer holds what the whole stream so far has left behind its last line end. The
scan of a filled buffer finds the lines that the next chunk has ended, and these are the next lines of
the stream.
-/

namespace IronCrew

open Checked Lines Outcome

def stripReturn (line : List UInt8) : List UInt8 :=
  if line.getLast? = some carriageReturn then line.dropLast else line

def IsText (bytes : List UInt8) : Prop := ByteArray.IsValidUTF8 ⟨bytes.toArray⟩

theorem decodeUtf8_eq_some_iff {bytes : List UInt8} {text : String} :
    decodeUtf8 bytes = some text ↔ text.toUTF8.data.toList = bytes := by
  unfold decodeUtf8 String.fromUTF8?
  constructor
  · intro hdecode
    split_ifs at hdecode with hvalid
    obtain rfl := Option.some.inj hdecode
    simp [String.fromUTF8]
  · rintro rfl
    have hvalid : ByteArray.IsValidUTF8 ⟨text.toUTF8.data.toList.toArray⟩ := text.isValidUTF8
    rw [dif_pos hvalid]
    rfl

theorem decodeUtf8_eq_none_iff {bytes : List UInt8} : decodeUtf8 bytes = none ↔ ¬ IsText bytes := by
  simp [decodeUtf8, String.fromUTF8?, IsText]

def decodeLines (lines : List (List UInt8)) : Option (List String) :=
  lines.mapM fun line => decodeUtf8 (stripReturn line)

theorem decodeLines_append (front back : List (List UInt8)) :
    decodeLines (front ++ back) = do
      let texts ← decodeLines front
      let more ← decodeLines back
      return texts ++ more :=
  List.mapM_append

variable {texts : List String}

theorem decodeLines_eq_some {lines : List (List UInt8)} (hdecode : decodeLines lines = some texts) :
    texts.map (fun text => text.toUTF8.data.toList) = lines.map stripReturn := by
  induction lines generalizing texts with
  | nil =>
    obtain rfl : [] = texts := Option.some.inj hdecode
    rfl
  | cons line lines ih =>
    simp only [decodeLines, List.mapM_cons, Option.bind_eq_bind, Option.bind_eq_some_iff] at hdecode
    obtain ⟨text, htext, more, hmore, hcons⟩ := hdecode
    obtain rfl := Option.some.inj hcons
    rw [List.map_cons, List.map_cons, ih hmore, decodeUtf8_eq_some_iff.mp htext]

theorem decodeLines_eq_none_iff {lines : List (List UInt8)} :
    decodeLines lines = none ↔ ∃ line ∈ lines, ¬ IsText (stripReturn line) := by
  induction lines with
  | nil => simp [decodeLines]
  | cons line lines ih =>
    rw [List.exists_mem_cons_iff, ← ih, ← decodeUtf8_eq_none_iff]
    simp only [decodeLines, List.mapM_cons, Option.bind_eq_bind]
    cases decodeUtf8 (stripReturn line) with
    | none => simp
    | some text =>
      cases lines.mapM fun line => decodeUtf8 (stripReturn line) <;> simp

namespace BoundedLineBuffer

/-! ### The scan -/

theorem line_eq (front line rest : List UInt8) :
    let index := (front ++ line).length
    let buffer := front ++ line ++ newline :: rest
    (buffer.take
        (if front.length < index ∧ buffer[index - 1]? = some carriageReturn then index - 1
          else index)).drop front.length = stripReturn line := by
  obtain rfl | ⟨line, last, rfl⟩ := List.eq_nil_or_concat' line
  · simp [stripReturn]
  · have hindex : (front ++ (line ++ [last])).length - 1 = (front ++ line).length := by
      simp only [List.length_append, List.length_singleton]
      omega
    have hlast : (front ++ (line ++ [last]) ++ newline :: rest)[(front ++ line).length]? = some last := by
      have hsplit : front ++ (line ++ [last]) ++ newline :: rest =
          (front ++ line) ++ last :: newline :: rest := by simp
      rw [hsplit, List.getElem?_append_right (Nat.le_refl _), Nat.sub_self]
      rfl
    have hlt : front.length < (front ++ (line ++ [last])).length := by
      simp only [List.length_append, List.length_singleton]
      omega
    simp only [hindex, hlast, hlt, true_and, Option.some.injEq, stripReturn, List.getLast?_concat]
    split_ifs with hreturn
    · have hsplit : front ++ (line ++ [last]) ++ newline :: rest =
          (front ++ line) ++ last :: newline :: rest := by simp
      rw [hsplit, List.take_left, List.drop_left, List.dropLast_concat]
    · rw [List.take_left, List.drop_left]

theorem scan_eq (rest : List UInt8) (context : String) (scanned : List UInt8) :
    scanned.zipIdx.foldlM (scanByte (scanned ++ rest) context) ([], 0) =
      match decodeLines (cut newline scanned).1 with
      | some texts => .ok (texts, scanned.length - (cut newline scanned).2.length)
      | none => .error (.invalidUtf8 context) := by
  induction scanned using List.reverseRecOn generalizing rest with
  | nil => rfl
  | append_singleton scanned byte ih =>
    have hjoined := @cut_joined _ _ newline scanned
    have hscanned := ih (byte :: rest)
    rw [cut_concat, step]
    generalize cut newline scanned = state at hjoined hscanned
    obtain ⟨lines, tail⟩ := state
    have hstart : scanned.length - tail.length = (lines.map (· ++ [newline])).flatten.length := by
      rw [hjoined, List.length_append, Nat.add_sub_cancel]
    have hbuffer : scanned ++ [byte] ++ rest = scanned ++ byte :: rest := by simp
    rw [List.zipIdx_append, List.foldlM_append, hbuffer, hscanned, hstart]
    generalize (lines.map (· ++ [newline])).flatten = front at hjoined
    simp only at hjoined
    by_cases hbyte : byte = newline
    · rw [if_pos hbyte, decodeLines_append]
      cases decodeLines lines with
      | none => rfl
      | some texts =>
        have hline := line_eq front tail rest
        simp only [ok_bind, List.zipIdx_singleton, List.foldlM_cons, List.foldlM_nil, Nat.zero_add]
        subst hbyte hjoined
        simp only [scanByte, if_true, hline, decodeLines, List.mapM_cons, List.mapM_nil]
        cases decodeUtf8 (stripReturn tail) with
        | none => rfl
        | some text =>
          have hnext : (front ++ tail ++ [newline]).length - 0 = (front ++ tail).length + 1 := by
            rw [List.length_append, List.length_singleton, Nat.sub_zero]
          exact congrArg (fun start => Except.ok (texts ++ [text], start)) hnext.symm
    · rw [if_neg hbyte]
      cases decodeLines lines with
      | none => rfl
      | some texts =>
        simp only [ok_bind, List.zipIdx_singleton, List.foldlM_cons, List.foldlM_nil, Nat.zero_add,
          scanByte, if_neg hbyte]
        have hsame : (scanned ++ [byte]).length - (tail ++ [byte]).length = front.length := by
          rw [hjoined, List.append_assoc, List.length_append, Nat.add_sub_cancel]
        rw [hsame]
        rfl

/-! ### A push -/

structure Fed (limit : Nat) (context : String) (bytes : List UInt8) (held : BoundedLineBuffer) : Prop where
  limited : held.limit = limit
  capped : limit ≤ absoluteBodyLimit
  named : held.context = context
  counted : held.total = bytes.length
  rest : held.buffer = (cut newline bytes).2

variable {limit : Nat} {context : String} {bytes : List UInt8} {held : BoundedLineBuffer}

theorem fed_new (limit : Nat) (context : String) :
    Fed (min limit absoluteBodyLimit) context [] (new limit context) :=
  ⟨rfl, Nat.min_le_right .., rfl, rfl, rfl⟩

variable {chunk : List UInt8}

theorem push_exceeds (hfed : Fed limit context bytes held)
    (hexceeds : limit < (bytes ++ chunk).length) :
    held.push chunk = (.error (.limitExceeded context limit), held) := by
  rw [List.length_append, ← hfed.counted] at hexceeds
  rw [push, hfed.limited, hfed.named]
  cases hnext : checkedAdd held.total chunk.length with
  | none => rfl
  | some next =>
    obtain ⟨-, rfl⟩ := checkedAdd_eq_some_iff.mp hnext
    exact if_pos hexceeds

theorem push_eq_scan {next : Nat}
    (hnext : checkedAdd held.total chunk.length = some next) (hunder : ¬ held.limit < next) :
    held.push chunk =
      match (held.buffer ++ chunk).zipIdx.foldlM (scanByte (held.buffer ++ chunk) held.context)
        ([], 0) with
      | .error error => (.error error, { held with total := next, buffer := held.buffer ++ chunk })
      | .ok (lines, lineStart) =>
        (.ok lines, { held with total := next, buffer := (held.buffer ++ chunk).drop lineStart }) := by
  simp only [push, hnext, if_neg hunder]
  cases (held.buffer ++ chunk).zipIdx.foldlM (scanByte (held.buffer ++ chunk) held.context)
      ([], 0) with
  | error error => rfl
  | ok found =>
    obtain ⟨lines, _ | lineStart⟩ := found
    · rfl
    · rfl

section

variable (hfed : Fed limit context bytes held) {chunk : List UInt8}
include hfed

theorem push_within (hwithin : (bytes ++ chunk).length ≤ limit) :
    match decodeLines (cut newline (held.buffer ++ chunk)).1 with
    | some texts =>
      (held.push chunk).1 = .ok texts ∧ Fed limit context (bytes ++ chunk) (held.push chunk).2
    | none => (held.push chunk).1 = .error (.invalidUtf8 context) := by
  have hcapped := hfed.capped
  rw [List.length_append, ← hfed.counted] at hwithin
  have hnext : checkedAdd held.total chunk.length = some (held.total + chunk.length) := by
    refine checkedAdd_eq_some_iff.mpr ⟨?_, rfl⟩
    simp only [absoluteBodyLimit, u64Bound] at hcapped ⊢
    omega
  have hscan := scan_eq [] held.context (held.buffer ++ chunk)
  rw [List.append_nil] at hscan
  have hrest := @cut_append _ _ newline bytes chunk
  have hjoined := @cut_joined _ _ newline (held.buffer ++ chunk)
  rw [← hfed.rest] at hrest
  have hunder : ¬ held.limit < held.total + chunk.length := by
    rw [hfed.limited]
    exact Nat.not_lt.mpr hwithin
  rw [push_eq_scan hnext hunder, hscan]
  generalize cut newline (held.buffer ++ chunk) = state at hrest hjoined
  obtain ⟨lines, rest⟩ := state
  dsimp only at hrest hjoined ⊢
  cases decodeLines lines with
  | none => rw [hfed.named]
  | some texts =>
    dsimp only
    refine ⟨rfl, ⟨hfed.limited, hfed.capped, hfed.named, ?_, ?_⟩⟩
    · change held.total + chunk.length = _
      rw [hfed.counted, List.length_append]
    · rw [hrest, hjoined, List.length_append, Nat.add_sub_cancel, List.drop_left]

theorem push_ok {after : BoundedLineBuffer} (hpush : held.push chunk = (.ok texts, after)) :
    decodeLines (cut newline (held.buffer ++ chunk)).1 = some texts ∧
      Fed limit context (bytes ++ chunk) after ∧ (bytes ++ chunk).length ≤ limit := by
  obtain hwithin | hexceeds := (Nat.lt_or_ge limit (bytes ++ chunk).length).symm
  · have hlines := push_within hfed hwithin
    rw [hpush] at hlines
    cases hdecode : decodeLines (cut newline (held.buffer ++ chunk)).1 with
    | none =>
      rw [hdecode] at hlines
      cases hlines
    | some found =>
      rw [hdecode] at hlines
      obtain ⟨hfound, hafter⟩ := hlines
      exact ⟨congrArg some (Except.ok.inj hfound).symm, hafter, hwithin⟩
  · rw [push_exceeds hfed hexceeds] at hpush
    cases hpush

theorem push_error {error : BoundedBodyError} (hpush : (held.push chunk).1 = .error error) :
    error = .invalidUtf8 context ∧ decodeLines (cut newline (held.buffer ++ chunk)).1 = none ∧
        (bytes ++ chunk).length ≤ limit ∨
      error = .limitExceeded context limit ∧ limit < (bytes ++ chunk).length := by
  obtain hwithin | hexceeds := (Nat.lt_or_ge limit (bytes ++ chunk).length).symm
  · have hlines := push_within hfed hwithin
    rw [hpush] at hlines
    cases hdecode : decodeLines (cut newline (held.buffer ++ chunk)).1 with
    | none =>
      rw [hdecode] at hlines
      exact .inl ⟨Except.error.inj hlines, rfl, hwithin⟩
    | some found =>
      rw [hdecode] at hlines
      cases hlines.1
  · rw [push_exceeds hfed hexceeds] at hpush
    exact .inr ⟨(Except.error.inj hpush).symm, hexceeds⟩

end

theorem cut_push (hfed : Fed limit context bytes held) {after : BoundedLineBuffer}
    (hafter : Fed limit context (bytes ++ chunk) after) (more : List UInt8) :
    (cut newline (held.buffer ++ (chunk ++ more))).1 =
      (cut newline (held.buffer ++ chunk)).1 ++ (cut newline (after.buffer ++ more)).1 := by
  rw [hafter.rest, cut_append bytes chunk, ← hfed.rest, ← List.append_assoc, cut_append]

/-! ### A stream -/

theorem pushAll_ok {chunks : List (List UInt8)} {after : BoundedLineBuffer}
    (hfed : Fed limit context bytes held) (hpush : held.pushAll chunks = (.ok texts, after)) :
    decodeLines (cut newline (held.buffer ++ chunks.flatten)).1 = some texts ∧
      Fed limit context (bytes ++ chunks.flatten) after := by
  induction chunks generalizing bytes held texts with
  | nil =>
    obtain ⟨htexts, rfl⟩ := Prod.mk.inj hpush
    obtain rfl := Except.ok.inj htexts
    have hcut : cut newline held.buffer = ([], held.buffer) := by
      rw [hfed.rest]
      exact foldl_step_of_not_mem (sep_not_mem_rest bytes)
    simpa [hcut] using ⟨rfl, hfed⟩
  | cons chunk chunks ih =>
    rw [pushAll] at hpush
    cases hfirst : held.push chunk with
    | mk result pushed =>
      rw [hfirst] at hpush
      cases result with
      | error error => cases hpush
      | ok lines =>
        obtain ⟨hlines, hpushed, -⟩ := push_ok hfed hfirst
        cases hrest : pushed.pushAll chunks with
        | mk result last =>
          simp only [hrest] at hpush
          cases result with
          | error error => cases hpush
          | ok more =>
            obtain ⟨htexts, rfl⟩ := Prod.mk.inj hpush
            obtain rfl := Except.ok.inj htexts
            obtain ⟨hmore, hlast⟩ := ih hpushed hrest
            rw [List.flatten_cons, cut_push hfed hpushed, decodeLines_append, hlines, hmore,
              ← List.append_assoc]
            exact ⟨rfl, hlast⟩

theorem pushAll_error {chunks : List (List UInt8)} {error : BoundedBodyError}
    (hfed : Fed limit context bytes held) (hpush : (held.pushAll chunks).1 = .error error) :
    error = .invalidUtf8 context ∧
        decodeLines (cut newline (held.buffer ++ chunks.flatten)).1 = none ∨
      error = .limitExceeded context limit ∧ limit < (bytes ++ chunks.flatten).length := by
  induction chunks generalizing bytes held with
  | nil => cases hpush
  | cons chunk chunks ih =>
    rw [pushAll] at hpush
    cases hfirst : held.push chunk with
    | mk result pushed =>
      rw [hfirst] at hpush
      cases result with
      | error found =>
        obtain rfl := Except.error.inj hpush
        obtain ⟨rfl, hnone, -⟩ | ⟨rfl, hexceeds⟩ := push_error hfed (congrArg Prod.fst hfirst)
        · refine .inl ⟨rfl, ?_⟩
          rw [List.flatten_cons, ← List.append_assoc, cut_append, decodeLines_append, hnone]
          rfl
        · refine .inr ⟨rfl, Nat.lt_of_lt_of_le hexceeds ?_⟩
          simp only [List.flatten_cons, List.length_append]
          omega
      | ok lines =>
        obtain ⟨-, hpushed, -⟩ := push_ok hfed hfirst
        have hrest : (pushed.pushAll chunks).1 = .error error := by
          cases hlast : pushed.pushAll chunks with
          | mk result last =>
            simp only [hlast] at hpush
            cases result with
            | error found => exact hpush
            | ok more => cases hpush
        rw [List.flatten_cons]
        obtain ⟨rfl, hnone⟩ | ⟨rfl, hexceeds⟩ := ih hpushed hrest
        · refine .inl ⟨rfl, ?_⟩
          rw [cut_push hfed hpushed, decodeLines_append, hnone]
          cases decodeLines (cut newline (held.buffer ++ chunk)).1 <;> rfl
        · exact .inr ⟨rfl, by rwa [← List.append_assoc]⟩

end BoundedLineBuffer

open BoundedLineBuffer in
/-- A stream within the limit is read the same in whatever chunks it comes: its lines are those of the
whole, without the carriage return before the line end; reading fails exactly when one of them is no
text; and what is kept is what comes after the last of them. A chunk is refused exactly when the stream
with it is longer than the limit. -/
theorem push_independent_of_chunks (limit : Nat) (context : String) (chunks : List (List UInt8)) :
    let stream := chunks.flatten
    let result := (BoundedLineBuffer.new limit context).pushAll chunks
    (stream.length ≤ min limit absoluteBodyLimit →
      (∀ texts after, result = (.ok texts, after) →
        texts.map (fun text => text.toUTF8.data.toList) =
            (cut newline stream).1.map stripReturn ∧
          after.buffer = (cut newline stream).2) ∧
      (result.1 = .error (.invalidUtf8 context) ↔
        ∃ line ∈ (cut newline stream).1, ¬ IsText (stripReturn line)) ∧
      (∀ error, result.1 = .error error → error = .invalidUtf8 context)) ∧
    (∀ texts after, result = (.ok texts, after) → ∀ chunk,
      (after.push chunk).1 = .error (.limitExceeded context (min limit absoluteBodyLimit)) ↔
        min limit absoluteBodyLimit < (stream ++ chunk).length) := by
  have hnew := fed_new limit context
  have hempty : ∀ stream, (BoundedLineBuffer.new limit context).buffer ++ stream = stream := fun _ => rfl
  intro stream result
  refine ⟨fun hwithin => ⟨fun texts after hresult => ?_, ⟨fun hresult => ?_, fun hbad => ?_⟩,
    fun error hresult => ?_⟩, fun texts after hresult chunk => ⟨fun hpush => ?_, fun hexceeds => ?_⟩⟩
  · obtain ⟨hdecode, hafter⟩ := pushAll_ok hnew hresult
    rw [hempty] at hdecode
    exact ⟨decodeLines_eq_some hdecode, hafter.rest⟩
  · obtain ⟨-, hnone⟩ | ⟨herror, -⟩ := pushAll_error hnew hresult
    · exact decodeLines_eq_none_iff.mp hnone
    · cases herror
  · have hnone := decodeLines_eq_none_iff.mpr hbad
    cases hpush : result with
    | mk outcome after =>
      cases outcome with
      | ok texts =>
        have hdecode := (pushAll_ok hnew hpush).1
        rw [hempty, hnone] at hdecode
        cases hdecode
      | error error =>
        obtain ⟨rfl, -⟩ | ⟨-, hexceeds⟩ := pushAll_error hnew (congrArg Prod.fst hpush)
        · rfl
        · exact absurd hexceeds (Nat.not_lt.mpr hwithin)
  · obtain ⟨rfl, -⟩ | ⟨-, hexceeds⟩ := pushAll_error hnew hresult
    · rfl
    · exact absurd hexceeds (Nat.not_lt.mpr hwithin)
  · obtain ⟨-, hafter⟩ := pushAll_ok hnew hresult
    obtain ⟨herror, -⟩ | ⟨-, hexceeds⟩ := push_error hafter hpush
    · cases herror
    · exact hexceeds
  · obtain ⟨-, hafter⟩ := pushAll_ok hnew hresult
    rw [push_exceeds hafter hexceeds]

/-- Two bytes of a line that has not ended, and a third one that is too many. -/
theorem push_independent_of_chunks_full :
    ((BoundedLineBuffer.new 2 "stream").pushAll [[104], [105]]).2.push [10] =
      (.error (.limitExceeded "stream" 2), ⟨[104, 105], 2, 2, "stream"⟩) := by
  have hpush := ((push_independent_of_chunks 2 "stream" [[104], [105]]).2 [] _ rfl [10]).mpr (by decide)
  exact Prod.ext hpush rfl

end IronCrew
