import InstructionSet.Proofs.Token.Requests
import InstructionSet.Proofs.Token.Spelling

/-!
# Scanning line by line

A newline ends whatever the end of the source ends. A comment and a quoted text stop in front of it,
no digit and no letter can stand there, and a backslash does not hide it. So a spelling that is cut
off the front of a text stays the same when a newline and any other text are put behind
(`cut_newline`), whether it comes to a token or to a fault.

Two texts with a newline between them are therefore scanned one after the other, as if each were
alone; the second one only stands further down (`scan_lines`).
-/

namespace InstructionSet

open InstructionSet.Text

set_option autoImplicit false

/-! ## Further down -/

namespace Text.Position

/-- The position in the same column a number of lines further down. -/
def lower (lines : Nat) (position : Position) : Position :=
  { position with line := position.line + lines }

theorem step_lower (lines : Nat) (position : Position) (c : Char) :
    (position.lower lines).step c = (position.step c).lower lines := by
  unfold step lower
  split
  · rw [Nat.add_right_comm]
  · rfl

theorem after_lower (lines : Nat) (position : Position) (text : List Char) :
    (position.lower lines).after text = (position.after text).lower lines := by
  induction text generalizing position with
  | nil => rfl
  | cons c rest ih => rw [after_cons, step_lower, ih, after_cons]

theorem line_after (position : Position) (text : List Char) :
    (position.after text).line = position.line + text.count '\n' := by
  induction text generalizing position with
  | nil => rfl
  | cons c rest ih =>
      rw [after_cons, ih, step]
      split
      next newline => rw [newline, List.count_cons_self, Nat.add_assoc, Nat.add_comm 1]
      next other => rw [List.count_cons_of_ne other]

/-- Behind a text and a newline stands the first column of a line further down. -/
theorem after_newline (text : List Char) :
    origin.after (text ++ ['\n']) = origin.lower (text.count '\n' + 1) := by
  rw [after_append]
  show Position.mk ((origin.after text).line + 1) 1 = _
  rw [line_after, Nat.add_assoc]
  rfl

end Text.Position

/-- What was scanned, a number of lines further down. -/
def Scanned.lower (lines : Nat) : Scanned → Scanned
  | .token found => .token { found with position := found.position.lower lines }
  | .fault found => .fault { found with position := found.position.lower lines }

namespace Scanner

/-- A stream a number of lines further down. -/
def Stream.lower (lines : Nat) (stream : Stream) : Stream where
  entries := stream.entries.map (·.lower lines)
  finish := stream.finish.lower lines

theorem Stream.results_lower (lines : Nat) (stream : Stream) :
    (stream.lower lines).results = stream.results.map (·.lower lines) := by
  simp only [results, lower, List.map_append, List.map_singleton]
  rfl

theorem Cut.scanned_lower (lines : Nat) (cut : Cut) (position : Position) :
    cut.scanned (position.lower lines) = (cut.scanned position).lower lines := by
  obtain ⟨spelling, rest, reading⟩ := cut
  cases reading with
  | token kind lexeme => rfl
  | faultAtFront error => rfl
  | faultBehind error => simp only [scanned, Position.after_lower, Scanned.lower]

namespace Tail

/-- A part of a source a number of lines further down. -/
def lower (lines : Nat) (tail : Tail) : Tail :=
  { tail with position := tail.position.lower lines }

theorem skipBlank_lower (lines : Nat) (tail : Tail) :
    (tail.lower lines).skipBlank = tail.skipBlank.lower lines := by
  simp only [skipBlank, lower, Position.after_lower]

theorem next_lower (lines : Nat) (tail : Tail) :
    (tail.lower lines).next = (tail.next.1.lower lines, tail.next.2.lower lines) := by
  have skipped := tail.skipBlank_lower lines
  cases front : tail.skipBlank with
  | mk position text =>
      rw [front] at skipped
      cases text with
      | nil =>
          have blank : tail.skipBlank.text = [] := congrArg Tail.text front
          have blankLower : (tail.lower lines).skipBlank.text = [] := congrArg Tail.text skipped
          rw [next_of_blank blank, next_of_blank blankLower, front, skipped]
          rfl
      | cons c rest =>
          rw [next_of_skipBlank front, next_of_skipBlank skipped, Cut.scanned_lower,
            Position.after_lower]
          rfl

/-- Where a source stands does not matter to what it is scanned to. -/
theorem stream_lower (lines : Nat) (tail : Tail) :
    (tail.lower lines).stream = tail.stream.lower lines := by
  have blankIff (tail : Tail) :
      (tail.lower lines).skipBlank.text = [] ↔ tail.skipBlank.text = [] := by
    rw [skipBlank_lower]
    rfl
  fun_induction Tail.stream tail with
  | case1 tail blank =>
      rw [Tail.stream, dif_pos ((blankIff tail).2 blank), skipBlank_lower]
      rfl
  | case2 tail more stream ih =>
      rw [Tail.stream, dif_neg (mt (blankIff tail).1 more), next_lower]
      simp only [ih]
      rfl

end Tail

/-! ## A newline ends everything -/

section Newline

variable (text behind : List Char)

theorem takeWhile_newline {fits : Char → Bool} (stops : fits '\n' = false) :
    (text ++ '\n' :: behind).takeWhile fits = text.takeWhile fits ∧
      (text ++ '\n' :: behind).dropWhile fits = text.dropWhile fits ++ '\n' :: behind := by
  induction text with
  | nil => simp [stops]
  | cons c rest ih =>
      rw [List.cons_append, List.takeWhile_cons, List.dropWhile_cons, List.takeWhile_cons,
        List.dropWhile_cons]
      split
      · exact ⟨congrArg _ ih.1, ih.2⟩
      · exact ⟨rfl, rfl⟩

/-- Text behind a cut. -/
def Cut.before (cut : Cut) (behind : List Char) : Cut :=
  { cut with rest := cut.rest ++ behind }

theorem cutIdentifier_newline :
    cutIdentifier (text ++ '\n' :: behind) = (cutIdentifier text).before ('\n' :: behind) := by
  have stops : continuesIdentifier '\n' = false := by decide
  obtain ⟨taken, left⟩ := takeWhile_newline text behind stops
  rw [cutIdentifier, taken, left]
  rfl

theorem splitRadix_newline :
    Numeral.splitRadix (text ++ '\n' :: behind) =
      ((Numeral.splitRadix text).1, (Numeral.splitRadix text).2.1,
        (Numeral.splitRadix text).2.2 ++ '\n' :: behind) := by
  match text with
  | [] => rfl
  | [c] =>
      by_cases zero : c = '0'
      · subst zero
        rfl
      · simp [Numeral.splitRadix, zero]
  | c :: mark :: rest =>
      by_cases zero : c = '0'
      · subst zero
        simp only [Numeral.splitRadix, List.cons_append]
        split <;> rfl
      · simp [Numeral.splitRadix, zero]

theorem readNumber_newline (radix : Nat) (digits spelling : List Char) :
    readNumber radix digits (text ++ '\n' :: behind) spelling =
      readNumber radix digits text spelling := by
  cases text with
  | nil => rfl
  | cons c rest => rfl

theorem isDigit_newline (radix : Nat) : Numeral.isDigit radix '\n' = false := rfl

theorem cutNumber_newline (sign : List Char) :
    cutNumber sign (text ++ '\n' :: behind) = (cutNumber sign text).before ('\n' :: behind) := by
  have stops (radix : Nat) : continuesNumber radix '\n' = false := by
    rw [continuesNumber, isDigit_newline]
    decide
  obtain ⟨taken, left⟩ :=
    takeWhile_newline (Numeral.splitRadix text).2.2 behind (stops (Numeral.splitRadix text).2.1)
  simp only [cutNumber, splitRadix_newline, taken, left, readNumber_newline, Cut.before]

theorem splitQuoted_cons {c : Char} (quote : c ≠ '"') (backslash : c ≠ '\\') (newline : c ≠ '\n') :
    splitQuoted (c :: text) = (c :: (splitQuoted text).1, (splitQuoted text).2.1.map (c :: ·),
      (splitQuoted text).2.2) := by
  rw [splitQuoted.eq_def]
  split <;> simp_all

theorem splitQuoted_newline :
    splitQuoted (text ++ '\n' :: behind) =
      ((splitQuoted text).1, (splitQuoted text).2.1,
        (splitQuoted text).2.2 ++ '\n' :: behind) := by
  fun_induction splitQuoted text with
  | case1 => rfl
  | case2 rest => rfl
  | case3 rest => rfl
  | case4 => rfl
  | case5 rest => rfl
  | case6 c rest newline spelling quoted remainder split ih =>
      simp only [List.cons_append, splitQuoted, ih, split]
  | case7 c rest quote newline escape escapedNewline escaped spelling quoted remainder split ih =>
      have backslash : c ≠ '\\' := by
        intro same
        cases rest with
        | nil => exact escape same rfl
        | cons next later => exact escaped next later same rfl
      rw [List.cons_append, splitQuoted_cons _ quote backslash newline, ih, split]

theorem cutQuoted_newline :
    cutQuoted (text ++ '\n' :: behind) = (cutQuoted text).before ('\n' :: behind) := by
  simp only [cutQuoted, splitQuoted_newline, Cut.before]

theorem startsWithDigit_newline :
    startsWithDigit (text ++ '\n' :: behind) = startsWithDigit text := by
  cases text <;> rfl

/-- **A newline ends every spelling**: what stands behind it does not matter to the cut. -/
theorem cut_newline (c : Char) :
    cut c (text ++ '\n' :: behind) = (cut c text).before ('\n' :: behind) := by
  have number := cutNumber_newline (c :: text) behind []
  have identifier := cutIdentifier_newline (c :: text) behind
  rw [List.cons_append] at number identifier
  unfold cut
  rw [startsWithDigit_newline, cutQuoted_newline, cutNumber_newline, number, identifier]
  split
  · rfl
  · split_ifs <;> rfl

/-- Blank text in front of a spelling is skipped, whatever stands behind the spelling. -/
theorem splitBlank_append_of_ne_nil {inComment : Bool} (more : (splitBlank inComment text).2 ≠ []) :
    splitBlank inComment (text ++ behind) =
      ((splitBlank inComment text).1, (splitBlank inComment text).2 ++ behind) := by
  induction text generalizing inComment with
  | nil => cases inComment <;> exact absurd rfl more
  | cons c rest ih =>
      cases inComment with
      | true =>
          simp only [splitBlank, List.cons_append] at more ⊢
          rw [ih more]
      | false =>
          simp only [splitBlank, List.cons_append] at more ⊢
          split at more
          next blank =>
            rw [if_pos blank, if_pos blank, ih more]
          next front =>
            rw [if_neg front, if_neg front]
            rfl

/-- A newline behind blank text is blank too, and ends a comment. -/
theorem splitBlank_newline {inComment : Bool} (blank : (splitBlank inComment text).2 = []) :
    splitBlank inComment (text ++ '\n' :: behind) =
      (text ++ '\n' :: (splitBlank false behind).1, (splitBlank false behind).2) := by
  induction text generalizing inComment with
  | nil =>
      cases inComment with
      | true => rfl
      | false =>
          have newline : isWhiteSpace '\n' = true := by decide
          simp only [List.nil_append, splitBlank, newline, Bool.true_or, if_true]
          rfl
  | cons c rest ih =>
      cases inComment with
      | true =>
          simp only [splitBlank, List.cons_append] at blank ⊢
          rw [ih blank]
      | false =>
          simp only [splitBlank, List.cons_append] at blank ⊢
          split at blank
          next isBlank => rw [if_pos isBlank, ih blank]
          next front => cases blank

end Newline

/-! ## One text below the other -/

namespace Tail

/-- A part of a source with more text behind it. -/
def before (tail : Tail) (behind : List Char) : Tail :=
  { tail with text := tail.text ++ behind }

variable {tail : Tail} (behind : List Char)

theorem skipBlank_before (more : tail.skipBlank.text ≠ []) :
    (tail.before behind).skipBlank = tail.skipBlank.before behind := by
  simp only [skipBlank, before, splitBlank_append_of_ne_nil tail.text behind more]

/-- In front of a newline the next answer is the one without anything behind it. -/
theorem next_newline (more : tail.skipBlank.text ≠ []) :
    (tail.before ('\n' :: behind)).next = (tail.next.1, tail.next.2.before ('\n' :: behind)) := by
  cases front : tail.skipBlank with
  | mk position text =>
      cases text with
      | nil => exact absurd (congrArg text front) more
      | cons c rest =>
          have frontBefore : (tail.before ('\n' :: behind)).skipBlank =
              ⟨position, c :: (rest ++ '\n' :: behind)⟩ := by
            rw [skipBlank_before _ more, front]
            rfl
          rw [next_of_skipBlank front, next_of_skipBlank frontBefore, cut_newline]
          rfl

/-- A text with a newline and another text behind it comes to what the two come to, each by itself,
the second one starting behind the newline. -/
theorem stream_newline (tail : Tail) :
    (tail.before ('\n' :: behind)).stream =
      let below := stream ⟨tail.position.after (tail.text ++ ['\n']), behind⟩
      ⟨tail.stream.entries ++ below.entries, below.finish⟩ := by
  fun_induction Tail.stream tail with
  | case1 tail blank =>
      refine stream_of_skipBlank ?_
      have split := splitBlank_newline tail.text behind blank
      simp only [before, skipBlank, split, ← Position.after_append, List.append_assoc]
      rfl
  | case2 tail more stream ih =>
      obtain ⟨taken, -, whole, position⟩ :=
        next_advances (Bool.eq_false_iff.2 (mt isFinish_next_iff.1 more))
      have start : tail.next.2.position.after (tail.next.2.text ++ ['\n']) =
          tail.position.after (tail.text ++ ['\n']) := by
        rw [position, whole, List.append_assoc, ← Position.after_append]
      have moreBefore : (tail.before ('\n' :: behind)).skipBlank.text ≠ [] := by
        rw [skipBlank_before _ more]
        exact List.append_ne_nil_of_left_ne_nil more _
      rw [Tail.stream, dif_neg moreBefore, next_newline behind more, ih, start]
      rfl

end Tail

/-- **Lexing goes line by line**: a text with a newline and another text behind it is scanned to
what the first one is scanned to, without its end, and then to what the second one is scanned to, as
many lines further down as end in front of it. -/
theorem scan_lines (above below : String) :
    (scan (above ++ "\n" ++ below)).results =
      (scan above).results.dropLast ++
        (scan below).results.map (·.lower (above.toList.count '\n' + 1)) := by
  have whole : (above ++ "\n" ++ below).toList = above.toList ++ '\n' :: below.toList := by
    simp
  have second : Tail.stream ⟨Position.origin.after (above.toList ++ ['\n']), below.toList⟩ =
      (scan below).lower (above.toList.count '\n' + 1) := by
    rw [Position.after_newline]
    exact Tail.stream_lower _ ⟨.origin, below.toList⟩
  have joined := Tail.stream_newline below.toList ⟨.origin, above.toList⟩
  simp only [second] at joined
  rw [← Stream.results_lower, scan, whole]
  change (Tail.before ⟨.origin, above.toList⟩ ('\n' :: below.toList)).stream.results = _
  rw [joined]
  simp only [Stream.results, scan, List.dropLast_concat, List.append_assoc]

end Scanner
end InstructionSet
