import Mathlib.Order.Basic
import InstructionSet.Token.Scanner

/-!
# Where tokens stand

Positions are ordered by their lines and then by their columns, and reading on never leads back. A
position is a place of a text when a front part of the text leads there from the origin. Its line is
then a line of the text, and its column is at most the one behind the last character of this line
(`IsPlace.inLine`).

Whatever a source is scanned to stands at a place of the source, and comes in the order of the
places (`placed_scan`).
-/

namespace InstructionSet.Text

set_option autoImplicit false

namespace Position

/-! ## The order of positions -/

instance : Preorder Position where
  le first second :=
    first.line < second.line ∨ first.line = second.line ∧ first.column ≤ second.column
  le_refl position := .inr ⟨rfl, Nat.le_refl _⟩
  le_trans first second third before behind := by
    rcases before with line | ⟨line, column⟩ <;> rcases behind with line' | ⟨line', column'⟩
    · exact .inl (Nat.lt_trans line line')
    · exact .inl (line' ▸ line)
    · exact .inl (line ▸ line')
    · exact .inr ⟨line.trans line', Nat.le_trans column column'⟩

theorem le_step (position : Position) (c : Char) : position ≤ position.step c := by
  unfold step
  split
  · exact .inl (Nat.lt_succ_self _)
  · exact .inr ⟨rfl, Nat.le_succ _⟩

theorem le_after (position : Position) (text : List Char) : position ≤ position.after text := by
  induction text generalizing position with
  | nil => exact le_refl position
  | cons c rest ih => exact le_trans (le_step position c) (ih _)

/-! ## Places of a text -/

/-- A front part of the text leads to the position. -/
def IsPlace (text : List Char) (position : Position) : Prop :=
  ∃ before behind, text = before ++ behind ∧ position = origin.after before

/-- The position is in a line of the text or at its end. -/
structure InLine (text : List Char) (position : Position) : Prop where
  /-- Lines are counted from one. -/
  line_pos : 1 ≤ position.line
  /-- There is one line more than there are newlines. -/
  line_le : position.line ≤ text.count '\n' + 1
  /-- Columns are counted from one. -/
  column_pos : 1 ≤ position.column
  /-- The column is at most the one behind the last character of the line. -/
  column_le : ∃ characters, (text.splitOn '\n')[position.line - 1]? = some characters ∧
    position.column ≤ characters.length + 1

theorem splitOn_cons (c : Char) (text : List Char) :
    (c :: text).splitOn '\n' =
      if c = '\n' then [] :: text.splitOn '\n' else (text.splitOn '\n').modifyHead (c :: ·) := by
  simp only [List.splitOn, List.splitOnP_cons_eq_if_modifyHead, beq_iff_eq]

/-- A front part of a text leads over some of its lines. In the line where it started, the
characters in front of the column count too. -/
theorem line_of_after (before behind : List Char) {start stop : Position}
    (column : 1 ≤ start.column) (leads : start.after before = stop) :
    ∃ lines, stop.line = start.line + lines ∧ lines ≤ (before ++ behind).count '\n' ∧
      1 ≤ stop.column ∧
      ∃ characters, ((before ++ behind).splitOn '\n')[lines]? = some characters ∧
        stop.column ≤ (if lines = 0 then start.column else 1) + characters.length := by
  induction before generalizing start with
  | nil =>
      obtain rfl := leads
      obtain ⟨characters, rest, lines⟩ :=
        List.exists_cons_of_ne_nil (List.splitOn_ne_nil '\n' behind)
      exact ⟨0, rfl, Nat.zero_le _, column, characters, by simp [lines], Nat.le_add_right _ _⟩
  | cons c before ih =>
      rw [after_cons, step] at leads
      rw [List.cons_append, splitOn_cons]
      split at leads
      next newline =>
        obtain ⟨lines, line, count, right, characters, found, left⟩ := ih (Nat.le_refl 1) leads
        refine ⟨lines + 1, ?_, ?_, right, characters, ?_, ?_⟩
        · rw [line, Nat.add_assoc, Nat.add_comm 1]
        · rw [newline, List.count_cons_self]
          exact Nat.succ_le_succ count
        · rw [if_pos newline]
          exact found
        · rw [if_neg (Nat.succ_ne_zero lines)]
          exact left.trans_eq (by rw [ite_self])
      next other =>
        obtain ⟨lines, line, count, right, characters, found, left⟩ :=
          ih (Nat.le_add_left 1 _) leads
        rw [if_neg other, List.count_cons_of_ne other]
        refine ⟨lines, line, count, right, ?_⟩
        cases lines with
        | zero =>
            refine ⟨c :: characters, ?_, ?_⟩
            · rw [List.getElem?_modifyHead_zero, found]
              rfl
            · simp only [if_true, List.length_cons] at left ⊢
              omega
        | succ lines => exact ⟨characters, by rw [List.getElem?_modifyHead_succ, found], left⟩

/-- A place of a text is in one of its lines. -/
theorem IsPlace.inLine {text : List Char} {position : Position} (place : IsPlace text position) :
    InLine text position := by
  obtain ⟨before, behind, rfl, rfl⟩ := place
  obtain ⟨lines, line, count, right, characters, found, left⟩ :=
    @line_of_after before behind origin _ (Nat.le_refl 1) rfl
  refine ⟨?_, ?_, right, characters, ?_, ?_⟩
  · rw [line]
    exact Nat.le_add_right 1 _
  · rw [line, Nat.add_comm]
    exact Nat.succ_le_succ count
  · rw [line, show origin.line + lines - 1 = lines from Nat.add_sub_cancel_left 1 lines]
    exact found
  · exact left.trans_eq (by rw [show origin.column = 1 from rfl, ite_self, Nat.add_comm])

end Position
end InstructionSet.Text

namespace InstructionSet

open InstructionSet.Text

set_option autoImplicit false

theorem Token.position_le_stop (token : Token) : token.position ≤ token.stop :=
  Position.le_after _ _

/-- Where what was scanned stands. -/
def Scanned.position : Scanned → Position
  | .fault found => found.position
  | .token found => found.position

namespace Scanner

/-! ## The places of a scan -/

/-- The tail is what a front part of the text leaves. -/
def Tail.Behind (text : List Char) (tail : Tail) : Prop :=
  ∃ before, text = before ++ tail.text ∧ tail.position = Position.origin.after before

variable {text : List Char} {tail : Tail}

theorem Tail.Behind.isPlace (behind : tail.Behind text) : tail.position.IsPlace text := by
  obtain ⟨before, whole, position⟩ := behind
  exact ⟨before, tail.text, whole, position⟩

/-- Passing a front part of the tail leaves a tail again, further behind. -/
theorem Tail.Behind.pass (behind : tail.Behind text) {front rest : List Char}
    (parts : front ++ rest = tail.text) :
    (⟨tail.position.after front, rest⟩ : Tail).Behind text := by
  obtain ⟨before, whole, position⟩ := behind
  refine ⟨before ++ front, ?_, ?_⟩
  · rw [whole, ← parts, List.append_assoc]
  · rw [position, Position.after_append]

theorem Tail.Behind.skipBlank (behind : tail.Behind text) : tail.skipBlank.Behind text :=
  behind.pass (splitBlank_append false tail.text)

/-- A cut comes to something at the front or at the back of its spelling. -/
theorem Cut.scanned_position (cut : Cut) (position : Position) :
    (cut.scanned position).position = position ∨
      (cut.scanned position).position = position.after cut.spelling := by
  unfold scanned
  split
  · exact .inl rfl
  · exact .inl rfl
  · exact .inr rfl

/-- What comes next stands at a place of the text, between the tail and the tail behind it. -/
theorem Tail.Behind.next (behind : tail.Behind text) :
    tail.next.2.Behind text ∧ tail.next.1.position.IsPlace text ∧
      tail.position ≤ tail.next.1.position ∧ tail.next.1.position ≤ tail.next.2.position := by
  have blank : tail.position ≤ tail.skipBlank.position := Position.le_after _ _
  have skipped := behind.skipBlank
  rw [Tail.next]
  split
  next position same =>
    rw [same] at blank skipped
    exact ⟨skipped, skipped.isPlace, blank, le_refl position⟩
  next position c rest same =>
    rw [same] at blank skipped
    have cuts := skipped.pass (cut_whole c rest)
    refine ⟨cuts, ?_⟩
    rcases (cut c rest).scanned_position position with front | back
    · rw [front]
      exact ⟨skipped.isPlace, blank, Position.le_after _ _⟩
    · rw [back]
      exact ⟨cuts.isPlace, le_trans blank (Position.le_after _ _), le_refl _⟩

/-- The stream of a tail stands at places of the text that ascend from the tail on. -/
theorem Tail.Behind.stream (behind : tail.Behind text) :
    tail.stream.finish.IsPlace text ∧
      (∀ entry ∈ tail.stream.entries, entry.position.IsPlace text ∧
        tail.position ≤ entry.position) ∧
      tail.stream.entries.Pairwise (·.position ≤ ·.position) := by
  fun_induction Tail.stream tail with
  | case1 tail blank =>
      exact ⟨behind.skipBlank.isPlace, fun _ member => absurd member List.not_mem_nil, .nil⟩
  | case2 tail more stream ih =>
      obtain ⟨nextBehind, place, above, below⟩ := behind.next
      obtain ⟨finish, entries, ascending⟩ := ih nextBehind
      refine ⟨finish, ?_, List.pairwise_cons.2 ⟨fun entry member => ?_, ascending⟩⟩
      · intro entry member
        rcases List.mem_cons.1 member with rfl | later
        · exact ⟨place, above⟩
        · exact ⟨(entries entry later).1, le_trans (le_trans above below) (entries entry later).2⟩
      · exact le_trans below (entries entry member).2

/-- A stream stands at places of a text. -/
structure Stream.Placed (stream : Stream) (text : List Char) : Prop where
  /-- The end does. -/
  finish : stream.finish.IsPlace text
  /-- Every token and every fault does. -/
  entries : ∀ entry ∈ stream.entries, entry.position.IsPlace text
  /-- They come in the order of their places. -/
  ascending : stream.entries.Pairwise (·.position ≤ ·.position)

/-- Whatever a source is scanned to stands at a place of the source, in order. -/
theorem placed_scan (source : String) : (scan source).Placed source.toList := by
  have behind : (⟨.origin, source.toList⟩ : Tail).Behind source.toList := ⟨[], rfl, rfl⟩
  obtain ⟨finish, entries, ascending⟩ := behind.stream
  exact ⟨finish, fun entry member => (entries entry member).1, ascending⟩

end Scanner
end InstructionSet
