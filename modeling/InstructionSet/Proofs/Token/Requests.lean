import InstructionSet.Proofs.Token.Scanned

/-!
# Asking for one token after the other

The next token of a source can be asked for as often as one likes. An answer other than the end of
the source uses up at least one of its characters (`Tail.next_advances`), so there are at most as
many of them as the source has characters (`Tail.entries_length_le`). They are the entries of the
stream, in order, and every later answer is the end, at one and the same place (`Tail.answer_eq`).
-/

namespace InstructionSet

open InstructionSet.Text

set_option autoImplicit false

/-- Whether an answer is the end of the source. -/
def Scanned.isFinish : Scanned → Bool
  | .token found => found.kind = .finish
  | .fault _ => false

namespace Scanner

/-- Everything that is answered until the end of the source is: the tokens and the faults, and then
the token that marks the end. -/
def Stream.results (stream : Stream) : List Scanned :=
  stream.entries ++ [.token (.finish stream.finish)]

namespace Tail

/-- What is left of a source behind a number of answers. -/
def behind : (tail : Tail) → (count : Nat) → Tail
  | tail, 0 => tail
  | tail, count + 1 => tail.next.2.behind count

/-- What is answered next behind a number of answers. -/
def answer (tail : Tail) (count : Nat) : Scanned :=
  (tail.behind count).next.1

variable {tail : Tail}

/-! ## One answer -/

/-- At the end of a source the answer is the end, and nothing is left. -/
theorem next_of_blank (blank : tail.skipBlank.text = []) :
    tail.next = (.token (.finish tail.skipBlank.position), ⟨tail.skipBlank.position, []⟩) := by
  unfold next
  split
  next position same => rw [same]
  next same => simp [same] at blank

/-- Behind the blank text at the front of a source, the answer is what its first spelling comes to,
and the source behind this spelling is left. -/
theorem next_of_skipBlank {position : Position} {c : Char} {rest : List Char}
    (front : tail.skipBlank = ⟨position, c :: rest⟩) :
    tail.next = ((cut c rest).scanned position,
      ⟨position.after (cut c rest).spelling, (cut c rest).rest⟩) := by
  unfold next
  split
  next same => simp [front] at same
  next same =>
    rw [front] at same
    cases same
    rfl

theorem isFinish_scanned (c : Char) (rest : List Char) (position : Position) :
    ((cut c rest).scanned position).isFinish = false := by
  cases scanned : (cut c rest).scanned position with
  | fault found => rfl
  | token found => exact decide_eq_false (proper_of_scanned scanned).notFinish

/-- The answer is the end when only blank text is left. -/
theorem isFinish_next_iff : tail.next.1.isFinish = true ↔ tail.skipBlank.text = [] := by
  constructor
  · intro ended
    cases front : tail.skipBlank with
    | mk position text =>
        cases text with
        | nil => rfl
        | cons c rest =>
            rw [next_of_skipBlank front, isFinish_scanned] at ended
            cases ended
  · intro blank
    rw [next_of_blank blank]
    rfl

/-- An answer other than the end uses up at least one character, and no character is lost. -/
theorem next_advances (more : tail.next.1.isFinish = false) :
    ∃ taken, taken ≠ [] ∧ tail.text = taken ++ tail.next.2.text ∧
      tail.next.2.position = tail.position.after taken := by
  have whole : (splitBlank false tail.text).1 ++ tail.skipBlank.text = tail.text :=
    splitBlank_append false tail.text
  cases front : tail.skipBlank with
  | mk position text =>
      cases text with
      | nil =>
          rw [isFinish_next_iff.2 (by rw [front])] at more
          cases more
      | cons c rest =>
          rw [front] at whole
          have start : position = tail.position.after (splitBlank false tail.text).1 :=
            (congrArg Tail.position front).symm
          refine ⟨(splitBlank false tail.text).1 ++ (cut c rest).spelling, ?_, ?_, ?_⟩
          · exact List.append_ne_nil_of_right_ne_nil _ (cut_spelling_ne_nil c rest)
          · rw [next_of_skipBlank front, List.append_assoc, cut_whole, whole]
          · rw [next_of_skipBlank front, start, ← Position.after_append]

/-! ## One answer after the other -/

theorem behind_succ (tail : Tail) (count : Nat) :
    tail.behind (count + 1) = (tail.behind count).next.2 := by
  induction count generalizing tail with
  | zero => rfl
  | succ count ih => exact ih tail.next.2

/-- Behind the end of a source the answer is the same end again. -/
theorem answer_of_blank (blank : tail.skipBlank.text = []) (count : Nat) :
    tail.answer count = .token (.finish tail.skipBlank.position) := by
  induction count generalizing tail with
  | zero => exact congrArg Prod.fst (next_of_blank blank)
  | succ count ih =>
      show tail.next.2.answer count = _
      rw [next_of_blank blank]
      exact ih rfl

/-- The answers are the entries of the stream, as long as there are any, and then the end. -/
theorem answer_eq (tail : Tail) (count : Nat) :
    tail.answer count = tail.stream.entries.getD count (.token (.finish tail.stream.finish)) := by
  fun_induction Tail.stream tail generalizing count with
  | case1 tail blank => exact answer_of_blank blank count
  | case2 tail more stream ih =>
      cases count with
      | zero => rfl
      | succ count => exact ih count

theorem isFinish_of_mem_entries {entry : Scanned} (member : entry ∈ tail.stream.entries) :
    entry.isFinish = false := by
  cases entry with
  | fault found => rfl
  | token found => exact decide_eq_false (proper_of_mem_stream member).notFinish

/-- The answer is the end when all entries of the stream were answered before. -/
theorem isFinish_answer_iff {count : Nat} :
    (tail.answer count).isFinish = true ↔ tail.stream.entries.length ≤ count := by
  rw [answer_eq, List.getD_eq_getElem?_getD]
  rcases Nat.lt_or_ge count tail.stream.entries.length with inside | behind
  · have notYet := isFinish_of_mem_entries (List.getElem_mem inside)
    rw [List.getElem?_eq_getElem inside, Option.getD_some, notYet]
    exact ⟨fun ended => (by cases ended), fun behind => absurd inside (Nat.not_lt.2 behind)⟩
  · rw [List.getElem?_eq_none behind]
    exact ⟨fun _ => behind, fun _ => rfl⟩

/-- What is answered until the end is answered. -/
theorem results_stream (tail : Tail) :
    tail.stream.results = (List.range (tail.stream.entries.length + 1)).map tail.answer := by
  refine List.ext_getElem (by simp [Stream.results]) fun count inside _ => ?_
  rw [List.getElem_map, List.getElem_range, answer_eq, List.getD_eq_getElem?_getD]
  simp only [Stream.results, List.length_append, List.length_singleton] at inside ⊢
  rcases Nat.lt_or_ge count tail.stream.entries.length with before | atEnd
  · rw [List.getElem_append_left before, List.getElem?_eq_getElem before, Option.getD_some]
  · rw [List.getElem_append_right atEnd, List.getElem?_eq_none atEnd, Option.getD_none,
      List.getElem_singleton]

/-- There are at most as many entries as characters. -/
theorem entries_length_le (tail : Tail) : tail.stream.entries.length ≤ tail.text.length := by
  fun_induction Tail.stream tail with
  | case1 tail blank => exact Nat.zero_le _
  | case2 tail more stream ih => exact Nat.lt_of_le_of_lt ih (next_length_lt more)

end Tail
end Scanner
end InstructionSet
