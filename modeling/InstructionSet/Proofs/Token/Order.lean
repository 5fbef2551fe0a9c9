import InstructionSet.Proofs.Token.Positions
import InstructionSet.Proofs.Token.Requests

/-!
# The order of what is scanned

What a source is scanned to comes in the order of its places, and the end of the source comes last
(`ordered_scan`). Places may coincide: a numeral that runs into an identifier is at fault where the
identifier starts. But whatever comes behind a colon is at a later place than the colon, which is
a character of its own (`Scanned.Precedes`).
-/

namespace InstructionSet

open InstructionSet.Text

set_option autoImplicit false

namespace Text.Position

/-- A position is in front of another one in an earlier line, or in the same line in an earlier
column. -/
theorem lt_iff {first second : Position} : first < second ↔
    first.line < second.line ∨ first.line = second.line ∧ first.column < second.column := by
  rw [lt_iff_le_not_ge]
  show (_ ∨ _) ∧ ¬ (_ ∨ _) ↔ _
  omega

theorem lt_step (position : Position) (c : Char) : position < position.step c := by
  rw [lt_iff]
  unfold step
  split
  · exact .inl (Nat.lt_succ_self _)
  · exact .inr ⟨rfl, Nat.lt_succ_self _⟩

/-- Reading at least one character leads to a later position. -/
theorem lt_after {position : Position} {text : List Char} (nonempty : text ≠ []) :
    position < position.after text := by
  cases text with
  | nil => exact absurd rfl nonempty
  | cons c rest => exact lt_of_lt_of_le (lt_step position c) (le_after _ rest)

end Text.Position

/-- Whether a colon was scanned. -/
def Scanned.isColon : Scanned → Bool
  | .token found => found.kind = .colon
  | .fault _ => false

/-- What was scanned first is at no later place than what was scanned second, and at an earlier one
if it is a colon. -/
structure Scanned.Precedes (first second : Scanned) : Prop where
  /-- The places are in order. -/
  le : first.position ≤ second.position
  /-- A colon is at a place of its own. -/
  lt : first.isColon = true → first.position < second.position

namespace Scanner

variable {text : List Char} {tail : Tail}

/-- What comes behind a colon starts behind it. -/
theorem Tail.lt_next (colon : tail.next.1.isColon = true) :
    tail.next.1.position < tail.next.2.position := by
  unfold next at colon ⊢
  split at colon
  next position same => cases colon
  next position c rest same =>
    have later : position < position.after (cut c rest).spelling :=
      Position.lt_after (cut_spelling_ne_nil c rest)
    simp only [Cut.scanned] at colon ⊢
    split at colon
    next => exact later
    next => cases colon
    next => cases colon

/-- The stream of a tail, with the end, is in order from the tail on. -/
theorem Tail.Behind.ordered (behind : tail.Behind text) :
    (∀ entry ∈ tail.stream.results, tail.position ≤ entry.position) ∧
      tail.stream.results.Pairwise Scanned.Precedes := by
  fun_induction Tail.stream tail with
  | case1 tail blank =>
      refine ⟨List.forall_mem_singleton.2 ?_, List.pairwise_singleton _ _⟩
      exact Position.le_after _ _
  | case2 tail more stream ih =>
      obtain ⟨nextBehind, -, above, below⟩ := behind.next
      obtain ⟨later, ordered⟩ := ih nextBehind
      refine ⟨?_, List.pairwise_cons.2 ⟨fun entry member => ⟨?_, fun colon => ?_⟩, ordered⟩⟩
      · refine List.forall_mem_cons.2 ⟨above, fun entry member => ?_⟩
        exact le_trans (le_trans above below) (later entry member)
      · exact le_trans below (later entry member)
      · exact lt_of_lt_of_le (lt_next colon) (later entry member)

/-- What a source is scanned to is in order, up to its end. -/
theorem ordered_scan (source : String) : (scan source).results.Pairwise Scanned.Precedes := by
  have behind : (⟨.origin, source.toList⟩ : Tail).Behind source.toList := ⟨[], rfl, rfl⟩
  exact behind.ordered.2

end Scanner
end InstructionSet
