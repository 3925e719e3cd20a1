import TypedStyles.Proofs.Declaration.Pieces
import TypedStyles.Proofs.Text.Utf16

/-!
# The position of a writer

A writer counts lines and columns while it writes.  A fresh writer stands at the
position after its text, and pushing a piece of text keeps it there
(`Writer.Tracks.push`).  So after any pushes the line and the column can be read
off the text that was written (`Writer.Tracks.toNat_line`,
`Writer.Tracks.toNat_column`).

How a text is cut into pieces makes no difference (`Writer.pushAll_eq_push`).
`Writer.pushAll_start` says all this of a writer that has written nothing.
-/

namespace TypedStyles.Writer

variable {w : Writer}

/-- Write several pieces of text in turn. -/
def pushAll (w : Writer) (ss : List String) : Writer := ss.foldl push w

theorem pushAll_cons (w : Writer) (s : String) (ss : List String) :
    w.pushAll (s :: ss) = (w.push s).pushAll ss := rfl

/-! ## The position after the text -/

/-- The writer stands at the position after its text. -/
def Tracks (w : Writer) : Prop := w.position = Position.start.after w.text.toList

theorem tracks_start (recording : Recording) : (start recording).Tracks := rfl

theorem Tracks.push (h : w.Tracks) (s : String) : (w.push s).Tracks := by
  rw [Tracks, position_push, text_push, String.toList_append, Position.after_append, h]

theorem Tracks.pushAll (h : w.Tracks) (ss : List String) : (w.pushAll ss).Tracks := by
  induction ss generalizing w with
  | nil => exact h
  | cons s ss ih => exact ih (h.push s)

theorem Tracks.toNat_line (h : w.Tracks)
    (hlines : (w.text.toList.splitOn '\n').length < 0x100000000) :
    w.position.line.toNat = 1 + w.text.toList.count '\n' := by
  have hstart : Position.start.line.toNat = 1 := rfl
  rw [length_splitOn] at hlines
  rw [h, Position.toNat_line_after (by omega), hstart]

theorem Tracks.toNat_column (h : w.Tracks)
    (hunits : (utf16 w.text.toList).length < 0x100000000) :
    w.position.column.toNat = (utf16 (lastLine w.text.toList)).length := by
  rw [h, toNat_column_after rfl hunits]

/-! ## Cuts -/

theorem push_empty (w : Writer) : w.push "" = w := by
  simp [Writer.push, Position.after_nil]

/-- Pieces of text that are written in turn are written like one text. -/
theorem pushAll_eq_push (w : Writer) (ss : List String) :
    w.pushAll ss = w.push (String.join ss) := by
  induction ss generalizing w with
  | nil => exact (push_empty w).symm
  | cons s ss ih => rw [pushAll_cons, ih, push_push, String.join_cons]

/-- **A writer knows where it stands.**  Whatever is pushed into a fresh writer, its text is what
was pushed, one piece behind the other.  Its line is one more than the line feeds of the text, and
its column is the number of code units behind the last line feed, if both can be counted.  Pieces
that make up the same text leave the same writer, and so does the text as one piece. -/
theorem pushAll_start (recording : Recording) (ss : List String)
    (hlines : ((String.join ss).toList.splitOn '\n').length < 0x100000000)
    (hunits : (utf16 (String.join ss).toList).length < 0x100000000) :
    ((start recording).pushAll ss).text = String.join ss ∧
      ((start recording).pushAll ss).position.line.toNat
        = 1 + (String.join ss).toList.count '\n' ∧
      ((start recording).pushAll ss).position.column.toNat
        = (utf16 (lastLine (String.join ss).toList)).length ∧
      (start recording).pushAll ss = (start recording).push (String.join ss) ∧
      ∀ ts, String.join ts = String.join ss →
        (start recording).pushAll ts = (start recording).pushAll ss := by
  have htracks := (tracks_start recording).pushAll ss
  have htext : ((start recording).pushAll ss).text = String.join ss := by
    rw [pushAll_eq_push, text_push]
    exact String.empty_append
  have hline := htracks.toNat_line (by rw [htext]; exact hlines)
  have hcolumn := htracks.toNat_column (by rw [htext]; exact hunits)
  rw [htext] at hline hcolumn
  refine ⟨htext, hline, hcolumn, pushAll_eq_push _ ss, fun ts hjoin => ?_⟩
  rw [pushAll_eq_push, pushAll_eq_push, hjoin]

/-- A line feed and characters outside the basic plane, cut in two ways. -/
theorem pushAll_start_wide :
    ((start .empty).pushAll ["é😀", "\n 😀", "", "\""]).text = "é😀\n 😀\"" ∧
      ((start .empty).pushAll ["é😀", "\n 😀", "", "\""]).position.line.toNat = 2 ∧
      ((start .empty).pushAll ["é😀", "\n 😀", "", "\""]).position.column.toNat = 4 ∧
      (start .empty).pushAll ["é", "😀\n", " 😀\""]
        = (start .empty).pushAll ["é😀", "\n 😀", "", "\""] := by
  obtain ⟨htext, hline, hcolumn, -, hcut⟩ :=
    pushAll_start .empty ["é😀", "\n 😀", "", "\""] (by decide +kernel) (by decide +kernel)
  have hjoin : String.join ["é😀", "\n 😀", "", "\""] = "é😀\n 😀\"" := by decide +kernel
  rw [hjoin] at htext hline hcolumn
  refine ⟨htext, ?_, ?_, hcut ["é", "😀\n", " 😀\""] (by decide +kernel)⟩
  · rw [hline]
    decide +kernel
  · rw [hcolumn]
    decide +kernel

end TypedStyles.Writer
