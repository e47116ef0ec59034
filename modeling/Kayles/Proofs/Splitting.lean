import Kayles.Implementation.Common
import Kayles.Lib.Tokens

set_option autoImplicit false

/-! # Splitting a message

The tokens of `split_message` are the only ones without a delimiter that, written with a delimiter
after each, give the message with its last token closed. So a message and its closed form have the
same tokens, and no other two messages have. -/

namespace Kayles

open Tokens

section Splitting

variable {d : Char} {message : List Char} {parts : List (List Char)}

theorem notMem_extracted {s : List Char} {c : Char} (hs : d ∉ s) (hne : ¬ c = d) :
    d ∉ s ++ [c] := by
  intro hmem
  rcases List.mem_append.1 hmem with hmem | hmem
  · exact hs hmem
  · exact hne (List.mem_singleton.1 hmem).symm

/-- No chunk contains the delimiter. -/
theorem clean_extractChunks (d : Char) (stream : List Char) {s : List Char} (hs : d ∉ s) :
    Clean d (extractChunks d stream s) := by
  induction stream generalizing s with
  | nil =>
      rw [extractChunks]
      split
      · exact fun t ht => absurd ht List.not_mem_nil
      · exact fun t ht => List.mem_singleton.1 ht ▸ hs
  | cons c stream ih =>
      rw [extractChunks]
      split
      · exact (ih List.not_mem_nil).cons hs
      · rename_i hne
        exact ih (notMem_extracted hs hne)

/-- Nothing of the stream is lost but its delimiters. -/
theorem write_extractChunks (d : Char) (stream : List Char) {s : List Char} (hs : d ∉ s) :
    write d (extractChunks d stream s) = close d (s ++ stream) := by
  induction stream generalizing s with
  | nil =>
      rw [extractChunks, List.append_nil]
      split
      · rename_i hnil
        rw [hnil, write_nil, close_nil]
      · rename_i hne
        rw [write_cons, write_nil, close_of_notMem hne hs]
  | cons c stream ih =>
      rw [extractChunks]
      split
      · rename_i heq
        rw [heq, write_cons, ih List.not_mem_nil, List.nil_append, close_append_cons]
      · rename_i hne
        rw [ih (notMem_extracted hs hne), List.append_assoc, List.cons_append, List.nil_append]

theorem clean_splitMessage (message : List Char) (d : Char) : Clean d (splitMessage message d) :=
  clean_extractChunks d message List.not_mem_nil

theorem write_splitMessage (message : List Char) (d : Char) :
    write d (splitMessage message d) = close d message :=
  write_extractChunks d message List.not_mem_nil

/-- **The tokens** are the only clean ones that write the closed message. -/
theorem splitMessage_eq_iff (h : Clean d parts) :
    splitMessage message d = parts ↔ close d message = write d parts := by
  constructor
  · rintro rfl
    exact (write_splitMessage message d).symm
  · intro hclose
    refine write_inj (clean_splitMessage message d) h ?_
    rw [write_splitMessage, hclose]

/-- Separated tokens are split where they were joined, also with a delimiter at the end. -/
theorem splitMessage_intercalate (hne : parts ≠ []) (h : Clean d parts)
    (hlast : ∀ t ∈ parts, t ≠ []) (hmessage : message = [d].intercalate parts ∨
      message = [d].intercalate parts ++ [d]) : splitMessage message d = parts := by
  rw [splitMessage_eq_iff h, write_eq_intercalate hne]
  rcases hmessage with rfl | rfl
  · exact close_intercalate hne h hlast
  · exact close_concat d _

end Splitting

/-- **Splitting a message.** The tokens are the only ones without the delimiter that write the closed
    message; two messages have the same tokens if one is the other with its last token closed. -/
theorem split_message_unique (d : Char) :
    (∀ message parts, splitMessage message d = parts ↔
      Clean d parts ∧ write d parts = close d message) ∧
    ∀ message message', message ≠ message' ∧ splitMessage message d = splitMessage message' d ↔
      (message ≠ [] ∧ message.getLast? ≠ some d ∧ message' = message ++ [d]) ∨
      (message' ≠ [] ∧ message'.getLast? ≠ some d ∧ message = message' ++ [d]) := by
  refine ⟨fun message parts => ?_, fun message message' => ?_⟩
  · constructor
    · rintro rfl
      exact ⟨clean_splitMessage message d, write_splitMessage message d⟩
    · intro hparts
      exact (splitMessage_eq_iff hparts.1).2 hparts.2.symm
  · rw [← close_eq_close_iff, splitMessage_eq_iff (clean_splitMessage message' d),
      write_splitMessage]

end Kayles
