import Mathlib.Algebra.Ring.Nat
import Mathlib.Data.List.Basic

set_option autoImplicit false

/-! # Delimited tokens

A text is a list of tokens, each followed by the delimiter. A reader that takes the end of the text
for a delimiter reads `close d m`, the text with its last token closed; tokens without the delimiter
are determined by what is written. -/

namespace Tokens

variable {α : Type}

/-- Each token followed by the delimiter. -/
def write (d : α) (ts : List (List α)) : List α := ts.flatMap (· ++ [d])

/-- No token contains the delimiter. -/
def Clean (d : α) (ts : List (List α)) : Prop := ∀ t ∈ ts, d ∉ t

@[simp] theorem write_nil (d : α) : write d [] = [] := rfl

@[simp] theorem write_cons (d : α) (t : List α) (ts : List (List α)) :
    write d (t :: ts) = t ++ d :: write d ts := by
  rw [write, List.flatMap_cons, List.append_assoc]
  rfl

theorem Clean.cons {d : α} {t : List α} {ts : List (List α)} (ht : d ∉ t) (h : Clean d ts) :
    Clean d (t :: ts) :=
  List.forall_mem_cons.2 ⟨ht, h⟩

theorem Clean.of_cons {d : α} {t : List α} {ts : List (List α)} (h : Clean d (t :: ts)) :
    d ∉ t ∧ Clean d ts :=
  List.forall_mem_cons.1 h

/-! ## Positions -/

/-- The position in the written text of element `i` of token `p`. -/
def offset (ts : List (List α)) (p i : ℕ) : ℕ := ((ts.take p).map fun t => t.length + 1).sum + i

@[simp] theorem offset_zero (ts : List (List α)) (i : ℕ) : offset ts 0 i = i := Nat.zero_add i

@[simp] theorem offset_cons_succ (t : List α) (ts : List (List α)) (p i : ℕ) :
    offset (t :: ts) (p + 1) i = t.length + 1 + offset ts p i := by
  simp only [offset, List.take_succ_cons, List.map_cons, List.sum_cons, Nat.add_assoc]

theorem getElem?_write_offset (d : α) {ts : List (List α)} {p i : ℕ} {t : List α} {a : α}
    (ht : ts[p]? = some t) (ha : t[i]? = some a) : (write d ts)[offset ts p i]? = some a := by
  induction ts generalizing p with
  | nil => simp at ht
  | cons t' ts ih =>
      cases p with
      | zero =>
          obtain rfl : t' = t := Option.some.inj ht
          have hi : i < t'.length := (List.getElem?_eq_some_iff.1 ha).1
          rw [write_cons, offset_zero, List.getElem?_append_left hi, ha]
      | succ p =>
          rw [List.getElem?_cons_succ] at ht
          rw [write_cons, offset_cons_succ, List.getElem?_append_right (by omega),
            show t'.length + 1 + offset ts p i - t'.length = offset ts p i + 1 by omega,
            List.getElem?_cons_succ]
          exact ih ht

/-! ## Writing and separating -/

theorem write_eq_intercalate {d : α} {ts : List (List α)} (h : ts ≠ []) :
    write d ts = [d].intercalate ts ++ [d] := by
  induction ts with
  | nil => exact absurd rfl h
  | cons t ts ih =>
      by_cases hts : ts = []
      · subst hts
        rw [write_cons, write_nil, List.intercalate_singleton]
      · rw [write_cons, ih hts, List.intercalate_cons_of_ne_nil hts]
        simp only [List.append_assoc, List.cons_append, List.nil_append]

/-- Written tokens are separated tokens with an empty one at the end. -/
theorem write_eq_intercalate_concat (d : α) (ts : List (List α)) :
    write d ts = [d].intercalate (ts ++ [[]]) := by
  induction ts with
  | nil => rfl
  | cons t ts ih =>
      rw [write_cons, ih, List.cons_append,
        List.intercalate_cons_of_ne_nil (List.append_ne_nil_of_right_ne_nil ts (List.cons_ne_nil _ _))]
      simp only [List.append_assoc, List.cons_append, List.nil_append]

variable [DecidableEq α]

theorem splitOn_write {d : α} {ts : List (List α)} (h : Clean d ts) :
    (write d ts).splitOn d = ts ++ [[]] := by
  rw [write_eq_intercalate_concat]
  refine List.splitOn_intercalate d ?_ (List.append_ne_nil_of_right_ne_nil ts (List.cons_ne_nil _ _))
  intro t ht
  rcases List.mem_append.1 ht with ht | ht
  · exact h t ht
  · rw [List.mem_singleton.1 ht]
    exact List.not_mem_nil

/-- **Unique tokens**: what is written determines them. -/
theorem write_inj {d : α} {ts ts' : List (List α)} (h : Clean d ts) (h' : Clean d ts')
    (heq : write d ts = write d ts') : ts = ts' := by
  have hsplit := splitOn_write h
  rw [heq, splitOn_write h'] at hsplit
  exact (List.append_cancel_right hsplit).symm

/-! ## Texts whose last token may be open -/

/-- The text with its last token closed. -/
def close (d : α) (m : List α) : List α :=
  if m = [] ∨ m.getLast? = some d then m else m ++ [d]

@[simp] theorem close_nil (d : α) : close d [] = [] := if_pos (.inl rfl)

theorem close_of_open {d : α} {m : List α} (hne : m ≠ []) (hlast : m.getLast? ≠ some d) :
    close d m = m ++ [d] :=
  if_neg (not_or.2 ⟨hne, hlast⟩)

theorem close_concat (d : α) (m : List α) : close d (m ++ [d]) = m ++ [d] :=
  if_pos (.inr List.getLast?_concat)

/-- A text is the closed one or lacks its last delimiter. -/
theorem close_eq_or (d : α) (m : List α) : close d m = m ∨ close d m = m ++ [d] :=
  ite_eq_or_eq _ _ _

/-- **The kernel of closing**: two texts are closed to the same one if one is open and lacks the
delimiter that the other ends with. -/
theorem close_eq_close_iff {d : α} {m m' : List α} : m ≠ m' ∧ close d m = close d m' ↔
    (m ≠ [] ∧ m.getLast? ≠ some d ∧ m' = m ++ [d]) ∨
    (m' ≠ [] ∧ m'.getLast? ≠ some d ∧ m = m' ++ [d]) := by
  constructor
  · intro h
    obtain ⟨hne, heq⟩ := h
    by_cases h : m = [] ∨ m.getLast? = some d
    · by_cases h' : m' = [] ∨ m'.getLast? = some d
      · rw [close, if_pos h, close, if_pos h'] at heq
        exact absurd heq hne
      · obtain ⟨hne', hlast'⟩ := not_or.1 h'
        rw [close, if_pos h, close_of_open hne' hlast'] at heq
        exact .inr ⟨hne', hlast', heq⟩
    · obtain ⟨hnil, hlast⟩ := not_or.1 h
      rw [close_of_open hnil hlast] at heq
      rcases close_eq_or d m' with hclose | hclose
      · exact .inl ⟨hnil, hlast, (heq.trans hclose).symm⟩
      · exact absurd (List.append_cancel_right (heq.trans hclose)) hne
  · have hcloses : ∀ {m : List α}, m ≠ [] → m.getLast? ≠ some d →
        m ≠ m ++ [d] ∧ close d m = close d (m ++ [d]) := by
      intro m hnil hlast
      refine ⟨fun h => List.cons_ne_nil d [] (List.self_eq_append_right.1 h), ?_⟩
      rw [close_of_open hnil hlast, close_concat]
    rintro (⟨hnil, hlast, rfl⟩ | ⟨hnil, hlast, rfl⟩)
    · exact hcloses hnil hlast
    · obtain ⟨hne, heq⟩ := hcloses hnil hlast
      exact ⟨hne.symm, heq.symm⟩

/-- Closing adds nothing but the delimiter. -/
theorem getElem?_of_close {d a : α} {m : List α} {k : ℕ} (h : (close d m)[k]? = some a)
    (hne : a ≠ d) : m[k]? = some a := by
  rcases close_eq_or d m with hclose | hclose
  · rwa [hclose] at h
  · rw [hclose] at h
    by_cases hk : k < m.length
    · rwa [List.getElem?_append_left hk] at h
    · rw [List.getElem?_append_right (Nat.le_of_not_lt hk)] at h
      exact absurd (List.mem_singleton.1 (List.mem_of_getElem? h)) hne

/-- An open token alone. -/
theorem close_of_notMem {d : α} {t : List α} (hne : t ≠ []) (ht : d ∉ t) : close d t = t ++ [d] :=
  close_of_open hne fun hlast => ht (List.mem_of_getLast? hlast)

/-- Closing reaches past a delimiter. -/
theorem close_append_cons (d : α) (s m : List α) : close d (s ++ d :: m) = s ++ d :: close d m := by
  by_cases hm : m = []
  · subst hm
    exact close_concat d s
  · have hlast : (s ++ d :: m).getLast? = m.getLast? := by
      rw [List.getLast?_append, List.getLast?_cons, List.getLast?_eq_getLast_of_ne_nil hm]
      rfl
    have hne : s ++ d :: m ≠ [] := List.append_ne_nil_of_right_ne_nil s (List.cons_ne_nil _ _)
    by_cases hd : m.getLast? = some d
    · rw [close, if_pos (.inr (hlast.trans hd)), close, if_pos (.inr hd)]
    · rw [close_of_open hne (hlast ▸ hd), close_of_open hm hd, List.append_assoc, List.cons_append]

/-- Separated tokens that are not empty end with an open one. -/
theorem close_intercalate {d : α} {ts : List (List α)} (hne : ts ≠ []) (h : Clean d ts)
    (hts : ∀ t ∈ ts, t ≠ []) : close d ([d].intercalate ts) = [d].intercalate ts ++ [d] := by
  induction ts with
  | nil => exact absurd rfl hne
  | cons t ts ih =>
      obtain ⟨ht, h⟩ := h.of_cons
      obtain ⟨htne, hts⟩ := List.forall_mem_cons.1 hts
      by_cases hnil : ts = []
      · subst hnil
        rw [List.intercalate_singleton]
        exact close_of_notMem htne ht
      · rw [List.intercalate_cons_of_ne_nil hnil, List.append_assoc, List.cons_append,
          List.nil_append, close_append_cons, ih hnil h hts, List.append_assoc, List.cons_append]

end Tokens
