import Mathlib.Data.Finmap
import Mathlib.Data.Finset.Sort

set_option autoImplicit false

/-! # Traversals of a finite map

A loop over a hash table visits every entry once, in an order that the table does not promise.
`IsTraversal order m` says that `order` is such an arrangement of the entries of `m`; what a program
computes by a loop is a function of `order`, and the lemmas here say when it is a function of `m`. -/

namespace Finmap

variable {α : Type*} {β : α → Type*}

/-- `order` lists every entry of `m` once. -/
def IsTraversal (order : List (Sigma β)) (m : Finmap β) : Prop :=
  (order : Multiset (Sigma β)) = m.entries

theorem exists_isTraversal (m : Finmap β) : ∃ order, IsTraversal order m :=
  Quot.exists_rep m.entries

section InKeyOrder

variable [DecidableEq α] [LE α] [DecidableLE α] [IsTrans α (· ≤ ·)]
  [Std.Antisymm ((· ≤ ·) : α → α → Prop)] [Std.Total ((· ≤ ·) : α → α → Prop)]

/-- The entries in the order of their keys. -/
def inKeyOrder (m : Finmap β) : List (Sigma β) :=
  (m.keys.sort (· ≤ ·)).filterMap fun k => (m.lookup k).map (Sigma.mk k)

theorem mem_inKeyOrder {m : Finmap β} {e : Sigma β} :
    e ∈ m.inKeyOrder ↔ m.lookup e.1 = some e.2 := by
  obtain ⟨k, v⟩ := e
  simp only [inKeyOrder, List.mem_filterMap, Finset.mem_sort, Option.map_eq_some_iff]
  constructor
  · rintro ⟨k', -, v', hv', heq⟩
    cases heq
    exact hv'
  · intro hv
    exact ⟨k, mem_keys.2 (mem_of_lookup_eq_some hv), v, hv, rfl⟩

theorem isTraversal_inKeyOrder (m : Finmap β) : IsTraversal m.inKeyOrder m := by
  have hnodup : m.inKeyOrder.Nodup := by
    refine (Finset.sort_nodup _ _).filterMap fun k k' e hk hk' => ?_
    obtain ⟨v, -, rfl⟩ := Option.map_eq_some_iff.1 hk
    obtain ⟨v', -, heq⟩ := Option.map_eq_some_iff.1 hk'
    exact (congrArg Sigma.fst heq).symm
  refine (Multiset.Nodup.ext (Multiset.coe_nodup.2 hnodup) m.nodupKeys.nodup).2 fun e => ?_
  rw [Multiset.mem_coe, mem_inKeyOrder, lookup_eq_some_iff]

end InKeyOrder

namespace IsTraversal

variable {order order' : List (Sigma β)} {m : Finmap β}

theorem perm (h : IsTraversal order m) (h' : IsTraversal order' m) : order.Perm order' :=
  Multiset.coe_eq_coe.1 (Eq.trans h (Eq.symm h'))

theorem mem_entries (h : IsTraversal order m) {e : Sigma β} : e ∈ order ↔ e ∈ m.entries := by
  rw [← h, Multiset.mem_coe]

variable [DecidableEq α]

theorem mem_iff (h : IsTraversal order m) {k : α} {v : β k} :
    ⟨k, v⟩ ∈ order ↔ m.lookup k = some v := by
  rw [h.mem_entries, lookup_eq_some_iff]

/-- Some traversal starts at any given entry. -/
theorem exists_cons {k : α} {v : β k} (hk : m.lookup k = some v) :
    ∃ order, IsTraversal (⟨k, v⟩ :: order) m := by
  obtain ⟨order, h⟩ := exists_isTraversal m
  obtain ⟨fst, snd, rfl⟩ := List.append_of_mem (h.mem_iff.2 hk)
  refine ⟨fst ++ snd, Eq.trans ?_ h⟩
  exact Multiset.coe_eq_coe.2 List.perm_middle.symm

/-- A search that finds nothing has refused every entry. -/
theorem find?_eq_none (h : IsTraversal order m) {p : Sigma β → Bool} :
    order.find? p = none ↔ ∀ k v, m.lookup k = some v → p ⟨k, v⟩ = false := by
  rw [List.find?_eq_none]
  constructor
  · intro hall k v hk
    simpa using hall ⟨k, v⟩ (h.mem_iff.2 hk)
  · rintro hall ⟨k, v⟩ he
    simp [hall k v (h.mem_iff.1 he)]

theorem of_find?_eq_some (h : IsTraversal order m) {p : Sigma β → Bool} {k : α} {v : β k}
    (hfind : order.find? p = some ⟨k, v⟩) : m.lookup k = some v ∧ p ⟨k, v⟩ = true :=
  ⟨h.mem_iff.1 (List.mem_of_find?_eq_some hfind), List.find?_some hfind⟩

omit [DecidableEq α] in
/-- **A search for an entry that is unique does not depend on the order.** -/
theorem find?_congr (h : IsTraversal order m) (h' : IsTraversal order' m) {p : Sigma β → Bool}
    (huniq : ∀ e ∈ order, ∀ e' ∈ order, p e = true → p e' = true → e = e') :
    order.find? p = order'.find? p := by
  have hmem : ∀ e, e ∈ order ↔ e ∈ order' := fun e => (h.perm h').mem_iff
  cases hfind : order.find? p with
  | none =>
      symm
      rw [List.find?_eq_none] at hfind ⊢
      exact fun e he => hfind e ((hmem e).2 he)
  | some e =>
      have he := List.mem_of_find?_eq_some hfind
      have hp := List.find?_some hfind
      cases hfind' : order'.find? p with
      | none =>
          rw [List.find?_eq_none] at hfind'
          exact absurd hp (hfind' e ((hmem e).1 he))
      | some e' =>
          have he' := (hmem e').2 (List.mem_of_find?_eq_some hfind')
          rw [huniq e he e' he' hp (List.find?_some hfind')]

end IsTraversal

/-! ## Erasing while traversing -/

variable [DecidableEq α]

/-- Visit the entries in order and erase those that `p` selects. -/
def eraseWhere (p : Sigma β → Bool) : List (Sigma β) → Finmap β → Finmap β
  | [], m => m
  | e :: rest, m => if p e then eraseWhere p rest (m.erase e.1) else eraseWhere p rest m

theorem lookup_eraseWhere_list (p : Sigma β → Bool) (k : α) (order : List (Sigma β)) :
    ∀ m : Finmap β, (eraseWhere p order m).lookup k
      = if order.any (fun e => decide (e.1 = k) && p e) then none else m.lookup k := by
  induction order with
  | nil => intro m; rfl
  | cons e rest ih =>
      intro m
      rw [eraseWhere, List.any_cons]
      by_cases hp : p e = true
      · rw [if_pos hp, ih]
        by_cases hk : e.1 = k
        · subst hk
          simp [hp]
        · rw [lookup_erase_ne (Ne.symm hk), decide_eq_false hk, Bool.false_and, Bool.false_or]
      · rw [if_neg hp, ih, Bool.eq_false_of_not_eq_true hp, Bool.and_false, Bool.false_or]

/-- **The sweep is exact.** Whatever the order, the entries `p` does not select remain, unchanged,
    and the others are gone. -/
theorem IsTraversal.lookup_eraseWhere {order : List (Sigma β)} {m : Finmap β}
    (h : IsTraversal order m) (p : Sigma β → Bool) (k : α) :
    (eraseWhere p order m).lookup k = (m.lookup k).filter fun v => !p ⟨k, v⟩ := by
  have hany : order.any (fun e => decide (e.1 = k) && p e) = true ↔
      ∃ v, m.lookup k = some v ∧ p ⟨k, v⟩ = true := by
    simp only [List.any_eq_true, Bool.and_eq_true, decide_eq_true_eq]
    constructor
    · intro h
      obtain ⟨⟨k', v⟩, he, rfl, hp⟩ := h
      exact ⟨v, h.mem_iff.1 he, hp⟩
    · intro h
      obtain ⟨v, hv, hp⟩ := h
      exact ⟨⟨k, v⟩, h.mem_iff.2 hv, rfl, hp⟩
  rw [lookup_eraseWhere_list, if_congr hany rfl rfl]
  cases hk : m.lookup k with
  | none => simp
  | some v => by_cases hp : p ⟨k, v⟩ = true <;> simp [hp, Option.filter]

end Finmap
