import Mathlib.Data.List.Pairwise
import Mathlib.Data.List.Sort
import Mathlib.Data.Prod.Lex

/-!
This module contains lists that are sorted by a key, and the question when a sorted list to which a
sorted batch is appended stays sorted.
-/

variable {α : Type u} {κ : Type v} [LinearOrder κ]

namespace List

def sortBy (key : α → κ) (l : List α) : List α :=
  l.insertionSort (fun a b => key a ≤ key b)

variable (key : α → κ)

theorem perm_sortBy (l : List α) : (l.sortBy key).Perm l := by
  unfold sortBy
  apply perm_insertionSort

@[simp]
theorem mem_sortBy {l : List α} {a : α} : a ∈ l.sortBy key ↔ a ∈ l := by
  exact (perm_sortBy key l).mem_iff

theorem pairwise_sortBy (l : List α) : (l.sortBy key).Pairwise (fun a b => key a ≤ key b) := by
  have htotal : Std.Total (fun a b => key a ≤ key b) := ⟨fun a b => le_total (key a) (key b)⟩
  have htrans : IsTrans α (fun a b => key a ≤ key b) := ⟨fun _ _ _ hab hbc => le_trans hab hbc⟩
  unfold sortBy
  apply pairwise_insertionSort

omit [LinearOrder κ] in
theorem Pairwise.rel_or_rel {R : α → α → Prop} {l : List α} (h : l.Pairwise R) {a b : α}
    (ha : a ∈ l) (hb : b ∈ l) (hne : a ≠ b) : R a b ∨ R b a := by
  have hsymm : Std.Symm (fun a b => R a b ∨ R b a) := ⟨fun _ _ => Or.symm⟩
  have hboth : l.Pairwise (fun a b => R a b ∨ R b a) := h.imp Or.inl
  exact hboth.forall ha hb hne

theorem eq_of_perm_of_pairwise_key {l l' : List α} (hperm : l.Perm l')
    (hkey : ∀ a ∈ l, ∀ b ∈ l, key a = key b → a = b)
    (hl : l.Pairwise (fun a b => key a ≤ key b)) (hl' : l'.Pairwise (fun a b => key a ≤ key b))
    : l = l' := by
  refine hperm.eq_of_pairwise ?_ hl hl'
  intro a b ha hb hab hba
  have hb : b ∈ l := hperm.mem_iff.mpr hb
  exact hkey a ha b hb (le_antisymm hab hba)

theorem sortBy_eq_self_iff {l : List α} (hkey : ∀ a ∈ l, ∀ b ∈ l, key a = key b → a = b)
    : l.sortBy key = l ↔ l.Pairwise (fun a b => key a ≤ key b) := by
  constructor
  . intro h
    rw [← h]
    apply pairwise_sortBy
  . intro h
    symm
    apply eq_of_perm_of_pairwise_key key (perm_sortBy key l).symm hkey h
    apply pairwise_sortBy

theorem sortBy_toDual {l : List α} (hkey : ∀ a ∈ l, ∀ b ∈ l, key a = key b → a = b)
    : l.sortBy (fun a => OrderDual.toDual (key a)) = (l.sortBy key).reverse := by
  apply eq_of_perm_of_pairwise_key (fun a => OrderDual.toDual (key a))
  . have hreverse := (reverse_perm (l.sortBy key)).trans (perm_sortBy key l)
    exact (perm_sortBy _ l).trans hreverse.symm
  . intro a ha b hb hab
    rw [mem_sortBy] at ha hb
    exact hkey a ha b hb (OrderDual.toDual.injective hab)
  . apply pairwise_sortBy
  . rw [pairwise_reverse]
    exact pairwise_sortBy key l

/--
Appending a sorted batch to a sorted list gives the sorted list of both exactly if no element of the
batch sorts before an element of the list.
-/
theorem sortBy_append_eq_self_iff {l batch : List α}
    (hkey : ∀ a ∈ l ++ batch, ∀ b ∈ l ++ batch, key a = key b → a = b)
    (hl : l.Pairwise (fun a b => key a ≤ key b)) (hbatch : batch.Pairwise (fun a b => key a ≤ key b))
    : (l ++ batch).sortBy key = l ++ batch ↔ ∀ a ∈ l, ∀ b ∈ batch, key a ≤ key b := by
  rw [sortBy_eq_self_iff key hkey, pairwise_append]
  constructor
  . intro h
    exact h.right.right
  . intro h
    exact ⟨hl, hbatch, h⟩

end List
