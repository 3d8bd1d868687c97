import Mathlib.Data.List.Basic

/-!
This module contains the split of a list at the last occurrence of a separator.
-/

namespace List

variable {α : Type u} [DecidableEq α]

-- what is before the last `a` and what is behind it
def splitAtLast (a : α) : List α → Option (List α × List α)
  | [] => none
  | b :: l =>
    match splitAtLast a l with
    | some (before, behind) => some (b :: before, behind)
    | none => if b = a then some ([], l) else none

theorem splitAtLast_eq_none {a : α} {l : List α} : l.splitAtLast a = none ↔ a ∉ l := by
  induction l with
  | nil => simp [splitAtLast]
  | cons b l ih =>
    rw [splitAtLast, mem_cons, not_or, ← ih]
    split
    . next hsplit => simp [hsplit]
    . next hsplit => simp [hsplit, eq_comm]

theorem splitAtLast_append {a : α} {behind : List α} (h : a ∉ behind) (before : List α)
    : (before ++ a :: behind).splitAtLast a = some (before, behind) := by
  induction before with
  | nil =>
    rw [nil_append, splitAtLast, splitAtLast_eq_none.mpr h]
    exact if_pos rfl
  | cons b before ih =>
    rw [cons_append, splitAtLast, ih]

theorem splitAtLast_eq_some {a : α} {l before behind : List α}
    : l.splitAtLast a = some (before, behind) ↔ l = before ++ a :: behind ∧ a ∉ behind := by
  constructor
  . intro h
    induction l generalizing before with
    | nil => contradiction
    | cons b l ih =>
      unfold splitAtLast at h
      split at h
      . next before' behind' hsplit =>
        injection h with h
        injection h with hbefore hbehind
        rw [hbehind] at hsplit
        rw [← hbefore, cons_append, ← (ih hsplit).left]
        exact ⟨rfl, (ih hsplit).right⟩
      . next hsplit =>
        rw [Option.ite_none_right_eq_some] at h
        rcases h with ⟨hb, h⟩
        injection h with h
        injection h with hbefore hbehind
        rw [splitAtLast_eq_none, hbehind] at hsplit
        rw [← hbefore, hb, hbehind]
        exact ⟨rfl, hsplit⟩
  . rintro ⟨hl, hbehind⟩
    rw [hl]
    exact splitAtLast_append hbehind before

end List
