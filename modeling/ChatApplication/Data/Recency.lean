import Mathlib.Data.List.Basic
import Mathlib.Order.Lattice

/-!
This module contains logs whose entries belong to keys and have two times: when they were made and
when they were added to the log. Keys can be put into order by their last or by their newest entry.
-/

namespace Recency

variable {α : Type u} {κ : Type v} {τ : Type w}

section Definitions

variable [LE τ] (key : α → κ) (made added : α → τ)

-- the entry by which its key is put into order
def IsLast (log : List α) (entry : α) : Prop :=
  entry ∈ log ∧ ∀ e ∈ log, key e = key entry → added e ≤ added entry

-- The newest entry of a key is not older than the one of a key that comes behind it.
def InOrder (log : List α) : Prop :=
  ∀ a b, IsLast key added log a → IsLast key added log b → added b ≤ added a →
    ∀ e ∈ log, key e = key b → ∃ e' ∈ log, key e' = key a ∧ made e ≤ made e'

-- No other key has an entry that is newer than all entries of the key.
def KeepsNewest (log : List α) (entry : α) : Prop :=
  ∀ e ∈ log, key e ≠ key entry →
    made e ≤ made entry ∨ ∃ e' ∈ log, key e' = key entry ∧ made e ≤ made e'

end Definitions

section LinearOrder

variable [LinearOrder τ] {key : α → κ} {made added : α → τ} {log : List α} {entry : α}

theorem inOrder_nil : InOrder key made added ([] : List α) := by
  intro a b ha
  exact absurd ha.left List.not_mem_nil

theorem exists_isLast (h : entry ∈ log)
    : ∃ last, IsLast key added log last ∧ key last = key entry := by
  induction log generalizing entry with
  | nil => contradiction
  | cons e log ih =>
    by_cases htail : ∃ e' ∈ log, key e' = key entry
    . rcases htail with ⟨e', he', hkey⟩
      rcases ih he' with ⟨last, hlast, hlastKey⟩
      by_cases hlater : key e = key last ∧ added last < added e
      . refine ⟨e, ⟨List.mem_cons_self, ?_⟩, (hlater.left.trans hlastKey).trans hkey⟩
        intro other hother hotherKey
        rw [List.mem_cons] at hother
        cases hother with
        | inl heq => rw [heq]
        | inr hother =>
          have hle := hlast.right other hother (hotherKey.trans hlater.left)
          exact hle.trans hlater.right.le
      . refine ⟨last, ⟨List.mem_cons_of_mem e hlast.left, ?_⟩, hlastKey.trans hkey⟩
        intro other hother hotherKey
        rw [List.mem_cons] at hother
        cases hother with
        | inl heq =>
          rw [heq] at hotherKey ⊢
          rw [not_and, not_lt] at hlater
          exact hlater hotherKey
        | inr hother => exact hlast.right other hother hotherKey
    . refine ⟨entry, ⟨h, ?_⟩, rfl⟩
      intro other hother hotherKey
      rw [List.mem_cons] at h hother
      cases hother with
      | inl hother =>
        cases h with
        | inl h => rw [hother, h]
        | inr h => exact absurd ⟨entry, h, rfl⟩ htail
      | inr hother => exact absurd ⟨other, hother, hotherKey⟩ htail

theorem isLast_append (hadded : ∀ e ∈ log, added e < added entry) {last : α}
    : IsLast key added (log ++ [entry]) last
        ↔
      last = entry ∨ (IsLast key added log last ∧ key last ≠ key entry) := by
  unfold IsLast
  constructor
  . rintro ⟨hmem, hlast⟩
    rw [List.mem_append, List.mem_singleton] at hmem
    cases hmem with
    | inl hmem =>
      refine Or.inr ⟨⟨hmem, ?_⟩, ?_⟩
      . intro e he
        exact hlast e (List.mem_append_left _ he)
      . intro hkey
        have hle := hlast entry (List.mem_append_right _ (List.mem_singleton_self entry)) hkey.symm
        exact absurd (hadded last hmem) (not_lt.mpr hle)
    | inr heq => exact Or.inl heq
  . rintro (heq | ⟨⟨hmem, hlast⟩, hkey⟩)
    . rw [heq]
      refine ⟨List.mem_append_right _ (List.mem_singleton_self entry), ?_⟩
      intro e he _
      rw [List.mem_append, List.mem_singleton] at he
      cases he with
      | inl he => exact (hadded e he).le
      | inr heq => rw [heq]
    . refine ⟨List.mem_append_left _ hmem, ?_⟩
      intro e he hekey
      rw [List.mem_append, List.mem_singleton] at he
      cases he with
      | inl he => exact hlast e he hekey
      | inr heq =>
        rw [heq] at hekey
        exact absurd hekey.symm hkey

/--
An entry that is added last puts its key in front. This is its place if and only if no other key has
an entry that is newer than all entries of the key.
-/
theorem inOrder_append_iff (hlog : InOrder key made added log)
    (hadded : ∀ e ∈ log, added e < added entry)
    : InOrder key made added (log ++ [entry]) ↔ KeepsNewest key made log entry := by
  constructor
  . intro h e he hkey
    have hlast : IsLast key added (log ++ [entry]) entry := by
      rw [isLast_append hadded]
      exact Or.inl rfl
    have hexists : ∃ last, IsLast key added log last ∧ key last = key e := exists_isLast he
    rcases hexists with ⟨last, hother, hotherKey⟩
    have hbehind : IsLast key added (log ++ [entry]) last := by
      rw [isLast_append hadded, hotherKey]
      exact Or.inr ⟨hother, hkey⟩
    have hle := (hadded last hother.left).le
    rcases h entry last hlast hbehind hle e (List.mem_append_left _ he) hotherKey.symm
      with ⟨e', he', hkey', hmade⟩
    rw [List.mem_append, List.mem_singleton] at he'
    cases he' with
    | inl he' => exact Or.inr ⟨e', he', hkey', hmade⟩
    | inr heq =>
      rw [heq] at hmade
      exact Or.inl hmade
  . intro h a b ha hb hle e he hkey
    rw [isLast_append hadded] at ha hb
    have hold : key e ≠ key entry → e ∈ log := by
      intro hne
      rw [List.mem_append, List.mem_singleton] at he
      cases he with
      | inl he => exact he
      | inr heq =>
        rw [heq] at hne
        contradiction
    cases ha with
    | inl heq =>
      rw [heq]
      by_cases hsame : key e = key entry
      . exact ⟨e, he, hsame, le_refl _⟩
      . cases h e (hold hsame) hsame with
        | inl hmade =>
          exact ⟨entry, List.mem_append_right _ (List.mem_singleton_self entry), rfl, hmade⟩
        | inr hnewer =>
          rcases hnewer with ⟨e', he', hkey', hmade⟩
          exact ⟨e', List.mem_append_left _ he', hkey', hmade⟩
    | inr ha =>
      cases hb with
      | inl heq =>
        rw [heq] at hle
        exact absurd (hadded a ha.left.left) (not_lt.mpr hle)
      | inr hb =>
        have hmem := hold (by rw [hkey]; exact hb.right)
        rcases hlog a b ha.left hb.left hle e hmem hkey with ⟨e', he', hkey', hmade⟩
        exact ⟨e', List.mem_append_left _ he', hkey', hmade⟩

end LinearOrder

end Recency
