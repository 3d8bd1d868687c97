import Mathlib.Order.Basic
import Mathlib.Order.Notation

/-!
This module contains logs of writes that replace what is stored under a key. A write brings a new
value or writes back what its writer has read before, and writers do not know of each other.
-/

structure LogEntry (κ : Type u) (τ : Type v) where
  key : κ
  value : τ
  -- how many entries there were when the value was read, `none` if it is new
  readAt : Option Nat
  deriving DecidableEq, Repr

namespace WriteLog

variable {κ : Type u} {τ : Type v} [DecidableEq κ]

def content [Bot τ] (key : κ) (log : List (LogEntry κ τ)) : τ :=
  log.foldl (fun value entry => if entry.key = key then entry.value else value) ⊥

-- What an entry that is not new writes was read after the first `start` entries.
def WritesBack [Bot τ] (start : Nat) (log : List (LogEntry κ τ)) (entry : LogEntry κ τ) : Prop :=
  ∀ n ∈ entry.readAt, start ≤ n ∧ n ≤ log.length ∧ entry.value = content entry.key (log.take n)

inductive WellFormed [Bot τ] (start : Nat) : List (LogEntry κ τ) → Prop where
  | start {log : List (LogEntry κ τ)} (h : log.length = start) : WellFormed start log
  | append {log : List (LogEntry κ τ)} {entry : LogEntry κ τ} (h : WellFormed start log)
      (hentry : WritesBack start log entry) : WellFormed start (log ++ [entry])

def NonDecreasing [Bot τ] [LE τ] (start : Nat) (key : κ) (log : List (LogEntry κ τ)) : Prop :=
  ∀ m n, start ≤ m → m ≤ n → n ≤ log.length →
    content key (log.take m) ≤ content key (log.take n)

-- No greater new value has been written since the start, or since the value was read.
def NotOvertaken [LE τ] (start : Nat) (log : List (LogEntry κ τ)) (entry : LogEntry κ τ) : Prop :=
  ∀ e ∈ log.drop (entry.readAt.getD start), e.key = entry.key → e.readAt = none →
    e.value ≤ entry.value

instance [LE τ] [DecidableLE τ] (start : Nat) (log : List (LogEntry κ τ)) (entry : LogEntry κ τ)
    : Decidable (NotOvertaken start log entry) := by
  unfold NotOvertaken
  infer_instance

section Content

variable [Bot τ]

theorem content_append (key : κ) (log : List (LogEntry κ τ)) (entry : LogEntry κ τ)
    : content key (log ++ [entry]) = if entry.key = key then entry.value else content key log := by
  unfold content
  rw [List.foldl_append]
  rfl

theorem content_append_of_ne {key : κ} (log : List (LogEntry κ τ)) {entry : LogEntry κ τ}
    (h : entry.key ≠ key) : content key (log ++ [entry]) = content key log := by
  rw [content_append, if_neg h]

theorem WellFormed.start_le {start : Nat} {log : List (LogEntry κ τ)} (h : WellFormed start log)
    : start ≤ log.length := by
  induction h with
  | start h => omega
  | append h hentry ih =>
    rw [List.length_append]
    omega

theorem WritesBack.append {start : Nat} {log : List (LogEntry κ τ)} {entry : LogEntry κ τ}
    (h : WritesBack start log entry) (entry' : LogEntry κ τ)
    : WritesBack start (log ++ [entry']) entry := by
  intro n hn
  rcases h n hn with ⟨hstart, hlength, hvalue⟩
  rw [List.take_append_of_le_length hlength, List.length_append]
  exact ⟨hstart, by omega, hvalue⟩

end Content

section Preorder

variable [Bot τ] [Preorder τ] {start : Nat} {key : κ} {log : List (LogEntry κ τ)}

theorem nonDecreasing_of_length_le (h : log.length ≤ start) : NonDecreasing start key log := by
  intro m n hm hmn hn
  have hsame : m = n := by omega
  rw [hsame]

theorem NonDecreasing.of_append {entry : LogEntry κ τ}
    (h : NonDecreasing start key (log ++ [entry])) : NonDecreasing start key log := by
  intro m n hm hmn hn
  have hle := h m n hm hmn (by simp; omega)
  rw [List.take_append_of_le_length (by omega), List.take_append_of_le_length hn] at hle
  exact hle

theorem NonDecreasing.append (h : NonDecreasing start key log) {entry : LogEntry κ τ}
    (hentry : content key log ≤ content key (log ++ [entry]))
    : NonDecreasing start key (log ++ [entry]) := by
  intro m n hm hmn hn
  rw [List.length_append, List.length_singleton] at hn
  by_cases hlast : n ≤ log.length
  . rw [List.take_append_of_le_length hlast, List.take_append_of_le_length (by omega)]
    exact h m n hm hmn hlast
  . rw [List.take_of_length_le (l := log ++ [entry]) (i := n) (by simp; omega)]
    by_cases hfirst : m ≤ log.length
    . rw [List.take_append_of_le_length hfirst]
      have hbefore := h m log.length hm hfirst (Nat.le_refl _)
      rw [List.take_length] at hbefore
      exact hbefore.trans hentry
    . rw [List.take_of_length_le (by simp; omega)]

theorem NonDecreasing.le_content (h : NonDecreasing start key log) {entry : LogEntry κ τ}
    (hentry : entry ∈ log.drop start) (hkey : entry.key = key)
    : entry.value ≤ content key log := by
  rw [List.mem_iff_getElem?] at hentry
  rcases hentry with ⟨i, hi⟩
  rw [List.getElem?_drop, List.getElem?_eq_some_iff] at hi
  rcases hi with ⟨hlt, hi⟩
  have hwritten : content key (log.take (start + i + 1)) = entry.value := by
    rw [← List.take_append_getElem hlt, hi, content_append, if_pos hkey]
  have hle := h (start + i + 1) log.length (by omega) (by omega) (Nat.le_refl _)
  rw [hwritten, List.take_length] at hle
  exact hle

-- What is stored now was stored after `n` entries, or a new value has been written since then.
theorem WellFormed.content_le_or (hlog : WellFormed start log) (h : NonDecreasing start key log)
    {n : Nat} (hstart : start ≤ n) (hn : n ≤ log.length)
    : content key log ≤ content key (log.take n)
        ∨
      ∃ e ∈ log.drop n, e.key = key ∧ e.readAt = none ∧ content key log ≤ e.value := by
  induction hlog with
  | start hlength =>
    left
    rw [List.take_of_length_le (by omega)]
  | @append log entry hlog hentry ih =>
    by_cases hlast : n ≤ log.length
    . have hbefore := h.of_append
      rw [List.take_append_of_le_length hlast, List.drop_append_of_le_length hlast]
      -- it is enough that the last entry does not raise the value, or is new
      have hlower : content key (log ++ [entry]) ≤ content key log →
          content key (log ++ [entry]) ≤ content key (log.take n)
            ∨
          ∃ e ∈ log.drop n ++ [entry], e.key = key ∧ e.readAt = none
            ∧ content key (log ++ [entry]) ≤ e.value := by
        intro hle
        cases ih hbefore hlast with
        | inl hold => exact Or.inl (hle.trans hold)
        | inr hnew =>
          rcases hnew with ⟨e, he, hkey, hreadAt, hvalue⟩
          exact Or.inr ⟨e, List.mem_append_left _ he, hkey, hreadAt, hle.trans hvalue⟩
      by_cases hkey : entry.key = key
      . cases hreadAt : entry.readAt with
        | none =>
          right
          refine ⟨entry, List.mem_append_right _ (List.mem_singleton.mpr rfl), hkey, hreadAt, ?_⟩
          rw [content_append, if_pos hkey]
        | some k =>
          apply hlower
          rcases hentry k hreadAt with ⟨hk, hklength, hvalue⟩
          rw [content_append, if_pos hkey, hvalue, hkey]
          have hle := hbefore k log.length hk hklength (Nat.le_refl _)
          rw [List.take_length] at hle
          exact hle
      . apply hlower
        rw [content_append_of_ne log hkey]
    . left
      rw [List.take_of_length_le (by simp; omega)]

/--
A write lowers what is stored exactly if a greater new value has been written that its writer does
not know of: since the start for a new value, since the value was read for one that is written back.
-/
theorem WellFormed.content_le_append_iff (hlog : WellFormed start log) {entry : LogEntry κ τ}
    (hentry : WritesBack start log entry) (h : NonDecreasing start entry.key log)
    (hstart : entry.readAt = none → content entry.key (log.take start) ≤ entry.value)
    : content entry.key log ≤ content entry.key (log ++ [entry]) ↔ NotOvertaken start log entry := by
  have hknown : start ≤ entry.readAt.getD start ∧ entry.readAt.getD start ≤ log.length
      ∧ content entry.key (log.take (entry.readAt.getD start)) ≤ entry.value := by
    cases hreadAt : entry.readAt with
    | none => exact ⟨Nat.le_refl _, hlog.start_le, hstart hreadAt⟩
    | some n =>
      rcases hentry n hreadAt with ⟨hn, hlength, hvalue⟩
      exact ⟨hn, hlength, hvalue.ge⟩
  rcases hknown with ⟨hle, hlength, hvalue⟩
  rw [content_append, if_pos rfl]
  constructor
  . intro hlast e he hkey _
    have hmem : e ∈ log.drop start := List.drop_subset_drop_left log hle he
    exact (h.le_content hmem hkey).trans hlast
  . intro hovertaken
    cases hlog.content_le_or h hle hlength with
    | inl hold => exact hold.trans hvalue
    | inr hnew =>
      rcases hnew with ⟨e, he, hkey, hreadAt, hcontent⟩
      exact hcontent.trans (hovertaken e he hkey hreadAt)

end Preorder

end WriteLog
