import ChatApplication.Machine.Basic

/-!
This module contains runs of a machine for an observer who is shown only some of the events. If no
hidden event changes what the observer sees of the state then runs with the same shown events end in
states that look the same.
-/

namespace Machine

variable {σ : Type u} {ε : Type v}

structure Unwinding (m : Machine σ ε) (View : σ → σ → Prop) (shown : ε → Bool) : Prop where
  step : ∀ {s s' e t}, View s s' → shown e = true → m.step s e = some t →
    ∃ t', m.step s' e = some t' ∧ View t t'
  skip : ∀ {s s' e t}, View s s' → shown e = false → m.step s e = some t → View t s'

variable {m : Machine σ ε} {View : σ → σ → Prop} {shown : ε → Bool}

theorem Unwinding.exec_filter (h : Unwinding m View shown) {s s' t : σ} {es : List ε}
    (hview : View s s') (hrun : m.exec s es = some t)
    : ∃ t', m.exec s' (es.filter shown) = some t' ∧ View t t' := by
  induction es generalizing s s' with
  | nil =>
    rw [exec_nil] at hrun
    injection hrun with hrun
    rw [← hrun]
    exact ⟨s', rfl, hview⟩
  | cons e es ih =>
    rw [exec_cons_eq_some] at hrun
    rcases hrun with ⟨s₁, hstep, hrun⟩
    cases hshown : shown e with
    | true =>
      rcases h.step hview hshown hstep with ⟨s₁', hstep', hview'⟩
      rcases ih hview' hrun with ⟨t', hrun', hlast⟩
      refine ⟨t', ?_, hlast⟩
      rw [List.filter_cons_of_pos hshown, exec_cons_eq_some]
      exact ⟨s₁', hstep', hrun'⟩
    | false =>
      rw [List.filter_cons_of_neg (by simp [hshown])]
      exact ih (h.skip hview hshown hstep) hrun

theorem Unwinding.view_of_filter_eq (h : Unwinding m View shown) {s t t' : σ} {es es' : List ε}
    (hview : View s s) (hes : es.filter shown = es'.filter shown) (hrun : m.exec s es = some t)
    (hrun' : m.exec s es' = some t') : ∃ r, View t r ∧ View t' r := by
  rcases h.exec_filter hview hrun with ⟨r, hfilter, ht⟩
  rcases h.exec_filter hview hrun' with ⟨r', hfilter', ht'⟩
  rw [hes, hfilter'] at hfilter
  injection hfilter with hfilter
  rw [hfilter] at ht'
  exact ⟨r, ht, ht'⟩

end Machine
