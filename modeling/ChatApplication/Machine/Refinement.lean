import ChatApplication.Machine.Basic

/-!
This module contains refinements: a step of a concrete machine is a sequence of steps of an abstract
one between the states that it stands for. What is known about the runs of the abstract machine then
holds of the runs of the concrete one.
-/

namespace Machine

variable {σ : Type u} {ε : Type v} {σ' : Type w} {ε' : Type x}

/--
The events of the abstract machine that a run of the concrete one is made of. `events s e` are those
of the event `e` in the state `s`.
-/
def trace (m : Machine σ ε) (events : σ → ε → List ε') (s : σ) : List ε → List ε'
  | [] => []
  | e :: es =>
    match m.step s e with
    | none => []
    | some s' => events s e ++ m.trace events s' es

/--
Every step of `m` that meets `A` is a run of `m'` whose steps meet `C`. The invariants `Inv` of the
concrete and `Inv'` of the abstract states may rely on each other.
-/
structure Refines (m : Machine σ ε) (m' : Machine σ' ε') (abs : σ → σ') (events : σ → ε → List ε')
    (A : σ → ε → σ → Prop) (C : σ' → ε' → σ' → Prop) (Inv : σ → Prop) (Inv' : σ' → Prop)
    : Prop where
  exec : ∀ {s e s'}, Inv s → Inv' (abs s) → m.step s e = some s' → A s e s' →
    m'.exec (abs s) (events s e) = some (abs s')
  meets : ∀ {s e s'}, Inv s → Inv' (abs s) → m.step s e = some s' → A s e s' →
    m'.Meets C (abs s) (events s e)
  inv : ∀ {s e s'}, Inv s → Inv' (abs s) → m.step s e = some s' → A s e s' → Inv s'
  inv' : ∀ s e s', Inv' s → m'.step s e = some s' → C s e s' → Inv' s'

theorem Meets.append {m : Machine σ ε} {C : σ → ε → σ → Prop} {s s' : σ} {es fs : List ε}
    (hes : m.Meets C s es) (hrun : m.exec s es = some s') (hfs : m.Meets C s' fs)
    : m.Meets C s (es ++ fs) := by
  induction es generalizing s with
  | nil =>
    rw [exec_nil] at hrun
    injection hrun with hrun
    rw [hrun]
    exact hfs
  | cons e es ih =>
    rw [exec_cons_eq_some] at hrun
    rcases hrun with ⟨t, hstep, hrun⟩
    intro t' hstep'
    rw [hstep] at hstep'
    injection hstep' with hstep'
    rw [← hstep']
    have hnext := hes t hstep
    exact ⟨hnext.left, ih hnext.right hrun⟩

theorem meets_singleton {m : Machine σ ε} {C : σ → ε → σ → Prop} {s : σ} {e : ε}
    (h : ∀ s', m.step s e = some s' → C s e s') : m.Meets C s [e] := by
  intro s' hstep
  exact ⟨h s' hstep, trivial⟩

theorem exec_singleton {m : Machine σ ε} {s : σ} {e : ε} : m.exec s [e] = m.step s e := by
  rw [exec_cons]
  cases m.step s e with
  | none => rfl
  | some s' => rfl

-- What every step conserves a run conserves: `f` is what there is, it gains and loses some in a step.
theorem perm_trace_of_exec {m : Machine σ ε} {α : Type w} {Inv : σ → Prop} {f : σ → List α}
    {gained lost : σ → ε → List α} (hInv : m.Preserves Inv)
    (hstep : ∀ s e s', Inv s → m.step s e = some s' →
      (f s' ++ lost s e).Perm (f s ++ gained s e))
    {s t : σ} {es : List ε} (hs : Inv s) (hrun : m.exec s es = some t)
    : (f t ++ m.trace lost s es).Perm (f s ++ m.trace gained s es) := by
  induction es generalizing s with
  | nil =>
    rw [exec_nil] at hrun
    injection hrun with hrun
    rw [hrun]
    exact List.Perm.refl _
  | cons e es ih =>
    rw [exec_cons_eq_some] at hrun
    rcases hrun with ⟨s', hfirst, hrun⟩
    have hrest := ih (hInv s e s' hs hfirst) hrun
    have htrace : ∀ g : σ → ε → List α, m.trace g s (e :: es) = g s e ++ m.trace g s' es := by
      intro g
      rw [trace, hfirst]
    rw [htrace, htrace]
    calc
      (f t ++ (lost s e ++ m.trace lost s' es)).Perm (lost s e ++ (f t ++ m.trace lost s' es)) := by
        exact List.perm_append_comm_assoc _ _ _
      List.Perm _ (lost s e ++ (f s' ++ m.trace gained s' es)) := by
        exact hrest.append_left _
      List.Perm _ (f s' ++ (lost s e ++ m.trace gained s' es)) := by
        exact List.perm_append_comm_assoc _ _ _
      List.Perm _ (f s' ++ lost s e ++ m.trace gained s' es) := by
        rw [List.append_assoc]
      List.Perm _ (f s ++ gained s e ++ m.trace gained s' es) := by
        exact (hstep s e s' hs hfirst).append_right _
      List.Perm _ (f s ++ (gained s e ++ m.trace gained s' es)) := by
        rw [List.append_assoc]

namespace Refines

variable {m : Machine σ ε} {m' : Machine σ' ε'} {abs : σ → σ'} {events : σ → ε → List ε'}
  {A : σ → ε → σ → Prop} {C : σ' → ε' → σ' → Prop} {Inv : σ → Prop} {Inv' : σ' → Prop}

-- The abstract invariant holds wherever the steps of the abstract machine lead.
theorem step_inv' (h : Refines m m' abs events A C Inv Inv') {s s' : σ} {e : ε} (hs : Inv s)
    (hs' : Inv' (abs s)) (hstep : m.step s e = some s') (hA : A s e s') : Inv' (abs s') := by
  exact exec_preserves_of_meets h.inv' hs' (h.exec hs hs' hstep hA) (h.meets hs hs' hstep hA)

/-- Runs refine runs, and end in states of both invariants. -/
theorem run (h : Refines m m' abs events A C Inv Inv') {s t : σ} {es : List ε} (hs : Inv s)
    (hs' : Inv' (abs s)) (hrun : m.exec s es = some t) (hA : m.Meets A s es)
    : m'.exec (abs s) (m.trace events s es) = some (abs t)
        ∧ m'.Meets C (abs s) (m.trace events s es)
        ∧ Inv t ∧ Inv' (abs t) := by
  induction es generalizing s with
  | nil =>
    rw [exec_nil] at hrun
    injection hrun with hrun
    rw [← hrun]
    exact ⟨rfl, trivial, hs, hs'⟩
  | cons e es ih =>
    rw [exec_cons_eq_some] at hrun
    rcases hrun with ⟨s₁, hstep, hrun⟩
    have hfirst := hA s₁ hstep
    have hexec := h.exec hs hs' hstep hfirst.left
    have hmeets := h.meets hs hs' hstep hfirst.left
    have hs₁ := h.inv hs hs' hstep hfirst.left
    have hs₁' := h.step_inv' hs hs' hstep hfirst.left
    rcases ih hs₁ hs₁' hrun hfirst.right with ⟨hrest, hrestMeets, hinv, hinv'⟩
    have htrace : m.trace events s (e :: es) = events s e ++ m.trace events s₁ es := by
      rw [trace, hstep]
    rw [htrace]
    refine ⟨?_, ?_, hinv, hinv'⟩
    . rw [exec_append, hexec, Option.bind_some]
      exact hrest
    . exact hmeets.append hexec hrestMeets

end Refines

end Machine
