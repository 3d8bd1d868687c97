import Mathlib.Order.WellFounded
import ChatApplication.Machine.Basic

/-!
This module contains machines that come to rest when they are left to some of their events, whichever
of them happens first.
-/

namespace Machine

variable {σ : Type u} {ε : Type v}

/--
From `s` on the events with `P` neither go on for ever nor get stuck before the machine is at rest.
-/
inductive Settles (m : Machine σ ε) (P : σ → ε → Prop) (Rest : σ → Prop) : σ → Prop where
  | intro {s : σ} (progress : ¬ Rest s → ∃ e s', P s e ∧ m.step s e = some s')
      (next : ∀ e s', P s e → m.step s e = some s' → Settles m P Rest s') : Settles m P Rest s

-- Every event lowers `f`, and there is one until the machine is at rest.
theorem settles_of_lt {m : Machine σ ε} {P : σ → ε → Prop} {Rest Inv : σ → Prop} {β : Type w}
    [Preorder β] [WellFoundedLT β] (f : σ → β)
    (hlt : ∀ s e s', Inv s → P s e → m.step s e = some s' → Inv s' ∧ f s' < f s)
    (hprogress : ∀ s, Inv s → ¬ Rest s → ∃ e s', P s e ∧ m.step s e = some s') {s : σ} (hs : Inv s)
    : m.Settles P Rest s := by
  generalize hb : f s = b
  induction b using WellFoundedLT.induction generalizing s with
  | ind b ih =>
    apply Settles.intro (hprogress s hs)
    intro e s' he hstep
    have hnext := hlt s e s' hs he hstep
    rw [hb] at hnext
    exact ih (f s') hnext.right hnext.left rfl

end Machine
