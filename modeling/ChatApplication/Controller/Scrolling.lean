import ChatApplication.Controller.ListViews

/-!
This module contains the row to which `fetchData` scrolls in the block that reloads the table view: the
last one of `messages`, whatever has become of the list since the block was put on the queue.
-/

namespace ChatApplication

namespace ChatTable

-- the row of `scrollToRow`, it is -1 if there are no messages
def lastIndex (s : ChatTable) : Int :=
  (s.listener.published.length : Int) - 1

-- `scrollToRow` traps if the table view has no such row. It is the last one that has been loaded.
def ScrollsInRange : Event → ChatTable → Prop
  | .reloadData, s' => ∃ count : Nat, s'.views.rows = [some count] ∧ 0 ≤ s'.lastIndex
      ∧ s'.lastIndex < count ∧ s'.lastIndex = count - 1
  | .listener _, _ | .firstLayout, _ => True

-- Every block was put on the queue by a reply, and none of the lists that the replies publish is empty.
structure ScrollsInv (s : ChatTable) : Prop where
  view : ∃ rows, s.views.rows = [rows]
  requests : ∀ request ∈ s.listener.requests, request.messages ≠ []
  blocks : 0 < s.views.blocks → s.listener.published ≠ []

theorem scrollsInv_init : init.ScrollsInv := by
  constructor
  . exact ⟨none, rfl⟩
  . intro request hrequest
    contradiction
  . intro hblocks
    contradiction

variable {messageId : String} {s s' : ChatTable}

theorem rows_notify (views : ListViews) (e : ChatListener.Event)
    : (notify views e).rows = views.rows := by
  cases e with
  | _ => rfl

theorem ScrollsInv.listener (hs : s.ScrollsInv) {e : ChatListener.Event} {listener : ChatListener}
    (hstep : (chatListener messageId).step s.listener e = some listener)
    : ScrollsInv ⟨listener, notify s.views e⟩ := by
  have hview : ∃ rows, (notify s.views e).rows = [rows] := by
    rw [rows_notify]
    exact hs.view
  refine ⟨hview, ?_, ?_⟩
  . cases e with
    | snapshot changes now =>
      rcases ChatListener.step_snapshot hstep with ⟨_, added, _, hlistener⟩
      rw [hlistener]
      intro request hrequest
      rw [List.mem_append] at hrequest
      cases hrequest with
      | inl hold => exact hs.requests request hold
      | inr hnew =>
        -- a list with a request is not empty, the request is for one of its messages
        rw [ChatListener.mem_fetchUsers] at hnew
        rw [hnew.left]
        exact List.ne_nil_of_mem hnew.right.left
    | userFetched i data now =>
      rcases ChatListener.step_userFetched hstep with ⟨_, user, _, _, hlistener⟩
      rw [hlistener]
      intro request hrequest
      exact hs.requests request (List.mem_of_mem_eraseIdx hrequest)
    | fetchFailed i =>
      rw [ChatListener.step_fetchFailed hstep]
      intro request hrequest
      exact hs.requests request (List.mem_of_mem_eraseIdx hrequest)
  . cases e with
    | snapshot changes now =>
      rcases ChatListener.step_snapshot hstep with ⟨_, added, _, hlistener⟩
      rw [hlistener]
      exact hs.blocks
    | userFetched i data now =>
      rcases ChatListener.step_userFetched hstep with ⟨request, user, hrequest, _, hlistener⟩
      rw [hlistener]
      intro _
      exact hs.requests request (List.mem_of_getElem? hrequest)
    | fetchFailed i =>
      rw [ChatListener.step_fetchFailed hstep]
      exact hs.blocks

theorem ScrollsInv.reloadData (hs : s.ScrollsInv) {views : ListViews}
    (hviews : s.views.reloadData s.listener.published.length = some views)
    : ScrollsInv ⟨s.listener, views⟩ ∧ ScrollsInRange .reloadData ⟨s.listener, views⟩ := by
  rcases hs.view with ⟨rows, hrows⟩
  unfold ListViews.reloadData at hviews
  split at hviews
  . next hguard =>
    injection hviews with hviews
    have hpublished := hs.blocks hguard.left
    have hlength := List.length_pos_of_ne_nil hpublished
    rw [← hviews, hrows]
    constructor
    . exact ⟨⟨_, rfl⟩, hs.requests, fun _ => hpublished⟩
    . refine ⟨s.listener.published.length, rfl, ?_, ?_, rfl⟩
      . unfold lastIndex
        dsimp only
        omega
      . unfold lastIndex
        dsimp only
        omega
  . contradiction

theorem ScrollsInv.firstLayout (hs : s.ScrollsInv) {views : ListViews} {count : Nat}
    (hviews : s.views.firstLayout 0 count = some views) : ScrollsInv ⟨s.listener, views⟩ := by
  rcases hs.view with ⟨rows, hrows⟩
  unfold ListViews.firstLayout at hviews
  split at hviews
  . injection hviews with hviews
    rw [← hviews, hrows]
    exact ⟨⟨_, rfl⟩, hs.requests, hs.blocks⟩
  . contradiction

theorem scrollsInv_step {e : Event} (hs : s.ScrollsInv)
    (hstep : (chatTable messageId).step s e = some s') : s'.ScrollsInv ∧ ScrollsInRange e s' := by
  simp only [chatTable, step] at hstep
  cases e with
  | listener e =>
    dsimp only at hstep
    split at hstep
    . next listener hlistener =>
      injection hstep with hstep
      rw [← hstep]
      exact ⟨hs.listener hlistener, trivial⟩
    . contradiction
  | reloadData =>
    dsimp only at hstep
    split at hstep
    . next views hviews =>
      injection hstep with hstep
      rw [← hstep]
      exact hs.reloadData hviews
    . contradiction
  | firstLayout =>
    dsimp only at hstep
    split at hstep
    . next views hviews =>
      injection hstep with hstep
      rw [← hstep]
      exact ⟨hs.firstLayout hviews, trivial⟩
    . contradiction

/-- The chat scrolls to the last row of the table view, never to one that is not there. -/
theorem scrollsInRange_of_run (messageId : String) (es : List Event)
    : (chatTable messageId).Meets (fun _ e s' => ScrollsInRange e s') init es := by
  have hpreserves : (chatTable messageId).Preserves ScrollsInv := by
    intro s e s' hs hstep
    exact (scrollsInv_step hs hstep).left
  refine Machine.meets_of_preserves hpreserves ?_ scrollsInv_init es
  intro s e s' hs hstep
  exact (scrollsInv_step hs hstep).right

end ChatTable

end ChatApplication
