import ChatApplication.Controller.ChatListener

/-!
This module contains the race between the lists of different snapshots to be the last one that is
assigned to `ChatController.messages`.
-/

namespace ChatApplication

namespace ChatListener

variable {messageId : String}

def Succeeds : Event → Prop
  | .fetchFailed _ => False
  | _ => True

instance : (e : Event) → Decidable (Succeeds e)
  | .snapshot _ _ => inferInstanceAs (Decidable True)
  | .userFetched _ _ _ => inferInstanceAs (Decidable True)
  | .fetchFailed _ => inferInstanceAs (Decidable False)

-- every document of the last snapshot is in `ChatController.messages`
def Complete (s : ChatListener) : Prop :=
  ∀ document ∈ s.documents, ∃ object ∈ s.chat, object.document.documentID = document.documentID

-- No message that was held is lost, and nothing is missing once no reply is outstanding.
def NeverFallsBack (s s' : ChatListener) : Prop :=
  (∀ message ∈ s.published, message ∈ s'.published) ∧ (s'.requests = [] → s'.Complete)

-- A reply that belongs to a list shorter than the one published last is not delivered any more.
def NotOvertaken (s : ChatListener) : Event → Prop
  | .userFetched i _ _ => ∀ request ∈ s.requests[i]?, s.published.length ≤ request.messages.length
  | _ => True

instance (s : ChatListener) : (e : Event) → Decidable (s.NotOvertaken e)
  | .snapshot _ _ => inferInstanceAs (Decidable True)
  | .userFetched i _ _ => inferInstanceAs
    (Decidable (∀ request ∈ s.requests[i]?, s.published.length ≤ request.messages.length))
  | .fetchFailed _ => inferInstanceAs (Decidable True)

-- The lists of all snapshots are initial segments of the variable `messages`.
structure Generations (s : ChatListener) : Prop where
  messages : s.messages = List.range s.objects.length
  published : s.published <+: s.messages
  requests : ∀ request ∈ s.requests, request.messages <+: s.messages
  documents : ∀ document ∈ s.documents, ∃ document' ∈ s.objects.map ChatMessage.document,
    document'.documentID = document.documentID
  -- the newest list is published, or a reply that will publish it is still to come
  newest : s.published = s.messages ∨ ∃ request ∈ s.requests, request.messages = s.messages

theorem generations_init : Generations init := by
  constructor
  . rfl
  . exact List.prefix_rfl
  . intro request hrequest
    contradiction
  . intro document hdocument
    contradiction
  . exact Or.inl rfl

theorem Generations.complete {s : ChatListener} (hs : s.Generations) (h : s.requests = [])
    : s.Complete := by
  intro document hdocument
  rcases hs.documents document hdocument with ⟨document', hdocument', hid⟩
  rw [List.mem_map] at hdocument'
  rcases hdocument' with ⟨object, hobject, hobjectDocument⟩
  refine ⟨object, ?_, by rw [hobjectDocument, hid]⟩
  have hpublished : s.published = s.messages := by
    cases hs.newest with
    | inl heq => exact heq
    | inr hrequest =>
      rcases hrequest with ⟨request, hrequest, _⟩
      rw [h] at hrequest
      contradiction
  rw [List.mem_iff_getElem?] at hobject
  rcases hobject with ⟨i, hi⟩
  rw [mem_chat]
  refine ⟨i, ?_, hi⟩
  rw [hpublished, hs.messages, List.mem_range]
  exact (List.getElem?_eq_some_iff.mp hi).choose

theorem Generations.snapshot {s s' : ChatListener} (hs : s.Generations)
    {changes : List DocumentChange} {now : Date}
    (hstep : (chatListener messageId).step s (.snapshot changes now) = some s')
    : s'.Generations := by
  rcases step_snapshot hstep with ⟨_, added, hadded, hs'⟩
  have hmessages : s.messages ++ List.range' s.objects.length added.length
      = List.range (s.objects ++ added).length := by
    rw [hs.messages, List.length_append, List.range_append_range']
  have hextends : s.messages <+: s.messages ++ List.range' s.objects.length added.length := by
    apply List.prefix_append
  rw [hs']
  constructor
  . exact hmessages
  . exact hs.published.trans hextends
  . intro request hrequest
    rw [List.mem_append] at hrequest
    cases hrequest with
    | inl hold => exact (hs.requests request hold).trans hextends
    | inr hnew =>
      rw [mem_fetchUsers] at hnew
      rw [hnew.left]
  . intro document hdocument
    cases mem_of_mem_documentsAfter hdocument with
    | inl hold =>
      rcases hold with ⟨old, hold, hid⟩
      rcases hs.documents old hold with ⟨document', hdocument', hid'⟩
      refine ⟨document', ?_, by rw [hid', hid]⟩
      rw [List.map_append]
      exact List.mem_append_left _ hdocument'
    | inr hnew =>
      rcases hnew with ⟨change, hchange, htype, hid⟩
      refine ⟨change.document, ?_, hid⟩
      rw [List.map_append, map_document_addedMessages hadded]
      apply List.mem_append_right
      apply List.mem_map_of_mem
      rw [List.mem_filter]
      exact ⟨hchange, by simpa using htype⟩
  . -- as soon as there is a message, the new list is captured by a request for its first one
    dsimp
    rw [hmessages]
    cases hobjects : s.objects ++ added with
    | nil =>
      left
      have hempty := hs.published
      rw [hs.messages, (List.append_eq_nil_iff.mp hobjects).left] at hempty
      exact List.prefix_nil.mp hempty
    | cons object objects =>
      right
      refine ⟨⟨object.message.fromId, 0, List.range (object :: objects).length⟩, ?_, rfl⟩
      apply List.mem_append_right
      rw [mem_fetchUsers]
      refine ⟨rfl, ?_, object, rfl, rfl⟩
      rw [List.mem_range]
      apply Nat.zero_lt_succ

theorem Generations.userFetched {s s' : ChatListener} (hs : s.Generations) {i : Nat}
    {data : Dictionary} {now : Date}
    (hstep : (chatListener messageId).step s (.userFetched i data now) = some s')
    (hovertaken : s.NotOvertaken (.userFetched i data now)) : s'.Generations := by
  rcases step_userFetched hstep with ⟨request, user, hrequest, _, hs'⟩
  have hmem := List.mem_of_getElem? hrequest
  have hle := hovertaken request hrequest
  rw [hs']
  constructor
  . dsimp
    rw [length_setSender]
    exact hs.messages
  . exact hs.requests request hmem
  . intro request' hrequest'
    exact hs.requests request' (List.mem_of_mem_eraseIdx hrequest')
  . dsimp
    rw [map_document_setSender]
    exact hs.documents
  . dsimp
    by_cases hnewest : request.messages = s.messages
    . exact Or.inl hnewest
    . right
      cases hs.newest with
      | inl heq =>
        -- the newest list was published already, no shorter one follows it
        rw [heq] at hle
        exact absurd ((hs.requests request hmem).eq_of_length_le hle) hnewest
      | inr hother =>
        rcases hother with ⟨other, hother, hmessages⟩
        refine ⟨other, ?_, hmessages⟩
        rw [List.mem_iff_getElem?] at hother
        rcases hother with ⟨j, hj⟩
        rw [List.mem_eraseIdx_iff_getElem?]
        refine ⟨j, ?_, hj⟩
        intro hij
        rw [hij, hrequest] at hj
        injection hj with hj
        rw [hj] at hnewest
        contradiction

theorem notOvertaken_of_neverFallsBack {s s' : ChatListener} (hs : s.Generations) {e : Event}
    (hstep : (chatListener messageId).step s e = some s') (h : NeverFallsBack s s')
    : s.NotOvertaken e := by
  cases e with
  | snapshot changes now => trivial
  | fetchFailed i => trivial
  | userFetched i data now =>
    rcases step_userFetched hstep with ⟨request, user, hrequest, _, hs'⟩
    intro request' hrequest'
    rw [hrequest] at hrequest'
    injection hrequest' with hrequest'
    rw [← hrequest']
    have hnodup : s.published.Nodup := by
      apply hs.published.sublist.nodup
      rw [hs.messages]
      apply List.nodup_range
    have hkept := h.left
    rw [hs'] at hkept
    exact (hnodup.subperm hkept).length_le

theorem neverFallsBack_step {s s' : ChatListener} (hs : s.Generations) {e : Event}
    (hstep : (chatListener messageId).step s e = some s') (hsucceeds : Succeeds e)
    (h : s.NotOvertaken e) : s'.Generations ∧ NeverFallsBack s s' := by
  cases e with
  | snapshot changes now =>
    have hs'' := hs.snapshot hstep
    rcases step_snapshot hstep with ⟨_, added, _, hs'⟩
    refine ⟨hs'', ?_, hs''.complete⟩
    rw [hs']
    exact fun _ h => h
  | userFetched i data now =>
    have hs'' := hs.userFetched hstep h
    rcases step_userFetched hstep with ⟨request, user, hrequest, _, hs'⟩
    refine ⟨hs'', ?_, hs''.complete⟩
    rw [hs']
    have hpublished := hs.published
    have hrequested := hs.requests request (List.mem_of_getElem? hrequest)
    exact (List.prefix_of_prefix_length_le hpublished hrequested (h request hrequest)).subset
  | fetchFailed i => contradiction

theorem neverFallsBack_iff_notOvertaken (messageId : String) (es : List Event)
    (hsucceeds : ∀ e ∈ es, Succeeds e)
    : (chatListener messageId).Meets (fun s _ s' => NeverFallsBack s s') init es
        ↔
      (chatListener messageId).Meets (fun s e _ => s.NotOvertaken e) init es := by
  have hassumed := Machine.meets_of_forall_mem (m := chatListener messageId) init hsucceeds
  refine Machine.meets_congr_of_meets ?_ ?_ generations_init hassumed
  . intro s e s' hs hstep hsucceeds h
    have hovertaken := notOvertaken_of_neverFallsBack hs hstep h
    exact (neverFallsBack_step hs hstep hsucceeds hovertaken).left
  . intro s e s' hs hstep hsucceeds
    constructor
    . exact notOvertaken_of_neverFallsBack hs hstep
    . intro hovertaken
      exact (neverFallsBack_step hs hstep hsucceeds hovertaken).right

theorem neverFallsBack_inOrder
    : (chatListener "ba").Meets (fun s _ s' => NeverFallsBack s s') init [
        .snapshot [⟨.added, chatMessage "m1" 1, 0⟩] 1,
        .userFetched 0 chatUser 2,
        .snapshot [⟨.added, chatMessage "m2" 3, 1⟩] 3,
        .userFetched 1 chatUser 4,
        .userFetched 0 chatUser 4
      ] := by
  rw [neverFallsBack_iff_notOvertaken _ _ (by decide)]
  decide

-- The reply that belongs to the first snapshot comes after one that belongs to the second.
theorem not_neverFallsBack
    : ¬∀ (messageId : String) (es : List Event), (∀ e ∈ es, Succeeds e) →
        (chatListener messageId).Meets (fun s _ s' => NeverFallsBack s s') init es := by
  intro h
  have hrun := h "ba" [
    .snapshot [⟨.added, chatMessage "m1" 1, 0⟩] 1,
    .snapshot [⟨.added, chatMessage "m2" 2, 1⟩] 2,
    .userFetched 2 chatUser 3,
    .userFetched 0 chatUser 3
  ] (by decide)
  have hlast := ((((hrun _ rfl).right _ rfl).right _ rfl).right _ rfl).left
  have hlost := hlast.left 1 (by decide)
  contradiction

end ChatListener

end ChatApplication
