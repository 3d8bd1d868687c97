import ChatApplication.Controller.ChatListener.Generations

/-!
This module contains the listener of a query whose documents are only ever added. It follows the
query by the changes alone.
-/

namespace ChatApplication

namespace ChatListener

variable {messageId : String}

def AddsOnly : Event → Prop
  | .snapshot changes _ => ∀ change ∈ changes, change.type = .added
  | _ => True

-- The objects are those of the documents of the last snapshot, and all lists that are published or
-- about to be are initial segments of them.
structure Mirrors (s : ChatListener) : Prop where
  messages : s.messages = List.range s.objects.length
  published : s.published <+: s.messages
  requests : ∀ request ∈ s.requests, request.messages <+: s.messages
  documents : s.objects.map ChatMessage.document = s.documents
  decoded : ∀ object ∈ s.objects, ∃ now, Message.init now object.document.data = some object.message

theorem mirrors_init : Mirrors init := by
  constructor
  . rfl
  . exact List.prefix_rfl
  . intro request hrequest
    contradiction
  . rfl
  . intro object hobject
    contradiction

theorem Mirrors.snapshot {s s' : ChatListener} (hs : s.Mirrors) {changes : List DocumentChange}
    {now : Date} (hstep : (chatListener messageId).step s (.snapshot changes now) = some s')
    (hadds : ∀ change ∈ changes, change.type = .added) : s'.Mirrors := by
  rcases step_snapshot hstep with ⟨_, added, hadded, hs'⟩
  have hextends : s.messages <+: s.messages ++ List.range' s.objects.length added.length := by
    apply List.prefix_append
  rw [hs']
  constructor
  . dsimp only
    rw [hs.messages, List.length_append, List.range_append_range']
  . exact hs.published.trans hextends
  . intro request hrequest
    rw [List.mem_append] at hrequest
    cases hrequest with
    | inl hold => exact (hs.requests request hold).trans hextends
    | inr hnew =>
      rw [mem_fetchUsers] at hnew
      rw [hnew.left]
  . dsimp only
    have hfilter : changes.filter (fun change => change.type = .added) = changes := by
      rw [List.filter_eq_self]
      intro change hchange
      exact decide_eq_true (hadds change hchange)
    rw [List.map_append, hs.documents, map_document_addedMessages hadded, hfilter,
      documentsAfter_of_added _ hadds]
  . intro object hobject
    rw [List.mem_append] at hobject
    cases hobject with
    | inl hold => exact hs.decoded object hold
    | inr hnew => exact ⟨now, (mem_addedMessages hadded hnew).right.left⟩

theorem Mirrors.userFetched {s s' : ChatListener} (hs : s.Mirrors) {i : Nat} {data : Dictionary}
    {now : Date} (hstep : (chatListener messageId).step s (.userFetched i data now) = some s')
    : s'.Mirrors := by
  rcases step_userFetched hstep with ⟨request, user, hrequest, _, hs'⟩
  rw [hs']
  constructor
  . dsimp only
    rw [length_setSender]
    exact hs.messages
  . exact hs.requests request (List.mem_of_getElem? hrequest)
  . intro request' hrequest'
    exact hs.requests request' (List.mem_of_mem_eraseIdx hrequest')
  . dsimp only
    rw [map_document_setSender]
    exact hs.documents
  . intro object hobject
    rw [List.mem_iff_getElem?] at hobject
    rcases hobject with ⟨j, hj⟩
    dsimp only at hj
    rw [getElem?_setSender, Option.map_eq_some_iff] at hj
    rcases hj with ⟨old, hold, heq⟩
    have hdecoded := hs.decoded old (List.mem_of_getElem? hold)
    rw [← heq]
    split
    . exact hdecoded
    . exact hdecoded

theorem Mirrors.step {s s' : ChatListener} (hs : s.Mirrors) {e : Event}
    (hstep : (chatListener messageId).step s e = some s') (hadds : AddsOnly e) : s'.Mirrors := by
  cases e with
  | snapshot changes now => exact hs.snapshot hstep hadds
  | userFetched i data now => exact hs.userFetched hstep
  | fetchFailed i =>
    rw [step_fetchFailed hstep]
    constructor
    . exact hs.messages
    . exact hs.published
    . intro request hrequest
      exact hs.requests request (List.mem_of_mem_eraseIdx hrequest)
    . exact hs.documents
    . exact hs.decoded

theorem Mirrors.filterMap_messages {s : ChatListener} (hs : s.Mirrors)
    : s.messages.filterMap (fun message => s.objects[message]?) = s.objects := by
  have hfilter := List.filterMap_range_getElem? s.objects id
  simp only [Option.map_id_fun, id_eq, List.map_id_fun] at hfilter
  rw [hs.messages]
  exact hfilter

theorem Mirrors.isPrefix_chat {s : ChatListener} (hs : s.Mirrors) : s.chat <+: s.objects := by
  have hprefix := hs.published.filterMap (fun message => s.objects[message]?)
  rw [hs.filterMap_messages] at hprefix
  exact hprefix

-- the list of the last snapshot is the one on screen
theorem Mirrors.chat_eq {s : ChatListener} (hs : s.Mirrors) (h : s.published = s.messages)
    : s.chat = s.objects := by
  unfold chat
  rw [h]
  exact hs.filterMap_messages

theorem Generations.published_eq {s : ChatListener} (hs : s.Generations) (h : s.requests = [])
    : s.published = s.messages := by
  cases hs.newest with
  | inl heq => exact heq
  | inr hrequest =>
    rcases hrequest with ⟨request, hrequest, _⟩
    rw [h] at hrequest
    contradiction

end ChatListener

end ChatApplication
