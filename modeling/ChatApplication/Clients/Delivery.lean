import ChatApplication.Clients.Basic
import ChatApplication.Controller.ChatListener.Incremental
import ChatApplication.Machine.PubSub
import ChatApplication.Machine.Refinement

/-!
This module contains the way of a message from `addMessage` to the screens: the store publishes it
under its message id and the listeners of the chats subscribe to theirs.
-/

namespace ChatApplication

def DocumentSnapshot.msgId (document : DocumentSnapshot) : String :=
  (document.data.string? "msgId").getD ""

namespace Clients

variable {Image : Type u} {Data : Type v} {pngData : Image → Option Data}

def published (s : Clients Data) : PubSub String DocumentSnapshot :=
  {
    log := s.server.storedMessages.map (fun document => (document.msgId, document))
    subscribers := s.chats.map (fun c => (c.messageId, c.listener.documents))
  }

def pubSubEvents (s : Clients Data) : Event Image → List (PubSub.Event String DocumentSnapshot)
  | .openChat uid user =>
    match s.server.objects[user]? with
    | some otherUser => [.subscribe (messageId (some uid.value) otherUser)]
    | none => []
  | .perform operation now =>
    match s.server.stored? (.perform operation now) with
    | some document => [.publish document.msgId document]
    | none => []
  | .listener chat (.snapshot changes _) => [.deliver chat (changes.map DocumentChange.document)]
  | _ => []

structure PostedInv (s : Clients Data) : Prop where
  log : s.server.MessageLogInv
  posted : s.server.allMessages.Perm (s.posted.map Posted.document)
  listeners : ∀ c ∈ s.chats, c.listener.Mirrors

theorem postedInv_init : (init : Clients Data).PostedInv := by
  constructor
  . exact Backend.messageLogInv_init
  . exact List.Perm.refl _
  . intro c hc
    contradiction

theorem PostedInv.exists_posted {s : Clients Data} (hs : s.PostedInv) {document : DocumentSnapshot}
    (h : document ∈ s.server.storedMessages) : ∃ posted ∈ s.posted, posted.document = document := by
  have hmem := hs.posted.subset (List.mem_append_left s.server.outgoingMessages h)
  rw [List.mem_map] at hmem
  exact hmem

theorem PostedInv.mem_query {s : Clients Data} (hs : s.PostedInv) {messageId : String}
    {document : DocumentSnapshot}
    : document ∈ DatabaseManager.fetchMessages s.documents messageId
        ↔
      document ∈ s.published.topic messageId := by
  rw [DatabaseManager.mem_fetchMessages, documents, hs.log.stored, PubSub.mem_topic, published,
    List.mem_map]
  constructor
  . rintro ⟨⟨hstored, hmsgId⟩, _⟩
    refine ⟨document, hstored, ?_⟩
    rw [Prod.mk.injEq, DocumentSnapshot.msgId, Dictionary.string?, hmsgId]
    exact ⟨rfl, rfl⟩
  . rintro ⟨other, hstored, heq⟩
    rw [Prod.mk.injEq] at heq
    rcases heq with ⟨hmsgId, hother⟩
    rw [hother] at hstored hmsgId
    rcases hs.exists_posted hstored with ⟨posted, _, hdocument⟩
    rw [← hdocument] at hmsgId ⊢
    rw [← hmsgId]
    exact ⟨⟨by rw [hdocument]; exact hstored, rfl⟩, rfl⟩

theorem PostedInv.exists_posted_of_query {s : Clients Data} (hs : s.PostedInv) {messageId : String}
    {document : DocumentSnapshot}
    (h : document ∈ DatabaseManager.fetchMessages s.documents messageId)
    : ∃ posted ∈ s.posted, posted.document = document ∧ posted.message.msgId = messageId := by
  rw [DatabaseManager.mem_fetchMessages, documents, hs.log.stored] at h
  rcases hs.exists_posted h.left.left with ⟨posted, hposted, hdocument⟩
  have hmsgId := h.left.right
  rw [← hdocument] at hmsgId
  injection hmsgId with hmsgId
  injection hmsgId with hmsgId
  exact ⟨posted, hposted, hdocument, hmsgId⟩

theorem PostedInv.eq_of_query {s : Clients Data} (hs : s.PostedInv) {messageId messageId' : String}
    {document other : DocumentSnapshot}
    (h : document ∈ DatabaseManager.fetchMessages s.documents messageId)
    (h' : other ∈ DatabaseManager.fetchMessages s.documents messageId')
    (hid : document.documentID = other.documentID) : document = other := by
  rw [DatabaseManager.mem_fetchMessages, documents, hs.log.stored] at h h'
  exact List.inj_on_of_nodup_map hs.log.nodup_storedMessages h.left.left h'.left.left hid

theorem mem_subscribers {s : Clients Data} {c : OpenChat} (hc : c ∈ s.chats)
    : (c.messageId, c.listener.documents) ∈ s.published.subscribers := by
  exact List.mem_map_of_mem hc

-- What a listener has been told of is still in the result of its query.
theorem PostedInv.query_of_told {s : Clients Data} (hs : s.PostedInv) (hpublished : s.published.Inv)
    {c : OpenChat} (hc : c ∈ s.chats) {document : DocumentSnapshot}
    (h : document ∈ c.listener.documents)
    : document ∈ DatabaseManager.fetchMessages s.documents c.messageId := by
  rw [hs.mem_query]
  exact (hpublished.delivered _ (mem_subscribers hc)).right document h

/--
No message is ever written a second time or deleted, so the listeners miss nothing when they look at
the added documents only.
-/
theorem PostedInv.added {s : Clients Data} (hs : s.PostedInv) (hpublished : s.published.Inv)
    {c : OpenChat} (hc : c ∈ s.chats) {change : DocumentChange}
    (h : Reports (DatabaseManager.fetchMessages s.documents c.messageId) c.listener.documents change)
    : change.type = .added := by
  unfold Reports at h
  split at h
  . assumption
  . rcases h with ⟨hnew, old, hold, hid, hne⟩
    have hsame := hs.eq_of_query (hs.query_of_told hpublished hc hold) hnew hid
    contradiction
  . rcases h with ⟨hold, hnone⟩
    exact absurd rfl (hnone _ (hs.query_of_told hpublished hc hold))

theorem published_congr {s s' : Clients Data}
    (hstored : s'.server.storedMessages = s.server.storedMessages)
    (hchats : s'.chats.map (fun c => (c.messageId, c.listener.documents))
      = s.chats.map (fun c => (c.messageId, c.listener.documents)))
    : s'.published = s.published := by
  unfold published
  rw [hstored, hchats]

-- Most requests leave the collection as it is.
theorem published_of_server {s s' : Clients Data} {e : Backend.Event}
    (hserver : backend.step s.server e = some s'.server) (hstored : s.server.stored? e = none)
    (hchats : s'.chats = s.chats) : s'.published = s.published := by
  apply published_congr
  . rw [Backend.storedMessages_step hserver, hstored]
    exact List.append_nil _
  . rw [hchats]

theorem exec_nil_published {s s' : Clients Data} {e : Backend.Event}
    (hserver : backend.step s.server e = some s'.server) (hstored : s.server.stored? e = none)
    (hchats : s'.chats = s.chats)
    : (pubSub String DocumentSnapshot).exec s.published [] = some s'.published := by
  rw [published_of_server hserver hstored hchats]
  rfl

theorem PostedInv.of_request {s s' : Clients Data} (hs : s.PostedInv) {e : Backend.Event}
    (hserver : backend.step s.server e = some s'.server) (hadded : e.added? = none)
    (hposted : s'.posted = s.posted)
    : s'.server.MessageLogInv ∧ s'.server.allMessages.Perm (s'.posted.map Posted.document) := by
  have hnew : s.server.AddsNew e := by
    intro document hdocument
    rw [hadded] at hdocument
    contradiction
  have hperm := Backend.allMessages_step hserver
  rw [hadded, Option.toList_none, List.append_nil] at hperm
  rw [hposted]
  exact ⟨Backend.messageLogInv_step hs.log hserver hnew, hperm.trans hs.posted⟩

-- the part of `PostedInv` about the store
theorem PostedInv.log_step {s s' : Clients Data} {e : Event Image} (hs : s.PostedInv)
    (hstep : (clients pngData).step s e = some s')
    : s'.server.MessageLogInv ∧ s'.server.allMessages.Perm (s'.posted.map Posted.document) := by
  rcases requests_step hstep with ⟨_, hserver, hposted⟩ | ⟨e', _, hserver, hrequests⟩
  . rw [hserver, hposted]
    exact ⟨hs.log, hs.posted⟩
  . cases e' with
    | createAccount uid => exact hs.of_request hserver rfl hrequests.right
    | signup uid firstName lastName email url date now =>
      exact hs.of_request hserver rfl hrequests
    | load path now => exact hs.of_request hserver rfl hrequests
    | createGroup uid uuid usersId groupName url selectedUsers date now =>
      exact hs.of_request hserver rfl hrequests.right
    | addMessage message currentUser otherUser date date' documentID =>
      rcases hrequests with ⟨hfree, uid, _, hposted⟩
      have hnew : s.server.AddsNew
          (.addMessage message currentUser otherUser date date' documentID) := by
        intro document hdocument other hother hid
        rw [Backend.Event.added?, Option.mem_some_iff] at hdocument
        have hmem := hs.posted.subset hother
        rw [List.mem_map] at hmem
        rcases hmem with ⟨old, hold, hother⟩
        apply hfree old hold
        rw [← hother, ← hdocument] at hid
        exact hid
      have hperm := Backend.allMessages_step hserver
      refine ⟨Backend.messageLogInv_step hs.log hserver hnew, ?_⟩
      rw [hposted, List.map_append]
      exact hperm.trans (hs.posted.append_right _)
    | perform i now => exact hs.of_request hserver rfl hrequests

theorem published_addMessage {s s' : Clients Data} {uid : AuthUid} {message : Message}
    {currentUser otherUser : Nat} {date date' : Date} {documentID : DocumentID}
    (h : s.addMessage uid message currentUser otherUser date date' documentID = some s')
    : s'.published = s.published := by
  rcases addMessage_eq_some h with ⟨_, server', hserver, hs'⟩
  rw [hs']
  exact published_of_server hserver rfl rfl

theorem postedInv_step {s s' : Clients Data} {e : Event Image} (hs : s.PostedInv)
    (hpublished : s.published.Inv) (hstep : (clients pngData).step s e = some s')
    : s'.PostedInv := by
  rcases hs.log_step hstep with ⟨hlog, hposted⟩
  refine ⟨hlog, hposted, ?_⟩
  intro c' hc'
  rw [List.mem_iff_getElem?] at hc'
  rcases hc' with ⟨chat, hc'⟩
  rcases chat_step hstep hc' with hstarts | ⟨c, hc, hsame | hfetched | hlistener⟩
  . rcases hstarts with ⟨uid, user, source, otherUser, _, _, _, _, heq⟩
    rw [heq]
    exact ChatListener.mirrors_init
  . rw [hsame]
    exact hs.listeners c (List.mem_of_getElem? hc)
  . rcases hfetched with ⟨currentUser, _, heq⟩
    rw [heq]
    exact hs.listeners c (List.mem_of_getElem? hc)
  . rcases hlistener with ⟨e', listener, _, hdelivers, hlistener, heq⟩
    have hmem := List.mem_of_getElem? hc
    rw [heq]
    apply (hs.listeners c hmem).step hlistener
    cases e' with
    | snapshot changes now =>
      intro change hchange
      exact hs.added hpublished hmem (hdelivers.right change hchange)
    | userFetched i data now => trivial
    | fetchFailed i => trivial

/-
The events of one chat or of the store come to the other chats and the log as they are, so each lemma
below is about the one part that changes.
-/

theorem published_openChat (s : Clients Data) (c : OpenChat)
    : published { s with chats := s.chats ++ [c] }
        =
      {
        s.published with
        subscribers := s.published.subscribers ++ [(c.messageId, c.listener.documents)]
      } := by
  unfold published
  dsimp only
  rw [List.map_append, List.map_singleton]

theorem published_setChat (s : Clients Data) (chat : Nat) (c : OpenChat)
    : published { s with chats := s.chats.set chat c }
        =
      {
        s.published with
        subscribers := s.published.subscribers.set chat (c.messageId, c.listener.documents)
      } := by
  unfold published
  dsimp only
  rw [List.map_set]

theorem subscribers_set_self {s : Clients Data} {chat : Nat} {c : OpenChat}
    (hc : s.chats[chat]? = some c)
    : s.published.subscribers.set chat (c.messageId, c.listener.documents)
        =
      s.published.subscribers := by
  have hsubscriber : s.published.subscribers[chat]?
      = some (c.messageId, c.listener.documents) := by
    rw [published, List.getElem?_map, hc]
    rfl
  rw [List.getElem?_eq_some_iff] at hsubscriber
  rcases hsubscriber with ⟨hlt, hsubscriber⟩
  rw [← hsubscriber]
  exact List.set_getElem_self hlt

theorem exec_published_perform {s s' : Clients Data} {operation : Nat} {now : Date}
    (hs' : s'.PostedInv) (hstep : (clients pngData).step s (.perform operation now) = some s')
    : (pubSub String DocumentSnapshot).exec s.published
          (pubSubEvents s (.perform operation now : Event Image))
        =
      some s'.published := by
  rcases step_perform hstep with ⟨server', hserver, heq⟩
  have hstored := Backend.storedMessages_step hserver
  simp only [pubSubEvents]
  split
  . next document hdocument =>
    rw [hdocument, Option.toList_some] at hstored
    have hnodup := hs'.log.nodup_storedMessages
    rw [heq] at hnodup ⊢
    dsimp only at hnodup
    rw [hstored, List.map_append, List.nodup_append] at hnodup
    rw [Machine.exec_singleton]
    have hnew : document ∉ s.published.items := by
      intro hmem
      rw [PubSub.items, published, List.map_map] at hmem
      have hold : document ∈ s.server.storedMessages := by
        simpa [Function.comp_def] using hmem
      apply hnodup.right.right _ (List.mem_map_of_mem hold) document.documentID (by simp)
      rfl
    simp only [pubSub, PubSub.step, if_neg hnew]
    simp only [published, hstored, List.map_append, List.map_singleton]
  . next hnone =>
    rw [heq]
    exact exec_nil_published hserver hnone rfl

theorem exec_published_snapshot {s s' : Clients Data} (hs : s.PostedInv) (hpublished : s.published.Inv)
    {chat : Nat} {changes : List DocumentChange} {now : Date}
    (hstep : (clients pngData).step s (.listener chat (.snapshot changes now)) = some s')
    : (pubSub String DocumentSnapshot).step s.published
          (.deliver chat (changes.map DocumentChange.document))
        =
      some s'.published := by
  rcases step_listener hstep with ⟨c, listener, hc, hdelivers, hlistener, hs'⟩
  rcases ChatListener.step_snapshot hlistener with ⟨_, added, _, hlistener'⟩
  have hadded : ∀ change ∈ changes, change.type = .added := by
    intro change hchange
    exact hs.added hpublished (List.mem_of_getElem? hc) (hdelivers.right change hchange)
  have hsubscriber : s.published.subscribers[chat]?
      = some (c.messageId, c.listener.documents) := by
    rw [published, List.getElem?_map, hc]
    rfl
  have hnodup : (changes.map DocumentChange.document).Nodup := by
    apply List.Nodup.of_map DocumentSnapshot.documentID
    rw [List.map_map]
    exact hdelivers.left
  have hitems : ∀ item ∈ changes.map DocumentChange.document,
      item ∈ s.published.topic c.messageId ∧ item ∉ c.listener.documents := by
    rw [List.forall_mem_map]
    intro change hchange
    have hreports := hdelivers.right change hchange
    rw [Reports, hadded change hchange] at hreports
    refine ⟨?_, ?_⟩
    . rw [← hs.mem_query]
      exact hreports.left
    . intro hold
      exact hreports.right _ hold rfl
  have hdocuments : listener.documents
      = c.listener.documents ++ changes.map DocumentChange.document := by
    rw [hlistener']
    exact ChatListener.documentsAfter_of_added _ hadded
  rw [hs', published_setChat, hdocuments]
  simp only [pubSub, PubSub.step, hsubscriber]
  rw [if_pos ⟨hnodup, hitems⟩]

theorem exec_published {s s' : Clients Data} {e : Event Image} (hs : s.PostedInv)
    (hpublished : s.published.Inv) (hstep : (clients pngData).step s e = some s')
    : (pubSub String DocumentSnapshot).exec s.published (pubSubEvents s e)
        =
      some s'.published := by
  have hinv := postedInv_step hs hpublished hstep
  cases e with
  | createAccount uid =>
    rcases step_createAccount hstep with ⟨_, server', hserver, hs'⟩
    rw [hs']
    exact exec_nil_published hserver rfl rfl
  | signup uid firstName lastName email url date now =>
    rcases step_signup hstep with ⟨server', hserver, hs'⟩
    rw [hs']
    exact exec_nil_published hserver rfl rfl
  | load source documentID now =>
    rcases step_load hstep with ⟨_, path, server', _, hserver, hs'⟩
    rw [hs']
    exact exec_nil_published hserver rfl rfl
  | createGroup uuid uid groupName url selectedUsers date now =>
    rcases step_createGroup hstep with ⟨_, _, server', hserver, hs'⟩
    rw [hs']
    exact exec_nil_published hserver rfl rfl
  | openChat uid user =>
    rcases step_openChat hstep with ⟨source, otherUser, _, huser, _, _, hs'⟩
    rw [hs', published_openChat, pubSubEvents, huser, Machine.exec_singleton]
    rfl
  | currentUserFetched chat currentUser =>
    rcases step_currentUserFetched hstep with ⟨c, hc, _, hs'⟩
    rw [hs', published_setChat, subscribers_set_self hc]
    rfl
  | send chat pickedImage text date now date' date'' documentID =>
    rcases step_send hstep with ⟨heq, _⟩
      | ⟨c, otherUser, currentUser, _, _, _, ⟨_, hadd, _⟩ | ⟨_, _, _, _, hs', _⟩⟩
    . rw [heq]
      rfl
    . rw [published_addMessage hadd]
      rfl
    . rw [hs']
      rfl
  | uploadCompleted i url date date' documentID =>
    rcases step_uploadCompleted hstep with ⟨upload, _, hadd⟩
    rw [published_addMessage hadd]
    rfl
  | uploadFailed i =>
    rw [step_uploadFailed hstep]
    rfl
  | perform operation now => exact exec_published_perform hinv hstep
  | listener chat e =>
    cases e with
    | snapshot changes now =>
      rw [pubSubEvents, Machine.exec_singleton]
      exact exec_published_snapshot hs hpublished hstep
    | userFetched i data now =>
      rcases step_listener hstep with ⟨c, listener, hc, _, hlistener, hs'⟩
      rcases ChatListener.step_userFetched hlistener with ⟨request, user, _, _, hlistener'⟩
      rw [hs', published_setChat, hlistener', subscribers_set_self hc]
      rfl
    | fetchFailed i =>
      rcases step_listener hstep with ⟨c, listener, hc, _, hlistener, hs'⟩
      rw [hs', published_setChat, ChatListener.step_fetchFailed hlistener, subscribers_set_self hc]
      rfl

theorem refines_pubSub
    : Machine.Refines (clients pngData) (pubSub String DocumentSnapshot) published pubSubEvents
        (fun _ _ _ => True) (fun _ _ _ => True) PostedInv PubSub.Inv := by
  constructor
  . intro s e s' hs hpublished hstep _
    exact exec_published hs hpublished hstep
  . intro s e s' _ _ _ _
    exact Machine.meets_of_forall_mem _ (fun _ _ => trivial)
  . intro s e s' hs hpublished hstep _
    exact postedInv_step hs hpublished hstep
  . intro s e s' hs hstep _
    exact PubSub.inv_step s e s' hs hstep

theorem inv_of_run {s : Clients Data} {es : List (Event Image)}
    (hrun : (clients pngData).exec init es = some s) : s.PostedInv ∧ s.published.Inv := by
  have hall : (clients pngData).Meets (fun _ _ _ => True) init es := by
    exact Machine.meets_of_forall_mem _ (fun _ _ => trivial)
  exact (refines_pubSub.run postedInv_init PubSub.inv_init hrun hall).right.right

/-- The chats of all clients and the store they share are one message board. -/
theorem run_is_run_of_pubSub (pngData : Image → Option Data) (es : List (Event Image))
    {s : Clients Data} (hrun : (clients pngData).exec init es = some s)
    : (pubSub String DocumentSnapshot).exec PubSub.init
          ((clients pngData).trace pubSubEvents init es)
        =
      some s.published := by
  have hall : (clients pngData).Meets (fun _ _ _ => True) init es := by
    exact Machine.meets_of_forall_mem _ (fun _ _ => trivial)
  exact (refines_pubSub.run postedInv_init PubSub.inv_init hrun hall).left

theorem run_is_run_of_pubSub_teamRun
    : ∃ s, (clients (fun image => some image)).exec init teamRun = some s
        ∧ (pubSub String DocumentSnapshot).exec PubSub.init
            ((clients (fun image => some image)).trace pubSubEvents init teamRun)
              = some s.published := by
  exact ⟨_, rfl, run_is_run_of_pubSub (fun image => some image) teamRun rfl⟩

def AnnouncesNew : Event Image → Prop
  | .listener _ (.snapshot changes _) => ∀ change ∈ changes, change.type = .added
  | _ => True

/-- Whatever a listener is told of is a new message. -/
theorem announcesNew_of_run (pngData : Image → Option Data) (es : List (Event Image))
    : (clients pngData).Meets (fun _ e _ => AnnouncesNew e) init es := by
  have hpreserves : (clients pngData).Preserves (fun s => s.PostedInv ∧ s.published.Inv) := by
    intro s e s' hs hstep
    exact ⟨postedInv_step hs.left hs.right hstep,
      refines_pubSub.step_inv' hs.left hs.right hstep trivial⟩
  refine Machine.meets_of_preserves hpreserves ?_ ⟨postedInv_init, PubSub.inv_init⟩ es
  intro s e s' hs hstep
  cases e with
  | listener chat e =>
    rcases step_listener hstep with ⟨c, listener, hc, hdelivers, _, _⟩
    cases e with
    | snapshot changes now =>
      intro change hchange
      exact hs.left.added hs.right (List.mem_of_getElem? hc) (hdelivers.right change hchange)
    | userFetched i data now => trivial
    | fetchFailed i => trivial
  | _ => trivial

section Shown

variable {s : Clients Data} {c : OpenChat}

theorem PostedInv.exists_posted_of_object (hs : s.PostedInv) (hpublished : s.published.Inv)
    (hc : c ∈ s.chats) {object : ChatMessage} (hobject : object ∈ c.listener.objects)
    : ∃ posted ∈ s.posted, posted.message.msgId = c.messageId
        ∧ posted.document = object.document ∧ object.message = posted.message := by
  have hdocument : object.document ∈ c.listener.documents := by
    rw [← (hs.listeners c hc).documents]
    exact List.mem_map_of_mem hobject
  rcases hs.exists_posted_of_query (hs.query_of_told hpublished hc hdocument)
    with ⟨posted, hposted, heq, hmsgId⟩
  rcases (hs.listeners c hc).decoded object hobject with ⟨now, hdecoded⟩
  refine ⟨posted, hposted, hmsgId, heq, ?_⟩
  have hround := Message.init_dictionary now posted.message
  rw [← heq, Posted.document, hround] at hdecoded
  injection hdecoded with hdecoded
  exact hdecoded.symm

theorem PostedInv.exists_posted_of_shown (hs : s.PostedInv) (hpublished : s.published.Inv)
    (hc : c ∈ s.chats) {shown : ChatMessage} (hshown : shown ∈ c.listener.chat)
    : ∃ posted ∈ s.posted, posted.message.msgId = c.messageId
        ∧ posted.document = shown.document ∧ shown.message = posted.message := by
  have hobject := (hs.listeners c hc).isPrefix_chat.subset hshown
  exact hs.exists_posted_of_object hpublished hc hobject

theorem PostedInv.nodup_documents (hs : s.PostedInv) (hpublished : s.published.Inv)
    (hc : c ∈ s.chats) : (c.listener.documents.map DocumentSnapshot.documentID).Nodup := by
  apply List.Nodup.map_on _ (hpublished.delivered _ (mem_subscribers hc)).left
  intro document hdocument other hother hid
  exact hs.eq_of_query (hs.query_of_told hpublished hc hdocument)
    (hs.query_of_told hpublished hc hother) hid

end Shown

/-- A chat never shows a message that was not posted under its message id, and none twice. -/
theorem shows_posted_at_most_once (pngData : Image → Option Data) (es : List (Event Image))
    {s : Clients Data} (hrun : (clients pngData).exec init es = some s) {c : OpenChat}
    (hc : c ∈ s.chats)
    : (c.listener.chat.map (fun shown => shown.document.documentID)).Nodup
        ∧ ∀ shown ∈ c.listener.chat, ∃ posted ∈ s.posted, posted.message.msgId = c.messageId
            ∧ posted.document = shown.document ∧ shown.message = posted.message := by
  rcases inv_of_run hrun with ⟨hs, hpublished⟩
  constructor
  . have hnodup := hs.nodup_documents hpublished hc
    rw [← (hs.listeners c hc).documents, List.map_map] at hnodup
    exact ((hs.listeners c hc).isPrefix_chat.sublist.map _).nodup hnodup
  . intro shown hshown
    exact hs.exists_posted_of_shown hpublished hc hshown

theorem shows_posted_at_most_once_teamRun
    : ∃ s c, (clients (fun image => some image)).exec init teamRun = some s ∧ c ∈ s.chats
        ∧ c.listener.chat.map ChatMessage.message = [hello, hi]
        ∧ (c.listener.chat.map (fun shown => shown.document.documentID)).Nodup
        ∧ ∀ shown ∈ c.listener.chat, ∃ posted ∈ s.posted, posted.message.msgId = c.messageId
            ∧ posted.document = shown.document ∧ shown.message = posted.message := by
  refine ⟨_, _, rfl, List.mem_cons_of_mem _ List.mem_cons_self, rfl, ?_⟩
  exact shows_posted_at_most_once (fun image => some image) teamRun rfl
    (List.mem_cons_of_mem _ List.mem_cons_self)

-- The replies for the senders of the chat all come, none after one for a longer list.
def RepliesInOrder (chat : Nat) (s : Clients Data) : Event Image → Prop
  | .listener chat' e => chat' = chat → ∀ c ∈ s.chats[chat]?,
      c.listener.NotOvertaken e ∧ ChatListener.Succeeds e
  | _ => True

instance decidableRepliesInOrder (chat : Nat) (s : Clients Data)
    : (e : Event Image) → Decidable (s.RepliesInOrder chat e)
  | .listener chat' e => inferInstanceAs (Decidable (chat' = chat → ∀ c ∈ s.chats[chat]?,
      c.listener.NotOvertaken e ∧ ChatListener.Succeeds e))
  | .createAccount _ | .signup _ _ _ _ _ _ _ | .load _ _ _ | .createGroup _ _ _ _ _ _ _
  | .openChat _ _ | .currentUserFetched _ _ | .send _ _ _ _ _ _ _ _ | .uploadCompleted _ _ _ _ _
  | .uploadFailed _ | .perform _ _ => inferInstanceAs (Decidable True)

-- Nothing is on its way to the chat any more.
structure AtRest (s : Clients Data) (c : OpenChat) : Prop where
  store : s.server.outgoingMessages = []
  snapshots : s.published.UpToDate (c.messageId, c.listener.documents)
  replies : c.listener.requests = []

theorem generations_step (chat : Nat) (s : Clients Data) (e : Event Image) (s' : Clients Data)
    (hs : ∀ c ∈ s.chats[chat]?, c.listener.Generations)
    (hstep : (clients pngData).step s e = some s') (hinOrder : s.RepliesInOrder chat e)
    : ∀ c ∈ s'.chats[chat]?, c.listener.Generations := by
  intro c' hc'
  rcases chat_step hstep hc' with hstarts | ⟨c, hc, hsame | hfetched | hlistener⟩
  . rcases hstarts with ⟨uid, user, source, otherUser, _, _, _, _, heq⟩
    rw [heq]
    exact ChatListener.generations_init
  . rw [hsame]
    exact hs c hc
  . rcases hfetched with ⟨currentUser, _, heq⟩
    rw [heq]
    exact hs c hc
  . rcases hlistener with ⟨e', listener, he, _, hlistener, heq⟩
    rw [he] at hinOrder
    rcases hinOrder rfl c hc with ⟨hovertaken, hsucceeds⟩
    rw [heq]
    exact (ChatListener.neverFallsBack_step (hs c hc) hlistener hsucceeds hovertaken).left

theorem generations_of_run {s : Clients Data} {es : List (Event Image)}
    (hrun : (clients pngData).exec init es = some s) {chat : Nat}
    (hinOrder : (clients pngData).Meets (fun s e _ => s.RepliesInOrder chat e) init es)
    {c : OpenChat} (hc : s.chats[chat]? = some c) : c.listener.Generations := by
  have hinit : ∀ c ∈ (init : Clients Data).chats[chat]?, c.listener.Generations := by
    intro c hc
    contradiction
  exact Machine.exec_preserves_of_meets (generations_step chat) hinit hrun hinOrder c hc

-- The newest list may be shown while older ones are still waiting for a sender.
theorem PostedInv.perm_posted_of_newest {s : Clients Data} (hs : s.PostedInv)
    (hpublished : s.published.Inv) {c : OpenChat} (hc : c ∈ s.chats)
    (hstore : s.server.outgoingMessages = [])
    (hsnapshots : s.published.UpToDate (c.messageId, c.listener.documents))
    (hnewest : c.listener.published = c.listener.messages)
    : (c.listener.chat.map ChatMessage.message).Perm
        ((s.posted.map Posted.message).filter (fun message => message.msgId = c.messageId)) := by
  have hmirrors := hs.listeners c hc
  -- the documents of the snapshots are those of the calls of `addMessage`
  have hposted : (c.listener.objects.map ChatMessage.document).Perm
      ((s.posted.map Posted.document).filter (fun document => document.msgId = c.messageId)) := by
    have hstored := hs.posted
    rw [Backend.allMessages, hstore, List.append_nil] at hstored
    have hdelivered := hpublished.perm_topic (mem_subscribers hc) hsnapshots
    rw [hmirrors.documents]
    refine hdelivered.trans (List.Perm.trans ?_ (hstored.filter _))
    apply List.Perm.of_eq
    simp [PubSub.topic, published, List.filter_map, Function.comp_def]
  -- and the objects are made from them
  have hdecoded := hposted.filterMap (fun document => Message.init 0 document.data)
  have hobjects : (c.listener.objects.map ChatMessage.document).filterMap
      (fun document => Message.init 0 document.data)
        = c.listener.objects.map ChatMessage.message := by
    rw [List.filterMap_map, ← List.filterMap_eq_map]
    apply List.filterMap_congr
    intro object hobject
    rcases hs.exists_posted_of_object hpublished hc hobject with ⟨posted, _, _, heq, hmessage⟩
    rw [Function.comp_apply, Function.comp_apply, ← heq, hmessage]
    exact Message.init_dictionary 0 posted.message
  rw [hobjects] at hdecoded
  rw [hmirrors.chat_eq hnewest]
  refine hdecoded.trans (List.Perm.of_eq ?_)
  rw [List.filter_map, List.filterMap_map, List.filter_map, ← List.filterMap_eq_map]
  have hround : ∀ posted : Posted, Message.init 0 posted.document.data = some posted.message := by
    intro posted
    exact Message.init_dictionary 0 posted.message
  simp only [Function.comp_def, hround]
  rfl

theorem PostedInv.perm_posted {s : Clients Data} (hs : s.PostedInv) (hpublished : s.published.Inv)
    {c : OpenChat} (hc : c ∈ s.chats) (hgenerations : c.listener.Generations) (hrest : s.AtRest c)
    : (c.listener.chat.map ChatMessage.message).Perm
        ((s.posted.map Posted.message).filter (fun message => message.msgId = c.messageId)) := by
  exact hs.perm_posted_of_newest hpublished hc hrest.store hrest.snapshots
    (hgenerations.published_eq hrest.replies)

/-- Every message reaches every open chat of its message id, exactly once. -/
theorem shows_all_posted_at_rest (pngData : Image → Option Data) (es : List (Event Image))
    {s : Clients Data} (hrun : (clients pngData).exec init es = some s) {chat : Nat}
    (hinOrder : (clients pngData).Meets (fun s e _ => s.RepliesInOrder chat e) init es)
    {c : OpenChat} (hc : s.chats[chat]? = some c) (hrest : s.AtRest c)
    : (c.listener.chat.map ChatMessage.message).Perm
        ((s.posted.map Posted.message).filter (fun message => message.msgId = c.messageId)) := by
  rcases inv_of_run hrun with ⟨hs, hpublished⟩
  have hgenerations := generations_of_run hrun hinOrder hc
  exact hs.perm_posted hpublished (List.mem_of_getElem? hc) hgenerations hrest

theorem repliesInOrder_teamRun
    : ∀ chat < 2, (clients (fun image => some image)).Meets (fun s e _ => s.RepliesInOrder chat e)
        init teamRun := by
  decide +kernel

theorem shows_all_posted_at_rest_teamRun
    : ∃ s c, (clients (fun image => some image)).exec init teamRun = some s ∧ s.chats[1]? = some c
        ∧ c.listener.chat.map ChatMessage.message = [hello, hi]
        ∧ (c.listener.chat.map ChatMessage.message).Perm
            ((s.posted.map Posted.message).filter (fun message => message.msgId = c.messageId)) := by
  have hinOrder := repliesInOrder_teamRun 1 (by decide)
  refine ⟨_, _, rfl, rfl, rfl, ?_⟩
  exact shows_all_posted_at_rest (fun image => some image) teamRun rfl hinOrder rfl
    ⟨rfl, by decide, rfl⟩

end Clients

end ChatApplication
