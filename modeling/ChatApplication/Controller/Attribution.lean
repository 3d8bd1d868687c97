import ChatApplication.Controller.ChatListener
import ChatApplication.Controller.ConversationViewController

/-!
This module contains to which objects the replies of `fetchUser` and `fetchRecentMessage` are
attributed, for any order of the replies and any of them missing.
-/

namespace ChatApplication

namespace ChatListener

variable {messageId : String}

def addedDocuments (changes : List DocumentChange) : List DocumentSnapshot :=
  (changes.filter (fun change => change.type = .added)).map DocumentChange.document

-- A document is reported as added at most once, and `users/{k}` has the uid `k`.
def Reported (s : ChatListener) : Event → Prop
  | .snapshot changes _ =>
    ((s.objects.map ChatMessage.document ++ addedDocuments changes).map
      DocumentSnapshot.documentID).Nodup
  | .userFetched i data _ => ∀ request ∈ s.requests[i]?, data.string? "uid" = some request.uid
  | .fetchFailed _ => True

instance (s : ChatListener) : (e : Event) → Decidable (s.Reported e)
  | .snapshot changes _ => inferInstanceAs (Decidable
    ((s.objects.map ChatMessage.document ++ addedDocuments changes).map
      DocumentSnapshot.documentID).Nodup)
  | .userFetched i data _ => inferInstanceAs (Decidable
    (∀ request ∈ s.requests[i]?, data.string? "uid" = some request.uid))
  | .fetchFailed _ => inferInstanceAs (Decidable True)

-- The message belongs to the chat and its sender, if there is one yet, is who wrote it.
def WellAttributed (messageId : String) (object : ChatMessage) : Prop :=
  object.message.msgId = messageId ∧ ∀ user ∈ object.sender, user.uid = object.message.fromId

structure Attributed (messageId : String) (s : ChatListener) : Prop where
  objects : ∀ object ∈ s.objects, WellAttributed messageId object
  documents : ((s.objects.map ChatMessage.document).map DocumentSnapshot.documentID).Nodup
  messages : s.messages = List.range s.objects.length
  -- the captured object is the one for whose writer was asked
  requests : ∀ request ∈ s.requests, request.messages.Nodup
    ∧ ∃ object, s.objects[request.message]? = some object ∧ object.message.fromId = request.uid
  published : s.published.Nodup

theorem attributed_init (messageId : String) : Attributed messageId init := by
  constructor
  . intro object hobject
    contradiction
  . exact List.nodup_nil
  . rfl
  . intro request hrequest
    contradiction
  . exact List.nodup_nil

theorem Attributed.snapshot {s s' : ChatListener} (hs : s.Attributed messageId)
    {changes : List DocumentChange} {now : Date}
    (hstep : (chatListener messageId).step s (.snapshot changes now) = some s')
    (hreported : s.Reported (.snapshot changes now)) : s'.Attributed messageId := by
  rcases step_snapshot hstep with ⟨hquery, added, hadded, hs'⟩
  have hmessages : s.messages ++ List.range' s.objects.length added.length
      = List.range (s.objects ++ added).length := by
    rw [hs.messages, List.length_append, List.range_append_range']
  rw [hs']
  constructor
  . intro object hobject
    rw [List.mem_append] at hobject
    cases hobject with
    | inl hold => exact hs.objects object hold
    | inr hnew =>
      rcases mem_addedMessages hadded hnew with ⟨hsender, hinit, change, hchange, _, hdocument⟩
      constructor
      . have hmsgId := Message.string?_msgId_of_init hinit
        rw [Dictionary.string?, ← hdocument, hquery change hchange] at hmsgId
        injection hmsgId with hmsgId
        exact hmsgId.symm
      . rw [hsender]
        intro user huser
        contradiction
  . dsimp
    rw [List.map_append, map_document_addedMessages hadded]
    exact hreported
  . exact hmessages
  . intro request hrequest
    rw [List.mem_append] at hrequest
    cases hrequest with
    | inl hold =>
      rcases hs.requests request hold with ⟨hnodup, object, hobject, huid⟩
      refine ⟨hnodup, object, ?_, huid⟩
      rw [List.getElem?_eq_some_iff] at hobject
      rcases hobject with ⟨hlt, hobject⟩
      dsimp
      rw [List.getElem?_append_left hlt, List.getElem?_eq_getElem hlt, hobject]
    | inr hnew =>
      rw [mem_fetchUsers] at hnew
      rcases hnew with ⟨hcaptured, _, hobject⟩
      refine ⟨?_, hobject⟩
      rw [hcaptured, hmessages]
      exact List.nodup_range
  . exact hs.published

theorem Attributed.userFetched {s s' : ChatListener} (hs : s.Attributed messageId) {i : Nat}
    {data : Dictionary} {now : Date}
    (hstep : (chatListener messageId).step s (.userFetched i data now) = some s')
    (hreported : s.Reported (.userFetched i data now)) : s'.Attributed messageId := by
  rcases step_userFetched hstep with ⟨request, user, hrequest, huser, hs'⟩
  have huid : user.uid = request.uid := by
    have hdata := hreported request hrequest
    rw [User.string?_uid_of_init huser] at hdata
    injection hdata
  have hmem := List.mem_of_getElem? hrequest
  rcases hs.requests request hmem with ⟨hnodup, captured, hcaptured, hfromId⟩
  rw [hs']
  constructor
  . intro object hobject
    dsimp at hobject
    rw [List.mem_iff_getElem?] at hobject
    rcases hobject with ⟨j, hj⟩
    rw [getElem?_setSender, Option.map_eq_some_iff] at hj
    rcases hj with ⟨old, hold, hj⟩
    have hattributed := hs.objects old (List.mem_of_getElem? hold)
    by_cases hij : request.message = j
    . -- the reply is for this object
      rw [← hij, hcaptured] at hold
      injection hold with hold
      rw [if_pos hij] at hj
      rw [← hj]
      refine ⟨hattributed.left, ?_⟩
      intro user' huser'
      injection huser' with huser'
      dsimp
      rw [← huser', huid, ← hfromId, hold]
    . rw [if_neg hij] at hj
      rw [← hj]
      exact hattributed
  . dsimp
    rw [map_document_setSender]
    exact hs.documents
  . dsimp
    rw [length_setSender]
    exact hs.messages
  . intro request' hrequest'
    have hmem' := List.mem_of_mem_eraseIdx hrequest'
    rcases hs.requests request' hmem' with ⟨hnodup', object, hobject, hfromId'⟩
    refine ⟨hnodup', ?_⟩
    dsimp
    rw [getElem?_setSender, hobject, Option.map_some]
    refine ⟨_, rfl, ?_⟩
    split
    . exact hfromId'
    . exact hfromId'
  . exact hnodup

theorem Attributed.fetchFailed {s s' : ChatListener} (hs : s.Attributed messageId) {i : Nat}
    (hstep : (chatListener messageId).step s (.fetchFailed i) = some s')
    : s'.Attributed messageId := by
  rw [step_fetchFailed hstep]
  constructor
  . exact hs.objects
  . exact hs.documents
  . exact hs.messages
  . intro request hrequest
    exact hs.requests request (List.mem_of_mem_eraseIdx hrequest)
  . exact hs.published

theorem Attributed.step {s s' : ChatListener} {e : Event} (hs : s.Attributed messageId)
    (hstep : (chatListener messageId).step s e = some s') (hreported : s.Reported e)
    : s'.Attributed messageId := by
  cases e with
  | snapshot changes now => exact hs.snapshot hstep hreported
  | userFetched i data now => exact hs.userFetched hstep hreported
  | fetchFailed i => exact hs.fetchFailed hstep

theorem attributed_exec {es : List Event} {s : ChatListener}
    (hrun : (chatListener messageId).exec init es = some s)
    (hreported : (chatListener messageId).Meets (fun s e _ => s.Reported e) init es)
    : s.Attributed messageId := by
  apply Machine.exec_preserves_of_meets _ (attributed_init messageId) hrun hreported
  intro s e s' hs hstep hreported
  exact hs.step hstep hreported

-- The list shows different objects, and these are made of different documents.
theorem Attributed.nodup_chat {s : ChatListener} (hs : s.Attributed messageId)
    : (s.chat.map (fun object => object.document.documentID)).Nodup := by
  unfold chat
  rw [List.map_filterMap]
  apply List.Nodup.filterMap _ hs.published
  intro i j documentID hi hj
  rw [Option.mem_def, Option.map_eq_some_iff] at hi hj
  rcases hi with ⟨object, hobject, hi⟩
  rcases hj with ⟨object', hobject', hj⟩
  rw [← hj] at hi
  have hlt := (List.getElem?_eq_some_iff.mp hobject).choose
  have hdocuments := hs.documents
  rw [List.map_map] at hdocuments
  rw [← List.getElem?_inj (by rw [List.length_map]; exact hlt) hdocuments, List.getElem?_map,
    List.getElem?_map, hobject, hobject']
  simp [hi]

end ChatListener

namespace ConversationViewController

-- The message was asked for with the message id of this very user.
def Answers (requestedBy : Option DocumentID) (user : RecentUser) : Prop :=
  ∀ message ∈ user.recentMessage,
    message.msgId = DatabaseManager.computeMessageId requestedBy user.user

def Attributed (s : ConversationViewController) : Prop :=
  ∀ uid, ∀ generation ∈ s.generations uid, ∀ user ∈ generation.users,
    Answers generation.requestedBy user

theorem attributed_launch (auth : Option DocumentID) : (launch auth).Attributed := by
  intro uid generation hgeneration
  contradiction

theorem Attributed.of_generations_eq {s s' : ConversationViewController} (hs : s.Attributed)
    (h : s'.generations = s.generations) : s'.Attributed := by
  unfold Attributed
  rw [h]
  exact hs

theorem Attributed.addGeneration {s : ConversationViewController} (hs : s.Attributed)
    (uid : DocumentID) (users : List User)
    : (s.addGeneration uid (Generation.ofUsers s.auth users)).Attributed := by
  intro uid' generation hgeneration user huser
  dsimp [ConversationViewController.addGeneration] at hgeneration
  by_cases huid : uid' = uid
  . rw [huid, Function.update_self, List.mem_append, List.mem_singleton] at hgeneration
    cases hgeneration with
    | inl hold => exact hs uid generation hold user huser
    | inr hnew =>
      rw [hnew] at huser
      dsimp [Generation.ofUsers] at huser
      rw [List.mem_map] at huser
      rcases huser with ⟨user', _, huser⟩
      rw [← huser]
      intro message hmessage
      contradiction
  . rw [Function.update_of_ne huid] at hgeneration
    exact hs uid' generation hgeneration user huser

theorem Attributed.setGeneration {s : ConversationViewController} (hs : s.Attributed)
    (uid : DocumentID) (k : Nat) {generation : Generation}
    (h : ∀ user ∈ generation.users, Answers generation.requestedBy user)
    : (s.setGeneration uid k generation).Attributed := by
  intro uid' generation' hgeneration'
  dsimp [ConversationViewController.setGeneration] at hgeneration'
  by_cases huid : uid' = uid
  . rw [huid, Function.update_self] at hgeneration'
    cases List.mem_or_eq_of_mem_set hgeneration' with
    | inl hold => exact hs uid generation' hold
    | inr hnew =>
      rw [hnew]
      exact h
  . rw [Function.update_of_ne huid] at hgeneration'
    exact hs uid' generation' hgeneration'

theorem Attributed.reply {s s' : ConversationViewController} (hs : s.Attributed) {uid : DocumentID}
    {k j : Nat} {documents : List DocumentSnapshot} {now : Date}
    (hstep : conversations.step s (.reply uid k j documents now) = some s') : s'.Attributed := by
  rcases step_reply hstep with
    ⟨generation, user, answer, hgeneration, huser, _, hanswer, hs'⟩
  have hold := hs uid generation (List.mem_of_getElem? hgeneration)
  rw [hs']
  apply Attributed.of_generations_eq _ rfl
  apply hs.setGeneration
  intro user' huser'
  dsimp [Generation.reply] at huser'
  rw [List.mem_iff_getElem?] at huser'
  rcases huser' with ⟨j', hj'⟩
  rw [List.getElem?_modify, Option.map_eq_map, Option.map_eq_some_iff] at hj'
  rcases hj' with ⟨user'', huser'', hj'⟩
  by_cases hjj' : j = j'
  . -- the object that the completion captured is the one that `computeMessageId` was called with
    rw [← hjj', huser] at huser''
    injection huser'' with huser''
    rw [if_pos hjj', ← huser''] at hj'
    rw [← hj']
    intro message hmessage
    dsimp at hmessage
    rw [hmessage] at hanswer
    exact DatabaseManager.msgId_of_fetchRecentMessage hanswer
  . rw [if_neg hjj'] at hj'
    rw [← hj']
    exact hold user'' (List.mem_of_getElem? huser'')

theorem Attributed.step {s s' : ConversationViewController} {e : Event} (hs : s.Attributed)
    (hstep : conversations.step s e = some s') : s'.Attributed := by
  cases e with
  | viewDidAppear =>
    rw [(step_viewDidAppear hstep).right, getRecentConversations_eq]
    exact hs.of_generations_eq rfl
  | viewDidDisappear =>
    rw [(step_viewDidDisappear hstep).right, removeListener_eq]
    exact hs.of_generations_eq rfl
  | logout throws =>
    rw [(step_logout hstep).right]
    exact hs.of_generations_eq rfl
  | presentLoginScreen =>
    rw [(step_presentLoginScreen hstep).right, removeListener_eq]
    exact hs.of_generations_eq rfl
  | login uid =>
    rw [(step_login hstep).right]
    exact hs.of_generations_eq rfl
  | snapshot listener uid documents now =>
    rcases step_snapshot hstep with ⟨_, users, _, hs'⟩
    rw [hs']
    exact hs.addGeneration uid users
  | reply uid k j documents now => exact hs.reply hstep
  | fail uid k j =>
    rcases step_fail hstep with ⟨generation, hgeneration, _, hs'⟩
    rw [hs']
    apply hs.setGeneration
    exact hs uid generation (List.mem_of_getElem? hgeneration)

theorem attributed_exec {auth : Option DocumentID} {es : List Event} {s : ConversationViewController}
    (hrun : conversations.exec (launch auth) es = some s) : s.Attributed := by
  apply Machine.exec_preserves _ (attributed_launch auth) hrun
  intro s e s' hs hstep
  exact hs.step hstep

end ConversationViewController

theorem replies_attributed (messageId : String) (es : List ChatListener.Event) (s : ChatListener)
    (hrun : (chatListener messageId).exec ChatListener.init es = some s)
    (hreported : (chatListener messageId).Meets (fun s e _ => s.Reported e) ChatListener.init es)
    (auth : Option DocumentID) (fs : List ConversationViewController.Event)
    (t : ConversationViewController)
    (hrun' : conversations.exec (ConversationViewController.launch auth) fs = some t)
    : (∀ object ∈ s.chat, object.message.msgId = messageId
            ∧ ∀ user ∈ object.sender, user.uid = object.message.fromId)
        ∧ (s.chat.map (fun object => object.document.documentID)).Nodup
        ∧ ∀ uid, ∀ generation ∈ t.generations uid, ∀ user ∈ generation.users,
          ∀ message ∈ user.recentMessage,
            message.msgId = DatabaseManager.computeMessageId generation.requestedBy user.user := by
  have hs := ChatListener.attributed_exec hrun hreported
  refine ⟨?_, hs.nodup_chat, ConversationViewController.attributed_exec hrun'⟩
  intro object hobject
  rw [ChatListener.mem_chat] at hobject
  rcases hobject with ⟨message, _, hobject⟩
  exact hs.objects object (List.mem_of_getElem? hobject)

-- Two snapshots of a chat, whose replies are mixed up, and one of the conversation screen.
theorem replies_attributed_mixedUp
    : ∃ (s : ChatListener) (t : ConversationViewController),
        s.chat.map (fun object => object.sender.map User.uid) = [some "a", some "a"]
        ∧ t.shown.map (fun user => user.recentMessage.map Message.msgId) = [some "ba"]
        ∧ (∀ object ∈ s.chat, object.message.msgId = "ba"
            ∧ ∀ user ∈ object.sender, user.uid = object.message.fromId)
        ∧ (s.chat.map (fun object => object.document.documentID)).Nodup
        ∧ ∀ uid, ∀ generation ∈ t.generations uid, ∀ user ∈ generation.users,
          ∀ message ∈ user.recentMessage,
            message.msgId = DatabaseManager.computeMessageId generation.requestedBy user.user := by
  refine ⟨_, _, ?_, ?_, replies_attributed "ba" [
      .snapshot [⟨.added, ChatListener.chatMessage "m1" 1, 0⟩] 1,
      .snapshot [
        ⟨.modified, ChatListener.chatMessage "m1" 1, 0⟩,
        ⟨.added, ChatListener.chatMessage "m2" 2, 1⟩
      ] 2,
      .userFetched 2 ChatListener.chatUser 3,
      .fetchFailed 1,
      .userFetched 0 ChatListener.chatUser 3,
      .snapshot [] 4,
      .userFetched 1 ChatListener.chatUser 5
    ] _ rfl (by decide) (some "a") [
      .viewDidAppear,
      .snapshot 0 "a" [⟨"b", User.dictionary ⟨"b", "Bob", "B", "bob@mail.org", "pb", 1, false⟩⟩] 1,
      .reply "a" 0 0 [ChatListener.chatMessage "m1" 1, ChatListener.chatMessage "m2" 2] 3
    ] _ rfl⟩
  . rfl
  . rfl

end ChatApplication
