import ChatApplication.API.MessageID
import ChatApplication.Data.Positions
import ChatApplication.Machine.Basic

/-!
This module contains the list of an open chat: the listener of `fetchMessages`, the calls of
`fetchUser` that `getConversations` starts for every snapshot, and `ChatController.messages`.
-/

namespace ChatApplication

inductive ChangeType where
  | added
  | modified
  | removed
  deriving DecidableEq, Repr

structure DocumentChange where
  type : ChangeType
  document : DocumentSnapshot
  -- the position of the document in the result of the query
  newIndex : Nat
  deriving DecidableEq, Repr

-- a `Message` object of the client and the document that it was made from
structure ChatMessage where
  document : DocumentSnapshot
  message : Message
  sender : Option User
  deriving DecidableEq, Repr

-- An outstanding `fetchUser` of `getConversations` with the variables that its completion captures.
-- Objects are referred to by their position in `ChatListener.objects`.
structure FetchUser where
  uid : DocumentID
  message : Nat
  messages : List Nat
  deriving DecidableEq, Repr

structure ChatListener where
  -- the `Message` objects
  objects : List ChatMessage
  -- the variable `messages` of `fetchMessages`
  messages : List Nat
  requests : List FetchUser
  -- `ChatController.messages`
  published : List Nat
  -- the documents of the last snapshot
  documents : List DocumentSnapshot
  deriving Repr

namespace ChatListener

inductive Event where
  | snapshot (changes : List DocumentChange) (now : Date)
  -- the `i`-th outstanding `fetchUser` is answered with a document
  | userFetched (i : Nat) (data : Dictionary) (now : Date)
  -- it fails, or there is no such document: its completion is not called
  | fetchFailed (i : Nat)
  deriving Repr

def init : ChatListener :=
  {
    objects := []
    messages := []
    requests := []
    published := []
    documents := []
  }

-- The loop over `documentChanges`, `newIndex` is not looked at. `none` is where `Message.init` traps.
def addedMessages (now : Date) : List DocumentChange → Option (List ChatMessage)
  | [] => some []
  | change :: changes =>
    match change.type with
    | .added =>
      match Message.init now change.document.data, addedMessages now changes with
      | some message, some messages => some (⟨change.document, message, none⟩ :: messages)
      | _, _ => none
    | .modified | .removed => addedMessages now changes

-- The loop of `getConversations`: every request captures the whole list.
def fetchUsers (objects : List ChatMessage) (messages : List Nat) : List FetchUser :=
  messages.filterMap (fun message =>
    (objects[message]?).map (fun object => ⟨object.message.fromId, message, messages⟩))

-- the result of the query after a snapshot, up to its order
def documentsAfter (documents : List DocumentSnapshot) : List DocumentChange → List DocumentSnapshot
  | [] => documents
  | change :: changes =>
    match change.type with
    | .added => documentsAfter (documents ++ [change.document]) changes
    | .modified =>
      documentsAfter
        (documents.map (fun document =>
          if document.documentID = change.document.documentID then change.document else document))
        changes
    | .removed =>
      documentsAfter
        (documents.filter (fun document => document.documentID ≠ change.document.documentID))
        changes

def setSender (objects : List ChatMessage) (message : Nat) (user : User) : List ChatMessage :=
  objects.modify message (fun object => { object with sender := some user })

def step (messageId : String) (s : ChatListener) : Event → Option ChatListener
  | .snapshot changes now =>
    -- the query selects by the message id
    if ∀ change ∈ changes, change.document.data.lookup "msgId" = some (.string messageId) then
      match addedMessages now changes with
      | some added =>
        let objects := s.objects ++ added
        let messages := s.messages ++ List.range' s.objects.length added.length
        some {
          s with
          objects := objects
          messages := messages
          requests := s.requests ++ fetchUsers objects messages
          documents := documentsAfter s.documents changes
        }
      | none => none
    else
      none
  | .userFetched i data now =>
    match s.requests[i]?, User.init now data with
    | some request, some user =>
      some {
        s with
        objects := setSender s.objects request.message user
        requests := s.requests.eraseIdx i
        published := request.messages
      }
    | _, _ => none
  | .fetchFailed i =>
    if i < s.requests.length then
      some { s with requests := s.requests.eraseIdx i }
    else
      none

-- the objects in `ChatController.messages`
def chat (s : ChatListener) : List ChatMessage :=
  s.published.filterMap (fun message => s.objects[message]?)

end ChatListener

def chatListener (messageId : String) : Machine ChatListener ChatListener.Event :=
  ⟨ChatListener.step messageId⟩

namespace ChatListener

variable {messageId : String}

theorem step_snapshot {s s' : ChatListener} {changes : List DocumentChange} {now : Date}
    (h : (chatListener messageId).step s (.snapshot changes now) = some s')
    : (∀ change ∈ changes, change.document.data.lookup "msgId" = some (.string messageId))
        ∧ ∃ added, addedMessages now changes = some added
          ∧ s' = {
              s with
              objects := s.objects ++ added
              messages := s.messages ++ List.range' s.objects.length added.length
              requests := s.requests ++ fetchUsers (s.objects ++ added)
                (s.messages ++ List.range' s.objects.length added.length)
              documents := documentsAfter s.documents changes
            } := by
  simp only [chatListener, step] at h
  split at h
  . next hquery =>
    split at h
    . next added hadded =>
      injection h with h
      exact ⟨hquery, added, hadded, h.symm⟩
    . contradiction
  . contradiction

theorem step_userFetched {s s' : ChatListener} {i : Nat} {data : Dictionary} {now : Date}
    (h : (chatListener messageId).step s (.userFetched i data now) = some s')
    : ∃ request user, s.requests[i]? = some request ∧ User.init now data = some user
        ∧ s' = {
            s with
            objects := setSender s.objects request.message user
            requests := s.requests.eraseIdx i
            published := request.messages
          } := by
  simp only [chatListener, step] at h
  split at h
  . next request user hrequest huser =>
    injection h with h
    exact ⟨request, user, hrequest, huser, h.symm⟩
  . contradiction

theorem step_fetchFailed {s s' : ChatListener} {i : Nat}
    (h : (chatListener messageId).step s (.fetchFailed i) = some s')
    : s' = { s with requests := s.requests.eraseIdx i } := by
  simp only [chatListener, step] at h
  split at h
  . injection h with h
    exact h.symm
  . contradiction

theorem mem_addedMessages {now : Date} {changes : List DocumentChange} {added : List ChatMessage}
    (h : addedMessages now changes = some added) {object : ChatMessage} (hobject : object ∈ added)
    : object.sender = none ∧ Message.init now object.document.data = some object.message
        ∧ ∃ change ∈ changes, change.type = .added ∧ change.document = object.document := by
  induction changes generalizing added with
  | nil =>
    injection h with h
    rw [← h] at hobject
    contradiction
  | cons change changes ih =>
    unfold addedMessages at h
    split at h
    . next htype =>
      split at h
      . next message messages hmessage hmessages =>
        injection h with h
        rw [← h, List.mem_cons] at hobject
        cases hobject with
        | inl hfirst =>
          rw [hfirst]
          exact ⟨rfl, hmessage, change, List.mem_cons_self, htype, rfl⟩
        | inr hrest =>
          rcases ih hmessages hrest with ⟨hsender, hinit, change', hmem, hchange'⟩
          exact ⟨hsender, hinit, change', List.mem_cons_of_mem _ hmem, hchange'⟩
      . contradiction
    all_goals
      rcases ih h hobject with ⟨hsender, hinit, change', hmem, hchange'⟩
      exact ⟨hsender, hinit, change', List.mem_cons_of_mem _ hmem, hchange'⟩

theorem map_document_addedMessages {now : Date} {changes : List DocumentChange}
    {added : List ChatMessage} (h : addedMessages now changes = some added)
    : added.map ChatMessage.document
        =
      (changes.filter (fun change => change.type = .added)).map DocumentChange.document := by
  induction changes generalizing added with
  | nil =>
    injection h with h
    rw [← h]
    rfl
  | cons change changes ih =>
    unfold addedMessages at h
    split at h
    . next htype =>
      split at h
      . next message messages hmessage hmessages =>
        injection h with h
        rw [← h, List.filter_cons_of_pos (by simpa using htype), List.map_cons, List.map_cons,
          ih hmessages]
      . contradiction
    all_goals
      next htype =>
        rw [List.filter_cons_of_neg (by simp [htype])]
        exact ih h

theorem mem_fetchUsers {objects : List ChatMessage} {messages : List Nat} {request : FetchUser}
    : request ∈ fetchUsers objects messages
        ↔
      request.messages = messages ∧ request.message ∈ messages
        ∧ ∃ object, objects[request.message]? = some object
          ∧ object.message.fromId = request.uid := by
  unfold fetchUsers
  rw [List.mem_filterMap]
  constructor
  . rintro ⟨message, hmessage, hrequest⟩
    rw [Option.map_eq_some_iff] at hrequest
    rcases hrequest with ⟨object, hobject, hrequest⟩
    rw [← hrequest]
    exact ⟨rfl, hmessage, object, hobject, rfl⟩
  . rintro ⟨hmessages, hmessage, object, hobject, huid⟩
    refine ⟨request.message, hmessage, ?_⟩
    rw [hobject, Option.map_some, huid, ← hmessages]

theorem getElem?_setSender (objects : List ChatMessage) (message : Nat) (user : User) (i : Nat)
    : (setSender objects message user)[i]?
        =
      (objects[i]?).map (fun object =>
        if message = i then { object with sender := some user } else object) := by
  unfold setSender
  rw [List.getElem?_modify]
  cases objects[i]? with
  | none => rfl
  | some object => rfl

@[simp]
theorem length_setSender (objects : List ChatMessage) (message : Nat) (user : User)
    : (setSender objects message user).length = objects.length := by
  apply List.length_modify

@[simp]
theorem map_document_setSender (objects : List ChatMessage) (message : Nat) (user : User)
    : (setSender objects message user).map ChatMessage.document
        =
      objects.map ChatMessage.document := by
  apply List.map_modify_of_eq
  intro object
  rfl

theorem mem_chat {s : ChatListener} {object : ChatMessage}
    : object ∈ s.chat ↔ ∃ message ∈ s.published, s.objects[message]? = some object := by
  unfold chat
  rw [List.mem_filterMap]

theorem mem_of_mem_documentsAfter {documents : List DocumentSnapshot}
    {changes : List DocumentChange} {document : DocumentSnapshot}
    (h : document ∈ documentsAfter documents changes)
    : (∃ document' ∈ documents, document'.documentID = document.documentID)
        ∨
      ∃ change ∈ changes, change.type = .added
        ∧ change.document.documentID = document.documentID := by
  induction changes generalizing documents with
  | nil => exact Or.inl ⟨document, h, rfl⟩
  | cons change changes ih =>
    unfold documentsAfter at h
    split at h
    . next htype =>
      rcases ih h with ⟨document', hdocument', hid⟩ | ⟨change', hchange', htype', hid⟩
      . rw [List.mem_append, List.mem_singleton] at hdocument'
        cases hdocument' with
        | inl hold => exact Or.inl ⟨document', hold, hid⟩
        | inr hnew =>
          rw [hnew] at hid
          exact Or.inr ⟨change, List.mem_cons_self, htype, hid⟩
      . exact Or.inr ⟨change', List.mem_cons_of_mem _ hchange', htype', hid⟩
    . rcases ih h with ⟨document', hdocument', hid⟩ | ⟨change', hchange', htype', hid⟩
      . left
        rw [List.mem_map] at hdocument'
        rcases hdocument' with ⟨old, hold, hmodified⟩
        refine ⟨old, hold, ?_⟩
        rw [← hid, ← hmodified]
        split
        . assumption
        . rfl
      . exact Or.inr ⟨change', List.mem_cons_of_mem _ hchange', htype', hid⟩
    . rcases ih h with ⟨document', hdocument', hid⟩ | ⟨change', hchange', htype', hid⟩
      . exact Or.inl ⟨document', List.mem_of_mem_filter hdocument', hid⟩
      . exact Or.inr ⟨change', List.mem_cons_of_mem _ hchange', htype', hid⟩

theorem documentsAfter_of_added (documents : List DocumentSnapshot) {changes : List DocumentChange}
    (h : ∀ change ∈ changes, change.type = .added)
    : documentsAfter documents changes = documents ++ changes.map DocumentChange.document := by
  induction changes generalizing documents with
  | nil => simp [documentsAfter]
  | cons change changes ih =>
    rw [List.forall_mem_cons] at h
    unfold documentsAfter
    simp only [h.left]
    rw [ih _ h.right, List.map_cons, List.append_assoc]
    rfl

def chatMessage (documentID : DocumentID) (timestamp : Timestamp) : DocumentSnapshot :=
  ⟨documentID, Message.dictionary ⟨"ba", "a", "b", "hello", timestamp, none, false⟩⟩

def chatUser : Dictionary :=
  User.dictionary ⟨"a", "Ann", "A", "ann@mail.org", "pa", 1, false⟩

end ChatListener

end ChatApplication
