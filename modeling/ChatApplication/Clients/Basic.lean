import ChatApplication.API.MessageLog
import ChatApplication.Controller.ChatController
import ChatApplication.Controller.ChatListener
import ChatApplication.Controller.CreateGroupController

/-!
This module contains the whole system: any number of clients with their open chats, their uploads
and the listeners of their chats, and the store that they share. Every request of `Backend` is the
request of a screen, so its arguments are what the screen has read before.

Who is signed in on which device is left out, an event says on whose behalf it happens.
-/

namespace ChatApplication

-- Where a client has a `User` object from, `uid` was signed in then.
inductive Source where
  -- the completion of `getAllUsers`
  | allUsers (uid : AuthUid)
  -- the listener of `getRecentConversations`
  | recentUsers (uid : AuthUid)
  -- the `fetchUser` of `fetchData`
  | currentUser (uid : AuthUid)
  -- `createGroup`
  | createdGroup (uid : AuthUid)
  deriving DecidableEq

namespace Source

def uid : Source → AuthUid
  | .allUsers uid | .recentUsers uid | .currentUser uid | .createdGroup uid => uid

-- where the document with the id is read
def path (db : Firestore) (documentID : DocumentID) : Source → Option Path
  | .allUsers uid =>
    if documentID ∈ (DatabaseManager.getAllUsers db uid.value).map DocumentSnapshot.documentID then
      some (DatabaseManager.userPath documentID)
    else
      none
  | .recentUsers uid => some (DatabaseManager.recentUserPath uid.value documentID)
  | .currentUser uid =>
    if documentID = uid.value then some (DatabaseManager.userPath uid.value) else none
  | .createdGroup _ => none

-- A chat is opened from the rows of `SelectUsersViewController` and `ConversationViewController` and
-- for a new group. The first and the last are screens of the user who is signed in, but the rows of
-- the conversation list stay when somebody else signs in.
def Opens (uid : AuthUid) : Source → Prop
  | .allUsers uid' | .createdGroup uid' => uid' = uid
  | .recentUsers _ => True
  | .currentUser _ => False

instance (uid : AuthUid) : (source : Source) → Decidable (source.Opens uid)
  | .allUsers uid' | .createdGroup uid' => inferInstanceAs (Decidable (uid' = uid))
  | .recentUsers _ => inferInstanceAs (Decidable True)
  | .currentUser _ => inferInstanceAs (Decidable False)

end Source

-- A `ChatController` on screen. Objects are referred to by their position in `Backend.objects`.
structure OpenChat where
  -- who is signed in
  uid : AuthUid
  user : Nat
  currentUser : Option Nat
  -- what `fetchData` has passed to `getConversations`
  messageId : String
  listener : ChatListener

-- what stays as long as the screen is there
def OpenChat.screen (c : OpenChat) : AuthUid × String :=
  (c.uid, c.messageId)

-- an upload of `HandleSendMessage` with the variables that its completion captures
structure ChatUpload (Data : Type u) where
  uid : AuthUid
  imageData : Data
  message : Message
  currentUser : Nat
  otherUser : Nat

-- a message for which `addMessage` was called, `uid` was signed in when Send was pressed
structure Posted where
  uid : AuthUid
  documentID : DocumentID
  message : Message

def Posted.document (posted : Posted) : DocumentSnapshot :=
  ⟨posted.documentID, posted.message.dictionary⟩

structure Clients (Data : Type u) where
  server : Backend
  accounts : List AuthUid
  groups : List GroupID
  -- where the objects of `server` come from
  sources : List Source
  chats : List OpenChat
  uploads : List (ChatUpload Data)
  posted : List Posted

namespace Clients

inductive Event (Image : Type u) where
  | createAccount (uid : AuthUid)
  | signup (uid : AuthUid) (firstName lastName email url : String) (date now : Date)
  | load (source : Source) (documentID : DocumentID) (now : Date)
  -- the completion of the upload in `createGroup`
  | createGroup (uuid : UUIDString) (uid : AuthUid) (groupName url : String)
      (selectedUsers : List Nat) (date now : Date)
  | openChat (uid : AuthUid) (user : Nat)
  -- the completion of `fetchUser` in `fetchData`
  | currentUserFetched (chat currentUser : Nat)
  -- Send is pressed, `date` and `now` are those of the message and the others those of `addMessage`
  | send (chat : Nat) (pickedImage : Option Image) (text : String) (date now date' date'' : Date)
      (documentID : DocumentID)
  | uploadCompleted (i : Nat) (url : String) (date date' : Date) (documentID : DocumentID)
  | uploadFailed (i : Nat)
  | perform (operation : Nat) (now : Date)
  | listener (chat : Nat) (e : ChatListener.Event)

variable {Image : Type u} {Data : Type v}

def init : Clients Data :=
  {
    server := .init
    accounts := []
    groups := []
    sources := []
    chats := []
    uploads := []
    posted := []
  }

def documents (s : Clients Data) : List DocumentSnapshot :=
  s.server.db.getDocuments .messages

-- A snapshot reports how the result of the query differs from the one before. It may be behind.
def Reports (result previous : List DocumentSnapshot) (change : DocumentChange) : Prop :=
  match change.type with
  | .added =>
    change.document ∈ result ∧ ∀ old ∈ previous, old.documentID ≠ change.document.documentID
  | .modified =>
    change.document ∈ result
      ∧ ∃ old ∈ previous, old.documentID = change.document.documentID ∧ old ≠ change.document
  | .removed =>
    change.document ∈ previous ∧ ∀ new ∈ result, new.documentID ≠ change.document.documentID

instance (result previous : List DocumentSnapshot) (change : DocumentChange)
    : Decidable (Reports result previous change) := by
  unfold Reports
  split
  all_goals infer_instance

def Delivers (s : Clients Data) (c : OpenChat) : ChatListener.Event → Prop
  | .snapshot changes _ =>
    (changes.map (fun change => change.document.documentID)).Nodup
      ∧ ∀ change ∈ changes,
          Reports (DatabaseManager.fetchMessages s.documents c.messageId) c.listener.documents change
  | .userFetched i data _ =>
    ∃ request ∈ c.listener.requests[i]?,
      s.server.db.getDocument (DatabaseManager.userPath request.uid) = some data
  | .fetchFailed _ => True

instance (s : Clients Data) (c : OpenChat) : (e : ChatListener.Event) → Decidable (s.Delivers c e)
  | .snapshot _ _ => inferInstanceAs (Decidable (_ ∧ _))
  | .userFetched _ _ _ => inferInstanceAs (Decidable (∃ request ∈ _, _))
  | .fetchFailed _ => inferInstanceAs (Decidable True)

-- the part of the controller that `HandleSendMessage` reads
def controller (s : Clients Data) (c : OpenChat) (pickedImage : Option Image) (text : String)
    : ChatController Image :=
  {
    user := s.server.objects[c.user]?
    currentUser := c.currentUser.bind (fun currentUser => s.server.objects[currentUser]?)
    pickedImage := pickedImage
    text := text
    selectPhotoButton := none
  }

def addMessage (s : Clients Data) (uid : AuthUid) (message : Message) (currentUser otherUser : Nat)
    (date date' : Date) (documentID : DocumentID) : Option (Clients Data) :=
  -- `addDocument` makes up a new id
  if ∀ posted ∈ s.posted, posted.documentID ≠ documentID then
    match s.server.step (.addMessage message currentUser otherUser date date' documentID) with
    | some server =>
      some { s with server := server, posted := s.posted ++ [⟨uid, documentID, message⟩] }
    | none => none
  else
    none

def request (s : Clients Data) (c : OpenChat) (currentUser : Nat) (date date' : Date)
    (documentID : DocumentID) : Request Data → Option (Clients Data)
  | .addMessage message _ _ => s.addMessage c.uid message currentUser c.user date date' documentID
  | .uploadImage upload =>
    some {
      s with
      uploads := s.uploads ++ [⟨c.uid, upload.imageData, upload.message, currentUser, c.user⟩]
    }

def step (pngData : Image → Option Data) (s : Clients Data) : Event Image → Option (Clients Data)
  | .createAccount uid =>
    if uid ∈ s.accounts then
      none
    else
      match s.server.step (.createAccount uid.value) with
      | some server => some { s with server := server, accounts := s.accounts ++ [uid] }
      | none => none
  | .signup uid firstName lastName email url date now =>
    match s.server.step (.signup uid.value firstName lastName email url date now) with
    | some server => some { s with server := server }
    | none => none
  | .load source documentID now =>
    if source.uid ∈ s.accounts then
      match (source.path s.server.db documentID).bind (fun path => s.server.step (.load path now)) with
      | some server => some { s with server := server, sources := s.sources ++ [source] }
      | none => none
    else
      none
  | .createGroup uuid uid groupName url selectedUsers date now =>
    if (∀ id ∈ s.groups, id.uuid ≠ uuid) ∧ groupName ≠ ""
      ∧ ∀ object ∈ selectedUsers, s.sources[object]? = some (.allUsers uid) then
      let users := selectedUsers.filterMap (fun object => s.server.objects[object]?)
      let usersId := NavigationController.usersId users
      match s.server.step
        (.createGroup uid.value uuid.value usersId groupName url selectedUsers date now) with
      | some server =>
        some {
          s with
          server := server
          groups := s.groups ++ [⟨uuid, uid, usersId⟩]
          sources := s.sources ++ [.createdGroup uid]
        }
      | none => none
    else
      none
  | .openChat uid user =>
    match s.sources[user]?, s.server.objects[user]? with
    | some source, some otherUser =>
      if uid ∈ s.accounts ∧ source.Opens uid then
        let c : OpenChat := ⟨uid, user, none, messageId (some uid.value) otherUser, .init⟩
        some { s with chats := s.chats ++ [c] }
      else
        none
    | _, _ => none
  | .currentUserFetched chat currentUser =>
    match s.chats[chat]? with
    | some c =>
      if s.sources[currentUser]? = some (.currentUser c.uid) then
        some { s with chats := s.chats.set chat { c with currentUser := some currentUser } }
      else
        none
    | none => none
  | .send chat pickedImage text date now date' date'' documentID =>
    match s.chats[chat]? with
    | some c =>
      match (s.controller c pickedImage text).handleSendMessage pngData (some c.uid.value) date now,
        c.currentUser with
      | some (_, []), _ => some s
      -- one call asks for one thing at most
      | some (_, request :: _), some currentUser =>
        s.request c currentUser date' date'' documentID request
      | _, _ => none
    | none => none
  | .uploadCompleted i url date date' documentID =>
    match s.uploads[i]? with
    | some upload =>
      let s := { s with uploads := s.uploads.eraseIdx i }
      let message := { upload.message with imageUrl := some url }
      s.addMessage upload.uid message upload.currentUser upload.otherUser date date' documentID
    | none => none
  | .uploadFailed i =>
    if i < s.uploads.length then some { s with uploads := s.uploads.eraseIdx i } else none
  | .perform operation now =>
    match s.server.step (.perform operation now) with
    | some server => some { s with server := server }
    | none => none
  | .listener chat e =>
    match s.chats[chat]? with
    | some c =>
      if s.Delivers c e then
        match (chatListener c.messageId).step c.listener e with
        | some listener => some { s with chats := s.chats.set chat { c with listener := listener } }
        | none => none
      else
        none
    | none => none

end Clients

def clients {Image : Type u} {Data : Type v} (pngData : Image → Option Data)
    : Machine (Clients Data) (Clients.Event Image) :=
  ⟨Clients.step pngData⟩

namespace Clients

variable {Image : Type u} {Data : Type v} {pngData : Image → Option Data}

/-
One inversion lemma for each event says all that it does. `Backend.step` is not unfolded here, what
it does is said by the inversion lemmas of `Backend`.
-/

theorem step_createAccount {s s' : Clients Data} {uid : AuthUid}
    (h : (clients pngData).step s (.createAccount uid) = some s')
    : uid ∉ s.accounts ∧ ∃ server', backend.step s.server (.createAccount uid.value) = some server'
        ∧ s' = { s with server := server', accounts := s.accounts ++ [uid] } := by
  simp only [clients, step] at h
  split at h
  . contradiction
  . next huid =>
    split at h
    . next server' hserver =>
      injection h with h
      exact ⟨huid, server', hserver, h.symm⟩
    . contradiction

theorem step_signup {s s' : Clients Data} {uid : AuthUid} {firstName lastName email url : String}
    {date now : Date}
    (h : (clients pngData).step s (.signup uid firstName lastName email url date now) = some s')
    : ∃ server',
        backend.step s.server (.signup uid.value firstName lastName email url date now)
          = some server'
        ∧ s' = { s with server := server' } := by
  simp only [clients, step] at h
  split at h
  . next server' hserver =>
    injection h with h
    exact ⟨server', hserver, h.symm⟩
  . contradiction

theorem step_load {s s' : Clients Data} {source : Source} {documentID : DocumentID} {now : Date}
    (h : (clients pngData).step s (.load source documentID now) = some s')
    : source.uid ∈ s.accounts ∧ ∃ path server', source.path s.server.db documentID = some path
        ∧ backend.step s.server (.load path now) = some server'
        ∧ s' = { s with server := server', sources := s.sources ++ [source] } := by
  simp only [clients, step] at h
  split at h
  . next huid =>
    split at h
    . next server' hserver =>
      rw [Option.bind_eq_some_iff] at hserver
      rcases hserver with ⟨path, hpath, hserver⟩
      injection h with h
      exact ⟨huid, path, server', hpath, hserver, h.symm⟩
    . contradiction
  . contradiction

-- `usersId` as `contactsSelected` puts it together
def usersId (s : Clients Data) (selectedUsers : List Nat) : String :=
  NavigationController.usersId (selectedUsers.filterMap (fun object => s.server.objects[object]?))

theorem step_createGroup {s s' : Clients Data} {uuid : UUIDString} {uid : AuthUid}
    {groupName url : String} {selectedUsers : List Nat} {date now : Date}
    (h : (clients pngData).step s (.createGroup uuid uid groupName url selectedUsers date now)
      = some s')
    : (∀ id ∈ s.groups, id.uuid ≠ uuid)
        ∧ (∀ object ∈ selectedUsers, s.sources[object]? = some (.allUsers uid))
        ∧ ∃ server',
            backend.step s.server (.createGroup uid.value uuid.value (s.usersId selectedUsers)
              groupName url selectedUsers date now) = some server'
            ∧ s' = {
                s with
                server := server'
                groups := s.groups ++ [⟨uuid, uid, s.usersId selectedUsers⟩]
                sources := s.sources ++ [.createdGroup uid]
              } := by
  simp only [clients, step] at h
  split at h
  . next hguard =>
    split at h
    . next server' hserver =>
      injection h with h
      exact ⟨hguard.left, hguard.right.right, server', hserver, h.symm⟩
    . contradiction
  . contradiction

theorem step_openChat {s s' : Clients Data} {uid : AuthUid} {user : Nat}
    (h : (clients pngData).step s (.openChat uid user) = some s')
    : ∃ source otherUser, s.sources[user]? = some source ∧ s.server.objects[user]? = some otherUser
        ∧ uid ∈ s.accounts ∧ source.Opens uid
        ∧ s' = {
            s with
            chats := s.chats ++ [⟨uid, user, none, messageId (some uid.value) otherUser, .init⟩]
          } := by
  simp only [clients, step] at h
  split at h
  . next source otherUser hsource huser =>
    split at h
    . next hguard =>
      injection h with h
      exact ⟨source, otherUser, hsource, huser, hguard.left, hguard.right, h.symm⟩
    . contradiction
  . contradiction

theorem step_currentUserFetched {s s' : Clients Data} {chat currentUser : Nat}
    (h : (clients pngData).step s (.currentUserFetched chat currentUser) = some s')
    : ∃ c, s.chats[chat]? = some c ∧ s.sources[currentUser]? = some (.currentUser c.uid)
        ∧ s' = { s with chats := s.chats.set chat { c with currentUser := some currentUser } } := by
  simp only [clients, step] at h
  split at h
  . next c hc =>
    split at h
    . next hsource =>
      injection h with h
      exact ⟨c, hc, hsource, h.symm⟩
    . contradiction
  . contradiction

theorem addMessage_eq_some {s s' : Clients Data} {uid : AuthUid} {message : Message}
    {currentUser otherUser : Nat} {date date' : Date} {documentID : DocumentID}
    (h : s.addMessage uid message currentUser otherUser date date' documentID = some s')
    : (∀ posted ∈ s.posted, posted.documentID ≠ documentID)
        ∧ ∃ server',
            backend.step s.server
              (.addMessage message currentUser otherUser date date' documentID) = some server'
            ∧ s' = {
                s with
                server := server'
                posted := s.posted ++ [⟨uid, documentID, message⟩]
              } := by
  unfold addMessage at h
  split at h
  . next hnew =>
    split at h
    . next server' hserver =>
      injection h with h
      exact ⟨hnew, server', hserver, h.symm⟩
    . contradiction
  . contradiction

-- the message that a Send in the chat makes of a text
def composed (c : OpenChat) (otherUser : User) (text : String) (now : Date) : Message :=
  {
    msgId := messageId (some c.uid.value) otherUser
    fromId := c.uid.value
    toId := otherUser.uid
    text := text
    timestamp := now
    imageUrl := none
    isGroupMessage := otherUser.isGroup
  }

-- what an event asks of the store
def serverEvents (pngData : Image → Option Data) (s : Clients Data) : Event Image → List Backend.Event
  | .createAccount uid => [.createAccount uid.value]
  | .signup uid firstName lastName email url date now =>
    [.signup uid.value firstName lastName email url date now]
  | .load source documentID now =>
    match source.path s.server.db documentID with
    | some path => [.load path now]
    | none => []
  | .createGroup uuid uid groupName url selectedUsers date now =>
    let usersId := s.usersId selectedUsers
    [.createGroup uid.value uuid.value usersId groupName url selectedUsers date now]
  | .send chat pickedImage text date now date' date'' documentID =>
    match s.chats[chat]? with
    | some c =>
      match (s.controller c pickedImage text).handleSendMessage pngData (some c.uid.value) date now,
        c.currentUser with
      | some (_, .addMessage message _ _ :: _), some currentUser =>
        [.addMessage message currentUser c.user date' date'' documentID]
      | _, _ => []
    | none => []
  | .uploadCompleted i url date date' documentID =>
    match s.uploads[i]? with
    | some upload =>
      let message := { upload.message with imageUrl := some url }
      [.addMessage message upload.currentUser upload.otherUser date date' documentID]
    | none => []
  | .perform operation now => [.perform operation now]
  | .openChat _ _ | .currentUserFetched _ _ | .uploadFailed _ | .listener _ _ => []

-- the message of a Send that asks for something
def sentMessages (pngData : Image → Option Data) (s : Clients Data) : Event Image → List Message
  | .send chat pickedImage text date now _ _ _ =>
    match s.chats[chat]? with
    | some c =>
      match (s.controller c pickedImage text).handleSendMessage pngData (some c.uid.value) date now with
      | some (_, requests) => requests.map Request.message
      | none => []
    | none => []
  | _ => []

-- All that a Send asks for: nothing, a message without a photo, or the upload of a photo.
theorem requests_of_handleSendMessage {uid : DocumentID} {date now : Date}
    {c c' : ChatController Image} {otherUser : User} {requests : List (Request Data)}
    (huser : c.user = some otherUser)
    (h : c.handleSendMessage pngData (some uid) date now = some (c', requests))
    : requests = []
        ∨
      (c.pickedImage = none
        ∧ ∃ currentUser, requests = [.addMessage (c.composed uid otherUser now) currentUser otherUser])
        ∨
      ∃ image imageData currentUser, c.pickedImage = some image ∧ pngData image = some imageData
        ∧ requests
            = [.uploadImage ⟨imageData, c.composed uid otherUser now, currentUser, otherUser⟩] := by
  cases hcurrentUser : c.currentUser with
  | none =>
    left
    cases requests with
    | nil => rfl
    | cons request requests =>
      rcases ChatController.request_of_handleSendMessage huser h request List.mem_cons_self
        with ⟨currentUser, hmem, _⟩
      rw [hcurrentUser] at hmem
      contradiction
  | some currentUser =>
    cases hpicked : c.pickedImage with
    | some image =>
      rw [ChatController.handleSendMessage_photo huser hcurrentUser hpicked] at h
      injection h with h
      injection h with _ h
      unfold ChatController.uploadImage at h
      split at h
      . next imageData hpng => exact Or.inr (Or.inr ⟨image, imageData, currentUser, rfl, hpng, h.symm⟩)
      . exact Or.inl h.symm
    | none =>
      by_cases htext : c.text = ""
      . rw [ChatController.handleSendMessage_empty huser hpicked htext] at h
        injection h with h
        injection h with _ h
        exact Or.inl h.symm
      . rw [ChatController.handleSendMessage_text huser hcurrentUser hpicked htext] at h
        injection h with h
        injection h with _ h
        exact Or.inr (Or.inl ⟨rfl, currentUser, h.symm⟩)

-- what an event asks for: the message of a Send and the requests to the store
def Asks (pngData : Image → Option Data) (s : Clients Data) (e : Event Image)
    (messages : List Message) (events : List Backend.Event) : Prop :=
  sentMessages pngData s e = messages ∧ serverEvents pngData s e = events

theorem step_send {s s' : Clients Data} {chat : Nat} {pickedImage : Option Image} {text : String}
    {date now date' date'' : Date} {documentID : DocumentID}
    (h : (clients pngData).step s (.send chat pickedImage text date now date' date'' documentID)
      = some s')
    : (s' = s
          ∧ Asks pngData s (.send chat pickedImage text date now date' date'' documentID) [] [])
        ∨
      ∃ c otherUser currentUser, s.chats[chat]? = some c
        ∧ s.server.objects[c.user]? = some otherUser ∧ c.currentUser = some currentUser
        ∧ ((pickedImage = none
              ∧ s.addMessage c.uid (composed c otherUser text now) currentUser c.user date' date''
                  documentID = some s'
              ∧ Asks pngData s (.send chat pickedImage text date now date' date'' documentID)
                  [composed c otherUser text now]
                  [.addMessage (composed c otherUser text now) currentUser c.user date' date''
                    documentID])
            ∨ ∃ image imageData, pickedImage = some image ∧ pngData image = some imageData
                ∧ s' = {
                    s with
                    uploads := s.uploads
                      ++ [⟨c.uid, imageData, composed c otherUser text now, currentUser, c.user⟩]
                  }
                ∧ Asks pngData s (.send chat pickedImage text date now date' date'' documentID)
                    [composed c otherUser text now] []) := by
  simp only [clients, step] at h
  split at h
  . next c hc =>
    split at h
    . next hsend =>
      injection h with h
      exact Or.inl ⟨h.symm, by simp [sentMessages, hc, hsend], by simp [serverEvents, hc, hsend]⟩
    . next c' request requests currentUser hsend hcurrentUser =>
      right
      cases huser : s.server.objects[c.user]? with
      | none => simp [ChatController.handleSendMessage, controller, huser] at hsend
      | some otherUser =>
        refine ⟨c, otherUser, currentUser, hc, huser, hcurrentUser, ?_⟩
        have huser' : (s.controller c pickedImage text).user = some otherUser := by
          exact huser
        rcases requests_of_handleSendMessage huser' hsend
          with hnil | ⟨hpicked, _, hadd⟩ | ⟨image, imageData, _, hpicked, hpng, hupload⟩
        . contradiction
        . left
          rw [hadd] at hsend
          injection hadd with hadd
          rw [hadd] at h
          refine ⟨hpicked, h, ?_, ?_⟩
          . simp only [sentMessages, hc, hsend]
            rfl
          . simp only [serverEvents, hc, hsend, hcurrentUser]
            rfl
        . right
          rw [hupload] at hsend
          injection hupload with hupload
          rw [hupload] at h
          injection h with h
          refine ⟨image, imageData, hpicked, hpng, h.symm, ?_, ?_⟩
          . simp only [sentMessages, hc, hsend]
            rfl
          . simp only [serverEvents, hc, hsend]
    . contradiction
  . contradiction

theorem step_uploadCompleted {s s' : Clients Data} {i : Nat} {url : String} {date date' : Date}
    {documentID : DocumentID}
    (h : (clients pngData).step s (.uploadCompleted i url date date' documentID) = some s')
    : ∃ upload, s.uploads[i]? = some upload
        ∧ addMessage { s with uploads := s.uploads.eraseIdx i } upload.uid
            { upload.message with imageUrl := some url } upload.currentUser upload.otherUser date
            date' documentID = some s' := by
  simp only [clients, step] at h
  split at h
  . next upload hupload => exact ⟨upload, hupload, h⟩
  . contradiction

theorem step_uploadFailed {s s' : Clients Data} {i : Nat}
    (h : (clients pngData).step s (.uploadFailed i) = some s')
    : s' = { s with uploads := s.uploads.eraseIdx i } := by
  simp only [clients, step] at h
  split at h
  . injection h with h
    exact h.symm
  . contradiction

theorem step_perform {s s' : Clients Data} {operation : Nat} {now : Date}
    (h : (clients pngData).step s (.perform operation now) = some s')
    : ∃ server', backend.step s.server (.perform operation now) = some server'
        ∧ s' = { s with server := server' } := by
  simp only [clients, step] at h
  split at h
  . next server' hserver =>
    injection h with h
    exact ⟨server', hserver, h.symm⟩
  . contradiction

theorem step_listener {s s' : Clients Data} {chat : Nat} {e : ChatListener.Event}
    (h : (clients pngData).step s (.listener chat e) = some s')
    : ∃ c listener, s.chats[chat]? = some c ∧ s.Delivers c e
        ∧ (chatListener c.messageId).step c.listener e = some listener
        ∧ s' = { s with chats := s.chats.set chat { c with listener := listener } } := by
  simp only [clients, step] at h
  split at h
  . next c hc =>
    split at h
    . next hdelivers =>
      split at h
      . next listener hlistener =>
        injection h with h
        exact ⟨c, listener, hc, hdelivers, hlistener, h.symm⟩
      . contradiction
    . contradiction
  . contradiction

theorem addMessage_chats {s s' : Clients Data} {uid : AuthUid} {message : Message}
    {currentUser otherUser : Nat} {date date' : Date} {documentID : DocumentID}
    (h : s.addMessage uid message currentUser otherUser date date' documentID = some s')
    : s'.chats = s.chats := by
  rcases addMessage_eq_some h with ⟨_, server', _, hs'⟩
  rw [hs']

-- how an open chat goes on, `c` is the chat before the event
def Continues (s : Clients Data) (chat : Nat) (c : OpenChat) (e : Event Image) (c' : OpenChat)
    : Prop :=
  c' = c
    ∨
  (∃ currentUser, s.sources[currentUser]? = some (.currentUser c.uid)
    ∧ c' = { c with currentUser := some currentUser })
    ∨
  ∃ e' listener, e = .listener chat e' ∧ s.Delivers c e'
    ∧ (chatListener c.messageId).step c.listener e' = some listener
    ∧ c' = { c with listener := listener }

-- how a chat is opened
def Starts (s : Clients Data) (c' : OpenChat) : Prop :=
  ∃ uid user source otherUser, s.sources[user]? = some source
    ∧ s.server.objects[user]? = some otherUser ∧ uid ∈ s.accounts ∧ source.Opens uid
    ∧ c' = ⟨uid, user, none, messageId (some uid.value) otherUser, .init⟩

theorem chat_step {s s' : Clients Data} {e : Event Image} {chat : Nat} {c' : OpenChat}
    (hstep : (clients pngData).step s e = some s') (hc' : s'.chats[chat]? = some c')
    : s.Starts c' ∨ ∃ c, s.chats[chat]? = some c ∧ s.Continues chat c e c' := by
  have hsame : s'.chats = s.chats → s.Starts c' ∨ ∃ c, s.chats[chat]? = some c
      ∧ s.Continues chat c e c' := by
    intro hchats
    rw [hchats] at hc'
    exact Or.inr ⟨c', hc', Or.inl rfl⟩
  cases e with
  | createAccount uid =>
    rcases step_createAccount hstep with ⟨_, server', _, hs'⟩
    exact hsame (by rw [hs'])
  | signup uid firstName lastName email url date now =>
    rcases step_signup hstep with ⟨server', _, hs'⟩
    exact hsame (by rw [hs'])
  | load source documentID now =>
    rcases step_load hstep with ⟨_, path, server', _, _, hs'⟩
    exact hsame (by rw [hs'])
  | createGroup uuid uid groupName url selectedUsers date now =>
    rcases step_createGroup hstep with ⟨_, _, server', _, hs'⟩
    exact hsame (by rw [hs'])
  | openChat uid user =>
    rcases step_openChat hstep with ⟨source, otherUser, hsource, huser, huid, hopens, hs'⟩
    rw [hs', List.getElem?_append] at hc'
    split at hc'
    . exact Or.inr ⟨c', hc', Or.inl rfl⟩
    . rw [List.getElem?_singleton] at hc'
      split at hc'
      . injection hc' with hc'
        exact Or.inl ⟨uid, user, source, otherUser, hsource, huser, huid, hopens, hc'.symm⟩
      . contradiction
  | currentUserFetched chat' currentUser =>
    rcases step_currentUserFetched hstep with ⟨c, hc, hsource, hs'⟩
    right
    rw [hs', List.getElem?_set] at hc'
    split at hc'
    . next heq =>
      rw [heq] at hc
      split at hc'
      . injection hc' with hc'
        exact ⟨c, hc, Or.inr (Or.inl ⟨currentUser, hsource, hc'.symm⟩)⟩
      . contradiction
    . exact ⟨c', hc', Or.inl rfl⟩
  | send chat' pickedImage text date now date' date'' documentID =>
    rcases step_send hstep with ⟨heq, _⟩
      | ⟨c, otherUser, currentUser, _, _, _, ⟨_, hadd, _⟩ | ⟨_, _, _, _, hs', _⟩⟩
    . exact hsame (by rw [heq])
    . exact hsame (addMessage_chats hadd)
    . exact hsame (by rw [hs'])
  | uploadCompleted i url date date' documentID =>
    rcases step_uploadCompleted hstep with ⟨upload, _, hadd⟩
    have hchats := addMessage_chats hadd
    exact hsame hchats
  | uploadFailed i => exact hsame (by rw [step_uploadFailed hstep])
  | perform operation now =>
    rcases step_perform hstep with ⟨server', _, hs'⟩
    exact hsame (by rw [hs'])
  | listener chat' e' =>
    rcases step_listener hstep with ⟨c, listener, hc, hdelivers, hlistener, hs'⟩
    right
    rw [hs', List.getElem?_set] at hc'
    split at hc'
    . next heq =>
      rw [heq] at hc ⊢
      split at hc'
      . injection hc' with hc'
        exact ⟨c, hc, Or.inr (Or.inr ⟨e', listener, rfl, hdelivers, hlistener, hc'.symm⟩)⟩
      . contradiction
    . exact ⟨c', hc', Or.inl rfl⟩

-- the events of the composers
def Event.IsComposers : Event Image → Prop
  | .send _ _ _ _ _ _ _ _ | .uploadCompleted _ _ _ _ _ | .uploadFailed _ => True
  | _ => False

-- All other events have nothing to do with what is sent.
theorem posted_step {s s' : Clients Data} {e : Event Image}
    (hstep : (clients pngData).step s e = some s') (he : ¬ e.IsComposers)
    : s'.posted = s.posted ∧ s'.uploads = s.uploads := by
  cases e with
  | createAccount uid =>
    rcases step_createAccount hstep with ⟨_, server', _, hs'⟩
    rw [hs']
    exact ⟨rfl, rfl⟩
  | signup uid firstName lastName email url date now =>
    rcases step_signup hstep with ⟨server', _, hs'⟩
    rw [hs']
    exact ⟨rfl, rfl⟩
  | load source documentID now =>
    rcases step_load hstep with ⟨_, path, server', _, _, hs'⟩
    rw [hs']
    exact ⟨rfl, rfl⟩
  | createGroup uuid uid groupName url selectedUsers date now =>
    rcases step_createGroup hstep with ⟨_, _, server', _, hs'⟩
    rw [hs']
    exact ⟨rfl, rfl⟩
  | openChat uid user =>
    rcases step_openChat hstep with ⟨source, otherUser, _, _, _, _, hs'⟩
    rw [hs']
    exact ⟨rfl, rfl⟩
  | currentUserFetched chat currentUser =>
    rcases step_currentUserFetched hstep with ⟨c, _, _, hs'⟩
    rw [hs']
    exact ⟨rfl, rfl⟩
  | send chat pickedImage text date now date' date'' documentID => exact absurd trivial he
  | uploadCompleted i url date date' documentID => exact absurd trivial he
  | uploadFailed i => exact absurd trivial he
  | perform operation now =>
    rcases step_perform hstep with ⟨server', _, hs'⟩
    rw [hs']
    exact ⟨rfl, rfl⟩
  | listener chat e =>
    rcases step_listener hstep with ⟨c, listener, _, _, _, hs'⟩
    rw [hs']
    exact ⟨rfl, rfl⟩

-- Chats stay where they are, with whom they were opened for and what they query.
theorem screen_step {s s' : Clients Data} {e : Event Image}
    (hstep : (clients pngData).step s e = some s') {chat : Nat} {screen : AuthUid × String}
    (h : (s.chats.map OpenChat.screen)[chat]? = some screen)
    : (s'.chats.map OpenChat.screen)[chat]? = some screen := by
  cases e with
  | createAccount uid' =>
    rcases step_createAccount hstep with ⟨_, server', _, hs'⟩
    rw [hs']
    exact h
  | signup uid' firstName lastName email url date now =>
    rcases step_signup hstep with ⟨server', _, hs'⟩
    rw [hs']
    exact h
  | load source documentID now =>
    rcases step_load hstep with ⟨_, path, server', _, _, hs'⟩
    rw [hs']
    exact h
  | createGroup uuid uid' groupName url selectedUsers date now =>
    rcases step_createGroup hstep with ⟨_, _, server', _, hs'⟩
    rw [hs']
    exact h
  | openChat uid' user =>
    rcases step_openChat hstep with ⟨source, otherUser, _, _, _, _, hs'⟩
    rw [hs', List.map_append, List.getElem?_append_left (List.getElem?_eq_some_iff.mp h).choose]
    exact h
  | currentUserFetched chat' currentUser =>
    rcases step_currentUserFetched hstep with ⟨c, hc, _, hs'⟩
    have hmap : (s.chats.set chat' { c with currentUser := some currentUser }).map OpenChat.screen
        = s.chats.map OpenChat.screen := by
      exact List.map_set_of_eq hc rfl
    rw [hs', hmap]
    exact h
  | send chat' pickedImage text date now date' date'' documentID =>
    rcases step_send hstep with ⟨heq, _⟩
      | ⟨c, otherUser, currentUser, _, _, _, ⟨_, hadd, _⟩ | ⟨_, _, _, _, hs', _⟩⟩
    . rw [heq]
      exact h
    . rw [addMessage_chats hadd]
      exact h
    . rw [hs']
      exact h
  | uploadCompleted i url date date' documentID =>
    rcases step_uploadCompleted hstep with ⟨upload, _, hadd⟩
    rw [addMessage_chats hadd]
    exact h
  | uploadFailed i =>
    rw [step_uploadFailed hstep]
    exact h
  | perform operation now =>
    rcases step_perform hstep with ⟨server', _, hs'⟩
    rw [hs']
    exact h
  | listener chat' e' =>
    rcases step_listener hstep with ⟨c, listener, hc, _, _, hs'⟩
    have hmap : (s.chats.set chat' { c with listener := listener }).map OpenChat.screen
        = s.chats.map OpenChat.screen := by
      exact List.map_set_of_eq hc rfl
    rw [hs', hmap]
    exact h

-- who a message of a request is from: a Send in a chat or an upload that a Send has started
def Composes (s : Clients Data) (uid : AuthUid) (currentUser otherUser : Nat) (message : Message)
    : Prop :=
  (∃ c ∈ s.chats, ∃ user text now, c.uid = uid ∧ c.currentUser = some currentUser
    ∧ c.user = otherUser ∧ s.server.objects[otherUser]? = some user
    ∧ message = composed c user text now)
    ∨
  ∃ upload ∈ s.uploads, ∃ url, upload.uid = uid ∧ upload.currentUser = currentUser
    ∧ upload.otherUser = otherUser ∧ message = { upload.message with imageUrl := some url }

-- what is known of a request when a client makes it, and what is remembered of it
def Requests (s : Clients Data) : Backend.Event → Clients Data → Prop
  | .createAccount uid, s' => (∃ uid' : AuthUid, uid'.value = uid) ∧ s'.posted = s.posted
  | .createGroup uid uuid usersId _ _ _ _ _, s' =>
    (∃ id : GroupID, id.value = uuid ++ uid ++ usersId ∧ ∀ old ∈ s.groups, old.uuid ≠ id.uuid)
      ∧ s'.posted = s.posted
  | .addMessage message currentUser otherUser _ _ documentID, s' =>
    (∀ old ∈ s.posted, old.documentID ≠ documentID) ∧ ∃ uid,
      s.Composes uid currentUser otherUser message
        ∧ s'.posted = s.posted ++ [⟨uid, documentID, message⟩]
  | .signup _ _ _ _ _ _ _, s' | .load _ _, s' | .perform _ _, s' => s'.posted = s.posted

-- One event makes one request at most.
theorem requests_step {s s' : Clients Data} {e : Event Image}
    (hstep : (clients pngData).step s e = some s')
    : (serverEvents pngData s e = [] ∧ s'.server = s.server ∧ s'.posted = s.posted)
        ∨
      ∃ e', serverEvents pngData s e = [e'] ∧ backend.step s.server e' = some s'.server
        ∧ s.Requests e' s' := by
  cases e with
  | createAccount uid =>
    rcases step_createAccount hstep with ⟨_, server', hserver, hs'⟩
    rw [hs']
    exact Or.inr ⟨_, rfl, hserver, ⟨uid, rfl⟩, rfl⟩
  | signup uid firstName lastName email url date now =>
    rcases step_signup hstep with ⟨server', hserver, hs'⟩
    rw [hs']
    exact Or.inr ⟨_, rfl, hserver, rfl⟩
  | load source documentID now =>
    rcases step_load hstep with ⟨_, path, server', hpath, hserver, hs'⟩
    rw [hs']
    exact Or.inr ⟨_, by rw [serverEvents, hpath], hserver, rfl⟩
  | createGroup uuid uid groupName url selectedUsers date now =>
    rcases step_createGroup hstep with ⟨hnew, _, server', hserver, hs'⟩
    rw [hs']
    exact Or.inr ⟨_, rfl, hserver, ⟨⟨uuid, uid, s.usersId selectedUsers⟩, rfl, hnew⟩, rfl⟩
  | openChat uid user =>
    rcases step_openChat hstep with ⟨source, otherUser, _, _, _, _, hs'⟩
    rw [hs']
    exact Or.inl ⟨rfl, rfl, rfl⟩
  | currentUserFetched chat currentUser =>
    rcases step_currentUserFetched hstep with ⟨c, _, _, hs'⟩
    rw [hs']
    exact Or.inl ⟨rfl, rfl, rfl⟩
  | send chat pickedImage text date now date' date'' documentID =>
    rcases step_send hstep
      with ⟨heq, _, hevents⟩ | ⟨c, otherUser, currentUser, hc, huser, hcurrentUser, hsend⟩
    . rw [heq]
      exact Or.inl ⟨hevents, rfl, rfl⟩
    . rcases hsend with ⟨_, hadd, _, hevents⟩ | ⟨_, _, _, _, hs', _, hevents⟩
      . rcases addMessage_eq_some hadd with ⟨hnew, server', hserver, hs'⟩
        have hcomposes : s.Composes c.uid currentUser c.user (composed c otherUser text now) := by
          exact Or.inl ⟨c, List.mem_of_getElem? hc, otherUser, text, now, rfl, hcurrentUser, rfl,
            huser, rfl⟩
        rw [hs']
        exact Or.inr ⟨_, hevents, hserver, hnew, c.uid, hcomposes, rfl⟩
      . rw [hs']
        exact Or.inl ⟨hevents, rfl, rfl⟩
  | uploadCompleted i url date date' documentID =>
    rcases step_uploadCompleted hstep with ⟨upload, hupload, hadd⟩
    rcases addMessage_eq_some hadd with ⟨hnew, server', hserver, hs'⟩
    have hcomposes : s.Composes upload.uid upload.currentUser upload.otherUser
        { upload.message with imageUrl := some url } := by
      exact Or.inr ⟨upload, List.mem_of_getElem? hupload, url, rfl, rfl, rfl, rfl⟩
    rw [hs']
    exact Or.inr ⟨_, by rw [serverEvents, hupload], hserver, hnew, upload.uid, hcomposes, rfl⟩
  | uploadFailed i =>
    rw [step_uploadFailed hstep]
    exact Or.inl ⟨rfl, rfl, rfl⟩
  | perform operation now =>
    rcases step_perform hstep with ⟨server', hserver, hs'⟩
    rw [hs']
    exact Or.inr ⟨_, rfl, hserver, rfl⟩
  | listener chat e =>
    rcases step_listener hstep with ⟨c, listener, _, _, _, hs'⟩
    rw [hs']
    exact Or.inl ⟨rfl, rfl, rfl⟩

def ann : AuthUid :=
  ⟨"ann0ann1ann2ann3ann4ann5ann6", by decide, by simp⟩

def bob : AuthUid :=
  ⟨"bob0bob1bob2bob3bob4bob5bob6", by decide, by simp⟩

def team : GroupID :=
  ⟨⟨"F47AC10B-58CC-4372-A567-0E02B2C3D479", by decide⟩, ann, bob.value⟩

def hello : Message :=
  ⟨team.value, ann.value, team.value, "hello", 5, none, true⟩

def hi : Message :=
  ⟨team.value, bob.value, team.value, "hi", 10, none, true⟩

-- Ann creates a group with Bob and sends a message to it. Bob opens the group, and both are shown the
-- message.
def helloRun : List (Event Unit) :=
  let annUser : User := ⟨ann.value, "Ann", "A", "ann@mail.org", "pa", 1, false⟩
  [
    .createAccount ann, .signup ann "Ann" "A" "ann@mail.org" "pa" 1 1, .perform 0 1,
    .createAccount bob, .signup bob "Bob" "B" "bob@mail.org" "pb" 2 2, .perform 1 2,
    .load (.allUsers ann) bob.value 3, .load (.currentUser ann) ann.value 3,
    .createGroup team.uuid ann "Team" "pt" [0] 4 4,
    .perform 2 4, .perform 2 4, .perform 2 4, .perform 2 4, .perform 2 4, .perform 2 4,
    .perform 2 4,
    .openChat ann 2, .currentUserFetched 0 1, .send 0 none "hello" 5 5 5 5 "m",
    .perform 3 5, .perform 3 5, .perform 3 5, .perform 3 5, .perform 3 5, .perform 3 5,
    .perform 3 5, .perform 3 5, .perform 3 5,
    .load (.recentUsers bob) team.value 6, .openChat bob 3,
    .listener 1 (.snapshot [⟨.added, ⟨"m", hello.dictionary⟩, 0⟩] 7),
    .listener 1 (.userFetched 0 annUser.dictionary 8),
    .listener 0 (.snapshot [⟨.added, ⟨"m", hello.dictionary⟩, 0⟩] 8),
    .listener 0 (.userFetched 0 annUser.dictionary 9)
  ]

-- Bob answers, and both are shown the answer.
def hiRun : List (Event Unit) :=
  let annUser : User := ⟨ann.value, "Ann", "A", "ann@mail.org", "pa", 1, false⟩
  let bobUser : User := ⟨bob.value, "Bob", "B", "bob@mail.org", "pb", 2, false⟩
  [
    .load (.currentUser bob) bob.value 9, .currentUserFetched 1 4, .send 1 none "hi" 10 10 10 10 "n",
    .perform 4 10, .perform 4 10, .perform 4 10, .perform 4 10, .perform 4 10, .perform 4 10,
    .perform 4 10, .perform 4 10, .perform 4 10,
    .listener 0 (.snapshot [⟨.added, ⟨"n", hi.dictionary⟩, 1⟩] 11),
    .listener 0 (.userFetched 0 annUser.dictionary 11),
    .listener 0 (.userFetched 0 bobUser.dictionary 11),
    .listener 1 (.snapshot [⟨.added, ⟨"n", hi.dictionary⟩, 1⟩] 12),
    -- the replies for one list may come in any order
    .listener 1 (.userFetched 1 bobUser.dictionary 12),
    .listener 1 (.userFetched 0 annUser.dictionary 12)
  ]

def teamRun : List (Event Unit) :=
  helloRun ++ hiRun

end Clients

end ChatApplication
