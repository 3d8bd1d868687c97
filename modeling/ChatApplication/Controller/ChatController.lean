import ChatApplication.API.MessageID

/-!
This module contains the composer of `ChatController`: the text field, the photo button, the hidden
`pickedImage` and what pressing Send does with them.
-/

namespace ChatApplication

-- an upload that `uploadImage` has started, with the variables its completion handler captures
structure Upload (Data : Type u) where
  imageData : Data
  message : Message
  currentUser : User
  otherUser : User
  deriving DecidableEq, Repr

-- what `HandleSendMessage` asks for
inductive Request (Data : Type u) where
  | uploadImage (upload : Upload Data)
  | addMessage (message : Message) (currentUser otherUser : User)
  deriving DecidableEq, Repr

namespace Request

variable {Data : Type u}

def message : Request Data → Message
  | .uploadImage upload => upload.message
  | .addMessage message _ _ => message

end Request

structure ChatController (Image : Type u) where
  user : Option User
  currentUser : Option User
  pickedImage : Option Image
  -- `messageTextField.text`
  text : String
  -- `selectPhotoButton.image`, `none` is the placeholder "photo.fill"
  selectPhotoButton : Option Image
  deriving DecidableEq, Repr

namespace ChatController

variable {Image : Type u} {Data : Type v}

-- `none` is where `user!` traps
def getMessageId (c : ChatController Image) (auth : Option DocumentID) : Option String :=
  match auth with
  | none => some ""
  | some _ => c.user.map (messageId auth)

-- Without PNG data `uploadImage` returns before it starts an upload, and never calls its completion.
def uploadImage (pngData : Image → Option Data) (image : Image) (message : Message)
    (currentUser otherUser : User) : List (Request Data) :=
  match pngData image with
  | some imageData => [.uploadImage ⟨imageData, message, currentUser, otherUser⟩]
  | none => []

-- `date` is the `Date()` of the literal and `now` the one of `Message.init`. The outer `none` is
-- where a forced unwrap or a forced cast traps.
def handleSendMessage (pngData : Image → Option Data) (auth : Option DocumentID) (date now : Date)
    (c : ChatController Image) : Option (ChatController Image × List (Request Data)) :=
  match auth with
  | none => some (c, [])
  | some uid =>
    match c.user, c.getMessageId (some uid) with
    | some otherUser, some msgId =>
      if c.pickedImage.isNone ∧ c.text = "" then
        some (c, [])
      else
        match Message.init now
          (Message.values msgId uid otherUser.uid c.text date otherUser.isGroup) with
        | some message =>
          match c.currentUser with
          | some currentUser =>
            let requests :=
              match c.pickedImage with
              | some image => uploadImage pngData image message currentUser otherUser
              | none => [.addMessage message currentUser otherUser]
            some ({ c with selectPhotoButton := none, text := "" }, requests)
          | none => some (c, [])
        | none => none
    | _, _ => none

-- The completion handler of the upload: first what it asks for, then what it does to the controller.
def addUploaded (upload : Upload Data) (url : String) : Request Data :=
  .addMessage { upload.message with imageUrl := some url } upload.currentUser upload.otherUser

def uploadCompleted (c : ChatController Image) : ChatController Image :=
  { c with pickedImage := none }

-- `imagePickerController(_:didFinishPickingMediaWithInfo:)`
def didFinishPicking (c : ChatController Image) (editedImage : Option Image)
    : ChatController Image :=
  match editedImage with
  | some image => { c with pickedImage := some image, selectPhotoButton := some image }
  | none => c

-- the message that a Send makes of the composer
def composed (c : ChatController Image) (uid : DocumentID) (otherUser : User) (now : Date)
    : Message :=
  {
    msgId := messageId (some uid) otherUser
    fromId := uid
    toId := otherUser.uid
    text := c.text
    timestamp := now
    imageUrl := none
    isGroupMessage := otherUser.isGroup
  }

theorem handleSendMessage_empty {pngData : Image → Option Data} {uid : DocumentID} {date now : Date}
    {c : ChatController Image} {otherUser : User} (huser : c.user = some otherUser)
    (hpicked : c.pickedImage = none) (htext : c.text = "")
    : c.handleSendMessage pngData (some uid) date now = some (c, []) := by
  unfold handleSendMessage getMessageId
  simp [huser, hpicked, htext]

theorem handleSendMessage_text {pngData : Image → Option Data} {uid : DocumentID} {date now : Date}
    {c : ChatController Image} {currentUser otherUser : User} (huser : c.user = some otherUser)
    (hcurrentUser : c.currentUser = some currentUser) (hpicked : c.pickedImage = none)
    (htext : c.text ≠ "")
    : c.handleSendMessage pngData (some uid) date now
        =
      some (
        { c with selectPhotoButton := none, text := "" },
        [.addMessage (c.composed uid otherUser now) currentUser otherUser]
      ) := by
  unfold handleSendMessage getMessageId
  simp [huser, hcurrentUser, hpicked, htext, composed]

theorem handleSendMessage_photo {pngData : Image → Option Data} {uid : DocumentID} {date now : Date}
    {c : ChatController Image} {currentUser otherUser : User} {image : Image}
    (huser : c.user = some otherUser) (hcurrentUser : c.currentUser = some currentUser)
    (hpicked : c.pickedImage = some image)
    : c.handleSendMessage pngData (some uid) date now
        =
      some (
        { c with selectPhotoButton := none, text := "" },
        uploadImage pngData image (c.composed uid otherUser now) currentUser otherUser
      ) := by
  unfold handleSendMessage getMessageId
  simp [huser, hcurrentUser, hpicked, composed]

theorem request_of_handleSendMessage {pngData : Image → Option Data} {uid : DocumentID}
    {date now : Date} {c c' : ChatController Image} {otherUser : User}
    {requests : List (Request Data)} (huser : c.user = some otherUser)
    (h : c.handleSendMessage pngData (some uid) date now = some (c', requests))
    : ∀ request ∈ requests, ∃ currentUser ∈ c.currentUser,
        let message := c.composed uid otherUser now
        request = .addMessage message currentUser otherUser
          ∨
        ∃ imageData, request = .uploadImage ⟨imageData, message, currentUser, otherUser⟩ := by
  intro request hrequest
  cases hcurrentUser : c.currentUser with
  | none =>
    unfold handleSendMessage getMessageId at h
    simp only [huser, hcurrentUser, Option.map_some, Message.init_values] at h
    have hrequests : requests = [] := by
      split at h
      . injection h with h
        injection h with _ h
        exact h.symm
      . injection h with h
        injection h with _ h
        exact h.symm
    rw [hrequests] at hrequest
    contradiction
  | some currentUser =>
    refine ⟨currentUser, rfl, ?_⟩
    cases hpicked : c.pickedImage with
    | some image =>
      rw [handleSendMessage_photo huser hcurrentUser hpicked] at h
      injection h with h
      injection h with _ h
      unfold uploadImage at h
      split at h
      . next imageData _ =>
        rw [← h, List.mem_singleton] at hrequest
        exact Or.inr ⟨imageData, hrequest⟩
      . rw [← h] at hrequest
        contradiction
    | none =>
      by_cases htext : c.text = ""
      . rw [handleSendMessage_empty huser hpicked htext] at h
        injection h with h
        injection h with _ h
        rw [← h] at hrequest
        contradiction
      . rw [handleSendMessage_text huser hcurrentUser hpicked htext] at h
        injection h with h
        injection h with _ h
        rw [← h, List.mem_singleton] at hrequest
        exact Or.inl hrequest

theorem message_of_handleSendMessage {pngData : Image → Option Data} {uid : DocumentID}
    {date now : Date} {c c' : ChatController Image} {otherUser : User}
    {requests : List (Request Data)} (huser : c.user = some otherUser)
    (h : c.handleSendMessage pngData (some uid) date now = some (c', requests))
    : ∀ request ∈ requests, request.message = c.composed uid otherUser now := by
  intro request hrequest
  rcases request_of_handleSendMessage huser h request hrequest
    with ⟨currentUser, _, hadd | ⟨imageData, hupload⟩⟩
  . rw [hadd]
    rfl
  . rw [hupload]
    rfl

end ChatController

end ChatApplication
