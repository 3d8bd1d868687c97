import ChatApplication.Controller.ChatListener
import ChatApplication.Controller.SelectUsersViewController
import ChatApplication.Machine.Rebinding

/-!
This module contains the reused cells for messages and users. A binding sets the labels of a cell at
once, the picture comes with the reply of `downloadImage`.
-/

namespace ChatApplication

inductive BubbleColor where
  | systemYellow
  | waLightGray
  | waGreen
  deriving DecidableEq, Repr

structure MessageCell where
  -- `messageLabel.text`
  messageLabel : Option String
  -- `fromLabel.text`
  fromLabel : Option String
  -- `bubbleBackgroundView.backgroundColor`
  bubbleBackgroundView : Option BubbleColor
  -- which of the constraints are active
  leadingConstraint : Bool
  trailingConstraint : Bool
  deriving DecidableEq, Repr

-- `chatImageView.image` is `BoundView.content`.
structure ImageCell extends MessageCell where
  leadingConstraintImage : Bool
  trailingConstraintImage : Bool
  deriving DecidableEq, Repr

namespace ChatMessage

-- `chatMessage?.fromId` is not the uid that is signed in
def isIncoming (uid : DocumentID) (chatMessage : ChatMessage) : Bool :=
  uid ≠ chatMessage.message.fromId

-- Only the messages of a group that others have written come with a name.
def senderName (uid : DocumentID) (chatMessage : ChatMessage) : String :=
  if chatMessage.isIncoming uid ∧ chatMessage.message.isGroupMessage then
    (chatMessage.sender.map User.firstName).getD ""
  else
    ""

end ChatMessage

namespace MessageCell

def new : MessageCell :=
  {
    messageLabel := none
    fromLabel := none
    bubbleBackgroundView := none
    leadingConstraint := false
    trailingConstraint := false
  }

-- `chatMessage`'s `didSet`
def setChatMessage (auth : Option DocumentID) (cell : MessageCell) (chatMessage : ChatMessage)
    : MessageCell :=
  match auth with
  | none => cell
  | some uid =>
    let isIncoming := chatMessage.isIncoming uid
    let cell := {
      cell with
      bubbleBackgroundView := some (if isIncoming then .waLightGray else .waGreen)
      messageLabel := some chatMessage.message.text
    }
    if isIncoming then
      let cell := { cell with trailingConstraint := false, leadingConstraint := true }
      if chatMessage.message.isGroupMessage then
        { cell with fromLabel := chatMessage.sender.map User.firstName }
      else
        cell
    else
      { cell with leadingConstraint := false, trailingConstraint := true, fromLabel := some "" }

structure Shows (uid : DocumentID) (chatMessage : ChatMessage) (cell : MessageCell) : Prop where
  text : cell.messageLabel = some chatMessage.message.text
  sender : cell.fromLabel.getD "" = chatMessage.senderName uid
  color : cell.bubbleBackgroundView
    = some (if chatMessage.isIncoming uid then .waLightGray else .waGreen)
  leading : cell.leadingConstraint = chatMessage.isIncoming uid
  trailing : cell.trailingConstraint = !chatMessage.isIncoming uid

-- An incoming message of a chat between two leaves the name as it is, which has to be empty then.
theorem shows_setChatMessage {uid : DocumentID} {cell : MessageCell} {chatMessage : ChatMessage}
    (h : chatMessage.message.isGroupMessage = false → cell.fromLabel.getD "" = "")
    : (cell.setChatMessage (some uid) chatMessage).Shows uid chatMessage := by
  unfold setChatMessage
  dsimp only
  cases hincoming : chatMessage.isIncoming uid with
  | true =>
    cases hgroup : chatMessage.message.isGroupMessage with
    | true => constructor <;> simp [ChatMessage.senderName, hincoming, hgroup]
    | false => constructor <;> simp [ChatMessage.senderName, hincoming, hgroup, h hgroup]
  | false => constructor <;> simp [ChatMessage.senderName, hincoming]

end MessageCell

namespace ImageCell

-- `trailingConstraintImage` is not activated by `configureImageView`.
def new : ImageCell :=
  {
    messageLabel := none
    fromLabel := none
    bubbleBackgroundView := some .systemYellow
    leadingConstraint := false
    trailingConstraint := true
    leadingConstraintImage := false
    trailingConstraintImage := false
  }

-- `chatMessage`'s `didSet`, which is that of `MessageCell` with two more constraints
def setChatMessage (auth : Option DocumentID) (cell : ImageCell) (chatMessage : ChatMessage)
    : ImageCell :=
  match auth with
  | none => cell
  | some uid =>
    {
      cell.toMessageCell.setChatMessage (some uid) chatMessage with
      leadingConstraintImage := chatMessage.isIncoming uid
      trailingConstraintImage := !chatMessage.isIncoming uid
    }

structure Shows (uid : DocumentID) (chatMessage : ChatMessage) (cell : ImageCell) : Prop
    extends cell.toMessageCell.Shows uid chatMessage where
  leadingImage : cell.leadingConstraintImage = chatMessage.isIncoming uid
  trailingImage : cell.trailingConstraintImage = !chatMessage.isIncoming uid

end ImageCell

namespace UserInfoCell

structure Shows (user : User) (cell : UserInfoCell) : Prop where
  name : cell.name = user.firstName ++ " " ++ user.lastName

end UserInfoCell

section Classes

variable {Image : Type u}

-- Without a `URL` made from the string `downloadImage` asks for nothing and never calls its
-- completion. `contents` is what the picture at a URL looks like.
def messageCells (Image : Type u) (auth : Option DocumentID)
    : ViewClass ChatMessage MessageCell Image :=
  {
    new := MessageCell.new
    bind := fun chatMessage cell => cell.setChatMessage auth chatMessage
    content := fun _ => none
    canFetch := fun _ => false
  }

def imageCells (auth : Option DocumentID) (isURL : String → Bool) (contents : String → Image)
    : ViewClass ChatMessage ImageCell Image :=
  {
    new := ImageCell.new
    bind := fun chatMessage cell => cell.setChatMessage auth chatMessage
    content := fun chatMessage => chatMessage.message.imageUrl.map contents
    canFetch := fun chatMessage => chatMessage.message.imageUrl.any isURL
  }

def userInfoCells (isURL : String → Bool) (contents : String → Image)
    : ViewClass User UserInfoCell Image :=
  {
    new := UserInfoCell.new
    bind := fun user cell => cell.setup user
    content := fun user => some (contents user.profileImageUrl)
    canFetch := fun user => isURL user.profileImageUrl
  }

end Classes

-- `isGroupMessage` comes from the user of the chat.
def OfOneChat (messages : List ChatMessage) : Prop :=
  ∃ isGroup, ∀ chatMessage ∈ messages, chatMessage.message.isGroupMessage = isGroup

-- The name stays empty in a chat between two.
theorem fromLabel_foldl {Cell : Type u} {toMessageCell : Cell → MessageCell}
    {setChatMessage : Cell → ChatMessage → Cell} {uid : DocumentID} {new : Cell}
    (hnew : (toMessageCell new).fromLabel.getD "" = "")
    (hset : ∀ cell chatMessage, toMessageCell (setChatMessage cell chatMessage)
      = (toMessageCell cell).setChatMessage (some uid) chatMessage)
    {messages : List ChatMessage}
    (h : ∀ chatMessage ∈ messages, chatMessage.message.isGroupMessage = false)
    : (toMessageCell (messages.foldl setChatMessage new)).fromLabel.getD "" = "" := by
  induction messages using List.reverseRecOn with
  | nil => exact hnew
  | append_singleton messages chatMessage ih =>
    have hgroup := h chatMessage (by simp)
    have hbefore := ih (fun other hother => h other (List.mem_append_left _ hother))
    rw [List.foldl_concat, hset]
    rw [(MessageCell.shows_setChatMessage (fun _ => hbefore)).sender, ChatMessage.senderName, hgroup]
    simp

theorem shows_foldl {Cell : Type u} {toMessageCell : Cell → MessageCell}
    {setChatMessage : Cell → ChatMessage → Cell} {uid : DocumentID} {new : Cell}
    (hnew : (toMessageCell new).fromLabel.getD "" = "")
    (hset : ∀ cell chatMessage, toMessageCell (setChatMessage cell chatMessage)
      = (toMessageCell cell).setChatMessage (some uid) chatMessage)
    {messages : List ChatMessage} {chatMessage : ChatMessage}
    (h : OfOneChat messages) (hlast : messages.getLast? = some chatMessage)
    : (toMessageCell (messages.foldl setChatMessage new)).Shows uid chatMessage := by
  rcases List.getLast?_eq_some_iff.mp hlast with ⟨earlier, hmessages⟩
  rcases h with ⟨isGroup, h⟩
  rw [hmessages] at h ⊢
  rw [List.foldl_concat, hset]
  apply MessageCell.shows_setChatMessage
  intro hgroup
  apply fromLabel_foldl hnew hset
  intro other hother
  rw [h other (List.mem_append_left _ hother), ← h chatMessage (by simp), hgroup]

theorem MessageCell.shows_of_last {uid : DocumentID} {messages : List ChatMessage}
    {chatMessage : ChatMessage} (hchat : OfOneChat messages)
    (hlast : messages.getLast? = some chatMessage)
    : (messages.foldl (setChatMessage (some uid)) new).Shows uid chatMessage := by
  exact @shows_foldl MessageCell id (setChatMessage (some uid)) uid new rfl (fun _ _ => rfl)
    messages chatMessage hchat hlast

theorem ImageCell.shows_of_last {uid : DocumentID} {messages : List ChatMessage}
    {chatMessage : ChatMessage} (hchat : OfOneChat messages)
    (hlast : messages.getLast? = some chatMessage)
    : (messages.foldl (setChatMessage (some uid)) new).Shows uid chatMessage := by
  constructor
  case toShows => exact shows_foldl rfl (fun _ _ => rfl) hchat hlast
  all_goals
    rcases List.getLast?_eq_some_iff.mp hlast with ⟨earlier, hmessages⟩
    rw [hmessages, List.foldl_concat]
    rfl

/--
The labels of a cell are always those of what it is bound to. Its picture is the one that arrived
last.
-/
theorem showsBound_iff_ownArrivesLast {Image : Type u} (uid : DocumentID) (isURL : String → Bool)
    (contents : String → Image)
    : (∀ es s, BoundView.run (imageCells (some uid) isURL contents) es = some s →
        OfOneChat s.bindings → s.fetches = [] →
        (s.ShowsBound (imageCells (some uid) isURL contents) (ImageCell.Shows uid)
          ↔ BoundView.OwnArrivesLast (imageCells (some uid) isURL contents) es))
      ∧ (∀ es s, BoundView.run (messageCells Image (some uid)) es = some s →
        OfOneChat s.bindings → s.ShowsBound (messageCells Image (some uid)) (MessageCell.Shows uid))
      ∧ (∀ es s, BoundView.run (userInfoCells isURL contents) es = some s →
        s.fetches = [] →
        (s.ShowsBound (userInfoCells isURL contents) UserInfoCell.Shows
          ↔ BoundView.OwnArrivesLast (userInfoCells isURL contents) es)) := by
  refine ⟨?_, ?_, ?_⟩
  . intro es s hrun hchat hrest
    apply BoundView.exec_showsBound_iff hrun hrest
    intro chatMessage hlast
    exact ImageCell.shows_of_last hchat hlast
  . intro es s hrun hchat
    apply BoundView.exec_showsBound_of_no_content (fun _ => rfl) hrun
    intro chatMessage hlast
    exact MessageCell.shows_of_last hchat hlast
  . intro es s hrun hrest
    apply BoundView.exec_showsBound_iff hrun hrest
    intro user hlast
    rcases List.getLast?_eq_some_iff.mp hlast with ⟨earlier, husers⟩
    rw [husers, List.foldl_concat]
    exact ⟨rfl⟩

-- a photo that Bob has sent to Ann
def bobsPhoto (url : String) : ChatMessage :=
  ⟨⟨url, []⟩, ⟨"ab", "b", "a", "look", 1, some url, false⟩, none⟩

def inOrderPhotos : List (BoundView.Event ChatMessage) :=
  [.bind (bobsPhoto "p0"), .bind (bobsPhoto "p1"), .arrives 0, .arrives 1]

theorem showsBound_iff_ownArrivesLast_inOrderPhotos
    : ∃ s, BoundView.run (imageCells (some "a") (fun _ => true) (fun url => url)) inOrderPhotos = some s
        ∧ s.fetches = []
        ∧ s.ShowsBound (imageCells (some "a") (fun _ => true) (fun url => url))
            (ImageCell.Shows "a") := by
  have hiff := (showsBound_iff_ownArrivesLast "a" (fun _ => true) (fun url => url)).left
    inOrderPhotos _ rfl ⟨false, by decide⟩ rfl
  refine ⟨_, rfl, rfl, hiff.mpr ?_⟩
  intro chatMessage hlast binding harrived
  injection hlast with hlast
  injection harrived with harrived
  rw [← hlast, ← harrived]
  rfl

-- The reply of an earlier binding comes last.
def overtakenPhotos : List (BoundView.Event ChatMessage) :=
  [.bind (bobsPhoto "p0"), .bind (bobsPhoto "p1"), .arrives 1, .arrives 0]

theorem not_showsBound
    : ¬∀ (uid : DocumentID) (isURL : String → Bool) (contents : String → String)
        (es : List (BoundView.Event ChatMessage)) (s : BoundView ChatMessage ImageCell String),
        BoundView.run (imageCells (some uid) isURL contents) es = some s → OfOneChat s.bindings →
        s.fetches = [] →
        s.ShowsBound (imageCells (some uid) isURL contents) (ImageCell.Shows uid) := by
  intro h
  have hshows := h "a" (fun _ => true) (fun url => url) overtakenPhotos _ rfl ⟨false, by decide⟩ rfl
    (bobsPhoto "p1") rfl
  exact absurd (hshows.right.fetched (by decide)) (by decide)

end ChatApplication
