import ChatApplication.Controller.ConversationViewController
import ChatApplication.Controller.SelectUsersViewController
import ChatApplication.Data.Positions

/-!
This module contains the rows of the conversation screen. A cell gets its labels from a block that
goes through a global queue and the main queue, and finds the cell by its row when it is run.
-/

namespace ChatApplication

-- how dates are counted and written on the device
structure DeviceCalendar where
  -- the days between the date and `now`
  calculateDays : (now : Date) → Timestamp → Int
  getFormattedDate : (format : String) → Timestamp → String

structure ConversationCell (Image : Type u) where
  -- `nameLabel.text`
  nameLabel : Option String
  -- `messageLabel.text`
  messageLabel : String
  -- `timeLabel.text`
  timeLabel : String
  -- `profileImageView.image`, `none` is the placeholder "person.fill"
  profileImageView : Option Image
  checkBox : CheckBox
  profilePadding : Nat
  deriving DecidableEq, Repr

namespace ConversationCell

variable {Image : Type u}

def new : ConversationCell Image :=
  {
    nameLabel := none
    messageLabel := ""
    timeLabel := ""
    profileImageView := none
    checkBox := ⟨false, false⟩
    profilePadding := 0
  }

-- what `setup(user:message:indexPath:)` makes of the cell, up to the download
def setup (calendar : DeviceCalendar) (now : Date) (user : RecentUser)
    (cell : ConversationCell Image) : ConversationCell Image :=
  let cell := {
    cell with
    nameLabel := some (user.user.firstName ++ " " ++ user.user.lastName)
    profileImageView := none
  }
  match user.recentMessage with
  | none => { cell with messageLabel := " ", timeLabel := " " }
  | some message =>
    let time :=
      if calendar.calculateDays now message.timestamp > 0 then
        calendar.getFormattedDate "MM/dd/yyyy" message.timestamp
      else
        calendar.getFormattedDate "HH:mm" message.timestamp
    { cell with messageLabel := message.text, timeLabel := time }

end ConversationCell

inductive CellPlace where
  | reusePool
  -- asked for, but not on the screen yet, or not any more
  | offScreen (row : Nat)
  | onScreen (row : Nat)
  deriving DecidableEq, Repr

def CellPlace.row? : CellPlace → Option Nat
  | .reusePool => none
  | .offScreen row | .onScreen row => some row

structure RowCell (Image : Type u) where
  cell : ConversationCell Image
  place : CellPlace
  deriving DecidableEq, Repr

-- the inner block of `collectionView(_:cellForItemAt:)` with the variables that it captures
structure SetupBlock where
  user : UserRef
  row : Nat
  deriving DecidableEq, Repr

inductive MainBlock where
  | reloadData
  | setup (block : SetupBlock)
  deriving DecidableEq, Repr

-- a `downloadImage` of `setup`, the cell is captured
structure CellDownload where
  cell : Option Nat
  url : String
  deriving DecidableEq, Repr

-- the conversation screen with its `collectionView`
structure ConversationRows (Image : Type u) where
  controller : ConversationViewController
  showCheckBox : Bool
  -- a concurrent queue
  globalQueue : List SetupBlock
  -- the first block first
  mainQueue : List MainBlock
  -- what the view was told the last time, `none` before its first layout
  numberOfItems : Option Nat
  cells : List (RowCell Image)
  downloads : List CellDownload

-- the `User` object behind a reference
def ConversationViewController.object (s : ConversationViewController) (ref : UserRef)
    : Option RecentUser :=
  ((s.generations ref.owner)[ref.generation]?).bind (fun generation =>
    generation.users[ref.position]?)

namespace ConversationRows

variable {Image : Type u}

inductive Event (Image : Type u) where
  | controller (e : ConversationViewController.Event)
  -- `RegisterViewController` has no delegate that would configure the screen.
  | signup (uid : DocumentID)
  | firstLayout
  -- the view makes a cell of the registered class
  | newCell
  | cellForItemAt (row cell : Nat)
  | willDisplay (cell : Nat)
  | didEndDisplaying (cell : Nat)
  | enqueueReusableCell (cell : Nat)
  -- a block of the global queue is run, whichever it is
  | globalBlock (i : Nat)
  -- the first block of the main queue is run
  | mainBlock (now : Date)
  | imageDownloaded (i : Nat) (image : Image)

def launch (auth : Option DocumentID) : ConversationRows Image :=
  {
    controller := ConversationViewController.launch auth
    showCheckBox := false
    globalQueue := []
    mainQueue := []
    numberOfItems := none
    cells := []
    downloads := []
  }

-- `recentUsers[row]`, whose chat `collectionView(_:didSelectItemAt:)` opens
def userAt (s : ConversationRows Image) (row : Nat) : Option RecentUser :=
  s.controller.recentUsers[row]?.bind s.controller.object

-- `configureUI` makes another view after a login, `recentUsers` is published by a reply.
def notify (s : ConversationRows Image) : ConversationViewController.Event → ConversationRows Image
  | .login _ => { s with numberOfItems := none, cells := [] }
  | .reply _ _ _ _ _ => { s with mainQueue := s.mainQueue ++ [.reloadData] }
  | _ => s

-- All cells are released.
def reloadData (s : ConversationRows Image) : ConversationRows Image :=
  {
    s with
    numberOfItems := some s.controller.recentUsers.length
    cells := s.cells.map (fun cell => { cell with place := .reusePool })
  }

-- `cellForItem(at:)`
def cellForItem (s : ConversationRows Image) (row : Nat) : Option Nat :=
  s.cells.findIdx? (fun cell => cell.place = .onScreen row)

def setup (calendar : DeviceCalendar) (now : Date) (s : ConversationRows Image) (user : RecentUser)
    (row : Nat) : ConversationRows Image :=
  let cell := s.cellForItem row
  {
    s with
    cells :=
      match cell with
      | some i =>
        s.cells.modify i (fun cell => { cell with cell := cell.cell.setup calendar now user })
      | none => s.cells
    downloads := s.downloads ++ [⟨cell, user.user.profileImageUrl⟩]
  }

-- what `collectionView(_:cellForItemAt:)` does to the cell at once
def prepare (s : ConversationRows Image) (cell : ConversationCell Image) : ConversationCell Image :=
  if s.showCheckBox then
    { cell with profilePadding := 55, checkBox := { cell.checkBox with isHidden := false } }
  else
    { cell with profilePadding := 5, checkBox := { cell.checkBox with isHidden := true } }

def setCell (s : ConversationRows Image) (i : Nat) (cell : RowCell Image) : ConversationRows Image :=
  { s with cells := s.cells.set i cell }

def setImage (s : ConversationRows Image) (cell : Option Nat) (image : Image)
    : ConversationRows Image :=
  {
    s with
    cells :=
      match cell with
      | some i =>
        s.cells.modify i (fun cell =>
          { cell with cell := { cell.cell with profileImageView := some image } })
      | none => s.cells
  }

def step (calendar : DeviceCalendar) (s : ConversationRows Image)
    : Event Image → Option (ConversationRows Image)
  | .controller e =>
    match conversations.step s.controller e with
    | some controller => some ({ s with controller := controller }.notify e)
    | none => none
  | .signup uid =>
    match conversations.step s.controller (.login uid) with
    | some controller => some { s with controller := controller }
    | none => none
  | .firstLayout =>
    if s.numberOfItems = none then
      some { s with numberOfItems := some s.controller.recentUsers.length }
    else
      none
  | .newCell => some { s with cells := s.cells ++ [⟨ConversationCell.new, .reusePool⟩] }
  | .cellForItemAt row i =>
    match s.numberOfItems, s.cells[i]?, s.controller.recentUsers[row]? with
    | some numberOfItems, some ⟨cell, .reusePool⟩, some user =>
      if row < numberOfItems ∧ ∀ other ∈ s.cells, other.place.row? ≠ some row then
        some {
          s.setCell i ⟨s.prepare cell, .offScreen row⟩ with
          globalQueue := s.globalQueue ++ [⟨user, row⟩]
        }
      else
        none
    | _, _, _ => none
  | .willDisplay i =>
    match s.cells[i]? with
    | some ⟨cell, .offScreen row⟩ => some (s.setCell i ⟨cell, .onScreen row⟩)
    | _ => none
  | .didEndDisplaying i =>
    match s.cells[i]? with
    | some ⟨cell, .onScreen row⟩ => some (s.setCell i ⟨cell, .offScreen row⟩)
    | _ => none
  | .enqueueReusableCell i =>
    match s.cells[i]? with
    | some ⟨cell, .offScreen _⟩ => some (s.setCell i ⟨cell, .reusePool⟩)
    | _ => none
  | .globalBlock i =>
    match s.globalQueue[i]? with
    | some block =>
      some {
        s with
        globalQueue := s.globalQueue.eraseIdx i
        mainQueue := s.mainQueue ++ [.setup block]
      }
    | none => none
  | .mainBlock now =>
    match s.mainQueue with
    | .reloadData :: mainQueue => some { s with mainQueue := mainQueue }.reloadData
    | .setup block :: mainQueue =>
      match s.controller.object block.user with
      | some user => some ({ s with mainQueue := mainQueue }.setup calendar now user block.row)
      | none => none
    | [] => none
  | .imageDownloaded i image =>
    match s.downloads[i]? with
    | some download =>
      some ({ s with downloads := s.downloads.eraseIdx i }.setImage download.cell image)
    | none => none

end ConversationRows

def conversationRows {Image : Type u} (calendar : DeviceCalendar)
    : Machine (ConversationRows Image) (ConversationRows.Event Image) :=
  ⟨ConversationRows.step calendar⟩

namespace ConversationRows

variable {Image : Type u} {calendar : DeviceCalendar} {s s' : ConversationRows Image}

theorem step_controller {e : ConversationViewController.Event}
    (h : (conversationRows calendar).step s (.controller e) = some s')
    : ∃ controller, conversations.step s.controller e = some controller
        ∧ s' = { s with controller := controller }.notify e := by
  simp only [conversationRows, step] at h
  split at h
  . next controller hcontroller =>
    injection h with h
    exact ⟨controller, hcontroller, h.symm⟩
  . contradiction

theorem step_signup {uid : DocumentID}
    (h : (conversationRows calendar).step s (.signup uid) = some s')
    : ∃ controller, conversations.step s.controller (.login uid) = some controller
        ∧ s' = { s with controller := controller } := by
  simp only [conversationRows, step] at h
  split at h
  . next controller hcontroller =>
    injection h with h
    exact ⟨controller, hcontroller, h.symm⟩
  . contradiction

theorem step_firstLayout (h : (conversationRows calendar).step s .firstLayout = some s')
    : s' = { s with numberOfItems := some s.controller.recentUsers.length } := by
  simp only [conversationRows, step] at h
  split at h
  . injection h with h
    exact h.symm
  . contradiction

theorem step_cellForItemAt {row i : Nat}
    (h : (conversationRows calendar).step s (.cellForItemAt row i) = some s')
    : ∃ cell user, s.cells[i]? = some ⟨cell, .reusePool⟩
        ∧ (∀ other ∈ s.cells, other.place.row? ≠ some row)
        ∧ s' = {
            s.setCell i ⟨s.prepare cell, .offScreen row⟩ with
            globalQueue := s.globalQueue ++ [⟨user, row⟩]
          } := by
  simp only [conversationRows, step] at h
  split at h
  . next numberOfItems cell user _ hcell _ =>
    split at h
    . next hguard =>
      injection h with h
      exact ⟨cell, user, hcell, hguard.right, h.symm⟩
    . contradiction
  . contradiction

theorem step_willDisplay {i : Nat} (h : (conversationRows calendar).step s (.willDisplay i) = some s')
    : ∃ cell row, s.cells[i]? = some ⟨cell, .offScreen row⟩
        ∧ s' = s.setCell i ⟨cell, .onScreen row⟩ := by
  simp only [conversationRows, step] at h
  split at h
  . next cell row hcell =>
    injection h with h
    exact ⟨cell, row, hcell, h.symm⟩
  . contradiction

theorem step_didEndDisplaying {i : Nat}
    (h : (conversationRows calendar).step s (.didEndDisplaying i) = some s')
    : ∃ cell row, s.cells[i]? = some ⟨cell, .onScreen row⟩
        ∧ s' = s.setCell i ⟨cell, .offScreen row⟩ := by
  simp only [conversationRows, step] at h
  split at h
  . next cell row hcell =>
    injection h with h
    exact ⟨cell, row, hcell, h.symm⟩
  . contradiction

theorem step_enqueueReusableCell {i : Nat}
    (h : (conversationRows calendar).step s (.enqueueReusableCell i) = some s')
    : ∃ cell row, s.cells[i]? = some ⟨cell, .offScreen row⟩
        ∧ s' = s.setCell i ⟨cell, .reusePool⟩ := by
  simp only [conversationRows, step] at h
  split at h
  . next cell row hcell =>
    injection h with h
    exact ⟨cell, row, hcell, h.symm⟩
  . contradiction

theorem step_globalBlock {i : Nat} (h : (conversationRows calendar).step s (.globalBlock i) = some s')
    : ∃ block, s.globalQueue[i]? = some block
        ∧ s' = {
            s with
            globalQueue := s.globalQueue.eraseIdx i
            mainQueue := s.mainQueue ++ [.setup block]
          } := by
  simp only [conversationRows, step] at h
  split at h
  . next block hblock =>
    injection h with h
    exact ⟨block, hblock, h.symm⟩
  . contradiction

theorem step_mainBlock {now : Date} (h : (conversationRows calendar).step s (.mainBlock now) = some s')
    : (∃ mainQueue, s.mainQueue = .reloadData :: mainQueue
        ∧ s' = { s with mainQueue := mainQueue }.reloadData)
      ∨ ∃ block mainQueue user, s.mainQueue = .setup block :: mainQueue
          ∧ s.controller.object block.user = some user
          ∧ s' = { s with mainQueue := mainQueue }.setup calendar now user block.row := by
  simp only [conversationRows, step] at h
  split at h
  . next mainQueue hqueue =>
    injection h with h
    exact Or.inl ⟨mainQueue, hqueue, h.symm⟩
  . next block mainQueue hqueue =>
    split at h
    . next user huser =>
      injection h with h
      exact Or.inr ⟨block, mainQueue, user, hqueue, huser, h.symm⟩
    . contradiction
  . contradiction

theorem step_imageDownloaded {i : Nat} {image : Image}
    (h : (conversationRows calendar).step s (.imageDownloaded i image) = some s')
    : ∃ download : CellDownload,
        s' = { s with downloads := s.downloads.eraseIdx i }.setImage download.cell image := by
  simp only [conversationRows, step] at h
  split at h
  . next download _ =>
    injection h with h
    exact ⟨download, h.symm⟩
  . contradiction

end ConversationRows

namespace ConversationCell

variable {Image : Type u}

def ShowsMessage (calendar : DeviceCalendar) (cell : ConversationCell Image) : Option Message → Prop
  | none => cell.messageLabel = " " ∧ cell.timeLabel = " "
  | some message =>
    cell.messageLabel = message.text
      ∧ (cell.timeLabel = calendar.getFormattedDate "MM/dd/yyyy" message.timestamp
        ∨ cell.timeLabel = calendar.getFormattedDate "HH:mm" message.timestamp)

instance (calendar : DeviceCalendar) (cell : ConversationCell Image)
    : (message : Option Message) → Decidable (cell.ShowsMessage calendar message)
  | none => inferInstanceAs (Decidable (_ ∧ _))
  | some _ => inferInstanceAs (Decidable (_ ∧ (_ ∨ _)))

def Shows (calendar : DeviceCalendar) (user : RecentUser) (cell : ConversationCell Image) : Prop :=
  cell.nameLabel = some (user.user.firstName ++ " " ++ user.user.lastName)
    ∧ cell.ShowsMessage calendar user.recentMessage

instance (calendar : DeviceCalendar) (user : RecentUser) (cell : ConversationCell Image)
    : Decidable (cell.Shows calendar user) :=
  inferInstanceAs (Decidable (_ ∧ _))

end ConversationCell

namespace ConversationRows

variable {Image : Type u}

-- No block is pending.
def Quiet (s : ConversationRows Image) : Prop :=
  s.globalQueue = [] ∧ s.mainQueue = []

instance (s : ConversationRows Image) : Decidable s.Quiet :=
  inferInstanceAs (Decidable (_ ∧ _))

def ShowsRows (calendar : DeviceCalendar) (s : ConversationRows Image) : Prop :=
  ∀ cell ∈ s.cells, ∀ row, cell.place = .onScreen row →
    ∃ user ∈ s.userAt row, cell.cell.Shows calendar user

end ConversationRows

end ChatApplication
