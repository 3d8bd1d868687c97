import ChatApplication.API.DatabaseManager
import ChatApplication.Machine.Basic

/-!
This module contains the navigation stack while groups are created. `CreateGroupController` edits
the stack in the completion of an upload, and the user goes on navigating until then.
-/

namespace ChatApplication

structure CreateGroupController (Image : Type u) where
  -- `profileImage.image`
  profileImage : Option Image
  -- `groupNameTextField.text`
  groupName : String
  deriving DecidableEq, Repr

-- an upload that `createGroup` has started, with the variables its completion handler captures
structure GroupUpload (Data : Type u) where
  imageData : Data
  -- `self`
  controller : Nat
  uid : DocumentID
  groupName : String
  usersId : String
  selectedUsers : List User
  deriving DecidableEq, Repr

inductive ViewController where
  | conversation
  -- a `CreateGroupController`, by its position in `NavigationController.createGroupControllers`
  | createGroup (controller : Nat)
  -- with check boxes if there is a `delgate`
  | selectUsers (delgate : Option Nat)
  | chat (user : User)
  | image
  deriving DecidableEq, Repr

structure NavigationController (Image : Type u) (Data : Type v) where
  -- the bottom first
  viewControllers : List ViewController
  -- all such objects so far, those that are not on the stack any more included
  createGroupControllers : List (CreateGroupController Image)
  -- the uploads whose completion is not called yet
  uploads : List (GroupUpload Data)
  auth : Option DocumentID
  -- a forced unwrap or a `removeLast` has crashed the app
  trapped : Bool
  deriving DecidableEq, Repr

namespace CreateGroupController

variable {Image : Type u} {Data : Type v}

-- Without PNG data `uploadImage` returns before it starts an upload.
def createGroup (pngData : Image → Option Data) (auth : Option DocumentID)
    (c : CreateGroupController Image) (controller : Nat) (usersId : String)
    (selectedUsers : List User) : List (GroupUpload Data) :=
  match auth, c.profileImage.bind pngData with
  | some uid, some imageData =>
    if c.groupName = "" then
      []
    else
      [⟨imageData, controller, uid, c.groupName, usersId, selectedUsers⟩]
  | _, _ => []

end CreateGroupController

namespace NavigationController

inductive Action (Image : Type u) where
  | createGroup
  | selectContactTapped
  | presentImage
  | didSelectItem (user : User)
  | type (groupName : String)
  | pick (editedImage : Option Image)
  | selectContacts
  -- Done, with the users whose boxes are checked
  | contactsSelected (selectedUsers : List User)
  deriving DecidableEq, Repr

inductive Event (Image : Type u) where
  -- something that the screen in front offers
  | action (action : Action Image)
  | back
  | authStateChanged (auth : Option DocumentID)
  | uploadCompleted (i : Nat) (uuid url : String) (date now : Date)
  deriving DecidableEq, Repr

variable {Image : Type u} {Data : Type v}

-- the conversation screen, and above it the screen that creates groups
def init (placeholder : Image) (auth : Option DocumentID) : NavigationController Image Data :=
  {
    viewControllers := [.conversation, .createGroup 0]
    createGroupControllers := [⟨some placeholder, ""⟩]
    uploads := []
    auth := auth
    trapped := false
  }

def pushViewController (s : NavigationController Image Data) (viewController : ViewController)
    : NavigationController Image Data :=
  { s with viewControllers := s.viewControllers ++ [viewController] }

def setViewControllers (s : NavigationController Image Data) (vcArray : Option (List ViewController))
    : NavigationController Image Data :=
  match vcArray with
  | some vcArray => { s with viewControllers := vcArray }
  | none => { s with trapped := true }

def removeLast (vcArray : List ViewController) : Option (List ViewController) :=
  if vcArray = [] then none else some vcArray.dropLast

-- `navigationController?.viewControllers` of a screen, `none` if it is not on the stack
def stackOf (viewControllers : List ViewController) (viewController : ViewController)
    : Option (List ViewController) :=
  if viewController ∈ viewControllers then some viewControllers else none

-- `delgate` is weak. The stack and the completion handlers of uploads keep the object.
def isAlive (s : NavigationController Image Data) (controller : Nat) : Bool :=
  .createGroup controller ∈ s.viewControllers
    ∨ ∃ upload ∈ s.uploads, upload.controller = controller

-- `usersId` of `getSelectedContacts`
def usersId (selectedUsers : List User) : String :=
  selectedUsers.foldl (fun usersId user => usersId ++ user.uid) ""

def perform (pngData : Image → Option Data) (placeholder : Image)
    (s : NavigationController Image Data)
    : ViewController → Action Image → Option (NavigationController Image Data)
  | .conversation, .createGroup =>
    let controller := s.createGroupControllers.length
    some (pushViewController
      { s with createGroupControllers := s.createGroupControllers ++ [⟨some placeholder, ""⟩] }
      (.createGroup controller))
  | .conversation, .selectContactTapped => some (s.pushViewController (.selectUsers none))
  | .conversation, .presentImage => some (s.pushViewController .image)
  | .conversation, .didSelectItem user => some (s.pushViewController (.chat user))
  | .createGroup controller, .type groupName =>
    some {
      s with
      createGroupControllers := s.createGroupControllers.modify controller
        (fun c => { c with groupName := groupName })
    }
  | .createGroup controller, .pick editedImage =>
    match editedImage with
    | some image =>
      some {
        s with
        createGroupControllers := s.createGroupControllers.modify controller
          (fun c => { c with profileImage := some image })
      }
    | none => some s
  | .createGroup controller, .selectContacts =>
    match s.createGroupControllers[controller]? with
    | some c =>
      if c.groupName = "" then
        some s
      else
        some (s.pushViewController (.selectUsers (some controller)))
    | none => none
  | .selectUsers delgate, .didSelectItem user =>
    let vcArray := stackOf s.viewControllers (.selectUsers delgate)
    some (s.setViewControllers ((vcArray.bind removeLast).map (fun vcArray => vcArray ++ [.chat user])))
  | .selectUsers (some controller), .contactsSelected selectedUsers =>
    match s.createGroupControllers[controller]? with
    | some c =>
      if s.isAlive controller then
        let uploads := c.createGroup pngData s.auth controller (usersId selectedUsers) selectedUsers
        some { s with uploads := s.uploads ++ uploads }
      else
        some s
    | none => none
  | _, _ => none

-- what the completion handler of `createGroup` makes of the stack
def showGroup (viewControllers : List ViewController) (controller : Nat) (user : User)
    : Option (List ViewController) :=
  (((stackOf viewControllers (.createGroup controller)).bind removeLast).bind removeLast).map
    (fun vcArray => vcArray ++ [.chat user])

def step (pngData : Image → Option Data) (placeholder : Image)
    (s : NavigationController Image Data) (e : Event Image)
    : Option (NavigationController Image Data) :=
  if s.trapped then
    none
  else
    match e with
    | .action action =>
      match s.viewControllers.getLast? with
      | some viewController => s.perform pngData placeholder viewController action
      | none => none
    | .back =>
      if 1 < s.viewControllers.length then
        some { s with viewControllers := s.viewControllers.dropLast }
      else
        none
    | .authStateChanged auth => some { s with auth := auth }
    | .uploadCompleted i uuid url date now =>
      match s.uploads[i]? with
      | some upload =>
        match User.init now (User.values (uuid ++ upload.uid ++ upload.usersId) upload.groupName ""
          "" url date true) with
        | some user =>
          some (setViewControllers { s with uploads := s.uploads.eraseIdx i }
            (showGroup s.viewControllers upload.controller user))
        | none => none
      | none => none

end NavigationController

def navigation {Image : Type u} {Data : Type v} (pngData : Image → Option Data)
    (placeholder : Image)
    : Machine (NavigationController Image Data) (NavigationController.Event Image) :=
  ⟨NavigationController.step pngData placeholder⟩

namespace NavigationController

variable {Image : Type u} {Data : Type v} {pngData : Image → Option Data} {placeholder : Image}

theorem usersId_concat (selectedUsers : List User) (user : User)
    : usersId (selectedUsers ++ [user]) = usersId selectedUsers ++ user.uid := by
  unfold usersId
  rw [List.foldl_append]
  rfl

-- The app is still running, with the conversation screen at the bottom.
def Survives (s : NavigationController Image Data) : Prop :=
  s.trapped = false ∧ s.viewControllers.head? = some .conversation

instance (s : NavigationController Image Data) : Decidable s.Survives :=
  inferInstanceAs (Decidable (_ ∧ _))

def Covered (viewControllers : List ViewController) (controller : Nat) : Prop :=
  .createGroup controller ∈ viewControllers
    ∧ viewControllers.getLast? ≠ some (.createGroup controller)

-- An upload completes only while another screen is on top of the screen that has started it.
def CompletesCovered (s : NavigationController Image Data) : Event Image → Prop
  | .uploadCompleted i _ _ _ _ =>
    ∀ upload ∈ s.uploads[i]?, Covered s.viewControllers upload.controller
  | _ => True

instance (viewControllers : List ViewController) (controller : Nat)
    : Decidable (Covered viewControllers controller) :=
  inferInstanceAs (Decidable (_ ∧ _))

instance (s : NavigationController Image Data) (e : Event Image)
    : Decidable (s.CompletesCovered e) := by
  unfold CompletesCovered
  split
  all_goals infer_instance

-- all stacks that the screens lead to
inductive Opened : List ViewController → Prop where
  | conversation : Opened [.conversation]
  | chat (user : User) : Opened [.conversation, .chat user]
  | image : Opened [.conversation, .image]
  | selectUsers : Opened [.conversation, .selectUsers none]
  | createGroup (controller : Nat) : Opened [.conversation, .createGroup controller]
  | members (controller : Nat)
    : Opened [.conversation, .createGroup controller, .selectUsers (some controller)]
  | member (controller : Nat) (user : User)
    : Opened [.conversation, .createGroup controller, .chat user]

theorem Opened.head? {viewControllers : List ViewController} (h : Opened viewControllers)
    : viewControllers.head? = some .conversation := by
  cases h
  all_goals rfl

theorem Opened.dropLast {viewControllers : List ViewController} (h : Opened viewControllers)
    (hlength : 1 < viewControllers.length) : Opened viewControllers.dropLast := by
  cases h with
  | conversation => simp at hlength
  | members controller => exact Opened.createGroup controller
  | member controller user => exact Opened.createGroup controller
  | chat | image | selectUsers | createGroup => exact Opened.conversation

-- what the screens do with the stack that they are on
inductive Navigates (viewControllers : List ViewController)
    : ViewController → List ViewController → Prop where
  | stays (viewController : ViewController) : Navigates viewControllers viewController viewControllers
  | opens (opened : ViewController) (h : Opened [.conversation, opened])
    : Navigates viewControllers .conversation (viewControllers ++ [opened])
  | selects (controller : Nat)
    : Navigates viewControllers (.createGroup controller)
        (viewControllers ++ [.selectUsers (some controller)])
  | replaces (delgate : Option Nat) (user : User)
    : Navigates viewControllers (.selectUsers delgate) (viewControllers.dropLast ++ [.chat user])

theorem navigates_perform {s s' : NavigationController Image Data} {viewController : ViewController}
    {action : Action Image} (hmem : viewController ∈ s.viewControllers)
    (h : s.perform pngData placeholder viewController action = some s')
    : Navigates s.viewControllers viewController s'.viewControllers ∧ s'.trapped = s.trapped := by
  unfold perform at h
  split at h
  . injection h with h
    rw [← h]
    exact ⟨Navigates.opens _ (Opened.createGroup _), rfl⟩
  . injection h with h
    rw [← h]
    exact ⟨Navigates.opens _ Opened.selectUsers, rfl⟩
  . injection h with h
    rw [← h]
    exact ⟨Navigates.opens _ Opened.image, rfl⟩
  . injection h with h
    rw [← h]
    exact ⟨Navigates.opens _ (Opened.chat _), rfl⟩
  . injection h with h
    rw [← h]
    exact ⟨Navigates.stays _, rfl⟩
  . split at h
    all_goals
      injection h with h
      rw [← h]
      exact ⟨Navigates.stays _, rfl⟩
  . split at h
    . split at h
      all_goals
        injection h with h
        rw [← h]
      . exact ⟨Navigates.stays _, rfl⟩
      . exact ⟨Navigates.selects _, rfl⟩
    . contradiction
  . injection h with h
    have hne := List.ne_nil_of_mem hmem
    simp only [stackOf, removeLast, hmem, hne, if_true, if_false, Option.bind_some,
      Option.map_some] at h
    rw [← h]
    exact ⟨Navigates.replaces _ _, rfl⟩
  . split at h
    . split at h
      all_goals
        injection h with h
        rw [← h]
        exact ⟨Navigates.stays _, rfl⟩
    . contradiction
  . contradiction

theorem Opened.navigates {viewControllers viewControllers' : List ViewController}
    (h : Opened viewControllers) {viewController : ViewController}
    (hlast : viewControllers.getLast? = some viewController)
    (hnavigates : Navigates viewControllers viewController viewControllers')
    : Opened viewControllers' := by
  cases hnavigates with
  | stays => exact h
  | opens opened hopened =>
    cases h with
    | conversation => exact hopened
    | _ => simp at hlast
  | selects controller =>
    cases h with
    | createGroup controller' =>
      simp only [List.getLast?_cons_cons, List.getLast?_singleton, Option.some.injEq,
        ViewController.createGroup.injEq] at hlast
      rw [hlast]
      exact Opened.members controller
    | _ => simp at hlast
  | replaces delgate user =>
    cases h with
    | selectUsers => exact Opened.chat user
    | members controller => exact Opened.member controller user
    | _ => simp at hlast

theorem showGroup_of_covered {viewControllers : List ViewController} (h : Opened viewControllers)
    {controller : Nat} (hcovered : Covered viewControllers controller) (user : User)
    : showGroup viewControllers controller user = some [.conversation, .chat user] := by
  rcases hcovered with ⟨hmem, hlast⟩
  unfold showGroup stackOf
  rw [if_pos hmem]
  cases h with
  | members | member => rfl
  | createGroup controller' =>
    simp only [List.mem_cons, List.not_mem_nil, or_false, false_or, reduceCtorEq] at hmem
    rw [hmem] at hlast
    contradiction
  | _ => simp at hmem

theorem covered_of_showGroup {viewControllers vcArray : List ViewController}
    (h : Opened viewControllers) {controller : Nat} {user : User}
    (hshow : showGroup viewControllers controller user = some vcArray)
    (hbottom : vcArray.head? = some .conversation) : Covered viewControllers controller := by
  unfold showGroup stackOf at hshow
  split at hshow
  . next hmem =>
    refine ⟨hmem, ?_⟩
    intro hlast
    cases h with
    | createGroup controller' =>
      simp only [removeLast, Option.bind_some, List.dropLast, reduceCtorEq, if_false, Option.map_some,
        List.nil_append, Option.some.injEq] at hshow
      rw [← hshow, List.head?_cons] at hbottom
      injection hbottom with hbottom
      contradiction
    | _ => simp at hlast
  . contradiction

theorem step_uploadCompleted {s s' : NavigationController Image Data} {i : Nat} {uuid url : String}
    {date now : Date}
    (h : (navigation pngData placeholder).step s (.uploadCompleted i uuid url date now) = some s')
    : s.trapped = false
        ∧ ∃ upload user, s.uploads[i]? = some upload
          ∧ s' = setViewControllers { s with uploads := s.uploads.eraseIdx i }
              (showGroup s.viewControllers upload.controller user) := by
  simp only [navigation, step, User.init_values] at h
  split at h
  . contradiction
  . next htrapped =>
    split at h
    . next upload hupload =>
      injection h with h
      exact ⟨by simpa using htrapped, upload, _, hupload, h.symm⟩
    . contradiction

-- the invariant: the app is running and shows one of the stacks above
structure Running (s : NavigationController Image Data) : Prop where
  trapped : s.trapped = false
  opened : Opened s.viewControllers

theorem running_init (auth : Option DocumentID)
    : Running (init placeholder auth : NavigationController Image Data) := by
  constructor
  case trapped => rfl
  case opened => exact Opened.createGroup 0

theorem Running.survives {s : NavigationController Image Data} (hs : s.Running) : s.Survives :=
  ⟨hs.trapped, hs.opened.head?⟩

theorem running_step {s s' : NavigationController Image Data} {e : Event Image} (hs : s.Running)
    (hstep : (navigation pngData placeholder).step s e = some s') (hcovered : s.CompletesCovered e)
    : s'.Running := by
  cases e with
  | action action =>
    simp only [navigation, step, hs.trapped] at hstep
    split at hstep
    . contradiction
    . split at hstep
      . next viewController hlast =>
        rcases navigates_perform (List.mem_of_getLast? hlast) hstep with ⟨hnavigates, htrapped⟩
        constructor
        case trapped => rw [htrapped, hs.trapped]
        case opened => exact hs.opened.navigates hlast hnavigates
      . contradiction
  | back =>
    simp only [navigation, step, hs.trapped] at hstep
    split at hstep
    . contradiction
    . split at hstep
      . next hlength =>
        injection hstep with hstep
        rw [← hstep]
        constructor
        case trapped => rfl
        case opened => exact hs.opened.dropLast hlength
      . contradiction
  | authStateChanged auth =>
    simp only [navigation, step, hs.trapped] at hstep
    split at hstep
    . contradiction
    . injection hstep with hstep
      rw [← hstep]
      constructor
      case trapped => rfl
      case opened => exact hs.opened
  | uploadCompleted i uuid url date now =>
    rcases step_uploadCompleted hstep with ⟨_, upload, user, hupload, hs'⟩
    rw [showGroup_of_covered hs.opened (hcovered upload hupload)] at hs'
    rw [hs']
    constructor
    case trapped => exact hs.trapped
    case opened => exact Opened.chat user

theorem completesCovered_of_survives {s s' : NavigationController Image Data} {e : Event Image}
    (hs : s.Running) (hstep : (navigation pngData placeholder).step s e = some s')
    (hsurvives : s'.Survives) : s.CompletesCovered e := by
  cases e with
  | uploadCompleted i uuid url date now =>
    rcases step_uploadCompleted hstep with ⟨_, upload, user, hupload, hs'⟩
    intro upload' hupload'
    rw [hupload, Option.mem_some_iff] at hupload'
    rw [← hupload']
    cases hshow : showGroup s.viewControllers upload.controller user with
    | none =>
      rw [hs', hshow] at hsurvives
      exact absurd hsurvives.left (by simp [setViewControllers])
    | some vcArray =>
      rw [hs', hshow] at hsurvives
      exact covered_of_showGroup hs.opened hshow hsurvives.right
  | action | back | authStateChanged => trivial

theorem survives_iff_completesCovered (pngData : Image → Option Data) (placeholder : Image)
    (auth : Option DocumentID) (es : List (Event Image))
    : (navigation pngData placeholder).Meets (fun _ _ s' => s'.Survives) (init placeholder auth) es
        ↔
      (navigation pngData placeholder).Meets (fun s e _ => s.CompletesCovered e)
        (init placeholder auth) es := by
  apply Machine.meets_congr _ _ (running_init auth)
  . intro s e s' hs hstep hsurvives
    exact running_step hs hstep (completesCovered_of_survives hs hstep hsurvives)
  . intro s e s' hs hstep
    constructor
    . exact completesCovered_of_survives hs hstep
    . intro hcovered
      exact (running_step hs hstep hcovered).survives

-- The network is slow, and Done is pressed a second time before the first picture is uploaded.
def pressedTwice : List (Event Nat) :=
  [
    .action (.type "Group"), .action .selectContacts, .action (.contactsSelected []),
    .action (.contactsSelected []), .uploadCompleted 0 "U" "p1" 1 1, .uploadCompleted 0 "V" "p2" 2 2
  ]

theorem not_survives
    : ¬∀ (pngData : Nat → Option Nat) (placeholder : Nat) (auth : Option DocumentID)
        (es : List (Event Nat)),
        (navigation pngData placeholder).Meets (fun _ _ s' => s'.Survives)
          (init placeholder auth) es := by
  intro h
  exact absurd (h some 0 (some "a") pressedTwice) (by decide)

end NavigationController

end ChatApplication
