import ChatApplication.API.Firestore
import ChatApplication.Data.Positions
import ChatApplication.Machine.Basic

/-!
This module contains the screens through which users sign in: the conversation screen with the login
and register screens that are presented over it, and the requests to Firebase whose completions
dismiss them again. The question is whether `configureUI` has run whenever it is needed.
-/

namespace ChatApplication

structure LoginViewController where
  id : Nat
  -- `delegate` is the conversation screen
  delegate : Bool
  deriving DecidableEq, Repr

structure RegisterViewController where
  id : Nat
  delegate : Bool
  deriving DecidableEq, Repr

inductive Presented where
  | login (controller : LoginViewController)
  | register (controller : RegisterViewController)
  | forgotPassword
  -- an alert or an image picker
  | alert
  deriving DecidableEq, Repr

-- a run of `signup` whose last completion is not called yet
structure Signup where
  controller : RegisterViewController
  -- the account has been created, the picture is being uploaded
  uploading : Bool
  deriving DecidableEq, Repr

structure Authentication where
  auth : Option DocumentID
  -- `ConversationViewController.collectionView` is there
  collectionView : Bool
  -- `getRecentConversations` has been asked for the recent users of somebody
  listening : Bool
  -- how many screens are pushed on top of the conversation screen
  pushed : Nat
  -- what is presented over it, one over the other, the bottom first
  presented : List Presented
  -- how many login and register screens there have been
  controllers : Nat
  -- the unanswered calls of `logUserIn`
  logins : List LoginViewController
  signups : List Signup
  -- the calls of `presentLoginScreen` on the main queue
  loginPending : Nat
  -- an implicitly unwrapped nil has crashed the app
  trapped : Bool
  deriving DecidableEq, Repr

namespace Authentication

inductive ConversationEvent where
  | viewDidAppear
  | viewWillTransition
  -- the block of `viewDidAppear`, which a published list schedules
  | reloadData
  | push
  | pop
  -- the handler of the alert, `throws` if `signOut` does
  | logout (throws : Bool)
  | presentLoginScreen
  deriving DecidableEq, Repr

inductive PresentedEvent where
  | presentRegisterScreen
  | presentForgotPasswordScreen
  | presentAlert
  -- back from the screen in front, unless it is the login screen
  | dismiss
  -- the buttons Login and Signup, with valid input
  | loginButtonPressed
  | signup
  deriving DecidableEq, Repr

-- The `i`-th request of its kind is answered.
inductive Completion where
  | loginSucceeded (i : Nat) (uid : DocumentID)
  | loginFailed (i : Nat)
  | accountCreated (i : Nat) (uid : DocumentID)
  | imageUploaded (i : Nat)
  | signupFailed (i : Nat)
  deriving DecidableEq, Repr

inductive Event where
  | conversation (e : ConversationEvent)
  | presented (e : PresentedEvent)
  | completion (e : Completion)
  deriving DecidableEq, Repr

def inFront (s : Authentication) : Bool :=
  s.pushed = 0 ∧ s.presented = []

def presentLoginScreen (s : Authentication) : Authentication :=
  {
    s with
    presented := s.presented ++ [.login ⟨s.controllers, true⟩]
    controllers := s.controllers + 1
  }

-- `presentRegisterScreen` does not set the delegate
def presentRegisterScreen (s : Authentication) : Authentication :=
  {
    s with
    presented := s.presented ++ [.register ⟨s.controllers, false⟩]
    controllers := s.controllers + 1
  }

-- `isLoggedIn`
def launch (auth : Option DocumentID) : Authentication :=
  let s : Authentication := {
    auth := auth
    collectionView := false
    listening := false
    pushed := 0
    presented := []
    controllers := 0
    logins := []
    signups := []
    loginPending := 0
    trapped := false
  }
  match auth with
  | none => s.presentLoginScreen
  | some _ => { s with collectionView := true }

-- `delegate?.authenticationDidComplete()`
def authenticationDidComplete (s : Authentication) (delegate : Bool) : Authentication :=
  if delegate then { s with collectionView := true } else s

-- `dismiss` of a screen takes away what is presented over it, or itself if there is nothing
def dismiss (presented : List Presented) (screen : Presented) : List Presented :=
  if presented.getLast? = some screen then
    presented.dropLast
  else if screen ∈ presented then
    presented.takeWhile (fun below => below ≠ screen) ++ [screen]
  else
    presented

def useCollectionView (s : Authentication) : Authentication :=
  if s.collectionView then s else { s with trapped := true }

-- the end of `signup`
def imageUploaded (s : Authentication) (controller : RegisterViewController) : Authentication :=
  if s.auth.isSome then
    let s := s.authenticationDidComplete controller.delegate
    -- the window of a screen that is not presented any more is nil
    if .register controller ∈ s.presented then
      { s with presented := [] }
    else
      s
  else
    s

def handleConversation (s : Authentication) : ConversationEvent → Option Authentication
  | .viewDidAppear =>
    if s.inFront then some { s with listening := s.listening || s.auth.isSome } else none
  | .viewWillTransition =>
    if s.inFront ∧ s.auth.isSome then some s.useCollectionView else none
  | .reloadData => if s.listening then some s.useCollectionView else none
  -- The buttons for the new screens and for the logout come with `configureUI`, too.
  | .push =>
    if s.presented = [] ∧ s.collectionView then some { s with pushed := s.pushed + 1 } else none
  | .pop =>
    if s.presented = [] ∧ 0 < s.pushed then some { s with pushed := s.pushed - 1 } else none
  | .logout throws =>
    if s.inFront ∧ s.collectionView then
      some {
        s with
        auth := if throws then s.auth else none
        loginPending := s.loginPending + 1
      }
    else
      none
  | .presentLoginScreen =>
    if 0 < s.loginPending then
      let s := { s with loginPending := s.loginPending - 1 }
      -- nothing is presented by a screen that is covered
      if s.inFront then some s.presentLoginScreen else some s
    else
      none

def handlePresented (s : Authentication) (e : PresentedEvent) : Option Authentication :=
  match s.presented.getLast?, e with
  | some (.login _), .presentRegisterScreen => some s.presentRegisterScreen
  | some (.login _), .presentForgotPasswordScreen =>
    some { s with presented := s.presented ++ [.forgotPassword] }
  | some _, .presentAlert => some { s with presented := s.presented ++ [.alert] }
  | some (.login _), .dismiss => none
  | some _, .dismiss => some { s with presented := s.presented.dropLast }
  | some (.login controller), .loginButtonPressed =>
    some { s with logins := s.logins ++ [controller] }
  | some (.register controller), .signup =>
    some { s with signups := s.signups ++ [⟨controller, false⟩] }
  | _, _ => none

def complete (s : Authentication) : Completion → Option Authentication
  | .loginSucceeded i uid =>
    match s.logins[i]? with
    | some controller =>
      let s := { s with auth := some uid, logins := s.logins.eraseIdx i }
      let s := s.authenticationDidComplete controller.delegate
      some { s with presented := dismiss s.presented (.login controller) }
    | none => none
  | .loginFailed i =>
    if i < s.logins.length then some { s with logins := s.logins.eraseIdx i } else none
  | .accountCreated i uid =>
    match s.signups[i]? with
    | some ⟨controller, false⟩ =>
      some { s with auth := some uid, signups := s.signups.set i ⟨controller, true⟩ }
    | _ => none
  | .imageUploaded i =>
    match s.signups[i]? with
    | some ⟨controller, true⟩ =>
      some (imageUploaded { s with signups := s.signups.eraseIdx i } controller)
    | _ => none
  | .signupFailed i =>
    if i < s.signups.length then some { s with signups := s.signups.eraseIdx i } else none

def step (s : Authentication) (e : Event) : Option Authentication :=
  if s.trapped then
    none
  else
    match e with
    | .conversation e => s.handleConversation e
    | .presented e => s.handlePresented e
    | .completion e => s.complete e

end Authentication

def authentication : Machine Authentication Authentication.Event :=
  ⟨Authentication.step⟩

namespace Authentication

-- What is signed in and in front has its collection view, and nobody has missed it so far.
def Configured (s : Authentication) : Prop :=
  s.trapped = false ∧ (s.auth.isSome → s.inFront → s.collectionView)

instance (s : Authentication) : Decidable s.Configured :=
  inferInstanceAs (Decidable (_ ∧ _))

-- A registration that ends on its own screen finds the collection view of an earlier login.
def EndsConfigured (s : Authentication) : Event → Prop
  | .completion (.imageUploaded i) =>
    ∀ signup ∈ s.signups[i]?, s.auth.isSome → .register signup.controller ∈ s.presented →
      s.collectionView
  | _ => True

instance (s : Authentication) (e : Event) : Decidable (s.EndsConfigured e) := by
  unfold EndsConfigured
  split
  all_goals infer_instance

-- who has been given a delegate
def Linked : Presented → Prop
  | .login controller => controller.delegate = true
  | .register controller => controller.delegate = false
  | .forgotPassword | .alert => True

structure ConfiguredInv (s : Authentication) : Prop where
  trapped : s.trapped = false
  presented : ∀ screen ∈ s.presented, Linked screen
  logins : ∀ controller ∈ s.logins, controller.delegate = true
  signups : ∀ signup ∈ s.signups, signup.controller.delegate = false
  -- the login screen of the launch is still there
  login : s.collectionView = false →
    s.pushed = 0 ∧ s.listening = false ∧ ∃ controller, s.presented.head? = some (.login controller)

theorem configuredInv_launch (auth : Option DocumentID) : (launch auth).ConfiguredInv := by
  cases auth with
  | none =>
    constructor
    case presented => simp [launch, presentLoginScreen, Linked]
    case login => simp [launch, presentLoginScreen]
    case trapped => rfl
    all_goals
      intros
      contradiction
  | some uid =>
    constructor
    case trapped => rfl
    all_goals
      intros
      contradiction

theorem ConfiguredInv.configured {s : Authentication} (hs : s.ConfiguredInv) : s.Configured := by
  refine ⟨hs.trapped, ?_⟩
  intro _ hfront
  by_contra hview
  rw [Bool.not_eq_true] at hview
  rcases (hs.login hview).right.right with ⟨controller, hlogin⟩
  simp only [inFront, decide_eq_true_eq] at hfront
  rw [hfront.right] at hlogin
  contradiction

theorem mem_of_mem_dismiss {presented : List Presented} {screen below : Presented}
    (h : below ∈ dismiss presented screen) : below ∈ presented := by
  unfold dismiss at h
  split at h
  . exact (List.dropLast_sublist presented).subset h
  . split at h
    . next hscreen =>
      rw [List.mem_append, List.mem_singleton] at h
      cases h with
      | inl h => exact (List.takeWhile_sublist _).subset h
      | inr h =>
        rw [h]
        exact hscreen
    . exact h

-- Something else is presented over what is presented already.
theorem ConfiguredInv.present {s : Authentication} (hs : s.ConfiguredInv) (screen : Presented)
    (hscreen : Linked screen) (controllers : Nat) (hne : s.presented ≠ [])
    : ConfiguredInv {
        s with
        presented := s.presented ++ [screen]
        controllers := controllers
      } := by
  constructor
  case trapped => exact hs.trapped
  case presented =>
    rw [List.forall_mem_append, List.forall_mem_singleton]
    exact ⟨hs.presented, hscreen⟩
  case logins => exact hs.logins
  case signups => exact hs.signups
  case login =>
    intro hview
    rcases hs.login hview with ⟨hpushed, hlistening, controller, hlogin⟩
    refine ⟨hpushed, hlistening, controller, ?_⟩
    rw [List.head?_append_of_ne_nil _ hne]
    exact hlogin

theorem ConfiguredInv.presentLoginScreen {s : Authentication} (hs : s.ConfiguredInv)
    (hfront : s.inFront) (loginPending : Nat)
    : ConfiguredInv (Authentication.presentLoginScreen { s with loginPending := loginPending }) := by
  simp only [inFront, decide_eq_true_eq] at hfront
  constructor
  case trapped => exact hs.trapped
  case presented =>
    intro screen hscreen
    dsimp only [Authentication.presentLoginScreen] at hscreen
    rw [hfront.right, List.nil_append, List.mem_singleton] at hscreen
    rw [hscreen]
    rfl
  case logins => exact hs.logins
  case signups => exact hs.signups
  case login =>
    intro hview
    rcases hs.login hview with ⟨hpushed, hlistening, _⟩
    refine ⟨hpushed, hlistening, ⟨s.controllers, true⟩, ?_⟩
    dsimp only [Authentication.presentLoginScreen]
    rw [hfront.right]
    rfl

-- Back from a screen that is presented over the login screen.
theorem ConfiguredInv.dropLast {s : Authentication} (hs : s.ConfiguredInv)
    (hlast : ∀ controller, s.presented.getLast? ≠ some (.login controller))
    : ConfiguredInv { s with presented := s.presented.dropLast } := by
  constructor
  case trapped => exact hs.trapped
  case presented =>
    intro screen hscreen
    exact hs.presented screen ((List.dropLast_sublist _).subset hscreen)
  case logins => exact hs.logins
  case signups => exact hs.signups
  case login =>
    intro hview
    rcases hs.login hview with ⟨hpushed, hlistening, controller, hlogin⟩
    refine ⟨hpushed, hlistening, controller, ?_⟩
    cases hpresented : s.presented with
    | nil =>
      rw [hpresented] at hlogin
      contradiction
    | cons screen presented =>
      rw [hpresented, List.head?_cons, Option.some.injEq] at hlogin
      cases presented with
      | nil =>
        rw [hpresented, hlogin] at hlast
        exact absurd rfl (hlast controller)
      | cons above presented =>
        rw [hlogin]
        rfl

theorem ConfiguredInv.loginSucceeded {s : Authentication} (hs : s.ConfiguredInv) (i : Nat)
    (uid : DocumentID) (controller : LoginViewController)
    : ConfiguredInv {
        s with
        auth := some uid
        logins := s.logins.eraseIdx i
        collectionView := true
        presented := Authentication.dismiss s.presented (.login controller)
      } := by
  constructor
  case trapped => exact hs.trapped
  case presented =>
    intro screen hscreen
    exact hs.presented screen (mem_of_mem_dismiss hscreen)
  case logins =>
    intro other hother
    exact hs.logins other (List.mem_of_mem_eraseIdx hother)
  case signups => exact hs.signups
  case login =>
    intro hview
    contradiction

theorem imageUploaded_eq {controller : RegisterViewController}
    (hdelegate : controller.delegate = false) (s : Authentication)
    : s.imageUploaded controller
        =
      if s.auth.isSome ∧ .register controller ∈ s.presented then
        { s with presented := [] }
      else
        s := by
  unfold imageUploaded authenticationDidComplete
  simp only [hdelegate, Bool.false_eq_true, if_false, ite_and]

theorem ConfiguredInv.imageUploaded {s : Authentication} (hs : s.ConfiguredInv)
    {controller : RegisterViewController} (hdelegate : controller.delegate = false)
    (hends : s.auth.isSome → .register controller ∈ s.presented → s.collectionView)
    : (s.imageUploaded controller).ConfiguredInv := by
  rw [imageUploaded_eq hdelegate]
  split
  . next hdismiss =>
    have hview := hends hdismiss.left hdismiss.right
    constructor
    case trapped => exact hs.trapped
    case presented =>
      intro screen hscreen
      contradiction
    case logins => exact hs.logins
    case signups => exact hs.signups
    case login =>
      intro hnone
      dsimp only at hnone
      rw [hview] at hnone
      contradiction
  . exact hs

-- An event that leaves alone what the invariant is about, or makes lists of it shorter.
theorem ConfiguredInv.of_subset {s s' : Authentication} (hs : s.ConfiguredInv)
    (htrapped : s'.trapped = s.trapped) (hpresented : s'.presented = s.presented)
    (hlogins : s'.logins ⊆ s.logins) (hsignups : s'.signups ⊆ s.signups)
    (hview : s'.collectionView = s.collectionView)
    (hused : s'.collectionView = false → s'.pushed = s.pushed ∧ s'.listening = s.listening)
    : s'.ConfiguredInv := by
  constructor
  case trapped => rw [htrapped, hs.trapped]
  case presented =>
    rw [hpresented]
    exact hs.presented
  case logins =>
    intro controller hcontroller
    exact hs.logins controller (hlogins hcontroller)
  case signups =>
    intro signup hsignup
    exact hs.signups signup (hsignups hsignup)
  case login =>
    intro hnone
    rcases hused hnone with ⟨hpushed, hlistening⟩
    rw [hpushed, hlistening, hpresented]
    rw [hview] at hnone
    exact hs.login hnone

-- A request is sent, or answered without consequences for the screens.
theorem ConfiguredInv.of_requests {s : Authentication} (hs : s.ConfiguredInv)
    (auth : Option DocumentID) {logins : List LoginViewController} {signups : List Signup}
    (hlogins : ∀ controller ∈ logins, controller.delegate = true)
    (hsignups : ∀ signup ∈ signups, signup.controller.delegate = false)
    : ConfiguredInv { s with auth := auth, logins := logins, signups := signups } := by
  constructor
  case trapped => exact hs.trapped
  case presented => exact hs.presented
  case logins => exact hlogins
  case signups => exact hsignups
  case login => exact hs.login

theorem ConfiguredInv.handleConversation {s s' : Authentication} {e : ConversationEvent}
    (hs : s.ConfiguredInv) (h : s.handleConversation e = some s') : s'.ConfiguredInv := by
  unfold Authentication.handleConversation at h
  cases e with
  | viewDidAppear =>
    dsimp only at h
    split at h
    . next hfront =>
      injection h with h
      rw [← h]
      refine hs.of_subset rfl rfl (List.Subset.refl _) (List.Subset.refl _) rfl ?_
      intro hview
      simp only [inFront, decide_eq_true_eq] at hfront
      rcases (hs.login hview).right.right with ⟨controller, hlogin⟩
      rw [hfront.right] at hlogin
      contradiction
    . contradiction
  | viewWillTransition =>
    dsimp only at h
    split at h
    . next hfront =>
      injection h with h
      rw [useCollectionView, if_pos (hs.configured.right hfront.right hfront.left)] at h
      rw [← h]
      exact hs
    . contradiction
  | reloadData =>
    dsimp only at h
    split at h
    . next hlistening =>
      injection h with h
      have hview : s.collectionView = true := by
        by_contra hview
        rw [Bool.not_eq_true] at hview
        rw [(hs.login hview).right.left] at hlistening
        contradiction
      rw [useCollectionView, if_pos hview] at h
      rw [← h]
      exact hs
    . contradiction
  | push =>
    dsimp only at h
    split at h
    . next hpush =>
      injection h with h
      rw [← h]
      refine hs.of_subset rfl rfl (List.Subset.refl _) (List.Subset.refl _) rfl ?_
      intro hview
      rw [hpush.right] at hview
      contradiction
    . contradiction
  | pop =>
    dsimp only at h
    split at h
    . next hpop =>
      injection h with h
      rw [← h]
      refine hs.of_subset rfl rfl (List.Subset.refl _) (List.Subset.refl _) rfl ?_
      intro hview
      rw [(hs.login hview).left] at hpop
      exact absurd hpop.right (Nat.lt_irrefl 0)
    . contradiction
  | logout throws =>
    dsimp only at h
    split at h
    . injection h with h
      rw [← h]
      exact hs.of_subset rfl rfl (List.Subset.refl _) (List.Subset.refl _) rfl (fun _ => ⟨rfl, rfl⟩)
    . contradiction
  | presentLoginScreen =>
    dsimp only at h
    split at h
    . split at h
      . next hfront =>
        injection h with h
        rw [← h]
        exact hs.presentLoginScreen hfront _
      . injection h with h
        rw [← h]
        exact hs.of_subset rfl rfl (List.Subset.refl _) (List.Subset.refl _) rfl
          (fun _ => ⟨rfl, rfl⟩)
    . contradiction

theorem ConfiguredInv.handlePresented {s s' : Authentication} {e : PresentedEvent}
    (hs : s.ConfiguredInv) (h : s.handlePresented e = some s') : s'.ConfiguredInv := by
  have hne : ∀ screen, s.presented.getLast? = some screen → s.presented ≠ [] := by
    intro screen hlast hnil
    rw [hnil] at hlast
    contradiction
  unfold Authentication.handlePresented at h
  split at h
  . next controller hlast =>
    injection h with h
    rw [← h]
    exact hs.present (.register ⟨s.controllers, false⟩) rfl _ (hne _ hlast)
  . next controller hlast =>
    injection h with h
    rw [← h]
    exact hs.present .forgotPassword trivial _ (hne _ hlast)
  . next screen hlast =>
    injection h with h
    rw [← h]
    exact hs.present .alert trivial _ (hne _ hlast)
  . contradiction
  . next screen hlogin hlast =>
    injection h with h
    rw [← h]
    apply hs.dropLast
    intro controller hcontroller
    rw [hlast, Option.some.injEq] at hcontroller
    exact hlogin controller hcontroller
  . next controller hlast =>
    have hdelegate : controller.delegate = true := hs.presented _ (List.mem_of_getLast? hlast)
    injection h with h
    rw [← h]
    refine hs.of_requests s.auth ?_ hs.signups
    rw [List.forall_mem_append, List.forall_mem_singleton]
    exact ⟨hs.logins, hdelegate⟩
  . next controller hlast =>
    have hdelegate : controller.delegate = false := hs.presented _ (List.mem_of_getLast? hlast)
    injection h with h
    rw [← h]
    refine hs.of_requests s.auth hs.logins ?_
    rw [List.forall_mem_append, List.forall_mem_singleton]
    exact ⟨hs.signups, hdelegate⟩
  . contradiction

theorem ConfiguredInv.complete {s s' : Authentication} {e : Completion} (hs : s.ConfiguredInv)
    (h : s.complete e = some s') (hends : s.EndsConfigured (.completion e))
    : s'.ConfiguredInv := by
  unfold Authentication.complete at h
  cases e with
  | loginSucceeded i uid =>
    dsimp only at h
    split at h
    . next controller hcontroller =>
      injection h with h
      have hdelegate := hs.logins controller (List.mem_of_getElem? hcontroller)
      rw [authenticationDidComplete, if_pos hdelegate] at h
      rw [← h]
      exact hs.loginSucceeded i uid controller
    . contradiction
  | loginFailed i =>
    dsimp only at h
    split at h
    . injection h with h
      rw [← h]
      exact hs.of_subset rfl rfl List.eraseIdx_subset (List.Subset.refl _) rfl
        (fun _ => ⟨rfl, rfl⟩)
    . contradiction
  | accountCreated i uid =>
    dsimp only at h
    split at h
    . next controller hsignup =>
      injection h with h
      rw [← h]
      refine hs.of_requests (some uid) hs.logins ?_
      intro other hother
      cases List.mem_or_eq_of_mem_set hother with
      | inl hother => exact hs.signups other hother
      | inr heq =>
        rw [heq]
        exact hs.signups ⟨controller, false⟩ (List.mem_of_getElem? hsignup)
    . contradiction
  | imageUploaded i =>
    dsimp only at h
    split at h
    . next controller hsignup =>
      injection h with h
      rw [← h]
      have hremoved : ConfiguredInv { s with signups := s.signups.eraseIdx i } :=
        hs.of_subset rfl rfl (List.Subset.refl _) List.eraseIdx_subset rfl (fun _ => ⟨rfl, rfl⟩)
      apply hremoved.imageUploaded
      . exact hs.signups ⟨controller, true⟩ (List.mem_of_getElem? hsignup)
      . exact hends _ hsignup
    . contradiction
  | signupFailed i =>
    dsimp only at h
    split at h
    . injection h with h
      rw [← h]
      exact hs.of_subset rfl rfl (List.Subset.refl _) List.eraseIdx_subset rfl
        (fun _ => ⟨rfl, rfl⟩)
    . contradiction

theorem configuredInv_step {s s' : Authentication} {e : Event} (hs : s.ConfiguredInv)
    (hstep : authentication.step s e = some s') (hends : s.EndsConfigured e)
    : s'.ConfiguredInv := by
  simp only [authentication, step, hs.trapped, Bool.false_eq_true, if_false] at hstep
  cases e with
  | conversation e => exact hs.handleConversation hstep
  | presented e => exact hs.handlePresented hstep
  | completion e => exact hs.complete hstep hends

theorem endsConfigured_of_configured {s s' : Authentication} {e : Event} (hs : s.ConfiguredInv)
    (hstep : authentication.step s e = some s') (hconfigured : s'.Configured)
    : s.EndsConfigured e := by
  unfold EndsConfigured
  split
  . next i =>
    intro signup hsignup hauth hpresented
    by_contra hview
    rw [Bool.not_eq_true] at hview
    have hdelegate := hs.signups signup (List.mem_of_getElem? hsignup)
    simp only [authentication, step, hs.trapped, Bool.false_eq_true, if_false, complete] at hstep
    split at hstep
    . next controller hcontroller =>
      rw [Option.mem_def, hcontroller, Option.some.injEq] at hsignup
      rw [← hsignup] at hpresented hdelegate
      injection hstep with hstep
      rw [imageUploaded_eq hdelegate, if_pos ⟨hauth, hpresented⟩] at hstep
      rw [← hstep] at hconfigured
      have hused := hconfigured.right hauth (by simp [inFront, (hs.login hview).left])
      dsimp only at hused
      rw [hview] at hused
      contradiction
    . contradiction
  . trivial

theorem configured_iff_endsConfigured (auth : Option DocumentID) (es : List Event)
    : authentication.Meets (fun _ _ s' => s'.Configured) (launch auth) es
        ↔
      authentication.Meets (fun s e _ => s.EndsConfigured e) (launch auth) es := by
  apply Machine.meets_congr _ _ (configuredInv_launch auth)
  . intro s e s' hs hstep hconfigured
    exact configuredInv_step hs hstep (endsConfigured_of_configured hs hstep hconfigured)
  . intro s e s' hs hstep
    constructor
    . exact endsConfigured_of_configured hs hstep
    . intro hends
      exact (configuredInv_step hs hstep hends).configured

-- The first thing that the user does is to register.
theorem not_configured
    : ¬∀ (auth : Option DocumentID) (es : List Event),
        authentication.Meets (fun _ _ s' => s'.Configured) (launch auth) es := by
  intro h
  have hrun := h none [
    .presented .presentRegisterScreen, .presented .signup,
    .completion (.accountCreated 0 "a"), .completion (.imageUploaded 0)
  ]
  exact absurd hrun (by decide)

end Authentication

end ChatApplication
