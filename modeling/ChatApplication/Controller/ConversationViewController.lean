import Mathlib.Logic.Function.Basic
import ChatApplication.API.DatabaseManager
import ChatApplication.API.MessageID
import ChatApplication.Machine.Basic

/-!
This module contains the conversation screen over logins and logouts: the listeners that
`getRecentConversations` registers, the calls of `fetchRecentMessage` that it starts for every
snapshot, and `ConversationViewController.recentUsers`.
-/

namespace ChatApplication

-- a `User` object that `getRecentConversations` has made
structure RecentUser where
  user : User
  recentMessage : Option Message
  deriving DecidableEq, Repr

-- what `getRecentConversations` makes of one snapshot
structure Generation where
  -- who was signed in when the calls of `fetchRecentMessage` were made
  requestedBy : Option DocumentID
  -- the variable `users`
  users : List RecentUser
  -- the positions of the users whose `fetchRecentMessage` is not answered yet
  outstanding : List Nat
  -- the answers so far
  returned : List (Nat × Option Message)
  deriving DecidableEq, Repr

-- a reference to a `User` object: whose collection it was read from, in which snapshot and where
structure UserRef where
  owner : DocumentID
  generation : Nat
  position : Nat
  deriving DecidableEq, Repr

structure Listener where
  uid : DocumentID
  -- until `remove` is called
  active : Bool
  deriving DecidableEq, Repr

inductive Screen where
  | front
  -- below a screen that was pushed, or about to appear
  | covered
  -- below the login screen
  | login
  deriving DecidableEq, Repr

structure ConversationViewController where
  auth : Option DocumentID
  screen : Screen
  -- the logout handler has asked the main queue for `presentLoginScreen`
  loginPending : Bool
  listeners : List Listener
  listenerRef : Option Nat
  -- the snapshots of the collection `users/{uid}/recent-users` so far
  generations : DocumentID → List Generation
  recentUsers : List UserRef
  -- the account whose collection the last reply was about
  lastReply : Option DocumentID
  -- the list that was published last for an account
  published : DocumentID → List UserRef

namespace Generation

-- the loop over `snapshot.documents`, with a call of `fetchRecentMessage` for every user
def ofUsers (requestedBy : Option DocumentID) (users : List User) : Generation :=
  {
    requestedBy := requestedBy
    users := users.map (fun user => ⟨user, none⟩)
    outstanding := List.range users.length
    returned := []
  }

def refs (generation : Generation) (owner : DocumentID) (k : Nat) : List UserRef :=
  (List.range generation.users.length).map (UserRef.mk owner k)

-- The completion of `fetchRecentMessage`. All completions of one snapshot share the variable `users`.
def reply (generation : Generation) (j : Nat) (message : Option Message) : Generation :=
  {
    generation with
    users := generation.users.modify j (fun user => { user with recentMessage := message })
    outstanding := generation.outstanding.erase j
    returned := generation.returned ++ [(j, message)]
  }

end Generation

namespace ConversationViewController

inductive Event where
  | viewDidAppear
  | viewDidDisappear
  -- the handler of the alert, `throws` if `signOut` does
  | logout (throws : Bool)
  | presentLoginScreen
  -- sign in or sign up, then the login screen is dismissed
  | login (uid : DocumentID)
  | snapshot (listener : Nat) (uid : DocumentID) (documents : List DocumentSnapshot) (now : Date)
  -- the call for the `j`-th user of the `k`-th snapshot of the account is answered out of `documents`
  | reply (uid : DocumentID) (k j : Nat) (documents : List DocumentSnapshot) (now : Date)
  | fail (uid : DocumentID) (k j : Nat)
  deriving Repr

-- the app is launched, `auth` is the account that Firebase remembers
def launch (auth : Option DocumentID) : ConversationViewController :=
  {
    auth := auth
    screen := if auth.isSome then .covered else .login
    loginPending := false
    listeners := []
    listenerRef := none
    generations := fun _ => []
    recentUsers := []
    lastReply := none
    published := fun _ => []
  }

def getRecentConversations (s : ConversationViewController) : ConversationViewController :=
  match s.auth with
  | none => s
  | some uid =>
    {
      s with
      listeners := s.listeners ++ [⟨uid, true⟩]
      listenerRef := some s.listeners.length
    }

-- `listenerRef?.remove()`
def removeListener (s : ConversationViewController) : ConversationViewController :=
  match s.listenerRef with
  | none => s
  | some i =>
    { s with listeners := s.listeners.modify i (fun listener => { listener with active := false }) }

def addGeneration (s : ConversationViewController) (uid : DocumentID) (generation : Generation)
    : ConversationViewController :=
  { s with generations := Function.update s.generations uid (s.generations uid ++ [generation]) }

def setGeneration (s : ConversationViewController) (uid : DocumentID) (k : Nat)
    (generation : Generation) : ConversationViewController :=
  { s with generations := Function.update s.generations uid ((s.generations uid).set k generation) }

-- `self.recentUsers = users`
def publish (s : ConversationViewController) (uid : DocumentID) (refs : List UserRef)
    : ConversationViewController :=
  {
    s with
    recentUsers := refs
    lastReply := some uid
    published := Function.update s.published uid refs
  }

def step (s : ConversationViewController) : Event → Option ConversationViewController
  | .viewDidAppear =>
    if s.screen = .covered then
      some { s.getRecentConversations with screen := .front }
    else
      none
  | .viewDidDisappear =>
    if s.screen = .front then
      some { s.removeListener with screen := .covered }
    else
      none
  | .logout throws =>
    if s.screen = .front then
      some { s with auth := if throws then s.auth else none, loginPending := true }
    else
      none
  | .presentLoginScreen =>
    if s.screen = .front ∧ s.loginPending then
      some { s.removeListener with screen := .login, loginPending := false }
    else
      none
  | .login uid =>
    -- `authenticationDidComplete` configures the views and leaves `recentUsers` as it is
    if s.screen = .login then
      some { s with auth := some uid, screen := .covered }
    else
      none
  | .snapshot listener uid documents now =>
    if s.listeners[listener]? = some ⟨uid, true⟩ then
      match DatabaseManager.decodeUsers now documents with
      | some users =>
        -- without a user in the snapshot nobody calls the completion
        some (s.addGeneration uid (Generation.ofUsers s.auth users))
      | none => none
    else
      none
  | .reply uid k j documents now =>
    match (s.generations uid)[k]? with
    | some generation =>
      match generation.users[j]? with
      | some user =>
        if j ∈ generation.outstanding then
          match DatabaseManager.fetchRecentMessage documents generation.requestedBy now user.user with
          | some message =>
            some ((s.setGeneration uid k (generation.reply j message)).publish uid
              (generation.refs uid k))
          | none => none
        else
          none
      | none => none
    | none => none
  | .fail uid k j =>
    match (s.generations uid)[k]? with
    | some generation =>
      if j ∈ generation.outstanding then
        some (s.setGeneration uid k
          { generation with outstanding := generation.outstanding.erase j })
      else
        none
    | none => none

-- the objects that `recentUsers` refers to
def shown (s : ConversationViewController) : List RecentUser :=
  s.recentUsers.filterMap (fun ref =>
    ((s.generations ref.owner)[ref.generation]?).bind (fun generation =>
      generation.users[ref.position]?))

end ConversationViewController

def conversations : Machine ConversationViewController ConversationViewController.Event :=
  ⟨ConversationViewController.step⟩

namespace ConversationViewController

theorem getRecentConversations_eq (s : ConversationViewController)
    : s.getRecentConversations = {
        s with
        listeners := s.getRecentConversations.listeners
        listenerRef := s.getRecentConversations.listenerRef
      } := by
  unfold getRecentConversations
  split
  . rfl
  . rfl

theorem removeListener_eq (s : ConversationViewController)
    : s.removeListener = { s with listeners := s.removeListener.listeners } := by
  unfold removeListener
  split
  . rfl
  . rfl

theorem step_viewDidAppear {s s' : ConversationViewController}
    (h : conversations.step s .viewDidAppear = some s')
    : s.screen = .covered ∧ s' = { s.getRecentConversations with screen := .front } := by
  simp only [conversations, step] at h
  split at h
  . next hscreen =>
    injection h with h
    exact ⟨hscreen, h.symm⟩
  . contradiction

theorem step_viewDidDisappear {s s' : ConversationViewController}
    (h : conversations.step s .viewDidDisappear = some s')
    : s.screen = .front ∧ s' = { s.removeListener with screen := .covered } := by
  simp only [conversations, step] at h
  split at h
  . next hscreen =>
    injection h with h
    exact ⟨hscreen, h.symm⟩
  . contradiction

theorem step_logout {s s' : ConversationViewController} {throws : Bool}
    (h : conversations.step s (.logout throws) = some s')
    : s.screen = .front
        ∧ s' = { s with auth := if throws then s.auth else none, loginPending := true } := by
  simp only [conversations, step] at h
  split at h
  . next hscreen =>
    injection h with h
    exact ⟨hscreen, h.symm⟩
  . contradiction

theorem step_presentLoginScreen {s s' : ConversationViewController}
    (h : conversations.step s .presentLoginScreen = some s')
    : (s.screen = .front ∧ s.loginPending = true)
        ∧ s' = { s.removeListener with screen := .login, loginPending := false } := by
  simp only [conversations, step] at h
  split at h
  . next hscreen =>
    injection h with h
    exact ⟨hscreen, h.symm⟩
  . contradiction

theorem step_login {s s' : ConversationViewController} {uid : DocumentID}
    (h : conversations.step s (.login uid) = some s')
    : s.screen = .login ∧ s' = { s with auth := some uid, screen := .covered } := by
  simp only [conversations, step] at h
  split at h
  . next hscreen =>
    injection h with h
    exact ⟨hscreen, h.symm⟩
  . contradiction

theorem step_snapshot {s s' : ConversationViewController} {listener : Nat} {uid : DocumentID}
    {documents : List DocumentSnapshot} {now : Date}
    (h : conversations.step s (.snapshot listener uid documents now) = some s')
    : s.listeners[listener]? = some ⟨uid, true⟩
        ∧ ∃ users, DatabaseManager.decodeUsers now documents = some users
          ∧ s' = s.addGeneration uid (Generation.ofUsers s.auth users) := by
  simp only [conversations, step] at h
  split at h
  . next hlistener =>
    split at h
    . next users husers =>
      injection h with h
      exact ⟨hlistener, users, husers, h.symm⟩
    . contradiction
  . contradiction

theorem step_reply {s s' : ConversationViewController} {uid : DocumentID} {k j : Nat}
    {documents : List DocumentSnapshot} {now : Date}
    (h : conversations.step s (.reply uid k j documents now) = some s')
    : ∃ generation user message, (s.generations uid)[k]? = some generation
        ∧ generation.users[j]? = some user ∧ j ∈ generation.outstanding
        ∧ DatabaseManager.fetchRecentMessage documents generation.requestedBy now user.user
            = some message
        ∧ s' = (s.setGeneration uid k (generation.reply j message)).publish uid
            (generation.refs uid k) := by
  simp only [conversations, step] at h
  split at h
  . next generation hgeneration =>
    split at h
    . next user huser =>
      split at h
      . next houtstanding =>
        split at h
        . next message hmessage =>
          injection h with h
          exact ⟨generation, user, message, hgeneration, huser, houtstanding, hmessage, h.symm⟩
        . contradiction
      . contradiction
    . contradiction
  . contradiction

theorem step_fail {s s' : ConversationViewController} {uid : DocumentID} {k j : Nat}
    (h : conversations.step s (.fail uid k j) = some s')
    : ∃ generation, (s.generations uid)[k]? = some generation ∧ j ∈ generation.outstanding
        ∧ s' = s.setGeneration uid k
            { generation with outstanding := generation.outstanding.erase j } := by
  simp only [conversations, step] at h
  split at h
  . next generation hgeneration =>
    split at h
    . next houtstanding =>
      injection h with h
      exact ⟨generation, hgeneration, houtstanding, h.symm⟩
    . contradiction
  . contradiction

end ConversationViewController

end ChatApplication
