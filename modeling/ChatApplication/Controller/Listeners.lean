import ChatApplication.Controller.ConversationViewController
import ChatApplication.Data.Positions

/-!
This module contains the snapshot listeners that the app has at Firestore: those of the conversation
screen, and those that the chats register when they are opened.
-/

namespace ChatApplication

-- A listener that `fetchMessages` has registered. The registration is not kept, so it stays active.
structure MessageListener where
  -- who was signed in
  uid : Option DocumentID
  messageId : String
  deriving DecidableEq, Repr

structure Listeners where
  conversation : ConversationViewController
  messageListeners : List MessageListener
  -- the chats on the navigation stack, by the positions of the listeners they have registered
  chats : List Nat

namespace Listeners

inductive Event where
  | conversation (e : ConversationViewController.Event)
  -- a chat with the user is opened, `viewDidLoad` calls `getConversations`
  | pushChat (user : User)
  | popChat
  deriving Repr

def launch (auth : Option DocumentID) : Listeners :=
  {
    conversation := ConversationViewController.launch auth
    messageListeners := []
    chats := []
  }

-- what only happens to a screen that is not below another one
def needsFront : ConversationViewController.Event → Bool
  | .viewDidAppear | .logout _ | .presentLoginScreen => true
  | _ => false

def step (s : Listeners) : Event → Option Listeners
  | .conversation e =>
    if needsFront e ∧ s.chats ≠ [] then
      none
    else
      match conversations.step s.conversation e with
      | some conversation => some { s with conversation := conversation }
      | none => none
  | .pushChat user =>
    if s.conversation.screen = .login then
      none
    else
      let auth := s.conversation.auth
      some {
        s with
        messageListeners := s.messageListeners ++ [⟨auth, messageId auth user⟩]
        chats := s.chats ++ [s.messageListeners.length]
      }
  | .popChat => if s.chats = [] then none else some { s with chats := s.chats.dropLast }

end Listeners

def listeners : Machine Listeners Listeners.Event :=
  ⟨Listeners.step⟩

namespace ConversationViewController

-- Only the registration in `listenerRef` can be active, and only in front.
def OnlyInFront (s : ConversationViewController) : Prop :=
  ∀ (i : Nat) (listener : Listener), s.listeners[i]? = some listener → listener.active = true →
    s.listenerRef = some i ∧ s.screen = .front

theorem OnlyInFront.of_eq {s s' : ConversationViewController} (h : s.OnlyInFront)
    (hlisteners : s'.listeners = s.listeners) (href : s'.listenerRef = s.listenerRef)
    (hscreen : s'.screen = s.screen) : s'.OnlyInFront := by
  intro i listener hlistener hactive
  rw [hlisteners] at hlistener
  rw [href, hscreen]
  exact h i listener hlistener hactive

theorem not_active_removeListener {s : ConversationViewController} (h : s.OnlyInFront) {i : Nat}
    {listener : Listener} (hlistener : s.removeListener.listeners[i]? = some listener)
    : listener.active = false := by
  rw [← Bool.not_eq_true]
  intro hactive
  unfold removeListener at hlistener
  split at hlistener
  . next href =>
    have hcurrent := (h i listener hlistener hactive).left
    rw [href] at hcurrent
    contradiction
  . next j href =>
    dsimp only at hlistener
    rw [List.getElem?_modify, Option.map_eq_map, Option.map_eq_some_iff] at hlistener
    rcases hlistener with ⟨old, hold, heq⟩
    split at heq
    . rw [← heq] at hactive
      contradiction
    . next hne =>
      have heq : old = listener := heq
      rw [heq] at hold
      have hcurrent := (h i listener hold hactive).left
      rw [href] at hcurrent
      injection hcurrent with hcurrent
      contradiction

theorem OnlyInFront.viewDidAppear {s : ConversationViewController} (hs : s.OnlyInFront)
    (hscreen : s.screen = .covered)
    : OnlyInFront { s.getRecentConversations with screen := .front } := by
  have hold : ∀ (i : Nat) (listener : Listener), s.listeners[i]? = some listener →
      listener.active = true → False := by
    intro i listener hlistener hactive
    have hfront := (hs i listener hlistener hactive).right
    rw [hscreen] at hfront
    contradiction
  intro i listener hlistener hactive
  refine ⟨?_, rfl⟩
  unfold getRecentConversations at hlistener ⊢
  cases hauth : s.auth with
  | none =>
    rw [hauth] at hlistener
    exact absurd (hold i listener hlistener hactive) id
  | some uid =>
    rw [hauth] at hlistener
    dsimp only at hlistener ⊢
    rw [List.getElem?_append] at hlistener
    split at hlistener
    . exact absurd (hold i listener hlistener hactive) id
    . next hle =>
      rw [List.getElem?_singleton] at hlistener
      split at hlistener
      . congr 1
        omega
      . contradiction

theorem onlyInFront_step {s s' : ConversationViewController} {e : Event} (hs : s.OnlyInFront)
    (hstep : conversations.step s e = some s') : s'.OnlyInFront := by
  cases e with
  | viewDidAppear =>
    rcases step_viewDidAppear hstep with ⟨hscreen, hs'⟩
    rw [hs']
    exact hs.viewDidAppear hscreen
  | viewDidDisappear =>
    rcases step_viewDidDisappear hstep with ⟨_, hs'⟩
    rw [hs']
    intro i listener hlistener hactive
    rw [not_active_removeListener hs hlistener] at hactive
    contradiction
  | logout throws =>
    rcases step_logout hstep with ⟨_, hs'⟩
    rw [hs']
    exact hs.of_eq rfl rfl rfl
  | presentLoginScreen =>
    rcases step_presentLoginScreen hstep with ⟨_, hs'⟩
    rw [hs']
    intro i listener hlistener hactive
    rw [not_active_removeListener hs hlistener] at hactive
    contradiction
  | login uid =>
    rcases step_login hstep with ⟨hscreen, hs'⟩
    rw [hs']
    intro i listener hlistener hactive
    have hfront := (hs i listener hlistener hactive).right
    rw [hscreen] at hfront
    contradiction
  | snapshot listener uid documents now =>
    rcases step_snapshot hstep with ⟨_, users, _, hs'⟩
    rw [hs']
    exact hs.of_eq rfl rfl rfl
  | reply uid k j documents now =>
    rcases step_reply hstep with ⟨_, _, _, _, _, _, _, hs'⟩
    rw [hs']
    exact hs.of_eq rfl rfl rfl
  | fail uid k j =>
    rcases step_fail hstep with ⟨_, _, _, hs'⟩
    rw [hs']
    exact hs.of_eq rfl rfl rfl

theorem login_or_presentLoginScreen {s s' : ConversationViewController} {e : Event}
    (h : conversations.step s e = some s') (hlogin : s'.screen = .login)
    : s.screen = .login ∨ e = .presentLoginScreen := by
  cases e with
  | viewDidAppear =>
    rw [(step_viewDidAppear h).right] at hlogin
    contradiction
  | viewDidDisappear =>
    rw [(step_viewDidDisappear h).right] at hlogin
    contradiction
  | logout throws =>
    rw [(step_logout h).right] at hlogin
    exact Or.inl hlogin
  | presentLoginScreen => exact Or.inr rfl
  | login uid => exact Or.inl (step_login h).left
  | snapshot listener uid documents now =>
    rcases step_snapshot h with ⟨_, users, _, hs'⟩
    rw [hs'] at hlogin
    exact Or.inl hlogin
  | reply uid k j documents now =>
    rcases step_reply h with ⟨_, _, _, _, _, _, _, hs'⟩
    rw [hs'] at hlogin
    exact Or.inl hlogin
  | fail uid k j =>
    rcases step_fail h with ⟨_, _, _, hs'⟩
    rw [hs'] at hlogin
    exact Or.inl hlogin

-- Everybody who is listened to is signed in.
def OwnListeners (s : ConversationViewController) : Prop :=
  ∀ listener ∈ s.listeners, listener.active → s.auth = some listener.uid

theorem ownListeners_step {s s' : ConversationViewController} {e : Event} (hs : s.OnlyInFront)
    (hown : s.OwnListeners) (hstep : conversations.step s e = some s')
    : s'.OwnListeners ↔ e = .logout false → ∀ listener ∈ s.listeners, listener.active = false := by
  have hremoved : ∀ listener ∈ s.removeListener.listeners, listener.active = true → False := by
    intro listener hlistener hactive
    rw [List.mem_iff_getElem?] at hlistener
    rcases hlistener with ⟨i, hlistener⟩
    rw [not_active_removeListener hs hlistener] at hactive
    contradiction
  cases e with
  | viewDidAppear =>
    refine iff_of_true ?_ (fun hcontra => by contradiction)
    rcases step_viewDidAppear hstep with ⟨_, hs'⟩
    rw [hs']
    intro listener hlistener hactive
    unfold getRecentConversations at hlistener ⊢
    cases hauth : s.auth with
    | none =>
      rw [hauth] at hlistener
      have hcontra := hown listener hlistener hactive
      rw [hauth] at hcontra
      contradiction
    | some uid =>
      rw [hauth] at hlistener
      dsimp only at hlistener ⊢
      rw [List.mem_append, List.mem_singleton] at hlistener
      cases hlistener with
      | inl hold =>
        rw [← hauth]
        exact hown listener hold hactive
      | inr heq => rw [heq]
  | viewDidDisappear =>
    refine iff_of_true ?_ (fun hcontra => by contradiction)
    rcases step_viewDidDisappear hstep with ⟨_, hs'⟩
    rw [hs']
    intro listener hlistener hactive
    exact absurd (hremoved listener hlistener hactive) id
  | logout throws =>
    rcases step_logout hstep with ⟨_, hs'⟩
    rw [hs']
    cases throws with
    | true =>
      refine iff_of_true hown ?_
      intro hcontra
      injection hcontra with hcontra
      contradiction
    | false =>
      constructor
      . intro h _ listener hlistener
        rw [← Bool.not_eq_true]
        intro hactive
        have hcontra := h listener hlistener hactive
        contradiction
      . intro h listener hlistener hactive
        rw [h rfl listener hlistener] at hactive
        contradiction
  | presentLoginScreen =>
    refine iff_of_true ?_ (fun hcontra => by contradiction)
    rcases step_presentLoginScreen hstep with ⟨_, hs'⟩
    rw [hs']
    intro listener hlistener hactive
    exact absurd (hremoved listener hlistener hactive) id
  | login uid =>
    refine iff_of_true ?_ (fun hcontra => by contradiction)
    rcases step_login hstep with ⟨hscreen, hs'⟩
    rw [hs']
    intro listener hlistener hactive
    rw [List.mem_iff_getElem?] at hlistener
    rcases hlistener with ⟨i, hlistener⟩
    have hfront := (hs i listener hlistener hactive).right
    rw [hscreen] at hfront
    contradiction
  | snapshot listener uid documents now =>
    rcases step_snapshot hstep with ⟨_, users, _, hs'⟩
    rw [hs']
    exact iff_of_true hown (fun hcontra => by contradiction)
  | reply uid k j documents now =>
    rcases step_reply hstep with ⟨_, _, _, _, _, _, _, hs'⟩
    rw [hs']
    exact iff_of_true hown (fun hcontra => by contradiction)
  | fail uid k j =>
    rcases step_fail hstep with ⟨_, _, _, hs'⟩
    rw [hs']
    exact iff_of_true hown (fun hcontra => by contradiction)

theorem auth_step {s s' : ConversationViewController} {e : Event}
    (h : conversations.step s e = some s')
    : s'.auth = s.auth ∨ s.screen = .login ∨ ∃ throws, e = .logout throws := by
  cases e with
  | viewDidAppear =>
    rw [(step_viewDidAppear h).right, getRecentConversations_eq]
    exact Or.inl rfl
  | viewDidDisappear =>
    rw [(step_viewDidDisappear h).right, removeListener_eq]
    exact Or.inl rfl
  | logout throws => exact Or.inr (Or.inr ⟨throws, rfl⟩)
  | presentLoginScreen =>
    rw [(step_presentLoginScreen h).right, removeListener_eq]
    exact Or.inl rfl
  | login uid => exact Or.inr (Or.inl (step_login h).left)
  | snapshot listener uid documents now =>
    rcases step_snapshot h with ⟨_, users, _, hs'⟩
    rw [hs']
    exact Or.inl rfl
  | reply uid k j documents now =>
    rcases step_reply h with ⟨_, _, _, _, _, _, _, hs'⟩
    rw [hs']
    exact Or.inl rfl
  | fail uid k j =>
    rcases step_fail h with ⟨_, _, _, hs'⟩
    rw [hs']
    exact Or.inl rfl

end ConversationViewController

namespace Listeners

-- at most one listener for recent users, only in front, and one listener for each open chat
def FollowsScreens (s : Listeners) : Prop :=
  s.conversation.listeners.countP Listener.active ≤ 1
    ∧ (∀ listener ∈ s.conversation.listeners, listener.active → s.conversation.screen = .front)
    ∧ s.chats.Perm (List.range s.messageListeners.length)

-- No listener reads what belongs to an account that is not signed in any more.
def SignedIn (s : Listeners) : Prop :=
  s.conversation.OwnListeners
    ∧ ∀ listener ∈ s.messageListeners, ∀ uid ∈ listener.uid, s.conversation.auth = some uid

instance (s : Listeners) : Decidable s.FollowsScreens :=
  inferInstanceAs (Decidable (s.conversation.listeners.countP Listener.active ≤ 1
    ∧ (∀ listener ∈ s.conversation.listeners, listener.active → s.conversation.screen = .front)
    ∧ s.chats.Perm (List.range s.messageListeners.length)))

instance (s : Listeners) : Decidable s.SignedIn :=
  inferInstanceAs (Decidable ((∀ listener ∈ s.conversation.listeners, listener.active →
      s.conversation.auth = some listener.uid)
    ∧ ∀ listener ∈ s.messageListeners, ∀ uid ∈ listener.uid, s.conversation.auth = some uid))

def KeepsChats : Event → Prop
  | .popChat => False
  | _ => True

-- `signOut` is not called, or fails, while recent users are listened to.
def KeepsAccount (s : Listeners) : Event → Prop
  | .conversation (.logout false) =>
    ∀ listener ∈ s.conversation.listeners, listener.active = false
  | _ => True

instance (e : Event) : Decidable (KeepsChats e) := by
  unfold KeepsChats
  split
  all_goals infer_instance

instance (s : Listeners) (e : Event) : Decidable (s.KeepsAccount e) := by
  unfold KeepsAccount
  split
  all_goals infer_instance

structure FollowsInv (s : Listeners) : Prop where
  onlyInFront : s.conversation.OnlyInFront
  chats : s.chats = List.range s.messageListeners.length
  -- The login screen is only presented if no chat is open.
  login : s.conversation.screen = .login → s.chats = []

theorem followsInv_launch (auth : Option DocumentID) : (launch auth).FollowsInv := by
  constructor
  case onlyInFront =>
    intro i listener hlistener
    contradiction
  case chats => rfl
  case login => exact fun _ => rfl

theorem FollowsInv.followsScreens {s : Listeners} (hs : s.FollowsInv) : s.FollowsScreens := by
  refine ⟨?_, ?_, ?_⟩
  . apply List.countP_le_one_of_forall_eq (i := s.conversation.listenerRef.getD 0)
    intro i listener hlistener hactive
    rw [(hs.onlyInFront i listener hlistener hactive).left]
    rfl
  . intro listener hlistener hactive
    rw [List.mem_iff_getElem?] at hlistener
    rcases hlistener with ⟨i, hlistener⟩
    exact (hs.onlyInFront i listener hlistener hactive).right
  . rw [hs.chats]

theorem step_conversation {s s' : Listeners} {e : ConversationViewController.Event}
    (h : listeners.step s (.conversation e) = some s')
    : (needsFront e → s.chats = [])
        ∧ ∃ conversation, conversations.step s.conversation e = some conversation
          ∧ s' = { s with conversation := conversation } := by
  simp only [listeners, step] at h
  split at h
  . contradiction
  . next hfront =>
    split at h
    . next conversation hconversation =>
      injection h with h
      refine ⟨?_, conversation, hconversation, h.symm⟩
      intro hneeds
      by_contra hchats
      exact hfront ⟨hneeds, hchats⟩
    . contradiction

theorem step_pushChat {s s' : Listeners} {user : User}
    (h : listeners.step s (.pushChat user) = some s')
    : s.conversation.screen ≠ .login
        ∧ s' = {
            s with
            messageListeners := s.messageListeners
              ++ [⟨s.conversation.auth, messageId s.conversation.auth user⟩]
            chats := s.chats ++ [s.messageListeners.length]
          } := by
  simp only [listeners, step] at h
  split at h
  . contradiction
  . next hscreen =>
    injection h with h
    exact ⟨hscreen, h.symm⟩

theorem step_popChat {s s' : Listeners} (h : listeners.step s .popChat = some s')
    : s.chats ≠ [] ∧ s' = { s with chats := s.chats.dropLast } := by
  simp only [listeners, step] at h
  split at h
  . contradiction
  . next hchats =>
    injection h with h
    exact ⟨hchats, h.symm⟩

theorem followsInv_step {s s' : Listeners} {e : Event} (hs : s.FollowsInv)
    (hstep : listeners.step s e = some s') (hkeeps : KeepsChats e) : s'.FollowsInv := by
  cases e with
  | conversation e =>
    rcases step_conversation hstep with ⟨hneeds, conversation, hconversation, hs'⟩
    rw [hs']
    constructor
    case onlyInFront => exact ConversationViewController.onlyInFront_step hs.onlyInFront hconversation
    case chats => exact hs.chats
    case login =>
      intro hlogin
      cases ConversationViewController.login_or_presentLoginScreen hconversation hlogin with
      | inl hold => exact hs.login hold
      | inr hpresent =>
        rw [hpresent] at hneeds
        exact hneeds rfl
  | pushChat user =>
    rcases step_pushChat hstep with ⟨hscreen, hs'⟩
    rw [hs']
    constructor
    case onlyInFront => exact hs.onlyInFront
    case chats =>
      dsimp only
      rw [hs.chats, List.length_append, List.length_singleton, List.range_succ]
    case login =>
      intro hlogin
      contradiction
  | popChat => contradiction

theorem keepsChats_of_followsScreens {s s' : Listeners} {e : Event} (hs : s.FollowsInv)
    (hstep : listeners.step s e = some s') (hfollows : s'.FollowsScreens) : KeepsChats e := by
  cases e with
  | popChat =>
    rcases step_popChat hstep with ⟨hne, hs'⟩
    have hlength := hfollows.right.right.length_eq
    rw [hs'] at hlength
    dsimp only at hlength
    rw [List.length_dropLast, hs.chats, List.length_range] at hlength
    rw [hs.chats, Ne, List.range_eq_nil] at hne
    omega
  | conversation | pushChat => trivial

theorem FollowsInv.messageListeners_eq_nil {s : Listeners} (hs : s.FollowsInv) (h : s.chats = [])
    : s.messageListeners = [] := by
  have hchats := hs.chats
  rw [h] at hchats
  have hlength := congrArg List.length hchats
  rw [List.length_range] at hlength
  exact List.eq_nil_of_length_eq_zero hlength.symm

theorem signedIn_step {s s' : Listeners} {e : Event} (hs : s.FollowsInv) (hsigned : s.SignedIn)
    (hstep : listeners.step s e = some s') (hkeeps : KeepsChats e)
    : s'.SignedIn ↔ s.KeepsAccount e := by
  cases e with
  | conversation e =>
    rcases step_conversation hstep with ⟨hneeds, conversation, hconversation, hs'⟩
    have hown := ConversationViewController.ownListeners_step hs.onlyInFront hsigned.left
      hconversation
    have hchats : ∀ listener ∈ s.messageListeners, ∀ uid ∈ listener.uid,
        conversation.auth = some uid := by
      rcases ConversationViewController.auth_step hconversation with hauth | hlogin | ⟨throws, he⟩
      . rw [hauth]
        exact hsigned.right
      . rw [hs.messageListeners_eq_nil (hs.login hlogin)]
        intro listener hlistener
        contradiction
      . rw [he] at hneeds
        rw [hs.messageListeners_eq_nil (hneeds rfl)]
        intro listener hlistener
        contradiction
    rw [hs']
    unfold SignedIn
    rw [hown, and_iff_left hchats]
    unfold KeepsAccount
    split
    . next heq =>
      injection heq with heq
      simp [heq]
    . next hother =>
      refine iff_of_true ?_ trivial
      intro he
      rw [he] at hother
      exact absurd rfl hother
  | pushChat user =>
    rcases step_pushChat hstep with ⟨_, hs'⟩
    rw [hs']
    refine iff_of_true ⟨hsigned.left, ?_⟩ trivial
    intro listener hlistener uid huid
    rw [List.mem_append, List.mem_singleton] at hlistener
    cases hlistener with
    | inl hlistener => exact hsigned.right listener hlistener uid huid
    | inr heq =>
      rw [heq] at huid
      exact huid
  | popChat => contradiction

def AccountInv (s : Listeners) : Prop :=
  s.FollowsInv ∧ s.SignedIn

theorem accountInv_launch (auth : Option DocumentID) : (launch auth).AccountInv := by
  refine ⟨followsInv_launch auth, ?_, ?_⟩
  . intro listener hlistener
    contradiction
  . intro listener hlistener
    contradiction

end Listeners

end ChatApplication
