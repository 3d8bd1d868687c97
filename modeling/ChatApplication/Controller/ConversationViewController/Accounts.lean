import ChatApplication.Controller.ConversationViewController
import ChatApplication.Machine.View

/-!
This module contains what the conversation screen shows of other accounts that were used on the
device before.
-/

namespace ChatApplication

namespace ConversationViewController

-- Everything in the list of a screen in front was read from the collection of the account signed in.
def NoLeak (s : ConversationViewController) : Prop :=
  s.screen = .front → ∀ uid ∈ s.auth, ∀ ref ∈ s.recentUsers, ref.owner = uid

instance (s : ConversationViewController) : Decidable s.NoLeak :=
  inferInstanceAs (Decidable
    (s.screen = .front → ∀ uid ∈ s.auth, ∀ ref ∈ s.recentUsers, ref.owner = uid))

-- The screen comes to the front when the last reply so far, if any, was about the account signed in,
-- and while it is in front only such replies arrive.
def SameAccount (s : ConversationViewController) : Event → Prop
  | .viewDidAppear => ∀ uid ∈ s.auth, ∀ replied ∈ s.lastReply, replied = uid
  | .reply replied _ _ _ _ => s.screen = .front → ∀ uid ∈ s.auth, replied = uid
  | _ => True

instance (s : ConversationViewController) (e : Event) : Decidable (s.SameAccount e) := by
  unfold SameAccount
  split
  . infer_instance
  . infer_instance
  . infer_instance

-- the account of the last reply is the one signed in
def InFrontFor (s : ConversationViewController) : Prop :=
  s.screen = .front → ∀ uid ∈ s.auth, ∀ replied ∈ s.lastReply, replied = uid

-- The list is the one that the last reply published, it is not empty and from one account.
structure Owned (s : ConversationViewController) : Prop where
  none : s.lastReply = none → s.recentUsers = [] ∧ ∀ uid, s.published uid = []
  some : ∀ uid ∈ s.lastReply, s.recentUsers = s.published uid ∧ s.recentUsers ≠ []
    ∧ ∀ ref ∈ s.recentUsers, ref.owner = uid

theorem owned_launch (auth : Option DocumentID) : Owned (launch auth) := by
  constructor
  . intro _
    exact ⟨rfl, fun _ => rfl⟩
  . intro uid huid
    contradiction

theorem inFrontFor_launch (auth : Option DocumentID) : InFrontFor (launch auth) := by
  intro _ uid _ replied hreplied
  contradiction

theorem Owned.noLeak_iff {s : ConversationViewController} (hs : s.Owned)
    : s.NoLeak ↔ s.InFrontFor := by
  constructor
  . intro h hfront uid huid replied hreplied
    rcases hs.some replied hreplied with ⟨_, hne, howner⟩
    rcases List.exists_mem_of_ne_nil _ hne with ⟨ref, href⟩
    rw [← howner ref href]
    exact h hfront uid huid ref href
  . intro h hfront uid huid ref href
    cases hreply : s.lastReply with
    | none =>
      rw [(hs.none hreply).left] at href
      contradiction
    | some replied =>
      rw [(hs.some replied hreply).right.right ref href]
      exact h hfront uid huid replied hreply

theorem Owned.of_eq {s s' : ConversationViewController} (hs : s.Owned)
    (hreply : s'.lastReply = s.lastReply) (hrecentUsers : s'.recentUsers = s.recentUsers)
    (hpublished : s'.published = s.published) : s'.Owned := by
  constructor
  . rw [hreply, hrecentUsers, hpublished]
    exact hs.none
  . rw [hreply, hrecentUsers, hpublished]
    exact hs.some

theorem owned_publish (s : ConversationViewController) {uid : DocumentID} {generation : Generation}
    {j : Nat} {user : RecentUser} (huser : generation.users[j]? = some user) (k : Nat)
    : (s.publish uid (generation.refs uid k)).Owned := by
  constructor
  . intro h
    contradiction
  . intro replied hreplied
    injection hreplied with hreplied
    rw [← hreplied]
    refine ⟨?_, ?_, ?_⟩
    . simp [publish]
    . intro hempty
      have hlength := congrArg List.length hempty
      simp only [publish, Generation.refs, List.length_map, List.length_range,
        List.length_nil] at hlength
      have hj := (List.getElem?_eq_some_iff.mp huser).choose
      omega
    . intro ref href
      simp only [publish, Generation.refs, List.mem_map] at href
      rcases href with ⟨position, _, href⟩
      rw [← href]

theorem owned_step {s s' : ConversationViewController} (hs : s.Owned) {e : Event}
    (hstep : conversations.step s e = some s') : s'.Owned := by
  cases e with
  | viewDidAppear =>
    rw [(step_viewDidAppear hstep).right, getRecentConversations_eq]
    exact hs.of_eq rfl rfl rfl
  | viewDidDisappear =>
    rw [(step_viewDidDisappear hstep).right, removeListener_eq]
    exact hs.of_eq rfl rfl rfl
  | logout throws =>
    rw [(step_logout hstep).right]
    exact hs.of_eq rfl rfl rfl
  | presentLoginScreen =>
    rw [(step_presentLoginScreen hstep).right, removeListener_eq]
    exact hs.of_eq rfl rfl rfl
  | login uid =>
    rw [(step_login hstep).right]
    exact hs.of_eq rfl rfl rfl
  | snapshot listener uid documents now =>
    rcases step_snapshot hstep with ⟨_, users, _, hs'⟩
    rw [hs']
    exact hs.of_eq rfl rfl rfl
  | reply uid k j documents now =>
    rcases step_reply hstep with ⟨generation, user, message, _, huser, _, _, hs'⟩
    rw [hs']
    exact owned_publish _ huser k
  | fail uid k j =>
    rcases step_fail hstep with ⟨generation, _, _, hs'⟩
    rw [hs']
    exact hs.of_eq rfl rfl rfl

theorem inFrontFor_iff_sameAccount {s s' : ConversationViewController} (hs : s.InFrontFor)
    {e : Event} (hstep : conversations.step s e = some s') : s'.InFrontFor ↔ s.SameAccount e := by
  cases e with
  | viewDidAppear =>
    rw [(step_viewDidAppear hstep).right, getRecentConversations_eq]
    simp [InFrontFor, SameAccount]
  | viewDidDisappear =>
    rw [(step_viewDidDisappear hstep).right]
    simp [InFrontFor, SameAccount]
  | logout throws =>
    rw [(step_logout hstep).right]
    cases throws with
    | true =>
      simp only [SameAccount, iff_true]
      exact hs
    | false => simp [InFrontFor, SameAccount]
  | presentLoginScreen =>
    rw [(step_presentLoginScreen hstep).right]
    simp [InFrontFor, SameAccount]
  | login uid =>
    rw [(step_login hstep).right]
    simp [InFrontFor, SameAccount]
  | snapshot listener uid documents now =>
    rcases step_snapshot hstep with ⟨_, users, _, hs'⟩
    rw [hs']
    simp only [SameAccount, iff_true]
    exact hs
  | reply uid k j documents now =>
    rcases step_reply hstep with ⟨generation, user, message, _, _, _, _, hs'⟩
    rw [hs']
    simp [InFrontFor, SameAccount, publish, setGeneration]
  | fail uid k j =>
    rcases step_fail hstep with ⟨generation, _, _, hs'⟩
    rw [hs']
    simp only [SameAccount, iff_true]
    exact hs

-- the events that differ for nobody but the account
def shownTo (uid : DocumentID) : Event → Bool
  | .snapshot _ owner _ _ => owner = uid
  | .reply owner _ _ _ _ => owner = uid
  | .fail owner _ _ => owner = uid
  | _ => true

-- The states agree on everything but the collections of other accounts and the list on the screen.
structure View (uid : DocumentID) (s s' : ConversationViewController) : Prop where
  auth : s.auth = s'.auth
  screen : s.screen = s'.screen
  loginPending : s.loginPending = s'.loginPending
  listeners : s.listeners = s'.listeners
  listenerRef : s.listenerRef = s'.listenerRef
  generations : s.generations uid = s'.generations uid
  published : s.published uid = s'.published uid

theorem View.refl (uid : DocumentID) (s : ConversationViewController) : View uid s s := by
  constructor
  all_goals rfl

theorem View.getRecentConversations {uid : DocumentID} {s s' : ConversationViewController}
    (h : View uid s s') : View uid s.getRecentConversations s'.getRecentConversations := by
  unfold ConversationViewController.getRecentConversations
  rw [h.auth]
  split
  . exact h
  . constructor
    . rfl
    . exact h.screen
    . exact h.loginPending
    . dsimp
      rw [h.listeners]
    . dsimp
      rw [h.listeners]
    . exact h.generations
    . exact h.published

theorem View.removeListener {uid : DocumentID} {s s' : ConversationViewController}
    (h : View uid s s') : View uid s.removeListener s'.removeListener := by
  unfold ConversationViewController.removeListener
  rw [h.listenerRef]
  split
  . exact h
  . constructor
    . exact h.auth
    . exact h.screen
    . exact h.loginPending
    . dsimp
      rw [h.listeners]
    . rfl
    . exact h.generations
    . exact h.published

theorem View.addGeneration {uid : DocumentID} {s s' : ConversationViewController}
    (h : View uid s s') (generation : Generation)
    : View uid (s.addGeneration uid generation) (s'.addGeneration uid generation) := by
  constructor
  . exact h.auth
  . exact h.screen
  . exact h.loginPending
  . exact h.listeners
  . exact h.listenerRef
  . unfold ConversationViewController.addGeneration
    dsimp
    rw [Function.update_self, Function.update_self, h.generations]
  . exact h.published

theorem View.setGeneration {uid : DocumentID} {s s' : ConversationViewController}
    (h : View uid s s') (k : Nat) (generation : Generation)
    : View uid (s.setGeneration uid k generation) (s'.setGeneration uid k generation) := by
  constructor
  . exact h.auth
  . exact h.screen
  . exact h.loginPending
  . exact h.listeners
  . exact h.listenerRef
  . unfold ConversationViewController.setGeneration
    dsimp
    rw [Function.update_self, Function.update_self, h.generations]
  . exact h.published

theorem View.publish {uid : DocumentID} {s s' : ConversationViewController}
    (h : View uid s s') (refs : List UserRef)
    : View uid (s.publish uid refs) (s'.publish uid refs) := by
  constructor
  . exact h.auth
  . exact h.screen
  . exact h.loginPending
  . exact h.listeners
  . exact h.listenerRef
  . exact h.generations
  . unfold ConversationViewController.publish
    dsimp
    rw [Function.update_self, Function.update_self]

theorem View.of_ne {uid owner : DocumentID} {s s' t : ConversationViewController}
    (h : View uid s s') (hne : uid ≠ owner) {generations : List Generation} {refs : List UserRef}
    (hauth : t.auth = s.auth) (hscreen : t.screen = s.screen)
    (hpending : t.loginPending = s.loginPending) (hlisteners : t.listeners = s.listeners)
    (hlistenerRef : t.listenerRef = s.listenerRef)
    (hgenerations : t.generations = Function.update s.generations owner generations)
    (hpublished : t.published = Function.update s.published owner refs) : View uid t s' := by
  constructor
  . rw [hauth, h.auth]
  . rw [hscreen, h.screen]
  . rw [hpending, h.loginPending]
  . rw [hlisteners, h.listeners]
  . rw [hlistenerRef, h.listenerRef]
  . rw [hgenerations, Function.update_of_ne hne, h.generations]
  . rw [hpublished, Function.update_of_ne hne, h.published]

theorem view_step {uid : DocumentID} {s s' t : ConversationViewController} {e : Event}
    (h : View uid s s') (hshown : shownTo uid e = true) (hstep : conversations.step s e = some t)
    : ∃ t', conversations.step s' e = some t' ∧ View uid t t' := by
  cases e with
  | viewDidAppear =>
    rcases step_viewDidAppear hstep with ⟨hscreen, ht⟩
    have hview := h.getRecentConversations
    rw [h.screen] at hscreen
    refine ⟨{ s'.getRecentConversations with screen := .front }, ?_, ?_⟩
    . simp [conversations, step, hscreen]
    . rw [ht]
      exact ⟨hview.auth, rfl, hview.loginPending, hview.listeners, hview.listenerRef,
        hview.generations, hview.published⟩
  | viewDidDisappear =>
    rcases step_viewDidDisappear hstep with ⟨hscreen, ht⟩
    have hview := h.removeListener
    rw [h.screen] at hscreen
    refine ⟨{ s'.removeListener with screen := .covered }, ?_, ?_⟩
    . simp [conversations, step, hscreen]
    . rw [ht]
      exact ⟨hview.auth, rfl, hview.loginPending, hview.listeners, hview.listenerRef,
        hview.generations, hview.published⟩
  | logout throws =>
    rcases step_logout hstep with ⟨hscreen, ht⟩
    rw [h.screen] at hscreen
    refine ⟨{ s' with auth := if throws then s'.auth else none, loginPending := true }, ?_, ?_⟩
    . simp [conversations, step, hscreen]
    . rw [ht, h.auth]
      exact ⟨rfl, h.screen, rfl, h.listeners, h.listenerRef, h.generations, h.published⟩
  | presentLoginScreen =>
    rcases step_presentLoginScreen hstep with ⟨hscreen, ht⟩
    have hview := h.removeListener
    rw [h.screen, h.loginPending] at hscreen
    refine ⟨{ s'.removeListener with screen := .login, loginPending := false }, ?_, ?_⟩
    . simp [conversations, step, hscreen]
    . rw [ht]
      exact ⟨hview.auth, rfl, rfl, hview.listeners, hview.listenerRef, hview.generations,
        hview.published⟩
  | login account =>
    rcases step_login hstep with ⟨hscreen, ht⟩
    rw [h.screen] at hscreen
    refine ⟨{ s' with auth := some account, screen := .covered }, ?_, ?_⟩
    . simp [conversations, step, hscreen]
    . rw [ht]
      exact ⟨rfl, rfl, h.loginPending, h.listeners, h.listenerRef, h.generations, h.published⟩
  | snapshot listener owner documents now =>
    simp only [shownTo, decide_eq_true_eq] at hshown
    rw [hshown] at hstep ⊢
    rcases step_snapshot hstep with ⟨hlistener, users, husers, ht⟩
    rw [h.listeners] at hlistener
    rw [h.auth] at ht
    refine ⟨s'.addGeneration uid (Generation.ofUsers s'.auth users), ?_, ?_⟩
    . simp only [conversations, step, hlistener, husers, if_true]
    . rw [ht]
      exact h.addGeneration _
  | reply owner k j documents now =>
    simp only [shownTo, decide_eq_true_eq] at hshown
    rw [hshown] at hstep ⊢
    rcases step_reply hstep
      with ⟨generation, user, message, hgeneration, huser, houtstanding, hmessage, ht⟩
    rw [h.generations] at hgeneration
    refine ⟨(s'.setGeneration uid k (generation.reply j message)).publish uid
      (generation.refs uid k), ?_, ?_⟩
    . simp only [conversations, step, hgeneration, huser, houtstanding, hmessage, if_true]
    . rw [ht]
      exact (h.setGeneration k _).publish _
  | fail owner k j =>
    simp only [shownTo, decide_eq_true_eq] at hshown
    rw [hshown] at hstep ⊢
    rcases step_fail hstep with ⟨generation, hgeneration, houtstanding, ht⟩
    rw [h.generations] at hgeneration
    refine ⟨s'.setGeneration uid k
      { generation with outstanding := generation.outstanding.erase j }, ?_, ?_⟩
    . simp only [conversations, step, hgeneration, houtstanding, if_true]
    . rw [ht]
      exact h.setGeneration k _

theorem view_skip {uid : DocumentID} {s s' t : ConversationViewController} {e : Event}
    (h : View uid s s') (hshown : shownTo uid e = false) (hstep : conversations.step s e = some t)
    : View uid t s' := by
  cases e with
  | viewDidAppear => contradiction
  | viewDidDisappear => contradiction
  | logout throws => contradiction
  | presentLoginScreen => contradiction
  | login account => contradiction
  | snapshot listener owner documents now =>
    simp only [shownTo, decide_eq_false_iff_not] at hshown
    rcases step_snapshot hstep with ⟨_, users, _, ht⟩
    rw [ht]
    exact h.of_ne (Ne.symm hshown) rfl rfl rfl rfl rfl rfl (Function.update_eq_self owner _).symm
  | reply owner k j documents now =>
    simp only [shownTo, decide_eq_false_iff_not] at hshown
    rcases step_reply hstep with ⟨generation, user, message, _, _, _, _, ht⟩
    rw [ht]
    exact h.of_ne (Ne.symm hshown) rfl rfl rfl rfl rfl rfl rfl
  | fail owner k j =>
    simp only [shownTo, decide_eq_false_iff_not] at hshown
    rcases step_fail hstep with ⟨generation, _, _, ht⟩
    rw [ht]
    exact h.of_ne (Ne.symm hshown) rfl rfl rfl rfl rfl rfl (Function.update_eq_self owner _).symm

theorem unwinding_view (uid : DocumentID)
    : Machine.Unwinding conversations (View uid) (shownTo uid) := by
  constructor
  . exact view_step
  . exact view_skip

-- What a screen in front for an account shows depends on that account alone.
theorem shown_of_view {uid : DocumentID} {s r : ConversationViewController} (hs : s.Owned)
    (hfront : s.InFrontFor) (hauth : s.auth = some uid) (hscreen : s.screen = .front)
    (hview : View uid s r)
    : s.shown
        =
      (r.published uid).filterMap (fun ref =>
        ((r.generations uid)[ref.generation]?).bind (fun generation =>
          generation.users[ref.position]?)) := by
  unfold shown
  rw [← hview.generations, ← hview.published]
  cases hreply : s.lastReply with
  | none =>
    have hnone := hs.none hreply
    rw [hnone.left, hnone.right]
    rfl
  | some replied =>
    have huid : replied = uid := hfront hscreen uid hauth replied hreply
    rcases hs.some replied hreply with ⟨hpublished, _, howner⟩
    rw [huid] at hpublished howner
    rw [← hpublished]
    apply List.filterMap_congr
    intro ref href
    rw [howner ref href]

theorem exec_owned {auth : Option DocumentID} {es : List Event} {s : ConversationViewController}
    (h : conversations.exec (launch auth) es = some s)
    (hsame : conversations.Meets (fun s e _ => s.SameAccount e) (launch auth) es)
    : s.Owned ∧ s.InFrontFor := by
  have hinv : ∀ (s : ConversationViewController) e s', s.Owned ∧ s.InFrontFor →
      conversations.step s e = some s' → s.SameAccount e → s'.Owned ∧ s'.InFrontFor := by
    intro s e s' hs hstep hsame
    exact ⟨owned_step hs.left hstep, (inFrontFor_iff_sameAccount hs.right hstep).mpr hsame⟩
  exact Machine.exec_preserves_of_meets hinv ⟨owned_launch auth, inFrontFor_launch auth⟩ h hsame

def recentUser (uid : DocumentID) : DocumentSnapshot :=
  ⟨uid, User.dictionary ⟨uid, "Bob", "B", "bob@mail.org", "pb", 1, false⟩⟩

-- one account is used after another one, `recentUsers` is what the first one has
def sharedDeviceRun (recentUsers : List DocumentSnapshot) : List Event :=
  [
    .login "a", .viewDidAppear, .snapshot 0 "a" recentUsers 1,
    .logout false, .presentLoginScreen,
    .login "c", .viewDidAppear, .snapshot 1 "c" [recentUser "d"] 2, .reply "c" 0 0 [] 3
  ]

end ConversationViewController

end ChatApplication
