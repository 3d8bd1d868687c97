import ChatApplication.Clients.RecentUsers
import ChatApplication.Controller.ConversationViewController.Convergence

/-!
This module contains the conversation screens of any number of devices together with the clients. The
snapshots and replies that come to a screen are those of the store at that moment.
-/

namespace ChatApplication

structure Devices (Data : Type v) where
  app : Clients Data
  screens : List ConversationViewController

namespace Devices

inductive Event (Image : Type u) where
  | client (e : Clients.Event Image)
  -- the app is launched on another device, Firebase remembers `auth`
  | launch (auth : Option AuthUid)
  | screen (i : Nat) (e : ConversationViewController.Event)

variable {Image : Type u} {Data : Type v}

def init : Devices Data :=
  ⟨.init, []⟩

-- what the store lets happen to a screen
def Serves (app : Clients Data) : ConversationViewController.Event → Prop
  | .login uid => uid ∈ app.server.accounts
  | .snapshot _ uid documents _ =>
    documents = DatabaseManager.getRecentConversations app.server.db uid
  | .reply _ _ _ documents _ => documents = app.documents
  | _ => True

instance (app : Clients Data)
    : (e : ConversationViewController.Event) → Decidable (Serves app e)
  | .login uid => inferInstanceAs (Decidable (uid ∈ app.server.accounts))
  | .snapshot _ uid documents _ =>
    inferInstanceAs (Decidable (documents
      = DatabaseManager.getRecentConversations app.server.db uid))
  | .reply _ _ _ documents _ => inferInstanceAs (Decidable (documents = app.documents))
  | .viewDidAppear | .viewDidDisappear | .logout _ | .presentLoginScreen | .fail _ _ _ =>
    inferInstanceAs (Decidable True)

def step (pngData : Image → Option Data) (s : Devices Data) : Event Image → Option (Devices Data)
  | .client e => (s.app.step pngData e).map (fun app => { s with app := app })
  | .launch auth =>
    if ∀ uid ∈ auth, uid ∈ s.app.accounts then
      some {
        s with
        screens := s.screens ++ [ConversationViewController.launch (auth.map AuthUid.value)]
      }
    else
      none
  | .screen i e =>
    match s.screens[i]? with
    | some screen =>
      if Serves s.app e then
        (conversations.step screen e).map (fun screen =>
          { s with screens := s.screens.set i screen })
      else
        none
    | none => none

end Devices

def devices {Image : Type u} {Data : Type v} (pngData : Image → Option Data)
    : Machine (Devices Data) (Devices.Event Image) :=
  ⟨Devices.step pngData⟩

namespace ConversationViewController

-- A step leaves the lists alone, or it is a snapshot, or a call of `fetchRecentMessage` ends.
theorem step_generations {s s' : ConversationViewController} {e : Event}
    (h : conversations.step s e = some s')
    : (s'.generations = s.generations ∧ s'.recentUsers = s.recentUsers)
        ∨ (∃ listener uid documents now users, e = .snapshot listener uid documents now
            ∧ DatabaseManager.decodeUsers now documents = some users
            ∧ s' = s.addGeneration uid (Generation.ofUsers s.auth users))
        ∨ ∃ uid k j generation, (s.generations uid)[k]? = some generation
            ∧ j ∈ generation.outstanding
            ∧ ((e = .fail uid k j
                ∧ s' = s.setGeneration uid k
                    { generation with outstanding := generation.outstanding.erase j })
              ∨ ∃ documents now user message, e = .reply uid k j documents now
                  ∧ generation.users[j]? = some user
                  ∧ DatabaseManager.fetchRecentMessage documents generation.requestedBy now user.user
                      = some message
                  ∧ s' = (s.setGeneration uid k (generation.reply j message)).publish uid
                      (generation.refs uid k)) := by
  cases e with
  | viewDidAppear =>
    rw [(step_viewDidAppear h).right, getRecentConversations_eq]
    exact Or.inl ⟨rfl, rfl⟩
  | viewDidDisappear =>
    rw [(step_viewDidDisappear h).right, removeListener_eq]
    exact Or.inl ⟨rfl, rfl⟩
  | logout throws =>
    rw [(step_logout h).right]
    exact Or.inl ⟨rfl, rfl⟩
  | presentLoginScreen =>
    rw [(step_presentLoginScreen h).right, removeListener_eq]
    exact Or.inl ⟨rfl, rfl⟩
  | login uid =>
    rw [(step_login h).right]
    exact Or.inl ⟨rfl, rfl⟩
  | snapshot listener uid documents now =>
    rcases step_snapshot h with ⟨_, users, husers, hs'⟩
    exact Or.inr (Or.inl ⟨listener, uid, documents, now, users, rfl, husers, hs'⟩)
  | reply uid k j documents now =>
    rcases step_reply h
      with ⟨generation, user, message, hgeneration, huser, houtstanding, hmessage, hs'⟩
    exact Or.inr (Or.inr ⟨uid, k, j, generation, hgeneration, houtstanding,
      Or.inr ⟨documents, now, user, message, rfl, huser, hmessage, hs'⟩⟩)
  | fail uid k j =>
    rcases step_fail h with ⟨generation, hgeneration, houtstanding, hs'⟩
    exact Or.inr (Or.inr ⟨uid, k, j, generation, hgeneration, houtstanding, Or.inl ⟨rfl, hs'⟩⟩)

theorem getElem?_addGeneration (s : ConversationViewController) (uid uid' : DocumentID)
    (generation : Generation) (k : Nat)
    : ((s.addGeneration uid generation).generations uid')[k]?
        =
      if uid' = uid ∧ k = (s.generations uid).length then
        some generation
      else
        (s.generations uid')[k]? := by
  unfold addGeneration
  dsimp only
  by_cases huid : uid' = uid
  . rw [huid, Function.update_self, List.getElem?_append]
    split
    . next hlt => rw [if_neg (fun h => Nat.ne_of_lt hlt h.right)]
    . next hge =>
      by_cases hk : k = (s.generations uid).length
      . rw [if_pos ⟨rfl, hk⟩, hk, Nat.sub_self]
        rfl
      . rw [if_neg (fun h => hk h.right), List.getElem?_eq_none (Nat.le_of_not_lt hge),
          List.getElem?_eq_none]
        rw [List.length_singleton]
        omega
  . rw [Function.update_of_ne huid, if_neg (fun h => huid h.left)]

theorem getElem?_setGeneration {s : ConversationViewController} {uid : DocumentID} {k : Nat}
    {old : Generation} (hold : (s.generations uid)[k]? = some old) (uid' : DocumentID)
    (generation : Generation) (k' : Nat)
    : ((s.setGeneration uid k generation).generations uid')[k']?
        =
      if uid' = uid ∧ k' = k then some generation else (s.generations uid')[k']? := by
  unfold setGeneration
  dsimp only
  by_cases huid : uid' = uid
  . rw [huid, Function.update_self]
    by_cases hk : k' = k
    . rw [if_pos ⟨rfl, hk⟩, hk]
      exact List.getElem?_set_self (List.getElem?_eq_some_iff.mp hold).choose
    . rw [if_neg (fun h => hk h.right), List.getElem?_set_ne (Ne.symm hk)]
  . rw [Function.update_of_ne huid, if_neg (fun h => huid h.left)]

-- What is shown is the list of one snapshot.
def ShowsGeneration (s : ConversationViewController) : Prop :=
  s.recentUsers = [] ∨ ∃ (owner : DocumentID) (k : Nat) (generation : Generation),
    (s.generations owner)[k]? = some generation ∧ s.recentUsers = generation.refs owner k

theorem ShowsGeneration.of_refs {s s' : ConversationViewController} (hs : s.ShowsGeneration)
    (hrecentUsers : s'.recentUsers = s.recentUsers)
    (hgenerations : ∀ (owner : DocumentID) (k : Nat) (generation : Generation),
      (s.generations owner)[k]? = some generation →
        ∃ generation' : Generation, (s'.generations owner)[k]? = some generation'
          ∧ generation'.users.length = generation.users.length)
    : s'.ShowsGeneration := by
  unfold ShowsGeneration
  rw [hrecentUsers]
  rcases hs with hnil | ⟨owner, k, generation, hgeneration, hrefs⟩
  . exact Or.inl hnil
  . rcases hgenerations owner k generation hgeneration with ⟨generation', hgeneration', hlength⟩
    refine Or.inr ⟨owner, k, generation', hgeneration', ?_⟩
    rw [hrefs, Generation.refs, Generation.refs, hlength]

theorem showsGeneration_step {s s' : ConversationViewController} {e : Event}
    (hs : s.ShowsGeneration) (hstep : conversations.step s e = some s') : s'.ShowsGeneration := by
  rcases step_generations hstep with ⟨hgenerations, hrecentUsers⟩
    | ⟨listener, uid, documents, now, users, _, _, hs'⟩
    | ⟨uid, k, j, generation, hgeneration, _, ⟨_, hs'⟩
      | ⟨documents, now, user, message, _, _, _, hs'⟩⟩
  . apply hs.of_refs hrecentUsers
    intro owner k generation hgeneration
    rw [hgenerations]
    exact ⟨generation, hgeneration, rfl⟩
  . rw [hs']
    apply hs.of_refs (by rfl)
    intro owner k generation hgeneration
    refine ⟨generation, ?_, rfl⟩
    rw [getElem?_addGeneration, if_neg]
    . exact hgeneration
    . rintro ⟨howner, hk⟩
      have hlt := (List.getElem?_eq_some_iff.mp hgeneration).choose
      rw [howner, hk] at hlt
      exact Nat.lt_irrefl _ hlt
  . rw [hs']
    apply hs.of_refs (by rfl)
    intro owner k' generation' hgeneration'
    rw [getElem?_setGeneration hgeneration]
    split
    . next heq =>
      rw [heq.left, heq.right, hgeneration] at hgeneration'
      injection hgeneration' with hgeneration'
      exact ⟨_, rfl, by rw [hgeneration']⟩
    . exact ⟨generation', hgeneration', rfl⟩
  . rw [hs']
    refine Or.inr ⟨uid, k, generation.reply j message, ?_, ?_⟩
    . exact (getElem?_setGeneration hgeneration _ _ _).trans (if_pos ⟨rfl, rfl⟩)
    . have hlength : (generation.reply j message).users.length = generation.users.length := by
        exact List.length_modify _ _ _
      change generation.refs uid k = (generation.reply j message).refs uid k
      rw [Generation.refs, Generation.refs, hlength]

end ConversationViewController

-- The users are those of the rows, and who has been answered has the message of the row.
structure Generation.Tracks (uid : DocumentID) (rows : List RecentUser) (generation : Generation)
    : Prop where
  requestedBy : generation.requestedBy = some uid
  users : generation.users.map RecentUser.user = rows.map RecentUser.user
  answered : ∀ (j : Nat) (user : RecentUser), generation.users[j]? = some user →
    j ∉ generation.outstanding → rows[j]? = some user

namespace Generation

variable {uid : DocumentID} {rows : List RecentUser}

theorem tracks_ofUsers {users : List User} (h : users = rows.map RecentUser.user)
    : (ofUsers (some uid) users).Tracks uid rows := by
  constructor
  . rfl
  . rw [map_user_ofUsers, h]
  . intro j user huser houtstanding
    have hlt := (List.getElem?_eq_some_iff.mp huser).choose
    rw [ofUsers, List.length_map] at hlt
    rw [ofUsers, List.mem_range] at houtstanding
    exact absurd hlt houtstanding

theorem Tracks.reply {generation : Generation} (hs : generation.Tracks uid rows) {j : Nat}
    {user : RecentUser} (huser : generation.users[j]? = some user) {message : Option Message}
    (hmessage : ∀ row, rows[j]? = some row → row.user = user.user → row.recentMessage = message)
    : (generation.reply j message).Tracks uid rows := by
  constructor
  . exact hs.requestedBy
  . rw [map_user_reply]
    exact hs.users
  . intro i user' huser' houtstanding
    unfold Generation.reply at huser' houtstanding
    by_cases hij : i = j
    . have hrow := congrArg (fun users => users[j]?) hs.users
      rw [List.getElem?_map, List.getElem?_map, huser, Option.map_some] at hrow
      rw [hij] at huser' ⊢
      rw [List.getElem?_modify, huser] at huser'
      simp only [↓reduceIte, Option.map_eq_map, Option.map_some, Option.some.injEq] at huser'
      rcases Option.map_eq_some_iff.mp hrow.symm with ⟨row, hget, hsame⟩
      rw [hget, ← huser', ← hmessage row hget hsame, ← hsame]
    . rw [List.getElem?_modify_ne _ _ (Ne.symm hij)] at huser'
      rw [List.mem_erase_of_ne hij] at houtstanding
      exact hs.answered i user' huser' houtstanding

-- Once all are answered the users are the rows.
theorem Tracks.users_eq {generation : Generation} (hs : generation.Tracks uid rows)
    (houtstanding : generation.outstanding = []) : generation.users = rows := by
  have hlength := congrArg List.length hs.users
  rw [List.length_map, List.length_map] at hlength
  apply List.ext_getElem?
  intro j
  cases huser : generation.users[j]? with
  | some user =>
    rw [hs.answered j user huser]
    rw [houtstanding]
    exact List.not_mem_nil
  | none =>
    rw [List.getElem?_eq_none_iff, hlength] at huser
    rw [List.getElem?_eq_none huser]

end Generation

namespace ConversationViewController

variable {uid : DocumentID} {rows : List RecentUser} {n : Nat}

-- All snapshots of the account but the first `n` bring the rows.
structure Follows (uid : DocumentID) (rows : List RecentUser) (n : Nat)
    (s : ConversationViewController) : Prop where
  auth : s.auth = some uid
  generations : ∀ (k : Nat) (generation : Generation), n ≤ k →
    (s.generations uid)[k]? = some generation → generation.Tracks uid rows

-- What is shown is of a later snapshot than the first `n`, and its calls have all been answered.
def ShowsSince (s : ConversationViewController) (uid : DocumentID) (n : Nat) : Prop :=
  ∃ ref ∈ s.recentUsers, ref.owner = uid ∧ n ≤ ref.generation
    ∧ ∀ generation ∈ (s.generations uid)[ref.generation]?, generation.outstanding = []

instance (s : ConversationViewController) (uid : DocumentID) (n : Nat)
    : Decidable (s.ShowsSince uid n) :=
  inferInstanceAs (Decidable (∃ ref ∈ s.recentUsers, ref.owner = uid ∧ n ≤ ref.generation
    ∧ ∀ generation ∈ (s.generations uid)[ref.generation]?, generation.outstanding = []))

theorem Follows.step {s s' : ConversationViewController} (hs : s.Follows uid rows n) {e : Event}
    (hstep : conversations.step s e = some s') (hauth : s'.auth = some uid) (hsucceeds : Succeeds e)
    (hsnapshot : ∀ listener documents now users, e = .snapshot listener uid documents now →
      DatabaseManager.decodeUsers now documents = some users → users = rows.map RecentUser.user)
    (hreply : ∀ k j documents now, e = .reply uid k j documents now → ∀ row ∈ rows, ∀ message,
      DatabaseManager.fetchRecentMessage documents (some uid) now row.user = some message →
        row.recentMessage = message)
    : s'.Follows uid rows n := by
  refine ⟨hauth, ?_⟩
  intro k' generation' hn hgeneration'
  rcases step_generations hstep with ⟨hgenerations, _⟩
    | ⟨listener, owner, documents, now, users, he, husers, hs'⟩
    | ⟨owner, k, j, generation, hgeneration, _, ⟨he, _⟩
      | ⟨documents, now, user, message, he, huser, hmessage, hs'⟩⟩
  . rw [hgenerations] at hgeneration'
    exact hs.generations k' generation' hn hgeneration'
  . rw [hs', getElem?_addGeneration] at hgeneration'
    split at hgeneration'
    . next heq =>
      injection hgeneration' with hgeneration'
      rw [← heq.left] at he
      rw [← hgeneration', hs.auth]
      exact Generation.tracks_ofUsers (hsnapshot listener documents now users he husers)
    . exact hs.generations k' generation' hn hgeneration'
  . rw [he] at hsucceeds
    contradiction
  . rw [hs'] at hgeneration'
    have hget := (getElem?_setGeneration hgeneration uid (generation.reply j message) k').symm.trans
      hgeneration'
    split at hget
    . next heq =>
      injection hget with hget
      rw [← heq.left] at he hgeneration
      rw [heq.right] at hn
      have hold := hs.generations k generation hn hgeneration
      rw [hold.requestedBy] at hmessage
      rw [← hget]
      apply hold.reply huser
      intro row hrow hsame
      rw [← hsame] at hmessage
      exact hreply k j documents now he row (List.mem_of_getElem? hrow) message hmessage
    . exact hs.generations k' generation' hn hget

theorem Follows.shown_eq {s : ConversationViewController} (hs : s.Follows uid rows n)
    (hrefs : s.ShowsGeneration) (hshows : s.ShowsSince uid n) : s.shown = rows := by
  rcases hshows with ⟨ref, href, howner, hn, houtstanding⟩
  rcases hrefs with hnil | ⟨owner, k, generation, hgeneration, hrefs⟩
  . rw [hnil] at href
    contradiction
  . rw [hrefs, Generation.refs, List.mem_map] at href
    rcases href with ⟨j, _, href⟩
    rw [← href] at howner hn houtstanding
    dsimp only at howner hn houtstanding
    rw [howner] at hgeneration hrefs
    have hdone := houtstanding generation hgeneration
    rw [← (hs.generations k generation hn hgeneration).users_eq hdone]
    have hderef := List.filterMap_range_getElem? generation.users id
    rw [List.map_id] at hderef
    rw [shown, hrefs, Generation.refs, List.filterMap_map]
    refine Eq.trans ?_ hderef
    apply List.filterMap_congr
    intro j _
    simp [hgeneration]

end ConversationViewController

namespace Devices

variable {Image : Type u} {Data : Type v} {pngData : Image → Option Data}

theorem step_client {s s' : Devices Data} {e : Clients.Event Image}
    (h : (devices pngData).step s (.client e) = some s')
    : ∃ app', (clients pngData).step s.app e = some app' ∧ s' = { s with app := app' } := by
  simp only [devices, step] at h
  rw [Option.map_eq_some_iff] at h
  rcases h with ⟨app', happ, hs'⟩
  exact ⟨app', happ, hs'.symm⟩

theorem step_launch {s s' : Devices Data} {auth : Option AuthUid}
    (h : (devices pngData).step s (.launch auth) = some s')
    : s' = {
        s with
        screens := s.screens ++ [ConversationViewController.launch (auth.map AuthUid.value)]
      } := by
  simp only [devices, step] at h
  split at h
  . injection h with h
    exact h.symm
  . contradiction

theorem step_screen {s s' : Devices Data} {i : Nat} {e : ConversationViewController.Event}
    (h : (devices pngData).step s (.screen i e) = some s')
    : ∃ screen screen', s.screens[i]? = some screen ∧ Serves s.app e
        ∧ conversations.step screen e = some screen'
        ∧ s' = { s with screens := s.screens.set i screen' } := by
  simp only [devices, step] at h
  split at h
  . next screen hscreen =>
    split at h
    . next hserves =>
      rw [Option.map_eq_some_iff] at h
      rcases h with ⟨screen', hstep, hs'⟩
      exact ⟨screen, screen', hscreen, hserves, hstep, hs'.symm⟩
    . contradiction
  . contradiction

def clientEvents (_ : Devices Data) : Event Image → List (Clients.Event Image)
  | .client e => [e]
  | .launch _ | .screen _ _ => []

-- Chats are opened from rows of the account that is signed in.
def OwnRows (s : Devices Data) : Event Image → Devices Data → Prop
  | .client e, s' => Clients.OwnRows s.app e s'.app
  | .launch _, _ | .screen _ _, _ => True

instance (s : Devices Data) : (e : Event Image) → (s' : Devices Data) → Decidable (OwnRows s e s')
  | .client e, s' => inferInstanceAs (Decidable (Clients.OwnRows s.app e s'.app))
  | .launch _, _ | .screen _ _, _ => inferInstanceAs (Decidable True)

theorem refines_clients
    : Machine.Refines (devices pngData) (clients pngData) Devices.app clientEvents OwnRows
        Clients.OwnRows (fun _ => True) (fun _ => True) := by
  constructor
  . intro s e s' _ _ hstep _
    cases e with
    | client e =>
      rcases step_client hstep with ⟨app', happ, hs'⟩
      rw [clientEvents, Machine.exec_singleton, hs']
      exact happ
    | launch auth =>
      rw [step_launch hstep]
      rfl
    | screen i e =>
      rcases step_screen hstep with ⟨_, _, _, _, _, hs'⟩
      rw [hs']
      rfl
  . intro s e s' _ _ _ hown
    cases e with
    | client e =>
      apply Machine.meets_singleton
      intro app' _
      exact hown
    | launch auth => trivial
    | screen i e => trivial
  . intro s e s' _ _ _ _
    trivial
  . intro s e s' _ _ _
    trivial

-- a state of the clients that they can get into
def Reached (pngData : Image → Option Data) (s : Devices Data) : Prop :=
  ∃ es, (clients pngData).exec .init es = some s.app

theorem reached_step {s s' : Devices Data} {e : Event Image} (hs : s.Reached pngData)
    (hstep : (devices pngData).step s e = some s') : s'.Reached pngData := by
  cases e with
  | client e =>
    rcases hs with ⟨es, hrun⟩
    rcases step_client hstep with ⟨app', happ, hs'⟩
    rw [hs']
    refine ⟨es ++ [e], ?_⟩
    rw [Machine.exec_concat_eq_some]
    exact ⟨s.app, hrun, happ⟩
  | launch auth =>
    rw [step_launch hstep]
    exact hs
  | screen i e =>
    rcases step_screen hstep with ⟨_, _, _, _, _, hs'⟩
    rw [hs']
    exact hs

theorem Reached.exists_rows {s : Devices Data} (hs : s.Reached pngData) (uid : DocumentID)
    : ∃ rows : List RecentUser, ∀ now, s.app.conversationList uid now = rows.map some := by
  rcases hs with ⟨es, hrun⟩
  exact Clients.exists_rows (Clients.inv_of_run hrun).left (Clients.sources_of_run hrun).right uid

def SucceedsAt (i : Nat) : Event Image → Prop
  | .screen j e => j = i → ConversationViewController.Succeeds e
  | .client _ | .launch _ => True

instance (i : Nat) : (e : Event Image) → Decidable (SucceedsAt i e)
  | .screen j e => inferInstanceAs (Decidable (j = i → ConversationViewController.Succeeds e))
  | .client _ | .launch _ => inferInstanceAs (Decidable True)

/--
The list that the store has for `uid` stays as it is, `uid` stays signed in on the device, and none of
its calls fails. Everything else may happen, in the store and on the other devices.
-/
def Stays (i : Nat) (uid : AuthUid) (s : Devices Data) (e : Event Image) (s' : Devices Data) : Prop :=
  s'.app.conversationList uid.value 0 = s.app.conversationList uid.value 0
    ∧ (∀ screen ∈ s'.screens[i]?, screen.auth = some uid.value) ∧ SucceedsAt i e

instance (i : Nat) (uid : AuthUid) (s : Devices Data) (e : Event Image) (s' : Devices Data)
    : Decidable (Stays i uid s e s') :=
  inferInstanceAs (Decidable (_ ∧ _ ∧ _))

structure FollowsAt (pngData : Image → Option Data) (i : Nat) (uid : AuthUid)
    (rows : List RecentUser) (n : Nat) (s : Devices Data) : Prop where
  reached : s.Reached pngData
  list : ∀ now, s.app.conversationList uid.value now = rows.map some
  screen : ∃ screen, s.screens[i]? = some screen ∧ screen.ShowsGeneration
    ∧ screen.Follows uid.value rows n

theorem followsAt_step {i : Nat} {uid : AuthUid} {rows : List RecentUser} {n : Nat}
    (s : Devices Data) (e : Event Image) (s' : Devices Data) (hs : s.FollowsAt pngData i uid rows n)
    (hstep : (devices pngData).step s e = some s') (hstays : Stays i uid s e s')
    : s'.FollowsAt pngData i uid rows n := by
  have hreached := reached_step hs.reached hstep
  rcases hs.screen with ⟨screen, hscreen, hrefs, hfollows⟩
  rcases hstays with ⟨hlist, hauth, hsucceeds⟩
  constructor
  case reached => exact hreached
  case list =>
    rcases hreached.exists_rows uid.value with ⟨rows', hrows'⟩
    rw [hrows' 0, hs.list 0] at hlist
    rw [← List.map_injective_iff.mpr (Option.some_injective _) hlist]
    exact hrows'
  case screen =>
    cases e with
    | client e =>
      rcases step_client hstep with ⟨app', _, hs'⟩
      rw [hs']
      exact ⟨screen, hscreen, hrefs, hfollows⟩
    | launch auth =>
      rw [step_launch hstep]
      refine ⟨screen, ?_, hrefs, hfollows⟩
      rw [List.getElem?_append_left (List.getElem?_eq_some_iff.mp hscreen).choose]
      exact hscreen
    | screen j e =>
      rcases step_screen hstep with ⟨old, screen', hold, hserves, hconversations, hs'⟩
      by_cases hj : j = i
      . rw [hj, hscreen] at hold
        injection hold with hold
        rw [← hold] at hconversations
        have hscreen' : s'.screens[i]? = some screen' := by
          rw [hs', hj]
          exact List.getElem?_set_self (List.getElem?_eq_some_iff.mp hscreen).choose
        refine ⟨screen', hscreen',
          ConversationViewController.showsGeneration_step hrefs hconversations, ?_⟩
        apply hfollows.step hconversations (hauth screen' hscreen') (hsucceeds hj)
        . intro listener documents now users he husers
          rw [he] at hserves
          rw [hserves] at husers
          exact Clients.users_of_conversationList (hs.list now) husers
        . intro k i' documents now he row hrow message hmessage
          rw [he] at hserves
          rw [hserves] at hmessage
          rw [Clients.mem_rows_iff (hs.list now)] at hrow
          rcases hrow with ⟨document, _, hrow⟩
          rw [Clients.row?_eq_some_iff, hmessage] at hrow
          injection hrow.right with hpreview
          exact hpreview.symm
      . refine ⟨screen, ?_, hrefs, hfollows⟩
        rw [hs', List.getElem?_set_ne hj]
        exact hscreen

theorem showsGeneration_of_run {s : Devices Data} {es : List (Event Image)}
    (hrun : (devices pngData).exec init es = some s)
    : ∀ screen ∈ s.screens, screen.ShowsGeneration := by
  have hpreserves : (devices pngData).Preserves
      (fun s => ∀ screen ∈ s.screens, screen.ShowsGeneration) := by
    intro s e s' hs hstep
    cases e with
    | client e =>
      rcases step_client hstep with ⟨app', _, hs'⟩
      rw [hs']
      exact hs
    | launch auth =>
      rw [step_launch hstep]
      rw [List.forall_mem_append, List.forall_mem_singleton]
      exact ⟨hs, Or.inl rfl⟩
    | screen i e =>
      rcases step_screen hstep with ⟨old, screen', hold, _, hconversations, hs'⟩
      rw [hs']
      intro screen hscreen
      cases List.mem_or_eq_of_mem_set hscreen with
      | inl hmem => exact hs screen hmem
      | inr heq =>
        rw [heq]
        exact ConversationViewController.showsGeneration_step (hs old (List.mem_of_getElem? hold))
          hconversations
  refine Machine.exec_preserves hpreserves ?_ hrun
  intro screen hscreen
  contradiction

open Clients (bob team hello hi)

def teamUser : User :=
  ⟨team.value, "Team", "", "", "pt", 10, true⟩

-- Bob's device is launched after the messages to the group.
def launchRun : List (Event Unit) :=
  Clients.teamRun.map .client ++ [.launch (some bob), .screen 0 .viewDidAppear]

def listRun : List (Event Unit) :=
  [
    .screen 0 (.snapshot 0 bob.value [⟨team.value, teamUser.dictionary⟩] 13),
    .screen 0 (.reply bob.value 0 0 [⟨"n", hi.dictionary⟩, ⟨"m", hello.dictionary⟩] 13)
  ]

end Devices

end ChatApplication
