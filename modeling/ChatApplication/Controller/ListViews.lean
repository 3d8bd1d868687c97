import ChatApplication.Controller.ChatListener.Generations
import ChatApplication.Controller.ConversationViewController.Accounts

/-!
This module contains the collection views of the conversation screen and the table view of a chat.
They keep a row count while the list behind them is replaced, and are told so later by a block on
the main queue.
-/

namespace ChatApplication

-- the views that have a controller as their data source, the last one is the one it refers to
structure ListViews where
  -- the row counts that the views have read, `none` before their first layout
  rows : List (Option Nat)
  -- the blocks on the main queue which call `reloadData`
  blocks : Nat
  deriving DecidableEq, Repr

namespace ListViews

def addView (views : ListViews) : ListViews :=
  { views with rows := views.rows ++ [none] }

def async (views : ListViews) : ListViews :=
  { views with blocks := views.blocks + 1 }

-- A block is run, `none` is also where the implicitly unwrapped view is nil.
def reloadData (views : ListViews) (count : Nat) : Option ListViews :=
  if 0 < views.blocks ∧ views.rows ≠ [] then
    some { rows := views.rows.dropLast ++ [some count], blocks := views.blocks - 1 }
  else
    none

def firstLayout (views : ListViews) (i count : Nat) : Option ListViews :=
  if views.rows[i]? = some none then
    some { views with rows := views.rows.set i (some count) }
  else
    none

-- A layout pass may ask for the row, or a tap on it may be reported.
def Requests (views : ListViews) (row : Nat) : Prop :=
  ∃ count, some count ∈ views.rows ∧ row < count

def InRange (views : ListViews) (count : Nat) : Prop :=
  ∀ row, views.Requests row → row < count

def AtMost (views : ListViews) (count : Nat) : Prop :=
  ∀ view ∈ views.rows, ∀ rows ∈ view, rows ≤ count

instance (views : ListViews) (count : Nat) : Decidable (views.AtMost count) :=
  inferInstanceAs (Decidable (∀ view ∈ views.rows, ∀ rows ∈ view, rows ≤ count))

theorem inRange_iff_atMost {views : ListViews} {count : Nat}
    : views.InRange count ↔ views.AtMost count := by
  constructor
  . intro h view hview rows hrows
    rw [Option.mem_def] at hrows
    rw [hrows] at hview
    by_contra hlt
    have hcontra := h count ⟨rows, hview, by omega⟩
    omega
  . rintro h row ⟨rows, hrows, hrow⟩
    have hle := h (some rows) hrows rows rfl
    omega

instance (views : ListViews) (count : Nat) : Decidable (views.InRange count) :=
  decidable_of_iff _ inRange_iff_atMost.symm

theorem atMost_addView {views : ListViews} {count : Nat}
    : views.addView.AtMost count ↔ views.AtMost count := by
  simp [AtMost, addView, or_imp, forall_and]

-- The list is replaced, or left as it is.
theorem AtMost.getD_iff {views : ListViews} {count : Nat} (h : views.AtMost count)
    (published : Option Nat)
    : views.AtMost (published.getD count) ↔ ∀ count' ∈ published, views.AtMost count' := by
  cases published with
  | none => simp [h]
  | some count' => simp

theorem AtMost.reloadData {views views' : ListViews} {count : Nat} (h : views.AtMost count)
    (hreload : views.reloadData count = some views') : views'.AtMost count := by
  unfold ListViews.reloadData at hreload
  split at hreload
  . injection hreload with hreload
    rw [← hreload]
    intro view hview rows hrows
    rw [List.mem_append, List.mem_singleton] at hview
    cases hview with
    | inl hview => exact h view (List.mem_of_mem_dropLast hview) rows hrows
    | inr heq =>
      rw [heq, Option.mem_some_iff] at hrows
      exact hrows.ge
  . contradiction

theorem AtMost.firstLayout {views views' : ListViews} {i count : Nat} (h : views.AtMost count)
    (hlayout : views.firstLayout i count = some views') : views'.AtMost count := by
  unfold ListViews.firstLayout at hlayout
  split at hlayout
  . injection hlayout with hlayout
    rw [← hlayout]
    intro view hview rows hrows
    cases List.mem_or_eq_of_mem_set hview with
    | inl hview => exact h view hview rows hrows
    | inr heq =>
      rw [heq, Option.mem_some_iff] at hrows
      exact hrows.ge
  . contradiction

end ListViews

structure ConversationViews where
  controller : ConversationViewController
  -- the collection views that `configureUI` has created so far
  views : ListViews

namespace ConversationViews

inductive Event where
  -- a login through `LoginViewController` is one of these events
  | controller (e : ConversationViewController.Event)
  -- a sign up, `RegisterViewController` has no delegate that would configure the screen
  | signup (uid : DocumentID)
  | reloadData
  | firstLayout (view : Nat)
  deriving Repr

-- `isLoggedIn` configures the screen if there is a session.
def launch (auth : Option DocumentID) : ConversationViews :=
  {
    controller := ConversationViewController.launch auth
    views := if auth.isSome then ListViews.addView ⟨[], 0⟩ else ⟨[], 0⟩
  }

-- what an event of the controller means for the views
def notify (views : ListViews) : ConversationViewController.Event → ListViews
  | .login _ => views.addView
  | .reply _ _ _ _ _ => views.async
  | _ => views

def step (s : ConversationViews) : Event → Option ConversationViews
  | .controller e =>
    match conversations.step s.controller e with
    | some controller => some ⟨controller, notify s.views e⟩
    | none => none
  | .signup uid =>
    match conversations.step s.controller (.login uid) with
    | some controller => some { s with controller := controller }
    | none => none
  | .reloadData =>
    match s.views.reloadData s.controller.recentUsers.length with
    | some views => some { s with views := views }
    | none => none
  | .firstLayout view =>
    match s.views.firstLayout view s.controller.recentUsers.length with
    | some views => some { s with views := views }
    | none => none

end ConversationViews

def conversationViews : Machine ConversationViews ConversationViews.Event :=
  ⟨ConversationViews.step⟩

structure ChatTable where
  listener : ChatListener
  -- the `tableView` of a `UITableViewController` is always there
  views : ListViews

namespace ChatTable

inductive Event where
  | listener (e : ChatListener.Event)
  | reloadData
  | firstLayout
  deriving Repr

def init : ChatTable :=
  {
    listener := ChatListener.init
    views := ⟨[none], 0⟩
  }

def notify (views : ListViews) : ChatListener.Event → ListViews
  | .userFetched _ _ _ => views.async
  | _ => views

def step (messageId : String) (s : ChatTable) : Event → Option ChatTable
  | .listener e =>
    match (chatListener messageId).step s.listener e with
    | some listener => some ⟨listener, notify s.views e⟩
    | none => none
  | .reloadData =>
    match s.views.reloadData s.listener.published.length with
    | some views => some { s with views := views }
    | none => none
  | .firstLayout =>
    match s.views.firstLayout 0 s.listener.published.length with
    | some views => some { s with views := views }
    | none => none

end ChatTable

def chatTable (messageId : String) : Machine ChatTable ChatTable.Event :=
  ⟨ChatTable.step messageId⟩

namespace ConversationViewController

-- how many users an event publishes
def publishes (s : ConversationViewController) : Event → Option Nat
  | .reply uid k _ _ _ =>
    ((s.generations uid)[k]?).map (fun generation => generation.users.length)
  | _ => none

theorem length_recentUsers_step {s s' : ConversationViewController} {e : Event}
    (h : conversations.step s e = some s')
    : s'.recentUsers.length = (s.publishes e).getD s.recentUsers.length := by
  cases e with
  | viewDidAppear =>
    rw [(step_viewDidAppear h).right, getRecentConversations_eq]
    rfl
  | viewDidDisappear =>
    rw [(step_viewDidDisappear h).right, removeListener_eq]
    rfl
  | logout throws =>
    rw [(step_logout h).right]
    rfl
  | presentLoginScreen =>
    rw [(step_presentLoginScreen h).right, removeListener_eq]
    rfl
  | login uid =>
    rw [(step_login h).right]
    rfl
  | snapshot listener uid documents now =>
    rcases step_snapshot h with ⟨_, users, _, hs'⟩
    rw [hs']
    rfl
  | reply uid k j documents now =>
    rcases step_reply h with ⟨generation, user, message, hgeneration, _, _, _, hs'⟩
    rw [hs']
    simp [publishes, hgeneration, publish, Generation.refs]
  | fail uid k j =>
    rcases step_fail h with ⟨generation, _, _, hs'⟩
    rw [hs']
    rfl

end ConversationViewController

namespace ChatListener

-- how many messages an event publishes
def publishes (s : ChatListener) : Event → Option Nat
  | .userFetched i _ _ => (s.requests[i]?).map (fun request => request.messages.length)
  | _ => none

theorem length_published_step {messageId : String} {s s' : ChatListener} {e : Event}
    (h : (chatListener messageId).step s e = some s')
    : s'.published.length = (s.publishes e).getD s.published.length := by
  cases e with
  | snapshot changes now =>
    rcases step_snapshot h with ⟨_, added, _, hs'⟩
    rw [hs']
    rfl
  | userFetched i data now =>
    rcases step_userFetched h with ⟨request, user, hrequest, _, hs'⟩
    rw [hs']
    simp [publishes, hrequest]
  | fetchFailed i =>
    rw [step_fetchFailed h]
    rfl

end ChatListener

namespace ConversationViews

def InRange (s : ConversationViews) : Prop :=
  s.views.InRange s.controller.recentUsers.length

-- No reply publishes less users than a collection view has rows.
def PublishesEnough (s : ConversationViews) : Event → Prop
  | .controller e => ∀ count ∈ s.controller.publishes e, s.views.AtMost count
  | _ => True

instance (s : ConversationViews) : Decidable s.InRange :=
  inferInstanceAs (Decidable (s.views.InRange s.controller.recentUsers.length))

instance (s : ConversationViews) (e : Event) : Decidable (s.PublishesEnough e) := by
  unfold PublishesEnough
  split
  all_goals infer_instance

@[simp]
theorem atMost_notify {views : ListViews} {count : Nat} {e : ConversationViewController.Event}
    : (notify views e).AtMost count ↔ views.AtMost count := by
  unfold notify
  split
  . exact ListViews.atMost_addView
  . rfl
  . rfl

theorem inRange_launch (auth : Option DocumentID) : (launch auth).InRange := by
  unfold InRange
  rw [ListViews.inRange_iff_atMost]
  cases auth with
  | none => simp [launch, ListViews.AtMost]
  | some uid => simp [launch, ListViews.AtMost, ListViews.addView]

theorem inRange_step {s s' : ConversationViews} {e : Event} (hs : s.InRange)
    (hstep : conversationViews.step s e = some s') : s.PublishesEnough e ↔ s'.InRange := by
  unfold InRange at hs ⊢
  rw [ListViews.inRange_iff_atMost] at hs ⊢
  cases e with
  | controller e =>
    simp only [conversationViews, step] at hstep
    split at hstep
    . next controller hcontroller =>
      injection hstep with hstep
      rw [← hstep, ConversationViewController.length_recentUsers_step hcontroller, atMost_notify,
        hs.getD_iff]
      rfl
    . contradiction
  | signup uid =>
    simp only [conversationViews, step] at hstep
    split at hstep
    . next controller hcontroller =>
      injection hstep with hstep
      rw [← hstep, ConversationViewController.length_recentUsers_step hcontroller]
      exact iff_of_true trivial hs
    . contradiction
  | reloadData =>
    simp only [conversationViews, step] at hstep
    split at hstep
    . next views hviews =>
      injection hstep with hstep
      rw [← hstep]
      exact iff_of_true trivial (hs.reloadData hviews)
    . contradiction
  | firstLayout view =>
    simp only [conversationViews, step] at hstep
    split at hstep
    . next views hviews =>
      injection hstep with hstep
      rw [← hstep]
      exact iff_of_true trivial (hs.firstLayout hviews)
    . contradiction

end ConversationViews

namespace ChatTable

def InRange (s : ChatTable) : Prop :=
  s.views.InRange s.listener.published.length

-- No reply publishes less messages than the table view has rows.
def PublishesEnough (s : ChatTable) : Event → Prop
  | .listener e => ∀ count ∈ s.listener.publishes e, s.views.AtMost count
  | _ => True

instance (s : ChatTable) : Decidable s.InRange :=
  inferInstanceAs (Decidable (s.views.InRange s.listener.published.length))

instance (s : ChatTable) (e : Event) : Decidable (s.PublishesEnough e) := by
  unfold PublishesEnough
  split
  all_goals infer_instance

@[simp]
theorem atMost_notify {views : ListViews} {count : Nat} {e : ChatListener.Event}
    : (notify views e).AtMost count ↔ views.AtMost count := by
  unfold notify
  split
  . rfl
  . rfl

theorem inRange_init : init.InRange := by
  unfold InRange
  rw [ListViews.inRange_iff_atMost]
  simp [init, ListViews.AtMost]

theorem inRange_step {messageId : String} {s s' : ChatTable} {e : Event} (hs : s.InRange)
    (hstep : (chatTable messageId).step s e = some s') : s.PublishesEnough e ↔ s'.InRange := by
  unfold InRange at hs ⊢
  rw [ListViews.inRange_iff_atMost] at hs ⊢
  cases e with
  | listener e =>
    simp only [chatTable, step] at hstep
    split at hstep
    . next listener hlistener =>
      injection hstep with hstep
      rw [← hstep, ChatListener.length_published_step hlistener, atMost_notify, hs.getD_iff]
      rfl
    . contradiction
  | reloadData =>
    simp only [chatTable, step] at hstep
    split at hstep
    . next views hviews =>
      injection hstep with hstep
      rw [← hstep]
      exact iff_of_true trivial (hs.reloadData hviews)
    . contradiction
  | firstLayout =>
    simp only [chatTable, step] at hstep
    split at hstep
    . next views hviews =>
      injection hstep with hstep
      rw [← hstep]
      exact iff_of_true trivial (hs.firstLayout hviews)
    . contradiction

end ChatTable

theorem inRange_iff_publishesEnough (auth : Option DocumentID) (es : List ConversationViews.Event)
    (messageId : String) (es' : List ChatTable.Event)
    : (conversationViews.Meets (fun _ _ s' => s'.InRange) (ConversationViews.launch auth) es
          ↔
        conversationViews.Meets (fun s e _ => s.PublishesEnough e) (ConversationViews.launch auth)
          es)
        ∧
      ((chatTable messageId).Meets (fun _ _ s' => s'.InRange) ChatTable.init es'
          ↔
        (chatTable messageId).Meets (fun s e _ => s.PublishesEnough e) ChatTable.init es') := by
  constructor
  . apply Machine.meets_congr _ _ (ConversationViews.inRange_launch auth)
    . intro s e s' hs hstep hrange
      exact hrange
    . intro s e s' hs hstep
      exact (ConversationViews.inRange_step hs hstep).symm
  . apply Machine.meets_congr _ _ ChatTable.inRange_init
    . intro s e s' hs hstep hrange
      exact hrange
    . intro s e s' hs hstep
      exact (ChatTable.inRange_step hs hstep).symm

-- The account that is used first has more recent users. Its collection view is still there when the
-- other one is configured, and is never told to reload again.
def ConversationViews.sharedDeviceRun : List ConversationViews.Event :=
  [
    .controller (.login "a"), .controller .viewDidAppear,
    .controller (.snapshot 0 "a"
      [ConversationViewController.recentUser "b", ConversationViewController.recentUser "d"] 1),
    .controller (.reply "a" 0 0 [] 2), .firstLayout 0, .reloadData,
    .controller (.logout false), .controller .presentLoginScreen,
    .controller (.login "c"), .controller .viewDidAppear,
    .controller (.snapshot 1 "c" [ConversationViewController.recentUser "b"] 3),
    .controller (.reply "c" 0 0 [] 4)
  ]

-- A reply for the first snapshot comes after one for the second.
def ChatTable.overtakenRun : List ChatTable.Event :=
  [
    .listener (.snapshot [⟨.added, ChatListener.chatMessage "m1" 1, 0⟩] 1),
    .listener (.snapshot [⟨.added, ChatListener.chatMessage "m2" 2, 1⟩] 2),
    .listener (.userFetched 2 ChatListener.chatUser 3), .firstLayout,
    .listener (.userFetched 0 ChatListener.chatUser 3)
  ]

theorem not_inRange
    : (¬∀ (auth : Option DocumentID) (es : List ConversationViews.Event),
        conversationViews.Meets (fun _ _ s' => s'.InRange) (ConversationViews.launch auth) es)
        ∧
      ¬∀ (messageId : String) (es : List ChatTable.Event),
        (chatTable messageId).Meets (fun _ _ s' => s'.InRange) ChatTable.init es := by
  constructor
  . intro h
    exact absurd (h none ConversationViews.sharedDeviceRun) (by decide)
  . intro h
    exact absurd (h "ba" ChatTable.overtakenRun) (by decide)

end ChatApplication
