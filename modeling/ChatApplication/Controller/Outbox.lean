import ChatApplication.API.Rows
import ChatApplication.Controller.Isolation

/-!
This module contains one user who sends text and photo messages to other persons: the uploads that
are not finished, and the requests of `addMessage` that are not at Firestore. The question is
whether the rows of the conversation screen are in the order of the messages that they display.
-/

namespace ChatApplication

structure Outbox (Data : Type u) where
  db : Firestore
  -- what the last `Date()` returned
  clock : Date
  uploads : List (Upload Data)
  -- the requests on their way to Firestore, which answers them in order
  writes : List Write
  -- the calls of `addMessage` so far
  calls : List Call

namespace Outbox

inductive Event (Image : Type u) where
  -- Send is pressed in the chat with the peer, the dates are those of `HandleSendMessage` and of
  -- the call of `addMessage` if there is one
  | send (peer : AuthUid) (c : ChatController Image) (date now : Date) (documentID : DocumentID)
      (date' now' : Date)
  | uploadCompleted (i : Nat) (url : String) (documentID : DocumentID) (date' now' : Date)
  | uploadFailed (i : Nat)
  | performWrite

variable {Image : Type u} {Data : Type v}

def init (clock : Date) : Outbox Data :=
  {
    db := ∅
    clock := clock
    uploads := []
    writes := []
    calls := []
  }

-- `addMessage` stamps both users before it puts them into requests.
def stamped (message : Message) (currentUser otherUser : User) (documentID : DocumentID)
    (date now : Date) : Call :=
  {
    documentID := documentID
    message := message
    currentUser := { currentUser with timestamp := date }
    otherUser := { otherUser with timestamp := now }
  }

def addMessage (s : Outbox Data) (message : Message) (currentUser otherUser : User)
    (documentID : DocumentID) (date now : Date) : Option (Outbox Data) :=
  let call := stamped message currentUser otherUser documentID date now
  -- `addDocument` makes up an id that no document has
  if ∀ c ∈ s.calls, c.documentID ≠ documentID then
    some { s with clock := now, writes := s.writes ++ call.writes, calls := s.calls ++ [call] }
  else
    none

def issue (s : Outbox Data) (documentID : DocumentID) (date now : Date)
    : Request Data → Option (Outbox Data)
  | .uploadImage upload => some { s with uploads := s.uploads ++ [upload] }
  | .addMessage message currentUser otherUser =>
    s.addMessage message currentUser otherUser documentID date now

def step (pngData : Image → Option Data) (uid : AuthUid) (s : Outbox Data)
    : Event Image → Option (Outbox Data)
  | .send peer c date now documentID date' now' =>
    match c.user with
    | some user =>
      if peer ≠ uid ∧ (Peer.person peer).IsUser user
          ∧ (∀ currentUser ∈ c.currentUser, currentUser.uid = uid.value)
          ∧ s.clock < date ∧ date ≤ now ∧ now ≤ date' ∧ date' ≤ now' then
        match c.handleSendMessage pngData (some uid.value) date now with
        | some (_, request :: _) => issue { s with clock := now } documentID date' now' request
        | some (_, []) => some { s with clock := now }
        | none => none
      else
        none
    | none => none
  | .uploadCompleted i url documentID date' now' =>
    match s.uploads[i]? with
    | some upload =>
      if s.clock < date' ∧ date' ≤ now' then
        issue { s with uploads := s.uploads.eraseIdx i } documentID date' now'
          (ChatController.addUploaded upload url)
      else
        none
    | none => none
  | .uploadFailed i =>
    if i < s.uploads.length then some { s with uploads := s.uploads.eraseIdx i } else none
  | .performWrite =>
    match s.writes with
    | write :: writes => some { s with db := s.db.setData write.path write.data, writes := writes }
    | [] => none

end Outbox

def outbox {Image : Type u} {Data : Type v} (pngData : Image → Option Data) (uid : AuthUid)
    : Machine (Outbox Data) (Outbox.Event Image) :=
  ⟨Outbox.step pngData uid⟩

namespace Outbox

variable {Image : Type u} {Data : Type v} {pngData : Image → Option Data} {uid : AuthUid}

-- no upload or write is pending
def Idle (s : Outbox Data) : Prop :=
  s.uploads = [] ∧ s.writes = []

-- When a photo is uploaded, no other chat has a message that is newer than the photo and than all
-- messages which the chat of the photo has got meanwhile.
def KeepsNewest (s : Outbox Data) : Event Image → Prop
  | .uploadCompleted i _ _ _ _ => ∀ upload ∈ s.uploads[i]?, ∀ call ∈ s.calls,
      call.peer ≠ upload.otherUser.uid →
        call.sentAt ≤ upload.message.timestamp
          ∨
        ∃ call' ∈ s.calls, call'.peer = upload.otherUser.uid ∧ call.sentAt ≤ call'.sentAt
  | _ => True

instance (s : Outbox Data) (e : Event Image) : Decidable (s.KeepsNewest e) := by
  unfold KeepsNewest
  split
  all_goals infer_instance

-- the store as it will be when all requests have been answered
def view (s : Outbox Data) : Firestore :=
  DatabaseManager.perform s.db s.writes

structure OutboxInv (uid : AuthUid) (s : Outbox Data) : Prop where
  calls : Call.AddedInTurn uid s.calls
  clock : ∀ call ∈ s.calls, call.sentAt ≤ s.clock ∧ call.addedAt ≤ s.clock
  uploads : ∀ upload ∈ s.uploads,
    Call.IsDirect uid upload.message upload.currentUser upload.otherUser
      ∧ upload.message.timestamp ≤ s.clock
  stored : s.view = Call.store s.calls

theorem outboxInv_init (clock : Date) : OutboxInv uid (init clock : Outbox Data) := by
  constructor
  case calls =>
    constructor
    case direct => simp [init]
    case ids => simp [init]
    case inTurn => simp [init]
  case clock => simp [init]
  case uploads => simp [init]
  case stored => rfl

-- What a step does to the calls. It keeps the rows in order if and only if `C`.
structure Extends (uid : AuthUid) (s : Outbox Data) (C : Prop) (s' : Outbox Data) : Prop where
  inv : OutboxInv uid s'
  calls : (C ∧ s'.calls = s.calls)
    ∨
    ∃ call, s'.calls = s.calls ++ [call] ∧ (∀ c ∈ s.calls, c.addedAt < call.addedAt)
      ∧ (C ↔ Recency.KeepsNewest Call.peer Call.sentAt s.calls call)

theorem OutboxInv.of_uploads {s : Outbox Data} (hs : OutboxInv uid s) {clock : Date}
    (hclock : s.clock ≤ clock) {uploads : List (Upload Data)}
    (huploads : ∀ upload ∈ uploads,
      Call.IsDirect uid upload.message upload.currentUser upload.otherUser
        ∧ upload.message.timestamp ≤ clock)
    : OutboxInv uid { s with clock := clock, uploads := uploads } := by
  constructor
  case calls => exact hs.calls
  case clock =>
    intro call hcall
    have hle := hs.clock call hcall
    exact ⟨hle.left.trans hclock, hle.right.trans hclock⟩
  case uploads => exact huploads
  case stored => exact hs.stored

theorem OutboxInv.of_subset {s : Outbox Data} (hs : OutboxInv uid s) {clock : Date}
    (hclock : s.clock ≤ clock) {uploads : List (Upload Data)} (huploads : uploads ⊆ s.uploads)
    : OutboxInv uid { s with clock := clock, uploads := uploads } := by
  apply hs.of_uploads hclock
  intro upload hupload
  have hold := hs.uploads upload (huploads hupload)
  exact ⟨hold.left, hold.right.trans hclock⟩

theorem OutboxInv.addMessage {s s' : Outbox Data} (hs : OutboxInv uid s) {message : Message}
    {currentUser otherUser : User} (hdirect : Call.IsDirect uid message currentUser otherUser)
    {documentID : DocumentID} {date now : Date} (hsent : message.timestamp ≤ now)
    (hclock : s.clock ≤ now) (hlater : ∀ c ∈ s.calls, c.addedAt < now)
    (h : s.addMessage message currentUser otherUser documentID date now = some s')
    : OutboxInv uid s'
        ∧ s'.calls = s.calls ++ [stamped message currentUser otherUser documentID date now] := by
  unfold Outbox.addMessage at h
  dsimp only at h
  split at h
  . next hfresh =>
    injection h with h
    rw [← h]
    refine ⟨?_, rfl⟩
    constructor
    case calls =>
      rw [Call.addedInTurn_append]
      exact ⟨hs.calls, hdirect, hfresh, hlater⟩
    case clock =>
      rw [List.forall_mem_append, List.forall_mem_singleton]
      refine ⟨?_, hsent, le_refl now⟩
      intro call hcall
      have hle := hs.clock call hcall
      exact ⟨hle.left.trans hclock, hle.right.trans hclock⟩
    case uploads =>
      intro upload hupload
      have hold := hs.uploads upload hupload
      exact ⟨hold.left, hold.right.trans hclock⟩
    case stored =>
      have hstored := hs.stored
      unfold view at hstored ⊢
      rw [DatabaseManager.perform_append, hstored, Call.store_append]
  . contradiction

theorem Extends.of_calls_eq {s s' : Outbox Data} {C : Prop} (hs' : OutboxInv uid s') (hC : C)
    (hcalls : s'.calls = s.calls) : s.Extends uid C s' :=
  ⟨hs', Or.inl ⟨hC, hcalls⟩⟩

theorem OutboxInv.send {s s' : Outbox Data} (hs : OutboxInv uid s) {peer : AuthUid}
    {c : ChatController Image} {date now date' now' : Date} {documentID : DocumentID}
    (h : (outbox pngData uid).step s (.send peer c date now documentID date' now') = some s')
    : s.Extends uid True s' := by
  simp only [outbox, step] at h
  split at h
  . next user huser =>
    split at h
    . next hguard =>
      rcases hguard with ⟨hpeer, hisUser, hcurrentUser, hdate, hnow, hdate', hnow'⟩
      have hclock : s.clock ≤ now := hdate.le.trans hnow
      split at h
      . next c' request requests hsend =>
        have hs' : OutboxInv uid { s with clock := now } :=
          hs.of_subset hclock (List.Subset.refl _)
        rcases ChatController.request_of_handleSendMessage huser hsend request List.mem_cons_self
          with ⟨currentUser, hmem, hadd | ⟨imageData, hupload⟩⟩
        . rw [hadd] at h
          have hdirect : Call.IsDirect uid (c.composed uid.value user now) currentUser user :=
            ⟨peer, hpeer, hisUser, rfl, hcurrentUser currentUser hmem⟩
          have hlater : ∀ call ∈ s.calls, call.addedAt < now' := by
            intro call hcall
            calc call.addedAt
              _ ≤ s.clock := (hs.clock call hcall).right
              _ < date := hdate
              _ ≤ now := hnow
              _ ≤ now' := hdate'.trans hnow'
          rcases hs'.addMessage hdirect (hdate'.trans hnow') (hdate'.trans hnow') hlater h
            with ⟨hinv, hcalls⟩
          refine ⟨hinv, Or.inr ⟨_, hcalls, hlater, iff_of_true trivial ?_⟩⟩
          intro call hcall _
          exact Or.inl ((hs.clock call hcall).left.trans hclock)
        . rw [hupload] at h
          injection h with h
          rw [← h]
          refine Extends.of_calls_eq (hs'.of_uploads (le_refl now) ?_) trivial rfl
          rw [List.forall_mem_append, List.forall_mem_singleton]
          refine ⟨hs'.uploads, ?_, le_refl now⟩
          exact ⟨peer, hpeer, hisUser, rfl, hcurrentUser currentUser hmem⟩
      . next c' hsend =>
        injection h with h
        rw [← h]
        exact Extends.of_calls_eq (hs.of_subset hclock (List.Subset.refl _)) trivial rfl
      . contradiction
    . contradiction
  . contradiction

theorem OutboxInv.uploadCompleted {s s' : Outbox Data} (hs : OutboxInv uid s) {i : Nat}
    {url : String} {documentID : DocumentID} {date' now' : Date}
    (h : (outbox pngData uid).step s (.uploadCompleted i url documentID date' now') = some s')
    : s.Extends uid (s.KeepsNewest (.uploadCompleted i url documentID date' now' : Event Image))
        s' := by
  simp only [outbox, step] at h
  split at h
  . next upload hupload =>
    split at h
    . next hguard =>
      have hold := hs.uploads upload (List.mem_of_getElem? hupload)
      have hs' : OutboxInv uid { s with uploads := s.uploads.eraseIdx i } :=
        hs.of_subset (le_refl s.clock) List.eraseIdx_subset
      have hclock : s.clock ≤ now' := hguard.left.le.trans hguard.right
      have hlater : ∀ call ∈ s.calls, call.addedAt < now' := by
        intro call hcall
        calc call.addedAt
          _ ≤ s.clock := (hs.clock call hcall).right
          _ < date' := hguard.left
          _ ≤ now' := hguard.right
      have hdirect : Call.IsDirect uid { upload.message with imageUrl := some url }
          upload.currentUser upload.otherUser := hold.left
      rcases hs'.addMessage hdirect (hold.right.trans hclock) hclock hlater h
        with ⟨hinv, hcalls⟩
      refine ⟨hinv, Or.inr ⟨_, hcalls, hlater, ?_⟩⟩
      simp [KeepsNewest, hupload, Recency.KeepsNewest, stamped, Call.peer, Call.sentAt]
    . contradiction
  . contradiction

theorem OutboxInv.performWrite {s s' : Outbox Data} (hs : OutboxInv uid s)
    (h : (outbox pngData uid).step s .performWrite = some s') : s.Extends uid True s' := by
  simp only [outbox, step] at h
  split at h
  . next write writes hwrites =>
    injection h with h
    have hstored := hs.stored
    rw [← h]
    refine Extends.of_calls_eq ⟨hs.calls, hs.clock, hs.uploads, ?_⟩ trivial rfl
    unfold view at hstored ⊢
    rw [hwrites, DatabaseManager.perform_cons] at hstored
    exact hstored
  . contradiction

theorem extends_step {s s' : Outbox Data} {e : Event Image} (hs : OutboxInv uid s)
    (hstep : (outbox pngData uid).step s e = some s') : s.Extends uid (s.KeepsNewest e) s' := by
  cases e with
  | send peer c date now documentID date' now' => exact hs.send hstep
  | uploadCompleted i url documentID date' now' => exact hs.uploadCompleted hstep
  | uploadFailed i =>
    simp only [outbox, step] at hstep
    split at hstep
    . injection hstep with hstep
      rw [← hstep]
      exact Extends.of_calls_eq (hs.of_subset (le_refl s.clock) List.eraseIdx_subset) trivial rfl
    . contradiction
  | performWrite => exact hs.performWrite hstep

-- The rows will be in order when all requests have been answered.
def InOrder (s : Outbox Data) : Prop :=
  Recency.InOrder Call.peer Call.sentAt Call.addedAt s.calls

structure OrderInv (uid : AuthUid) (s : Outbox Data) : Prop where
  inv : OutboxInv uid s
  inOrder : s.InOrder

theorem orderInv_init (clock : Date) : OrderInv uid (init clock : Outbox Data) :=
  ⟨outboxInv_init clock, Recency.inOrder_nil⟩

theorem OrderInv.inOrder_step {s s' : Outbox Data} {e : Event Image} (hs : OrderInv uid s)
    (hstep : (outbox pngData uid).step s e = some s') : s'.InOrder ↔ s.KeepsNewest e := by
  have horder := hs.inOrder
  unfold InOrder at horder ⊢
  cases (extends_step hs.inv hstep).calls with
  | inl hsame =>
    rw [hsame.right]
    exact iff_of_true horder hsame.left
  | inr hnew =>
    rcases hnew with ⟨call, hcalls, hlater, hkeeps⟩
    rw [hcalls, hkeeps]
    exact Recency.inOrder_append_iff horder hlater

theorem OutboxInv.rowsInOrder_view_iff {s : Outbox Data} (hs : OutboxInv uid s) (now : Date)
    : DatabaseManager.RowsInOrder s.view uid.value now ↔ s.InOrder := by
  rw [hs.stored]
  exact hs.calls.rowsInOrder_iff now

-- Requests are answered in order, so it is known when the photo is uploaded how the rows end up.
theorem rowsInOrder_view_iff_keepsNewest (clock now : Date) (es : List (Event Image))
    : (outbox pngData uid).Meets
          (fun _ _ s' => DatabaseManager.RowsInOrder s'.view uid.value now) (init clock) es
        ↔
      (outbox pngData uid).Meets (fun s e _ => s.KeepsNewest e) (init clock) es := by
  have hinit : OrderInv uid (init clock : Outbox Data) := orderInv_init clock
  apply Machine.meets_congr _ _ hinit
  . intro s e s' hs hstep hrows
    have hs' := (extends_step hs.inv hstep).inv
    exact ⟨hs', (hs'.rowsInOrder_view_iff now).mp hrows⟩
  . intro s e s' hs hstep
    rw [(extends_step hs.inv hstep).inv.rowsInOrder_view_iff now]
    exact hs.inOrder_step hstep

theorem view_of_idle {s : Outbox Data} (h : s.Idle) : s.view = s.db := by
  unfold view
  rw [h.right]
  rfl

theorem rowsInOrder_of_keepsNewest (clock now : Date) {es : List (Event Image)} {s : Outbox Data}
    (hrun : (outbox pngData uid).exec (init clock) es = some s) (hidle : s.Idle)
    (hkeeps : (outbox pngData uid).Meets (fun s e _ => s.KeepsNewest e) (init clock) es)
    : DatabaseManager.RowsInOrder s.db uid.value now := by
  have hs : OrderInv uid s := by
    apply Machine.exec_preserves_of_meets _ (orderInv_init clock) hrun hkeeps
    intro s e s' hs hstep hkeeps
    exact ⟨(extends_step hs.inv hstep).inv, (hs.inOrder_step hstep).mpr hkeeps⟩
  rw [← view_of_idle hidle, hs.inv.rowsInOrder_view_iff now]
  exact hs.inOrder

def carol : AuthUid :=
  ⟨"carolcarolcarolcarolcarolcar", by decide, by simp⟩

def annUser : User :=
  ⟨Chats.ann.value, "Ann", "A", "ann@mail.org", "pa", 1, false⟩

def bobUser : User :=
  ⟨Chats.bob.value, "Bob", "B", "bob@mail.org", "pb", 1, false⟩

def carolUser : User :=
  ⟨carol.value, "Carol", "C", "carol@mail.org", "pc", 1, false⟩

-- Ann sends a photo to Bob and then a text to Carol. The photo is uploaded after the text is sent.
def photoRun : List (Event Unit) :=
  [
    .send Chats.bob ⟨some bobUser, some annUser, some (), "", some ()⟩ 1 1 "" 1 1,
    .send carol ⟨some carolUser, some annUser, none, "hello", none⟩ 2 2 "m1" 2 2,
    .uploadCompleted 0 "url" "m2" 3 3,
    .performWrite, .performWrite, .performWrite, .performWrite, .performWrite, .performWrite
  ]

-- Ann sends a text to Carol and then a photo to Bob.
def textRun : List (Event Unit) :=
  [
    .send carol ⟨some carolUser, some annUser, none, "hello", none⟩ 1 1 "m1" 1 1,
    .send Chats.bob ⟨some bobUser, some annUser, some (), "", some ()⟩ 2 2 "" 2 2,
    .uploadCompleted 0 "url" "m2" 3 3,
    .performWrite, .performWrite, .performWrite, .performWrite, .performWrite, .performWrite
  ]

theorem rowsInOrder_of_keepsNewest_textRun
    : ∃ s, (outbox (fun image => some image) Chats.ann).exec (init 0) textRun = some s ∧ s.Idle
        ∧ DatabaseManager.RowsInOrder s.db Chats.ann.value 4 := by
  have hrun : (outbox (fun image => some image) Chats.ann).exec (init 0) textRun = some _ := rfl
  exact ⟨_, hrun, ⟨rfl, rfl⟩, rowsInOrder_of_keepsNewest 0 4 hrun ⟨rfl, rfl⟩ (by decide)⟩

theorem not_rowsInOrder
    : ¬∀ (uid : AuthUid) (clock now : Date) (es : List (Event Unit)) (s : Outbox Unit),
        (outbox (fun image => some image) uid).exec (init clock) es = some s → s.Idle →
          DatabaseManager.RowsInOrder s.db uid.value now := by
  intro h
  have hrows := h Chats.ann 0 4 photoRun _ rfl ⟨rfl, rfl⟩
  exact absurd hrows (by decide)

end Outbox

end ChatApplication
