import ChatApplication.Controller.ChatController
import ChatApplication.API.DatabaseManager
import ChatApplication.Machine.Basic

/-!
This module contains any number of users that write to persons and groups with `HandleSendMessage`,
and which of their messages the queries for a conversation select.
-/

namespace ChatApplication

-- a message on its way to Firestore, with the user who wrote it and the peer that it is for
structure Outgoing (Data : Type u) where
  sender : AuthUid
  peer : Peer
  request : Request Data

-- a stored message, sender and peer are not known to Firestore
structure Sent where
  document : DocumentSnapshot
  sender : AuthUid
  peer : Peer

structure Chats (Data : Type u) where
  db : Firestore
  groups : List GroupID
  outgoing : List (Outgoing Data)
  sent : List Sent

namespace Chats

inductive Event (Image : Type u) where
  | createGroup (id : GroupID)
  -- a signed in user presses Send in a chat with the peer
  | send (sender : AuthUid) (peer : Peer) (c : ChatController Image) (date now : Date)
  | uploadCompleted (i : Nat) (url : String)
  | uploadFailed (i : Nat)
  -- the first write of `addMessage`
  | addDocument (i : Nat) (documentID : DocumentID)
  -- any other write of any operation
  | write (write : Write)

variable {Image : Type u} {Data : Type v}

def init : Chats Data :=
  {
    db := ∅
    groups := []
    outgoing := []
    sent := []
  }

-- All persons with an account may be written to, but only groups that were created.
def Known (s : Chats Data) : Peer → Prop
  | .person _ => True
  | .group id => id ∈ s.groups

instance (s : Chats Data) : (peer : Peer) → Decidable (s.Known peer)
  | .person _ => inferInstanceAs (Decidable True)
  | .group id => inferInstanceAs (Decidable (id ∈ s.groups))

def documents (s : Chats Data) : List DocumentSnapshot :=
  s.db.getDocuments .messages

def step (pngData : Image → Option Data) (s : Chats Data) : Event Image → Option (Chats Data)
  | .createGroup id =>
    if ∀ id' ∈ s.groups, id'.uuid ≠ id.uuid then
      some { s with groups := s.groups ++ [id] }
    else
      none
  | .send sender peer c date now =>
    match c.user with
    | some user =>
      if s.Known peer ∧ peer ≠ .person sender ∧ peer.IsUser user then
        match c.handleSendMessage pngData (some sender.value) date now with
        | some (_, requests) =>
          some { s with outgoing := s.outgoing ++ requests.map (Outgoing.mk sender peer) }
        | none => none
      else
        none
    | none => none
  | .uploadCompleted i url =>
    match s.outgoing[i]? with
    | some ⟨sender, peer, .uploadImage upload⟩ =>
      let request := ChatController.addUploaded upload url
      some { s with outgoing := s.outgoing.set i ⟨sender, peer, request⟩ }
    | _ => none
  | .uploadFailed i =>
    match s.outgoing[i]? with
    | some ⟨_, _, .uploadImage _⟩ => some { s with outgoing := s.outgoing.eraseIdx i }
    | _ => none
  | .addDocument i documentID =>
    match s.outgoing[i]? with
    | some ⟨sender, peer, .addMessage message _ _⟩ =>
      -- `addDocument` makes up an id that no document of the collection has
      if s.db.getDocument ⟨.messages, documentID⟩ = none then
        some {
          s with
          db := s.db.setData ⟨.messages, documentID⟩ message.dictionary
          outgoing := s.outgoing.eraseIdx i
          sent := s.sent ++ [⟨⟨documentID, message.dictionary⟩, sender, peer⟩]
        }
      else
        none
    | _ => none
  | .write write =>
    if write.path.collection = .messages then
      none
    else
      some { s with db := s.db.setData write.path write.data }

end Chats

def chats {Image : Type u} {Data : Type v} (pngData : Image → Option Data)
    : Machine (Chats Data) (Chats.Event Image) :=
  ⟨Chats.step pngData⟩

namespace Chats

variable {Image : Type u} {Data : Type v} {pngData : Image → Option Data}

-- The message carries the key that its sender and its peer have in common.
def Addressed (s : Chats Data) (sender : AuthUid) (peer : Peer) (message : Message) : Prop :=
  s.Known peer ∧ peer ≠ .person sender ∧ message.msgId.toList = peer.key sender

structure Consistent (s : Chats Data) : Prop where
  uuids : ∀ id ∈ s.groups, ∀ id' ∈ s.groups, id.uuid = id'.uuid → id = id'
  outgoing : ∀ outgoing ∈ s.outgoing,
    s.Addressed outgoing.sender outgoing.peer outgoing.request.message
  sent : ∀ sent ∈ s.sent, ∃ message : Message, sent.document.data = message.dictionary
    ∧ s.Addressed sent.sender sent.peer message
  stored : ∀ documentID data, s.db.getDocument ⟨.messages, documentID⟩ = some data
    ↔ ∃ sent ∈ s.sent, sent.document = ⟨documentID, data⟩

theorem consistent_init : Consistent (init : Chats Data) := by
  constructor
  . intro id hid
    contradiction
  . intro outgoing houtgoing
    contradiction
  . intro sent hsent
    contradiction
  . intro documentID data
    simp [init]

theorem known_of_subset {s s' : Chats Data} (h : s.groups ⊆ s'.groups) {peer : Peer}
    (hpeer : s.Known peer) : s'.Known peer := by
  cases peer with
  | person uid => trivial
  | group id => exact h hpeer

theorem Addressed.mono {s s' : Chats Data} (h : s.groups ⊆ s'.groups) {sender : AuthUid}
    {peer : Peer} {message : Message} (haddressed : s.Addressed sender peer message)
    : s'.Addressed sender peer message := by
  exact ⟨known_of_subset h haddressed.left, haddressed.right⟩

theorem step_createGroup {s s' : Chats Data} {id : GroupID}
    (h : (chats pngData).step s (.createGroup id) = some s')
    : (∀ id' ∈ s.groups, id'.uuid ≠ id.uuid) ∧ s' = { s with groups := s.groups ++ [id] } := by
  simp only [chats, step] at h
  split at h
  . next hfresh =>
    injection h with h
    exact ⟨hfresh, h.symm⟩
  . contradiction

theorem step_send {s s' : Chats Data} {sender : AuthUid} {peer : Peer} {c : ChatController Image}
    {date now : Date} (h : (chats pngData).step s (.send sender peer c date now) = some s')
    : ∃ requests : List (Request Data),
        (∀ request ∈ requests, s.Addressed sender peer request.message)
        ∧ s' = { s with outgoing := s.outgoing ++ requests.map (Outgoing.mk sender peer) } := by
  simp only [chats, step] at h
  split at h
  . next user huser =>
    split at h
    . next hguard =>
      split at h
      . next c' requests hsend =>
        injection h with h
        refine ⟨requests, ?_, h.symm⟩
        intro request hrequest
        refine ⟨hguard.left, hguard.right.left, ?_⟩
        rw [ChatController.message_of_handleSendMessage huser hsend request hrequest]
        exact Peer.toList_messageId sender hguard.right.right
      . contradiction
    . contradiction
  . contradiction

theorem step_uploadCompleted {s s' : Chats Data} {i : Nat} {url : String}
    (h : (chats pngData).step s (.uploadCompleted i url) = some s')
    : ∃ sender peer upload, s.outgoing[i]? = some ⟨sender, peer, .uploadImage upload⟩
        ∧ s' = {
            s with
            outgoing := s.outgoing.set i ⟨sender, peer, ChatController.addUploaded upload url⟩
          } := by
  simp only [chats, step] at h
  split at h
  . next sender peer upload hupload =>
    injection h with h
    exact ⟨sender, peer, upload, hupload, h.symm⟩
  . contradiction

theorem step_uploadFailed {s s' : Chats Data} {i : Nat}
    (h : (chats pngData).step s (.uploadFailed i) = some s')
    : s' = { s with outgoing := s.outgoing.eraseIdx i } := by
  simp only [chats, step] at h
  split at h
  . injection h with h
    exact h.symm
  . contradiction

theorem step_addDocument {s s' : Chats Data} {i : Nat} {documentID : DocumentID}
    (h : (chats pngData).step s (.addDocument i documentID) = some s')
    : ∃ sender peer message currentUser otherUser,
        s.outgoing[i]? = some ⟨sender, peer, .addMessage message currentUser otherUser⟩
          ∧ s.db.getDocument ⟨.messages, documentID⟩ = none
          ∧ s' = {
              s with
              db := s.db.setData ⟨.messages, documentID⟩ message.dictionary
              outgoing := s.outgoing.eraseIdx i
              sent := s.sent ++ [⟨⟨documentID, message.dictionary⟩, sender, peer⟩]
            } := by
  simp only [chats, step] at h
  split at h
  . next sender peer message currentUser otherUser hmessage =>
    split at h
    . next hfresh =>
      injection h with h
      exact ⟨sender, peer, message, currentUser, otherUser, hmessage, hfresh, h.symm⟩
    . contradiction
  . contradiction

theorem step_write {s s' : Chats Data} {write : Write}
    (h : (chats pngData).step s (.write write) = some s')
    : write.path.collection ≠ .messages
        ∧ s' = { s with db := s.db.setData write.path write.data } := by
  simp only [chats, step] at h
  split at h
  . contradiction
  . next hpath =>
    injection h with h
    exact ⟨hpath, h.symm⟩

theorem Consistent.createGroup {s : Chats Data} (hs : s.Consistent) {id : GroupID}
    (hfresh : ∀ id' ∈ s.groups, id'.uuid ≠ id.uuid)
    : Consistent { s with groups := s.groups ++ [id] } := by
  have hsubset : s.groups ⊆ s.groups ++ [id] := by
    apply List.subset_append_left
  constructor
  . intro id₁ hid₁ id₂ hid₂ huuid
    dsimp at hid₁ hid₂
    rw [List.mem_append, List.mem_singleton] at hid₁ hid₂
    cases hid₁ with
    | inl hid₁ =>
      cases hid₂ with
      | inl hid₂ => exact hs.uuids id₁ hid₁ id₂ hid₂ huuid
      | inr hid₂ =>
        rw [hid₂] at huuid
        exact absurd huuid (hfresh id₁ hid₁)
    | inr hid₁ =>
      cases hid₂ with
      | inl hid₂ =>
        rw [hid₁] at huuid
        exact absurd huuid.symm (hfresh id₂ hid₂)
      | inr hid₂ => rw [hid₁, hid₂]
  . intro outgoing houtgoing
    exact (hs.outgoing outgoing houtgoing).mono hsubset
  . intro sent hsent
    rcases hs.sent sent hsent with ⟨message, hdata, haddressed⟩
    exact ⟨message, hdata, haddressed.mono hsubset⟩
  . exact hs.stored

theorem Consistent.withOutgoing {s : Chats Data} (hs : s.Consistent)
    {outgoing : List (Outgoing Data)}
    (h : ∀ o ∈ outgoing, o ∈ s.outgoing ∨ s.Addressed o.sender o.peer o.request.message)
    : Consistent { s with outgoing := outgoing } := by
  constructor
  . exact hs.uuids
  . intro o ho
    cases h o ho with
    | inl hold => exact hs.outgoing o hold
    | inr hnew => exact hnew
  . exact hs.sent
  . exact hs.stored

theorem Consistent.addDocument {s : Chats Data} (hs : s.Consistent) {documentID : DocumentID}
    (hfresh : s.db.getDocument ⟨.messages, documentID⟩ = none) {sender : AuthUid} {peer : Peer}
    {message : Message} (haddressed : s.Addressed sender peer message)
    : Consistent {
        s with
        db := s.db.setData ⟨.messages, documentID⟩ message.dictionary
        sent := s.sent ++ [⟨⟨documentID, message.dictionary⟩, sender, peer⟩]
      } := by
  constructor
  . exact hs.uuids
  . exact hs.outgoing
  . intro sent hsent
    dsimp at hsent
    rw [List.mem_append, List.mem_singleton] at hsent
    cases hsent with
    | inl hold => exact hs.sent sent hold
    | inr hnew =>
      rw [hnew]
      exact ⟨message, rfl, haddressed⟩
  . intro documentID' data
    dsimp
    simp only [Firestore.getDocument_setData, Path.mk.injEq, true_and, List.mem_append,
      List.mem_singleton]
    by_cases hid : documentID' = documentID
    . rw [if_pos hid]
      constructor
      . intro hdata
        injection hdata with hdata
        exact ⟨_, Or.inr rfl, by rw [hid, hdata]⟩
      . rintro ⟨sent, hold | hnew, hdocument⟩
        . have hstored := (hs.stored documentID' data).mpr ⟨sent, hold, hdocument⟩
          rw [hid, hfresh] at hstored
          contradiction
        . rw [hnew] at hdocument
          injection hdocument with _ hdata
          rw [hdata]
    . rw [if_neg hid, hs.stored]
      constructor
      . rintro ⟨sent, hold, hdocument⟩
        exact ⟨sent, Or.inl hold, hdocument⟩
      . rintro ⟨sent, hold | hnew, hdocument⟩
        . exact ⟨sent, hold, hdocument⟩
        . rw [hnew] at hdocument
          injection hdocument with hid' _
          exact absurd hid'.symm hid

theorem Consistent.write {s : Chats Data} (hs : s.Consistent) {path : Path}
    (hpath : path.collection ≠ .messages) (data : Dictionary)
    : Consistent { s with db := s.db.setData path data } := by
  constructor
  . exact hs.uuids
  . exact hs.outgoing
  . exact hs.sent
  . intro documentID data'
    have hne : (⟨.messages, documentID⟩ : Path) ≠ path := by
      intro heq
      rw [← heq] at hpath
      contradiction
    dsimp
    rw [Firestore.getDocument_setData_of_ne s.db data hne]
    exact hs.stored documentID data'

theorem preserves_consistent : (chats pngData).Preserves Consistent := by
  intro s e s' hs hstep
  cases e with
  | createGroup id =>
    rcases step_createGroup hstep with ⟨hfresh, hs'⟩
    rw [hs']
    exact hs.createGroup hfresh
  | send sender peer c date now =>
    rcases step_send hstep with ⟨requests, haddressed, hs'⟩
    rw [hs']
    apply hs.withOutgoing
    intro o ho
    rw [List.mem_append, List.mem_map] at ho
    cases ho with
    | inl hold => exact Or.inl hold
    | inr hnew =>
      rcases hnew with ⟨request, hrequest, ho⟩
      rw [← ho]
      exact Or.inr (haddressed request hrequest)
  | uploadCompleted i url =>
    rcases step_uploadCompleted hstep with ⟨sender, peer, upload, hupload, hs'⟩
    rw [hs']
    apply hs.withOutgoing
    intro o ho
    cases List.mem_or_eq_of_mem_set ho with
    | inl hold => exact Or.inl hold
    | inr hnew =>
      right
      rw [hnew]
      have haddressed := hs.outgoing _ (List.mem_of_getElem? hupload)
      -- the URL of the photo does not change the message id
      exact haddressed
  | uploadFailed i =>
    rw [step_uploadFailed hstep]
    apply hs.withOutgoing
    intro o ho
    exact Or.inl (List.mem_of_mem_eraseIdx ho)
  | addDocument i documentID =>
    rcases step_addDocument hstep
      with ⟨sender, peer, message, currentUser, otherUser, hmessage, hfresh, hs'⟩
    have haddressed := hs.outgoing _ (List.mem_of_getElem? hmessage)
    rw [hs']
    apply (hs.addDocument hfresh haddressed).withOutgoing
    intro o ho
    exact Or.inl (List.mem_of_mem_eraseIdx ho)
  | write write =>
    rcases step_write hstep with ⟨hpath, hs'⟩
    rw [hs']
    exact hs.write hpath write.data

end Chats

-- The message was sent between the user and the peer, for a group it does not matter by whom.
def Sent.Between (sent : Sent) (uid : AuthUid) : Peer → Prop
  | .person otherUid =>
    (sent.sender = uid ∧ sent.peer = .person otherUid)
      ∨ (sent.sender = otherUid ∧ sent.peer = .person uid)
  | .group id => sent.peer = .group id

theorem Sent.between_iff (sent : Sent) (uid : AuthUid) (peer : Peer)
    : sent.Between uid peer ↔ sent.peer.conversation sent.sender = peer.conversation uid := by
  rcases sent with ⟨document, sender, sentTo⟩
  cases peer with
  | person otherUid =>
    cases sentTo with
    | person sentTo =>
      simp only [Between, Peer.conversation, Peer.person.injEq, Sum.inl.injEq, Sym2.eq_iff]
    | group id => simp [Between, Peer.conversation]
  | group id =>
    cases sentTo with
    | person sentTo => simp [Between, Peer.conversation]
    | group id' => simp [Between, Peer.conversation]

namespace Chats

variable {Image : Type u} {Data : Type v} {pngData : Image → Option Data}

-- what the queries for the messages between a user and a peer come back with
structure SelectsConversation (Image : Type u) (s : Chats Data) (uid : AuthUid) (peer : Peer)
    (user : User) : Prop where
  getMessageId : ∀ c : ChatController Image, c.user = some user →
    c.getMessageId (some uid.value) = some (DatabaseManager.computeMessageId (some uid.value) user)
  fetchMessages : ∀ document,
    document ∈ DatabaseManager.fetchMessages s.documents
        (DatabaseManager.computeMessageId (some uid.value) user)
      ↔ ∃ sent ∈ s.sent, sent.document = document ∧ sent.Between uid peer
  fetchRecentMessage : ∀ document,
    document ∈ DatabaseManager.messagesDescending s.documents
        (DatabaseManager.computeMessageId (some uid.value) user)
      ↔ ∃ sent ∈ s.sent, sent.document = document ∧ sent.Between uid peer
  -- of these `fetchRecentMessage` loops over the latest one, if there is any
  limit :
    (DatabaseManager.recentMessages s.documents
        (DatabaseManager.computeMessageId (some uid.value) user) = []
          ∧ ¬∃ sent ∈ s.sent, sent.Between uid peer)
      ∨
    ∃ sent ∈ s.sent, sent.Between uid peer
      ∧ DatabaseManager.recentMessages s.documents
          (DatabaseManager.computeMessageId (some uid.value) user) = [sent.document]
      ∧ ∀ sent' ∈ s.sent, sent'.Between uid peer →
          sent'.document.queryKey ≤ sent.document.queryKey
  bothSides : ∀ otherUid user', peer = .person otherUid → (Peer.person uid).IsUser user' →
    DatabaseManager.computeMessageId (some otherUid.value) user'
      = DatabaseManager.computeMessageId (some uid.value) user
  oneConversation : ∀ uid' peer' user', s.Known peer' → peer'.IsUser user' → ∀ document,
    document ∈ DatabaseManager.fetchMessages s.documents
        (DatabaseManager.computeMessageId (some uid.value) user) →
    document ∈ DatabaseManager.fetchMessages s.documents
        (DatabaseManager.computeMessageId (some uid'.value) user') →
    peer'.conversation uid' = peer.conversation uid

theorem Consistent.mem_fetchMessages {s : Chats Data} (hs : s.Consistent) (uid : AuthUid)
    {peer : Peer} (hpeer : s.Known peer) {user : User} (huser : peer.IsUser user)
    (document : DocumentSnapshot)
    : document ∈ DatabaseManager.fetchMessages s.documents
        (DatabaseManager.computeMessageId (some uid.value) user)
        ↔
      ∃ sent ∈ s.sent, sent.document = document ∧ sent.Between uid peer := by
  have hkey := Peer.toList_messageId uid huser
  have hconversation : ∀ sent ∈ s.sent, ∀ message : Message,
      sent.document.data = message.dictionary → s.Addressed sent.sender sent.peer message →
        (message.msgId = DatabaseManager.computeMessageId (some uid.value) user
          ↔ sent.Between uid peer) := by
    intro sent hsent message hdata haddressed
    rw [Sent.between_iff, ← String.toList_inj, haddressed.right.right]
    unfold DatabaseManager.computeMessageId
    rw [hkey]
    apply Peer.key_eq_key_iff
    intro id id' hid hid' huuid
    have hknown := haddressed.left
    rw [hid] at hknown
    rw [hid'] at hpeer
    exact hs.uuids id hknown id' hpeer huuid
  rw [DatabaseManager.mem_fetchMessages]
  unfold documents
  rw [Firestore.mem_getDocuments, hs.stored]
  constructor
  . rintro ⟨⟨⟨sent, hsent, hdocument⟩, hlookup⟩, _⟩
    rcases hs.sent sent hsent with ⟨message, hdata, haddressed⟩
    refine ⟨sent, hsent, hdocument, ?_⟩
    rw [← hconversation sent hsent message hdata haddressed]
    have hmsgId := Message.string?_msgId_dictionary message
    rw [← hdata, hdocument, Dictionary.string?, hlookup] at hmsgId
    injection hmsgId with hmsgId
    exact hmsgId.symm
  . rintro ⟨sent, hsent, hdocument, hbetween⟩
    rcases hs.sent sent hsent with ⟨message, hdata, haddressed⟩
    rw [← hconversation sent hsent message hdata haddressed] at hbetween
    rw [← hdocument]
    refine ⟨⟨⟨sent, hsent, rfl⟩, ?_⟩, ?_⟩
    . rw [hdata, ← hbetween]
      rfl
    . rw [hdata]
      rfl

theorem selectsConversation (pngData : Image → Option Data) (es : List (Event Image))
    (s : Chats Data) (h : (chats pngData).exec init es = some s) (uid : AuthUid) (peer : Peer)
    (hpeer : s.Known peer) (user : User) (huser : peer.IsUser user)
    : SelectsConversation Image s uid peer user := by
  have hs := Machine.exec_preserves preserves_consistent consistent_init h
  have hmem := fun document => hs.mem_fetchMessages uid hpeer huser document
  constructor
  case getMessageId =>
    intro c hc
    rw [ChatController.getMessageId, hc]
    rfl
  case fetchMessages => exact hmem
  case fetchRecentMessage =>
    intro document
    rw [DatabaseManager.mem_messagesDescending]
    exact hmem document
  case limit =>
    cases DatabaseManager.recentMessages_eq_nil_or s.documents
        (DatabaseManager.computeMessageId (some uid.value) user) with
    | inl hnil =>
      left
      refine ⟨hnil.left, ?_⟩
      rintro ⟨sent, hsent, hbetween⟩
      have hselected := (hmem sent.document).mpr ⟨sent, hsent, rfl, hbetween⟩
      rw [hnil.right] at hselected
      contradiction
    | inr hone =>
      right
      rcases hone with ⟨document, hdocument, hrecent, hlatest⟩
      rw [hmem] at hdocument
      rcases hdocument with ⟨sent, hsent, hdocument, hbetween⟩
      rw [← hdocument] at hrecent hlatest
      refine ⟨sent, hsent, hbetween, hrecent, ?_⟩
      intro sent' hsent' hbetween'
      apply hlatest
      rw [hmem]
      exact ⟨sent', hsent', rfl, hbetween'⟩
  case bothSides =>
    intro otherUid user' hperson huser'
    rw [hperson] at huser
    unfold DatabaseManager.computeMessageId
    rw [← String.toList_inj, Peer.toList_messageId uid huser,
      Peer.toList_messageId otherUid huser']
    apply List.pairKey_comm
  case oneConversation =>
    intro uid' peer' user' hpeer' huser' document hdocument hdocument'
    rw [DatabaseManager.mem_fetchMessages] at hdocument hdocument'
    have hlookup := hdocument'.left.right
    rw [hdocument.left.right, Option.some.injEq, FieldValue.string.injEq] at hlookup
    unfold DatabaseManager.computeMessageId at hlookup
    rw [← String.toList_inj, Peer.toList_messageId uid huser, Peer.toList_messageId uid' huser']
      at hlookup
    rw [← Peer.key_eq_key_iff]
    . exact hlookup.symm
    . intro id id' hid hid' huuid
      rw [hid] at hpeer'
      rw [hid'] at hpeer
      exact hs.uuids id hpeer' id' hpeer huuid

def ann : AuthUid :=
  ⟨"annannannannannannannannanna", by decide, by simp⟩

def bob : AuthUid :=
  ⟨"bobbobbobbobbobbobbobbobbobb", by decide, by simp⟩

-- Ann writes to Bob, who also is in a group with her.
def directRun : List (Event Unit) :=
  let annUser : User := ⟨ann.value, "Ann", "A", "ann@mail.org", "pa", 1, false⟩
  let bobUser : User := ⟨bob.value, "Bob", "B", "bob@mail.org", "pb", 1, false⟩
  let c : ChatController Unit := ⟨some bobUser, some annUser, none, "hello", none⟩
  [
    .createGroup ⟨⟨"E621E1F8-C36C-495A-93FC-0C247A3E6E5F", by decide⟩, ann, bob.value⟩,
    .send ann (.person bob) c 2 2,
    .addDocument 0 "m"
  ]

theorem selectsConversation_directRun
    : ∃ s, (chats (fun image => some image)).exec init directRun = some s ∧ s.sent.length = 1
        ∧ SelectsConversation Unit s bob (.person ann)
            ⟨ann.value, "Ann", "A", "ann@mail.org", "pa", 1, false⟩ := by
  refine ⟨_, rfl, rfl, ?_⟩
  exact selectsConversation (fun image => some image) directRun _ rfl bob (.person ann) trivial _
    ⟨rfl, rfl⟩

end Chats

end ChatApplication
