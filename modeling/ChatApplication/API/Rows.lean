import ChatApplication.API.AddMessage
import ChatApplication.API.MessageID
import ChatApplication.Data.Recency

/-!
This module contains the rows of the conversation screen: in which order `getRecentConversations`
lists the chats, and which message `fetchRecentMessage` finds for each of them. What is stored are
the messages of one user to other persons.
-/

namespace ChatApplication

namespace DatabaseManager

-- the query of `getRecentConversations`
def getRecentConversations (db : Firestore) (uid : DocumentID) : List DocumentSnapshot :=
  DocumentSnapshot.orderByTimestampDescending (db.getDocuments (.recentUsers uid))

-- when the message was sent that the row of a document displays
def rowTimestamp (db : Firestore) (uid : DocumentID) (now : Date) (document : DocumentSnapshot)
    : Option Timestamp :=
  match User.init now document.data with
  | some user =>
    match fetchRecentMessage (db.getDocuments .messages) (some uid) now user with
    | some (some message) => some message.timestamp
    | _ => none
  | none => none

-- All rows display a message, those of newer messages come first.
def RowsInOrder (db : Firestore) (uid : DocumentID) (now : Date) : Prop :=
  (∀ document ∈ getRecentConversations db uid, (rowTimestamp db uid now document).isSome)
    ∧ (getRecentConversations db uid).Pairwise (fun document document' =>
        ∀ timestamp ∈ rowTimestamp db uid now document,
          ∀ timestamp' ∈ rowTimestamp db uid now document', timestamp' ≤ timestamp)

instance (db : Firestore) (uid : DocumentID) (now : Date) : Decidable (RowsInOrder db uid now) :=
  inferInstanceAs (Decidable (_ ∧ _))

end DatabaseManager

-- a call of `addMessage`, with the users as it has stamped them
structure Call where
  documentID : DocumentID
  message : Message
  currentUser : User
  otherUser : User
  deriving DecidableEq, Repr

namespace Call

def writes (call : Call) : List Write :=
  DatabaseManager.addMessage call.documentID call.message call.currentUser call.otherUser

-- what is stored after the calls
def store (calls : List Call) : Firestore :=
  DatabaseManager.perform ∅ (calls.flatMap writes)

def peer (call : Call) : DocumentID :=
  call.otherUser.uid

def sentAt (call : Call) : Timestamp :=
  call.message.timestamp

def addedAt (call : Call) : Timestamp :=
  call.otherUser.timestamp

-- The user who is signed in writes to another person.
def IsDirect (uid : AuthUid) (message : Message) (currentUser otherUser : User) : Prop :=
  ∃ peer : AuthUid, peer ≠ uid ∧ (Peer.person peer).IsUser otherUser
    ∧ message.msgId = messageId (some uid.value) otherUser ∧ currentUser.uid = uid.value

structure AddedInTurn (uid : AuthUid) (calls : List Call) : Prop where
  direct : ∀ call ∈ calls, IsDirect uid call.message call.currentUser call.otherUser
  ids : (calls.map documentID).Nodup
  inTurn : calls.Pairwise (fun a b => a.addedAt < b.addedAt)

theorem addedInTurn_append {uid : AuthUid} {calls : List Call} {call : Call}
    : AddedInTurn uid (calls ++ [call])
        ↔
      AddedInTurn uid calls ∧ IsDirect uid call.message call.currentUser call.otherUser
        ∧ (∀ c ∈ calls, c.documentID ≠ call.documentID)
        ∧ ∀ c ∈ calls, c.addedAt < call.addedAt := by
  have hids : ((calls ++ [call]).map documentID).Nodup
      ↔ (∀ c ∈ calls, c.documentID ≠ call.documentID) ∧ (calls.map documentID).Nodup := by
    rw [List.map_append, List.map_singleton, ← List.concat_eq_append, List.nodup_concat]
    simp
  have hadded : (calls ++ [call]).Pairwise (fun a b => a.addedAt < b.addedAt)
      ↔ calls.Pairwise (fun a b => a.addedAt < b.addedAt)
        ∧ ∀ c ∈ calls, c.addedAt < call.addedAt := by
    simp [List.pairwise_append]
  constructor
  . intro h
    have hids := hids.mp h.ids
    have hadded := hadded.mp h.inTurn
    have hdirect := h.direct
    rw [List.forall_mem_append, List.forall_mem_singleton] at hdirect
    exact ⟨⟨hdirect.left, hids.right, hadded.left⟩, hdirect.right, hids.left, hadded.right⟩
  . rintro ⟨h, hdirect, hid, hlater⟩
    refine ⟨?_, hids.mpr ⟨hid, h.ids⟩, hadded.mpr ⟨h.inTurn, hlater⟩⟩
    rw [List.forall_mem_append, List.forall_mem_singleton]
    exact ⟨h.direct, hdirect⟩

theorem store_append (calls : List Call) (call : Call)
    : store (calls ++ [call]) = DatabaseManager.perform (store calls) call.writes := by
  unfold store
  rw [List.flatMap_append, DatabaseManager.perform_append, List.flatMap_singleton]

variable {uid : AuthUid} {calls : List Call}

theorem AddedInTurn.getDocument_messages (h : AddedInTurn uid calls) {documentID : DocumentID}
    {data : Dictionary}
    : (store calls).getDocument ⟨.messages, documentID⟩ = some data
        ↔
      ∃ call ∈ calls, call.documentID = documentID ∧ call.message.dictionary = data := by
  induction calls using List.reverseRecOn with
  | nil => simp [store, DatabaseManager.perform]
  | append_singleton calls call ih =>
    rw [addedInTurn_append] at h
    rcases h with ⟨h, _, hid, _⟩
    rw [store_append, writes, DatabaseManager.getDocument_perform_addMessage,
      if_neg (by simp [DatabaseManager.recentUserPath]),
      if_neg (by simp [DatabaseManager.recentUserPath])]
    by_cases hsame : documentID = call.documentID
    . rw [if_pos (by rw [hsame])]
      constructor
      . intro hdata
        injection hdata with hdata
        exact ⟨call, List.mem_append_right _ (List.mem_singleton_self call), hsame.symm, hdata⟩
      . rintro ⟨c, hc, hcid, hdata⟩
        rw [List.mem_append, List.mem_singleton] at hc
        cases hc with
        | inl hc =>
          rw [hsame] at hcid
          exact absurd hcid (hid c hc)
        | inr heq => rw [← hdata, heq]
    . rw [if_neg (by simp [hsame]), ih h]
      constructor
      . rintro ⟨c, hc, hrest⟩
        exact ⟨c, List.mem_append_left _ hc, hrest⟩
      . rintro ⟨c, hc, hcid, hdata⟩
        rw [List.mem_append, List.mem_singleton] at hc
        cases hc with
        | inl hc => exact ⟨c, hc, hcid, hdata⟩
        | inr heq =>
          rw [heq] at hcid
          exact absurd hcid.symm hsame

theorem IsDirect.ne {message : Message} {currentUser otherUser : User}
    (h : IsDirect uid message currentUser otherUser) : otherUser.uid ≠ uid.value := by
  rcases h with ⟨peer, hne, huser, _⟩
  rw [huser.left]
  intro heq
  exact hne (AuthUid.value_injective heq)

theorem AddedInTurn.getDocument_recentUsers (h : AddedInTurn uid calls) {otherUid : DocumentID}
    {data : Dictionary}
    : (store calls).getDocument (DatabaseManager.recentUserPath uid.value otherUid) = some data
        ↔
      ∃ call, Recency.IsLast peer addedAt calls call ∧ call.peer = otherUid
        ∧ call.otherUser.dictionary = data := by
  induction calls using List.reverseRecOn with
  | nil => simp [store, DatabaseManager.perform, Recency.IsLast]
  | append_singleton calls call ih =>
    rw [addedInTurn_append] at h
    rcases h with ⟨h, hdirect, _, hlater⟩
    have hne := hdirect.ne
    have huid : call.currentUser.uid = uid.value := by
      rcases hdirect with ⟨_, _, _, _, huid⟩
      exact huid
    have hself : DatabaseManager.recentUserPath uid.value otherUid
        ≠ DatabaseManager.recentUserPath call.otherUser.uid call.currentUser.uid := by
      intro heq
      exact hne (DatabaseManager.recentUserPath_inj.mp heq).left.symm
    rw [store_append, writes, DatabaseManager.getDocument_perform_addMessage, if_neg hself]
    simp only [Recency.isLast_append hlater]
    by_cases hsame : otherUid = call.otherUser.uid
    . rw [if_pos (by rw [huid, hsame])]
      constructor
      . intro hdata
        injection hdata with hdata
        exact ⟨call, Or.inl rfl, hsame.symm, hdata⟩
      . rintro ⟨c, heq | ⟨_, hpeer⟩, hcpeer, hdata⟩
        . rw [← hdata, heq]
        . rw [hcpeer, hsame] at hpeer
          contradiction
    . rw [if_neg (fun hpath => hsame (DatabaseManager.recentUserPath_inj.mp hpath).right),
        if_neg (by simp [DatabaseManager.recentUserPath]), ih h]
      constructor
      . rintro ⟨c, hlast, hcpeer, hdata⟩
        refine ⟨c, Or.inr ⟨hlast, ?_⟩, hcpeer, hdata⟩
        rw [hcpeer]
        exact hsame
      . rintro ⟨c, heq | ⟨hlast, _⟩, hcpeer, hdata⟩
        . rw [heq] at hcpeer
          exact absurd hcpeer.symm hsame
        . exact ⟨c, hlast, hcpeer, hdata⟩

theorem msgId_eq_iff {a b : Call} (ha : IsDirect uid a.message a.currentUser a.otherUser)
    (hb : IsDirect uid b.message b.currentUser b.otherUser)
    : a.message.msgId = messageId (some uid.value) b.otherUser ↔ a.peer = b.peer := by
  rcases ha with ⟨p, _, huser, hmsgId, _⟩
  rcases hb with ⟨q, _, huser', _⟩
  have hkey : (Peer.person p).key uid = (Peer.person q).key uid
      ↔ (Peer.person p).conversation uid = (Peer.person q).conversation uid :=
    Peer.key_eq_key_iff (by simp)
  have hpeer : a.peer = b.peer ↔ p = q := by
    unfold peer
    rw [huser.left, huser'.left]
    exact AuthUid.value_injective.eq_iff
  rw [hpeer, hmsgId, ← String.toList_inj, Peer.toList_messageId uid huser,
    Peer.toList_messageId uid huser', hkey]
  unfold Peer.conversation
  rw [Sum.inl.injEq]
  exact Sym2.congr_right

theorem AddedInTurn.mem_fetchMessages (h : AddedInTurn uid calls) {msgId : String}
    {document : DocumentSnapshot}
    : document ∈ DatabaseManager.fetchMessages ((store calls).getDocuments .messages) msgId
        ↔
      ∃ call ∈ calls, document = ⟨call.documentID, call.message.dictionary⟩
        ∧ call.message.msgId = msgId := by
  rw [DatabaseManager.mem_fetchMessages, Firestore.mem_getDocuments, h.getDocument_messages]
  constructor
  . rintro ⟨⟨⟨call, hcall, hid, hdata⟩, hmsgId⟩, _⟩
    refine ⟨call, hcall, ?_, ?_⟩
    . rw [hid, hdata]
    . rw [← hdata] at hmsgId
      injection hmsgId with hmsgId
      injection hmsgId
  . rintro ⟨call, hcall, hdocument, hmsgId⟩
    rw [hdocument]
    refine ⟨⟨⟨call, hcall, rfl, rfl⟩, ?_⟩, rfl⟩
    rw [← hmsgId]
    rfl

-- The row of a chat displays the newest message of the chat.
theorem AddedInTurn.rowTimestamp (h : AddedInTurn uid calls) {last : Call} (hlast : last ∈ calls)
    (now : Date)
    : ∃ newest ∈ calls, newest.peer = last.peer
        ∧ (∀ call ∈ calls, call.peer = last.peer → call.sentAt ≤ newest.sentAt)
        ∧ DatabaseManager.rowTimestamp (store calls) uid.value now
            ⟨last.peer, last.otherUser.dictionary⟩ = some newest.sentAt := by
  have hchat : ∀ call ∈ calls,
      call.message.msgId = messageId (some uid.value) last.otherUser ↔ call.peer = last.peer := by
    intro call hcall
    exact msgId_eq_iff (h.direct call hcall) (h.direct last hlast)
  cases DatabaseManager.recentMessages_eq_nil_or ((store calls).getDocuments .messages)
    (messageId (some uid.value) last.otherUser) with
  | inl hnil =>
    have hmem : ⟨last.documentID, last.message.dictionary⟩ ∈ DatabaseManager.fetchMessages
        ((store calls).getDocuments .messages) (messageId (some uid.value) last.otherUser) := by
      rw [h.mem_fetchMessages]
      exact ⟨last, hlast, rfl, (hchat last hlast).mpr rfl⟩
    rw [hnil.right] at hmem
    contradiction
  | inr hone =>
    rcases hone with ⟨document, hdocument, hrecent, hmax⟩
    rw [h.mem_fetchMessages] at hdocument
    rcases hdocument with ⟨newest, hnewest, hdocument, hmsgId⟩
    refine ⟨newest, hnewest, (hchat newest hnewest).mp hmsgId, ?_, ?_⟩
    . intro call hcall hpeer
      have hmem : ⟨call.documentID, call.message.dictionary⟩ ∈ DatabaseManager.fetchMessages
          ((store calls).getDocuments .messages) (messageId (some uid.value) last.otherUser) := by
        rw [h.mem_fetchMessages]
        exact ⟨call, hcall, rfl, (hchat call hcall).mpr hpeer⟩
      have hle := hmax _ hmem
      rw [hdocument] at hle
      exact DocumentSnapshot.timestamp_le_of_queryKey_le rfl rfl hle
    . unfold DatabaseManager.rowTimestamp DatabaseManager.fetchRecentMessage
        DatabaseManager.computeMessageId
      simp [hrecent, hdocument, sentAt]

theorem AddedInTurn.mem_getRecentConversations (h : AddedInTurn uid calls)
    {document : DocumentSnapshot}
    : document ∈ DatabaseManager.getRecentConversations (store calls) uid.value
        ↔
      ∃ last, Recency.IsLast peer Call.addedAt calls last
        ∧ document = ⟨last.peer, last.otherUser.dictionary⟩ := by
  unfold DatabaseManager.getRecentConversations
  rw [DocumentSnapshot.mem_orderByTimestampDescending, Firestore.mem_getDocuments]
  constructor
  . rintro ⟨hdocument, _⟩
    rcases h.getDocument_recentUsers.mp hdocument with ⟨last, hlast, hpeer, hdata⟩
    exact ⟨last, hlast, by rw [hpeer, hdata]⟩
  . rintro ⟨last, hlast, hdocument⟩
    rw [hdocument]
    exact ⟨h.getDocument_recentUsers.mpr ⟨last, hlast, rfl, rfl⟩, rfl⟩

theorem AddedInTurn.addedAt_ne (h : AddedInTurn uid calls) {a b : Call} (ha : a ∈ calls)
    (hb : b ∈ calls) (hne : a ≠ b) : a.addedAt ≠ b.addedAt := by
  cases h.inTurn.rel_or_rel ha hb hne with
  | inl hlt => exact hlt.ne
  | inr hlt => exact hlt.ne'

theorem AddedInTurn.rowsInOrder_iff (h : AddedInTurn uid calls) (now : Date)
    : DatabaseManager.RowsInOrder (store calls) uid.value now
        ↔
      Recency.InOrder peer sentAt Call.addedAt calls := by
  have hsorted : (DatabaseManager.getRecentConversations (store calls) uid.value).Pairwise
      (fun a b => OrderDual.toDual a.queryKey ≤ OrderDual.toDual b.queryKey) := by
    apply List.pairwise_sortBy
  constructor
  . rintro ⟨_, hrows⟩ a b ha hb hle e he hkey
    by_cases hsame : b.peer = a.peer
    . exact ⟨e, he, hkey.trans hsame, le_refl _⟩
    . rcases h.rowTimestamp ha.left now with ⟨newest, hnewest, hpeer, _, hrow⟩
      rcases h.rowTimestamp hb.left now with ⟨newest', _, _, hmax', hrow'⟩
      have hmem := h.mem_getRecentConversations.mpr ⟨a, ha, rfl⟩
      have hmem' := h.mem_getRecentConversations.mpr ⟨b, hb, rfl⟩
      have hne : (⟨a.peer, a.otherUser.dictionary⟩ : DocumentSnapshot)
          ≠ ⟨b.peer, b.otherUser.dictionary⟩ := by
        intro heq
        injection heq with heq
        exact hsame heq.symm
      cases (hsorted.and hrows).rel_or_rel hmem hmem' hne with
      | inl hbefore =>
        have hnewer := hbefore.right _ hrow _ hrow'
        exact ⟨newest, hnewest, hpeer, (hmax' e he hkey).trans hnewer⟩
      | inr hbehind =>
        have hge := DocumentSnapshot.timestamp_le_of_queryKey_le rfl rfl hbehind.left
        have hab : a ≠ b := by
          intro heq
          rw [heq] at hsame
          contradiction
        exact absurd (le_antisymm hge hle) (h.addedAt_ne ha.left hb.left hab)
  . intro hlog
    constructor
    . intro document hdocument
      rw [h.mem_getRecentConversations] at hdocument
      rcases hdocument with ⟨last, hlast, hdocument⟩
      rcases h.rowTimestamp hlast.left now with ⟨_, _, _, _, hrow⟩
      rw [hdocument, hrow]
      rfl
    . apply hsorted.imp_of_mem
      intro document document' hdocument hdocument' hle timestamp htimestamp timestamp' htimestamp'
      rw [h.mem_getRecentConversations] at hdocument hdocument'
      rcases hdocument with ⟨a, ha, hdocument⟩
      rcases hdocument' with ⟨b, hb, hdocument'⟩
      rcases h.rowTimestamp ha.left now with ⟨newest, _, _, hmax, hrow⟩
      rcases h.rowTimestamp hb.left now with ⟨newest', hnewest', hpeer', _, hrow'⟩
      rw [hdocument, hdocument'] at hle
      rw [hdocument, hrow, Option.mem_some_iff] at htimestamp
      rw [hdocument', hrow', Option.mem_some_iff] at htimestamp'
      have hadded := DocumentSnapshot.timestamp_le_of_queryKey_le rfl rfl hle
      rcases hlog a b ha hb hadded newest' hnewest' hpeer' with ⟨e, he, hpeer, hnewer⟩
      rw [← htimestamp, ← htimestamp']
      exact hnewer.trans (hmax e he hpeer)

end Call

end ChatApplication
