import ChatApplication.API.Firestore
import ChatApplication.Model.User
import ChatApplication.Model.Message
import ChatApplication.Order.PairKey

/-!
This module contains the message ids under which the messages of a conversation are stored, and the
queries of `DatabaseManager` that ask for them.
-/

namespace ChatApplication

-- What `computeMessageId` and `getMessageId` have in common, `auth` is the uid that is signed in.
def messageId (auth : Option DocumentID) (user : User) : String :=
  match auth with
  | none => ""
  | some uid =>
    if user.isGroup then
      user.uid
    else
      let toId := user.uid
      if uid > toId then uid ++ toId else toId ++ uid

namespace DatabaseManager

def computeMessageId (auth : Option DocumentID) (user : User) : String :=
  messageId auth user

-- the query of `fetchMessages` on the documents of the collection `messages`
def fetchMessages (documents : List DocumentSnapshot) (messageId : String) : List DocumentSnapshot :=
  DocumentSnapshot.orderByTimestamp (DocumentSnapshot.whereField "msgId" (.string messageId) documents)

-- the query of `fetchRecentMessage` up to its limit
def messagesDescending (documents : List DocumentSnapshot) (messageId : String)
    : List DocumentSnapshot :=
  DocumentSnapshot.orderByTimestampDescending
    (DocumentSnapshot.whereField "msgId" (.string messageId) documents)

def recentMessages (documents : List DocumentSnapshot) (messageId : String)
    : List DocumentSnapshot :=
  (messagesDescending documents messageId).take 1

-- The loop over `snapshot.documents` leaves the last one in `message`. The outer `none` is where
-- `Message.init` traps.
def fetchRecentMessage (documents : List DocumentSnapshot) (auth : Option DocumentID) (now : Date)
    (user : User) : Option (Option Message) :=
  (recentMessages documents (computeMessageId auth user)).foldlM
    (fun _ document => (Message.init now document.data).map some) none

theorem mem_fetchMessages {documents : List DocumentSnapshot} {messageId : String}
    {document : DocumentSnapshot}
    : document ∈ fetchMessages documents messageId
        ↔
      (document ∈ documents ∧ document.data.lookup "msgId" = some (.string messageId))
        ∧ (document.data.lookup "timestamp").isSome := by
  unfold fetchMessages
  rw [DocumentSnapshot.mem_orderByTimestamp, DocumentSnapshot.mem_whereField]

theorem mem_messagesDescending {documents : List DocumentSnapshot} {messageId : String}
    {document : DocumentSnapshot}
    : document ∈ messagesDescending documents messageId
        ↔
      document ∈ fetchMessages documents messageId := by
  unfold messagesDescending
  rw [DocumentSnapshot.mem_orderByTimestampDescending, DocumentSnapshot.mem_whereField,
    mem_fetchMessages]

theorem messagesDescending_eq_reverse {documents : List DocumentSnapshot}
    (hnodup : (documents.map DocumentSnapshot.documentID).Nodup) (messageId : String)
    : messagesDescending documents messageId = (fetchMessages documents messageId).reverse := by
  unfold messagesDescending fetchMessages
  apply List.sortBy_toDual
  intro a ha b hb hkey
  apply DocumentSnapshot.eq_of_queryKey_eq hnodup a _ b _ hkey
  . exact (DocumentSnapshot.mem_whereField.mp (List.mem_of_mem_filter ha)).left
  . exact (DocumentSnapshot.mem_whereField.mp (List.mem_of_mem_filter hb)).left

theorem recentMessages_eq_toList_getLast? {documents : List DocumentSnapshot}
    (hnodup : (documents.map DocumentSnapshot.documentID).Nodup) (messageId : String)
    : recentMessages documents messageId
        =
      (fetchMessages documents messageId).getLast?.toList := by
  unfold recentMessages
  rw [messagesDescending_eq_reverse hnodup, List.take_one, List.head?_reverse]

theorem recentMessages_eq_nil_or (documents : List DocumentSnapshot) (messageId : String)
    : (recentMessages documents messageId = [] ∧ fetchMessages documents messageId = [])
        ∨
      ∃ document ∈ fetchMessages documents messageId,
        recentMessages documents messageId = [document]
          ∧ ∀ document' ∈ fetchMessages documents messageId,
              document'.queryKey ≤ document.queryKey := by
  unfold recentMessages
  cases hquery : messagesDescending documents messageId with
  | nil =>
    left
    refine ⟨rfl, ?_⟩
    rw [List.eq_nil_iff_forall_not_mem]
    intro document hdocument
    rw [← mem_messagesDescending, hquery] at hdocument
    contradiction
  | cons document rest =>
    right
    have hsorted : (messagesDescending documents messageId).Pairwise
        (fun a b => OrderDual.toDual a.queryKey ≤ OrderDual.toDual b.queryKey) := by
      apply List.pairwise_sortBy
    rw [hquery, List.pairwise_cons] at hsorted
    refine ⟨document, ?_, rfl, ?_⟩
    . rw [← mem_messagesDescending, hquery]
      apply List.mem_cons_self
    . intro document' hdocument'
      rw [← mem_messagesDescending, hquery, List.mem_cons] at hdocument'
      cases hdocument' with
      | inl heq => rw [heq]
      | inr hrest => exact hsorted.left document' hrest

theorem lookup_msgId_of_mem_recentMessages {documents : List DocumentSnapshot} {messageId : String}
    {document : DocumentSnapshot} (h : document ∈ recentMessages documents messageId)
    : document.data.lookup "msgId" = some (.string messageId) := by
  unfold recentMessages at h
  have hmem := List.mem_of_mem_take h
  rw [mem_messagesDescending, mem_fetchMessages] at hmem
  exact hmem.left.right

theorem msgId_of_fetchRecentMessage {documents : List DocumentSnapshot} {auth : Option DocumentID}
    {now : Date} {user : User} {message : Message}
    (h : fetchRecentMessage documents auth now user = some (some message))
    : message.msgId = computeMessageId auth user := by
  unfold fetchRecentMessage at h
  cases recentMessages_eq_nil_or documents (computeMessageId auth user) with
  | inl hnil =>
    simp [hnil.left] at h
  | inr hone =>
    rcases hone with ⟨document, _, hdocument, _⟩
    have hmem : document ∈ recentMessages documents (computeMessageId auth user) := by
      rw [hdocument, List.mem_singleton]
    have hlookup := lookup_msgId_of_mem_recentMessages hmem
    simp only [hdocument, List.foldlM_cons, List.foldlM_nil, bind_pure, Option.map_eq_some_iff,
      Option.some.injEq] at h
    rcases h with ⟨message', hinit, heq⟩
    have hmsgId := Message.string?_msgId_of_init hinit
    rw [Dictionary.string?, hlookup] at hmsgId
    rw [← heq]
    injection hmsgId with hmsgId
    exact hmsgId.symm

end DatabaseManager

-- the uids that Firebase Auth gives out: `uid > toId` compares ASCII strings as lists of characters
structure AuthUid where
  value : DocumentID
  length_eq : value.length = 28
  ascii : ∀ c ∈ value.toList, c.toNat < 128
  deriving DecidableEq

namespace AuthUid

theorem value_injective : Function.Injective value := by
  intro a b h
  cases a
  cases b
  dsimp at h
  simp only [h]

instance : LinearOrder AuthUid :=
  LinearOrder.lift' value value_injective

def encode (uid : AuthUid) : List Char :=
  uid.value.toList

theorem length_encode (uid : AuthUid) : uid.encode.length = 28 := by
  rw [encode, String.length_toList, uid.length_eq]

theorem encode_injective : Function.Injective encode := by
  intro a b h
  apply value_injective
  exact String.toList_injective h

end AuthUid

-- what `UUID().uuidString` returns
structure UUIDString where
  value : String
  length_eq : value.length = 36
  deriving DecidableEq

-- The parts from which `createGroup` puts together the uid of a group. `usersId` holds the uids of
-- the selected users one after another.
structure GroupID where
  uuid : UUIDString
  creator : AuthUid
  usersId : String
  deriving DecidableEq

namespace GroupID

def value (group : GroupID) : DocumentID :=
  group.uuid.value ++ group.creator.value ++ group.usersId

theorem le_length_value (group : GroupID) : 64 ≤ group.value.length := by
  unfold value
  rw [String.length_append, String.length_append, group.uuid.length_eq, group.creator.length_eq]
  omega

theorem uuid_eq_of_value_eq {group group' : GroupID} (h : group.value = group'.value)
    : group.uuid = group'.uuid := by
  have hlist : group.value.toList = group'.value.toList := by rw [h]
  unfold value at hlist
  simp only [String.toList_append, List.append_assoc] at hlist
  have hlen : group.uuid.value.toList.length = group'.uuid.value.toList.length := by
    rw [String.length_toList, String.length_toList, group.uuid.length_eq, group'.uuid.length_eq]
  have huuid := (List.append_inj hlist hlen).left
  cases huuid' : group.uuid
  cases huuid'' : group'.uuid
  rw [huuid', huuid''] at huuid
  simp only [UUIDString.mk.injEq]
  exact String.toList_injective huuid

end GroupID

-- whom a user writes to
inductive Peer where
  | person (uid : AuthUid)
  | group (id : GroupID)
  deriving DecidableEq

namespace Peer

-- the `User` object stands for the peer
def IsUser (user : User) : Peer → Prop
  | .person uid => user.uid = uid.value ∧ user.isGroup = false
  | .group id => user.uid = id.value ∧ user.isGroup = true

instance (user : User) : (peer : Peer) → Decidable (peer.IsUser user)
  | .person uid => inferInstanceAs (Decidable (user.uid = uid.value ∧ user.isGroup = false))
  | .group id => inferInstanceAs (Decidable (user.uid = id.value ∧ user.isGroup = true))

-- the characters of the message id that a user and the peer have
def key (sender : AuthUid) : Peer → List Char
  | .person uid => List.pairKey AuthUid.encode sender uid
  | .group id => id.value.toList

theorem toList_messageId (sender : AuthUid) {peer : Peer} {user : User} (h : peer.IsUser user)
    : (messageId (some sender.value) user).toList = peer.key sender := by
  cases peer with
  | person uid =>
    unfold IsUser at h
    unfold messageId key List.pairKey
    dsimp
    rw [h.left, h.right, if_neg (by simp)]
    have hlt : sender.value > uid.value ↔ uid < sender := by rfl
    split
    . next hgt =>
      rw [if_pos (hlt.mp hgt), String.toList_append]
      rfl
    . next hgt =>
      rw [if_neg (fun hlt' => hgt (hlt.mpr hlt')), String.toList_append]
      rfl
  | group id =>
    unfold IsUser at h
    unfold messageId key
    dsimp
    rw [h.right, if_pos rfl, h.left]

-- The conversation that a user has with the peer: one for two persons, one for each group.
def conversation (sender : AuthUid) : Peer → Sym2 AuthUid ⊕ GroupID
  | .person uid => .inl s(sender, uid)
  | .group id => .inr id

-- A key for two persons has 56 characters and the uid of a group has more.
theorem key_person_ne_key_group (sender sender' uid : AuthUid) (id : GroupID)
    : (person uid).key sender ≠ (group id).key sender' := by
  intro h
  have hlen := congrArg List.length h
  dsimp [key] at hlen
  rw [List.length_pairKey AuthUid.length_encode, String.length_toList] at hlen
  have hgroup := id.le_length_value
  omega

theorem key_eq_key_iff {sender sender' : AuthUid} {peer peer' : Peer}
    (huuid : ∀ id id', peer = group id → peer' = group id' → id.uuid = id'.uuid → id = id')
    : peer.key sender = peer'.key sender'
        ↔
      peer.conversation sender = peer'.conversation sender' := by
  cases peer with
  | person uid =>
    cases peer' with
    | person uid' =>
      unfold key conversation
      dsimp
      rw [List.pairKey_eq_pairKey_iff AuthUid.length_encode AuthUid.encode_injective,
        Sum.inl.injEq]
    | group id' =>
      have hne := key_person_ne_key_group sender sender' uid id'
      simp [conversation, hne]
  | group id =>
    cases peer' with
    | person uid' =>
      have hne := key_person_ne_key_group sender' sender uid' id
      simp [conversation, hne.symm]
    | group id' =>
      unfold key conversation
      dsimp
      rw [Sum.inr.injEq]
      constructor
      . intro h
        apply huuid id id' rfl rfl
        exact GroupID.uuid_eq_of_value_eq (String.toList_injective h)
      . intro h
        rw [h]

end Peer

end ChatApplication
