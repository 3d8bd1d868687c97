import ChatApplication.Controller.ChatController
import ChatApplication.Controller.ChatListener

/-!
This module contains the comparison of the message that `fetchRecentMessage` finds for a row of the
conversation screen with the end of the list that the chat behind that row starts with.
-/

namespace ChatApplication

theorem Message.isSome_init {now now' : Date} {dictionary : Dictionary}
    (h : (Message.init now dictionary).isSome) : (Message.init now' dictionary).isSome := by
  unfold Message.init at h ⊢
  split at h
  . rfl
  . contradiction

theorem Message.init_eq_init {dictionary : Dictionary}
    (h : (dictionary.timestamp? "timestamp").isSome) (now now' : Date)
    : Message.init now dictionary = Message.init now' dictionary := by
  rw [Option.isSome_iff_exists] at h
  rcases h with ⟨timestamp, htimestamp⟩
  unfold Message.init
  rw [htimestamp]
  rfl

namespace ChatListener

-- the messages that `fetchMessages` passes to its completion
def fetched (s : ChatListener) : List ChatMessage :=
  s.messages.filterMap (fun message => s.objects[message]?)

-- The first snapshot of a listener reports all documents of its query, in the order of the query.
def firstSnapshot (documents : List DocumentSnapshot) (messageId : String) : List DocumentChange :=
  (DatabaseManager.fetchMessages documents messageId).zipIdx.map
    (fun entry => ⟨.added, entry.1, entry.2⟩)

theorem map_document_firstSnapshot (documents : List DocumentSnapshot) (messageId : String)
    : (firstSnapshot documents messageId).map DocumentChange.document
        =
      DatabaseManager.fetchMessages documents messageId := by
  unfold firstSnapshot
  rw [List.map_map]
  exact List.zipIdx_map_fst 0 _

theorem mem_firstSnapshot {documents : List DocumentSnapshot} {messageId : String}
    {change : DocumentChange} (h : change ∈ firstSnapshot documents messageId)
    : change.type = .added
        ∧ change.document ∈ DatabaseManager.fetchMessages documents messageId := by
  constructor
  . unfold firstSnapshot at h
    rw [List.mem_map] at h
    rcases h with ⟨entry, _, hchange⟩
    rw [← hchange]
  . rw [← map_document_firstSnapshot]
    exact List.mem_map_of_mem h

theorem addedMessages_isSome {now : Date} {changes : List DocumentChange}
    (h : ∀ change ∈ changes, (Message.init now change.document.data).isSome)
    : (addedMessages now changes).isSome := by
  induction changes with
  | nil => rfl
  | cons change changes ih =>
    rw [List.forall_mem_cons] at h
    have hrest := ih h.right
    unfold addedMessages
    split
    . rcases Option.isSome_iff_exists.mp h.left with ⟨message, hmessage⟩
      rcases Option.isSome_iff_exists.mp hrest with ⟨messages, hmessages⟩
      rw [hmessage, hmessages]
      rfl
    all_goals exact hrest

theorem step_firstSnapshot {documents : List DocumentSnapshot} {now : Date} (messageId : String)
    (hdecode : ∀ document ∈ documents, (Message.init now document.data).isSome)
    : ∃ s, (chatListener messageId).step init (.snapshot (firstSnapshot documents messageId) now)
          = some s
        ∧ s.fetched.map ChatMessage.document = DatabaseManager.fetchMessages documents messageId
        ∧ ∀ object ∈ s.fetched, Message.init now object.document.data = some object.message := by
  have hchanges : ∀ change ∈ firstSnapshot documents messageId,
      change.document.data.lookup "msgId" = some (.string messageId)
        ∧ (Message.init now change.document.data).isSome := by
    intro change hchange
    have hmem := (mem_firstSnapshot hchange).right
    rw [DatabaseManager.mem_fetchMessages] at hmem
    exact ⟨hmem.left.right, hdecode _ hmem.left.left⟩
  have hadded : (addedMessages now (firstSnapshot documents messageId)).isSome := by
    apply addedMessages_isSome
    intro change hchange
    exact (hchanges change hchange).right
  rw [Option.isSome_iff_exists] at hadded
  rcases hadded with ⟨added, hadded⟩
  have hquery : ∀ change ∈ firstSnapshot documents messageId,
      change.document.data.lookup "msgId" = some (.string messageId) := by
    intro change hchange
    exact (hchanges change hchange).left
  let s : ChatListener := {
    objects := added
    messages := List.range' 0 added.length
    requests := fetchUsers added (List.range' 0 added.length)
    published := []
    documents := documentsAfter [] (firstSnapshot documents messageId)
  }
  have hfetched : s.fetched = added := by
    have hmap := List.filterMap_range_getElem? added id
    simp only [Option.map_id_fun, id_eq, List.map_id_fun] at hmap
    rw [List.range_eq_range'] at hmap
    exact hmap
  refine ⟨s, ?_, ?_, ?_⟩
  . simp only [chatListener, step]
    rw [if_pos hquery, hadded]
    rfl
  . rw [hfetched, map_document_addedMessages hadded, List.filter_eq_self.mpr,
      map_document_firstSnapshot]
    intro change hchange
    simpa using (mem_firstSnapshot hchange).left
  . rw [hfetched]
    intro object hobject
    exact (mem_addedMessages hadded hobject).right.left

theorem preview_is_end_of_chat {Image : Type u} (db : Firestore) (uid : DocumentID) (user : User)
    (c : ChatController Image) (now now' : Date)
    (hdecode : ∀ document ∈ db.getDocuments .messages, (Message.init now document.data).isSome)
    : ∃ messageId s recent,
        ChatController.getMessageId { c with user := some user } (some uid) = some messageId
          ∧ (chatListener messageId).step init
                (.snapshot (firstSnapshot (db.getDocuments .messages) messageId) now') = some s
          ∧ DatabaseManager.fetchRecentMessage (db.getDocuments .messages) (some uid) now user
                = some recent
          ∧ (recent = none ↔ s.fetched = [])
          ∧ ∀ last ∈ s.fetched.getLast?, ∃ message, recent = some message
              ∧ Message.init now last.document.data = some message
              ∧ (now = now' ∨ (last.document.data.timestamp? "timestamp").isSome →
                  message = last.message) := by
  have hdecode' : ∀ document ∈ db.getDocuments .messages,
      (Message.init now' document.data).isSome := by
    intro document hdocument
    exact Message.isSome_init (hdecode document hdocument)
  rcases step_firstSnapshot (messageId (some uid) user) hdecode' with ⟨s, hstep, hfetched, hinit⟩
  have hlast := congrArg List.getLast? hfetched
  rw [List.getLast?_map] at hlast
  have hrecent := DatabaseManager.recentMessages_eq_toList_getLast?
    (db.nodup_documentID_getDocuments .messages) (messageId (some uid) user)
  rw [← hlast] at hrecent
  unfold DatabaseManager.fetchRecentMessage DatabaseManager.computeMessageId
  rw [hrecent]
  cases hend : s.fetched.getLast? with
  | none =>
    have hnil : s.fetched = [] := List.getLast?_eq_none_iff.mp hend
    refine ⟨_, s, none, rfl, hstep, rfl, ?_, ?_⟩
    . simp [hnil]
    . intro last h
      rw [hend] at h
      contradiction
  | some last =>
    have hmem := List.mem_of_getLast? hend
    have hdocument : last.document ∈ db.getDocuments .messages := by
      have hquery := List.mem_map_of_mem (f := ChatMessage.document) hmem
      rw [hfetched, DatabaseManager.mem_fetchMessages] at hquery
      exact hquery.left.left
    rcases Option.isSome_iff_exists.mp (hdecode _ hdocument) with ⟨message, hmessage⟩
    refine ⟨_, s, some message, rfl, hstep, ?_, ?_, ?_⟩
    . simp [hmessage]
    . simp [List.ne_nil_of_mem hmem]
    . intro last' hlast'
      rw [hend, Option.mem_some_iff] at hlast'
      rw [← hlast']
      refine ⟨message, rfl, hmessage, ?_⟩
      intro hsame
      have hinit := hinit last hmem
      have heq : Message.init now last.document.data = Message.init now' last.document.data := by
        cases hsame with
        | inl hnow => rw [hnow]
        | inr htimestamp => exact Message.init_eq_init htimestamp now now'
      rw [hmessage, hinit] at heq
      injection heq

-- Two messages between Ann and Bob that were sent at the same time.
def previewStore : Firestore :=
  Firestore.setData
    (Firestore.setData ∅ ⟨.messages, "m1"⟩
      (Message.dictionary ⟨"ba", "a", "b", "hello", 1, none, false⟩))
    ⟨.messages, "m2"⟩ (Message.dictionary ⟨"ba", "b", "a", "hi", 1, none, false⟩)

theorem preview_is_end_of_previewStore
    : ∃ messageId s recent,
        (chatListener messageId).step init
            (.snapshot (firstSnapshot (previewStore.getDocuments .messages) messageId) 7) = some s
          ∧ DatabaseManager.fetchRecentMessage (previewStore.getDocuments .messages) (some "a") 6
              ⟨"b", "Bob", "B", "bob@mail.org", "pb", 1, false⟩ = some recent
          ∧ (recent = none ↔ s.fetched = [])
          ∧ recent = some ⟨"ba", "b", "a", "hi", 1, none, false⟩
          ∧ ∃ last ∈ s.fetched.getLast?, last.document.documentID = "m2"
              ∧ recent = some last.message := by
  rcases preview_is_end_of_chat previewStore "a" ⟨"b", "Bob", "B", "bob@mail.org", "pb", 1, false⟩
    (⟨none, none, none, "", none⟩ : ChatController Nat) 6 7 (by decide)
    with ⟨messageId, s, recent, hmessageId, hstep, hrecent, hnil, hend⟩
  have hid : messageId = "ba" := by
    injection hmessageId with hmessageId
    exact hmessageId.symm
  rw [hid] at hstep
  injection hstep with hs
  rw [← hs] at hend
  rcases hend _ rfl with ⟨message, hrecentMessage, hinit, hsame⟩
  have hlast := hsame (Or.inr rfl)
  refine ⟨messageId, s, recent, by rw [hid, ← hs]; rfl, hrecent, hnil, ?_, ?_⟩
  . rw [hrecentMessage, hlast]
    rfl
  . rw [← hs]
    refine ⟨_, rfl, rfl, ?_⟩
    rw [hrecentMessage, hlast]

end ChatListener

end ChatApplication
