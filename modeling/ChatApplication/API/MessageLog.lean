import ChatApplication.API.Backend
import ChatApplication.API.MessageID

/-!
This module contains the collection `messages` over a run. Documents are only ever added to it: every
call of `addMessage` adds one, under an id that `addDocument` makes up, and no other write goes there.
-/

namespace ChatApplication

-- the document of a write to `messages`
def Write.message? (write : Write) : Option DocumentSnapshot :=
  if write.path.collection = .messages then
    some ⟨write.path.documentID, write.data⟩
  else
    none

namespace DatabaseManager

theorem filterMap_message?_addUser (user : User)
    : (addUser user).filterMap Write.message? = [] := by
  rfl

theorem filterMap_message?_addMessage (documentID : DocumentID) (message : Message)
    (currentUser otherUser : User)
    : (addMessage documentID message currentUser otherUser).filterMap Write.message?
        =
      [⟨documentID, message.dictionary⟩] := by
  rfl

theorem filterMap_message?_membershipWrites (origin : Origin) (group : User) (users : List User)
    : (users.flatMap (membershipWrites origin group)).filterMap Write.message? = [] := by
  rw [List.filterMap_eq_nil_iff]
  intro write hwrite
  rw [List.mem_flatMap] at hwrite
  rcases hwrite with ⟨user, _, hwrite⟩
  rw [mem_membershipWrites] at hwrite
  cases hwrite with
  | inl hwrite =>
    rw [hwrite]
    rfl
  | inr hwrite =>
    rw [hwrite]
    rfl

end DatabaseManager

namespace Backend

-- what is in the collection, in the order in which it was written
def storedMessages (s : Backend) : List DocumentSnapshot :=
  s.history.filterMap Write.message?

def outgoingMessages (s : Backend) : List DocumentSnapshot :=
  s.pending.filterMap Write.message?

def allMessages (s : Backend) : List DocumentSnapshot :=
  s.storedMessages ++ s.outgoingMessages

-- the document that a call of `addMessage` is going to write
def Event.added? : Event → Option DocumentSnapshot
  | .addMessage message _ _ _ _ documentID => some ⟨documentID, message.dictionary⟩
  | _ => none

-- the document that a request which reaches Firestore puts into the collection
def stored? (s : Backend) : Event → Option DocumentSnapshot
  | .perform i _ => s.operations[i]?.bind (fun operation => operation.issued.head?.bind Write.message?)
  | _ => none

theorem filterMap_message?_answer {s : Backend} {now : Date} {reply : Reply} {issued : List Write}
    (h : s.answer now reply = some issued) : issued.filterMap Write.message? = [] := by
  cases reply with
  | groupMembers otherUser seen documents =>
    rcases answer_groupMembers h with ⟨group, users, _, _, hissued⟩
    rw [hissued]
    apply DatabaseManager.filterMap_message?_membershipWrites
  | creator group selectedUsers data =>
    rcases answer_creator h with ⟨currentUser, group', _, _, hissued⟩
    rw [hissued]
    apply DatabaseManager.filterMap_message?_membershipWrites

theorem outgoingMessages_start (s : Backend) (operation : Operation)
    : (s.start operation).outgoingMessages
        =
      s.outgoingMessages ++ operation.issued.filterMap Write.message? := by
  simp [outgoingMessages, pending, start]

-- An operation goes on without a message among the writes that come or go.
theorem outgoingMessages_set {s s' : Backend} {i : Nat} {awaiting awaiting' : Option Awaiting}
    {issued : List Write} (hoperation : s.operations[i]? = some ⟨[], awaiting⟩)
    (hs' : s'.operations = s.operations.set i ⟨issued, awaiting'⟩)
    (hissued : issued.filterMap Write.message? = [])
    : s'.outgoingMessages.Perm s.outgoingMessages := by
  rcases List.exists_perm_flatMap_set hoperation Operation.issued with ⟨others, hbefore, hafter⟩
  have hnow := (hafter ⟨issued, awaiting'⟩).filterMap Write.message?
  rw [List.filterMap_append, hissued, List.nil_append] at hnow
  unfold outgoingMessages pending
  rw [hs']
  exact hnow.trans (hbefore.filterMap Write.message?).symm

theorem allMessages_performWrite {s : Backend} {i : Nat} {write : Write} {issued : List Write}
    {awaiting : Option Awaiting} (hoperation : s.operations[i]? = some ⟨write :: issued, awaiting⟩)
    : (s.performWrite i write issued awaiting).allMessages.Perm s.allMessages := by
  rcases List.exists_perm_flatMap_set hoperation Operation.issued with ⟨others, hbefore, hafter⟩
  have hwrites : ((s.performWrite i write issued awaiting).history
      ++ (s.performWrite i write issued awaiting).pending).Perm (s.history ++ s.pending) := by
    unfold performWrite
    dsimp only
    rw [List.append_assoc]
    apply List.Perm.append_left
    exact ((hafter ⟨issued, awaiting⟩).cons write).trans hbefore.symm
  have hmessages := hwrites.filterMap Write.message?
  rw [List.filterMap_append, List.filterMap_append] at hmessages
  exact hmessages

/-- Whatever happens, the messages stored or on their way are those given to `addMessage`. -/
theorem allMessages_step {s s' : Backend} {e : Event} (hstep : backend.step s e = some s')
    : s'.allMessages.Perm (s.allMessages ++ e.added?.toList) := by
  cases e with
  | createAccount uid =>
    rw [step_createAccount hstep]
    exact List.Perm.of_eq (List.append_nil _).symm
  | signup uid firstName lastName email url date now =>
    rcases step_signup hstep with ⟨_, user, _, _, hs'⟩
    rw [hs', allMessages, outgoingMessages_start, DatabaseManager.filterMap_message?_addUser]
    exact List.Perm.of_eq (List.append_assoc _ _ _).symm
  | load path now =>
    rcases step_load hstep with ⟨_, data, user, _, _, hs'⟩
    rw [hs']
    exact List.Perm.of_eq (List.append_nil _).symm
  | createGroup uid uuid usersId groupName url selectedUsers date now =>
    rcases step_createGroup hstep with ⟨_, _, group, _, _, hs'⟩
    rw [hs', allMessages, outgoingMessages_start, DatabaseManager.filterMap_message?_addUser]
    exact List.Perm.of_eq (List.append_assoc _ _ _).symm
  | addMessage message currentUser otherUser date date' documentID =>
    rcases step_addMessage hstep with ⟨objects, user, user', _, _, _, hs'⟩
    rw [hs', allMessages, outgoingMessages_start, DatabaseManager.filterMap_message?_addMessage]
    exact List.Perm.of_eq (List.append_assoc _ _ _).symm
  | perform i now =>
    refine List.Perm.trans ?_ (List.Perm.of_eq (List.append_nil _).symm)
    rcases step_perform hstep with hwrite | hrequest | hreply
    . rcases hwrite with ⟨write, issued, awaiting, hoperation, hs'⟩
      rw [hs']
      exact allMessages_performWrite hoperation
    . rcases hrequest with ⟨read, reply, hoperation, _, hs'⟩
      have houtgoing : s'.outgoingMessages.Perm s.outgoingMessages := by
        exact outgoingMessages_set hoperation (by rw [hs']; rfl) rfl
      rw [hs'] at houtgoing ⊢
      exact houtgoing.append_left s.storedMessages
    . rcases hreply with ⟨reply, issued, hoperation, hanswer, hs'⟩
      have houtgoing : s'.outgoingMessages.Perm s.outgoingMessages := by
        exact outgoingMessages_set hoperation (by rw [hs']; rfl) (filterMap_message?_answer hanswer)
      rw [hs'] at houtgoing ⊢
      exact houtgoing.append_left s.storedMessages

theorem store_step {s s' : Backend} {e : Event} (hstep : backend.step s e = some s')
    : (∃ i write issued awaiting, s.operations[i]? = some ⟨write :: issued, awaiting⟩
          ∧ s' = s.performWrite i write issued awaiting ∧ s.stored? e = write.message?)
        ∨
      (s'.db = s.db ∧ s'.history = s.history ∧ s.stored? e = none) := by
  cases e with
  | createAccount uid =>
    rw [step_createAccount hstep]
    exact Or.inr ⟨rfl, rfl, rfl⟩
  | signup uid firstName lastName email url date now =>
    rcases step_signup hstep with ⟨_, user, _, _, hs'⟩
    rw [hs']
    exact Or.inr ⟨rfl, rfl, rfl⟩
  | load path now =>
    rcases step_load hstep with ⟨_, data, user, _, _, hs'⟩
    rw [hs']
    exact Or.inr ⟨rfl, rfl, rfl⟩
  | createGroup uid uuid usersId groupName url selectedUsers date now =>
    rcases step_createGroup hstep with ⟨_, _, group, _, _, hs'⟩
    rw [hs']
    exact Or.inr ⟨rfl, rfl, rfl⟩
  | addMessage message currentUser otherUser date date' documentID =>
    rcases step_addMessage hstep with ⟨objects, user, user', _, _, _, hs'⟩
    rw [hs']
    exact Or.inr ⟨rfl, rfl, rfl⟩
  | perform i now =>
    rcases step_perform hstep with hwrite | hrequest | hreply
    . rcases hwrite with ⟨write, issued, awaiting, hoperation, hs'⟩
      exact Or.inl ⟨i, write, issued, awaiting, hoperation, hs', by simp [stored?, hoperation]⟩
    . rcases hrequest with ⟨read, reply, hoperation, _, hs'⟩
      rw [hs']
      exact Or.inr ⟨rfl, rfl, by simp [stored?, hoperation]⟩
    . rcases hreply with ⟨reply, issued, hoperation, _, hs'⟩
      rw [hs']
      exact Or.inr ⟨rfl, rfl, by simp [stored?, hoperation]⟩

theorem storedMessages_step {s s' : Backend} {e : Event} (hstep : backend.step s e = some s')
    : s'.storedMessages = s.storedMessages ++ (s.stored? e).toList := by
  unfold storedMessages
  rcases store_step hstep with ⟨i, write, issued, awaiting, _, hs', hstored⟩ | ⟨_, hhistory, hstored⟩
  . have hhistory : s'.history = s.history ++ [write] := by
      rw [hs']
      rfl
    rw [hhistory, List.filterMap_append, hstored]
    cases hmessage : write.message? with
    | none => rw [List.filterMap_cons_none hmessage, List.filterMap_nil, Option.toList_none]
    | some document =>
      rw [List.filterMap_cons_some hmessage, List.filterMap_nil, Option.toList_some]
  . rw [hhistory, hstored, Option.toList_none, List.append_nil]

-- `addDocument` makes up an id that no document of the collection has.
def AddsNew (s : Backend) (e : Event) : Prop :=
  ∀ document ∈ e.added?, ∀ other ∈ s.allMessages, other.documentID ≠ document.documentID

structure MessageLogInv (s : Backend) : Prop where
  nodup : (s.allMessages.map DocumentSnapshot.documentID).Nodup
  stored : ∀ document, document ∈ s.db.getDocuments .messages ↔ document ∈ s.storedMessages

theorem messageLogInv_init : init.MessageLogInv := by
  constructor
  . exact List.nodup_nil
  . intro document
    rw [Firestore.mem_getDocuments, init, Firestore.getDocument_empty]
    simp [storedMessages]

theorem MessageLogInv.nodup_storedMessages {s : Backend} (hs : s.MessageLogInv)
    : (s.storedMessages.map DocumentSnapshot.documentID).Nodup := by
  have hnodup := hs.nodup
  rw [allMessages, List.map_append, List.nodup_append] at hnodup
  exact hnodup.left

theorem message?_eq_some {write : Write} {document : DocumentSnapshot}
    : write.message? = some document
        ↔
      write.path = ⟨.messages, document.documentID⟩ ∧ write.data = document.data := by
  rcases write with ⟨⟨collection, documentID⟩, data, origin⟩
  rcases document with ⟨documentID', data'⟩
  simp [Write.message?, and_assoc]

theorem mem_getDocuments_performWrite {s : Backend} {i : Nat} {write : Write} {issued : List Write}
    {awaiting : Option Awaiting} {document : DocumentSnapshot}
    : document ∈ (s.performWrite i write issued awaiting).db.getDocuments .messages
        ↔
      write.message? = some document
        ∨
      (document ∈ s.db.getDocuments .messages
        ∧ ∀ new, write.message? = some new → new.documentID ≠ document.documentID) := by
  unfold performWrite
  dsimp only
  rw [Firestore.mem_getDocuments, Firestore.mem_getDocuments, Firestore.getDocument_setData]
  split
  . next hpath =>
    rw [Option.some.injEq, message?_eq_some, hpath]
    constructor
    . intro hdata
      exact Or.inl ⟨rfl, hdata⟩
    . rintro (⟨_, hdata⟩ | ⟨_, hother⟩)
      . exact hdata
      . have hnew : write.message? = some ⟨document.documentID, write.data⟩ := by
          rw [message?_eq_some]
          exact ⟨hpath.symm, rfl⟩
        exact absurd rfl (hother ⟨document.documentID, write.data⟩ hnew)
  . next hpath =>
    constructor
    . intro hdata
      refine Or.inr ⟨hdata, ?_⟩
      intro new hnew hid
      rw [message?_eq_some, hid] at hnew
      exact hpath hnew.left.symm
    . rintro (hnew | ⟨hdata, _⟩)
      . rw [message?_eq_some] at hnew
        exact absurd hnew.left.symm hpath
      . exact hdata

theorem messageLogInv_step {s : Backend} {e : Event} {s' : Backend} (hs : s.MessageLogInv)
    (hstep : backend.step s e = some s') (hnew : s.AddsNew e) : s'.MessageLogInv := by
  have hstored := storedMessages_step hstep
  have hnodup : (s'.allMessages.map DocumentSnapshot.documentID).Nodup := by
    have hperm := (allMessages_step hstep).map DocumentSnapshot.documentID
    rw [hperm.nodup_iff, List.map_append, List.nodup_append]
    refine ⟨hs.nodup, ?_, ?_⟩
    . cases e.added? with
      | none => exact List.nodup_nil
      | some document => exact List.nodup_singleton _
    . intro old hold new hmem heq
      rw [List.mem_map] at hold hmem
      rcases hold with ⟨other, hother, hid⟩
      rcases hmem with ⟨document, hdocument, hid'⟩
      rw [Option.mem_toList] at hdocument
      exact hnew document hdocument other hother (by rw [hid, hid', heq])
  constructor
  . exact hnodup
  . intro document
    rw [hstored, List.mem_append, Option.mem_toList]
    rcases store_step hstep with ⟨i, write, issued, awaiting, _, hs', hwrite⟩ | ⟨hdb, _, hnone⟩
    . rw [hwrite, hs', mem_getDocuments_performWrite, hs.stored]
      constructor
      . rintro (hmessage | ⟨hmem, _⟩)
        . exact Or.inr hmessage
        . exact Or.inl hmem
      . rintro (hmem | hmessage)
        . refine Or.inr ⟨hmem, ?_⟩
          -- the ids of all messages are distinct, those of the stored and the new one included
          intro new hmessage hid
          rw [allMessages, hstored, hwrite, hmessage, Option.toList_some, List.map_append,
            List.nodup_append, List.map_append, List.nodup_append] at hnodup
          apply hnodup.left.right.right document.documentID (List.mem_map_of_mem hmem)
            new.documentID (by simp)
          exact hid.symm
        . exact Or.inl hmessage
    . rw [hdb, hs.stored, hnone]
      simp

end Backend

end ChatApplication
