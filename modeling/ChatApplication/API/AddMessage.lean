import ChatApplication.API.Persons

/-!
This module contains what one `addMessage` does to the store when nobody else writes, and what it
leaves as it is.
-/

namespace ChatApplication

namespace DatabaseManager

def perform (db : Firestore) (writes : List Write) : Firestore :=
  writes.foldl (fun db write => db.setData write.path write.data) db

theorem perform_cons (db : Firestore) (write : Write) (writes : List Write)
    : perform db (write :: writes) = perform (db.setData write.path write.data) writes := by
  rfl

theorem perform_append (db : Firestore) (writes writes' : List Write)
    : perform db (writes ++ writes') = perform (perform db writes) writes' := by
  unfold perform
  rw [List.foldl_append]

theorem getDocument_perform_of_ne {writes : List Write} {path : Path}
    (h : ∀ write ∈ writes, write.path ≠ path) (db : Firestore)
    : (perform db writes).getDocument path = db.getDocument path := by
  induction writes generalizing db with
  | nil => rfl
  | cons write writes ih =>
    rw [List.forall_mem_cons] at h
    rw [perform_cons, ih h.right, Firestore.getDocument_setData_of_ne db write.data h.left.symm]

theorem getDocument_perform_of_eq {writes : List Write} {path : Path} {data : Dictionary}
    (h : ∀ write ∈ writes, write.path = path → write.data = data)
    (hpath : ∃ write ∈ writes, write.path = path) (db : Firestore)
    : (perform db writes).getDocument path = some data := by
  induction writes generalizing db with
  | nil =>
    rcases hpath with ⟨write, hwrite, _⟩
    contradiction
  | cons write writes ih =>
    rw [List.forall_mem_cons] at h
    rw [perform_cons]
    by_cases hlater : ∃ later ∈ writes, later.path = path
    . exact ih h.right hlater _
    . have hne : ∀ later ∈ writes, later.path ≠ path := by
        intro later hmem heq
        exact hlater ⟨later, hmem, heq⟩
      rcases hpath with ⟨last, hlast, heq⟩
      rw [List.mem_cons] at hlast
      cases hlast with
      | inl hfirst =>
        rw [hfirst] at heq
        rw [getDocument_perform_of_ne hne, heq, Firestore.getDocument_setData_self, h.left heq]
      | inr hmem => exact absurd heq (hne last hmem)

theorem isSome_getDocument_perform {db : Firestore} {writes : List Write} {path : Path}
    : ((perform db writes).getDocument path).isSome
        ↔
      (db.getDocument path).isSome ∨ ∃ write ∈ writes, write.path = path := by
  induction writes generalizing db with
  | nil => simp [perform]
  | cons write writes ih =>
    rw [perform_cons, ih, Firestore.getDocument_setData]
    split
    . next heq => simp [heq]
    . next hne => simp [Ne.symm hne]

theorem getDocument_perform_addMessage (db : Firestore) (documentID : DocumentID) (message : Message)
    (currentUser otherUser : User) (path : Path)
    : (perform db (addMessage documentID message currentUser otherUser)).getDocument path
        =
      if path = recentUserPath otherUser.uid currentUser.uid then
        some currentUser.dictionary
      else if path = recentUserPath currentUser.uid otherUser.uid then
        some otherUser.dictionary
      else if path = ⟨.messages, documentID⟩ then
        some message.dictionary
      else
        db.getDocument path := by
  simp only [addMessage, perform, List.foldl_cons, List.foldl_nil, Firestore.getDocument_setData]

theorem recentUserPath_inj {uid otherUid uid' otherUid' : DocumentID}
    : recentUserPath uid otherUid = recentUserPath uid' otherUid'
        ↔
      uid = uid' ∧ otherUid = otherUid' := by
  simp [recentUserPath]

theorem isSome_getDocument_perform_addMessage {db : Firestore} {documentID : DocumentID}
    {message : Message} {currentUser otherUser : User} {uid : DocumentID}
    : ((perform db (addMessage documentID message currentUser otherUser)).getDocument
          (recentUserPath otherUser.uid uid)).isSome
        ↔
      uid = currentUser.uid ∨ (db.getDocument (recentUserPath otherUser.uid uid)).isSome := by
  rw [isSome_getDocument_perform]
  simp only [addMessage, List.mem_cons, List.not_mem_nil, or_false, exists_eq_or_imp,
    exists_eq_left, recentUserPath_inj, true_and]
  constructor
  . rintro (hold | hmessages | hself | huid)
    . exact Or.inr hold
    . injection hmessages with hcollection
      contradiction
    . exact Or.inl (by rw [← hself.right, ← hself.left])
    . exact Or.inl huid.symm
  . rintro (huid | hold)
    . exact Or.inr (Or.inr (Or.inr huid.symm))
    . exact Or.inl hold

theorem mem_updateGroupMembers_iff {seen : Nat} {group : User} {users : List User} {write : Write}
    : write ∈ updateGroupMembers seen group users
        ↔
      ∃ user ∈ users, write = ⟨recentUserPath user.uid group.uid, group.dictionary, .fresh⟩
        ∨ write = ⟨recentUserPath group.uid user.uid, user.dictionary, .copy seen⟩ := by
  rw [mem_updateGroupMembers]
  simp only [mem_membershipWrites]

/--
The loop in `addMessage` writes the members back as they are stored, so it changes nothing but the
documents which the members have of the group.
-/
theorem getDocument_perform_updateGroupMembers {db : Firestore} {group : User} {users : List User}
    (hstored : ∀ user ∈ users,
      db.getDocument (recentUserPath group.uid user.uid) = some user.dictionary)
    (hself : ∀ user ∈ users, user.uid ≠ group.uid) (seen : Nat) (path : Path)
    : (perform db (updateGroupMembers seen group users)).getDocument path
        =
      if ∃ user ∈ users, path = recentUserPath user.uid group.uid then
        some group.dictionary
      else
        db.getDocument path := by
  split
  . next hmember =>
    rcases hmember with ⟨member, hmember, hpath⟩
    apply getDocument_perform_of_eq
    . intro write hwrite heq
      rw [mem_updateGroupMembers_iff] at hwrite
      rcases hwrite with ⟨user, huser, hwrite | hwrite⟩
      . rw [hwrite]
      . rw [hwrite, hpath, recentUserPath_inj] at heq
        exact absurd heq.left.symm (hself member hmember)
    . refine ⟨⟨recentUserPath member.uid group.uid, group.dictionary, .fresh⟩, ?_, hpath.symm⟩
      rw [mem_updateGroupMembers_iff]
      exact ⟨member, hmember, Or.inl rfl⟩
  . next hmember =>
    by_cases hback : ∃ user ∈ users, path = recentUserPath group.uid user.uid
    . rcases hback with ⟨member, hmem, hpath⟩
      rw [hpath, hstored member hmem]
      apply getDocument_perform_of_eq
      . intro write hwrite heq
        rw [mem_updateGroupMembers_iff] at hwrite
        rcases hwrite with ⟨user, huser, hwrite | hwrite⟩
        . rw [hwrite, recentUserPath_inj] at heq
          exact absurd heq.left (hself user huser)
        . rw [hwrite, recentUserPath_inj] at heq
          have hboth := hstored user huser
          rw [heq.right, hstored member hmem] at hboth
          injection hboth with hboth
          rw [hwrite]
          exact hboth.symm
      . refine ⟨⟨recentUserPath group.uid member.uid, member.dictionary, .copy seen⟩, ?_, rfl⟩
        rw [mem_updateGroupMembers_iff]
        exact ⟨member, hmem, Or.inr rfl⟩
    . apply getDocument_perform_of_ne
      intro write hwrite heq
      rw [mem_updateGroupMembers_iff] at hwrite
      rcases hwrite with ⟨user, huser, hwrite | hwrite⟩
      . rw [hwrite] at heq
        exact hmember ⟨user, huser, heq.symm⟩
      . rw [hwrite] at heq
        exact hback ⟨user, huser, heq.symm⟩

end DatabaseManager

namespace Backend

-- Nobody but the `i`-th operation takes steps.
def Performs (i : Nat) (es : List Event) : Prop :=
  ∀ e ∈ es, ∃ now, e = .perform i now

theorem performs_replicate (n : Nat) {i : Nat} {now : Date}
    : Performs i (List.replicate n (.perform i now)) := by
  intro e he
  exact ⟨now, List.eq_of_mem_replicate he⟩

theorem exec_issued {i : Nat} {issued : List Write} {awaiting : Option Awaiting} {s t : Backend}
    {es : List Event} (hs : s.PersonsInv) (hes : Performs i es)
    (hoperation : s.operations[i]? = some ⟨issued, awaiting⟩) (hrun : backend.exec s es = some t)
    (hfinished : ∀ operation ∈ t.operations[i]?, operation.Finished)
    : ∃ s' es', s'.PersonsInv ∧ Performs i es' ∧ s'.operations[i]? = some ⟨[], awaiting⟩
        ∧ backend.exec s' es' = some t ∧ s'.objects = s.objects
        ∧ s'.db = DatabaseManager.perform s.db issued := by
  induction issued generalizing s es with
  | nil => exact ⟨s, es, hs, hes, hoperation, hrun, rfl, rfl⟩
  | cons write issued ih =>
    cases es with
    | nil =>
      rw [Machine.exec_nil] at hrun
      injection hrun with hrun
      rw [← hrun, hoperation] at hfinished
      have hcontra := (hfinished _ rfl).left
      contradiction
    | cons e es =>
      rw [Machine.exec_cons_eq_some] at hrun
      rcases hrun with ⟨s₁, hstep, hrun⟩
      unfold Performs at hes
      rw [List.forall_mem_cons] at hes
      rcases hes with ⟨⟨now, he⟩, hes⟩
      rw [he] at hstep
      have hs₁ := hs.perform hstep
      have hperform : s₁ = s.performWrite i write issued awaiting := by
        simp only [backend, step, hoperation] at hstep
        injection hstep with hstep
        exact hstep.symm
      have hset : s₁.operations[i]? = some ⟨issued, awaiting⟩ := by
        rw [hperform]
        have hlt := (List.getElem?_eq_some_iff.mp hoperation).choose
        exact List.getElem?_set_self hlt
      rcases ih hs₁ hes hset hrun with ⟨s', es', hinv, hes', hoperation', hrun', hobjects, hdb⟩
      refine ⟨s', es', hinv, hes', hoperation', hrun', ?_, ?_⟩
      . rw [hobjects, hperform]
        rfl
      . rw [hdb, hperform]
        rfl

theorem exec_finished {i : Nat} {s t : Backend} {es : List Event} (hes : Performs i es)
    (hoperation : s.operations[i]? = some ⟨[], none⟩) (hrun : backend.exec s es = some t)
    : t = s := by
  cases es with
  | nil =>
    rw [Machine.exec_nil] at hrun
    injection hrun with hrun
    exact hrun.symm
  | cons e es =>
    rw [Machine.exec_cons_eq_some] at hrun
    rcases hrun with ⟨s₁, hstep, hrun⟩
    rcases hes e List.mem_cons_self with ⟨now, he⟩
    rw [he] at hstep
    simp only [backend, step, hoperation] at hstep
    contradiction

theorem exec_awaiting {i : Nat} {awaiting : Awaiting} {s t : Backend} {es : List Event}
    (hes : Performs i es) (hoperation : s.operations[i]? = some ⟨[], some awaiting⟩)
    (hrun : backend.exec s es = some t)
    (hfinished : ∀ operation ∈ t.operations[i]?, operation.Finished)
    : ∃ now s' es', backend.step s (.perform i now) = some s' ∧ Performs i es'
        ∧ backend.exec s' es' = some t := by
  cases es with
  | nil =>
    rw [Machine.exec_nil] at hrun
    injection hrun with hrun
    rw [← hrun, hoperation] at hfinished
    have hcontra := (hfinished _ rfl).right
    contradiction
  | cons e es =>
    rw [Machine.exec_cons_eq_some] at hrun
    rcases hrun with ⟨s₁, hstep, hrun⟩
    unfold Performs at hes
    rw [List.forall_mem_cons] at hes
    rcases hes with ⟨⟨now, he⟩, hes⟩
    rw [he] at hstep
    exact ⟨now, s₁, es, hstep, hes, hrun⟩

-- The read of the group branch and the loop in its completion.
theorem exec_groupMembers {i otherUser : Nat} {group : User} {s t : Backend} {es : List Event}
    (hs : s.PersonsInv) (hes : Performs i es) (hgroup : s.objects[otherUser]? = some group)
    (hoperation : s.operations[i]? = some ⟨[], some (.request (.groupMembers otherUser))⟩)
    (hrun : backend.exec s es = some t)
    (hfinished : ∀ operation ∈ t.operations[i]?, operation.Finished)
    : ∃ now seen users,
        DatabaseManager.decodeUsers now (DatabaseManager.getGroupMembers s.db group.uid) = some users
          ∧ t.db = DatabaseManager.perform s.db
              (DatabaseManager.updateGroupMembers seen group users) := by
  have hlt := (List.getElem?_eq_some_iff.mp hoperation).choose
  rcases exec_awaiting hes hoperation hrun hfinished with ⟨now, s₁, es₁, hstep₁, hes₁, hrun₁⟩
  have hs₁ := hs.perform hstep₁
  simp only [backend, step, hoperation, fetch, hgroup] at hstep₁
  injection hstep₁ with hstep₁
  have hoperation₁ : s₁.operations[i]? = some ⟨[], some (.reply (.groupMembers otherUser
      s.history.length (DatabaseManager.getGroupMembers s.db group.uid)))⟩ := by
    rw [← hstep₁]
    exact List.getElem?_set_self hlt
  rcases exec_awaiting hes₁ hoperation₁ hrun₁ hfinished with ⟨now', s₂, es₂, hstep₂, hes₂, hrun₂⟩
  have hs₂ := hs₁.perform hstep₂
  rcases step_perform hstep₂ with hwrite | hrequest | hreply
  . rcases hwrite with ⟨write, issued, awaiting, hother, _⟩
    rw [hoperation₁, Option.some.injEq, Operation.mk.injEq] at hother
    exact absurd hother.left (List.cons_ne_nil write issued).symm
  . rcases hrequest with ⟨read, reply, hother, _⟩
    rw [hoperation₁, Option.some.injEq, Operation.mk.injEq] at hother
    exact absurd hother.right (by simp)
  . rcases hreply with ⟨reply, issued, hother, hanswer, hs'⟩
    rw [hoperation₁, Option.some.injEq, Operation.mk.injEq, Option.some.injEq,
      Awaiting.reply.injEq] at hother
    rw [← hother.right] at hanswer
    rcases answer_groupMembers hanswer with ⟨group', users, hgroup', husers, hissued⟩
    rw [← hstep₁] at hgroup'
    rw [receive, hgroup] at hgroup'
    injection hgroup' with hgroup'
    rw [← hgroup'] at hissued
    have hoperation₂ : s₂.operations[i]? = some ⟨issued, none⟩ := by
      rw [hs']
      have hlt₁ := (List.getElem?_eq_some_iff.mp hoperation₁).choose
      exact List.getElem?_set_self hlt₁
    rcases exec_issued hs₂ hes₂ hoperation₂ hrun₂ hfinished
      with ⟨s₃, es₃, _, hes₃, hoperation₃, hrun₃, _, hdb⟩
    refine ⟨now', s.history.length, users, husers, ?_⟩
    rw [exec_finished hes₃ hoperation₃ hrun₃, hdb, hissued, hs', ← hstep₁]
    rfl

theorem PersonsInv.not_recent_self {s : Backend} (hs : s.PersonsInv) {uid : DocumentID}
    (huid : s.Known uid true) : ¬ s.Recent uid uid := by
  intro hrecent
  rw [Recent, Option.isSome_iff_exists] at hrecent
  rcases hrecent with ⟨data, hdata⟩
  rcases huid with ⟨group, hgroup, heq⟩
  have hself := (hs.touched _ data (Or.inl hdata)).self rfl
  rw [← heq] at hself
  exact hs.separate group hgroup hself

theorem PersonsInv.groupMembers {i otherUser : Nat} {group : User} {s t : Backend}
    {es : List Event} (hs : s.PersonsInv) (hes : Performs i es)
    (hgroup : s.objects[otherUser]? = some group) (hisGroup : group.isGroup = true)
    (hoperation : s.operations[i]? = some ⟨[], some (.request (.groupMembers otherUser))⟩)
    (hrun : backend.exec s es = some t)
    (hfinished : ∀ operation ∈ t.operations[i]?, operation.Finished)
    : (∀ uid, s.Recent group.uid uid →
        t.db.getDocument (DatabaseManager.recentUserPath uid group.uid) = some group.dictionary)
        ∧ ∀ path, (∀ uid, s.Recent group.uid uid →
            path ≠ DatabaseManager.recentUserPath uid group.uid) →
          t.db.getDocument path = s.db.getDocument path := by
  rcases exec_groupMembers hs hes hgroup hoperation hrun hfinished
    with ⟨now, seen, users, husers, hdb⟩
  have hknown := hs.objects otherUser _ _ (identity_of_getElem? hgroup)
  rw [hisGroup] at hknown
  have hstored : ∀ user ∈ users,
      s.db.getDocument (DatabaseManager.recentUserPath group.uid user.uid)
        = some user.dictionary := by
    intro user huser
    rw [DatabaseManager.mem_decodeUsers husers] at huser
    rcases huser with ⟨document, hdocument, hinit⟩
    have hdata := DatabaseManager.getDocument_of_mem_getGroupMembers hdocument
    rcases (hs.touched _ _ (Or.inl hdata)).user (by simp [DatabaseManager.recentUserPath])
      with ⟨stored, _, huid, hdictionary⟩
    rw [hdictionary, User.init_dictionary] at hinit
    injection hinit with hinit
    have huid : stored.uid = document.documentID := huid
    rw [← hinit, huid, hdata, hdictionary]
  have hself : ∀ user ∈ users, user.uid ≠ group.uid := by
    intro user huser heq
    have hdata := hstored user huser
    rw [heq] at hdata
    apply hs.not_recent_self hknown
    rw [Recent, hdata]
    rfl
  have hread : ∀ uid, s.Recent group.uid uid → ∃ user ∈ users, user.uid = uid := by
    intro uid hrecent
    rw [Recent, Option.isSome_iff_exists] at hrecent
    rcases hrecent with ⟨data, hdata⟩
    rcases (hs.touched _ data (Or.inl hdata)).user (by simp [DatabaseManager.recentUserPath])
      with ⟨stored, _, huid, hdictionary⟩
    rw [hdictionary] at hdata
    refine ⟨stored, ?_, huid⟩
    rw [DatabaseManager.mem_decodeUsers husers]
    exact ⟨_, DatabaseManager.mem_getGroupMembers_of_getDocument hdata, User.init_dictionary now stored⟩
  rw [hdb]
  constructor
  . intro uid hrecent
    rcases hread uid hrecent with ⟨user, huser, huid⟩
    rw [DatabaseManager.getDocument_perform_updateGroupMembers hstored hself, if_pos]
    exact ⟨user, huser, by rw [huid]⟩
  . intro path hpath
    rw [DatabaseManager.getDocument_perform_updateGroupMembers hstored hself, if_neg]
    rintro ⟨user, huser, heq⟩
    apply hpath user.uid _ heq
    rw [Recent, hstored user huser]
    rfl

theorem getElem?_setTimestamp_setTimestamp {objects : List User} {currentUser otherUser i : Nat}
    {user : User} (h : objects[i]? = some user) (date date' : Date)
    : (setTimestamp (setTimestamp objects currentUser date) otherUser date')[i]?
        =
      some (
        if otherUser = i then
          { user with timestamp := date' }
        else if currentUser = i then
          { user with timestamp := date }
        else
          user
      ) := by
  rw [getElem?_setTimestamp, getElem?_setTimestamp, h, Option.map_some, Option.map_some]
  congr 1
  split
  . split
    . rfl
    . rfl
  . rfl

theorem PersonsInv.getDocument_addMessage {s : Backend} (hs : s.PersonsInv)
    {message : Message} {otherUser : Nat} {sender other : User}
    (hother : s.objects[otherUser]? = some other)
    (hgroup : message.isGroupMessage = other.isGroup) {documentID : DocumentID} {i : Nat}
    (hoperation : s.operations[i]? = some ⟨
      DatabaseManager.addMessage documentID message sender other,
      if message.isGroupMessage then some (.request (.groupMembers otherUser)) else none
    ⟩)
    {t : Backend} {es : List Event} (hes : Performs i es) (hrun : backend.exec s es = some t)
    (hfinished : ∀ operation ∈ t.operations[i]?, operation.Finished)
    : (other.isGroup = true → ∀ uid, uid = sender.uid ∨ s.Recent other.uid uid →
        t.db.getDocument (DatabaseManager.recentUserPath uid other.uid) = some other.dictionary)
        ∧ ∀ path, (other.isGroup = true → ∀ uid, uid = sender.uid ∨ s.Recent other.uid uid →
            path ≠ DatabaseManager.recentUserPath uid other.uid) →
          t.db.getDocument path
            = (DatabaseManager.perform s.db
                (DatabaseManager.addMessage documentID message sender other)).getDocument path := by
  rcases exec_issued hs hes hoperation hrun hfinished
    with ⟨s₁, es₁, hs₁, hes₁, hoperation₁, hrun₁, hobjects, hdb⟩
  rw [hgroup] at hoperation₁
  cases hisGroup : other.isGroup with
  | false =>
    rw [hisGroup] at hoperation₁
    constructor
    . intro hcontra
      contradiction
    . intro path _
      rw [exec_finished hes₁ hoperation₁ hrun₁, hdb]
  | true =>
    rw [hisGroup] at hoperation₁
    rw [← hobjects] at hother
    have hrecent : ∀ uid, s₁.Recent other.uid uid ↔ uid = sender.uid ∨ s.Recent other.uid uid := by
      intro uid
      unfold Recent
      rw [hdb]
      exact DatabaseManager.isSome_getDocument_perform_addMessage
    rcases hs₁.groupMembers hes₁ hother hisGroup hoperation₁ hrun₁ hfinished with ⟨heffect, hframe⟩
    constructor
    . intro _ uid hmember
      apply heffect
      rw [hrecent]
      exact hmember
    . intro path hne
      rw [hframe path, hdb]
      intro uid hmember
      rw [hrecent] at hmember
      exact hne rfl uid hmember

theorem addMessage_started {s s' : Backend} {message : Message} {currentUser otherUser : Nat}
    {sender other : User} {date date' : Date} {documentID : DocumentID}
    (hsender : s.objects[currentUser]? = some sender)
    (hother : s.objects[otherUser]? = some other)
    (hstep : s.step (.addMessage message currentUser otherUser date date' documentID) = some s')
    : s'.db = s.db ∧ s'.objects[otherUser]? = some { other with timestamp := date' }
        ∧ s'.operations[s.operations.length]? = some ⟨
            DatabaseManager.addMessage documentID message
              { sender with timestamp := if otherUser = currentUser then date' else date }
              { other with timestamp := date' },
            if message.isGroupMessage then some (.request (.groupMembers otherUser)) else none
          ⟩ := by
  rcases step_addMessage hstep with ⟨objects, user, user', hobjects, huser, huser', hs'⟩
  have hobject := huser'
  rw [hobjects, getElem?_setTimestamp_setTimestamp hsender] at huser
  rw [hobjects, getElem?_setTimestamp_setTimestamp hother, if_pos rfl] at huser'
  injection huser with huser
  injection huser' with huser'
  have hstamped : user =
      { sender with timestamp := if otherUser = currentUser then date' else date } := by
    rw [← huser]
    split
    . rfl
    . rw [if_pos rfl]
  rw [hs']
  refine ⟨rfl, ?_, ?_⟩
  . rw [huser']
    exact hobject
  . rw [← hstamped, huser']
    exact List.getElem?_concat_length

theorem PersonsInv.uid_ne_of_isGroup {s : Backend} (hs : s.PersonsInv) {object : Nat} {user : User}
    (hobject : s.objects[object]? = some user) (hisGroup : user.isGroup = true) {uid : DocumentID}
    (huid : uid ∈ s.accounts) : user.uid ≠ uid := by
  have hknown := hs.objects object _ _ (identity_of_getElem? hobject)
  rw [hisGroup] at hknown
  rcases hknown with ⟨group, hgroup, hgroupUid⟩
  intro heq
  apply hs.separate group hgroup
  rw [hgroupUid, heq]
  exact huid

theorem addMessage_effect_and_frame (es : List Event) (s : Backend)
    (hrun : backend.exec init es = some s) (message : Message) (currentUser otherUser : Nat)
    (sender other : User) (hsender : s.objects[currentUser]? = some sender)
    (hother : s.objects[otherUser]? = some other)
    (hgroup : message.isGroupMessage = other.isGroup) (date date' : Date) (documentID : DocumentID)
    (hnew : s.db.getDocument ⟨.messages, documentID⟩ = none)
    (hfrom : backend.Meets FromAccounts init
      (es ++ [.addMessage message currentUser otherUser date date' documentID]))
    (performs : List Event) (hperforms : Performs s.operations.length performs) (t : Backend)
    (hsend : backend.exec s
      (.addMessage message currentUser otherUser date date' documentID :: performs) = some t)
    (hfinished : ∀ operation ∈ t.operations[s.operations.length]?, operation.Finished)
    : (t.db.getDocuments .messages).Perm
          (⟨documentID, message.dictionary⟩ :: s.db.getDocuments .messages)
        ∧ t.db.getDocument (DatabaseManager.recentUserPath other.uid sender.uid)
          = some (User.dictionary
              { sender with timestamp := if otherUser = currentUser then date' else date })
        ∧ (sender.uid ≠ other.uid →
            t.db.getDocument (DatabaseManager.recentUserPath sender.uid other.uid)
              = some (User.dictionary { other with timestamp := date' }))
        ∧ (other.isGroup = true → ∀ uid, uid = sender.uid ∨ s.Recent other.uid uid →
            t.db.getDocument (DatabaseManager.recentUserPath uid other.uid)
              = some (User.dictionary { other with timestamp := date' }))
        ∧ (∀ uid, uid ≠ sender.uid →
            t.db.getDocument (DatabaseManager.recentUserPath other.uid uid)
              = s.db.getDocument (DatabaseManager.recentUserPath other.uid uid))
        ∧ ∀ path, path ≠ ⟨.messages, documentID⟩ →
            path ≠ DatabaseManager.recentUserPath sender.uid other.uid →
            path ≠ DatabaseManager.recentUserPath other.uid sender.uid →
            (other.isGroup = true → ∀ uid, s.Recent other.uid uid →
              path ≠ DatabaseManager.recentUserPath uid other.uid) →
            t.db.getDocument path = s.db.getDocument path := by
  have hs := exec_personsInv hrun hfrom.append_left
  rw [Machine.exec_cons_eq_some] at hsend
  rcases hsend with ⟨s₁, hstep, hrun₁⟩
  have hfromStep := hfrom.mid hrun hstep
  have hs₁ := personsInv_step hs hstep hfromStep
  rcases addMessage_started hsender hother hstep with ⟨hdb, hobject, hoperation⟩
  rcases hs₁.getDocument_addMessage hobject hgroup hoperation hperforms hrun₁ hfinished
    with ⟨hmember, hunread⟩
  unfold Recent at hmember hunread
  rw [hdb] at hmember hunread
  dsimp only at hmember hunread
  have hne : other.isGroup = true → other.uid ≠ sender.uid := by
    intro hisGroup
    exact hs.uid_ne_of_isGroup hother hisGroup (hfromStep sender hsender)
  have hself : other.isGroup = true → ¬ s.Recent other.uid other.uid := by
    intro hisGroup
    apply hs.not_recent_self
    rw [← hisGroup]
    exact hs.objects otherUser _ _ (identity_of_getElem? hother)
  have hmessage : t.db.getDocument ⟨.messages, documentID⟩ = some message.dictionary := by
    rw [hunread, DatabaseManager.getDocument_perform_addMessage]
    . simp [DatabaseManager.recentUserPath]
    . simp [DatabaseManager.recentUserPath]
  have hframe : ∀ path, path ≠ ⟨.messages, documentID⟩ →
      path ≠ DatabaseManager.recentUserPath sender.uid other.uid →
      path ≠ DatabaseManager.recentUserPath other.uid sender.uid →
      (other.isGroup = true → ∀ uid, s.Recent other.uid uid →
        path ≠ DatabaseManager.recentUserPath uid other.uid) →
      t.db.getDocument path = s.db.getDocument path := by
    intro path hmessages hforth hback hmembers
    rw [hunread, DatabaseManager.getDocument_perform_addMessage, if_neg hback, if_neg hforth,
      if_neg hmessages]
    intro hisGroup uid huid
    cases huid with
    | inl hsender =>
      rw [hsender]
      exact hforth
    | inr hrecent => exact hmembers hisGroup uid hrecent
  refine ⟨?_, ?_, ?_, hmember, ?_, hframe⟩
  . apply Firestore.getDocuments_perm_cons hnew hmessage
    intro documentID' hdocumentID
    apply hframe
    . simpa using hdocumentID
    all_goals simp [DatabaseManager.recentUserPath]
  . rw [hunread, DatabaseManager.getDocument_perform_addMessage, if_pos rfl]
    intro hisGroup uid _ heq
    rw [DatabaseManager.recentUserPath_inj] at heq
    exact hne hisGroup heq.right.symm
  . intro huid
    by_cases hisGroup : other.isGroup = true
    . exact hmember hisGroup sender.uid (Or.inl rfl)
    . rw [hunread, DatabaseManager.getDocument_perform_addMessage, if_neg, if_pos rfl]
      . rw [DatabaseManager.recentUserPath_inj]
        exact fun heq => huid heq.left
      . intro hcontra
        contradiction
  . intro uid huid
    apply hframe
    . simp [DatabaseManager.recentUserPath]
    . rw [Ne, DatabaseManager.recentUserPath_inj]
      rintro ⟨hsender, hother⟩
      exact huid (hother.trans hsender)
    . rw [Ne, DatabaseManager.recentUserPath_inj]
      exact fun heq => huid heq.right
    . intro hisGroup member hrecent heq
      rw [DatabaseManager.recentUserPath_inj] at heq
      rw [← heq.left] at hrecent
      exact hself hisGroup hrecent

theorem addMessage_effect_and_frame_groupRun
    : ∃ s t, backend.exec init groupRun = some s
        ∧ backend.exec s
            (.addMessage ⟨"Uab", "a", "Uab", "hello", 6, none, true⟩ 0 2 6 7 "n"
              :: List.replicate 9 (.perform 4 8)) = some t
        ∧ t.db.getDocument (DatabaseManager.recentUserPath "b" "Uab")
          = some (User.dictionary ⟨"Uab", "Group", "", "", "pg", 7, true⟩)
        ∧ t.db.getDocument (DatabaseManager.recentUserPath "Uab" "b")
          = s.db.getDocument (DatabaseManager.recentUserPath "Uab" "b") := by
  have heffect := addMessage_effect_and_frame groupRun _ rfl
    ⟨"Uab", "a", "Uab", "hello", 6, none, true⟩ 0 2 _ _ rfl rfl rfl 6 7 "n" (by decide) (by decide)
    (List.replicate 9 (.perform 4 8)) (performs_replicate 9) _ rfl (by decide)
  rcases heffect with ⟨_, _, _, hmembers, hunchanged, _⟩
  exact ⟨_, _, rfl, rfl, hmembers rfl "b" (Or.inr rfl), hunchanged "b" (by decide)⟩

end Backend

end ChatApplication
