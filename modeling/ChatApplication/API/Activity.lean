import ChatApplication.API.Activity.Sending

/-!
This module contains when sends to a group undo what other sends to it have stored.
-/

namespace ChatApplication

namespace Backend

variable {group : Group} {start : Nat} {clock latest : Date}

-- The completion that is waited for issues writes with `date` or a later time.
def Brings (date : Date) (s : Backend) : Awaiting → Prop
  | .request (.groupMembers otherUser) | .reply (.groupMembers otherUser _ _) =>
    ∃ user, s.objects[otherUser]? = some user ∧ date ≤ user.timestamp
  | .request (.creator _ _ _) | .reply (.creator _ _ _) => False

theorem Brings.of_objects {s s' : Backend} {date : Date} {awaiting : Awaiting}
    (h : Brings date s awaiting)
    (hobjects : ∀ (object : Nat) user, s.objects[object]? = some user →
      s'.objects[object]? = some user)
    : Brings date s' awaiting := by
  match awaiting with
  | .request (.groupMembers otherUser) | .reply (.groupMembers otherUser seen documents) =>
    rcases h with ⟨user, huser, hdate⟩
    exact ⟨user, hobjects otherUser user huser, hdate⟩

theorem brings_of_fetch {s : Backend} {date : Date} {read : Read} {reply : Reply}
    (h : Brings date s (.request read)) (hfetch : s.fetch read = some reply)
    : Brings date s (.reply reply) := by
  cases read with
  | creator uid object selectedUsers => contradiction
  | groupMembers otherUser =>
    rcases fetch_groupMembers hfetch with ⟨group, _, hreply⟩
    rw [hreply]
    exact h

-- A write that brings `date` to every member of the group is performed, issued or will be issued.
def OnItsWay (group : Group) (start : Nat) (date : Date) (s : Backend) : Prop :=
  s.Awaits (Brings date s)
    ∨
  ∀ uid ∈ group.members, ∃ write : Write,
    (write ∈ s.pending ∨ write.entry ∈ s.log.drop start)
      ∧ write.path = DatabaseManager.recentUserPath uid group.uid ∧ date ≤ write.data.stamp

theorem onItsWay_addMessage {s s' : Backend} {message : Message} {currentUser otherUser : Nat}
    {date date' : Date} {documentID : DocumentID}
    (hstep : backend.step s (.addMessage message currentUser otherUser date date' documentID)
      = some s')
    (hsends : Sends group clock latest s
      (.addMessage message currentUser otherUser date date' documentID) s')
    : OnItsWay group start date' s' := by
  rcases step_addMessage hstep with ⟨objects, user, user', hobjects, _, huser', hs'⟩
  rcases admissible_addMessage hsends.admissible with ⟨_, before, _, hbefore, _, hmessage, _⟩
  have hidentity : s.identity otherUser = some (group.uid, true) := hsends.sendsTo
  rw [identity_of_getElem? hbefore, Option.some.injEq, Prod.mk.injEq] at hidentity
  rw [hidentity.right] at hmessage
  have htimestamp : user'.timestamp = date' := by
    rw [hobjects] at huser'
    exact timestamp_eq_of_getElem?_setTimestamp huser'
  rw [hs', hmessage]
  left
  apply awaits_start rfl
  exact ⟨user', huser', htimestamp.ge⟩

theorem OnItsWay.performWrite {s : Backend} {date : Date} (h : OnItsWay group start date s)
    (hs : Sending group start clock latest s) {i : Nat} {write : Write} {issued : List Write}
    {awaiting : Option Awaiting} (hoperation : s.operations[i]? = some ⟨write :: issued, awaiting⟩)
    : OnItsWay group start date (s.performWrite i write issued awaiting) := by
  cases h with
  | inl hbrings =>
    left
    apply (hbrings.performWrite hoperation).imp (fun _ h => h)
    intro awaiting' h
    exact h.of_objects (fun _ _ h => h)
  | inr hwrites =>
    right
    intro uid huid
    rcases hwrites uid huid with ⟨w, hw, hrest⟩
    refine ⟨w, ?_, hrest⟩
    rw [log_performWrite, List.drop_append_of_le_length hs.wellFormed.start_le, List.mem_append,
      List.mem_singleton]
    cases hw with
    | inl hpending =>
      rw [mem_pending_performWrite hoperation] at hpending
      cases hpending with
      | inl hperformed =>
        rw [hperformed]
        exact Or.inr (Or.inr rfl)
      | inr hpending => exact Or.inl hpending
    | inr hlog => exact Or.inr (Or.inl hlog)

theorem OnItsWay.receive {s : Backend} {date : Date} (h : OnItsWay group start date s) {i : Nat}
    {read : Read} {reply : Reply} (hoperation : s.operations[i]? = some ⟨[], some (.request read)⟩)
    (hfetch : s.fetch read = some reply) : OnItsWay group start date (s.receive i reply) := by
  cases h with
  | inl hbrings =>
    left
    have hreply := hbrings.receive hoperation (fun h => brings_of_fetch h hfetch)
    apply hreply.imp (fun _ h => h)
    intro awaiting h
    exact h.of_objects (fun _ _ h => h)
  | inr hwrites =>
    right
    intro uid huid
    rcases hwrites uid huid with ⟨w, hw, hrest⟩
    refine ⟨w, ?_, hrest⟩
    rw [mem_pending_receive hoperation]
    exact hw

theorem exists_write_of_answer {s : Backend} {now date : Date} {reply : Reply}
    {issued : List Write} (hreply : AsksFor group start clock latest s (.reply reply))
    (hbrings : Brings date s (.reply reply)) (hanswer : s.answer now reply = some issued)
    {uid : DocumentID} (huid : uid ∈ group.members)
    : ∃ write ∈ issued, write.path = DatabaseManager.recentUserPath uid group.uid
        ∧ date ≤ write.data.stamp := by
  cases reply with
  | creator object selectedUsers data => contradiction
  | groupMembers otherUser seen documents =>
    rcases hreply with ⟨⟨user, huser, hgroup, _⟩, hmembers, _⟩
    rcases hbrings with ⟨user', huser', hdate⟩
    rcases answer_groupMembers hanswer with ⟨user'', users, huser'', husers, hissued⟩
    rw [huser, Option.some.injEq] at huser' huser''
    rw [← huser'] at hdate
    rcases hmembers uid huid with ⟨member, hmember, hdocument⟩
    have hmem : member ∈ users := by
      rw [DatabaseManager.mem_decodeUsers husers]
      exact ⟨_, hdocument, User.init_dictionary now member⟩
    have hwrite : ⟨DatabaseManager.recentUserPath uid group.uid, user.dictionary, .fresh⟩
        ∈ issued := by
      rw [hissued, DatabaseManager.mem_updateGroupMembers, ← huser'', ← hmember, ← hgroup]
      refine ⟨member, hmem, ?_⟩
      rw [DatabaseManager.mem_membershipWrites]
      exact Or.inl rfl
    exact ⟨_, hwrite, rfl, WithBot.coe_le_coe.mpr hdate⟩

theorem OnItsWay.issue {s : Backend} {date : Date} (h : OnItsWay group start date s)
    (hs : Sending group start clock latest s) {i : Nat} {now : Date} {reply : Reply}
    {issued : List Write} (hoperation : s.operations[i]? = some ⟨[], some (.reply reply)⟩)
    (hanswer : s.answer now reply = some issued)
    : OnItsWay group start date (s.issue i issued) := by
  cases h with
  | inl hbrings =>
    cases hbrings.issue hoperation issued with
    | inl hbrings =>
      right
      intro uid huid
      have hreply := hs.awaiting _ (List.mem_of_getElem? hoperation) _ rfl
      rcases exists_write_of_answer hreply hbrings hanswer huid with ⟨write, hwrite, hrest⟩
      refine ⟨write, Or.inl ?_, hrest⟩
      rw [mem_pending_issue hoperation]
      exact Or.inr hwrite
    | inr hlater =>
      left
      apply hlater.imp (fun _ h => h)
      intro awaiting h
      exact h.of_objects (fun _ _ h => h)
  | inr hwrites =>
    right
    intro uid huid
    rcases hwrites uid huid with ⟨w, hw, hrest⟩
    refine ⟨w, ?_, hrest⟩
    rw [mem_pending_issue hoperation]
    exact hw.imp_left Or.inl

theorem OnItsWay.load {s s' : Backend} {date : Date} (h : OnItsWay group start date s)
    {path : Path} {now : Date} (hstep : backend.step s (.load path now) = some s')
    : OnItsWay group start date s' := by
  rcases step_load hstep with ⟨_, data, user, _, _, hs'⟩
  rw [hs']
  cases h with
  | inl hbrings =>
    left
    apply hbrings.imp (fun _ h => h)
    intro awaiting h
    apply h.of_objects
    intro object old hold
    have hlt := (List.getElem?_eq_some_iff.mp hold).choose
    dsimp
    rw [List.getElem?_append_left hlt, hold]
  | inr hwrites => exact Or.inr hwrites

theorem dates_append (es : List Event) (e : Event) : dates (es ++ [e]) = dates es ++ dates [e] := by
  unfold dates
  rw [List.flatMap_append]

theorem onItsWay_step {es : List Event} {s s' : Backend} {e : Event}
    (h : ∀ date ∈ (dates es).getLast?, OnItsWay group start date s)
    (hs : Sending group start clock latest s) (hstep : backend.step s e = some s')
    (hsends : Sends group clock latest s e s')
    : ∀ date ∈ (dates (es ++ [e])).getLast?, OnItsWay group start date s' := by
  have hsendsTo := hsends.sendsTo
  rw [dates_append]
  intro date hdate
  cases e with
  | createAccount uid => contradiction
  | signup uid firstName lastName email url date now => contradiction
  | createGroup uid uuid usersId groupName url selectedUsers date now => contradiction
  | load path now =>
    have hnone : dates [.load path now] = [] := by rfl
    rw [hnone, List.append_nil] at hdate
    exact (h date hdate).load hstep
  | addMessage message currentUser otherUser stamp stamp' documentID =>
    have hboth : dates [.addMessage message currentUser otherUser stamp stamp' documentID]
        = [stamp] ++ [stamp'] := by rfl
    rw [hboth, ← List.append_assoc, List.getLast?_concat, Option.mem_some_iff] at hdate
    rw [← hdate]
    exact onItsWay_addMessage hstep hsends
  | perform i now =>
    have hnone : dates [.perform i now] = [] := by rfl
    rw [hnone, List.append_nil] at hdate
    rcases step_perform hstep with hwrite | hrequest | hreply
    . rcases hwrite with ⟨write, issued, awaiting, hoperation, hs'⟩
      rw [hs']
      exact (h date hdate).performWrite hs hoperation
    . rcases hrequest with ⟨read, reply, hoperation, hfetch, hs'⟩
      rw [hs']
      exact (h date hdate).receive hoperation hfetch
    . rcases hreply with ⟨reply, issued, hoperation, hanswer, hs'⟩
      rw [hs']
      exact (h date hdate).issue hs hoperation hanswer

theorem exec_sending {es : List Event} {s t : Backend} (hs : Sending group start clock latest s)
    (hkept : Kept group start s) (hrun : backend.exec s es = some t)
    (hsends : backend.Meets (Sends group clock latest) s es)
    (h : backend.Meets (fun s _ s' => NeverDecreases group s s') s es)
    : Sending group start clock latest t ∧ Kept group start t
        ∧ ∀ date ∈ (dates es).getLast?, OnItsWay group start date t := by
  have hpreserves : ∀ es (s : Backend) e s',
      (Sending group start clock latest s ∧ Kept group start s
        ∧ ∀ date ∈ (dates es).getLast?, OnItsWay group start date s) →
      backend.step s e = some s' → Sends group clock latest s e s' ∧ NeverDecreases group s s' →
      Sending group start clock latest s' ∧ Kept group start s'
        ∧ ∀ date ∈ (dates (es ++ [e])).getLast?, OnItsWay group start date s' := by
    intro es s e s' ⟨hs, hkept, honItsWay⟩ hstep ⟨hsends, hnever⟩
    exact ⟨hs.step hstep hsends, hkept.step hs.recorded hstep hnever,
      onItsWay_step honItsWay hs hstep hsends⟩
  refine Machine.exec_preserves_history_of_meets hpreserves ⟨hs, hkept, ?_⟩ hrun (hsends.and h)
  intro date hdate
  contradiction

theorem Sending.timestampAt_eq {s : Backend} (hs : Sending group start clock latest s)
    (hkept : Kept group start s) (honItsWay : OnItsWay group start latest s)
    (hquiescent : s.Quiescent) {uid : DocumentID} (huid : uid ∈ group.members)
    : s.timestampAt (DatabaseManager.recentUserPath uid group.uid) = latest := by
  have hpath : DatabaseManager.recentUserPath uid group.uid ∈ group.activity := by
    rw [mem_activity]
    exact ⟨uid, huid, Or.inl rfl⟩
  apply le_antisymm
  . rw [hs.recorded]
    exact hs.stored _ hpath
  . cases honItsWay with
    | inl hbrings => exact absurd hbrings (not_awaits_of_quiescent hquiescent _)
    | inr hwrites =>
      rcases hwrites uid huid with ⟨write, hwrite, hwritePath, hdate⟩
      rw [pending_eq_nil_of_quiescent hquiescent] at hwrite
      cases hwrite with
      | inl hpending => contradiction
      | inr hlog =>
        rw [hs.recorded]
        exact hdate.trans ((hkept _ hpath).le_content hlog hwritePath)

theorem sending_of_quiescent {setup : List Event} {s : Backend}
    (hsetup : backend.exec init setup = some s) (hadmissible : backend.Meets Admissible init setup)
    (hquiescent : s.Quiescent) (hgroup : group ∈ s.groups)
    (hclock : ∀ path ∈ group.activity, s.timestampAt path ≤ clock) (hle : clock ≤ latest)
    : Sending group s.log.length clock latest s := by
  rcases exec_membershipInv hsetup hadmissible with ⟨hmembership, hcomplete⟩
  have hrecorded := exec_recorded hsetup
  constructor
  case membership => exact hmembership
  case created => exact hgroup
  case members =>
    intro uid huid
    exact hcomplete.recent hquiescent hgroup huid
  case recorded => exact hrecorded
  case wellFormed => exact .start rfl
  case before =>
    intro path hpath
    rw [List.take_length, ← hrecorded]
    exact hclock path hpath
  case stored =>
    intro path hpath
    rw [← hrecorded]
    exact (hclock path hpath).trans (WithBot.coe_le_coe.mpr hle)
  case timely =>
    intro write hwrite
    rw [pending_eq_nil_of_quiescent hquiescent] at hwrite
    contradiction
  case awaiting =>
    intro operation hoperation awaiting hawaiting
    rw [(hquiescent operation hoperation).right] at hawaiting
    contradiction

theorem exists_latest {es : List Event} (h : (clock :: dates es).Pairwise (· ≤ ·))
    : ∃ latest, clock ≤ latest ∧ (∀ date ∈ dates es, clock ≤ date ∧ date ≤ latest)
        ∧ ∀ date ∈ (dates es).getLast?, latest = date := by
  have hclock := (List.pairwise_cons.mp h).left
  refine ⟨(clock :: dates es).getLast (List.cons_ne_nil _ _), ?_, ?_, ?_⟩
  . exact h.rel_getLast List.mem_cons_self
  . intro date hdate
    exact ⟨hclock date hdate, h.rel_getLast (List.mem_cons_of_mem _ hdate)⟩
  . intro date hdate
    have hsome : (clock :: dates es).getLast? = some date := by
      rw [List.getLast?_cons, hdate]
      rfl
    rw [List.getLast?_eq_some_getLast (List.cons_ne_nil _ _)] at hsome
    injection hsome

theorem activity_iff_notOvertaken (setup : List Event) (s : Backend)
    (hsetup : backend.exec init setup = some s) (hquiescent : s.Quiescent) (group : Group)
    (hgroup : group ∈ s.groups) (es : List Event)
    (hadmissible : backend.Meets Admissible init (setup ++ es))
    (hsends : backend.Meets (fun s e _ => SendsTo group s e) s es) (clock : Date)
    (hclock : ∀ path ∈ group.activity, s.timestampAt path ≤ clock)
    (hdates : (clock :: dates es).Pairwise (· ≤ ·))
    : (backend.Meets (fun s _ s' => NeverDecreases group s s') s es
          ∧ ∀ t, backend.exec s es = some t → t.Quiescent → ∀ date ∈ (dates es).getLast?,
            ∀ uid ∈ group.members,
              t.timestampAt (DatabaseManager.recentUserPath uid group.uid) = date)
        ↔
      backend.Meets (fun s' e _ => NotOvertaken s.log.length group s' e) s es := by
  rcases exists_latest hdates with ⟨latest, hle, hbetween, hlast⟩
  have hstart := sending_of_quiescent hsetup hadmissible.append_left hquiescent hgroup hclock hle
  have hkept : Kept group s.log.length s := by
    intro path _
    exact WriteLog.nonDecreasing_of_length_le (Nat.le_refl _)
  have htimes : ∀ e ∈ es, ∀ date ∈ dates [e], clock ≤ date ∧ date ≤ latest := by
    intro e he date hdate
    apply hbetween
    unfold dates at hdate ⊢
    rw [List.flatMap_singleton] at hdate
    exact List.mem_flatMap.mpr ⟨e, he, hdate⟩
  have hassumed : backend.Meets (Sends group clock latest) s es := by
    have hall := ((hadmissible.append_right hsetup).and hsends).and
      (Machine.meets_of_forall_mem s htimes)
    apply hall.imp
    intro s e s' h
    exact ⟨h.left.left, h.left.right, h.right⟩
  have hiff : backend.Meets (fun s _ s' => NeverDecreases group s s') s es
      ↔ backend.Meets (fun s' e _ => NotOvertaken s.log.length group s' e) s es := by
    have hpreserves : ∀ (s' : Backend) e t,
        Sending group s.log.length clock latest s' ∧ Kept group s.log.length s' →
        backend.step s' e = some t → Sends group clock latest s' e t → NeverDecreases group s' t →
        Sending group s.log.length clock latest t ∧ Kept group s.log.length t := by
      intro s' e t hs' hstep hsends hnever
      exact ⟨hs'.left.step hstep hsends, hs'.right.step hs'.left.recorded hstep hnever⟩
    apply Machine.meets_congr_of_meets hpreserves _ ⟨hstart, hkept⟩ hassumed
    intro s' e t hs' hstep _
    exact hs'.left.neverDecreases_iff hs'.right hstep
  constructor
  . intro h
    exact hiff.mp h.left
  . intro h
    have hnever := hiff.mpr h
    refine ⟨hnever, ?_⟩
    intro t hrun hquiescent' date hdate uid huid
    rcases exec_sending hstart hkept hrun hassumed hnever with ⟨hsending, hkept', honItsWay⟩
    rw [hlast date hdate] at hsending
    exact hsending.timestampAt_eq hkept' (honItsWay date hdate) hquiescent' huid

-- The group of `groupRun` is opened by its other member, too.
def groupSetup : List Event :=
  groupRun ++ [.load (DatabaseManager.userPath "b") 6, .load (DatabaseManager.userPath "Uab") 6]

-- Both members send at the same time, all requests of one client arrive before those of the other.
def overlappingSends (first second : Nat) : List Event :=
  [
    .addMessage ⟨"Uab", "a", "Uab", "hello", 10, none, true⟩ 0 2 10 10 "m1",
    .addMessage ⟨"Uab", "b", "Uab", "hi", 11, none, true⟩ 3 4 11 11 "m2"
  ] ++ List.replicate 9 (.perform first 12) ++ List.replicate 9 (.perform second 12)

theorem activity_overlappingSends
    : ∃ s t, backend.exec init groupSetup = some s
        ∧ backend.exec s (overlappingSends 4 5) = some t
        ∧ backend.Meets (fun s _ s' => NeverDecreases ⟨"Uab", "a", ["b"]⟩ s s') s
          (overlappingSends 4 5)
        ∧ t.timestampAt (DatabaseManager.recentUserPath "a" "Uab") = (11 : Date) := by
  have hresult := (activity_iff_notOvertaken groupSetup _ rfl (by decide) ⟨"Uab", "a", ["b"]⟩
    (by decide) (overlappingSends 4 5) (by decide) (by decide) 6 (by decide) (by decide)).mpr
    (by decide)
  exact ⟨_, _, rfl, rfl, hresult.left, hresult.right _ rfl (by decide) 11 rfl "a" (by decide)⟩

-- The requests of the send that was started last arrive first.
theorem not_activity
    : ¬∀ (setup : List Event) (s : Backend), backend.exec init setup = some s → s.Quiescent →
        ∀ group ∈ s.groups, ∀ es : List Event, backend.Meets Admissible init (setup ++ es) →
          backend.Meets (fun s e _ => SendsTo group s e) s es →
            ∀ clock : Date, (∀ path ∈ group.activity, s.timestampAt path ≤ clock) →
              (clock :: dates es).Pairwise (· ≤ ·) →
                backend.Meets (fun s _ s' => NeverDecreases group s s') s es
                  ∧ ∀ t, backend.exec s es = some t → t.Quiescent → ∀ date ∈ (dates es).getLast?,
                    ∀ uid ∈ group.members,
                      t.timestampAt (DatabaseManager.recentUserPath uid group.uid) = date := by
  intro h
  have hrun := h groupSetup _ rfl (by decide) ⟨"Uab", "a", ["b"]⟩ (by decide)
    (overlappingSends 5 4) (by decide) (by decide) 6 (by decide) (by decide)
  exact absurd hrun.left (by decide)

end Backend

end ChatApplication
