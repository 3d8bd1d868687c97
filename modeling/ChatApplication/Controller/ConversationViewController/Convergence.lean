import ChatApplication.Controller.ConversationViewController
import ChatApplication.Data.Positions

/-!
This module contains which snapshot the conversation screen shows when all replies have arrived.
-/

namespace ChatApplication

-- Whoever has been answered carries the message that the answer returned.
structure Generation.Answered (generation : Generation) : Prop where
  nodup : generation.outstanding.Nodup
  returned : ∀ j message, (j, message) ∈ generation.returned → j ∉ generation.outstanding
    ∧ ∃ user, generation.users[j]? = some user ∧ user.recentMessage = message
  complete : ∀ j < generation.users.length, j ∉ generation.outstanding →
    ∃ message, (j, message) ∈ generation.returned

namespace Generation

theorem answered_ofUsers (requestedBy : Option DocumentID) (users : List User)
    : (ofUsers requestedBy users).Answered := by
  constructor
  . exact List.nodup_range
  . intro j message h
    contradiction
  . intro j hj houtstanding
    rw [ofUsers, List.length_map] at hj
    rw [ofUsers, List.mem_range] at houtstanding
    contradiction

theorem Answered.reply {generation : Generation} (h : generation.Answered) {j : Nat}
    (houtstanding : j ∈ generation.outstanding) {user : RecentUser}
    (huser : generation.users[j]? = some user) (message : Option Message)
    : (generation.reply j message).Answered := by
  constructor
  . exact h.nodup.erase j
  . intro i message' hi
    unfold Generation.reply at hi ⊢
    dsimp at hi ⊢
    rw [List.mem_append, List.mem_singleton] at hi
    cases hi with
    | inl hold =>
      rcases h.returned i message' hold with ⟨hanswered, user', huser', hmessage⟩
      refine ⟨fun herased => hanswered (List.mem_of_mem_erase herased), user', ?_, hmessage⟩
      have hne : j ≠ i := by
        intro heq
        rw [heq] at houtstanding
        contradiction
      simp [hne, huser']
    | inr hnew =>
      injection hnew with hi hmessage
      rw [hi, hmessage]
      refine ⟨h.nodup.not_mem_erase, { user with recentMessage := message }, ?_, rfl⟩
      simp [huser]
  . intro i hi hanswered
    unfold Generation.reply at hi hanswered ⊢
    dsimp at hi hanswered ⊢
    rw [List.length_modify] at hi
    by_cases hij : i = j
    . refine ⟨message, ?_⟩
      rw [hij]
      apply List.mem_append_right
      rw [List.mem_singleton]
    . rw [List.mem_erase_of_ne hij] at hanswered
      rcases h.complete i hi hanswered with ⟨message', hmessage'⟩
      exact ⟨message', List.mem_append_left _ hmessage'⟩

theorem map_user_ofUsers (requestedBy : Option DocumentID) (users : List User)
    : (ofUsers requestedBy users).users.map RecentUser.user = users := by
  unfold ofUsers
  dsimp
  rw [List.map_map]
  exact List.map_id users

theorem map_user_reply (generation : Generation) (j : Nat) (message : Option Message)
    : (generation.reply j message).users.map RecentUser.user
        =
      generation.users.map RecentUser.user := by
  apply List.map_modify_of_eq
  intro user
  rfl

theorem refs_eq (generation : Generation) (owner : DocumentID) (k : Nat)
    : generation.refs owner k
        =
      (List.range (generation.users.map RecentUser.user).length).map (UserRef.mk owner k) := by
  rw [List.length_map]
  rfl

end Generation

namespace ConversationViewController

def Succeeds : Event → Prop
  | .fail _ _ _ => False
  | _ => True

instance : (e : Event) → Decidable (Succeeds e)
  | .viewDidAppear | .viewDidDisappear | .logout _ | .presentLoginScreen | .login _
  | .snapshot _ _ _ _ | .reply _ _ _ _ _ => inferInstanceAs (Decidable True)
  | .fail _ _ _ => inferInstanceAs (Decidable False)

def usersOf (uid : DocumentID) : Event → Option (List User)
  | .snapshot _ owner documents now =>
    if owner = uid then DatabaseManager.decodeUsers now documents else none
  | _ => none

def snapshotUsers (uid : DocumentID) (es : List Event) : List (List User) :=
  es.filterMap (usersOf uid)

def lastUsers (uid : DocumentID) (es : List Event) : List User :=
  ((snapshotUsers uid es).getLast?).getD []

def repliedAfter (replied : Option (DocumentID × Nat)) : Event → Option (DocumentID × Nat)
  | .reply uid k _ _ _ => some (uid, k)
  | _ => replied

-- the account and the snapshot that the last reply belongs to
def lastReplied (es : List Event) : Option (DocumentID × Nat) :=
  es.foldl repliedAfter none

-- the users of the snapshot that the last reply belongs to
def repliedUsers (es : List Event) : List User :=
  match lastReplied es with
  | some (owner, k) => ((snapshotUsers owner es)[k]?).getD []
  | none => []

def Quiet (s : ConversationViewController) : Prop :=
  ∀ uid, ∀ generation ∈ s.generations uid, generation.outstanding = []

structure Converged (s : ConversationViewController) (users : List User) : Prop where
  shown : s.shown.map RecentUser.user = users
  returned : ∀ ref ∈ s.recentUsers, ∃ generation user,
    (s.generations ref.owner)[ref.generation]? = some generation
      ∧ generation.users[ref.position]? = some user
      ∧ ∀ message, (ref.position, message) ∈ generation.returned ↔ user.recentMessage = message

structure History (es : List Event) (s : ConversationViewController) : Prop where
  generations : ∀ uid, (s.generations uid).map (fun generation =>
    generation.users.map RecentUser.user) = snapshotUsers uid es
  recentUsers : match lastReplied es with
    | some (owner, k) => ∃ users, (snapshotUsers owner es)[k]? = some users
      ∧ s.recentUsers = (List.range users.length).map (UserRef.mk owner k)
    | none => s.recentUsers = []
  answered : ∀ uid, ∀ generation ∈ s.generations uid, generation.Answered

theorem history_launch (auth : Option DocumentID) : History [] (launch auth) := by
  constructor
  . intro uid
    rfl
  . rfl
  . intro uid generation hgeneration
    contradiction

theorem snapshotUsers_append (uid : DocumentID) (es : List Event) (e : Event)
    : snapshotUsers uid (es ++ [e]) = snapshotUsers uid es ++ (usersOf uid e).toList := by
  unfold snapshotUsers
  rw [List.filterMap_append]
  cases he : usersOf uid e with
  | none => simp [he]
  | some users => simp [he]

theorem lastReplied_append (es : List Event) (e : Event)
    : lastReplied (es ++ [e]) = repliedAfter (lastReplied es) e := by
  unfold lastReplied
  rw [List.foldl_append]
  rfl

-- An event that is neither a snapshot nor a reply.
theorem History.of_eq {es : List Event} {s s' : ConversationViewController} (h : History es s)
    {e : Event} (husers : ∀ uid, usersOf uid e = none) (hreplied : ∀ r, repliedAfter r e = r)
    (hgenerations : s'.generations = s.generations) (hrecentUsers : s'.recentUsers = s.recentUsers)
    : History (es ++ [e]) s' := by
  have hsnapshotUsers : ∀ uid, snapshotUsers uid (es ++ [e]) = snapshotUsers uid es := by
    intro uid
    rw [snapshotUsers_append, husers, Option.toList_none, List.append_nil]
  constructor
  . intro uid
    rw [hgenerations, hsnapshotUsers]
    exact h.generations uid
  . rw [lastReplied_append, hreplied, hrecentUsers]
    simp only [hsnapshotUsers]
    exact h.recentUsers
  . rw [hgenerations]
    exact h.answered

theorem History.snapshot {es : List Event} {s : ConversationViewController} (h : History es s)
    {listener : Nat} {owner : DocumentID} {documents : List DocumentSnapshot} {now : Date}
    {users : List User} (husers : DatabaseManager.decodeUsers now documents = some users)
    : History (es ++ [.snapshot listener owner documents now])
        (s.addGeneration owner (Generation.ofUsers s.auth users)) := by
  have hsnapshotUsers : ∀ uid, snapshotUsers uid (es ++ [.snapshot listener owner documents now])
      = snapshotUsers uid es ++ (if owner = uid then [users] else []) := by
    intro uid
    rw [snapshotUsers_append]
    by_cases huid : owner = uid
    . simp [usersOf, huid, husers]
    . simp [usersOf, huid]
  constructor
  . intro uid
    rw [hsnapshotUsers, ← h.generations]
    unfold addGeneration
    dsimp
    by_cases huid : owner = uid
    . rw [if_pos huid, huid, Function.update_self, List.map_append, List.map_singleton,
        Generation.map_user_ofUsers]
    . rw [if_neg huid, Function.update_of_ne (Ne.symm huid), List.append_nil]
  . have hrecentUsers := h.recentUsers
    rw [lastReplied_append]
    unfold repliedAfter
    dsimp
    split at hrecentUsers
    . rcases hrecentUsers with ⟨replied, hget, hrefs⟩
      refine ⟨replied, ?_, hrefs⟩
      rw [hsnapshotUsers, List.getElem?_append_left (List.getElem?_eq_some_iff.mp hget).choose]
      exact hget
    . exact hrecentUsers
  . intro uid generation hgeneration
    unfold addGeneration at hgeneration
    dsimp at hgeneration
    by_cases huid : owner = uid
    . rw [huid, Function.update_self, List.mem_append, List.mem_singleton] at hgeneration
      cases hgeneration with
      | inl hold => exact h.answered uid generation hold
      | inr hnew =>
        rw [hnew]
        apply Generation.answered_ofUsers
    . rw [Function.update_of_ne (Ne.symm huid)] at hgeneration
      exact h.answered uid generation hgeneration

theorem History.reply {es : List Event} {s : ConversationViewController} (h : History es s)
    {owner : DocumentID} {k j : Nat} {documents : List DocumentSnapshot} {now : Date}
    {generation : Generation} {user : RecentUser}
    (hgeneration : (s.generations owner)[k]? = some generation)
    (huser : generation.users[j]? = some user) (houtstanding : j ∈ generation.outstanding)
    (message : Option Message)
    : History (es ++ [.reply owner k j documents now])
        ((s.setGeneration owner k (generation.reply j message)).publish owner
          (generation.refs owner k)) := by
  have hsnapshotUsers : ∀ uid, snapshotUsers uid (es ++ [.reply owner k j documents now])
      = snapshotUsers uid es := by
    intro uid
    rw [snapshotUsers_append]
    simp [usersOf]
  constructor
  . intro uid
    rw [hsnapshotUsers, ← h.generations]
    unfold publish setGeneration
    dsimp
    by_cases huid : uid = owner
    . rw [huid, Function.update_self]
      apply List.map_set_of_eq hgeneration
      apply Generation.map_user_reply
    . rw [Function.update_of_ne huid]
  . rw [lastReplied_append]
    dsimp [repliedAfter]
    refine ⟨generation.users.map RecentUser.user, ?_, Generation.refs_eq generation owner k⟩
    rw [hsnapshotUsers, ← h.generations, List.getElem?_map, hgeneration]
    rfl
  . intro uid generation' hgeneration'
    unfold publish setGeneration at hgeneration'
    dsimp at hgeneration'
    by_cases huid : uid = owner
    . rw [huid, Function.update_self] at hgeneration'
      cases List.mem_or_eq_of_mem_set hgeneration' with
      | inl hold => exact h.answered owner generation' hold
      | inr hnew =>
        rw [hnew]
        have hanswered := h.answered owner generation (List.mem_of_getElem? hgeneration)
        exact hanswered.reply houtstanding huser message
    . rw [Function.update_of_ne huid] at hgeneration'
      exact h.answered uid generation' hgeneration'

theorem history_step {es : List Event} {s s' : ConversationViewController} (h : History es s)
    {e : Event} (hsucceeds : Succeeds e) (hstep : conversations.step s e = some s')
    : History (es ++ [e]) s' := by
  cases e with
  | viewDidAppear =>
    rw [(step_viewDidAppear hstep).right, getRecentConversations_eq]
    exact h.of_eq (fun _ => rfl) (fun _ => rfl) rfl rfl
  | viewDidDisappear =>
    rw [(step_viewDidDisappear hstep).right, removeListener_eq]
    exact h.of_eq (fun _ => rfl) (fun _ => rfl) rfl rfl
  | logout throws =>
    rw [(step_logout hstep).right]
    exact h.of_eq (fun _ => rfl) (fun _ => rfl) rfl rfl
  | presentLoginScreen =>
    rw [(step_presentLoginScreen hstep).right, removeListener_eq]
    exact h.of_eq (fun _ => rfl) (fun _ => rfl) rfl rfl
  | login uid =>
    rw [(step_login hstep).right]
    exact h.of_eq (fun _ => rfl) (fun _ => rfl) rfl rfl
  | snapshot listener owner documents now =>
    rcases step_snapshot hstep with ⟨_, users, husers, hs'⟩
    rw [hs']
    exact h.snapshot husers
  | reply owner k j documents now =>
    rcases step_reply hstep
      with ⟨generation, user, message, hgeneration, huser, houtstanding, _, hs'⟩
    rw [hs']
    exact h.reply hgeneration huser houtstanding message
  | fail uid k j => contradiction

theorem exec_history {auth : Option DocumentID} {es : List Event} {s : ConversationViewController}
    (hsucceeds : ∀ e ∈ es, Succeeds e) (h : conversations.exec (launch auth) es = some s)
    : History es s := by
  have hinv : ∀ es (s : ConversationViewController) e s',
      ((∀ d ∈ es, Succeeds d) → History es s) → conversations.step s e = some s' →
        (∀ d ∈ es ++ [e], Succeeds d) → History (es ++ [e]) s' := by
    intro es s e s' hs hstep hsucceeds
    have hsplit := List.forall_mem_append.mp hsucceeds
    exact history_step (hs hsplit.left) (hsplit.right e (List.mem_singleton.mpr rfl)) hstep
  have hstart : (∀ e ∈ ([] : List Event), Succeeds e) → History [] (launch auth) := by
    intro _
    exact history_launch auth
  have hhistory := Machine.exec_preserves_history hinv hstart h
  exact hhistory hsucceeds

theorem History.map_user_shown {es : List Event} {s : ConversationViewController} (h : History es s)
    : s.shown.map RecentUser.user = repliedUsers es := by
  have hrecentUsers := h.recentUsers
  unfold repliedUsers
  split at hrecentUsers
  . next owner k hreplied =>
    rcases hrecentUsers with ⟨users, hget, hrefs⟩
    have hgenerations := hget
    rw [← h.generations, List.getElem?_map, Option.map_eq_some_iff] at hgenerations
    rcases hgenerations with ⟨generation, hgeneration, husers⟩
    unfold shown
    rw [hrefs, hget, ← husers, List.length_map, List.filterMap_map]
    have hderef := List.filterMap_range_getElem? generation.users id
    rw [List.map_id] at hderef
    conv => rhs; rw [Option.getD_some, ← hderef]
    congr 1
    apply List.filterMap_congr
    intro j _
    simp [hgeneration]
  . rw [shown, hrecentUsers]
    rfl

theorem History.returned {es : List Event} {s : ConversationViewController} (h : History es s)
    (hquiet : s.Quiet) {ref : UserRef} (href : ref ∈ s.recentUsers)
    : ∃ generation user,
        (s.generations ref.owner)[ref.generation]? = some generation
          ∧ generation.users[ref.position]? = some user
          ∧ ∀ message, (ref.position, message) ∈ generation.returned
              ↔ user.recentMessage = message := by
  have hrecentUsers := h.recentUsers
  split at hrecentUsers
  . next owner k hreplied =>
    rcases hrecentUsers with ⟨users, hget, hrefs⟩
    rw [← h.generations, List.getElem?_map, Option.map_eq_some_iff] at hget
    rcases hget with ⟨generation, hgeneration, husers⟩
    rw [hrefs, ← husers, List.length_map, List.mem_map] at href
    rcases href with ⟨j, hj, href⟩
    rw [List.mem_range] at hj
    rw [← href]
    refine ⟨generation, generation.users[j], hgeneration, List.getElem?_eq_getElem hj, ?_⟩
    have hmem := List.mem_of_getElem? hgeneration
    have hanswered := h.answered owner generation hmem
    intro message
    constructor
    . intro hmessage
      rcases (hanswered.returned j message hmessage).right with ⟨user, huser, hcarries⟩
      rw [List.getElem?_eq_getElem hj] at huser
      injection huser with huser
      rw [huser, hcarries]
    . intro hmessage
      have hdone : j ∉ generation.outstanding := by
        rw [hquiet owner generation hmem]
        apply List.not_mem_nil
      rcases hanswered.complete j hj hdone with ⟨message', hmessage'⟩
      rcases (hanswered.returned j message' hmessage').right with ⟨user, huser, hcarries⟩
      rw [List.getElem?_eq_getElem hj] at huser
      injection huser with huser
      rw [← hmessage, huser, hcarries]
      exact hmessage'
  . rw [hrecentUsers] at href
    contradiction

def bob : User :=
  ⟨"b", "Bob", "B", "bob@mail.org", "pb", 1, false⟩

def cyd : User :=
  ⟨"c", "Cyd", "C", "cyd@mail.org", "pc", 2, false⟩

-- The last event is the reply for the first snapshot, or `first` puts it before those for the second.
def racingRun (first : Bool) : List Event :=
  let late : List Event := [.reply "a" 0 0 [] 5]
  [.viewDidAppear, .snapshot 0 "a" [⟨"b", bob.dictionary⟩] 1,
    .snapshot 0 "a" [⟨"c", cyd.dictionary⟩, ⟨"b", bob.dictionary⟩] 2]
    ++ (if first then late else [])
    ++ [.reply "a" 1 0 [] 3, .reply "a" 1 1 [] 4]
    ++ (if first then [] else late)

theorem quiet_racingRun (first : Bool) {s : ConversationViewController}
    (h : conversations.exec (launch (some "a")) (racingRun first) = some s)
    (houtstanding : ∀ generation ∈ s.generations "a", generation.outstanding = []) : s.Quiet := by
  have hsucceeds : ∀ e ∈ racingRun first, Succeeds e := by
    cases first
    . decide
    . decide
  have hhistory := exec_history hsucceeds h
  intro uid generation hgeneration
  by_cases huid : "a" = uid
  . rw [← huid] at hgeneration
    exact houtstanding generation hgeneration
  . have hnone : snapshotUsers uid (racingRun first) = [] := by
      cases first
      . simp [racingRun, snapshotUsers, usersOf, huid]
      . simp [racingRun, snapshotUsers, usersOf, huid]
    have hgenerations := hhistory.generations uid
    rw [hnone, List.map_eq_nil_iff] at hgenerations
    rw [hgenerations] at hgeneration
    contradiction

-- one user stays signed in and on the screen
def Delivers (uid : DocumentID) : Event → Prop
  | .snapshot _ owner _ _ => owner = uid
  | .reply owner _ _ _ _ => owner = uid
  | _ => False

instance (uid : DocumentID) : (e : Event) → Decidable (Delivers uid e)
  | .viewDidAppear | .viewDidDisappear | .logout _ | .presentLoginScreen | .login _
  | .fail _ _ _ => inferInstanceAs (Decidable False)
  | .snapshot _ owner _ _ | .reply owner _ _ _ _ => inferInstanceAs (Decidable (owner = uid))

end ConversationViewController

end ChatApplication
