import Mathlib.Order.WithBot
import ChatApplication.API.Membership
import ChatApplication.Data.WriteLog

/-!
This module contains the timestamps by which conversations with a group are ordered, as the log of
the writes that reached Firestore has them.
-/

namespace ChatApplication

-- the instances that compute, there are others
instance : Preorder (WithBot Timestamp) :=
  @WithBot.instPreorder Int Int.instLinearOrder.toPreorder

instance : DecidableLE (WithBot Timestamp) :=
  @WithBot.decidableLE Int Int.instLEInt Int.decLe

-- `⊥` is a document without a timestamp
def Dictionary.stamp (dictionary : Dictionary) : WithBot Timestamp :=
  dictionary.timestamp? "timestamp"

@[simp]
theorem User.stamp_dictionary (user : User) : user.dictionary.stamp = user.timestamp := by
  rfl

-- What is read back from the subcollection of a group is known to be a copy.
def Write.entry (write : Write) : LogEntry Path (WithBot Timestamp) :=
  {
    key := write.path
    value := write.data.stamp
    readAt :=
      match write.origin with
      | .fresh => none
      | .copy seen => some seen
  }

-- the documents that are moved up in lists of conversations by a message to the group
def Group.activity (group : Group) : List Path :=
  group.members.flatMap (fun uid => [
    DatabaseManager.recentUserPath uid group.uid,
    DatabaseManager.recentUserPath group.uid uid
  ])

namespace Backend

def timestampAt (s : Backend) (path : Path) : WithBot Timestamp :=
  match s.db.getDocument path with
  | some data => data.stamp
  | none => ⊥

def log (s : Backend) : List (LogEntry Path (WithBot Timestamp)) :=
  s.history.map Write.entry

def NeverDecreases (group : Group) (s s' : Backend) : Prop :=
  ∀ path ∈ group.activity, s.timestampAt path ≤ s'.timestampAt path

-- `start` writes had been performed before the sends.
def NotOvertaken (start : Nat) (group : Group) (s : Backend) : Event → Prop
  | .perform i _ => ∀ operation ∈ s.operations[i]?, ∀ write ∈ operation.issued.head?,
      write.path ∈ group.activity → WriteLog.NotOvertaken start s.log write.entry
  | _ => True

def SendsTo (group : Group) (s : Backend) : Event → Prop
  | .addMessage _ _ otherUser _ _ _ => s.identity otherUser = some (group.uid, true)
  | .load _ _ | .perform _ _ => True
  | _ => False

-- what `Date()` returned in the sends, one after another
def dates (es : List Event) : List Date :=
  es.flatMap (fun
    | .addMessage _ _ _ date date' _ => [date, date']
    | _ => [])

instance (group : Group) (s s' : Backend) : Decidable (NeverDecreases group s s') :=
  inferInstanceAs (Decidable (∀ path ∈ group.activity, s.timestampAt path ≤ s'.timestampAt path))

instance (start : Nat) (group : Group) (s : Backend) (e : Event)
    : Decidable (NotOvertaken start group s e) := by
  unfold NotOvertaken
  split
  . infer_instance
  . infer_instance

instance (group : Group) (s : Backend) : (e : Event) → Decidable (SendsTo group s e)
  | .addMessage _ _ otherUser _ _ _ =>
    inferInstanceAs (Decidable (s.identity otherUser = some (group.uid, true)))
  | .load _ _ | .perform _ _ => inferInstanceAs (Decidable True)
  | .createAccount _ | .signup _ _ _ _ _ _ _ | .createGroup _ _ _ _ _ _ _ _ =>
    inferInstanceAs (Decidable False)

theorem notOvertaken_perform {s : Backend} {i : Nat} {awaiting : Option Awaiting}
    (h : s.operations[i]? = some ⟨[], awaiting⟩) (now : Date) {start : Nat} {group : Group}
    : NotOvertaken start group s (.perform i now) := by
  intro operation hmem write hwrite
  rw [h, Option.mem_some_iff] at hmem
  rw [← hmem] at hwrite
  contradiction

theorem step_write {s s' : Backend} {e : Event} (h : backend.step s e = some s')
    : (∃ i now write issued awaiting, e = .perform i now
          ∧ s.operations[i]? = some ⟨write :: issued, awaiting⟩
          ∧ s' = s.performWrite i write issued awaiting)
        ∨
      (s'.db = s.db ∧ s'.history = s.history ∧ ∀ start group, NotOvertaken start group s e) := by
  cases e with
  | createAccount uid =>
    rw [step_createAccount h]
    exact Or.inr ⟨rfl, rfl, fun _ _ => trivial⟩
  | signup uid firstName lastName email url date now =>
    rcases step_signup h with ⟨_, user, _, _, hs'⟩
    rw [hs']
    exact Or.inr ⟨rfl, rfl, fun _ _ => trivial⟩
  | load path now =>
    rcases step_load h with ⟨_, data, user, _, _, hs'⟩
    rw [hs']
    exact Or.inr ⟨rfl, rfl, fun _ _ => trivial⟩
  | createGroup uid uuid usersId groupName url selectedUsers date now =>
    rcases step_createGroup h with ⟨_, _, group, _, _, hs'⟩
    rw [hs']
    exact Or.inr ⟨rfl, rfl, fun _ _ => trivial⟩
  | addMessage message currentUser otherUser date date' documentID =>
    rcases step_addMessage h with ⟨objects, user, user', _, _, _, hs'⟩
    rw [hs']
    exact Or.inr ⟨rfl, rfl, fun _ _ => trivial⟩
  | perform i now =>
    rcases step_perform h with hwrite | hrequest | hreply
    . rcases hwrite with ⟨write, issued, awaiting, hoperation, hs'⟩
      exact Or.inl ⟨i, now, write, issued, awaiting, rfl, hoperation, hs'⟩
    . rcases hrequest with ⟨read, reply, hoperation, _, hs'⟩
      rw [hs']
      exact Or.inr ⟨rfl, rfl, fun _ _ => notOvertaken_perform hoperation now⟩
    . rcases hreply with ⟨reply, issued, hoperation, _, hs'⟩
      rw [hs']
      exact Or.inr ⟨rfl, rfl, fun _ _ => notOvertaken_perform hoperation now⟩

theorem log_performWrite (s : Backend) (i : Nat) (write : Write) (issued : List Write)
    (awaiting : Option Awaiting)
    : (s.performWrite i write issued awaiting).log = s.log ++ [write.entry] := by
  unfold log performWrite
  rw [List.map_append]
  rfl

theorem timestampAt_performWrite (s : Backend) (i : Nat) (write : Write) (issued : List Write)
    (awaiting : Option Awaiting) (path : Path)
    : (s.performWrite i write issued awaiting).timestampAt path
        =
      if write.entry.key = path then write.entry.value else s.timestampAt path := by
  unfold timestampAt performWrite Write.entry
  dsimp
  rw [Firestore.getDocument_setData]
  by_cases hpath : path = write.path
  . rw [if_pos hpath, if_pos hpath.symm]
  . rw [if_neg hpath, if_neg (Ne.symm hpath)]

def Recorded (s : Backend) : Prop :=
  ∀ path, s.timestampAt path = WriteLog.content path s.log

theorem Recorded.of_eq {s s' : Backend} (hs : s.Recorded) (hdb : s'.db = s.db)
    (hhistory : s'.history = s.history) : s'.Recorded := by
  unfold Recorded timestampAt log
  rw [hdb, hhistory]
  exact hs

theorem Recorded.performWrite {s : Backend} (hs : s.Recorded) (i : Nat) (write : Write)
    (issued : List Write) (awaiting : Option Awaiting)
    : (s.performWrite i write issued awaiting).Recorded := by
  intro path
  rw [timestampAt_performWrite, log_performWrite, WriteLog.content_append, hs path]

theorem recorded_step {s s' : Backend} {e : Event} (hs : s.Recorded)
    (hstep : backend.step s e = some s') : s'.Recorded := by
  rcases step_write hstep with ⟨i, _, write, issued, awaiting, _, _, hs'⟩ | ⟨hdb, hhistory, _⟩
  . rw [hs']
    exact hs.performWrite i write issued awaiting
  . exact hs.of_eq hdb hhistory

theorem exec_recorded {es : List Event} {s : Backend} (h : backend.exec init es = some s)
    : s.Recorded := by
  have hinit : init.Recorded := by
    intro path
    unfold timestampAt init
    rw [Firestore.getDocument_empty]
    rfl
  apply Machine.exec_preserves _ hinit h
  intro s e s' hs hstep
  exact recorded_step hs hstep

theorem mem_activity {group : Group} {path : Path}
    : path ∈ group.activity
        ↔
      ∃ uid ∈ group.members, path = DatabaseManager.recentUserPath uid group.uid
        ∨ path = DatabaseManager.recentUserPath group.uid uid := by
  simp [Group.activity]

end Backend

end ChatApplication
