import ChatApplication.API.AddMessage
import ChatApplication.Controller.Credentials

/-!
This module contains the requests that follow a valid signup: the account is created, the picture is
uploaded, its URL is obtained and only then the profile is written. The question is which accounts
are left without a profile.
-/

namespace ChatApplication

-- the request of a signup that is not answered yet
inductive Registration.Stage where
  | creatingAccount
  | uploadingImage
  | obtainingURL
  deriving DecidableEq, Repr

structure Registration where
  -- the device on which `signup` has been called
  device : Nat
  email : String
  password : String
  firstName : String
  lastName : String
  stage : Registration.Stage
  deriving DecidableEq, Repr

structure Registrations where
  auth : FirebaseAuth
  db : Firestore
  -- `Auth.auth().currentUser` of each device
  currentUser : Nat → Option DocumentID
  -- the signups in progress
  signups : List Registration

namespace Registrations

inductive Event where
  | signup (device : Nat) (form : RegisterForm)
  -- `encodes` if there is a picture and PNG data of it
  | accountCreated (i : Nat) (uid : DocumentID) (encodes : Bool)
  | imageUploaded (i : Nat)
  | urlObtained (i : Nat) (url : String) (date now : Date)
  -- the request is answered with an error, or not at all
  | failed (i : Nat)
  | login (device : Nat) (email password : String)
  | logout (device : Nat)
  deriving DecidableEq, Repr

def init : Registrations :=
  {
    auth := .empty
    db := ∅
    currentUser := fun _ => none
    signups := []
  }

-- the completion that `signup` passes to `uploadImage`
def addUser (s : Registrations) (signup : Registration) (url : String) (date now : Date)
    : Option Registrations :=
  match s.currentUser signup.device with
  | none => some s
  | some uid =>
    let values := User.values uid signup.firstName signup.lastName signup.email url date false
    match User.init now values with
    | some user => some { s with db := DatabaseManager.perform s.db (DatabaseManager.addUser user) }
    | none => none

def accountCreated (s : Registrations) (i : Nat) (signup : Registration) (uid : DocumentID)
    (encodes : Bool) (auth : FirebaseAuth) : Registrations :=
  {
    s with
    auth := auth
    currentUser := Function.update s.currentUser signup.device (some uid)
    signups :=
      if encodes then
        s.signups.set i { signup with stage := .uploadingImage }
      else
        s.signups.eraseIdx i
  }

def step (s : Registrations) : Event → Option Registrations
  | .signup device form =>
    match RegisterViewController.signup form with
    | .signUserIn email password firstName lastName =>
      let signup := ⟨device, email, password, firstName, lastName, .creatingAccount⟩
      some { s with signups := s.signups ++ [signup] }
    | _ => some s
  | .accountCreated i uid encodes =>
    match s.signups[i]? with
    | some signup =>
      if signup.stage = .creatingAccount then
        (s.auth.SignUserIn signup.email signup.password uid).map
          (s.accountCreated i signup uid encodes)
      else
        none
    | none => none
  | .imageUploaded i =>
    match s.signups[i]? with
    | some signup =>
      if signup.stage = .uploadingImage then
        some { s with signups := s.signups.set i { signup with stage := .obtainingURL } }
      else
        none
    | none => none
  | .urlObtained i url date now =>
    match s.signups[i]? with
    | some signup =>
      if signup.stage = .obtainingURL then
        addUser { s with signups := s.signups.eraseIdx i } signup url date now
      else
        none
    | none => none
  | .failed i =>
    if i < s.signups.length then some { s with signups := s.signups.eraseIdx i } else none
  | .login device email password =>
    match s.auth.logUserIn email password with
    | some uid => some { s with currentUser := Function.update s.currentUser device (some uid) }
    | none => some s
  | .logout device => some { s with currentUser := Function.update s.currentUser device none }

end Registrations

def registrations : Machine Registrations Registrations.Event :=
  ⟨Registrations.step⟩

namespace Registrations

def hasProfile (db : Firestore) (account : Account) : Bool :=
  (DatabaseManager.fetchUser db account.uid).isSome

def HasProfiles (s : Registrations) : Prop :=
  ∀ account ∈ s.auth.accounts, hasProfile s.db account

instance (s : Registrations) : Decidable s.HasProfiles :=
  inferInstanceAs (Decidable (∀ account ∈ _, _))

-- who is signed in on a device and has no profile
def isAwaited (s : Registrations) (device : Nat) : Bool :=
  match s.currentUser device with
  | some uid => (DatabaseManager.fetchUser s.db uid).isNone
  | none => false

-- A signup whose account exists is not given up, and its profile goes to an account without one.
def Completes (s : Registrations) : Event → Prop
  | .accountCreated _ _ encodes => encodes
  | .urlObtained i _ _ _ => ∀ signup ∈ s.signups[i]?, s.isAwaited signup.device
  | .failed i => ∀ signup ∈ s.signups[i]?, signup.stage = .creatingAccount
  | _ => True

instance (s : Registrations) (e : Event) : Decidable (s.Completes e) := by
  unfold Completes
  split
  all_goals infer_instance

-- Only who is signed in is given a profile, and only accounts are signed in.
structure ProfileInv (s : Registrations) : Prop where
  auth : s.auth.Inv
  currentUser : ∀ device, ∀ uid ∈ s.currentUser device,
    uid ∈ s.auth.accounts.map Account.uid
  documents : ∀ uid, (DatabaseManager.fetchUser s.db uid).isSome →
    uid ∈ s.auth.accounts.map Account.uid

theorem profileInv_init : init.ProfileInv := by
  constructor
  case auth => exact FirebaseAuth.inv_empty
  case currentUser => simp [init]
  case documents => simp [init, DatabaseManager.fetchUser]

def withoutProfile (db : Firestore) (accounts : List Account) : Nat :=
  accounts.countP (fun account => !hasProfile db account)

-- the signups that still have to write a profile
def pending (signups : List Registration) : Nat :=
  signups.countP (fun signup => signup.stage ≠ .creatingAccount)

-- the accounts that nobody is going to give a profile, if all goes well from now on
def lost (s : Registrations) : Int :=
  withoutProfile s.db s.auth.accounts - pending s.signups

-- What a step does to the accounts that are lost. It loses none if and only if `C`.
structure Conserves (s : Registrations) (C : Prop) (s' : Registrations) : Prop where
  inv : s'.ProfileInv
  le : s.lost ≤ s'.lost
  iff : C ↔ s'.lost = s.lost

theorem ProfileInv.of_currentUser {s s' : Registrations} (hs : s.ProfileInv)
    (hauth : s'.auth = s.auth) (hdb : s'.db = s.db)
    (hcurrentUser : ∀ device, ∀ uid ∈ s'.currentUser device,
      uid ∈ s.auth.accounts.map Account.uid)
    : s'.ProfileInv := by
  constructor
  case auth =>
    rw [hauth]
    exact hs.auth
  case currentUser =>
    rw [hauth]
    exact hcurrentUser
  case documents =>
    rw [hauth, hdb]
    exact hs.documents

theorem Conserves.of_lost_eq {s s' : Registrations} {C : Prop} (hs' : s'.ProfileInv) (hC : C)
    (hlost : s'.lost = s.lost) : s.Conserves C s' :=
  ⟨hs', hlost.ge, iff_of_true hC hlost⟩

theorem Conserves.of_lost_eq_succ {s s' : Registrations} {C : Prop} (hs' : s'.ProfileInv)
    (hC : ¬C) (hlost : s'.lost = s.lost + 1) : s.Conserves C s' := by
  refine ⟨hs', ?_, iff_of_false hC ?_⟩
  . omega
  . omega

theorem pending_eraseIdx {signups : List Registration} {i : Nat} {signup : Registration}
    (h : signups[i]? = some signup)
    : pending (signups.eraseIdx i) + (if signup.stage = .creatingAccount then 0 else 1)
        =
      pending signups := by
  unfold pending
  rw [← List.countP_eraseIdx_add _ h]
  by_cases hstage : signup.stage = .creatingAccount
  . simp [hstage]
  . simp [hstage]

theorem pending_set {signups : List Registration} {i : Nat} {signup signup' : Registration}
    (h : signups[i]? = some signup) (hstage' : signup'.stage ≠ .creatingAccount)
    : pending (signups.set i signup')
        =
      pending signups + (if signup.stage = .creatingAccount then 1 else 0) := by
  have hset := List.countP_set_add (fun signup => signup.stage ≠ .creatingAccount) h
    (b := signup')
  unfold pending
  by_cases hstage : signup.stage = .creatingAccount
  . simp [hstage, hstage'] at hset ⊢
    omega
  . simp [hstage, hstage'] at hset ⊢
    omega

theorem ProfileInv.hasProfile_eq_false {s : Registrations} (hs : s.ProfileInv) {account : Account}
    (hnew : account.uid ∉ s.auth.accounts.map Account.uid) : hasProfile s.db account = false := by
  rw [← Bool.not_eq_true]
  intro hprofile
  exact hnew (hs.documents account.uid hprofile)

theorem forall_mem_update {currentUser : Nat → Option DocumentID} {uids : List DocumentID}
    (h : ∀ device, ∀ uid ∈ currentUser device, uid ∈ uids) {user : Option DocumentID}
    (huser : ∀ uid ∈ user, uid ∈ uids) (device device' : Nat)
    : ∀ uid ∈ Function.update currentUser device user device', uid ∈ uids := by
  rw [Function.update_apply]
  split
  . exact huser
  . exact h device'

theorem ProfileInv.accountCreated {s : Registrations} (hs : s.ProfileInv) {i : Nat}
    {signup : Registration} (hsignup : s.signups[i]? = some signup)
    (hstage : signup.stage = .creatingAccount) {uid : DocumentID} {auth : FirebaseAuth}
    (hauth : s.auth.SignUserIn signup.email signup.password uid = some auth) (encodes : Bool)
    : s.Conserves encodes (s.accountCreated i signup uid encodes auth) := by
  rcases hs.auth.SignUserIn hauth with ⟨hinv, heq⟩
  have haccounts : auth.accounts
      = s.auth.accounts ++ [⟨uid, signup.email, signup.password⟩] := by
    rw [heq]
  have hnew : uid ∉ s.auth.accounts.map Account.uid := by
    have hnodup := hinv.uids
    rw [haccounts, List.map_append, List.map_singleton, ← List.concat_eq_append,
      List.nodup_concat] at hnodup
    exact hnodup.left
  have hwithout : withoutProfile s.db auth.accounts = withoutProfile s.db s.auth.accounts + 1 := by
    unfold withoutProfile
    rw [haccounts, List.countP_append, List.countP_singleton, hs.hasProfile_eq_false hnew]
    rfl
  have hs' : (s.accountCreated i signup uid encodes auth).ProfileInv := by
    constructor
    case auth => exact hinv
    case currentUser =>
      dsimp only [Registrations.accountCreated]
      rw [haccounts, List.map_append]
      apply forall_mem_update
      . intro device other hother
        exact List.mem_append_left _ (hs.currentUser device other hother)
      . simp
    case documents =>
      intro other hdocument
      dsimp only [Registrations.accountCreated] at hdocument ⊢
      rw [haccounts, List.map_append]
      exact List.mem_append_left _ (hs.documents other hdocument)
  cases encodes with
  | true =>
    have hpending : pending (s.signups.set i { signup with stage := .uploadingImage }) = _ :=
      pending_set hsignup (by simp)
    rw [if_pos hstage] at hpending
    apply Conserves.of_lost_eq hs' rfl
    simp only [lost, Registrations.accountCreated, if_true, hwithout, hpending]
    omega
  | false =>
    have hpending := pending_eraseIdx hsignup
    rw [if_pos hstage] at hpending
    apply Conserves.of_lost_eq_succ hs' (by simp)
    simp only [lost, Registrations.accountCreated, Bool.false_eq_true, if_false, hwithout,
      ← hpending]
    omega

theorem fetchUser_addUser (db : Firestore) (user : User) (uid : DocumentID)
    : DatabaseManager.fetchUser (DatabaseManager.perform db (DatabaseManager.addUser user)) uid
        =
      if uid = user.uid then some user.dictionary else DatabaseManager.fetchUser db uid := by
  simp [DatabaseManager.fetchUser, DatabaseManager.perform, DatabaseManager.addUser,
    Firestore.getDocument_setData, DatabaseManager.userPath]

theorem withoutProfile_addUser (db : Firestore) (user : User) {accounts : List Account}
    (hnodup : (accounts.map Account.uid).Nodup) (hmem : user.uid ∈ accounts.map Account.uid)
    : withoutProfile db accounts
        =
      withoutProfile (DatabaseManager.perform db (DatabaseManager.addUser user)) accounts
        + (if (DatabaseManager.fetchUser db user.uid).isNone then 1 else 0) := by
  rw [List.mem_map] at hmem
  rcases hmem with ⟨account, haccount, huid⟩
  unfold withoutProfile hasProfile
  simp only [fetchUser_addUser]
  cases hdocument : DatabaseManager.fetchUser db user.uid with
  | none =>
    apply List.countP_eq_succ_of_nodup_map hnodup haccount
    . rw [huid, hdocument]
      rfl
    . rw [if_pos huid]
      rfl
    . intro other _ hne
      rw [huid] at hne
      rw [if_neg hne]
  | some data =>
    apply List.countP_congr
    intro other _
    split
    . next heq =>
      rw [heq, hdocument]
      simp
    . rfl

theorem ProfileInv.urlObtained {s s' : Registrations} (hs : s.ProfileInv) {i : Nat}
    {signup : Registration} (hsignup : s.signups[i]? = some signup)
    (hstage : signup.stage = .obtainingURL) {url : String} {date now : Date}
    (h : addUser { s with signups := s.signups.eraseIdx i } signup url date now = some s')
    : s.Conserves (s.isAwaited signup.device) s' := by
  have hpending := pending_eraseIdx hsignup
  rw [hstage, if_neg (by simp)] at hpending
  unfold addUser at h
  unfold isAwaited
  split at h
  . next hnone =>
    injection h with h
    dsimp only at hnone
    rw [hnone, ← h]
    refine Conserves.of_lost_eq_succ (hs.of_currentUser rfl rfl hs.currentUser) (by simp) ?_
    unfold lost
    dsimp only
    omega
  . next uid huid =>
    dsimp only at huid
    simp only [User.init_values] at h
    injection h with h
    have hmem := hs.currentUser signup.device uid huid
    have hs' : s'.ProfileInv := by
      rw [← h]
      constructor
      case auth => exact hs.auth
      case currentUser => exact hs.currentUser
      case documents =>
        intro uid' hdocument
        rw [fetchUser_addUser] at hdocument
        split at hdocument
        . next heq =>
          rw [heq]
          exact hmem
        . exact hs.documents uid' hdocument
    have hwithout := withoutProfile_addUser s.db {
        uid := uid
        firstName := signup.firstName
        lastName := signup.lastName
        email := signup.email
        profileImageUrl := url
        timestamp := now
        isGroup := false
      } hs.auth.uids hmem
    dsimp only at hwithout
    rw [huid]
    by_cases hnone : (DatabaseManager.fetchUser s.db uid).isNone
    . apply Conserves.of_lost_eq hs' hnone
      rw [if_pos hnone] at hwithout
      rw [← h]
      unfold lost
      dsimp only
      omega
    . apply Conserves.of_lost_eq_succ hs' hnone
      rw [if_neg hnone] at hwithout
      rw [← h]
      unfold lost
      dsimp only
      omega

theorem ProfileInv.imageUploaded {s : Registrations} (hs : s.ProfileInv) {i : Nat}
    {signup : Registration} (hsignup : s.signups[i]? = some signup)
    (hstage : signup.stage = .uploadingImage)
    : s.Conserves True
        { s with signups := s.signups.set i { signup with stage := .obtainingURL } } := by
  have hpending : pending (s.signups.set i { signup with stage := .obtainingURL }) = _ :=
    pending_set hsignup (by simp)
  rw [hstage, if_neg (by simp)] at hpending
  refine Conserves.of_lost_eq (hs.of_currentUser rfl rfl hs.currentUser) trivial ?_
  simp only [lost, hpending, Nat.add_zero]

theorem ProfileInv.failed {s : Registrations} (hs : s.ProfileInv) {i : Nat}
    {signup : Registration} (hsignup : s.signups[i]? = some signup)
    : s.Conserves (signup.stage = .creatingAccount)
        { s with signups := s.signups.eraseIdx i } := by
  have hpending := pending_eraseIdx hsignup
  have hs' : ProfileInv { s with signups := s.signups.eraseIdx i } :=
    hs.of_currentUser rfl rfl hs.currentUser
  by_cases hstage : signup.stage = .creatingAccount
  . rw [if_pos hstage] at hpending
    apply Conserves.of_lost_eq hs' hstage
    simp only [lost, ← hpending, Nat.add_zero]
  . rw [if_neg hstage] at hpending
    apply Conserves.of_lost_eq_succ hs' hstage
    unfold lost
    dsimp only
    omega

theorem conserves_step {s s' : Registrations} {e : Event} (hs : s.ProfileInv)
    (hstep : registrations.step s e = some s') : s.Conserves (s.Completes e) s' := by
  simp only [registrations, step] at hstep
  cases e with
  | signup device form =>
    dsimp only at hstep
    split at hstep
    . injection hstep with hstep
      rw [← hstep]
      refine Conserves.of_lost_eq (hs.of_currentUser rfl rfl hs.currentUser) trivial ?_
      simp [lost, pending]
    . injection hstep with hstep
      rw [← hstep]
      exact Conserves.of_lost_eq hs trivial rfl
  | accountCreated i uid encodes =>
    dsimp only at hstep
    split at hstep
    . next signup hsignup =>
      split at hstep
      . next hstage =>
        rw [Option.map_eq_some_iff] at hstep
        rcases hstep with ⟨auth, hauth, hstep⟩
        rw [← hstep]
        exact hs.accountCreated hsignup hstage hauth encodes
      . contradiction
    . contradiction
  | imageUploaded i =>
    dsimp only at hstep
    split at hstep
    . next signup hsignup =>
      split at hstep
      . next hstage =>
        injection hstep with hstep
        rw [← hstep]
        exact hs.imageUploaded hsignup hstage
      . contradiction
    . contradiction
  | urlObtained i url date now =>
    dsimp only at hstep
    split at hstep
    . next signup hsignup =>
      split at hstep
      . next hstage =>
        have hcompletes : s.Completes (.urlObtained i url date now)
            ↔ s.isAwaited signup.device := by
          simp [Completes, hsignup]
        rw [hcompletes]
        exact hs.urlObtained hsignup hstage hstep
      . contradiction
    . contradiction
  | failed i =>
    dsimp only at hstep
    split at hstep
    . next hi =>
      injection hstep with hstep
      have hsignup := List.getElem?_eq_getElem hi
      have hcompletes : s.Completes (.failed i) ↔ s.signups[i].stage = .creatingAccount := by
        simp [Completes, hsignup]
      rw [hcompletes, ← hstep]
      exact hs.failed hsignup
    . contradiction
  | login device email password =>
    dsimp only at hstep
    split at hstep
    . next uid huid =>
      injection hstep with hstep
      rw [← hstep]
      refine Conserves.of_lost_eq (hs.of_currentUser rfl rfl ?_) trivial rfl
      apply forall_mem_update hs.currentUser
      intro other hother
      rw [Option.mem_some_iff] at hother
      rw [← hother]
      exact FirebaseAuth.mem_of_logUserIn huid
    . injection hstep with hstep
      rw [← hstep]
      exact Conserves.of_lost_eq hs trivial rfl
  | logout device =>
    injection hstep with hstep
    rw [← hstep]
    refine Conserves.of_lost_eq (hs.of_currentUser rfl rfl ?_) trivial rfl
    apply forall_mem_update hs.currentUser
    simp

theorem hasProfiles_iff_lost_eq_zero {s : Registrations} (hsignups : s.signups = [])
    : s.HasProfiles ↔ s.lost = 0 := by
  have hpending : pending s.signups = 0 := by
    rw [hsignups]
    rfl
  unfold lost
  rw [hpending, Nat.cast_zero, sub_zero, Nat.cast_eq_zero]
  simp [withoutProfile, HasProfiles]

theorem hasProfiles_iff_completes {es : List Event} {s : Registrations}
    (hrun : registrations.exec init es = some s) (hsignups : s.signups = [])
    : s.HasProfiles ↔ registrations.Meets (fun s e _ => s.Completes e) init es := by
  have hInv : registrations.Preserves ProfileInv := by
    intro s e s' hs hstep
    exact (conserves_step hs hstep).inv
  have hmeets := Machine.le_and_meets_iff_of_exec (f := lost) hInv
    (fun _ _ _ hs hstep => (conserves_step hs hstep).le)
    (fun _ _ _ hs hstep => (conserves_step hs hstep).iff) profileInv_init hrun
  rw [hasProfiles_iff_lost_eq_zero hsignups, hmeets.right]
  rfl

def registrationRun : List Event :=
  [
    .signup 0 ⟨some "a@b.co", some "Secret1", some "A", some "B"⟩, .accountCreated 0 "a" true,
    .imageUploaded 0, .urlObtained 0 "url" 0 0
  ]

theorem hasProfiles_iff_completes_registrationRun
    : ∃ s, registrations.exec init registrationRun = some s ∧ s.signups = []
        ∧ s.HasProfiles := by
  have hrun : registrations.exec init registrationRun = some _ := rfl
  exact ⟨_, hrun, rfl, (hasProfiles_iff_completes hrun rfl).mpr (by decide)⟩

-- The upload of the picture fails.
theorem not_hasProfiles
    : ¬∀ (es : List Event) (s : Registrations), registrations.exec init es = some s →
        s.signups = [] → s.HasProfiles := by
  intro h
  have hlast := h [
    .signup 0 ⟨some "a@b.co", some "Secret1", some "A", some "B"⟩, .accountCreated 0 "a" true,
    .failed 0
  ] _ rfl rfl
  exact absurd hlast (by decide)

end Registrations

end ChatApplication
