import ChatApplication.API.Firestore
import ChatApplication.Utils.StringExtension

/-!
This module contains the part of Firebase Auth that `NetworkManager` and the password reset call.
-/

namespace ChatApplication

structure Account where
  uid : DocumentID
  email : String
  password : String
  deriving DecidableEq, Repr

structure FirebaseAuth where
  accounts : List Account
  -- the accounts whose owners have been sent a reset link that they have not followed yet
  links : List DocumentID
  deriving DecidableEq, Repr

namespace FirebaseAuth

def empty : FirebaseAuth :=
  ⟨[], []⟩

def account? (auth : FirebaseAuth) (email : String) : Option Account :=
  auth.accounts.find? (fun account => lowercased account.email = lowercased email)

-- the account is created under `uid` if the email is not taken
def SignUserIn (auth : FirebaseAuth) (email password : String) (uid : DocumentID)
    : Option FirebaseAuth :=
  if auth.account? email = none ∧ uid ∉ auth.accounts.map Account.uid then
    some { auth with accounts := auth.accounts ++ [⟨uid, email, password⟩] }
  else
    none

def logUserIn (auth : FirebaseAuth) (email password : String) : Option DocumentID :=
  match auth.account? email with
  | some account => if account.password = password then some account.uid else none
  | none => none

def sendPasswordReset (auth : FirebaseAuth) (email : String) : FirebaseAuth :=
  match auth.account? email with
  | some account => { auth with links := auth.links ++ [account.uid] }
  | none => auth

def setPassword (accounts : List Account) (uid : DocumentID) (password : String) : List Account :=
  accounts.map (fun account =>
    if account.uid = uid then { account with password := password } else account)

-- The form behind the `i`-th link takes any password that Firebase takes.
def confirmPasswordReset (auth : FirebaseAuth) (i : Nat) (newPassword : String)
    : Option FirebaseAuth :=
  match auth.links[i]? with
  | some uid =>
    if 6 ≤ newPassword.toList.length then
      some ⟨setPassword auth.accounts uid newPassword, auth.links.eraseIdx i⟩
    else
      none
  | none => none

theorem mem_of_account? {auth : FirebaseAuth} {email : String} {account : Account}
    (h : auth.account? email = some account)
    : account ∈ auth.accounts ∧ lowercased account.email = lowercased email := by
  unfold account? at h
  have hemail := List.find?_some h
  rw [decide_eq_true_eq] at hemail
  exact ⟨List.mem_of_find?_eq_some h, hemail⟩

theorem account?_eq_none {auth : FirebaseAuth} {email : String}
    : auth.account? email = none
        ↔
      lowercased email ∉ auth.accounts.map (fun account => lowercased account.email) := by
  simp [account?]

theorem exists_of_logUserIn {auth : FirebaseAuth} {email password : String}
    (h : (auth.logUserIn email password).isSome)
    : ∃ account ∈ auth.accounts,
        lowercased account.email = lowercased email ∧ account.password = password := by
  unfold logUserIn at h
  split at h
  . next account haccount =>
    split at h
    . next hpassword =>
      have hmem := mem_of_account? haccount
      exact ⟨account, hmem.left, hmem.right, hpassword⟩
    . contradiction
  . contradiction

theorem mem_of_logUserIn {auth : FirebaseAuth} {email password : String} {uid : DocumentID}
    (h : auth.logUserIn email password = some uid) : uid ∈ auth.accounts.map Account.uid := by
  unfold logUserIn at h
  split at h
  . next account haccount =>
    rw [Option.ite_none_right_eq_some] at h
    injection h.right with huid
    rw [← huid]
    exact List.mem_map_of_mem (mem_of_account? haccount).left
  . contradiction

-- No two accounts share an email or a uid, and a link is for an account.
structure Inv (auth : FirebaseAuth) : Prop where
  emails : (auth.accounts.map (fun account => lowercased account.email)).Nodup
  uids : (auth.accounts.map Account.uid).Nodup
  links : ∀ uid ∈ auth.links, ∃ account ∈ auth.accounts, account.uid = uid

theorem inv_empty : empty.Inv := by
  constructor
  all_goals simp [empty]

theorem Inv.account?_email {auth : FirebaseAuth} (hauth : auth.Inv) {account : Account}
    (haccount : account ∈ auth.accounts) : auth.account? account.email = some account := by
  cases hfound : auth.account? account.email with
  | none =>
    rw [account?_eq_none] at hfound
    exact absurd (List.mem_map_of_mem haccount) hfound
  | some other =>
    have hother := mem_of_account? hfound
    rw [List.inj_on_of_nodup_map hauth.emails hother.left haccount hother.right]

theorem Inv.SignUserIn {auth auth' : FirebaseAuth} (hauth : auth.Inv) {email password : String}
    {uid : DocumentID} (h : auth.SignUserIn email password uid = some auth')
    : auth'.Inv
        ∧ auth' = { auth with accounts := auth.accounts ++ [⟨uid, email, password⟩] } := by
  unfold FirebaseAuth.SignUserIn at h
  split at h
  . next hfree =>
    rw [account?_eq_none] at hfree
    injection h with h
    rw [← h]
    refine ⟨⟨?_, ?_, ?_⟩, rfl⟩
    . rw [List.map_append, List.map_singleton, ← List.concat_eq_append]
      exact hauth.emails.concat hfree.left
    . rw [List.map_append, List.map_singleton, ← List.concat_eq_append]
      exact hauth.uids.concat hfree.right
    . intro other hother
      rcases hauth.links other hother with ⟨account, haccount, huid⟩
      exact ⟨account, List.mem_append_left _ haccount, huid⟩
  . contradiction

theorem Inv.sendPasswordReset {auth : FirebaseAuth} (hauth : auth.Inv) (email : String)
    : (auth.sendPasswordReset email).Inv
        ∧ (auth.sendPasswordReset email).accounts = auth.accounts := by
  unfold FirebaseAuth.sendPasswordReset
  split
  . next account haccount =>
    refine ⟨⟨hauth.emails, hauth.uids, ?_⟩, rfl⟩
    intro uid huid
    rw [List.mem_append, List.mem_singleton] at huid
    cases huid with
    | inl huid => exact hauth.links uid huid
    | inr heq => exact ⟨account, (mem_of_account? haccount).left, heq.symm⟩
  . exact ⟨hauth, rfl⟩

theorem map_setPassword {β : Type} {f : Account → β}
    (hf : ∀ (account : Account) (password : String),
      f { account with password := password } = f account)
    (accounts : List Account) (uid : DocumentID) (password : String)
    : (setPassword accounts uid password).map f = accounts.map f := by
  unfold setPassword
  rw [List.map_map]
  apply List.map_congr_left
  intro account _
  dsimp only [Function.comp]
  split
  . exact hf account password
  . rfl

-- Everybody but the owner of the link keeps the password.
theorem mem_setPassword {accounts : List Account} {uid : DocumentID} {password : String}
    {account : Account} (h : account ∈ setPassword accounts uid password)
    : ∃ old ∈ accounts, account.email = old.email
        ∧ (account.password = old.password ∨ account.password = password) := by
  unfold setPassword at h
  rw [List.mem_map] at h
  rcases h with ⟨old, hold, heq⟩
  refine ⟨old, hold, ?_⟩
  rw [← heq]
  split
  . exact ⟨rfl, Or.inr rfl⟩
  . exact ⟨rfl, Or.inl rfl⟩

theorem Inv.confirmPasswordReset {auth auth' : FirebaseAuth} (hauth : auth.Inv) {i : Nat}
    {newPassword : String} (h : auth.confirmPasswordReset i newPassword = some auth')
    : ∃ uid ∈ auth.links,
        auth' = ⟨setPassword auth.accounts uid newPassword, auth.links.eraseIdx i⟩
          ∧ auth'.Inv := by
  unfold FirebaseAuth.confirmPasswordReset at h
  split at h
  . next uid huid =>
    split at h
    . injection h with h
      refine ⟨uid, List.mem_of_getElem? huid, h.symm, ?_⟩
      rw [← h]
      constructor
      case emails =>
        rw [map_setPassword (fun _ _ => rfl)]
        exact hauth.emails
      case uids =>
        rw [map_setPassword (fun _ _ => rfl)]
        exact hauth.uids
      case links =>
        intro other hother
        rcases hauth.links other (List.mem_of_mem_eraseIdx hother) with ⟨account, haccount, heq⟩
        have hmem := List.mem_map_of_mem (f := Account.uid) haccount
        rw [← map_setPassword (fun _ _ => rfl) _ uid newPassword, List.mem_map] at hmem
        rw [← heq]
        exact hmem
    . contradiction
  . contradiction

-- The owner of the link can log in with the new password.
theorem Inv.logUserIn_confirmPasswordReset {auth auth' : FirebaseAuth} (hauth : auth.Inv) {i : Nat}
    {newPassword : String} (h : auth.confirmPasswordReset i newPassword = some auth')
    : ∃ email, (auth'.logUserIn email newPassword).isSome := by
  rcases hauth.confirmPasswordReset h with ⟨uid, huid, hauth', hinv⟩
  rcases hauth.links uid huid with ⟨account, haccount, heq⟩
  have hmem : { account with password := newPassword } ∈ auth'.accounts := by
    rw [hauth']
    dsimp only
    unfold setPassword
    rw [List.mem_map]
    exact ⟨account, haccount, if_pos heq⟩
  refine ⟨account.email, ?_⟩
  unfold logUserIn
  rw [hinv.account?_email hmem]
  simp

end FirebaseAuth

end ChatApplication
