import ChatApplication.API.NetworkManager
import ChatApplication.Machine.Basic

/-!
This module contains the buttons of the screens for login, signup and forgotten passwords. The
question is whether what Firebase Auth takes also passes the checks of the login screen.
-/

namespace ChatApplication

namespace LoginViewController

inductive LoginAction where
  | nothing
  | shake
  | showAlert (error : String)
  | logUserIn (email password : String)
  deriving DecidableEq, Repr

def loginButtonPressed (emailText passwordText : Option String) : LoginAction :=
  match emailText, passwordText with
  | some email, some password =>
    if email = "" ∨ password = "" then
      .shake
    else if isValidEmail email ∧ isValidPassword password then
      .logUserIn email password
    else
      .showAlert "Please enter valid email and password"
  | _, _ => .nothing

theorem ne_empty_of_isValidEmail {email : String} (h : isValidEmail email) : email ≠ "" := by
  intro heq
  rw [heq] at h
  contradiction

theorem ne_empty_of_isValidPassword {password : String} (h : isValidPassword password)
    : password ≠ "" := by
  rw [isValidPassword_iff] at h
  intro heq
  rw [heq] at h
  exact absurd h.right.right.right.left (by decide)

theorem loginButtonPressed_eq_logUserIn {email password : String}
    : loginButtonPressed (some email) (some password) = .logUserIn email password
        ↔
      isValidEmail email ∧ isValidPassword password := by
  unfold loginButtonPressed
  dsimp only
  constructor
  . intro h
    split at h
    . contradiction
    . split at h
      . assumption
      . contradiction
  . intro h
    rw [if_neg, if_pos h]
    rw [not_or]
    exact ⟨ne_empty_of_isValidEmail h.left, ne_empty_of_isValidPassword h.right⟩

end LoginViewController

-- the texts of the fields of the register screen
structure RegisterForm where
  email : Option String
  password : Option String
  firstName : Option String
  lastName : Option String
  deriving DecidableEq, Repr

namespace RegisterViewController

inductive RegisterAction where
  | nothing
  -- `isInputValid` shows an error in most cases
  | shake (error : Option String)
  | signUserIn (email password firstName lastName : String)
  deriving DecidableEq, Repr

-- with the error that is shown
def isInputValid (form : RegisterForm) : Bool × Option String :=
  match form.email, form.password with
  | some email, some password =>
    if isValidEmail email ∧ isValidPassword password then
      match form.firstName, form.lastName with
      | some firstName, some lastName =>
        if firstName ≠ "" ∧ lastName ≠ "" then
          (true, none)
        else
          (false, some "First name and last name connot be empty")
      | _, _ => (false, none)
    else
      (false, some "Please enter valid email and password")
  | _, _ => (false, none)

-- up to the call of `SignUserIn`
def signup (form : RegisterForm) : RegisterAction :=
  match form.email, form.password, form.firstName, form.lastName with
  | some email, some password, some firstName, some lastName =>
    match isInputValid form with
    | (true, _) => .signUserIn email password firstName lastName
    | (false, error) => .shake error
  | _, _, _, _ => .nothing

theorem isValid_of_signup {form : RegisterForm} {email password firstName lastName : String}
    (h : signup form = .signUserIn email password firstName lastName)
    : isValidEmail email ∧ isValidPassword password := by
  unfold signup at h
  split at h
  . next _ _ _ _ hemail hpassword _ _ =>
    split at h
    . next hvalid =>
      injection h with hemail' hpassword'
      unfold isInputValid at hvalid
      rw [hemail, hpassword, hemail', hpassword'] at hvalid
      dsimp only at hvalid
      split at hvalid
      . assumption
      . injection hvalid
        contradiction
    . contradiction
  . contradiction

end RegisterViewController

namespace ForgotPasswordViewController

-- the email that `sendPasswordReset` is called with, `none` if the forced unwrapping traps
def resetPassword (emailText : Option String) : Option String :=
  emailText

end ForgotPasswordViewController

inductive CredentialsEvent where
  -- Firebase creates the account under `answer`, or fails
  | signup (form : RegisterForm) (answer : Option DocumentID)
  | resetPassword (emailText : Option String)
  | followLink (i : Nat) (newPassword : String)
  | loginButtonPressed (emailText passwordText : Option String)
  deriving DecidableEq, Repr

namespace FirebaseAuth

def handleCredentials (auth : FirebaseAuth) : CredentialsEvent → Option FirebaseAuth
  | .signup form answer =>
    match RegisterViewController.signup form, answer with
    | .signUserIn email password _ _, some uid => auth.SignUserIn email password uid
    | _, _ => some auth
  | .resetPassword emailText =>
    (ForgotPasswordViewController.resetPassword emailText).map auth.sendPasswordReset
  | .followLink i newPassword => auth.confirmPasswordReset i newPassword
  -- whatever Firebase answers
  | .loginButtonPressed _ _ => some auth

end FirebaseAuth

def credentials : Machine FirebaseAuth CredentialsEvent :=
  ⟨FirebaseAuth.handleCredentials⟩

namespace FirebaseAuth

-- The login screen hands everything to Firebase that Firebase takes.
def LetsIn (auth : FirebaseAuth) : Prop :=
  ∀ email password, (auth.logUserIn email password).isSome →
    LoginViewController.loginButtonPressed (some email) (some password) = .logUserIn email password

-- A new password is one that the register screen takes, too.
def ChoosesValid : CredentialsEvent → Prop
  | .followLink _ newPassword => isValidPassword newPassword
  | _ => True

structure CredentialsInv (auth : FirebaseAuth) : Prop where
  inv : auth.Inv
  valid : ∀ account ∈ auth.accounts,
    isValidEmail account.email ∧ isValidPassword account.password

theorem credentialsInv_empty : empty.CredentialsInv :=
  ⟨inv_empty, by simp [empty]⟩

-- Firebase takes an email that differs from the registered one in the case of its letters.
theorem CredentialsInv.letsIn {auth : FirebaseAuth} (hauth : auth.CredentialsInv)
    : auth.LetsIn := by
  intro email password haccepted
  rcases exists_of_logUserIn haccepted with ⟨account, haccount, hemail, hpassword⟩
  have hvalid := hauth.valid account haccount
  rw [isValidEmail_eq_of_lowercased_eq hemail, hpassword] at hvalid
  rw [LoginViewController.loginButtonPressed_eq_logUserIn]
  exact hvalid

theorem CredentialsInv.signup {auth auth' : FirebaseAuth} (hauth : auth.CredentialsInv)
    {form : RegisterForm} {answer : Option DocumentID}
    (h : auth.handleCredentials (.signup form answer) = some auth') : auth'.CredentialsInv := by
  unfold handleCredentials at h
  dsimp only at h
  split at h
  . next email password firstName lastName uid hform =>
    rcases hauth.inv.SignUserIn h with ⟨hinv, hauth'⟩
    refine ⟨hinv, ?_⟩
    rw [hauth', List.forall_mem_append, List.forall_mem_singleton]
    exact ⟨hauth.valid, RegisterViewController.isValid_of_signup hform⟩
  . injection h with h
    rw [← h]
    exact hauth

theorem CredentialsInv.followLink {auth auth' : FirebaseAuth} (hauth : auth.CredentialsInv)
    {i : Nat} {newPassword : String} (h : auth.confirmPasswordReset i newPassword = some auth')
    (hvalid : isValidPassword newPassword) : auth'.CredentialsInv := by
  rcases hauth.inv.confirmPasswordReset h with ⟨uid, _, hauth', hinv⟩
  refine ⟨hinv, ?_⟩
  intro account haccount
  rw [hauth'] at haccount
  rcases mem_setPassword haccount with ⟨old, hold, hemail, hpassword⟩
  have holdvalid := hauth.valid old hold
  rw [hemail]
  refine ⟨holdvalid.left, ?_⟩
  cases hpassword with
  | inl heq =>
    rw [heq]
    exact holdvalid.right
  | inr heq =>
    rw [heq]
    exact hvalid

theorem credentialsInv_step {auth auth' : FirebaseAuth} {e : CredentialsEvent}
    (hauth : auth.CredentialsInv) (hstep : credentials.step auth e = some auth')
    (hvalid : ChoosesValid e) : auth'.CredentialsInv := by
  cases e with
  | signup form answer => exact hauth.signup hstep
  | resetPassword emailText =>
    simp only [credentials, handleCredentials, Option.map_eq_some_iff] at hstep
    rcases hstep with ⟨email, _, hauth'⟩
    have hsent := hauth.inv.sendPasswordReset email
    rw [← hauth']
    refine ⟨hsent.left, ?_⟩
    rw [hsent.right]
    exact hauth.valid
  | followLink i newPassword => exact hauth.followLink hstep hvalid
  | loginButtonPressed emailText passwordText =>
    injection hstep with hauth'
    rw [← hauth']
    exact hauth

theorem choosesValid_of_letsIn {auth auth' : FirebaseAuth} {e : CredentialsEvent}
    (hauth : auth.CredentialsInv) (hstep : credentials.step auth e = some auth')
    (hletsIn : auth'.LetsIn) : ChoosesValid e := by
  unfold ChoosesValid
  split
  . next i newPassword =>
    rcases hauth.inv.logUserIn_confirmPasswordReset hstep with ⟨email, haccepted⟩
    have hpressed := hletsIn email newPassword haccepted
    rw [LoginViewController.loginButtonPressed_eq_logUserIn] at hpressed
    exact hpressed.right
  . trivial

theorem letsIn_iff_choosesValid (es : List CredentialsEvent)
    : credentials.Meets (fun _ _ auth' => auth'.LetsIn) empty es
        ↔
      credentials.Meets (fun _ e _ => ChoosesValid e) empty es := by
  apply Machine.meets_congr _ _ credentialsInv_empty
  . intro auth e auth' hauth hstep hletsIn
    exact credentialsInv_step hauth hstep (choosesValid_of_letsIn hauth hstep hletsIn)
  . intro auth e auth' hauth hstep
    constructor
    . exact choosesValid_of_letsIn hauth hstep
    . intro hvalid
      exact (credentialsInv_step hauth hstep hvalid).letsIn

-- The new password has no uppercase letter and no digit.
theorem not_letsIn
    : ¬∀ es : List CredentialsEvent,
        credentials.Meets (fun _ _ auth' => auth'.LetsIn) empty es := by
  intro h
  have hpre : credentials.exec empty [
      .signup ⟨some "a@b.co", some "Secret1", some "A", some "B"⟩ (some "a"),
      .resetPassword (some "a@b.co")
    ] = some ⟨[⟨"a", "a@b.co", "Secret1"⟩], ["a"]⟩ := by
    decide
  have hfollow : credentials.step ⟨[⟨"a", "a@b.co", "Secret1"⟩], ["a"]⟩
      (.followLink 0 "secret") = some ⟨[⟨"a", "a@b.co", "secret"⟩], []⟩ := by
    decide
  have hletsIn := (h (_ ++ [_])).mid hpre hfollow
  exact absurd (hletsIn "a@b.co" "secret" (by decide)) (by decide)

end FirebaseAuth

end ChatApplication
