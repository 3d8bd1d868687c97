import ChatApplication.Controller.SelectUsersViewController

/-!
This module contains the search bar above the users. The list is filtered when a text is typed, and
replaced when the users arrive.
-/

namespace ChatApplication

structure UserSearch where
  controller : SelectUsersViewController
  -- `searchbar.text`
  searchText : String
  deriving DecidableEq, Repr

namespace UserSearch

open SelectUsersViewController (Event)

def viewDidLoad (showCheckBox : Bool) : UserSearch :=
  {
    controller := SelectUsersViewController.viewDidLoad showCheckBox
    searchText := ""
  }

def typed (searchText : String) : Event → String
  | .textDidChange searchText' => searchText'
  | _ => searchText

def step (lowercased : String → String) (contains : String → String → Bool) (s : UserSearch)
    (e : Event) : Option UserSearch :=
  match (selectUsers lowercased contains).step s.controller e with
  | some controller => some ⟨controller, typed s.searchText e⟩
  | none => none

end UserSearch

def userSearch (lowercased : String → String) (contains : String → String → Bool)
    : Machine UserSearch SelectUsersViewController.Event :=
  ⟨UserSearch.step lowercased contains⟩

namespace UserSearch

open SelectUsersViewController (Event searched)

section

variable (lowercased : String → String) (contains : String → String → Bool)

-- what the text asks for
def isMatch (searchText : String) (user : User) : Bool :=
  searchText = "" || contains (lowercased user.firstName) (lowercased searchText)

def ShowsMatches (s : UserSearch) : Prop :=
  s.controller.users = s.controller.tempUsers.filter (isMatch lowercased contains s.searchText)

instance (s : UserSearch) : Decidable (s.ShowsMatches lowercased contains) :=
  inferInstanceAs (Decidable (_ = _))

-- The users arrive while there is no text, or all of them match it.
def ArrivesMatching (s : UserSearch) : Event → Prop
  | .getAllUsers users => ∀ user ∈ users, isMatch lowercased contains s.searchText user
  | _ => True

theorem searched_eq_filter (tempUsers : List User) (searchText : String)
    : searched lowercased contains tempUsers searchText
        =
      tempUsers.filter (isMatch lowercased contains searchText) := by
  unfold searched isMatch
  split
  . next hempty => simp [hempty]
  . next hne => simp [hne]

end

variable {lowercased : String → String} {contains : String → String → Bool}

theorem step_eq_some {s s' : UserSearch} {e : Event}
    (h : (userSearch lowercased contains).step s e = some s')
    : (selectUsers lowercased contains).step s.controller e = some s'.controller
        ∧ s'.searchText = typed s.searchText e := by
  simp only [userSearch, step] at h
  split at h
  . next controller hstep =>
    injection h with h
    rw [← h]
    exact ⟨hstep, rfl⟩
  . contradiction

-- Only the search bar and the arrival of the users change what is listed.
theorem showsMatches_step {s s' : UserSearch} {e : Event} (hs : s.ShowsMatches lowercased contains)
    (hstep : (userSearch lowercased contains).step s e = some s')
    : s'.ShowsMatches lowercased contains ↔ s.ArrivesMatching lowercased contains e := by
  rcases step_eq_some hstep with ⟨hcontroller, htext⟩
  unfold ShowsMatches at hs ⊢
  rw [htext]
  cases e with
  | getAllUsers users =>
    rw [(SelectUsersViewController.step_getAllUsers hcontroller).right, eq_comm,
      List.filter_eq_self]
    rfl
  | textDidChange searchText =>
    simp only [selectUsers, SelectUsersViewController.step, Option.some.injEq] at hcontroller
    rw [← hcontroller]
    exact iff_of_true (searched_eq_filter lowercased contains _ searchText) trivial
  | reloadData =>
    rw [SelectUsersViewController.step_reloadData hcontroller]
    exact iff_of_true hs trivial
  | newCell =>
    simp only [selectUsers, SelectUsersViewController.step, Option.some.injEq] at hcontroller
    rw [← hcontroller]
    exact iff_of_true hs trivial
  | cellForItem row i =>
    rcases SelectUsersViewController.step_cellForItem hcontroller with ⟨_, _, _, _, _, _, hs'⟩
    rw [hs']
    exact iff_of_true hs trivial
  | didEndDisplaying i =>
    rcases SelectUsersViewController.step_didEndDisplaying hcontroller with ⟨_, _, _, hs'⟩
    rw [hs']
    exact iff_of_true hs trivial
  | buttonClicked i =>
    rcases SelectUsersViewController.step_buttonClicked hcontroller with ⟨_, _, _, _, _, hs'⟩
    rw [hs']
    exact iff_of_true hs trivial

theorem showsMatches_iff_arrivesMatching (lowercased : String → String)
    (contains : String → String → Bool) (showCheckBox : Bool) (es : List Event)
    : (userSearch lowercased contains).Meets (fun _ _ s' => s'.ShowsMatches lowercased contains)
          (viewDidLoad showCheckBox) es
        ↔
      (userSearch lowercased contains).Meets
        (fun s e _ => s.ArrivesMatching lowercased contains e) (viewDidLoad showCheckBox) es := by
  have hinit : (viewDidLoad showCheckBox).ShowsMatches lowercased contains := rfl
  apply Machine.meets_congr _ _ hinit
  . intro s e s' _ _ hshows
    exact hshows
  . intro s e s' hs hstep
    exact showsMatches_step hs hstep

-- "b" is typed while the users are still being loaded.
theorem not_showsMatches
    : ¬∀ (lowercased : String → String) (contains : String → String → Bool) (showCheckBox : Bool)
        (es : List Event),
        (userSearch lowercased contains).Meets (fun _ _ s' => s'.ShowsMatches lowercased contains)
          (viewDidLoad showCheckBox) es := by
  intro h
  have hrun := h (fun text => text) (fun _ _ => false) false
    [.textDidChange "b", .getAllUsers [⟨"a", "ann", "A", "ann@mail.org", "pa", 1, false⟩]]
  exact absurd hrun (by decide)

end UserSearch

end ChatApplication
