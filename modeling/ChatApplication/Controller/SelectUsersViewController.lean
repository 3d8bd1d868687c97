import ChatApplication.API.DatabaseManager
import ChatApplication.Data.Positions
import ChatApplication.Machine.Basic

/-!
This module contains the screen on which the members of a group are selected. Who is selected is
only known to the check boxes of cells which the collection view uses again for other rows.
-/

namespace ChatApplication

structure CheckBox where
  isChecked : Bool
  isHidden : Bool
  deriving DecidableEq, Repr

def CheckBox.buttonClicked (checkBox : CheckBox) : CheckBox :=
  { checkBox with isChecked := !checkBox.isChecked }

structure UserInfoCell where
  -- `nameLabel.text`
  name : String
  checkBox : CheckBox
  profileImagePadding : Nat
  deriving DecidableEq, Repr

namespace UserInfoCell

def new : UserInfoCell :=
  {
    name := ""
    checkBox := ⟨false, false⟩
    profileImagePadding := 0
  }

def setup (cell : UserInfoCell) (user : User) : UserInfoCell :=
  { cell with name := user.firstName ++ " " ++ user.lastName }

end UserInfoCell

-- a cell of the collection view, and the row that it is on screen for
structure ReusableCell where
  cell : UserInfoCell
  row : Option Nat
  deriving DecidableEq, Repr

-- a click on the check box of a cell, and the user of the row which the cell was on screen for
structure Tap where
  cell : Nat
  user : DocumentID
  deriving DecidableEq, Repr

structure SelectUsersViewController where
  users : List User
  tempUsers : List User
  showCheckBox : Bool
  -- the completion of `getAllUsers` has been called
  loaded : Bool
  -- how often the collection view is going to ask for the number of items
  reloads : Nat
  -- what the collection view was told the last time
  numberOfItems : Nat
  cells : List ReusableCell
  taps : List Tap
  deriving DecidableEq, Repr

namespace SelectUsersViewController

inductive Event where
  -- the completion in `getData`
  | getAllUsers (users : List User)
  -- the first layout, or a call of `reloadData` in a block on the main queue
  | reloadData
  -- the collection view makes a cell of the registered class
  | newCell
  | cellForItem (row cell : Nat)
  | didEndDisplaying (cell : Nat)
  | buttonClicked (cell : Nat)
  | textDidChange (searchText : String)
  deriving DecidableEq, Repr

def viewDidLoad (showCheckBox : Bool) : SelectUsersViewController :=
  {
    users := []
    tempUsers := []
    showCheckBox := showCheckBox
    loaded := false
    reloads := 1
    numberOfItems := 0
    cells := []
    taps := []
  }

-- All cells are released.
def reloadData (s : SelectUsersViewController) : SelectUsersViewController :=
  {
    s with
    numberOfItems := s.users.length
    cells := s.cells.map (fun cell => { cell with row := none })
  }

-- `collectionView(_:cellForItemAt:)`
def cellForItem (s : SelectUsersViewController) (cell : UserInfoCell) (user : User)
    : UserInfoCell :=
  let cell := cell.setup user
  if s.showCheckBox then
    { cell with profileImagePadding := 55, checkBox := { cell.checkBox with isHidden := false } }
  else
    { cell with profileImagePadding := 5, checkBox := { cell.checkBox with isHidden := true } }

def searched (lowercased : String → String) (contains : String → String → Bool)
    (tempUsers : List User) (searchText : String) : List User :=
  if searchText = "" then
    tempUsers
  else
    tempUsers.filter (fun user => contains (lowercased user.firstName) (lowercased searchText))

-- `searchBar(_:textDidChange:)`
def textDidChange (lowercased : String → String) (contains : String → String → Bool)
    (s : SelectUsersViewController) (searchText : String) : SelectUsersViewController :=
  reloadData { s with users := searched lowercased contains s.tempUsers searchText }

def step (lowercased : String → String) (contains : String → String → Bool)
    (s : SelectUsersViewController) : Event → Option SelectUsersViewController
  | .getAllUsers users =>
    -- users are documents of one collection, under their uids
    if s.loaded = false ∧ (users.map User.uid).Nodup then
      some { s with users := users, tempUsers := users, loaded := true, reloads := s.reloads + 1 }
    else
      none
  | .reloadData =>
    if 0 < s.reloads then
      some { s.reloadData with reloads := s.reloads - 1 }
    else
      none
  | .newCell => some { s with cells := s.cells ++ [⟨UserInfoCell.new, none⟩] }
  | .cellForItem row i =>
    match s.cells[i]?, s.users[row]? with
    | some ⟨cell, none⟩, some user =>
      if row < s.numberOfItems ∧ ∀ other ∈ s.cells, other.row ≠ some row then
        some { s with cells := s.cells.set i ⟨s.cellForItem cell user, some row⟩ }
      else
        none
    | _, _ => none
  | .didEndDisplaying i =>
    match s.cells[i]? with
    | some ⟨cell, some _⟩ => some { s with cells := s.cells.set i ⟨cell, none⟩ }
    | _ => none
  | .buttonClicked i =>
    match s.cells[i]? with
    | some ⟨cell, some row⟩ =>
      match s.users[row]? with
      | some user =>
        if cell.checkBox.isHidden then
          none
        else
          some {
            s with
            cells := s.cells.set i
              ⟨{ cell with checkBox := cell.checkBox.buttonClicked }, some row⟩
            taps := s.taps ++ [⟨i, user.uid⟩]
          }
      | none => none
    | _ => none
  | .textDidChange searchText => some (s.textDidChange lowercased contains searchText)

end SelectUsersViewController

def selectUsers (lowercased : String → String) (contains : String → String → Bool)
    : Machine SelectUsersViewController SelectUsersViewController.Event :=
  ⟨SelectUsersViewController.step lowercased contains⟩

namespace SelectUsersViewController

variable {lowercased : String → String} {contains : String → String → Bool}

def oddly (taps : List Tap) (p : Tap → Bool) : Bool :=
  taps.countP p % 2 == 1

-- the user has been tapped an odd number of times
def tapped (s : SelectUsersViewController) (uid : DocumentID) : Bool :=
  oddly s.taps (fun tap => tap.user = uid)

-- the same of a cell, on screen for whomever
def cellTapped (s : SelectUsersViewController) (i : Nat) : Bool :=
  oddly s.taps (fun tap => tap.cell = i)

def MarksUsers (s : SelectUsersViewController) : Prop :=
  ∀ cell ∈ s.cells, ∀ row ∈ cell.row, ∀ user ∈ s.users[row]?,
    cell.cell.checkBox.isChecked = s.tapped user.uid

instance (s : SelectUsersViewController) : Decidable s.MarksUsers :=
  inferInstanceAs (Decidable (∀ cell ∈ s.cells, ∀ row ∈ cell.row, ∀ user ∈ s.users[row]?,
    cell.cell.checkBox.isChecked = s.tapped user.uid))

-- A row is given a cell that was tapped an odd number of times just if the user was.
def HandsOutAlike (s : SelectUsersViewController) : Event → Prop
  | .cellForItem row i => ∀ user ∈ s.users[row]?, s.cellTapped i = s.tapped user.uid
  | _ => True

instance (s : SelectUsersViewController) (e : Event) : Decidable (s.HandsOutAlike e) := by
  unfold HandsOutAlike
  split
  all_goals infer_instance

theorem searched_sublist (lowercased : String → String) (contains : String → String → Bool)
    (tempUsers : List User) (searchText : String)
    : (searched lowercased contains tempUsers searchText).Sublist tempUsers := by
  unfold searched
  split
  . exact List.Sublist.refl tempUsers
  . exact List.filter_sublist

theorem oddly_concat (taps : List Tap) (tap : Tap) (p : Tap → Bool)
    : oddly (taps ++ [tap]) p = if p tap then !oddly taps p else oddly taps p := by
  unfold oddly
  rw [List.countP_append, List.countP_singleton]
  split
  . rw [Bool.eq_iff_iff]
    simp
    omega
  . rfl

theorem oddly_eq_false {taps : List Tap} {p : Tap → Bool} (h : ∀ tap ∈ taps, p tap = false)
    : oddly taps p = false := by
  have hcount : taps.countP p = 0 := by
    rw [List.countP_eq_zero]
    simpa using h
  unfold oddly
  rw [hcount]
  rfl

theorem step_getAllUsers {s s' : SelectUsersViewController} {users : List User}
    (h : (selectUsers lowercased contains).step s (.getAllUsers users) = some s')
    : (s.loaded = false ∧ (users.map User.uid).Nodup)
        ∧ s' = {
            s with
            users := users
            tempUsers := users
            loaded := true
            reloads := s.reloads + 1
          } := by
  simp only [selectUsers, step] at h
  split at h
  . next hguard =>
    injection h with h
    exact ⟨hguard, h.symm⟩
  . contradiction

theorem step_reloadData {s s' : SelectUsersViewController}
    (h : (selectUsers lowercased contains).step s .reloadData = some s')
    : s' = { s.reloadData with reloads := s.reloads - 1 } := by
  simp only [selectUsers, step] at h
  split at h
  . injection h with h
    exact h.symm
  . contradiction

theorem step_cellForItem {s s' : SelectUsersViewController} {row i : Nat}
    (h : (selectUsers lowercased contains).step s (.cellForItem row i) = some s')
    : ∃ cell user, s.cells[i]? = some ⟨cell, none⟩ ∧ s.users[row]? = some user
        ∧ row < s.numberOfItems ∧ (∀ other ∈ s.cells, other.row ≠ some row)
        ∧ s' = { s with cells := s.cells.set i ⟨s.cellForItem cell user, some row⟩ } := by
  simp only [selectUsers, step] at h
  split at h
  . next cell user hcell huser =>
    split at h
    . next hguard =>
      injection h with h
      exact ⟨cell, user, hcell, huser, hguard.left, hguard.right, h.symm⟩
    . contradiction
  . contradiction

theorem step_didEndDisplaying {s s' : SelectUsersViewController} {i : Nat}
    (h : (selectUsers lowercased contains).step s (.didEndDisplaying i) = some s')
    : ∃ cell row, s.cells[i]? = some ⟨cell, some row⟩
        ∧ s' = { s with cells := s.cells.set i ⟨cell, none⟩ } := by
  simp only [selectUsers, step] at h
  split at h
  . next cell row hcell =>
    injection h with h
    exact ⟨cell, row, hcell, h.symm⟩
  . contradiction

theorem step_buttonClicked {s s' : SelectUsersViewController} {i : Nat}
    (h : (selectUsers lowercased contains).step s (.buttonClicked i) = some s')
    : ∃ cell row user, s.cells[i]? = some ⟨cell, some row⟩ ∧ s.users[row]? = some user
        ∧ s' = {
            s with
            cells := s.cells.set i
              ⟨{ cell with checkBox := cell.checkBox.buttonClicked }, some row⟩
            taps := s.taps ++ [⟨i, user.uid⟩]
          } := by
  simp only [selectUsers, step] at h
  split at h
  . next cell row hcell =>
    split at h
    . next user huser =>
      split at h
      . contradiction
      . injection h with h
        exact ⟨cell, row, user, hcell, huser, h.symm⟩
    . contradiction
  . contradiction

@[simp]
theorem isChecked_cellForItem (s : SelectUsersViewController) (cell : UserInfoCell) (user : User)
    : (s.cellForItem cell user).checkBox.isChecked = cell.checkBox.isChecked := by
  unfold cellForItem
  split
  . rfl
  . rfl

-- what holds of the rows, whatever the boxes mark
structure RowsInv (s : SelectUsersViewController) : Prop where
  uids : (s.users.map User.uid).Nodup
  tempUids : (s.tempUsers.map User.uid).Nodup
  loaded : s.loaded = false → s.tempUsers = [] ∧ s.users = [] ∧ s.numberOfItems = 0
  onScreen : ∀ cell ∈ s.cells, ∀ row ∈ cell.row, row < s.numberOfItems
  rows : s.cells.DistinctValues ReusableCell.row

theorem rowsInv_viewDidLoad (showCheckBox : Bool) : (viewDidLoad showCheckBox).RowsInv := by
  constructor
  case uids => exact List.nodup_nil
  case tempUids => exact List.nodup_nil
  case loaded => exact fun _ => ⟨rfl, rfl, rfl⟩
  case onScreen =>
    intro cell hcell
    contradiction
  case rows => exact List.distinctValues_of_forall_eq_none nofun

theorem row_eq_none_of_mem_map {cells : List ReusableCell} {cell : ReusableCell}
    (h : cell ∈ cells.map (fun cell => { cell with row := none })) : cell.row = none := by
  rw [List.mem_map] at h
  rcases h with ⟨old, _, hold⟩
  rw [← hold]

theorem RowsInv.reloadData {s : SelectUsersViewController} (hs : s.RowsInv) (users : List User)
    (huids : (users.map User.uid).Nodup) (hloaded : s.loaded = false → users = []) (reloads : Nat)
    : RowsInv { SelectUsersViewController.reloadData { s with users := users } with
        reloads := reloads } := by
  constructor
  case uids => exact huids
  case tempUids => exact hs.tempUids
  case loaded =>
    intro hunloaded
    have hnil := hloaded hunloaded
    exact ⟨(hs.loaded hunloaded).left, hnil, by rw [hnil]; rfl⟩
  case onScreen =>
    intro cell hcell row hrow
    rw [row_eq_none_of_mem_map hcell] at hrow
    contradiction
  case rows =>
    apply List.distinctValues_of_forall_eq_none
    intro cell hcell
    exact row_eq_none_of_mem_map hcell

-- A cell is put on the screen, taken off it, or tapped.
theorem RowsInv.setCell {s : SelectUsersViewController} (hs : s.RowsInv) {i : Nat}
    (new : ReusableCell) (hrow : ∀ row ∈ new.row, row < s.numberOfItems
      ∧ ∀ (j : Nat) (other : ReusableCell), s.cells[j]? = some other → other.row = some row → j = i)
    (taps : List Tap)
    : RowsInv { s with cells := s.cells.set i new, taps := taps } := by
  constructor
  case uids => exact hs.uids
  case tempUids => exact hs.tempUids
  case loaded => exact hs.loaded
  case onScreen =>
    intro cell hcell row hcellRow
    cases List.mem_or_eq_of_mem_set hcell with
    | inl hcell => exact hs.onScreen cell hcell row hcellRow
    | inr heq =>
      rw [heq] at hcellRow
      exact (hrow row hcellRow).left
  case rows => exact hs.rows.set (fun row hnew => (hrow row hnew).right)

theorem getElem?_newCell {cells : List ReusableCell} {i : Nat} {cell : ReusableCell}
    (h : (cells ++ [⟨UserInfoCell.new, none⟩])[i]? = some cell)
    : cells[i]? = some cell ∨ (i = cells.length ∧ cell = ⟨UserInfoCell.new, none⟩) := by
  rw [List.getElem?_append] at h
  split at h
  . exact Or.inl h
  . next hle =>
    rw [List.getElem?_singleton] at h
    split at h
    . next hzero =>
      injection h with h
      exact Or.inr ⟨by omega, h.symm⟩
    . contradiction

theorem mem_of_mem_newCell {cells : List ReusableCell} {cell : ReusableCell} {row : Nat}
    (h : cell ∈ cells ++ [⟨UserInfoCell.new, none⟩]) (hrow : cell.row = some row)
    : cell ∈ cells := by
  rw [List.mem_append, List.mem_singleton] at h
  cases h with
  | inl h => exact h
  | inr heq =>
    rw [heq] at hrow
    contradiction

theorem RowsInv.newCell {s : SelectUsersViewController} (hs : s.RowsInv)
    : RowsInv { s with cells := s.cells ++ [⟨UserInfoCell.new, none⟩] } := by
  constructor
  case uids => exact hs.uids
  case tempUids => exact hs.tempUids
  case loaded => exact hs.loaded
  case onScreen =>
    intro cell hcell row hrow
    exact hs.onScreen cell (mem_of_mem_newCell hcell hrow) row hrow
  case rows => exact hs.rows.concat rfl

theorem RowsInv.getAllUsers {s : SelectUsersViewController} (hs : s.RowsInv) {users : List User}
    (huids : (users.map User.uid).Nodup) (reloads : Nat)
    : RowsInv { s with users := users, tempUsers := users, loaded := true, reloads := reloads } := by
  constructor
  case uids => exact huids
  case tempUids => exact huids
  case loaded =>
    intro hcontra
    contradiction
  case onScreen => exact hs.onScreen
  case rows => exact hs.rows

theorem RowsInv.searched {s : SelectUsersViewController} (hs : s.RowsInv)
    (lowercased : String → String) (contains : String → String → Bool) (searchText : String)
    : ((SelectUsersViewController.searched lowercased contains s.tempUsers searchText).map
        User.uid).Nodup
        ∧ (s.loaded = false →
            SelectUsersViewController.searched lowercased contains s.tempUsers searchText = []) := by
  have hsublist := searched_sublist lowercased contains s.tempUsers searchText
  refine ⟨List.Nodup.sublist (hsublist.map User.uid) hs.tempUids, ?_⟩
  intro hunloaded
  rw [(hs.loaded hunloaded).left] at hsublist ⊢
  exact List.sublist_nil.mp hsublist

-- A cell stays alone on the row that it is given, or that it is on already.
theorem RowsInv.eq_of_row {s : SelectUsersViewController} (hs : s.RowsInv) {i : Nat}
    {cell : UserInfoCell} {row : Nat} (hcell : s.cells[i]? = some ⟨cell, some row⟩)
    : row < s.numberOfItems
        ∧ ∀ (j : Nat) (other : ReusableCell), s.cells[j]? = some other → other.row = some row →
          j = i := by
  refine ⟨hs.onScreen _ (List.mem_of_getElem? hcell) row rfl, ?_⟩
  intro j other hother hrow
  exact hs.rows j i other _ row hother hcell hrow rfl

theorem rowsInv_step {s s' : SelectUsersViewController} {e : Event} (hs : s.RowsInv)
    (hstep : (selectUsers lowercased contains).step s e = some s') : s'.RowsInv := by
  cases e with
  | getAllUsers users =>
    rcases step_getAllUsers hstep with ⟨⟨_, huids⟩, hs'⟩
    rw [hs']
    exact hs.getAllUsers huids _
  | reloadData =>
    rw [step_reloadData hstep]
    exact hs.reloadData _ hs.uids (fun hunloaded => (hs.loaded hunloaded).right.left) _
  | newCell =>
    simp only [selectUsers, step] at hstep
    injection hstep with hstep
    rw [← hstep]
    exact hs.newCell
  | cellForItem row i =>
    rcases step_cellForItem hstep with ⟨cell, user, _, _, hlt, hfree, hs'⟩
    rw [hs']
    apply hs.setCell _ _ s.taps
    intro row' hrow'
    rw [Option.mem_some_iff] at hrow'
    rw [← hrow']
    refine ⟨hlt, ?_⟩
    intro j other hother hrow
    exact absurd hrow (hfree other (List.mem_of_getElem? hother))
  | didEndDisplaying i =>
    rcases step_didEndDisplaying hstep with ⟨cell, row, _, hs'⟩
    rw [hs']
    apply hs.setCell ⟨cell, none⟩ _ s.taps
    intro row' hrow'
    contradiction
  | buttonClicked i =>
    rcases step_buttonClicked hstep with ⟨cell, row, user, hcell, _, hs'⟩
    rw [hs']
    apply hs.setCell
    intro row' hrow'
    rw [Option.mem_some_iff] at hrow'
    rw [← hrow']
    exact hs.eq_of_row hcell
  | textDidChange searchText =>
    simp only [selectUsers, step] at hstep
    injection hstep with hstep
    rw [← hstep]
    have hsearched := hs.searched lowercased contains searchText
    exact hs.reloadData _ hsearched.left hsearched.right s.reloads

structure SelectionInv (s : SelectUsersViewController) : Prop where
  uids : (s.users.map User.uid).Nodup
  tempUids : (s.tempUsers.map User.uid).Nodup
  -- no rows before the users are there
  loaded : s.loaded = false → s.tempUsers = [] ∧ s.users = [] ∧ s.numberOfItems = 0
  onScreen : ∀ cell ∈ s.cells, ∀ row ∈ cell.row, row < s.numberOfItems
  rows : ∀ (i j : Nat) (cell cell' : ReusableCell) (row : Nat), s.cells[i]? = some cell →
    s.cells[j]? = some cell' → cell.row = some row → cell'.row = some row → i = j
  known : ∀ tap ∈ s.taps, tap.cell < s.cells.length
  checked : ∀ (i : Nat) (cell : ReusableCell), s.cells[i]? = some cell →
    cell.cell.checkBox.isChecked = s.cellTapped i
  marks : s.MarksUsers

theorem SelectionInv.rowsInv {s : SelectUsersViewController} (hs : s.SelectionInv) : s.RowsInv := by
  constructor
  case uids => exact hs.uids
  case tempUids => exact hs.tempUids
  case loaded => exact hs.loaded
  case onScreen => exact hs.onScreen
  case rows => exact hs.rows

theorem RowsInv.selectionInv {s : SelectUsersViewController} (hs : s.RowsInv)
    (hknown : ∀ tap ∈ s.taps, tap.cell < s.cells.length)
    (hchecked : ∀ (i : Nat) (cell : ReusableCell), s.cells[i]? = some cell →
      cell.cell.checkBox.isChecked = s.cellTapped i)
    (hmarks : s.MarksUsers) : s.SelectionInv := by
  constructor
  case uids => exact hs.uids
  case tempUids => exact hs.tempUids
  case loaded => exact hs.loaded
  case onScreen => exact hs.onScreen
  case rows => exact hs.rows
  case known => exact hknown
  case checked => exact hchecked
  case marks => exact hmarks

theorem selectionInv_viewDidLoad (showCheckBox : Bool) : (viewDidLoad showCheckBox).SelectionInv := by
  apply (rowsInv_viewDidLoad showCheckBox).selectionInv
  . intros
    contradiction
  . intros
    contradiction
  . intro cell hcell
    contradiction

theorem SelectionInv.reloadData {s : SelectUsersViewController} (hs : s.SelectionInv)
    {users : List User} {reloads : Nat}
    (hrows : RowsInv { SelectUsersViewController.reloadData { s with users := users } with
      reloads := reloads })
    : SelectionInv { SelectUsersViewController.reloadData { s with users := users } with
        reloads := reloads } := by
  apply hrows.selectionInv
  . intro tap htap
    dsimp [SelectUsersViewController.reloadData]
    rw [List.length_map]
    exact hs.known tap htap
  . intro i cell hcell
    dsimp [SelectUsersViewController.reloadData] at hcell
    rw [List.getElem?_map, Option.map_eq_some_iff] at hcell
    rcases hcell with ⟨old, hold, heq⟩
    rw [← heq]
    exact hs.checked i old hold
  . intro cell hcell row hrow
    rw [row_eq_none_of_mem_map hcell] at hrow
    contradiction

-- A cell is put on the screen or taken off it, as it is.
theorem SelectionInv.setCell {s : SelectUsersViewController} (hs : s.SelectionInv) {i : Nat}
    {old : ReusableCell} (hold : s.cells[i]? = some old) (new : ReusableCell)
    (hchecked : new.cell.checkBox.isChecked = old.cell.checkBox.isChecked)
    (hrow : ∀ row ∈ new.row, ∀ user ∈ s.users[row]?, s.cellTapped i = s.tapped user.uid)
    (hrows : RowsInv { s with cells := s.cells.set i new })
    : SelectionInv { s with cells := s.cells.set i new } := by
  apply hrows.selectionInv
  . intro tap htap
    rw [List.length_set]
    exact hs.known tap htap
  . intro j cell hcell
    rcases List.eq_or_getElem?_of_getElem?_set hcell with ⟨hj, heq⟩ | ⟨_, hcell⟩
    . rw [heq, hj, hchecked]
      exact hs.checked i old hold
    . exact hs.checked j cell hcell
  . intro cell hcell row hcellRow user huser
    cases List.mem_or_eq_of_mem_set hcell with
    | inl hcell => exact hs.marks cell hcell row hcellRow user huser
    | inr heq =>
      rw [heq] at hcellRow ⊢
      rw [hchecked, hs.checked i old hold]
      exact hrow row hcellRow user huser

theorem SelectionInv.newCell {s : SelectUsersViewController} (hs : s.SelectionInv)
    : SelectionInv { s with cells := s.cells ++ [⟨UserInfoCell.new, none⟩] } := by
  apply hs.rowsInv.newCell.selectionInv
  . intro tap htap
    rw [List.length_append]
    exact Nat.lt_add_right _ (hs.known tap htap)
  . intro i cell hcell
    rcases getElem?_newCell hcell with hcell | ⟨hi, heq⟩
    . exact hs.checked i cell hcell
    . rw [heq, hi]
      symm
      apply oddly_eq_false
      intro tap htap
      have hlt := hs.known tap htap
      simp
      omega
  . intro cell hcell row hrow user huser
    exact hs.marks cell (mem_of_mem_newCell hcell hrow) row hrow user huser

theorem RowsInv.row_eq {s : SelectUsersViewController} (hs : s.RowsInv) {row row' : Nat}
    {user user' : User} (huser : s.users[row]? = some user) (huser' : s.users[row']? = some user')
    (huid : user'.uid = user.uid) : row' = row := by
  have hlt := (List.getElem?_eq_some_iff.mp huser').choose
  have hlt' : row' < (s.users.map User.uid).length := by
    rw [List.length_map]
    exact hlt
  rw [← List.getElem?_inj hlt' hs.uids, List.getElem?_map, List.getElem?_map, huser, huser',
    Option.map_some, Option.map_some, huid]

theorem SelectionInv.buttonClicked {s : SelectUsersViewController} (hs : s.SelectionInv) {i : Nat}
    {cell : UserInfoCell} {row : Nat} {user : User} (hcell : s.cells[i]? = some ⟨cell, some row⟩)
    (huser : s.users[row]? = some user)
    (hrows : RowsInv {
      s with
      cells := s.cells.set i ⟨{ cell with checkBox := cell.checkBox.buttonClicked }, some row⟩
      taps := s.taps ++ [⟨i, user.uid⟩]
    })
    : SelectionInv {
        s with
        cells := s.cells.set i ⟨{ cell with checkBox := cell.checkBox.buttonClicked }, some row⟩
        taps := s.taps ++ [⟨i, user.uid⟩]
      } := by
  apply hrows.selectionInv
  . intro tap htap
    rw [List.length_set]
    rw [List.mem_append, List.mem_singleton] at htap
    cases htap with
    | inl htap => exact hs.known tap htap
    | inr heq =>
      rw [heq]
      exact (List.getElem?_eq_some_iff.mp hcell).choose
  . intro j cell' hcell'
    unfold cellTapped
    rw [oddly_concat]
    rcases List.eq_or_getElem?_of_getElem?_set hcell' with ⟨hj, heq⟩ | ⟨hj, hcell'⟩
    . have hchecked := hs.checked i _ hcell
      rw [heq, hj, if_pos (by simp)]
      exact congrArg Bool.not hchecked
    . rw [if_neg (by simpa using hj.symm)]
      exact hs.checked j cell' hcell'
  . intro cell' hcell' row' hrow' user' huser'
    rw [List.mem_iff_getElem?] at hcell'
    rcases hcell' with ⟨j, hcell'⟩
    unfold tapped
    rw [oddly_concat]
    rcases List.eq_or_getElem?_of_getElem?_set hcell' with ⟨_, heq⟩ | ⟨hj, hcell'⟩
    . rw [heq, Option.mem_some_iff] at hrow'
      rw [Option.mem_def, ← hrow', huser] at huser'
      injection huser' with huser'
      have hmarks := hs.marks _ (List.mem_of_getElem? hcell) row rfl user huser
      rw [heq, huser', if_pos (by simp)]
      rw [huser'] at hmarks
      exact congrArg Bool.not hmarks
    -- Every other cell is on screen for somebody else.
    . have hne : user'.uid ≠ user.uid := by
        intro huid
        have hrow := hs.rowsInv.row_eq huser huser' huid
        rw [hrow] at hrow'
        exact hj (hs.rows j i cell' _ row hcell' hcell hrow' rfl)
      rw [if_neg (by simpa using hne.symm)]
      exact hs.marks cell' (List.mem_of_getElem? hcell') row' hrow' user' huser'

theorem selectionInv_step {s s' : SelectUsersViewController} {e : Event} (hs : s.SelectionInv)
    (hstep : (selectUsers lowercased contains).step s e = some s') (halike : s.HandsOutAlike e)
    : s'.SelectionInv := by
  have hrows := rowsInv_step hs.rowsInv hstep
  cases e with
  | getAllUsers users =>
    rcases step_getAllUsers hstep with ⟨⟨hunloaded, _⟩, hs'⟩
    rw [hs'] at hrows ⊢
    apply hrows.selectionInv hs.known hs.checked
    intro cell hcell row hrow
    have hlt := hs.onScreen cell hcell row hrow
    rw [(hs.loaded hunloaded).right.right] at hlt
    contradiction
  | reloadData =>
    rw [step_reloadData hstep] at hrows ⊢
    exact hs.reloadData hrows
  | newCell =>
    simp only [selectUsers, step] at hstep
    injection hstep with hstep
    rw [← hstep]
    exact hs.newCell
  | cellForItem row i =>
    rcases step_cellForItem hstep with ⟨cell, user, hcell, _, _, _, hs'⟩
    rw [hs'] at hrows ⊢
    apply hs.setCell hcell _ (isChecked_cellForItem s cell user) _ hrows
    intro row' hrow'
    rw [Option.mem_some_iff] at hrow'
    rw [← hrow']
    exact halike
  | didEndDisplaying i =>
    rcases step_didEndDisplaying hstep with ⟨cell, row, hcell, hs'⟩
    rw [hs'] at hrows ⊢
    apply hs.setCell hcell ⟨cell, none⟩ rfl _ hrows
    intro row' hrow'
    contradiction
  | buttonClicked i =>
    rcases step_buttonClicked hstep with ⟨cell, row, user, hcell, huser, hs'⟩
    rw [hs'] at hrows ⊢
    exact hs.buttonClicked hcell huser hrows
  | textDidChange searchText =>
    simp only [selectUsers, step] at hstep
    injection hstep with hstep
    rw [← hstep] at hrows ⊢
    exact hs.reloadData hrows

theorem handsOutAlike_of_marksUsers {s s' : SelectUsersViewController} {e : Event}
    (hs : s.SelectionInv) (hstep : (selectUsers lowercased contains).step s e = some s')
    (hmarks : s'.MarksUsers) : s.HandsOutAlike e := by
  cases e with
  | cellForItem row i =>
    rcases step_cellForItem hstep with ⟨cell, user, hcell, huser, _, _, hs'⟩
    rw [hs'] at hmarks
    have hlt := (List.getElem?_eq_some_iff.mp hcell).choose
    intro user' huser'
    have hmark := hmarks _ (List.mem_set hlt _) row rfl user' huser'
    dsimp only at hmark
    rw [isChecked_cellForItem] at hmark
    rw [← hs.checked i _ hcell]
    exact hmark
  | getAllUsers | reloadData | newCell | didEndDisplaying | buttonClicked | textDidChange => trivial

theorem marksUsers_iff_handsOutAlike (lowercased : String → String)
    (contains : String → String → Bool) (es : List Event)
    : (selectUsers lowercased contains).Meets (fun _ _ s' => s'.MarksUsers) (viewDidLoad true) es
        ↔
      (selectUsers lowercased contains).Meets (fun s e _ => s.HandsOutAlike e) (viewDidLoad true)
        es := by
  apply Machine.meets_congr _ _ (selectionInv_viewDidLoad true)
  . intro s e s' hs hstep hmarks
    exact selectionInv_step hs hstep (handsOutAlike_of_marksUsers hs hstep hmarks)
  . intro s e s' hs hstep
    constructor
    . exact handsOutAlike_of_marksUsers hs hstep
    . intro halike
      exact (selectionInv_step hs hstep halike).marks

-- Ann is checked, then the row of Bob gets her cell.
def recycledRun : List Event :=
  [
    .getAllUsers
      [⟨"a", "Ann", "A", "ann@mail.org", "pa", 1, false⟩,
        ⟨"b", "Bob", "B", "bob@mail.org", "pb", 2, false⟩],
    .reloadData, .newCell, .cellForItem 0 0, .buttonClicked 0, .didEndDisplaying 0, .cellForItem 1 0
  ]

theorem not_marksUsers
    : ¬∀ (lowercased : String → String) (contains : String → String → Bool) (es : List Event),
        (selectUsers lowercased contains).Meets (fun _ _ s' => s'.MarksUsers) (viewDidLoad true)
          es := by
  intro h
  exact absurd (h String.toLower (fun _ _ => false) recycledRun) (by decide)

end SelectUsersViewController

end ChatApplication
