import ChatApplication.Controller.CreateGroupController
import ChatApplication.Controller.SelectUsersViewController

/-!
This module contains what Done hands over to `createGroup`. The loop runs over the rows of the list
as it is filtered at that time, and reads the choice from the cells on the screen.
-/

namespace ChatApplication

namespace SelectUsersViewController

open NavigationController (usersId usersId_concat)

-- `collectionView.cellForItem(at:)`
def cellForItemAt (s : SelectUsersViewController) (row : Nat) : Option UserInfoCell :=
  (s.cells.find? (fun cell => cell.row = some row)).map ReusableCell.cell

-- The body of the loop. `none` is where the forced cast or the index traps.
def selectRow (s : SelectUsersViewController) (selected : String × List User) (row : Nat)
    : Option (String × List User) :=
  match s.cellForItemAt row with
  | some cell =>
    if cell.checkBox.isChecked then
      match s.users[row]? with
      | some user => some (selected.fst ++ user.uid, selected.snd ++ [user])
      | none => none
    else
      some selected
  | none => none

def getSelectedContacts (s : SelectUsersViewController) : Option (String × List User) :=
  (List.range s.numberOfItems).foldlM s.selectRow ("", [])

-- the arguments of the call of `createGroup`
def contactsSelected (s : SelectUsersViewController) : Option (String × List User) :=
  s.getSelectedContacts

-- `createGroup` receives who was checked and not unchecked, each once.
def DeliversSelection (s : SelectUsersViewController) : Prop :=
  ∃ selectedUsers, s.contactsSelected = some (usersId selectedUsers, selectedUsers)
    ∧ selectedUsers.Nodup
    ∧ ∀ user, user ∈ selectedUsers ↔ user ∈ s.tempUsers ∧ s.tapped user.uid

-- The list fits the screen, the boxes mark their users and the filter hides nobody who was checked.
structure ShowsSelection (s : SelectUsersViewController) : Prop where
  onScreen : ∀ row < s.numberOfItems, ∃ cell ∈ s.cells, cell.row = some row
  marks : s.MarksUsers
  listed : ∀ user ∈ s.tempUsers, s.tapped user.uid → user ∈ s.users

-- what a row contributes if there is a cell for it
def selectedAt (s : SelectUsersViewController) (row : Nat) : Option User :=
  if (s.cellForItemAt row).any (fun cell => cell.checkBox.isChecked) then s.users[row]? else none

theorem selectRow_eq {s : SelectUsersViewController} {row : Nat}
    (hcell : (s.cellForItemAt row).isSome) (hrow : row < s.users.length) (selectedUsers : List User)
    : s.selectRow (usersId selectedUsers, selectedUsers) row
        =
      some (
        usersId (selectedUsers ++ (s.selectedAt row).toList),
        selectedUsers ++ (s.selectedAt row).toList
      ) := by
  rcases Option.isSome_iff_exists.mp hcell with ⟨cell, hcell⟩
  have huser := List.getElem?_eq_getElem hrow
  unfold selectRow selectedAt
  rw [hcell, huser]
  cases hchecked : cell.checkBox.isChecked with
  | true => simp [hchecked, usersId_concat]
  | false => simp [hchecked]

theorem foldlM_selectRow {s : SelectUsersViewController} {rows : List Nat}
    (hcells : ∀ row ∈ rows, (s.cellForItemAt row).isSome)
    (hrows : ∀ row ∈ rows, row < s.users.length) (selectedUsers : List User)
    : rows.foldlM s.selectRow (usersId selectedUsers, selectedUsers)
        =
      some (
        usersId (selectedUsers ++ rows.filterMap s.selectedAt),
        selectedUsers ++ rows.filterMap s.selectedAt
      ) := by
  induction rows generalizing selectedUsers with
  | nil => simp
  | cons row rows ih =>
    rw [List.forall_mem_cons] at hcells hrows
    have hcons : (row :: rows).filterMap s.selectedAt
        = (s.selectedAt row).toList ++ rows.filterMap s.selectedAt := by
      cases hrow : s.selectedAt row with
      | none => simp [hrow]
      | some user => simp [hrow]
    rw [List.foldlM_cons, selectRow_eq hcells.left hrows.left, hcons, ← List.append_assoc]
    exact ih hcells.right hrows.right _

theorem isSome_cellForItemAt_of_foldlM {s : SelectUsersViewController} {rows : List Nat}
    {selected result : String × List User} (h : rows.foldlM s.selectRow selected = some result)
    : ∀ row ∈ rows, (s.cellForItemAt row).isSome := by
  induction rows generalizing selected with
  | nil => simp
  | cons row rows ih =>
    rw [List.foldlM_cons, Option.bind_eq_bind, Option.bind_eq_some_iff] at h
    rcases h with ⟨next, hnext, hrest⟩
    rw [List.forall_mem_cons]
    refine ⟨?_, ih hrest⟩
    unfold selectRow at hnext
    split at hnext
    . next cell hcell =>
      rw [hcell]
      rfl
    . contradiction

-- no two cells are on one row
theorem RowsInv.cellForItemAt_eq_some {s : SelectUsersViewController} (hs : s.RowsInv) {row : Nat}
    {cell : UserInfoCell}
    : s.cellForItemAt row = some cell ↔ ⟨cell, some row⟩ ∈ s.cells := by
  unfold cellForItemAt
  rw [Option.map_eq_some_iff]
  constructor
  . rintro ⟨found, hfound, hcell⟩
    have hrow := List.find?_some hfound
    rw [decide_eq_true_eq] at hrow
    rw [← hcell, ← hrow]
    exact List.mem_of_find?_eq_some hfound
  . intro hmem
    cases hfound : s.cells.find? (fun cell => cell.row = some row) with
    | none =>
      rw [List.find?_eq_none] at hfound
      simpa using hfound _ hmem
    | some found =>
      have hrow := List.find?_some hfound
      rw [decide_eq_true_eq] at hrow
      have hfound' := List.mem_of_find?_eq_some hfound
      rw [List.mem_iff_getElem?] at hmem hfound'
      rcases hmem with ⟨i, hi⟩
      rcases hfound' with ⟨j, hj⟩
      have hij := hs.rows i j _ found row hi hj rfl hrow
      rw [hij, hj] at hi
      injection hi with hi
      exact ⟨found, rfl, by rw [hi]⟩

structure ListInv (s : SelectUsersViewController) : Prop where
  rows : s.RowsInv
  sublist : s.users.Sublist s.tempUsers
  untapped : s.loaded = false → s.taps = []
  -- The collection view has not reloaded since the users arrived.
  count : s.numberOfItems = s.users.length ∨ (s.numberOfItems = 0 ∧ s.taps = [])

theorem listInv_viewDidLoad (showCheckBox : Bool) : (viewDidLoad showCheckBox).ListInv := by
  constructor
  case rows => exact rowsInv_viewDidLoad showCheckBox
  case sublist => exact List.Sublist.refl []
  case untapped => exact fun _ => rfl
  case count => exact Or.inl rfl

theorem listInv_step {s s' : SelectUsersViewController} {e : Event} (hs : s.ListInv)
    (hstep : (selectUsers lowercased contains).step s e = some s') : s'.ListInv := by
  have hrows := rowsInv_step hs.rows hstep
  cases e with
  | getAllUsers users =>
    rcases step_getAllUsers hstep with ⟨⟨hunloaded, _⟩, hs'⟩
    rw [hs'] at hrows ⊢
    constructor
    case rows => exact hrows
    case sublist => exact List.Sublist.refl users
    case untapped =>
      intro hcontra
      contradiction
    case count => exact Or.inr ⟨(hs.rows.loaded hunloaded).right.right, hs.untapped hunloaded⟩
  | reloadData =>
    rw [step_reloadData hstep] at hrows ⊢
    constructor
    case rows => exact hrows
    case sublist => exact hs.sublist
    case untapped => exact hs.untapped
    case count => exact Or.inl rfl
  | newCell =>
    simp only [selectUsers, step] at hstep
    injection hstep with hstep
    rw [← hstep] at hrows ⊢
    exact ⟨hrows, hs.sublist, hs.untapped, hs.count⟩
  | cellForItem row i =>
    rcases step_cellForItem hstep with ⟨_, _, _, _, _, _, hs'⟩
    rw [hs'] at hrows ⊢
    exact ⟨hrows, hs.sublist, hs.untapped, hs.count⟩
  | didEndDisplaying i =>
    rcases step_didEndDisplaying hstep with ⟨_, _, _, hs'⟩
    rw [hs'] at hrows ⊢
    exact ⟨hrows, hs.sublist, hs.untapped, hs.count⟩
  | buttonClicked i =>
    rcases step_buttonClicked hstep with ⟨cell, row, user, hcell, _, hs'⟩
    have hlt := (hs.rows.eq_of_row hcell).left
    rw [hs'] at hrows ⊢
    constructor
    case rows => exact hrows
    case sublist => exact hs.sublist
    case untapped =>
      intro hunloaded
      rw [(hs.rows.loaded hunloaded).right.right] at hlt
      contradiction
    case count =>
      left
      cases hs.count with
      | inl hcount => exact hcount
      | inr hempty =>
        rw [hempty.left] at hlt
        contradiction
  | textDidChange searchText =>
    simp only [selectUsers, step] at hstep
    injection hstep with hstep
    rw [← hstep] at hrows ⊢
    constructor
    case rows => exact hrows
    case sublist => exact searched_sublist lowercased contains s.tempUsers searchText
    case untapped => exact hs.untapped
    case count => exact Or.inl rfl

theorem ListInv.lt_length {s : SelectUsersViewController} (hs : s.ListInv) {row : Nat}
    (h : row < s.numberOfItems) : row < s.users.length := by
  cases hs.count with
  | inl hcount => omega
  | inr hempty => omega

theorem mem_filterMap_selectedAt {s : SelectUsersViewController} {user : User}
    : user ∈ (List.range s.numberOfItems).filterMap s.selectedAt
        ↔
      ∃ row < s.numberOfItems, s.users[row]? = some user
        ∧ ∃ cell, s.cellForItemAt row = some cell ∧ cell.checkBox.isChecked := by
  simp only [List.mem_filterMap, List.mem_range, selectedAt, Option.ite_none_right_eq_some,
    Option.any_eq_true]
  constructor
  . rintro ⟨row, hrow, hcell, huser⟩
    exact ⟨row, hrow, huser, hcell⟩
  . rintro ⟨row, hrow, huser, hcell⟩
    exact ⟨row, hrow, hcell, huser⟩

theorem RowsInv.nodup_filterMap_selectedAt {s : SelectUsersViewController} (hs : s.RowsInv)
    : ((List.range s.numberOfItems).filterMap s.selectedAt).Nodup := by
  apply List.Nodup.filterMap _ List.nodup_range
  intro row row' user huser huser'
  simp only [selectedAt, Option.mem_def, Option.ite_none_right_eq_some] at huser huser'
  exact hs.row_eq huser'.right huser.right rfl

theorem ListInv.contactsSelected_eq {s : SelectUsersViewController} (hs : s.ListInv)
    (hcells : ∀ row < s.numberOfItems, (s.cellForItemAt row).isSome)
    : s.contactsSelected
        =
      some (
        usersId ((List.range s.numberOfItems).filterMap s.selectedAt),
        (List.range s.numberOfItems).filterMap s.selectedAt
      ) := by
  have hcellsOfRange : ∀ row ∈ List.range s.numberOfItems, (s.cellForItemAt row).isSome := by
    intro row hrow
    exact hcells row (List.mem_range.mp hrow)
  have hrows : ∀ row ∈ List.range s.numberOfItems, row < s.users.length := by
    intro row hrow
    exact hs.lt_length (List.mem_range.mp hrow)
  exact foldlM_selectRow hcellsOfRange hrows []

theorem isSome_cellForItemAt_of_contactsSelected {s : SelectUsersViewController}
    {selected : String × List User} (h : s.contactsSelected = some selected)
    : ∀ row < s.numberOfItems, (s.cellForItemAt row).isSome := by
  intro row hrow
  exact isSome_cellForItemAt_of_foldlM h row (List.mem_range.mpr hrow)

theorem ListInv.delivers {s : SelectUsersViewController} (hs : s.ListInv) (h : s.ShowsSelection)
    : s.DeliversSelection := by
  have hcells : ∀ row < s.numberOfItems, (s.cellForItemAt row).isSome := by
    intro row hrow
    rcases h.onScreen row hrow with ⟨⟨cell, _⟩, hmem, hcellRow⟩
    dsimp only at hcellRow
    rw [hcellRow] at hmem
    rw [hs.rows.cellForItemAt_eq_some.mpr hmem]
    rfl
  refine ⟨_, hs.contactsSelected_eq hcells, hs.rows.nodup_filterMap_selectedAt, ?_⟩
  intro user
  rw [mem_filterMap_selectedAt]
  constructor
  . rintro ⟨row, _, huser, cell, hcell, hchecked⟩
    rw [hs.rows.cellForItemAt_eq_some] at hcell
    refine ⟨hs.sublist.subset (List.mem_of_getElem? huser), ?_⟩
    rw [← h.marks _ hcell row rfl user huser]
    exact hchecked
  . rintro ⟨huser, htapped⟩
    rcases List.mem_iff_getElem?.mp (h.listed user huser htapped) with ⟨row, hrow⟩
    have hlt : row < s.numberOfItems := by
      cases hs.count with
      | inl hcount =>
        rw [hcount]
        exact (List.getElem?_eq_some_iff.mp hrow).choose
      | inr hempty =>
        unfold tapped at htapped
        rw [hempty.right] at htapped
        contradiction
    rcases Option.isSome_iff_exists.mp (hcells row hlt) with ⟨cell, hcell⟩
    refine ⟨row, hlt, hrow, cell, hcell, ?_⟩
    rw [hs.rows.cellForItemAt_eq_some] at hcell
    rw [← htapped]
    exact h.marks _ hcell row rfl user hrow

theorem ListInv.shows {s : SelectUsersViewController} (hs : s.ListInv) (h : s.DeliversSelection)
    : s.ShowsSelection := by
  rcases h with ⟨selectedUsers, hselected, _, hmem⟩
  have hcells := isSome_cellForItemAt_of_contactsSelected hselected
  rw [hs.contactsSelected_eq hcells] at hselected
  injection hselected with hselected
  injection hselected with _ hselected
  simp only [← hselected, mem_filterMap_selectedAt] at hmem
  constructor
  case onScreen =>
    intro row hrow
    rcases Option.isSome_iff_exists.mp (hcells row hrow) with ⟨cell, hcell⟩
    exact ⟨_, hs.rows.cellForItemAt_eq_some.mp hcell, rfl⟩
  case marks =>
    rintro ⟨cell, _⟩ hcell row hrow user huser
    rw [Option.mem_def] at hrow
    dsimp only at hrow
    rw [hrow] at hcell
    rw [← hs.rows.cellForItemAt_eq_some] at hcell
    rw [Bool.eq_iff_iff]
    constructor
    . intro hchecked
      have hlt := hs.rows.onScreen _ (hs.rows.cellForItemAt_eq_some.mp hcell) row rfl
      exact ((hmem user).mp ⟨row, hlt, huser, cell, hcell, hchecked⟩).right
    . intro htapped
      have huser' := hs.sublist.subset (List.mem_of_getElem? huser)
      rcases (hmem user).mpr ⟨huser', htapped⟩ with ⟨row', _, hrow', cell', hcell', hchecked⟩
      rw [hs.rows.row_eq huser hrow' rfl, hcell] at hcell'
      injection hcell' with hcell'
      rw [hcell']
      exact hchecked
  case listed =>
    intro user huser htapped
    rcases (hmem user).mpr ⟨huser, htapped⟩ with ⟨row, _, hrow, _⟩
    exact List.mem_of_getElem? hrow

theorem deliversSelection_iff_showsSelection (lowercased : String → String)
    (contains : String → String → Bool) (es : List Event) (s : SelectUsersViewController)
    (h : (selectUsers lowercased contains).exec (viewDidLoad true) es = some s)
    : s.DeliversSelection ↔ s.ShowsSelection := by
  have hpreserves : (selectUsers lowercased contains).Preserves ListInv :=
    fun _ _ _ hs hstep => listInv_step hs hstep
  have hs := Machine.exec_preserves hpreserves (listInv_viewDidLoad true) h
  exact ⟨hs.shows, hs.delivers⟩

-- Both rows are on the screen, and Bob is picked.
def pickedRun : List Event :=
  [
    .getAllUsers
      [⟨"a", "Ann", "A", "ann@mail.org", "pa", 1, false⟩,
        ⟨"b", "Bob", "B", "bob@mail.org", "pb", 2, false⟩],
    .reloadData, .newCell, .cellForItem 0 0, .newCell, .cellForItem 1 1, .buttonClicked 1
  ]

theorem deliversSelection_iff_showsSelection_pickedRun
    : ∃ s, (selectUsers String.toLower (fun _ _ => false)).exec (viewDidLoad true) pickedRun = some s
        ∧ s.contactsSelected = some ("b", [⟨"b", "Bob", "B", "bob@mail.org", "pb", 2, false⟩])
        ∧ s.DeliversSelection ∧ (s.DeliversSelection ↔ s.ShowsSelection) := by
  have hiff := deliversSelection_iff_showsSelection String.toLower (fun _ _ => false) pickedRun _ rfl
  exact ⟨_, rfl, rfl, hiff.mpr ⟨by decide, by decide, by decide⟩, hiff⟩

-- There is room for one row, and Bob is in the second one.
def tallRun : List Event :=
  [
    .getAllUsers
      [⟨"a", "Ann", "A", "ann@mail.org", "pa", 1, false⟩,
        ⟨"b", "Bob", "B", "bob@mail.org", "pb", 2, false⟩],
    .reloadData, .newCell, .cellForItem 0 0, .buttonClicked 0
  ]

theorem not_deliversSelection
    : ¬∀ (lowercased : String → String) (contains : String → String → Bool) (es : List Event)
        (s : SelectUsersViewController),
        (selectUsers lowercased contains).exec (viewDidLoad true) es = some s →
        s.DeliversSelection := by
  intro h
  rcases h String.toLower (fun _ _ => false) tallRun _ rfl with ⟨selectedUsers, hselected, _⟩
  contradiction

end SelectUsersViewController

end ChatApplication
