import ChatApplication.Controller.ConversationViewController.Rows

/-!
This module contains when the rows of the conversation screen show the conversations that they open.
A row is served as long as the labels of its user, or alike ones, are on the cell or still on the
way to it.
-/

namespace ChatApplication

-- what a row may show of a message
def Message.rowTexts (calendar : DeviceCalendar) (message : Message) : String × String × String :=
  (
    message.text,
    calendar.getFormattedDate "MM/dd/yyyy" message.timestamp,
    calendar.getFormattedDate "HH:mm" message.timestamp
  )

-- The users look the same in a row.
def RecentUser.Alike (calendar : DeviceCalendar) (user user' : RecentUser) : Prop :=
  user.user.firstName ++ " " ++ user.user.lastName
      = user'.user.firstName ++ " " ++ user'.user.lastName
    ∧ user.recentMessage.map (Message.rowTexts calendar)
      = user'.recentMessage.map (Message.rowTexts calendar)

instance (calendar : DeviceCalendar) (user user' : RecentUser)
    : Decidable (user.Alike calendar user') :=
  inferInstanceAs (Decidable (_ ∧ _))

def MainBlock.setup? : MainBlock → Option SetupBlock
  | .reloadData => none
  | .setup block => some block

namespace ConversationRows

variable {Image : Type u}

def pendingBlocks (s : ConversationRows Image) : List SetupBlock :=
  s.globalQueue ++ s.mainQueue.filterMap MainBlock.setup?

-- A block is pending that brings what the user looks like to the row.
def Awaits (calendar : DeviceCalendar) (s : ConversationRows Image) (row : Nat) (user : RecentUser)
    : Prop :=
  ∃ block ∈ s.pendingBlocks, block.row = row
    ∧ ∃ user' ∈ s.controller.object block.user, user'.Alike calendar user

instance (calendar : DeviceCalendar) (s : ConversationRows Image) (row : Nat) (user : RecentUser)
    : Decidable (s.Awaits calendar row user) :=
  inferInstanceAs (Decidable (∃ block ∈ s.pendingBlocks, _ ∧ _))

def Served (calendar : DeviceCalendar) (s : ConversationRows Image) (row : Nat)
    (cell : ConversationCell Image) : Prop :=
  ∃ user ∈ s.userAt row, cell.Shows calendar user ∨ s.Awaits calendar row user

instance (calendar : DeviceCalendar) (s : ConversationRows Image) (row : Nat)
    (cell : ConversationCell Image) : Decidable (s.Served calendar row cell) :=
  inferInstanceAs (Decidable (∃ user ∈ s.userAt row, _ ∨ _))

-- What is left in the main queue is about to release all cells, the row of its first block is off
-- the screen, or there is a block for the row which brings what its user looks like.
def ServesBlock (calendar : DeviceCalendar) (s : ConversationRows Image) : List MainBlock → Prop
  | .setup block :: mainQueue =>
    .reloadData ∈ mainQueue
      ∨ (∀ cell ∈ s.cells, cell.place ≠ .onScreen block.row)
      ∨ ∃ user ∈ s.userAt block.row,
          (∃ user' ∈ s.controller.object block.user, user'.Alike calendar user)
            ∨ Awaits calendar { s with mainQueue := mainQueue } block.row user
  | .reloadData :: _ => True
  | [] => True

instance (calendar : DeviceCalendar) (s : ConversationRows Image)
    : (mainQueue : List MainBlock) → Decidable (s.ServesBlock calendar mainQueue)
  | .setup _ :: _ => inferInstanceAs (Decidable (_ ∨ _ ∨ ∃ user ∈ s.userAt _, _ ∨ _))
  | .reloadData :: _ => isTrue trivial
  | [] => isTrue trivial

-- Unless all cells are about to be released, a cell comes on the screen only while it is served,
-- and the last block that is right for a row on the screen is not run before one that is wrong.
def ServesRows (calendar : DeviceCalendar) (s : ConversationRows Image) : Event Image → Prop
  | .willDisplay i =>
    .reloadData ∈ s.mainQueue
      ∨ ∀ cell ∈ s.cells[i]?, ∀ row ∈ cell.place.row?, s.Served calendar row cell.cell
  | .mainBlock _ => s.ServesBlock calendar s.mainQueue
  | _ => True

instance (calendar : DeviceCalendar) (s : ConversationRows Image)
    : (e : Event Image) → Decidable (s.ServesRows calendar e)
  | .willDisplay _ => inferInstanceAs (Decidable (_ ∨ _))
  | .mainBlock _ => inferInstanceAs (Decidable (s.ServesBlock calendar s.mainQueue))
  | .controller _ | .signup _ | .firstLayout | .newCell | .cellForItemAt _ _ | .didEndDisplaying _
  | .enqueueReusableCell _ | .globalBlock _ | .imageDownloaded _ _ => isTrue trivial

end ConversationRows

namespace ConversationCell

variable {Image : Type u} {calendar : DeviceCalendar}

theorem shows_setup {user user' : RecentUser} (h : user.Alike calendar user') (now : Date)
    (cell : ConversationCell Image) : (cell.setup calendar now user).Shows calendar user' := by
  rcases h with ⟨hname, hmessage⟩
  unfold setup Shows
  cases hrecent : user.recentMessage with
  | none =>
    rw [hrecent, Option.map_none, eq_comm, Option.map_eq_none_iff] at hmessage
    rw [hmessage, hname]
    exact ⟨rfl, rfl, rfl⟩
  | some message =>
    rw [hrecent, Option.map_some, eq_comm, Option.map_eq_some_iff] at hmessage
    rcases hmessage with ⟨message', hrecent', htexts⟩
    injection htexts with htext hdates
    injection hdates with hday htime
    rw [hrecent', hname]
    refine ⟨rfl, htext.symm, ?_⟩
    rw [hday, htime]
    dsimp only
    split
    . exact Or.inl rfl
    . exact Or.inr rfl

end ConversationCell

namespace ConversationViewController

-- The list and the objects that exist stay as they are.
structure Keeps (s s' : ConversationViewController) : Prop where
  recentUsers : s'.recentUsers = s.recentUsers
  objects : ∀ ref user, s.object ref = some user → s'.object ref = some user

theorem Keeps.refl (s : ConversationViewController) : s.Keeps s :=
  ⟨rfl, fun _ _ h => h⟩

theorem Keeps.of_generations_eq {s s' : ConversationViewController}
    (hrecentUsers : s'.recentUsers = s.recentUsers) (hgenerations : s'.generations = s.generations)
    : s.Keeps s' := by
  refine ⟨hrecentUsers, ?_⟩
  intro ref user h
  unfold object at h ⊢
  rw [hgenerations]
  exact h

-- The generation at a position is replaced by one with the same users, or a position is filled.
theorem Keeps.of_getElem? {s s' : ConversationViewController}
    (hrecentUsers : s'.recentUsers = s.recentUsers)
    (h : ∀ uid (k : Nat) (generation : Generation), (s.generations uid)[k]? = some generation →
      ∃ generation' : Generation, (s'.generations uid)[k]? = some generation'
        ∧ generation'.users = generation.users)
    : s.Keeps s' := by
  refine ⟨hrecentUsers, ?_⟩
  intro ref user hobject
  unfold object at hobject ⊢
  rw [Option.bind_eq_some_iff] at hobject ⊢
  rcases hobject with ⟨generation, hgeneration, huser⟩
  rcases h _ _ _ hgeneration with ⟨generation', hgeneration', husers⟩
  refine ⟨generation', hgeneration', ?_⟩
  rw [husers]
  exact huser

theorem keeps_addGeneration (s : ConversationViewController) (uid : DocumentID)
    (generation : Generation) : s.Keeps (s.addGeneration uid generation) := by
  apply Keeps.of_getElem? (by rfl)
  intro uid' k generation' h
  refine ⟨generation', ?_, rfl⟩
  unfold addGeneration
  dsimp only
  by_cases huid : uid' = uid
  . rw [huid] at h ⊢
    rw [Function.update_self, List.getElem?_append_left (List.getElem?_eq_some_iff.mp h).choose]
    exact h
  . rw [Function.update_of_ne huid]
    exact h

theorem keeps_setGeneration {s : ConversationViewController} {uid : DocumentID} {k : Nat}
    {old generation : Generation} (hold : (s.generations uid)[k]? = some old)
    (husers : generation.users = old.users) : s.Keeps (s.setGeneration uid k generation) := by
  apply Keeps.of_getElem? (by rfl)
  intro uid' k' generation' h
  unfold setGeneration
  dsimp only
  by_cases huid : uid' = uid
  . rw [huid] at h ⊢
    rw [Function.update_self]
    by_cases hk : k = k'
    . rw [← hk] at h ⊢
      rw [hold] at h
      injection h with h
      refine ⟨generation, ?_, ?_⟩
      . exact List.getElem?_set_self (List.getElem?_eq_some_iff.mp hold).choose
      . rw [husers, h]
    . refine ⟨generation', ?_, rfl⟩
      rw [List.getElem?_set_ne hk]
      exact h
  . rw [Function.update_of_ne huid]
    exact ⟨generation', h, rfl⟩

-- Only a reply publishes a list and changes objects.
theorem keeps_step {s s' : ConversationViewController} {e : Event}
    (hstep : conversations.step s e = some s')
    (hreply : ∀ uid k j documents now, e ≠ .reply uid k j documents now) : s.Keeps s' := by
  cases e with
  | viewDidAppear =>
    rw [(step_viewDidAppear hstep).right, getRecentConversations_eq]
    exact Keeps.of_generations_eq rfl rfl
  | viewDidDisappear =>
    rw [(step_viewDidDisappear hstep).right, removeListener_eq]
    exact Keeps.of_generations_eq rfl rfl
  | logout throws =>
    rw [(step_logout hstep).right]
    exact Keeps.of_generations_eq rfl rfl
  | presentLoginScreen =>
    rw [(step_presentLoginScreen hstep).right, removeListener_eq]
    exact Keeps.of_generations_eq rfl rfl
  | login uid =>
    rw [(step_login hstep).right]
    exact Keeps.of_generations_eq rfl rfl
  | snapshot listener uid documents now =>
    rcases step_snapshot hstep with ⟨_, users, _, hs'⟩
    rw [hs']
    exact keeps_addGeneration s uid _
  | reply uid k j documents now => exact absurd rfl (hreply uid k j documents now)
  | fail uid k j =>
    rcases step_fail hstep with ⟨generation, hgeneration, _, hs'⟩
    rw [hs']
    exact keeps_setGeneration hgeneration rfl

end ConversationViewController

namespace ConversationRows

variable {Image : Type u} {calendar : DeviceCalendar} {s s' : ConversationRows Image}

theorem userAt_of_keeps (hkeeps : s.controller.Keeps s'.controller) {row : Nat} {user : RecentUser}
    (h : s.userAt row = some user) : s'.userAt row = some user := by
  unfold userAt at h ⊢
  rw [hkeeps.recentUsers]
  rw [Option.bind_eq_some_iff] at h ⊢
  rcases h with ⟨ref, href, hobject⟩
  exact ⟨ref, href, hkeeps.objects ref user hobject⟩

theorem Awaits.mono (hkeeps : s.controller.Keeps s'.controller)
    (hblocks : ∀ block ∈ s.pendingBlocks, block ∈ s'.pendingBlocks) {row : Nat} {user : RecentUser}
    (h : s.Awaits calendar row user) : s'.Awaits calendar row user := by
  rcases h with ⟨block, hblock, hrow, user', huser', halike⟩
  exact ⟨block, hblocks block hblock, hrow, user', hkeeps.objects _ _ huser', halike⟩

theorem Served.mono (hkeeps : s.controller.Keeps s'.controller)
    (hblocks : ∀ block ∈ s.pendingBlocks, block ∈ s'.pendingBlocks) {row : Nat}
    {cell : ConversationCell Image} (h : s.Served calendar row cell)
    : s'.Served calendar row cell := by
  rcases h with ⟨user, huser, hshows | hawaits⟩
  . exact ⟨user, userAt_of_keeps hkeeps huser, Or.inl hshows⟩
  . exact ⟨user, userAt_of_keeps hkeeps huser, Or.inr (hawaits.mono hkeeps hblocks)⟩

structure RowsInv (calendar : DeviceCalendar) (s : ConversationRows Image) : Prop where
  -- No two cells are for the same row.
  rows : s.cells.DistinctValues (fun cell => cell.place.row?)
  served : .reloadData ∉ s.mainQueue → ∀ (i : Nat) (cell : RowCell Image) (row : Nat),
    s.cells[i]? = some cell → cell.place = .onScreen row → s.Served calendar row cell.cell

theorem rowsInv_of_released (h : ∀ cell ∈ s.cells, cell.place = .reusePool)
    : s.RowsInv calendar := by
  constructor
  . apply List.distinctValues_of_forall_eq_none
    intro cell hcell
    rw [h cell hcell]
    rfl
  . intro _ i cell row hcell hrow
    rw [h cell (List.mem_of_getElem? hcell)] at hrow
    contradiction

-- Everything but the cells may change, as long as the rows are still served.
theorem RowsInv.of_cells_eq (hs : s.RowsInv calendar) (hcells : s'.cells = s.cells)
    (hserved : .reloadData ∉ s'.mainQueue → .reloadData ∉ s.mainQueue
      ∧ ∀ row cell, s.Served calendar row cell → s'.Served calendar row cell)
    : s'.RowsInv calendar := by
  constructor
  . rw [hcells]
    exact hs.rows
  . intro hreload i cell row hcell hrow
    rw [hcells] at hcell
    rcases hserved hreload with ⟨hreload, hserved⟩
    exact hserved row cell.cell (hs.served hreload i cell row hcell hrow)

theorem RowsInv.of_keeps (hs : s.RowsInv calendar) (hcells : s'.cells = s.cells)
    (hkeeps : s.controller.Keeps s'.controller)
    (hblocks : ∀ block ∈ s.pendingBlocks, block ∈ s'.pendingBlocks)
    (hreload : .reloadData ∈ s.mainQueue → .reloadData ∈ s'.mainQueue) : s'.RowsInv calendar := by
  apply hs.of_cells_eq hcells
  intro hnone
  refine ⟨fun hmem => hnone (hreload hmem), ?_⟩
  intro row cell hserved
  exact hserved.mono hkeeps hblocks

theorem RowsInv.setCell (hs : s.RowsInv calendar) {i : Nat} {new : RowCell Image}
    (hrows : ∀ row, new.place.row? = some row →
      ∀ (j : Nat) (other : RowCell Image), s.cells[j]? = some other → other.place.row? = some row →
        j = i)
    (hserved : .reloadData ∉ s.mainQueue →
      ∀ row, new.place = .onScreen row → s.Served calendar row new.cell)
    : (s.setCell i new).RowsInv calendar := by
  constructor
  . exact hs.rows.set hrows
  . intro hreload j cell row hcell hrow
    have hserves : s.Served calendar row cell.cell := by
      rcases List.eq_or_getElem?_of_getElem?_set hcell with ⟨_, heq⟩ | ⟨_, hcell⟩
      . rw [heq] at hrow ⊢
        exact hserved hreload row hrow
      . exact hs.served hreload j cell row hcell hrow
    exact hserves.mono (.refl s.controller) (fun _ hblock => hblock)

-- The cell stays at its row, or leaves it.
theorem RowsInv.replaceCell (hs : s.RowsInv calendar) {i : Nat} {old new : RowCell Image}
    (hold : s.cells[i]? = some old) (hplace : ∀ row ∈ new.place.row?, old.place.row? = some row)
    (hserved : .reloadData ∉ s.mainQueue →
      ∀ row, new.place = .onScreen row → s.Served calendar row new.cell)
    : (s.setCell i new).RowsInv calendar := by
  apply hs.setCell _ hserved
  intro row hrow j other hother hotherRow
  exact hs.rows j i other old row hother hold hotherRow (hplace row hrow)

theorem mem_pendingBlocks {block : SetupBlock}
    : block ∈ s.pendingBlocks ↔ block ∈ s.globalQueue ∨ .setup block ∈ s.mainQueue := by
  unfold pendingBlocks
  rw [List.mem_append, List.mem_filterMap]
  constructor
  . rintro (hglobal | ⟨mainBlock, hmain, hblock⟩)
    . exact Or.inl hglobal
    . cases mainBlock with
      | reloadData => contradiction
      | setup block' =>
        injection hblock with hblock
        rw [hblock] at hmain
        exact Or.inr hmain
  . rintro (hglobal | hmain)
    . exact Or.inl hglobal
    . exact Or.inr ⟨_, hmain, rfl⟩

-- A block moves from one queue to the other.
theorem RowsInv.globalBlock (hs : s.RowsInv calendar) {i : Nat} {block : SetupBlock}
    (hblock : s.globalQueue[i]? = some block)
    : RowsInv calendar {
        s with
        globalQueue := s.globalQueue.eraseIdx i
        mainQueue := s.mainQueue ++ [.setup block]
      } := by
  apply hs.of_keeps (by rfl) (by exact .refl s.controller)
  . intro other hother
    rw [mem_pendingBlocks] at hother ⊢
    dsimp only
    rw [List.mem_append, List.mem_singleton]
    cases hother with
    | inl hglobal =>
      rcases List.mem_iff_getElem?.mp hglobal with ⟨j, hj⟩
      by_cases hij : j = i
      . rw [hij, hblock] at hj
        injection hj with hj
        exact Or.inr (Or.inr (by rw [hj]))
      . exact Or.inl (List.mem_eraseIdx_iff_getElem?.mpr ⟨j, hij, hj⟩)
    | inr hmain => exact Or.inr (Or.inl hmain)
  . intro hreload
    exact List.mem_append_left _ hreload

theorem getElem?_setup (hrows : s.cells.DistinctValues (fun cell => cell.place.row?)) {now : Date}
    {user : RecentUser} {row j : Nat} {cell' : RowCell Image}
    (h : (s.setup calendar now user row).cells[j]? = some cell')
    : ∃ cell, s.cells[j]? = some cell ∧ cell'.place = cell.place
        ∧ cell'.cell =
            if cell.place = .onScreen row then cell.cell.setup calendar now user else cell.cell := by
  unfold setup at h
  dsimp only at h
  split at h
  . next i hfind =>
    unfold cellForItem at hfind
    rw [List.findIdx?_eq_some_iff_getElem] at hfind
    rcases hfind with ⟨hi, hplace, _⟩
    rw [decide_eq_true_eq] at hplace
    rw [List.getElem?_modify, Option.map_eq_map, Option.map_eq_some_iff] at h
    rcases h with ⟨cell, hcell, hcell'⟩
    refine ⟨cell, hcell, ?_⟩
    by_cases hij : i = j
    . rw [if_pos hij] at hcell'
      have heq : s.cells[i] = cell := by
        rw [← hij, List.getElem?_eq_getElem hi] at hcell
        injection hcell
      rw [heq] at hplace
      rw [← hcell', if_pos hplace]
      exact ⟨rfl, rfl⟩
    . rw [if_neg hij] at hcell'
      have hne : cell.place ≠ .onScreen row := by
        intro hcontra
        have hfound : s.cells[i].place.row? = some row := by
          rw [hplace]
          rfl
        have hsame : cell.place.row? = some row := by
          rw [hcontra]
          rfl
        exact hij (hrows i j _ cell row (List.getElem?_eq_getElem hi) hcell hfound hsame)
      rw [← hcell', if_neg hne]
      exact ⟨rfl, rfl⟩
  . next hfind =>
    unfold cellForItem at hfind
    rw [List.findIdx?_eq_none_iff] at hfind
    have hne := hfind cell' (List.mem_of_getElem? h)
    rw [decide_eq_false_iff_not] at hne
    exact ⟨cell', h, rfl, by rw [if_neg hne]⟩

-- The cells stay at their rows, and get other labels at most.
theorem RowsInv.of_places (hs : s.RowsInv calendar)
    (hcells : ∀ (i : Nat) (new : RowCell Image), s'.cells[i]? = some new →
      ∃ old, s.cells[i]? = some old ∧ new.place = old.place
        ∧ (.reloadData ∉ s'.mainQueue → ∀ row, old.place = .onScreen row →
          s'.Served calendar row new.cell))
    : s'.RowsInv calendar := by
  constructor
  . apply hs.rows.of_getElem?
    intro i cell hcell
    rcases hcells i cell hcell with ⟨old, hold, hplace, _⟩
    exact ⟨old, hold, by rw [hplace]⟩
  . intro hreload i cell row hcell hrow
    rcases hcells i cell hcell with ⟨old, hold, hplace, hserved⟩
    rw [hplace] at hrow
    exact hserved hreload row hrow

-- The blocks for other rows are still pending when a block has been run.
theorem Served.of_ne_row {block : SetupBlock} {mainQueue : List MainBlock}
    (hqueue : s.mainQueue = .setup block :: mainQueue) {row : Nat} (hne : row ≠ block.row)
    {cell : ConversationCell Image} (h : s.Served calendar row cell)
    : Served calendar { s with mainQueue := mainQueue } row cell := by
  rcases h with ⟨user, huser, hshows | ⟨other, hother, hotherRow, hotherUser⟩⟩
  . exact ⟨user, huser, Or.inl hshows⟩
  . refine ⟨user, huser, Or.inr ⟨other, ?_, hotherRow, hotherUser⟩⟩
    rw [mem_pendingBlocks, hqueue, List.mem_cons] at hother
    rw [mem_pendingBlocks]
    rcases hother with hglobal | hhead | hmain
    . exact Or.inl hglobal
    . injection hhead with hhead
      rw [← hotherRow, hhead] at hne
      contradiction
    . exact Or.inr hmain

-- A block is run while its row is off the screen, or while its labels are right, or while others
-- that are right are on their way.
theorem RowsInv.setup (hs : s.RowsInv calendar) {block : SetupBlock} {mainQueue : List MainBlock}
    {user : RecentUser} (hqueue : s.mainQueue = .setup block :: mainQueue)
    (huser : s.controller.object block.user = some user) (now : Date)
    (hserves : s.ServesRows calendar (.mainBlock now : Event Image))
    : RowsInv calendar ({ s with mainQueue := mainQueue }.setup calendar now user block.row) := by
  apply hs.of_places
  intro i cell hcell
  rcases getElem?_setup hs.rows hcell with ⟨old, hold, hplace, hnew⟩
  refine ⟨old, hold, hplace, ?_⟩
  intro hreload row hrow
  change MainBlock.reloadData ∉ mainQueue at hreload
  by_cases heq : row = block.row
  . rw [heq] at hrow ⊢
    rw [if_pos hrow] at hnew
    simp only [ServesRows, ServesBlock, hqueue] at hserves
    rcases hserves with hcontra | hcontra | ⟨user', huser', halike | hawaits⟩
    . exact absurd hcontra hreload
    . exact absurd hrow (hcontra old (List.mem_of_getElem? hold))
    . rw [huser] at halike
      rcases halike with ⟨user'', huser'', halike⟩
      injection huser'' with huser''
      rw [← huser''] at halike
      refine ⟨user', huser', Or.inl ?_⟩
      rw [hnew]
      exact ConversationCell.shows_setup halike now old.cell
    . exact ⟨user', huser', Or.inr hawaits⟩
  . have hne : old.place ≠ .onScreen block.row := by
      intro hcontra
      rw [hrow] at hcontra
      injection hcontra with hcontra
      exact heq hcontra
    have hreloadBefore : .reloadData ∉ s.mainQueue := by
      rw [hqueue, List.mem_cons, not_or]
      exact ⟨nofun, hreload⟩
    rw [hnew, if_neg hne]
    exact (hs.served hreloadBefore i old row hold hrow).of_ne_row hqueue heq

theorem RowsInv.setImage (hs : s.RowsInv calendar) (cell : Option Nat) (image : Image)
    : (s.setImage cell image).RowsInv calendar := by
  apply hs.of_places
  intro j new hnew
  unfold ConversationRows.setImage at hnew
  cases cell with
  | none =>
    refine ⟨new, hnew, rfl, ?_⟩
    intro hreload row hrow
    exact hs.served hreload j new row hnew hrow
  | some i =>
    dsimp only at hnew
    rw [List.getElem?_modify, Option.map_eq_map, Option.map_eq_some_iff] at hnew
    rcases hnew with ⟨old, hold, hnew⟩
    have hserved : .reloadData ∉ s.mainQueue → ∀ row, old.place = .onScreen row →
        s.Served calendar row old.cell :=
      fun hreload row hrow => hs.served hreload j old row hold hrow
    -- the picture is none of the labels
    refine ⟨old, hold, ?_⟩
    rw [← hnew]
    split
    . exact ⟨rfl, hserved⟩
    . exact ⟨rfl, hserved⟩

theorem RowsInv.newCell (hs : s.RowsInv calendar)
    : RowsInv calendar { s with cells := s.cells ++ [⟨ConversationCell.new, .reusePool⟩] } := by
  constructor
  . exact hs.rows.concat rfl
  . intro hreload i cell row hcell hrow
    have hplace : cell.place.row? = some row := by
      rw [hrow]
      rfl
    have hnone : CellPlace.row? .reusePool = none := rfl
    have hold := List.getElem?_of_getElem?_concat (f := fun cell => cell.place.row?) hnone hcell hplace
    exact hs.served hreload i cell row hold hrow

-- A row that is asked for is not on the screen yet.
theorem RowsInv.cellForItemAt (hs : s.RowsInv calendar) {row : Nat}
    (hfree : ∀ other ∈ s.cells, other.place.row? ≠ some row) (i : Nat)
    (cell : ConversationCell Image) (block : SetupBlock)
    : RowsInv calendar {
        s.setCell i ⟨cell, .offScreen row⟩ with
        globalQueue := s.globalQueue ++ [block]
      } := by
  have hqueue : RowsInv calendar { s with globalQueue := s.globalQueue ++ [block] } := by
    apply hs.of_keeps (by rfl) (by exact .refl s.controller)
    . intro other hother
      rw [mem_pendingBlocks] at hother ⊢
      cases hother with
      | inl hglobal => exact Or.inl (List.mem_append_left _ hglobal)
      | inr hmain => exact Or.inr hmain
    . exact id
  apply hqueue.setCell
  . intro row' hrow' j other hother hotherRow
    injection hrow' with hrow'
    rw [← hrow'] at hotherRow
    exact absurd hotherRow (hfree other (List.mem_of_getElem? hother))
  . intro _ row' hrow'
    contradiction

theorem rowsInv_step {e : Event Image} (hs : s.RowsInv calendar)
    (hstep : (conversationRows calendar).step s e = some s') (hserves : s.ServesRows calendar e)
    : s'.RowsInv calendar := by
  cases e with
  | controller e =>
    rcases step_controller hstep with ⟨controller, hcontroller, hs'⟩
    have hkeeps := ConversationViewController.keeps_step hcontroller
    rw [hs']
    cases e with
    | login uid => exact rowsInv_of_released nofun
    | reply uid k j documents now =>
      apply hs.of_cells_eq (by rfl)
      intro hreload
      exact absurd (List.mem_append_right _ (List.mem_singleton_self _)) hreload
    | _ =>
      exact hs.of_keeps rfl (hkeeps nofun) (fun _ hblock => hblock) id
  | signup uid =>
    rcases step_signup hstep with ⟨controller, hcontroller, hs'⟩
    rw [hs']
    exact hs.of_keeps rfl (ConversationViewController.keeps_step hcontroller nofun)
      (fun _ hblock => hblock) id
  | firstLayout =>
    rw [step_firstLayout hstep]
    exact hs.of_keeps rfl (.refl _) (fun _ hblock => hblock) id
  | newCell =>
    simp only [conversationRows, step, Option.some.injEq] at hstep
    rw [← hstep]
    exact hs.newCell
  | cellForItemAt row i =>
    rcases step_cellForItemAt hstep with ⟨cell, user, hcell, hfree, hs'⟩
    rw [hs']
    exact hs.cellForItemAt hfree i _ _
  | willDisplay i =>
    rcases step_willDisplay hstep with ⟨cell, row, hcell, hs'⟩
    rw [hs']
    apply hs.replaceCell hcell (by exact fun _ hrow => hrow)
    intro hreload row' hrow'
    simp only [ServesRows, hcell] at hserves
    cases hserves with
    | inl hcontra => exact absurd hcontra hreload
    | inr hserved =>
      injection hrow' with hrow'
      rw [← hrow']
      exact hserved _ rfl row rfl
  | didEndDisplaying i =>
    rcases step_didEndDisplaying hstep with ⟨cell, row, hcell, hs'⟩
    rw [hs']
    exact hs.replaceCell hcell (fun _ hrow => hrow) (fun _ _ hcontra => by contradiction)
  | enqueueReusableCell i =>
    rcases step_enqueueReusableCell hstep with ⟨cell, row, hcell, hs'⟩
    rw [hs']
    exact hs.replaceCell hcell (fun _ hrow => by contradiction) (fun _ _ hcontra => by contradiction)
  | globalBlock i =>
    rcases step_globalBlock hstep with ⟨block, hblock, hs'⟩
    rw [hs']
    exact hs.globalBlock hblock
  | mainBlock now =>
    rcases step_mainBlock hstep with
      ⟨mainQueue, _, hs'⟩ | ⟨block, mainQueue, user, hqueue, huser, hs'⟩
    . rw [hs']
      apply rowsInv_of_released
      intro cell hcell
      rw [reloadData, List.mem_map] at hcell
      rcases hcell with ⟨old, _, hcell⟩
      rw [← hcell]
    . rw [hs']
      exact hs.setup hqueue huser now hserves
  | imageDownloaded i image =>
    rcases step_imageDownloaded hstep with ⟨download, hs'⟩
    have hdownloads : RowsInv calendar { s with downloads := s.downloads.eraseIdx i } :=
      hs.of_keeps rfl (.refl _) (fun _ hblock => hblock) id
    rw [hs']
    exact hdownloads.setImage download.cell image

theorem RowsInv.showsRows (hs : s.RowsInv calendar) (hquiet : s.Quiet) : s.ShowsRows calendar := by
  rcases hquiet with ⟨hglobal, hmain⟩
  have hnone : .reloadData ∉ s.mainQueue := by
    rw [hmain]
    exact List.not_mem_nil
  intro cell hcell row hrow
  rcases List.mem_iff_getElem?.mp hcell with ⟨i, hi⟩
  rcases hs.served hnone i cell row hi hrow with ⟨user, huser, hshows | ⟨block, hblock, _⟩⟩
  . exact ⟨user, huser, hshows⟩
  . rw [mem_pendingBlocks, hglobal, hmain] at hblock
    cases hblock with
    | inl hcontra => contradiction
    | inr hcontra => contradiction

theorem showsRows_of_servesRows (calendar : DeviceCalendar) (auth : Option DocumentID)
    (es : List (Event Image)) (s : ConversationRows Image)
    (hrun : (conversationRows calendar).exec (launch auth) es = some s)
    (hserves : (conversationRows calendar).Meets (fun s e _ => s.ServesRows calendar e)
      (launch auth) es)
    (hquiet : s.Quiet) : s.ShowsRows calendar := by
  have hlaunch : (launch auth : ConversationRows Image).RowsInv calendar :=
    rowsInv_of_released nofun
  have hs := Machine.exec_preserves_of_meets
    (fun _ _ _ hs hstep hserves => rowsInv_step hs hstep hserves) hlaunch hrun hserves
  exact hs.showsRows hquiet

-- the document of somebody whom Ann has written to
def document (uid : DocumentID) (firstName : String) : DocumentSnapshot :=
  ⟨uid, User.dictionary ⟨uid, firstName, "", "", "", 1, false⟩⟩

-- The `k`-th list of Ann has one row, which is asked for and comes on the screen.
def listedAs (k : Nat) (user : DocumentSnapshot) : List (Event Nat) :=
  [
    .controller (.snapshot 0 "a" [user] 1), .controller (.reply "a" k 0 [] 1), .mainBlock 1,
    .cellForItemAt 0 0, .willDisplay 0
  ]

def device : DeviceCalendar :=
  ⟨fun now date => now - date, fun format _ => format⟩

def inOrderRun : List (Event Nat) :=
  [.controller .viewDidAppear, .newCell] ++ listedAs 0 (document "b" "Bob")
    ++ [.globalBlock 0, .mainBlock 2] ++ listedAs 1 (document "c" "Cyd")
    ++ [.globalBlock 0, .mainBlock 3]

theorem showsRows_of_servesRows_inOrderRun
    : ∃ s, (conversationRows device).exec (launch (some "a")) inOrderRun = some s
        ∧ s.cells.map RowCell.place = [.onScreen 0] ∧ s.ShowsRows device := by
  refine ⟨_, rfl, rfl, ?_⟩
  exact showsRows_of_servesRows device (some "a") inOrderRun _ rfl (by decide) (by decide)

-- The block of the first list is run last, so the row of Cyd is called Bob.
def overtakenRun : List (Event Nat) :=
  [.controller .viewDidAppear, .newCell] ++ listedAs 0 (document "b" "Bob")
    ++ listedAs 1 (document "c" "Cyd")
    ++ [.globalBlock 1, .globalBlock 0, .mainBlock 2, .mainBlock 2]

theorem not_showsRows
    : ¬∀ (calendar : DeviceCalendar) (auth : Option DocumentID) (es : List (Event Nat))
        (s : ConversationRows Nat), (conversationRows calendar).exec (launch auth) es = some s →
        s.Quiet → s.ShowsRows calendar := by
  intro h
  have hshows := h device (some "a") overtakenRun _ rfl (by decide)
  rcases hshows _ (List.mem_of_getLast? rfl) 0 rfl with ⟨user, huser, hname, _⟩
  injection huser with huser
  rw [← huser] at hname
  exact absurd hname (by decide)

end ConversationRows

end ChatApplication
