import Adventure.Proofs.Dialogue.Uses

/-!
# Columns to pick from

While the player chooses, nothing else opens and no tap closes anything, so there must be a column
to pick from.  The one thing that takes a column away from the player is the count of an earlier
pick: it goes on below a column that is shown meanwhile, and in the end it closes that column,
though the player still chooses.  So there always is a column exactly if choices are shown only
while no pick is counted.
-/

namespace Adventure.Windows

/-- The windows after some more frames, the first one first. -/
def updates (ws : Windows) (inputs : List Input) : Windows :=
  inputs.foldl (fun ws input => (ws.update input).2) ws

/-- The player can pick: the column stands and belongs to the interpreter that the choosing is for,
and from the fourth frame on, if nothing was picked by then, every row of it can be picked. -/
structure Pickable (ws : Windows) : Prop where
  nonempty : ws.choiceBalloons ≠ []
  mine : ∀ row ∈ ws.choiceBalloons, row.interpreterId = ws.choosingId
  stands : ∀ row ∈ ws.choiceBalloons, row.state ≠ .closing
  accepts : ∀ inputs : List Input, 4 ≤ inputs.length → (ws.updates inputs).choosing = true →
    ∀ (input : Input) (row : Nat), input.choice = some row →
      row < (ws.updates inputs).choiceBalloons.length →
        ((ws.updates inputs).update input).1 = true ∧
          ((ws.updates inputs).update input).2.choosing = false

/-- Choices are shown only while no pick is counted. -/
def Unhurried : List Use → Prop
  | [] => True
  | .showChoices _ _ :: earlier => (afterUses earlier).pickedCount = 0 ∧ Unhurried earlier
  | _ :: earlier => Unhurried earlier

/-- Whenever choices are shown there is one at least. -/
def HasChoices (uses : List Use) : Prop := ∀ id, Use.showChoices [] id ∉ uses

variable {ws : Windows} {input : Input} {frames : Nat}

/-! ## Columns that stay -/

/-- A column that nobody closes, and that is open after so many frames. -/
structure Offering (frames : Nat) (ws : Windows) : Prop where
  idle : ws.pickedCount = 0
  nonempty : ws.choiceBalloons ≠ []
  mine : ∀ row ∈ ws.choiceBalloons, row.interpreterId = ws.choosingId
  opens : ∀ row ∈ ws.choiceBalloons, row.OpensWithin frames

theorem Offering.mono {more : Nat} (h : Offering frames ws) (hle : frames ≤ more) :
    Offering more ws :=
  ⟨h.idle, h.nonempty, h.mine, fun row hrow =>
    (h.opens row hrow).imp_right fun ⟨hopening, hpos, hcount⟩ =>
      ⟨hopening, hpos, Nat.le_trans hcount hle⟩⟩

theorem Offering.animate (h : Offering (frames + 1) ws) : Offering frames ws.animate := by
  have hopens : ∀ row ∈ ws.choiceBalloons, row.update.OpensWithin frames :=
    fun row hrow => (h.opens row hrow).update
  have hrows : ws.animate.choiceBalloons = ws.choiceBalloons.map Window.update := by
    refine List.filter_eq_self.2 (List.forall_mem_map.2 fun row hrow => ?_)
    rcases hopens row hrow with hstate | ⟨hstate, _⟩
    · simp [hstate]
    · simp [hstate]
  refine ⟨h.idle, ?_, ?_, ?_⟩
  · rw [hrows]
    exact mt List.map_eq_nil_iff.1 h.nonempty
  · rw [hrows, List.forall_mem_map]
    intro row hrow
    rw [Window.interpreterId_update]
    exact h.mine row hrow
  · rw [hrows, List.forall_mem_map]
    exact hopens

/-- Nobody but a script that shows choices makes the player choose. -/
theorem choosing_of_update (h : (ws.update input).2.choosing = true) : ws.choosing = true := by
  obtain ⟨next, balloons, hopen⟩ := openNext_eq ws
  rw [update_eq] at h
  have hresponds := responds ws.openNext input
  generalize ws.openNext.respond input = answer at h hresponds
  rw [hopen] at hresponds
  cases hresponds with
  | counts =>
    unfold countPick at h
    dsimp only at h
    split at h <;> exact h
  | picks => cases h
  | dismisses => exact h
  | waits => exact h

theorem choosing_of_updates {inputs : List Input} (h : (ws.updates inputs).choosing = true) :
    ws.choosing = true := by
  induction inputs generalizing ws with
  | nil => exact h
  | cons input inputs ih => exact choosing_of_update (ih h)

/-- Unless the player picks, a column is one frame closer to being open. -/
theorem Offering.update (h : Offering (frames + 1) ws)
    (hstill : (ws.update input).2.choosing = true) : Offering frames (ws.update input).2 := by
  have hchoosing := choosing_of_update hstill
  rw [update_eq, openNext_of_choosing ws hchoosing] at hstill ⊢
  have hresponds := responds ws input
  generalize ws.respond input = answer at hstill hresponds
  cases hresponds with
  | counts hcount => exact absurd h.idle (UInt32.pos_iff_ne_zero.1 hcount)
  | picks => cases hstill
  | dismisses _ hnot => simp [hchoosing] at hnot
  | waits => exact h.animate

theorem Offering.updates {inputs : List Input} (h : Offering (frames + inputs.length) ws)
    (hstill : (ws.updates inputs).choosing = true) : Offering frames (ws.updates inputs) := by
  induction inputs generalizing ws with
  | nil => exact h
  | cons input inputs ih =>
    have hlength : Offering (frames + inputs.length + 1) ws := h
    exact ih (hlength.update (choosing_of_updates hstill)) hstill

/-- An open column accepts every pick. -/
theorem Offering.accepts (h : Offering 0 ws) (hchoosing : ws.choosing = true) {row : Nat}
    (hchoice : input.choice = some row) (hrow : row < ws.choiceBalloons.length) :
    (ws.update input).1 = true ∧ (ws.update input).2.choosing = false := by
  have hopened : ws.anyOpened = true := by
    obtain ⟨first, hfirst⟩ := List.exists_mem_of_ne_nil _ h.nonempty
    exact List.any_eq_true.2 ⟨first, List.mem_append_right _ hfirst,
      (h.opens first hfirst).isOpened⟩
  have hresponds := responds ws input
  show (ws.openNext.respond input).1 = true ∧ (ws.openNext.respond input).2.choosing = false
  rw [openNext_of_choosing ws hchoosing]
  generalize ws.respond input = answer at hresponds
  cases hresponds with
  | counts hcount => exact absurd h.idle (UInt32.pos_iff_ne_zero.1 hcount)
  | picks => exact ⟨rfl, rfl⟩
  | dismisses _ hnot => simp [hchoosing] at hnot
  | waits _ hunpicked => exact absurd hrow (hunpicked row hchoosing hopened hchoice)

theorem Offering.pickable (h : Offering 4 ws) : ws.Pickable where
  nonempty := h.nonempty
  mine := h.mine
  stands row hrow hclosing := by
    rcases h.opens row hrow with hstate | ⟨hstate, _⟩
    · simp [hclosing] at hstate
    · simp [hclosing] at hstate
  accepts inputs hlength hstill input row hchoice hrow := by
    have hopen : Offering (0 + inputs.length) ws := h.mono (by omega)
    exact (hopen.updates hstill).accepts hstill hchoice hrow

theorem offering_showChoices {choices : List (String × Bool)} (id : Nat) (hne : choices ≠ [])
    (hidle : ws.pickedCount = 0) : Offering 4 (ws.showChoices choices id) where
  idle := hidle
  nonempty := mt List.map_eq_nil_iff.1 hne
  mine := List.forall_mem_map.2 fun _ _ => rfl
  opens := List.forall_mem_map.2 fun _ _ =>
    .inr ⟨rfl, (by decide : 0 < windowFrames), Nat.le_refl 4⟩

/-- If choices are shown only while no pick is counted, whoever chooses has a column. -/
theorem Unhurried.offering {uses : List Use} (h : Unhurried uses) (hchoices : HasChoices uses)
    (hchoosing : (afterUses uses).choosing = true) : Offering 4 (afterUses uses) := by
  induction uses with
  | nil => cases hchoosing
  | cons use earlier ih =>
    have hearlier : HasChoices earlier := fun id hmem =>
      hchoices id (List.mem_cons_of_mem use hmem)
    cases use with
    | showMessage content eventId id =>
      obtain ⟨hidle, hne, hmine, hopens⟩ := ih h hearlier hchoosing
      exact ⟨hidle, hne, hmine, hopens⟩
    | showBalloon content eventId id =>
      obtain ⟨hidle, hne, hmine, hopens⟩ := ih h hearlier hchoosing
      exact ⟨hidle, hne, hmine, hopens⟩
    | showChoices choices id =>
      refine offering_showChoices id ?_ h.1
      rintro rfl
      exact hchoices id (List.mem_cons_self ..)
    | update input =>
      have hbefore := ih h hearlier (choosing_of_update hchoosing)
      exact (hbefore.mono (Nat.le_succ 4)).update hchoosing
    | takeChosen id =>
      obtain ⟨chosen, htake⟩ := takeChosen_eq (afterUses earlier) id
      have hws : afterUses (.takeChosen id :: earlier) = { afterUses earlier with chosen } := htake
      rw [hws] at hchoosing ⊢
      obtain ⟨hidle, hne, hmine, hopens⟩ := ih h hearlier hchoosing
      exact ⟨hidle, hne, hmine, hopens⟩
    | closeAll => cases hchoosing

/-! ## Columns that are lost -/

theorem state_close_update {w : Window} (h : Window.IsOpenChoice w) :
    w.close.update.state = .closing := by
  rcases h with hstate | hstate
  · simp [Window.close, Window.update, windowFrames, hstate]
  · simp [Window.close, Window.update, windowFrames, hstate]

/-- While the player chooses, a count goes on as if nothing else happened. -/
theorem update_eq_countPick (hchoosing : ws.choosing = true) (hcount : 0 < ws.pickedCount) :
    (ws.update input).2 = ws.countPick.animate := by
  rw [update_eq, openNext_of_choosing ws hchoosing]
  simp [respond, hcount]

/-- A count that ends closes a column, even if the player still chooses. -/
theorem exists_closing_of_counting {left : Nat} (hchoosing : ws.choosing = true)
    (hleft : ws.pickedCount.toNat = left + 1) (hne : ws.choiceBalloons ≠ [])
    (hopen : ∀ row ∈ ws.choiceBalloons, Window.IsOpenChoice row) :
    let later := ws.updates (List.replicate (left + 1) .none)
    later.choosing = true ∧ ∃ row ∈ later.choiceBalloons, row.state = .closing := by
  induction left generalizing ws with
  | zero =>
    have hone : ws.pickedCount = 1 := UInt32.toNat_inj.1 hleft
    have hzero : ws.pickedCount - 1 = 0 := by rw [hone]; rfl
    show (ws.update .none).2.choosing = true ∧ ∃ row ∈ (ws.update .none).2.choiceBalloons, _
    rw [update_eq_countPick hchoosing (hone ▸ by decide)]
    obtain ⟨row, hrow⟩ := List.exists_mem_of_ne_nil _ hne
    have hclosing := state_close_update (hopen row hrow)
    simp only [countPick, hzero, ↓reduceIte]
    refine ⟨hchoosing, row.close.update, ?_, hclosing⟩
    refine List.mem_filter.2 ⟨List.mem_map_of_mem (List.mem_map_of_mem hrow), ?_⟩
    simp [hclosing]
  | succ left ih =>
    have hcount : 1 < ws.pickedCount := by
      rw [UInt32.lt_iff_toNat_lt, hleft]
      exact Nat.succ_lt_succ (Nat.succ_pos left)
    have hsub : (ws.pickedCount - 1).toNat = left + 1 := by
      rw [UInt32.toNat_sub_of_le _ _ (UInt32.le_of_lt hcount), hleft]
      rfl
    have hmore : ws.pickedCount - 1 ≠ 0 := by grind
    have hcountdown :
        (ws.update .none).2 = { ws with pickedCount := ws.pickedCount - 1 }.animate := by
      rw [update_eq_countPick hchoosing (by grind), countPick, if_neg hmore]
    have hkept : ∀ row ∈ { ws with pickedCount := ws.pickedCount - 1 }.choiceBalloons,
        Window.IsOpenChoice row := hopen
    obtain ⟨hcolumn, hopen'⟩ := animate_column hkept
    show let later := (ws.update .none).2.updates (List.replicate (left + 1) .none)
      later.choosing = true ∧ ∃ row ∈ later.choiceBalloons, row.state = .closing
    rw [hcountdown]
    refine ih hchoosing hsub (fun hnil => hne ?_) hopen'
    rw [column, hnil] at hcolumn
    exact List.map_eq_nil_iff.1 hcolumn.symm

theorem Unhurried.of_suffix {uses earlier : List Use} (h : Unhurried uses)
    (hsuffix : earlier <:+ uses) : Unhurried earlier := by
  induction uses with
  | nil => simpa [List.suffix_nil.1 hsuffix] using h
  | cons use uses ih =>
    rcases List.suffix_cons_iff.1 hsuffix with rfl | hearlier
    · exact h
    · cases use with
      | showChoices choices id => exact ih h.2 hearlier
      | _ => exact ih h hearlier

/-- The player who chooses can always pick, exactly if choices are shown only while no pick is
counted. -/
theorem unhurried_iff_pickable {uses : List Use} (hchoices : HasChoices uses) :
    Unhurried uses ↔ ∀ earlier, earlier <:+ uses → ∀ inputs : List Input,
      ((afterUses earlier).updates inputs).choosing = true →
        ((afterUses earlier).updates inputs).Pickable := by
  constructor
  · intro h earlier hsuffix inputs hchoosing
    have hearlier : HasChoices earlier := fun id hmem => hchoices id (hsuffix.subset hmem)
    have hoffering := (h.of_suffix hsuffix).offering hearlier (choosing_of_updates hchoosing)
    exact ((hoffering.mono (Nat.le_add_right 4 _)).updates hchoosing).pickable
  · intro h
    induction uses with
    | nil => trivial
    | cons use uses ih =>
      have huses : Unhurried uses :=
        ih (fun id hmem => hchoices id (List.mem_cons_of_mem use hmem)) fun earlier hsuffix =>
          h earlier (hsuffix.trans (List.suffix_cons use uses))
      cases use with
      | showChoices choices id =>
        refine ⟨Decidable.byContradiction fun hcount => ?_, huses⟩
        have hne : choices ≠ [] := by
          rintro rfl
          exact hchoices id (List.mem_cons_self ..)
        obtain ⟨left, hleft⟩ : ∃ left, (afterUses uses).pickedCount.toNat = left + 1 :=
          Nat.exists_eq_add_one.2 (UInt32.lt_iff_toNat_lt.1 (UInt32.pos_iff_ne_zero.2 hcount))
        have hshown : (afterUses (.showChoices choices id :: uses)).pickedCount.toNat = left + 1 :=
          hleft
        obtain ⟨hchoosing, row, hrow, hclosing⟩ := exists_closing_of_counting rfl hshown
          (mt List.map_eq_nil_iff.1 hne) (List.forall_mem_map.2 fun _ _ => .inl rfl)
        exact (h _ (List.suffix_refl _) _ hchoosing).stands row hrow hclosing
      | _ => exact huses

/-- Who chooses while nothing is on the screen does so until a script helps: no input changes
anything. -/
theorem update_of_stuck (hchoosing : ws.choosing = true) (hidle : ws.pickedCount = 0)
    (hshown : ws.shown = []) (input : Input) : ws.update input = (false, ws) := by
  obtain ⟨hballoons, hrows⟩ := List.append_eq_nil_iff.1 hshown
  have hrespond : ws.respond input = (false, ws) := by
    simp [respond, hidle, hchoosing, anyOpened, hshown]
  have hanimate : ws.animate = ws := by
    cases ws
    simp_all [animate]
  simp only [update, openNext_of_choosing ws hchoosing, hrespond, hanimate]

/-- Interpreter 5 shows choices while a pick for interpreter 4 is counted. -/
def hurriedUses : List Use :=
  List.replicate 5 (.update .none) ++ .showChoices [("left", false), ("right", false)] 5 ::
    .update { Input.none with choice := some 1 } :: List.replicate 4 (.update .none) ++
      [.showChoices [("yes", false), ("no", false)] 4]

/-- When the count ends, the new column closes, and soon nothing is left on the screen to pick from,
while the player still chooses. -/
theorem hurriedUses_not_pickable :
    (afterUses hurriedUses).choosing = true ∧ ¬ (afterUses hurriedUses).Pickable ∧
      let later := (afterUses hurriedUses).updates (List.replicate 4 .none)
      later.choosing = true ∧ later.shown = [] ∧ ∀ input, later.update input = (false, later) := by
  refine ⟨by decide, fun h => ?_, by decide, by decide, update_of_stuck ?_ ?_ ?_⟩
  · exact h.stands _ (List.mem_cons_self ..) (by decide)
  · decide
  · decide
  · decide

/-- Without the second question the player can pick all the time. -/
theorem unhurried_iff_pickable_of_message :
    let uses : List Use := [.update .none, .showChoices [("yes", false)] 4,
      .showMessage "Well?" 0 4]
    HasChoices uses ∧ (Unhurried uses ↔ ∀ earlier, earlier <:+ uses → ∀ inputs : List Input,
      ((afterUses earlier).updates inputs).choosing = true →
        ((afterUses earlier).updates inputs).Pickable) := by
  intro uses
  have hchoices : HasChoices uses := by
    intro id hmem
    simp [uses] at hmem
  exact ⟨hchoices, unhurried_iff_pickable hchoices⟩

end Adventure.Windows
