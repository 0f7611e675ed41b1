import Adventure.Proofs.Dialogue.History

/-!
# Uses of the windows

A script may also close all windows, and the choices that it shows may be none at all.  So a use of
the windows is a call, or one of these, and again a list of uses has the latest one first.  In a
frame a window opens if there is room, then the windows respond to the player in one of a few ways,
and then each of them moves on by itself.
-/

namespace Adventure

/-! ## One window -/

namespace Window

/-- Whether a window is open after so many frames, if nobody closes it. -/
def OpensWithin (frames : Nat) (w : Window) : Prop :=
  w.state = .opened ∨ w.state = .opening ∧ 0 < w.count ∧ w.count.toNat ≤ frames

variable {w : Window}

theorem OpensWithin.isOpened (h : w.OpensWithin 0) : w.isOpened = true := by
  rcases h with hopened | ⟨_, hpos, hzero⟩
  · simp [Window.isOpened, hopened]
  · grind [UInt32.lt_iff_toNat_lt]

theorem interpreterId_update (w : Window) : w.update.interpreterId = w.interpreterId := by
  obtain ⟨state, count, hupdate⟩ := Windows.Window.update_keeps w
  rw [hupdate]

theorem interpreterId_close (w : Window) : w.close.interpreterId = w.interpreterId := by
  unfold close
  split <;> rfl

theorem state_update_of_opened (h : w.state = .opened) : w.update.state = .opened := by
  unfold update
  split
  · exact h
  · dsimp only
    split
    · exact h
    · simp [h]

theorem state_update_of_closing (h : w.state = .closing) :
    w.update.state = .closing ∨ w.update.state = .closed := by
  unfold update
  split
  · exact .inl h
  · dsimp only
    split
    · exact .inl h
    · exact .inr (by simp [h])

theorem state_of_update_opening (h : w.update.state = .opening) : w.state = .opening := by
  cases hstate : w.state with
  | opening => rfl
  | opened => simp [state_update_of_opened hstate] at h
  | closing =>
    rcases state_update_of_closing hstate with hclosing | hclosed
    · simp [hclosing] at h
    · simp [hclosed] at h
  | closed =>
    unfold update at h
    split at h
    · simp [hstate] at h
    · dsimp only at h
      split at h <;> simp [hstate] at h

/-- A window that opens either goes on to do so, or it is open. -/
theorem update_of_opening (h : w.state = .opening) (hcount : 0 < w.count) :
    1 < w.count ∧ w.update = { w with count := w.count - 1 } ∨
      w.count = 1 ∧ w.update = { w with state := .opened, count := 0 } := by
  have hne : w.count ≠ 0 := UInt32.pos_iff_ne_zero.1 hcount
  unfold update
  rw [if_neg hne]
  by_cases hone : w.count = 1
  · exact .inr ⟨hone, by simp [hone, h]⟩
  · have hmore : 0 < w.count - 1 := by grind
    exact .inl ⟨by grind, by simp [hmore]⟩

theorem OpensWithin.update {frames : Nat} (h : w.OpensWithin (frames + 1)) :
    w.update.OpensWithin frames := by
  rcases h with hopened | ⟨hopening, hpos, hle⟩
  · exact .inl (state_update_of_opened hopened)
  · rcases update_of_opening hopening hpos with ⟨hmore, heq⟩ | ⟨_, heq⟩
    · have hsub : (w.count - 1).toNat = w.count.toNat - 1 :=
        UInt32.toNat_sub_of_le _ _ (UInt32.le_of_lt hmore)
      rw [heq]
      exact .inr ⟨hopening, by grind, by simp only [hsub]; omega⟩
    · rw [heq]
      exact .inl rfl

end Window

namespace Windows

/-! ## Lists of uses -/

/-- What interpreters and the player do to the windows. -/
inductive Use where
  | showMessage (content : String) (eventId : Int32) (interpreterId : Nat)
  | showBalloon (content : String) (eventId : Int32) (interpreterId : Nat)
  | showChoices (choices : List (String × Bool)) (interpreterId : Nat)
  | update (input : Input)
  | takeChosen (interpreterId : Nat)
  | closeAll

/-- The window that a use asks for. -/
def Use.window? : Use → Option Window
  | showMessage content eventId id => some (.waiting .message content eventId id)
  | showBalloon content eventId id => some (.waiting .balloon content eventId id)
  | _ => .none

/-- The windows after a use. -/
def use (ws : Windows) : Use → Windows
  | .showMessage content eventId id => ws.showMessage content eventId id
  | .showBalloon content eventId id => ws.showBalloon content eventId id
  | .showChoices choices id => ws.showChoices choices id
  | .update input => (ws.update input).2
  | .takeChosen id => (ws.takeChosen id).2
  | .closeAll => ws.closeAll

/-- The windows after a list of uses. -/
def afterUses : List Use → Windows
  | [] => none
  | use :: earlier => (afterUses earlier).use use

@[simp] theorem afterUses_nil : afterUses [] = none := rfl

@[simp] theorem afterUses_cons (use : Use) (earlier : List Use) :
    afterUses (use :: earlier) = (afterUses earlier).use use := rfl

theorem takeChosen_eq (ws : Windows) (id : Nat) :
    ∃ chosen, (ws.takeChosen id).2 = { ws with chosen } := by
  unfold takeChosen
  split
  · split
    · exact ⟨_, rfl⟩
    · exact ⟨_, rfl⟩
  · exact ⟨_, rfl⟩

/-! ## A frame -/

/-- A tap closes what is open. -/
def dismiss (ws : Windows) : Windows :=
  { ws with balloons := ws.balloons.map fun w => if w.isOpened then w.close else w }

/-- How the windows respond to the player in a frame. -/
inductive Responds (ws : Windows) (input : Input) : Bool × Windows → Prop
  | counts (counting : 0 < ws.pickedCount) : Responds ws input (false, ws.countPick)
  | picks (row : Nat) (idle : ws.pickedCount = 0) (choosing : ws.choosing = true)
      (opened : ws.anyOpened = true) (chosen : input.choice = some row)
      (inside : row < ws.choiceBalloons.length) : Responds ws input (true, ws.pick row)
  | dismisses (idle : ws.pickedCount = 0) (choosing : ws.choosing = false) :
      Responds ws input (ws.balloons.any Window.isOpened, ws.dismiss)
  | waits (idle : ws.pickedCount = 0)
      (unpicked : ∀ row, ws.choosing = true → ws.anyOpened = true → input.choice = some row →
        ¬ row < ws.choiceBalloons.length) : Responds ws input (false, ws)

theorem responds (ws : Windows) (input : Input) : Responds ws input (ws.respond input) := by
  unfold respond
  split
  · next hcount => exact .counts hcount
  · next hcount =>
    have hidle : ws.pickedCount = 0 := by grind
    split
    · next hopen =>
      obtain ⟨hchoosing, hopened⟩ := Bool.and_eq_true_iff.1 hopen
      split
      · next row hchoice =>
        split
        · next hrow => exact .picks row hidle hchoosing hopened hchoice hrow
        · next hrow =>
          refine .waits hidle fun other _ _ hother => ?_
          obtain rfl := Option.some.inj (hchoice.symm.trans hother)
          exact hrow
      · next hnone => exact .waits hidle fun row _ _ hrow => by simp [hnone] at hrow
    · next hclosed =>
      have hunpicked : ∀ row, ws.choosing = true → ws.anyOpened = true →
          input.choice = some row → ¬ row < ws.choiceBalloons.length := by
        intro row hchoosing hopened
        simp [hchoosing, hopened] at hclosed
      split
      · next hdismiss => exact .dismisses hidle (by simpa using (Bool.and_eq_true_iff.1 hdismiss).1)
      · exact .waits hidle hunpicked

end Windows
end Adventure
