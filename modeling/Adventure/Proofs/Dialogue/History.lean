import Adventure.World.Windows

/-!
# Histories of the windows

All interpreters share one set of windows, and their calls come in any order.  A history is the
list of calls made so far, the latest first, so that what follows from a history is defined by
recursion on it: the windows themselves, the choices that an interpreter still waits for, and the
rows that the player picked for it.
-/

namespace Adventure.Windows

/-- A column of choices: the interpreter that asked, a text, and whether it was picked before. -/
abbrev Column := List (Nat × String × Bool)

/-- What interpreters and the player do to the windows. -/
inductive Call where
  | showMessage (content : String) (eventId : Int32) (interpreterId : Nat)
  | showBalloon (content : String) (eventId : Int32) (interpreterId : Nat)
  /-- There is at least one choice. -/
  | showChoices (first : String × Bool) (rest : List (String × Bool)) (interpreterId : Nat)
  | update (input : Input)
  | takeChosen (interpreterId : Nat)

/-- Whether a call asks for choices. -/
def Call.asks : Call → Bool
  | showChoices _ _ _ => true
  | _ => false

/-- The windows after a call. -/
def perform (ws : Windows) : Call → Windows
  | .showMessage content eventId id => ws.showMessage content eventId id
  | .showBalloon content eventId id => ws.showBalloon content eventId id
  | .showChoices first rest id => ws.showChoices (first :: rest) id
  | .update input => (ws.update input).2
  | .takeChosen id => (ws.takeChosen id).2

/-- The windows after a history. -/
def after : List Call → Windows
  | [] => none
  | call :: earlier => (after earlier).perform call

@[simp] theorem after_nil : after [] = none := rfl

@[simp] theorem after_cons (call : Call) (earlier : List Call) :
    after (call :: earlier) = (after earlier).perform call := rfl

/-! ## Choices and picks -/

/-- The choices on the screen. -/
def column (ws : Windows) : Column :=
  ws.choiceBalloons.map fun w => (w.interpreterId, w.content, w.checked)

/-- Whether an input picks a row: the choice is the player's, and with it the choosing ends. -/
def picks (ws : Windows) (input : Input) (row : Nat) : Bool :=
  input.choice == some row && ws.choosing && !(ws.update input).2.choosing

/-- The choices that an interpreter asked for last, as long as it has not taken its answer. -/
def waiting? (id : Nat) : List Call → Option Column
  | [] => .none
  | .showChoices first rest asker :: earlier =>
    if asker = id then some ((first :: rest).map (Prod.mk id)) else waiting? id earlier
  | .takeChosen taker :: earlier =>
    if taker = id && (after earlier).hasChosen id then .none else waiting? id earlier
  | _ :: earlier => waiting? id earlier

/-- Whether, since an interpreter asked for choices last, the player picked a row while just these
choices were on the screen and the row was one of them. -/
def pickedFor (id row : Nat) : List Call → Bool
  | [] => false
  | .showChoices _ _ asker :: earlier => asker != id && pickedFor id row earlier
  | .update input :: earlier =>
    let ws := after earlier
    (ws.picks input row && waiting? id earlier == some ws.column && row < ws.column.length) ||
      pickedFor id row earlier
  | _ :: earlier => pickedFor id row earlier

/-! ## A frame -/

section Frame

variable (ws : Windows) (input : Input)

theorem update_eq : (ws.update input).2 = (ws.openNext.respond input).2.animate := rfl

/-- A window that opens leaves everything about choices as it is. -/
theorem openNext_eq : ∃ next balloons, ws.openNext = { ws with next, balloons } := by
  unfold openNext
  split
  · split
    · exact ⟨_, _, rfl⟩
    · exact ⟨_, _, rfl⟩
  · exact ⟨_, _, rfl⟩

/-- Nothing new opens while the player chooses. -/
theorem openNext_of_choosing (h : ws.choosing = true) : ws.openNext = ws := by
  unfold openNext
  split
  · simp [h]
  · rfl

variable {ws}

/-- After a pick, whatever the input: either the count goes on, or it ends and the row is handed
to the interpreter that the choices are for. -/
theorem update_of_counting (h : 0 < ws.pickedCount) :
    let ws' := (ws.update input).2
    ws'.choosing = ws.choosing ∧ ws'.pickedCount = ws.pickedCount - 1 ∧
      if ws.pickedCount - 1 = 0 then ws'.chosen = some (ws.choosingId, ws.pickedRow)
      else ws'.chosen = ws.chosen ∧ ws'.choosingId = ws.choosingId ∧
        ws'.pickedRow = ws.pickedRow := by
  obtain ⟨next, balloons, hopen⟩ := openNext_eq ws
  simp only [update_eq, hopen, respond, gt_iff_lt, h, ↓reduceIte, countPick]
  split
  · next hlast => exact ⟨rfl, hlast.symm, rfl⟩
  · exact ⟨rfl, rfl, rfl, rfl, rfl⟩

/-- Without choices to pick from, and without a pick to count, a frame leaves it so. -/
theorem update_of_idle (h : ws.choosing = false) (hcount : ws.pickedCount = 0) :
    let ws' := (ws.update input).2
    ws'.choosing = false ∧ ws'.pickedCount = 0 ∧ ws'.chosen = ws.chosen := by
  obtain ⟨next, balloons, hopen⟩ := openNext_eq ws
  have hpos : ¬ 0 < ws.pickedCount := by simp [hcount]
  simp only [update_eq, hopen, respond, gt_iff_lt, hpos, h, ↓reduceIte, Bool.false_and,
    Bool.false_eq_true, Bool.not_false, Bool.true_and]
  split
  · exact ⟨rfl, hcount, rfl⟩
  · exact ⟨rfl, hcount, rfl⟩

/-- A window of a column that the player can pick from. -/
def Window.IsOpenChoice (w : Window) : Prop := w.state = .opening ∨ w.state = .opened

/-- In a frame a window changes its state and its count at most. -/
theorem Window.update_keeps (w : Window) :
    ∃ state count, w.update = { w with state := state, count := count } := by
  unfold Window.update
  split
  · exact ⟨w.state, w.count, rfl⟩
  · dsimp only
    split
    · exact ⟨w.state, _, rfl⟩
    · exact ⟨_, _, rfl⟩

theorem Window.isOpenChoice_update {w : Window} (h : Window.IsOpenChoice w) :
    Window.IsOpenChoice w.update := by
  unfold Window.update
  split
  · exact h
  · dsimp only
    split
    · exact h
    · rcases h with hopening | hopened
      · exact .inr (by simp [hopening])
      · exact .inr (by simp [hopened])

/-- The windows of an open column stay on the screen. -/
theorem animate_column (h : ∀ w ∈ ws.choiceBalloons, Window.IsOpenChoice w) :
    ws.animate.column = ws.column ∧ ∀ w ∈ ws.animate.choiceBalloons, Window.IsOpenChoice w := by
  have hopen : ∀ w ∈ ws.choiceBalloons.map Window.update, Window.IsOpenChoice w :=
    List.forall_mem_map.2 fun w hw => Window.isOpenChoice_update (h w hw)
  have hkeep : ws.animate.choiceBalloons = ws.choiceBalloons.map Window.update := by
    refine List.filter_eq_self.2 fun w hw => ?_
    rcases hopen w hw with hstate | hstate
    · simp [hstate]
    · simp [hstate]
  refine ⟨?_, fun w hw => hopen w (hkeep ▸ hw)⟩
  simp only [column, hkeep, List.map_map]
  refine List.map_congr_left fun w _ => ?_
  obtain ⟨state, count, hupdate⟩ := Window.update_keeps w
  simp [hupdate]

/-- While the player chooses, either the input picks a row of the column, or the column stays. -/
theorem update_of_choosing (h : ws.choosing = true) (hcount : ws.pickedCount = 0)
    (hopen : ∀ w ∈ ws.choiceBalloons, Window.IsOpenChoice w) :
    let ws' := (ws.update input).2
    ws'.choosingId = ws.choosingId ∧ ws'.chosen = ws.chosen ∧
      ((∃ row, ws.picks input row = true ∧ row < ws.column.length ∧ ws'.choosing = false ∧
          0 < ws'.pickedCount ∧ ws'.pickedRow = row) ∨
        (ws'.choosing = true ∧ ws'.pickedCount = 0 ∧ ws'.column = ws.column ∧
          ∀ w ∈ ws'.choiceBalloons, Window.IsOpenChoice w)) := by
  have hpos : ¬ 0 < ws.pickedCount := by simp [hcount]
  have hstay : ws.animate.choosing = true ∧ ws.animate.pickedCount = 0 ∧
      ws.animate.column = ws.column ∧
      ∀ w ∈ ws.animate.choiceBalloons, Window.IsOpenChoice w :=
    ⟨h, hcount, animate_column hopen⟩
  have hrespond : (ws.respond input).2 = ws ∨ ∃ row, input.choice = some row ∧
      row < ws.choiceBalloons.length ∧ (ws.respond input).2 = ws.pick row := by
    unfold respond
    simp only [gt_iff_lt, hpos, h, ↓reduceIte, Bool.true_and, Bool.not_true, Bool.false_and,
      Bool.false_eq_true]
    split
    · cases hchoice : input.choice with
      | none => exact .inl rfl
      | some row =>
        dsimp only
        split
        · next hrow => exact .inr ⟨row, rfl, hrow, rfl⟩
        · exact .inl rfl
    · exact .inl rfl
  simp only [update_eq, openNext_of_choosing ws h]
  rcases hrespond with hsame | ⟨row, hchoice, hrow, hpick⟩
  · rw [hsame]
    exact ⟨rfl, rfl, .inr hstay⟩
  · rw [hpick]
    refine ⟨rfl, rfl, .inl ⟨row, ?_, by simpa [column] using hrow, rfl, ?_, rfl⟩⟩
    · simp only [picks, hchoice, h, update_eq, openNext_of_choosing ws h, hpick, beq_self_eq_true,
        Bool.true_and, Bool.not_eq_true']
      rfl
    · show (0 : UInt32) < pickedFrames
      decide

end Frame

end Adventure.Windows
