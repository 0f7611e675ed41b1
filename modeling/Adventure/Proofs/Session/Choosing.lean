import Adventure.Proofs.Dialogue.History
import Adventure.Proofs.Session.Registry

/-!
# Choices and their branches

A script that opens choices shows the ones that are visible then.  When the player has picked a row,
the script goes on with the choice that stands in this row by the time the script takes it.  In
between, other scripts and the host may change what is visible.  So the script enters the branch of
the picked text exactly if the choice still stands in its row.
-/

namespace Adventure

open Moment (Next Trail)

/-! ## Rows -/

namespace World

variable (w : World) (platform : Platform) (project : Project) (eventId : Int32)
  (order : ChoicesOrder)

/-- The choices that are visible, in the order of their rows. -/
def shownIndices : List Nat :=
  (List.range order.choices.length).filter (w.isShown project eventId order)

theorem choiceInRow_eq (row : Nat) :
    w.choiceInRow project eventId order row =
      ((w.shownIndices project eventId order)[row]?).getD row := by
  unfold choiceInRow
  split
  · next hempty =>
    have hall : w.shownIndices project eventId order = List.range order.choices.length := by
      refine List.filter_eq_self.2 fun index _ => ?_
      simp [isShown, List.isEmpty_iff.1 hempty]
    rw [hall]
    by_cases hrow : row < order.choices.length
    · simp [hrow]
    · simp [Nat.not_lt.1 hrow]
  · rfl

/-- A choice stands in a row if it is shown there, or if it has the number of a row behind the shown
ones. -/
theorem choiceInRow_eq_iff (row index : Nat) :
    w.choiceInRow project eventId order row = index ↔
      (w.shownIndices project eventId order)[row]? = some index ∨
        (w.shownIndices project eventId order).length ≤ row ∧ index = row := by
  rw [choiceInRow_eq]
  by_cases hrow : row < (w.shownIndices project eventId order).length
  · simp [hrow]
  · simp [Nat.not_lt.1 hrow, eq_comm]

/-- Each row shows the text of the choice that stands in it. -/
theorem exists_of_row {row : Nat}
    (h : row < (w.shownChoices platform project eventId order).length) :
    ∃ index choice, (w.shownIndices project eventId order)[row]? = some index ∧
      order.choices[index]? = some choice ∧
      (w.shownChoices platform project eventId order)[row]? = some
        (w.messageText platform project choice, w.isChecked project eventId order index) := by
  obtain ⟨rows, hrows⟩ : ∃ rows, rows = order.choices.zipIdx.filter fun x =>
    w.isShown project eventId order x.2 := ⟨_, rfl⟩
  have hshown : w.shownChoices platform project eventId order = rows.map fun x =>
      (w.messageText platform project x.1, w.isChecked project eventId order x.2) := by
    rw [hrows]
    rfl
  have hindices : w.shownIndices project eventId order = rows.map (·.2) := by
    rw [shownIndices, List.range_eq_range', ← List.zipIdx_map_snd 0 order.choices,
      List.filter_map, hrows]
    rfl
  rw [hshown, List.length_map] at h
  refine ⟨rows[row].2, rows[row].1, by simp [hindices, h], ?_, by simp [hshown, h]⟩
  have hmem : ∀ x ∈ rows, x ∈ order.choices.zipIdx :=
    hrows ▸ fun x hx => List.mem_of_mem_filter hx
  exact List.mk_mem_zipIdx_iff_getElem?.1 (hmem _ (List.getElem_mem h))

end World

/-! ## Columns and picks -/

namespace Windows

variable {ws : Windows} {id row : Nat} {column : Column}

theorem takeChosen_eq_some : (ws.takeChosen id).1 = some row ↔ ws.chosen = some (id, row) := by
  unfold takeChosen
  split
  · next asker row' hchosen =>
    split
    · next hasker => simp [hchosen, hasker]
    · next hasker => simp [hchosen, hasker]
  · next hchosen => simp [hchosen]

/-- The player is offered a column of choices, and nothing was picked. -/
structure Offers (ws : Windows) (id : Nat) (column : Column) : Prop where
  choosing : ws.choosing = true
  asker : ws.choosingId = id
  uncounted : ws.pickedCount = 0
  unchosen : ws.chosen = .none
  opened : ∀ w ∈ ws.choiceBalloons, Window.IsOpenChoice w
  column : ws.column = column

/-- A row was picked for an interpreter: it is counted down, or waits for it. -/
inductive Decided (ws : Windows) (id row : Nat) : Prop where
  | counting (chosen : ws.choosing = false) (asker : ws.choosingId = id)
      (count : 0 < ws.pickedCount) (unchosen : ws.chosen = .none) (picked : ws.pickedRow = row)
  | answered (chosen : ws.choosing = false) (uncounted : ws.pickedCount = 0)
      (answer : ws.chosen = some (id, row))

theorem offers_showChoices (free : ws.pickedCount = 0) (choices : List (String × Bool)) (id : Nat) :
    (ws.showChoices choices id).Offers id (choices.map (Prod.mk id)) := by
  refine ⟨rfl, rfl, free, rfl, ?_, ?_⟩
  · intro w hw
    obtain ⟨choice, _, rfl⟩ := List.mem_map.1 hw
    exact .inl rfl
  · simp only [Windows.column, showChoices, List.map_map]
    rfl

/-- The player picks a row that is offered, or the choices stay on the screen. -/
theorem Offers.update (h : ws.Offers id column) (input : Input) :
    (ws.update input).2.Offers id column ∨
      ∃ row, ws.picks input row = true ∧ row < column.length ∧
        (ws.update input).2.Decided id row := by
  obtain ⟨hasker, hchosen, hnext⟩ := update_of_choosing input h.choosing h.uncounted h.opened
  rcases hnext with ⟨row, hpicks, hrow, hchoosing, hcount, hpicked⟩ |
    ⟨hchoosing, hcount, hcolumn, hopened⟩
  · exact .inr ⟨row, hpicks, h.column ▸ hrow,
      .counting hchoosing (hasker.trans h.asker) hcount (hchosen.trans h.unchosen) hpicked⟩
  · exact .inl ⟨hchoosing, hasker.trans h.asker, hcount, hchosen.trans h.unchosen, hopened,
      hcolumn.trans h.column⟩

theorem Decided.update (h : ws.Decided id row) (input : Input) :
    (ws.update input).2.Decided id row := by
  cases h with
  | counting chosen asker count unchosen picked =>
    obtain ⟨hchoosing, hcount, hnext⟩ := update_of_counting input count
    by_cases hlast : ws.pickedCount - 1 = 0
    · rw [if_pos hlast, asker, picked] at hnext
      exact .answered (hchoosing.trans chosen) (hcount.trans hlast) hnext
    · rw [if_neg hlast] at hnext
      obtain ⟨hchosen, hasker, hpicked⟩ := hnext
      refine .counting (hchoosing.trans chosen) (hasker.trans asker) ?_ (hchosen.trans unchosen)
        (hpicked.trans picked)
      rw [hcount]
      exact UInt32.pos_iff_ne_zero.2 hlast
  | answered chosen uncounted answer =>
    obtain ⟨hchoosing, hcount, hchosen⟩ := update_of_idle input chosen uncounted
    exact .answered hchoosing hcount (hchosen.trans answer)

theorem Offers.queue (h : ws.Offers id column) (next : Option Window) :
    Offers { ws with next } id column :=
  ⟨h.choosing, h.asker, h.uncounted, h.unchosen, h.opened, h.column⟩

theorem Decided.queue (h : ws.Decided id row) (next : Option Window) :
    Decided { ws with next } id row := by
  cases h with
  | counting chosen asker count unchosen picked =>
    exact .counting chosen asker count unchosen picked
  | answered chosen uncounted answer => exact .answered chosen uncounted answer

/-- Nobody but the interpreter that a row was picked for takes a row. -/
theorem Decided.eq_of_chosen (h : ws.Decided id row) {id' row' : Nat}
    (chosen : ws.chosen = some (id', row')) : id' = id ∧ row' = row := by
  cases h with
  | counting _ _ _ unchosen _ => cases unchosen.symm.trans chosen
  | answered _ _ answer =>
    obtain ⟨rfl, rfl⟩ := Prod.mk.inj (Option.some.inj (answer.symm.trans chosen))
    exact ⟨rfl, rfl⟩

end Windows

/-! ## Opening choices and taking rows -/

theorem Interpreter.current?_of_running {project : Project} {i j : Interpreter} {s t : Session}
    {c : Command} (h : i.running? s project = some (j, t, c)) : j.current? = some c :=
  (running?_eq_some h).2.2.2

theorem Interpreter.terminated_of_running {project : Project} {i j : Interpreter} {s t : Session}
    {c : Command} (h : i.running? s project = some (j, t, c)) : j.terminated = false := by
  obtain ⟨hlive, _, hwalk, _⟩ := running?_eq_some h
  rcases updateWalk_cases { i with wait := .none } s project with
    ⟨walk, w, _, hwalks⟩ | ⟨w, _, hwalks⟩
  · simp [hwalks] at hwalk
  · obtain ⟨rfl, _⟩ := Prod.mk.inj (Prod.mk.inj (hwalks.symm.trans hwalk)).2
    exact hlive

namespace Moment

/-- The choices that the script whose turn it is is about to open: its id, the event that it acts
for, the order and the branches, and the world that decides what is visible. -/
def opening? (project : Project) (m : Moment) :
    Option (Nat × Int32 × ChoicesOrder × List Script × World) :=
  match m.turn with
  | [] => none
  | i :: _ =>
    match i.isChoosing, i.running? m.session project with
    | false, some (j, t, .act (.showChoices order) branches) =>
      some (i.id, j.actingEvent, order, branches, t.world)
    | _, _ => none

/-- The script whose turn it is, if it waits for its choice. -/
def choosing? (m : Moment) : Option Nat :=
  match m.turn with
  | [] => none
  | i :: _ => if i.isChoosing then some i.id else none

/-- A script opens choices. -/
structure Opens (project : Project) (id : Nat) (event : Int32) (order : ChoicesOrder)
    (branches : List Script) (w : World) (m m' : Moment) : Prop where
  opening : m.opening? project = some (id, event, order, branches, w)
  choosing : m'.choosing? = some id

/-- The id of the script that takes a row, and the row. -/
def taking? (m : Moment) : Option (Nat × Nat) :=
  match m.turn with
  | [] => none
  | i :: _ =>
    if i.isChoosing then (m.session.world.windows.takeChosen i.id).1.map (i.id, ·) else none

variable {project : Project} {inputs : Input → Prop} {collects : Prop} {m m' : Moment}

theorem opening?_eq_some {id : Nat} {event : Int32} {order : ChoicesOrder} {branches : List Script}
    {w : World} : m.opening? project = some (id, event, order, branches, w) ↔
      ∃ i rest j t, m.turn = i :: rest ∧ i.id = id ∧ i.isChoosing = false ∧
        i.running? m.session project = some (j, t, .act (.showChoices order) branches) ∧
        j.actingEvent = event ∧ t.world = w := by
  unfold opening?
  split
  · next h => simp [h]
  · next i rest h =>
    split
    · next j t order' branches' hunchosen hrunning =>
      simp only [h, Option.some.injEq, Prod.mk.injEq]
      constructor
      · rintro ⟨rfl, rfl, rfl, rfl, rfl⟩
        exact ⟨i, rest, j, t, rfl, rfl, hunchosen, hrunning, rfl, rfl⟩
      · rintro ⟨i', rest', j', t', hturn, hid, _, hrunning', hevent, hw⟩
        obtain ⟨rfl, rfl⟩ := List.cons.inj hturn
        simp only [hrunning, Option.some.injEq, Prod.mk.injEq, Command.act.injEq,
          Action.showChoices.injEq] at hrunning'
        obtain ⟨rfl, rfl, rfl, rfl⟩ := hrunning'
        exact ⟨hid, hevent, rfl, rfl, hw⟩
    · next hno =>
      simp only [h, reduceCtorEq, false_iff, not_exists]
      rintro i' rest' j' t' ⟨hturn, _, hunchosen, hrunning, _⟩
      obtain ⟨rfl, rfl⟩ := List.cons.inj hturn
      exact hno _ _ _ _ hunchosen hrunning

theorem choosing?_eq_some {id : Nat} : m.choosing? = some id ↔
    ∃ i rest, m.turn = i :: rest ∧ i.id = id ∧ i.isChoosing = true := by
  unfold choosing?
  split
  · next h => simp [h]
  · next i rest h =>
    by_cases hchoosing : i.isChoosing = true
    · simp [h, hchoosing]
    · simp [h, hchoosing]

theorem taking?_eq_some {id row : Nat} : m.taking? = some (id, row) ↔
    ∃ i rest, m.turn = i :: rest ∧ i.id = id ∧ i.isChoosing = true ∧
      m.session.world.windows.chosen = some (id, row) := by
  unfold taking?
  split
  · next h => simp [h]
  · next i rest h =>
    have hrow : (m.session.world.windows.takeChosen i.id).1.map (i.id, ·) = some (id, row) ↔
        i.id = id ∧ m.session.world.windows.chosen = some (id, row) := by
      rw [Option.map_eq_some_iff]
      constructor
      · rintro ⟨row', htaken, heq⟩
        obtain ⟨rfl, rfl⟩ := Prod.mk.inj heq
        exact ⟨rfl, Windows.takeChosen_eq_some.1 htaken⟩
      · rintro ⟨rfl, hchosen⟩
        exact ⟨row, Windows.takeChosen_eq_some.2 hchosen, rfl⟩
    by_cases hchoosing : i.isChoosing = true
    · simp [h, hchoosing, hrow]
    · simp [h, hchoosing]

/-- Where a script opens choices, it stands on the command from then on, and the player is offered
what is visible. -/
theorem Opens.exists_opened {id : Nat} {event : Int32} {order : ChoicesOrder}
    {branches : List Script} {w : World} (h : Opens project id event order branches w m m')
    (registry : m.Registry) (next : Next project inputs collects m m') :
    ∃ j rest, m'.turn = j :: rest ∧ j.id = id ∧ j.isChoosing = true ∧ j.actingEvent = event ∧
      j.current? = some (.act (.showChoices order) branches) ∧
      m'.session.world.windows =
        w.windows.showChoices (w.shownChoices m.session.platform project event order) id := by
  obtain ⟨i, rest, j, t, hturn, hid, unchosen, running, hevent, rfl⟩ :=
    opening?_eq_some.1 h.opening
  obtain ⟨i', rest', hturn', hid', choosing⟩ := choosing?_eq_some.1 h.choosing
  rcases next.recruits_or_step with ⟨started, hstarted, hle⟩ | ⟨s, ran, k, others, rfl, rfl⟩
  · -- a script that does not make a step does not begin to wait for choices
    have hi' : i' ∈ m'.scripts := by simp [scripts, off, hturn']
    have hi : i ∈ m.scripts := by simp [scripts, off, hturn]
    rcases Multiset.mem_add.1 (Multiset.subset_of_le hle hi') with hold | hnew
    · rw [registry.eq_of_id_eq hold hi (hid'.trans hid.symm), unchosen] at choosing
      cases choosing
    · rw [(hstarted.fresh i' (Multiset.mem_coe.1 hnew)).isChoosing] at choosing
      cases choosing
  · obtain ⟨rfl, rfl⟩ := List.cons.inj hturn
    obtain ⟨hgoes, _⟩ : k.GoesTo project s (k.step s project).2 :=
      Interpreter.goesTo_step registry.coherent_of_turn
    have hcurrent := Interpreter.current?_of_running running
    generalize (k.step s project).2 = r at hgoes hturn' ⊢
    obtain ⟨k', s'⟩ := r
    obtain ⟨rfl, rfl⟩ := List.cons.inj hturn'
    dsimp only at hgoes ⊢
    cases hgoes with
    | opens running' pending id unawaited unchosen shown world =>
      rw [running] at running'
      simp only [Option.some.injEq, Prod.mk.injEq, Command.act.injEq,
        Action.showChoices.injEq] at running'
      obtain ⟨rfl, rfl, rfl, rfl⟩ := running'
      refine ⟨_, _, rfl, hid', choosing, hevent, hcurrent, ?_⟩
      rw [← hid', ← hevent, shown]
    | ended => exact absurd choosing (by simp [unchosen])
    | waits =>
      have hsame : k.keepWaiting.isChoosing = k.isChoosing := by
        unfold Interpreter.keepWaiting
        split <;> rfl
      exact absurd choosing (by simp [hsame, unchosen])
    | answered =>
      obtain ⟨frames, hpast⟩ := k.goPast_eq
      exact absurd choosing (by simp [hpast, Interpreter.isChoosing])
    | aside _ _ _ _ unchosen' | speaks _ _ _ _ _ unchosen' | asks _ _ _ _ _ unchosen'
    | queues _ _ _ _ unchosen' | chooses _ _ _ _ unchosen' =>
      exact absurd choosing (by simp [unchosen'])

/-- What a passage does to the windows, if no choices are opened. -/
theorem Next.windows_cases (next : Next project inputs collects m m') (h : m.Registry)
    (unopened : ∀ id event order branches w, ¬ Opens project id event order branches w m m') :
    (∃ next, m'.session.world.windows = { m.session.world.windows with next }) ∨
      (∃ s input, inputs input ∧ m = still s ∧ m' = still (s.updateWindows input).2) ∨
      ∃ taken, m.taking? = some taken := by
  cases next with
  | quiet quiet => exact .inl ⟨_, quiet.windows⟩
  | windows s hinput => exact .inr (.inl ⟨s, _, hinput, rfl, rfl⟩)
  | collect s _ => exact .inl ⟨_, rfl⟩
  | deliver s a asked => exact .inl ⟨_, rfl⟩
  | ask s unsaved => exact .inl ⟨_, rfl⟩
  | collectSave s =>
    obtain ⟨save, hworld⟩ := collectSave_world s
    exact .inl ⟨_, congrArg (·.windows) hworld⟩
  | sendScheduledSave s =>
    obtain ⟨save, scheduled, hworld⟩ := sendScheduledSave_world s
    exact .inl ⟨_, congrArg (·.windows) hworld⟩
  | requestSave s =>
    obtain ⟨save, hworld⟩ := requestSave_world s
    exact .inl ⟨_, congrArg (·.windows) hworld⟩
  | step s ran i rest =>
    obtain ⟨hgoes, _⟩ : i.GoesTo project s (i.step s project).2 :=
      Interpreter.goesTo_step h.coherent_of_turn
    have hopens : ∀ (order : ChoicesOrder) (branches : List Script) (j : Interpreter) (w : World),
        i.running? s project = some (j, { s with world := w }, .act (.showChoices order) branches) →
        i.isChoosing = false → ¬ (i.step s project).2.1.isChoosing = true := by
      intro order branches j w running unchosen choosing
      exact unopened i.id j.actingEvent order branches w
        ⟨opening?_eq_some.2 ⟨i, rest, j, _, rfl, rfl, unchosen, running, rfl, rfl⟩,
          choosing?_eq_some.2 ⟨_, rest, rfl, hgoes.id_eq, choosing⟩⟩
    generalize (i.step s project).2 = r at hgoes hopens ⊢
    obtain ⟨i', s'⟩ := r
    dsimp only at hgoes hopens ⊢
    cases hgoes with
    | ended | waits | answered => exact .inl ⟨_, rfl⟩
    | speaks window _ _ _ _ _ world => exact .inl ⟨some window, by rw [← world.windows]⟩
    | aside _ _ _ _ _ world | asks _ _ _ _ _ _ _ world | queues _ _ _ _ _ world =>
      exact .inl ⟨_, world.windows⟩
    | opens running pending id unawaited unchosen shown world =>
      refine absurd ?_ (hopens _ _ _ _ running unchosen)
      simp [Interpreter.isChoosing, Interpreter.terminated_of_running running]
    | @chooses _ _ row _ _ _ choosing _ taken _ _ =>
      refine .inr (.inr ⟨(i.id, row), taking?_eq_some.2 ⟨i, rest, rfl, rfl, choosing, ?_⟩⟩)
      exact Windows.takeChosen_eq_some.1 taken

/-- A script that waits for its choice and takes no row stays as it is. -/
theorem Next.eq_of_untaken (next : Next project inputs collects m m') (h : m.Registry)
    {i : Interpreter} (choosing : i.isChoosing = true)
    (untaken : ∀ row, m.taking? ≠ some (i.id, row))
    (old : i.id ≤ m.session.world.lastInterpreterId)
    (same : ∀ j ∈ m.scripts, j.id = i.id → j = i) :
    i.id ≤ m'.session.world.lastInterpreterId ∧ ∀ j ∈ m'.scripts, j.id = i.id → j = i := by
  by_cases turn : m.IsTurnOf i.id
  · rcases next.recruits_or_step with ⟨started, hstarted, hle⟩ | ⟨s, ran, j, rest, rfl, rfl⟩
    · refine ⟨old.trans hstarted.le, fun j hj hid => same j ?_ hid⟩
      exact mem_scripts_of_le hstarted hle hj (hid ▸ old)
    · obtain ⟨_, _, hturn, hid⟩ := turn
      obtain ⟨rfl, rfl⟩ := List.cons.inj hturn
      have hj : j ∈ (Moment.mk s ran (j :: rest)).scripts :=
        Registry.scripts_turn s ran j rest ▸ Multiset.mem_cons_self _ _
      obtain rfl : j = i := same j hj hid
      have hnone : (s.world.windows.takeChosen j.id).1 = none := by
        rw [Option.eq_none_iff_forall_ne_some]
        intro row htaken
        refine untaken row (taking?_eq_some.2 ⟨j, rest, rfl, rfl, choosing, ?_⟩)
        exact Windows.takeChosen_eq_some.1 htaken
      have hcoherent := h.coherent j hj (Interpreter.isChoosing_iff.1 choosing).1
      rw [Interpreter.step_of_unchosen hcoherent choosing hnone]
      exact ⟨old, same⟩
  · obtain ⟨hold, hthere⟩ := next.mem_scripts h turn old
    exact ⟨hold, fun j hj hid => same j (hthere j hj hid) hid⟩

section Stretches

/-- From one moment of a story to another, the player picks a row while a certain column is on the
screen. -/
def PicksBetween (inputs : Input → Prop) (moments : List Moment) (first last : Nat)
    (column : Windows.Column) (row : Nat) : Prop :=
  ∃ k s input, first ≤ k ∧ k < last ∧ inputs input ∧ moments[k]? = some (still s) ∧
    moments[k + 1]? = some (still (s.updateWindows input).2) ∧
    s.world.windows.column = column ∧ s.world.windows.picks input row = true

theorem PicksBetween.mono {moments : List Moment} {first last last' : Nat} {column : Windows.Column}
    {row : Nat} (h : PicksBetween inputs moments first last column row) (le : last ≤ last') :
    PicksBetween inputs moments first last' column row := by
  obtain ⟨k, s, input, hfirst, hlast, hpicks⟩ := h
  exact ⟨k, s, input, hfirst, hlast.trans_le le, hpicks⟩

/-- The column of an interpreter is on the screen, or the player has picked a row of it. -/
def OffersOrPicked (inputs : Input → Prop) (moments : List Moment) (first : Nat) (id : Nat)
    (column : Windows.Column) (k : Nat) (m : Moment) : Prop :=
  m.session.world.windows.Offers id column ∨
    ∃ row, m.session.world.windows.Decided id row ∧ row < column.length ∧
      PicksBetween inputs moments first k column row

variable {m₀ m₁ a n : Moment} {moments : List Moment} {first last : Nat}

theorem Trail.registry_at (trail : Trail project inputs collects m₀ moments m₁)
    (registry : m₀.Registry) {k : Nat} (ha : (m₀ :: moments)[k]? = some a) : a.Registry :=
  trail.invariant registry (fun _ _ next h => h.passage next) a (List.mem_of_getElem? ha)

/-- The script that takes a row is the one that waited for its choice all the time. -/
theorem Trail.turn_of_taking (trail : Trail project inputs collects m₀ moments m₁)
    (registry : m₀.Registry) {i : Interpreter} {row : Nat} (choosing : i.isChoosing = true)
    (ha : (m₀ :: moments)[first]? = some a) (there : i ∈ a.scripts) (le : first ≤ last)
    (hn : (m₀ :: moments)[last]? = some n) (takes : n.taking? = some (i.id, row))
    (untaken : ∀ k x, first ≤ k → k < last → (m₀ :: moments)[k]? = some x →
      ∀ r, x.taking? ≠ some (i.id, r)) : ∃ rest, n.turn = i :: rest := by
  have hfirst := trail.registry_at registry ha
  obtain ⟨_, hsame⟩ := trail.invariant_between
    (P := fun _ m =>
      i.id ≤ m.session.world.lastInterpreterId ∧ ∀ j ∈ m.scripts, j.id = i.id → j = i)
    le ha ⟨hfirst.ids_le i there, fun j hj hid => hfirst.eq_of_id_eq hj there hid⟩
    (fun k u v hle hlt hu _ next ⟨hold, hsame⟩ => next.eq_of_untaken (trail.registry_at registry hu)
      choosing (untaken k u hle hlt hu) hold hsame) hn
  obtain ⟨j, rest, hturn, hid, _⟩ := taking?_eq_some.1 takes
  have hj : j ∈ n.scripts := by simp [scripts, off, hturn]
  exact ⟨rest, hsame j hj hid ▸ hturn⟩

/-- A passage in which nobody opens choices and the interpreter takes no row. -/
theorem Next.offersOrPicked (next : Next project inputs collects m m') (h : m.Registry)
    (unopened : ∀ id event order branches w, ¬ Opens project id event order branches w m m')
    {id : Nat} (untaken : ∀ row, m.taking? ≠ some (id, row)) {column : Windows.Column} {k : Nat}
    (le : first ≤ k) (hm : moments[k]? = some m) (hm' : moments[k + 1]? = some m')
    (before : OffersOrPicked inputs moments first id column k m) :
    OffersOrPicked inputs moments first id column (k + 1) m' := by
  rcases next.windows_cases h unopened with ⟨queued, hwindows⟩ | ⟨s, input, hinput, rfl, rfl⟩ |
    ⟨⟨taker, row⟩, htaking⟩
  · rcases before with hoffers | ⟨row, hdecided, hrow, hpicks⟩
    · exact .inl (hwindows ▸ hoffers.queue queued)
    · exact .inr ⟨row, hwindows ▸ hdecided.queue queued, hrow, hpicks.mono (Nat.le_succ k)⟩
  · rcases before with hoffers | ⟨row, hdecided, hrow, hpicks⟩
    · rcases hoffers.update input with hstill | ⟨row, hpicks, hrow, hdecided⟩
      · exact .inl hstill
      · exact .inr ⟨row, hdecided, hrow, k, s, input, le, Nat.lt_succ_self k, hinput, hm, hm',
          hoffers.column, hpicks⟩
    · exact .inr ⟨row, hdecided.update input, hrow, hpicks.mono (Nat.le_succ k)⟩
  · obtain ⟨_, _, _, _, _, hchosen⟩ := taking?_eq_some.1 htaking
    rcases before with hoffers | ⟨row', hdecided, _⟩
    · cases hoffers.unchosen.symm.trans hchosen
    · obtain ⟨rfl, _⟩ := hdecided.eq_of_chosen hchosen
      exact absurd htaking (untaken row)

/-- A row that is taken from a column that is offered was picked by the player in between. -/
theorem Trail.picked_of_taking (trail : Trail project inputs collects m₀ moments m₁)
    (registry : m₀.Registry) {id row : Nat} {column : Windows.Column}
    (ha : (m₀ :: moments)[first]? = some a) (offers : a.session.world.windows.Offers id column)
    (le : first ≤ last) (hn : (m₀ :: moments)[last]? = some n)
    (takes : n.taking? = some (id, row))
    (untaken : ∀ k x, first ≤ k → k < last → (m₀ :: moments)[k]? = some x →
      ∀ r, x.taking? ≠ some (id, r))
    (unopened : ∀ k x y, first ≤ k → k < last → (m₀ :: moments)[k]? = some x →
      (m₀ :: moments)[k + 1]? = some y → ∀ id event order branches w,
        ¬ Opens project id event order branches w x y) :
    row < column.length ∧ PicksBetween inputs (m₀ :: moments) first last column row := by
  have hlast := trail.invariant_between
    (P := OffersOrPicked inputs (m₀ :: moments) first id column) le ha (.inl offers)
    (fun k u v hle hlt hu hv next hP => next.offersOrPicked (trail.registry_at registry hu)
      (unopened k u v hle hlt hu hv) (untaken k u hle hlt hu) hle hu hv hP) hn
  obtain ⟨_, _, _, _, _, hchosen⟩ := taking?_eq_some.1 takes
  rcases hlast with hoffers | ⟨row', hdecided, hrow, hpicks⟩
  · cases hoffers.unchosen.symm.trans hchosen
  · obtain ⟨_, rfl⟩ := hdecided.eq_of_chosen hchosen
    exact ⟨hrow, hpicks⟩

end Stretches

end Moment

/-! ## From the choices to a branch -/

namespace Session

variable {project : Project}

/-- A script that has opened choices and takes a row goes on with the choice that stands in the row
by then.  This is the choice that was displayed there exactly if it is still shown in this row, or
if there is no such row any more and it has the number of the row.  If the windows were free when
the choices were opened and nobody else opened any, then the player has picked the row while these
choices were on the screen, and there was a choice in it. -/
theorem Begins.goes_on_with_choice {s₀ : Session} (begins : Begins project s₀) (acts : List Act)
    {first last : Nat} {m m' n : Moment} {id row : Nat} {event : Int32} {order : ChoicesOrder}
    {branches : List Script} {w : World}
    (opening : (.still s₀ :: story project s₀ acts)[first]? = some m)
    (opened : (.still s₀ :: story project s₀ acts)[first + 1]? = some m')
    (opens : Moment.Opens project id event order branches w m m') (later : first < last)
    (taking : (.still s₀ :: story project s₀ acts)[last]? = some n)
    (takes : n.taking? = some (id, row))
    (untaken : ∀ k x, first < k → k < last → (.still s₀ :: story project s₀ acts)[k]? = some x →
      ∀ r, x.taking? ≠ some (id, r)) :
    (∃ i rest, n.turn = i :: rest ∧ i.id = id ∧ i.step n.session project = Interpreter.follow
      ⟨{ i with wait := .none, pending := none },
        { n.session with world := { n.session.world with
          windows := (n.session.world.windows.takeChosen id).2 } },
        i.choiceOutcome branches (n.session.world.choiceInRow project event order row)⟩) ∧
    (∀ index, (w.shownIndices project event order)[row]? = some index →
      (n.session.world.choiceInRow project event order row = index ↔
        (n.session.world.shownIndices project event order)[row]? = some index ∨
          (n.session.world.shownIndices project event order).length ≤ row ∧ index = row)) ∧
    (w.windows.pickedCount = 0 →
      (∀ k x y, first < k → k < last → (.still s₀ :: story project s₀ acts)[k]? = some x →
        (.still s₀ :: story project s₀ acts)[k + 1]? = some y →
        ∀ id event order branches w, ¬ Moment.Opens project id event order branches w x y) →
      let shown := (w.shownChoices m.session.platform project event order).map (Prod.mk id)
      Moment.PicksBetween (fun input => .tick input ∈ acts) (.still s₀ :: story project s₀ acts)
          (first + 1) last shown row ∧
        ∃ index choice checked, (w.shownIndices project event order)[row]? = some index ∧
          order.choices[index]? = some choice ∧
          shown[row]? = some (id, w.messageText m.session.platform project choice, checked)) := by
  have htrail : Trail project (fun input => .tick input ∈ acts) True (.still s₀)
      (story project s₀ acts) (.still (s₀.after project acts)) := s₀.trail_story acts fun _ h => h
  have hregistry := begins.registry
  obtain ⟨i, rest, hturn, rfl, hchoosing, hevent, hcurrent, hwindows⟩ :=
    opens.exists_opened (htrail.registry_at hregistry opening) (htrail.next_at opening opened)
  refine ⟨?_, fun index _ => World.choiceInRow_eq_iff _ _ _ _ _ _, fun free unopened => ?_⟩
  · have hthere : i ∈ m'.scripts := by simp [Moment.scripts, Moment.off, hturn]
    obtain ⟨rest', hturn'⟩ := htrail.turn_of_taking hregistry hchoosing opened hthere later taking
      takes untaken
    have hi : i ∈ n.scripts := by simp [Moment.scripts, Moment.off, hturn']
    have hcoherent := (htrail.registry_at hregistry taking).coherent i hi
      (Interpreter.isChoosing_iff.1 hchoosing).1
    obtain ⟨_, _, _, _, _, hchosen⟩ := Moment.taking?_eq_some.1 takes
    refine ⟨i, rest', hturn', rfl, ?_⟩
    rw [Interpreter.step_of_chosen hcoherent hchoosing hcurrent
      (Windows.takeChosen_eq_some.2 hchosen), hevent]
  · have hoffers := hwindows ▸ Windows.offers_showChoices free
      (w.shownChoices m.session.platform project event order) i.id
    obtain ⟨hrow, hpicks⟩ := htrail.picked_of_taking hregistry opened hoffers later taking takes
      untaken unopened
    rw [List.length_map] at hrow
    obtain ⟨index, choice, hindex, hchoice, hshown⟩ := World.exists_of_row w _ _ _ _ hrow
    exact ⟨hpicks, index, choice, _, hindex, hchoice, by rw [List.getElem?_map, hshown]; rfl⟩

end Session

/-- A script opens two choices, the first of them while a switch is off.  Each branch turns on a
switch of its own. -/
def forkRoom : Project := .emptyRoom
  [.act (.showChoices ⟨["left", "right"], [⟨some (.switch 1 false), none⟩]⟩)
    [[.act (.setSwitch 10 .constant true false) []],
      [.act (.setSwitch 11 .constant true false) []]]]

namespace Session

/-- The script opens its choices, and the host turns on the switch while they are on the screen. -/
def hidingLeft : List Act :=
  .startCommonEvent 1 :: List.replicate 5 (.tick .none) ++
    [.set { (default : Variables) with switches := SortedMap.empty.insert 1 true } default]

/-- The player picks the first row, and time goes by. -/
def pickingFirst : List Act :=
  .tick { Input.none with choice := some 0 } :: List.replicate 6 (.tick .none)

end Session

/-- The first row says left when the player picks it, and the script goes right. -/
theorem forkRoom_goes_right :
    ∃ w, World.start forkRoom 1 = .ok w ∧
      let s := Session.after forkRoom ⟨w, .start forkRoom .deferred⟩ Session.hidingLeft
      s.world.windows.column = [(1, "left", false), (1, "right", false)] ∧
        s.world.windows.picks { Input.none with choice := some 0 } 0 = true ∧
        (s.after forkRoom Session.pickingFirst).world.memory.switch 10 = false ∧
        (s.after forkRoom Session.pickingFirst).world.memory.switch 11 = true := by
  refine ⟨_, rfl, ?_⟩
  decide +kernel

/-- The first row is picked while the first choice stands in it, and the script goes on with the
second one. -/
theorem forkRoom_goes_on_with_choice :
    ∃ w m n event order branches w', World.start forkRoom 1 = .ok w ∧
      let s₀ : Session := ⟨w, .start forkRoom .deferred⟩
      let moments := .still s₀ ::
        Session.story forkRoom s₀ (Session.hidingLeft ++ Session.pickingFirst)
      Moment.opening? forkRoom m = some (1, event, order, branches, w') ∧
        (World.shownIndices w' forkRoom event order)[0]? = some 0 ∧
        Moment.PicksBetween (fun input => .tick input ∈ Session.hidingLeft ++ Session.pickingFirst)
          moments 10 181
          ((World.shownChoices w' (Moment.session m).platform forkRoom event order).map
            (Prod.mk 1)) 0 ∧
        ∃ i rest, Moment.turn n = i :: rest ∧ Interpreter.id i = 1 ∧
          i.step n.session forkRoom = Interpreter.follow
            ⟨{ i with wait := .none, pending := none },
              { n.session with world := { n.session.world with
                windows := (n.session.world.windows.takeChosen 1).2 } },
              i.choiceOutcome branches 1⟩ := by
  have hrun : ∃ w, World.start forkRoom 1 = .ok w ∧
      let s₀ : Session := ⟨w, .start forkRoom .deferred⟩
      let moments := .still s₀ ::
        Session.story forkRoom s₀ (Session.hidingLeft ++ Session.pickingFirst)
      moments[9]?.any (fun m => (m.opening? forkRoom).any fun (id, event, order, _, w') =>
          id == 1 && w'.windows.pickedCount == 0 &&
            (w'.shownIndices forkRoom event order)[0]? == some 0 &&
            moments[181]?.any fun n => n.taking? == some (1, 0) &&
              n.session.world.choiceInRow forkRoom event order 0 == 1) ∧
        moments[10]?.any (fun m => m.choosing? == some 1) ∧
        ((moments.take 181).drop 10).all (fun m =>
          m.taking? == none && (m.opening? forkRoom).isNone) := by
    refine ⟨_, rfl, ?_⟩
    decide +kernel
  obtain ⟨w, hstart, hopening, hopened, hbetween⟩ := hrun
  have hbegins : Session.Begins forkRoom ⟨w, .start forkRoom .deferred⟩ := .new 1 .deferred hstart
  obtain ⟨m, hm, hopening⟩ := (Option.any_eq_true _ _).1 hopening
  obtain ⟨⟨id, event, order, branches, w'⟩, hopens, hchecks⟩ := (Option.any_eq_true _ _).1 hopening
  simp only [Bool.and_eq_true, beq_iff_eq] at hchecks
  obtain ⟨⟨⟨rfl, hfree⟩, hindex⟩, hn⟩ := hchecks
  obtain ⟨n, hn, htakes⟩ := (Option.any_eq_true _ _).1 hn
  obtain ⟨m', hm', hchoosing⟩ := (Option.any_eq_true _ _).1 hopened
  simp only [Bool.and_eq_true, beq_iff_eq] at htakes hchoosing
  have hnobody : ∀ k x, 9 < k → k < 181 → (Moment.still ⟨w, .start forkRoom .deferred⟩ ::
      Session.story forkRoom ⟨w, .start forkRoom .deferred⟩
        (Session.hidingLeft ++ Session.pickingFirst))[k]? = some x →
      x.taking? = none ∧ x.opening? forkRoom = none := by
    intro k x hfirst hlast hx
    obtain ⟨k, rfl⟩ : ∃ j, k = 10 + j := ⟨k - 10, by omega⟩
    rw [← List.getElem?_take_of_lt hlast, ← List.getElem?_drop] at hx
    simpa using List.all_eq_true.1 hbetween x (List.mem_of_getElem? hx)
  obtain ⟨hgoes, -, hpicks⟩ := hbegins.goes_on_with_choice
    (Session.hidingLeft ++ Session.pickingFirst) hm hm' ⟨hopens, hchoosing⟩ (by decide) hn htakes.1
    fun k x hfirst hlast hx r htaking => by simp [(hnobody k x hfirst hlast hx).1] at htaking
  obtain ⟨hpicks, -⟩ := hpicks hfree fun k x y hfirst hlast hx _ _ _ _ _ _ h => by
    simpa [(hnobody k x hfirst hlast hx).2] using h.opening
  exact ⟨w, m, n, event, order, branches, w', hstart, hopens, hindex, hpicks, htakes.2 ▸ hgoes⟩

end Adventure
