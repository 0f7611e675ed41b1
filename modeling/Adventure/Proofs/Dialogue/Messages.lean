import Adventure.Proofs.Dialogue.Uses

/-!
# Messages that are seen

A message or balloon waits in the one place that there is for the window that comes next, then it
opens, and then the player can read it.  As long as nobody closes all windows, a window that opens
is the first thing that the player sees: everything else on the screen opens no earlier, no pick is
counted, and no tap closes it.  So an interpreter that waits for its window is not released before
the window was open, unless another window took its place before it opened, and then the player
never sees it.
-/

namespace Adventure.Windows

variable {ws : Windows} {input : Input} {w : Window}

/-! ## Windows in order -/

/-- What all windows have in common as long as nobody closes all of them. -/
structure Settled (ws : Windows) : Prop where
  present : ∀ w ∈ ws.shown, w.state ≠ .closed
  opening : ∀ w ∈ ws.balloons, w.state = .opening → 0 < w.count ∧ w.count ≤ windowFrames ∧
    ws.pickedCount = 0 ∧ ∀ other ∈ ws.shown, other.state = .opening ∧ w.count ≤ other.count
  choosing : ws.choosing = true → (∀ row ∈ ws.choiceBalloons, Window.IsOpenChoice row) ∨
    ws.pickedCount = 0 ∧ ∀ w ∈ ws.shown, w.state = .closing
  counting : ws.choosing = false → 0 < ws.pickedCount →
    ∃ row ∈ ws.choiceBalloons, Window.IsOpenChoice row

theorem settled_none : Settled none where
  present := by simp [shown, none]
  opening := by simp [none]
  choosing := by simp [none]
  counting _ h := absurd h (by decide)

theorem Settled.queue (h : ws.Settled) (next : Option Window) : { ws with next }.Settled :=
  ⟨h.present, h.opening, h.choosing, h.counting⟩

theorem Settled.takeChosen (h : ws.Settled) (id : Nat) : (ws.takeChosen id).2.Settled := by
  obtain ⟨chosen, htake⟩ := takeChosen_eq ws id
  rw [htake]
  exact ⟨h.present, h.opening, h.choosing, h.counting⟩

theorem Settled.showChoices (h : ws.Settled) (choices : List (String × Bool)) (id : Nat) :
    (ws.showChoices choices id).Settled := by
  have hrows : ∀ row ∈ (ws.showChoices choices id).choiceBalloons,
      row.state = .opening ∧ row.count = windowFrames :=
    List.forall_mem_map.2 fun _ _ => ⟨rfl, rfl⟩
  refine ⟨?_, ?_, fun _ => .inl fun row hrow => .inl (hrows row hrow).1, fun hnot => by cases hnot⟩
  · intro other hother
    rcases List.mem_append.1 hother with hballoon | hrow
    · exact h.present other (List.mem_append_left _ hballoon)
    · rw [(hrows other hrow).1]
      decide
  · intro w hw hopening
    obtain ⟨hpos, hle, hidle, hothers⟩ := h.opening w hw hopening
    refine ⟨hpos, hle, hidle, fun other hother => ?_⟩
    rcases List.mem_append.1 hother with hballoon | hrow
    · exact hothers other (List.mem_append_left _ hballoon)
    · obtain ⟨hstate, hcount⟩ := hrows other hrow
      exact ⟨hstate, hcount ▸ hle⟩

/-! ## A frame -/

theorem state_close (h : w.state ≠ .closed) : w.close.state = .closing := by
  unfold Window.close
  cases hstate : w.state with
  | closed => exact absurd hstate h
  | _ => simp [hstate]

/-- A window opens only on an empty screen. -/
theorem Settled.shown_eq_nil (h : ws.Settled) (hanimating : ws.anyAnimating = false)
    (hopened : ws.anyOpened = false) : ws.shown = [] := by
  refine List.eq_nil_iff_forall_not_mem.2 fun w hw => h.present w hw ?_
  have hnot := List.any_eq_false.1 hanimating w hw
  have hnot' := List.any_eq_false.1 hopened w hw
  cases hstate : w.state with
  | closed => rfl
  | _ => simp [Window.isAnimating, Window.isOpened, hstate] at hnot hnot'

/-- While a window opens, nothing on the screen is open. -/
theorem Settled.anyOpened_eq_false (h : ws.Settled) (hw : w ∈ ws.balloons)
    (hopening : w.state = .opening) : ws.anyOpened = false := by
  refine List.any_eq_false.2 fun other hother => ?_
  have hstate := ((h.opening w hw hopening).2.2.2 other hother).1
  simp [Window.isOpened, hstate]

theorem Settled.openNext (h : ws.Settled) : ws.openNext.Settled := by
  unfold Windows.openNext
  split
  · next w _ =>
    split
    · next hroom =>
      simp only [Bool.and_eq_true, Bool.not_eq_true'] at hroom
      obtain ⟨⟨hchoosing, hanimating⟩, hopened⟩ := hroom
      have hrows : ws.choiceBalloons = [] :=
        (List.append_eq_nil_iff.1 (h.shown_eq_nil hanimating hopened)).2
      have hidle : ws.pickedCount = 0 := by
        refine Decidable.byContradiction fun hcount => ?_
        obtain ⟨row, hrow, -⟩ := h.counting hchoosing (UInt32.pos_iff_ne_zero.2 hcount)
        simp [hrows] at hrow
      refine ⟨?_, ?_, fun hyes => by simp [hchoosing] at hyes, fun _ hcount => ?_⟩
      · simp [shown, hrows, Window.beginOpening]
      · simp [shown, hrows, hidle, Window.beginOpening, windowFrames]
      · simp [hidle] at hcount
    · exact h
  · exact h

theorem Settled.countPick (h : ws.Settled) (hcount : 0 < ws.pickedCount) :
    ws.countPick.Settled := by
  have hnot : ws.pickedCount ≠ 0 := UInt32.pos_iff_ne_zero.1 hcount
  simp only [Windows.countPick]
  split
  · have hclosing : ∀ w ∈ (ws.mapShown Window.close).shown, w.state = .closing := by
      simp only [shown, mapShown, ← List.map_append]
      exact List.forall_mem_map.2 fun w hw => state_close (h.present w hw)
    refine ⟨fun w hw => ?_, fun w hw hopening => ?_, fun _ => .inr ⟨rfl, hclosing⟩,
      fun _ hpos => ?_⟩
    · rw [hclosing w hw]
      decide
    · simp [hclosing w (List.mem_append_left _ hw)] at hopening
    · simp at hpos
  · refine ⟨h.present, fun w hw hopening => ?_, fun hchoosing => ?_, fun hchoosing _ => ?_⟩
    · exact absurd (h.opening w hw hopening).2.2.1 hnot
    · exact (h.choosing hchoosing).imp_right fun hidle => absurd hidle.1 hnot
    · exact h.counting hchoosing hcount

theorem Settled.pick (h : ws.Settled) {row : Nat} (hchoosing : ws.choosing = true)
    (hopened : ws.anyOpened = true) (hrow : row < ws.choiceBalloons.length) :
    (ws.pick row).Settled := by
  refine ⟨fun w hw => ?_, fun w hw hopening => ?_, (fun hyes => by cases hyes), fun _ _ => ?_⟩
  · rcases List.mem_append.1 hw with hballoon | hpicked
    · exact h.present w (List.mem_append_left _ hballoon)
    · obtain ⟨⟨v, i⟩, hv, rfl⟩ := List.mem_map.1 hpicked
      have hstate := h.present v (List.mem_append_right _ (List.fst_mem_of_mem_zipIdx hv))
      dsimp only
      split
      · exact hstate
      · rw [state_close hstate]
        decide
  · rw [h.anyOpened_eq_false hw hopening] at hopened
    cases hopened
  · refine ⟨ws.choiceBalloons[row], ?_, ?_⟩
    · refine List.mem_map.2 ⟨(ws.choiceBalloons[row], row), ?_, if_pos rfl⟩
      simp [List.mk_mem_zipIdx_iff_getElem?]
    · rcases h.choosing hchoosing with hrows | ⟨_, hclosing⟩
      · exact hrows _ (List.getElem_mem hrow)
      · obtain ⟨v, hv, hstate⟩ := List.any_eq_true.1 hopened
        simp [Window.isOpened, hclosing v hv] at hstate

/-- While a window opens, a tap closes nothing. -/
theorem Settled.dismiss_eq (h : ws.Settled) (hw : w ∈ ws.balloons) (hopening : w.state = .opening) :
    ws.dismiss = ws := by
  have hclosed := List.any_eq_false.1 (h.anyOpened_eq_false hw hopening)
  have hsame : ∀ v ∈ ws.balloons, (if v.isOpened then v.close else v) = v :=
    fun v hv => if_neg (hclosed v (List.mem_append_left _ hv))
  rw [Windows.dismiss, List.map_congr_left hsame, List.map_id']

theorem Settled.dismiss (h : ws.Settled) (hidle : ws.pickedCount = 0)
    (hchoosing : ws.choosing = false) : ws.dismiss.Settled := by
  refine ⟨fun w hw => ?_, fun w hw hopening => ?_, fun hyes => ?_, fun _ hcount => ?_⟩
  · rcases List.mem_append.1 hw with hballoon | hrow
    · obtain ⟨v, hv, rfl⟩ := List.mem_map.1 hballoon
      have hstate := h.present v (List.mem_append_left _ hv)
      split
      · rw [state_close hstate]
        decide
      · exact hstate
    · exact h.present w (List.mem_append_right _ hrow)
  · obtain ⟨v, hv, rfl⟩ := List.mem_map.1 hw
    have hstate : v.state = .opening := by
      split at hopening
      · rw [state_close (h.present v (List.mem_append_left _ hv))] at hopening
        cases hopening
      · exact hopening
    rw [h.dismiss_eq hv hstate] at hw ⊢
    exact h.opening _ hw hopening
  · simp [Windows.dismiss, hchoosing] at hyes
  · simp [Windows.dismiss, hidle] at hcount

theorem Settled.respond (h : ws.Settled) (input : Input) : (ws.respond input).2.Settled := by
  have hresponds := responds ws input
  generalize ws.respond input = answer at hresponds
  cases hresponds with
  | counts hcount => exact h.countPick hcount
  | picks row hidle hchoosing hopened _ hrow => exact h.pick hchoosing hopened hrow
  | dismisses hidle hchoosing => exact h.dismiss hidle hchoosing
  | waits => exact h

theorem exists_of_mem_animate (hw : w ∈ ws.animate.shown) :
    w.state ≠ .closed ∧ ∃ v ∈ ws.shown, v.update = w := by
  simp only [shown, animate, ← List.filter_append, ← List.map_append] at hw
  obtain ⟨hmem, hstate⟩ := List.mem_filter.1 hw
  obtain ⟨v, hv, rfl⟩ := List.mem_map.1 hmem
  exact ⟨of_decide_eq_true hstate, v, hv, rfl⟩

theorem Settled.animate (h : ws.Settled) : ws.animate.Settled := by
  refine ⟨fun w hw => (exists_of_mem_animate hw).1, fun w hw hopening => ?_,
    fun hchoosing => ?_, fun hchoosing hcount => ?_⟩
  · obtain ⟨v, hv, rfl⟩ := List.mem_map.1 (List.mem_filter.1 hw).1
    have hstate := Window.state_of_update_opening hopening
    obtain ⟨hpos, hle, hidle, hothers⟩ := h.opening v hv hstate
    rcases Window.update_of_opening hstate hpos with ⟨hmore, heq⟩ | ⟨_, heq⟩
    · rw [heq]
      refine ⟨by grind, by grind, hidle, fun other hother => ?_⟩
      obtain ⟨-, u, hu, rfl⟩ := exists_of_mem_animate hother
      obtain ⟨hu', hcount⟩ := hothers u hu
      rcases Window.update_of_opening hu' (by grind) with ⟨hmore', heq'⟩ | ⟨hone, _⟩
      · rw [heq']
        exact ⟨hu', by grind⟩
      · grind
    · simp [heq] at hopening
  · rcases h.choosing hchoosing with hrows | ⟨hidle, hclosing⟩
    · refine .inl fun row hrow => ?_
      obtain ⟨v, hv, rfl⟩ := List.mem_map.1 (List.mem_filter.1 hrow).1
      exact Window.isOpenChoice_update (hrows v hv)
    · refine .inr ⟨hidle, fun w hw => ?_⟩
      obtain ⟨hnot, v, hv, rfl⟩ := exists_of_mem_animate hw
      exact (Window.state_update_of_closing (hclosing v hv)).resolve_right hnot
  · obtain ⟨row, hrow, hopen⟩ := h.counting hchoosing hcount
    have hopen' := Window.isOpenChoice_update hopen
    refine ⟨row.update, List.mem_filter.2 ⟨List.mem_map_of_mem hrow, ?_⟩, hopen'⟩
    rcases hopen' with hstate | hstate
    · simp [hstate]
    · simp [hstate]

theorem Settled.update (h : ws.Settled) (input : Input) : (ws.update input).2.Settled :=
  (h.openNext.respond input).animate

theorem settled_afterUses {uses : List Use} (h : Use.closeAll ∉ uses) :
    (afterUses uses).Settled := by
  induction uses with
  | nil => exact settled_none
  | cons use earlier ih =>
    have hearlier := ih fun hmem => h (List.mem_cons_of_mem use hmem)
    cases use with
    | showMessage content eventId id => exact hearlier.queue _
    | showBalloon content eventId id => exact hearlier.queue _
    | showChoices choices id => exact hearlier.showChoices choices id
    | update input => exact hearlier.update input
    | takeChosen id => exact hearlier.takeChosen id
    | closeAll => exact absurd (List.mem_cons_self ..) h

/-! ## The course of a window -/

/-- Whether a window waits for its place on the screen, or has got it and opens. -/
def Coming (w : Window) (ws : Windows) : Prop :=
  ws.next = some w ∨ ws.next ≠ some w ∧ ∃ count, { w with state := .opening, count } ∈ ws.balloons

/-- Whether a window has got its place on the screen, and is open now. -/
def Seen (w : Window) (ws : Windows) : Prop :=
  ws.next ≠ some w ∧ ∃ count, { w with state := .opened, count } ∈ ws.balloons

theorem Coming.isBusy (h : Coming w ws) : ws.isBusy w.interpreterId = true := by
  unfold Windows.isBusy
  rcases h with hnext | ⟨_, count, hballoon⟩
  · simp [hnext]
  · have hmine : ws.shown.any (fun v =>
        v.interpreterId == w.interpreterId && (v.isAnimating || v.isOpened)) = true :=
      List.any_eq_true.2 ⟨_, List.mem_append_left _ hballoon, by simp [Window.isAnimating]⟩
    simp [hmine]

theorem Coming.openNext (h : Coming w ws) : Coming w ws.openNext := by
  unfold Windows.openNext
  rcases h with hnext | ⟨hnext, count, hballoon⟩
  · rw [hnext]
    dsimp only
    split
    · exact .inr ⟨by simp, windowFrames, List.mem_singleton_self _⟩
    · exact .inl hnext
  · have hanimating : ws.anyAnimating = true :=
      List.any_eq_true.2 ⟨_, List.mem_append_left _ hballoon, by simp [Window.isAnimating]⟩
    simp only [hanimating, Bool.not_true, Bool.and_false, Bool.false_and, Bool.false_eq_true,
      ↓reduceIte]
    split <;> exact .inr ⟨hnext, count, hballoon⟩

/-- Nothing that the player does changes a window that waits or opens. -/
theorem Coming.respond (h : Coming w ws) (hsettled : ws.Settled) (input : Input) :
    Coming w (ws.respond input).2 := by
  have hresponds := responds ws input
  generalize ws.respond input = answer at hresponds
  cases hresponds with
  | counts hcount =>
    rcases h with hnext | ⟨_, _, hballoon⟩
    · simp only [Windows.countPick]
      split <;> exact .inl hnext
    · exact absurd (hsettled.opening _ hballoon rfl).2.2.1 (UInt32.pos_iff_ne_zero.1 hcount)
  | picks => exact h
  | dismisses =>
    rcases h with hnext | ⟨hnext, count, hballoon⟩
    · exact .inl hnext
    · rw [hsettled.dismiss_eq hballoon rfl]
      exact .inr ⟨hnext, count, hballoon⟩
  | waits => exact h

theorem Coming.animate (h : Coming w ws) (hsettled : ws.Settled) :
    Coming w ws.animate ∨ Seen w ws.animate := by
  rcases h with hnext | ⟨hnext, count, hballoon⟩
  · exact .inl (.inl hnext)
  · have hupdate := List.mem_map_of_mem (f := Window.update) hballoon
    rcases Window.update_of_opening rfl (hsettled.opening _ hballoon rfl).1 with
      ⟨_, heq⟩ | ⟨_, heq⟩
    · rw [heq] at hupdate
      exact .inl (.inr ⟨hnext, _, List.mem_filter.2 ⟨hupdate, by simp⟩⟩)
    · rw [heq] at hupdate
      exact .inr ⟨hnext, _, List.mem_filter.2 ⟨hupdate, by simp⟩⟩

/-- In a frame a window that waits or opens goes on to do so, or the player sees it. -/
theorem Coming.update (h : Coming w ws) (hsettled : ws.Settled) (input : Input) :
    Coming w (ws.update input).2 ∨ Seen w (ws.update input).2 :=
  (h.openNext.respond hsettled.openNext input).animate (hsettled.openNext.respond input)

/-- Another window takes the place of one that waits, and does not disturb one that opens. -/
theorem Coming.queue (h : Coming w ws) {other : Window} (hother : other ≠ w) :
    ws.next = some w ∨ Coming w { ws with next := some other } :=
  h.imp_right fun ⟨_, count, hballoon⟩ => .inr ⟨by simpa using hother, count, hballoon⟩

/-! ## Windows that are replaced -/

/-- Whether no message or balloon on the screen is an interpreter's. -/
def Apart (id : Nat) (ws : Windows) : Prop := ∀ v ∈ ws.balloons, v.interpreterId ≠ id

/-- Whether an interpreter neither has a message or balloon on the screen nor waits for one. -/
structure Gone (id : Nat) (ws : Windows) : Prop where
  apart : Apart id ws
  next : ∀ v, ws.next = some v → v.interpreterId ≠ id

theorem Settled.apart (h : ws.Settled) {id : Nat} (hfree : ws.isBusy id = false) : Apart id ws := by
  rintro v hv rfl
  have hshown : v ∈ ws.shown := List.mem_append_left _ hv
  have hvisible : v.isAnimating = true ∨ v.isOpened = true := by
    have hpresent := h.present v hshown
    cases hstate : v.state with
    | closed => exact absurd hstate hpresent
    | opened => exact .inr (by simp [Window.isOpened, hstate])
    | _ => exact .inl (by simp [Window.isAnimating, hstate])
  have hany : ws.shown.any (fun other =>
      other.interpreterId == v.interpreterId && (other.isAnimating || other.isOpened)) = true :=
    List.any_eq_true.2 ⟨v, hshown, by simpa using hvisible⟩
  simp [Windows.isBusy, hany] at hfree

theorem respond_keeps (ws : Windows) (input : Input) :
    (ws.respond input).2.next = ws.next ∧
      ∀ v ∈ (ws.respond input).2.balloons,
        ∃ u ∈ ws.balloons, u.interpreterId = v.interpreterId := by
  have hresponds := responds ws input
  generalize ws.respond input = answer at hresponds
  cases hresponds with
  | counts =>
    unfold countPick
    dsimp only
    split
    · refine ⟨rfl, fun v hv => ?_⟩
      obtain ⟨u, hu, rfl⟩ := List.mem_map.1 hv
      exact ⟨u, hu, u.interpreterId_close.symm⟩
    · exact ⟨rfl, fun v hv => ⟨v, hv, rfl⟩⟩
  | picks => exact ⟨rfl, fun v hv => ⟨v, hv, rfl⟩⟩
  | dismisses =>
    refine ⟨rfl, fun v hv => ?_⟩
    obtain ⟨u, hu, rfl⟩ := List.mem_map.1 hv
    refine ⟨u, hu, ?_⟩
    split
    · exact u.interpreterId_close.symm
    · rfl
  | waits => exact ⟨rfl, fun v hv => ⟨v, hv, rfl⟩⟩

theorem next_of_openNext (h : ws.openNext.next = some w) : ws.openNext = ws := by
  unfold Windows.openNext at h ⊢
  split
  · split
    · simp_all
    · rfl
  · rfl

/-- What waits after a use was asked for by it, or has waited before. -/
theorem next_of_use {use : Use} (h : (ws.use use).next = some w) :
    use.window? = some w ∨ ws.next = some w := by
  cases use with
  | showMessage content eventId id => exact .inl h
  | showBalloon content eventId id => exact .inl h
  | showChoices choices id => exact .inr h
  | update input =>
    have hopen : ws.openNext.next = some w := (respond_keeps ws.openNext input).1.symm.trans h
    rw [next_of_openNext hopen] at hopen
    exact .inr hopen
  | takeChosen id =>
    obtain ⟨chosen, htake⟩ := takeChosen_eq ws id
    have hws : ws.use (.takeChosen id) = { ws with chosen } := htake
    rw [hws] at h
    exact .inr h
  | closeAll => cases h

/-- A message or balloon on the screen is an interpreter's that had one there before, or for whose
window there was room now. -/
theorem balloon_of_use {use : Use} {v : Window} (h : v ∈ (ws.use use).balloons) :
    (∃ u ∈ ws.balloons, u.interpreterId = v.interpreterId) ∨
      (ws.use use).next = .none ∧ ∃ u, ws.next = some u ∧ u.interpreterId = v.interpreterId := by
  cases use with
  | update input =>
    obtain ⟨u, hu, rfl⟩ := List.mem_map.1 (List.mem_filter.1 h).1
    obtain ⟨hnext, hballoons⟩ := respond_keeps ws.openNext input
    obtain ⟨t, ht, hid⟩ := hballoons u hu
    rw [u.interpreterId_update, ← hid]
    have hafter : (ws.use (.update input)).next = ws.openNext.next := hnext
    rw [hafter]
    unfold Windows.openNext at ht ⊢
    split at ht
    · next w hw =>
      split at ht
      · obtain rfl := List.mem_singleton.1 ht
        exact .inr ⟨by simp_all, w, hw, rfl⟩
      · exact .inl ⟨t, ht, rfl⟩
    · exact .inl ⟨t, ht, rfl⟩
  | takeChosen id =>
    obtain ⟨chosen, htake⟩ := takeChosen_eq ws id
    have hws : ws.use (.takeChosen id) = { ws with chosen } := htake
    rw [hws] at h
    exact .inl ⟨v, h, rfl⟩
  | closeAll =>
    obtain ⟨u, hu, rfl⟩ := List.mem_map.1 h
    exact .inl ⟨u, hu, u.interpreterId_close.symm⟩
  | _ => exact .inl ⟨v, h, rfl⟩

/-- As long as something waits, nothing new comes to the screen. -/
theorem Apart.use {id : Nat} (h : Apart id ws) {use : Use}
    (hnext : (ws.use use).next.isSome = true) : Apart id (ws.use use) := by
  intro v hv
  rcases balloon_of_use hv with ⟨u, hu, hid⟩ | ⟨hnone, _⟩
  · exact hid ▸ h u hu
  · simp [hnone] at hnext

theorem Apart.gone {id : Nat} (h : Apart id ws) {use : Use} (huse : use.window?.isSome = true)
    (hmine : ∀ v, use.window? = some v → v.interpreterId ≠ id) : Gone id (ws.use use) := by
  cases use with
  | showMessage content eventId id' => exact ⟨h, hmine⟩
  | showBalloon content eventId id' => exact ⟨h, hmine⟩
  | _ => cases huse

theorem Gone.use {id : Nat} (h : Gone id ws) {use : Use}
    (hmine : ∀ v, use.window? = some v → v.interpreterId ≠ id) : Gone id (ws.use use) where
  apart v hv := by
    rcases balloon_of_use hv with ⟨u, hu, hid⟩ | ⟨_, u, hu, hid⟩
    · exact hid ▸ h.apart u hu
    · exact hid ▸ h.next u hu
  next v hv := (next_of_use hv).elim (hmine v) (h.next v)

section Course

variable {ask : Use} {later earlier : List Use}

/-- The window that a use asks for waits. -/
theorem coming_of_window? (hask : ask.window? = some w) (ws : Windows) : Coming w (ws.use ask) := by
  cases ask with
  | showMessage content eventId id => exact .inl hask
  | showBalloon content eventId id => exact .inl hask
  | _ => cases hask

/-- What a use does to a window that waits or opens: the player sees it now, or it still is coming,
or it was about to wait and another window took its place. -/
theorem Coming.use {ws : Windows} (h : Coming w ws) (hsettled : ws.Settled) {use : Use}
    (hmine : ∀ v, use.window? = some v → v.interpreterId ≠ w.interpreterId)
    (hnot : use ≠ .closeAll) :
    Seen w (ws.use use) ∨ use.window?.isSome = true ∧ ws.next = some w ∨ Coming w (ws.use use) := by
  have hother : ∀ v, use.window? = some v → v ≠ w := fun v hv heq => hmine v hv (heq ▸ rfl)
  cases use with
  | showMessage content eventId id =>
    exact .inr ((h.queue (hother _ rfl)).imp_left fun hnext => ⟨rfl, hnext⟩)
  | showBalloon content eventId id =>
    exact .inr ((h.queue (hother _ rfl)).imp_left fun hnext => ⟨rfl, hnext⟩)
  | showChoices choices id => exact .inr (.inr h)
  | update input => exact (h.update hsettled input).elim (.inr ∘ .inr) .inl
  | takeChosen id =>
    obtain ⟨chosen, htake⟩ := takeChosen_eq ws id
    have hws : ws.use (.takeChosen id) = { ws with chosen } := htake
    rw [hws]
    exact .inr (.inr h)
  | closeAll => exact absurd rfl hnot

/-- What has become of a window: the player saw it, another one took its place before it opened, or
it still is coming. -/
theorem seen_or_replaced_or_coming (hask : ask.window? = some w)
    (hmine : ∀ use ∈ later, ∀ v, use.window? = some v → v.interpreterId ≠ w.interpreterId)
    (hnever : Use.closeAll ∉ later ++ earlier) :
    (∃ moment, moment <:+ later ∧ Seen w (afterUses (moment ++ ask :: earlier))) ∨
      (∃ use moment, use :: moment <:+ later ∧ use.window?.isSome = true ∧
        (afterUses (moment ++ ask :: earlier)).next = some w) ∨
      Coming w (afterUses (later ++ ask :: earlier)) := by
  induction later with
  | nil => exact .inr (.inr (coming_of_window? hask _))
  | cons use later ih =>
    have hsuffix := List.suffix_cons use later
    obtain ⟨hnot, hbefore⟩ := List.ne_and_not_mem_of_not_mem_cons hnever
    rcases ih (fun use' huse => hmine use' (List.mem_cons_of_mem use huse)) hbefore with
      ⟨moment, hmoment, hseen⟩ | ⟨use', moment, hmoment, hasks, hnext⟩ | hcoming
    · exact .inl ⟨moment, hmoment.trans hsuffix, hseen⟩
    · exact .inr (.inl ⟨use', moment, hmoment.trans hsuffix, hasks, hnext⟩)
    · have hsettled : (afterUses (later ++ ask :: earlier)).Settled := by
        refine settled_afterUses fun hmem => hbefore ?_
        rw [List.mem_append, List.mem_cons] at hmem
        rcases hmem with hlater | rfl | hearlier
        · exact List.mem_append_left _ hlater
        · cases hask
        · exact List.mem_append_right _ hearlier
      rcases hcoming.use hsettled (hmine use (List.mem_cons_self ..)) (Ne.symm hnot) with
        hseen | hreplaced | hcoming'
      · exact .inl ⟨use :: later, List.suffix_refl _, hseen⟩
      · exact .inr (.inl ⟨use, later, List.suffix_refl _, hreplaced⟩)
      · exact .inr (.inr hcoming')

/-- As long as a window waits, no window of its interpreter is on the screen, if none was when it
was asked for. -/
theorem apart_of_next
    (hmine : ∀ use ∈ later, ∀ v, use.window? = some v → v.interpreterId ≠ w.interpreterId)
    (hapart : Apart w.interpreterId (afterUses earlier))
    (hnext : (afterUses (later ++ ask :: earlier)).next = some w) :
    ∀ moment, moment <:+ later → Apart w.interpreterId (afterUses (moment ++ ask :: earlier)) := by
  induction later with
  | nil =>
    intro moment hmoment
    obtain rfl := List.suffix_nil.1 hmoment
    exact hapart.use (by simpa using Option.isSome_of_mem hnext)
  | cons use later ih =>
    have hbefore := ih (fun use' huse => hmine use' (List.mem_cons_of_mem use huse)) <|
      (next_of_use hnext).resolve_left fun hasks => hmine use (List.mem_cons_self ..) w hasks rfl
    intro moment hmoment
    rcases List.suffix_cons_iff.1 hmoment with rfl | hearlier
    · exact (hbefore later (List.suffix_refl _)).use (by simpa using Option.isSome_of_mem hnext)
    · exact hbefore moment hearlier

/-- Once another window has taken the place of one that waited, no window of its interpreter comes
any more. -/
theorem gone_of_replaced {use : Use} {waited after : List Use}
    (hmine : ∀ use' ∈ after ++ use :: waited, ∀ v, use'.window? = some v →
      v.interpreterId ≠ w.interpreterId)
    (hapart : Apart w.interpreterId (afterUses earlier)) (huse : use.window?.isSome = true)
    (hnext : (afterUses (waited ++ ask :: earlier)).next = some w) :
    Gone w.interpreterId (afterUses (after ++ use :: waited ++ ask :: earlier)) ∧
      ∀ moment, moment <:+ after ++ use :: waited →
        Apart w.interpreterId (afterUses (moment ++ ask :: earlier)) := by
  induction after with
  | nil =>
    have hbefore := apart_of_next
      (fun use' hmem => hmine use' (List.mem_cons_of_mem use hmem)) hapart hnext
    have hgone := (hbefore waited (List.suffix_refl _)).gone huse
      (hmine use (List.mem_cons_self ..))
    refine ⟨hgone, fun moment hmoment => ?_⟩
    rcases List.suffix_cons_iff.1 hmoment with rfl | hearlier
    · exact hgone.apart
    · exact hbefore moment hearlier
  | cons last after ih =>
    obtain ⟨hgone, hbefore⟩ := ih fun use' hmem => hmine use' (List.mem_cons_of_mem last hmem)
    have hgone' := hgone.use (hmine last (List.mem_cons_self ..))
    refine ⟨hgone', fun moment hmoment => ?_⟩
    rcases List.suffix_cons_iff.1 hmoment with rfl | hearlier
    · exact hgone'.apart
    · exact hbefore moment hearlier

/-- An interpreter that has asked for a message or a balloon, and for no other one since, is not
released before its window was open on the screen, unless another window took its place while it
waited.  Then the player never sees it, if the interpreter had no other one when it asked. -/
theorem seen_or_replaced_of_not_isBusy (hask : ask.window? = some w)
    (hmine : ∀ use ∈ later, ∀ v, use.window? = some v → v.interpreterId ≠ w.interpreterId)
    (hnever : Use.closeAll ∉ later ++ earlier)
    (hreleased : (afterUses (later ++ ask :: earlier)).isBusy w.interpreterId = false) :
    (∃ moment, moment <:+ later ∧ Seen w (afterUses (moment ++ ask :: earlier))) ∨
      ∃ use moment, use :: moment <:+ later ∧ use.window?.isSome = true ∧
        (afterUses (moment ++ ask :: earlier)).next = some w ∧
        ((afterUses earlier).isBusy w.interpreterId = false →
          ∀ moment, moment <:+ later → ¬ Seen w (afterUses (moment ++ ask :: earlier))) := by
  rcases seen_or_replaced_or_coming hask hmine hnever with hseen | hreplaced | hcoming
  · exact .inl hseen
  · obtain ⟨use, waited, hsuffix, huse, hnext⟩ := hreplaced
    refine .inr ⟨use, waited, hsuffix, huse, hnext, fun hfree moment hmoment hseen => ?_⟩
    have hsettled : (afterUses earlier).Settled :=
      settled_afterUses fun hmem => hnever (List.mem_append_right _ hmem)
    obtain ⟨after, rfl⟩ := hsuffix
    obtain ⟨_, count, hballoon⟩ := hseen
    exact (gone_of_replaced hmine (hsettled.apart hfree) huse hnext).2 moment hmoment _
      hballoon rfl
  · rw [hcoming.isBusy] at hreleased
    cases hreleased

end Course

/-- The message of an interpreter opens, and a tap closes it: then the interpreter is released. -/
theorem seen_or_replaced_after_tap :
    let later : List Use := List.replicate 4 (.update .none) ++
      .update { Input.none with triggered := true } :: List.replicate 4 (.update .none)
    let message := Use.showMessage "Hello." 0 1
    let w := Window.waiting .message "Hello." 0 1
    (afterUses (later ++ [message])).isBusy 1 = false ∧
      ((∃ moment, moment <:+ later ∧ Seen w (afterUses (moment ++ [message]))) ∨
        ∃ use moment, use :: moment <:+ later ∧ use.window?.isSome = true ∧
          (afterUses (moment ++ [message])).next = some w ∧
          ((afterUses []).isBusy 1 = false →
            ∀ moment, moment <:+ later → ¬ Seen w (afterUses (moment ++ [message])))) := by
  intro later message w
  have hupdates : ∀ use ∈ later, ∃ input, use = .update input := by
    intro use huse
    simp only [later, List.mem_append, List.mem_cons, List.mem_replicate] at huse
    rcases huse with ⟨_, rfl⟩ | rfl | ⟨_, rfl⟩ <;> exact ⟨_, rfl⟩
  have hreleased : (afterUses (later ++ [message])).isBusy 1 = false := by decide
  refine ⟨hreleased, seen_or_replaced_of_not_isBusy rfl (fun use huse v hv => ?_) ?_ hreleased⟩
  · obtain ⟨input, rfl⟩ := hupdates use huse
    cases hv
  · rw [List.append_nil]
    intro hmem
    obtain ⟨input, hinput⟩ := hupdates _ hmem
    cases hinput

/-- Two interpreters ask for messages before the next frame.  The first one is released, though its
message has never been on the screen. -/
theorem released_unseen :
    let first := Use.showMessage "first" 0 1
    let second := Use.showMessage "second" 0 2
    (afterUses [second, first]).isBusy 1 = false ∧ ∀ moment, moment <:+ [second] →
      ¬ Seen (.waiting .message "first" 0 1) (afterUses (moment ++ [first])) := by
  intro first second
  refine ⟨by decide, fun moment hmoment hseen => ?_⟩
  obtain ⟨_, count, hballoon⟩ := hseen
  rcases List.suffix_cons_iff.1 hmoment with rfl | hnil
  · cases hballoon
  · rw [List.suffix_nil.1 hnil] at hballoon
    cases hballoon

end Adventure.Windows
