import Adventure.Proofs.Dialogue.History

/-!
# Answers to choices

An interpreter that asks for choices should get the row that the player picked for it, and nothing
else.  The windows keep one column, one countdown and one picked row for all interpreters, and
asking for choices does not look at any of them.  So the answers are right exactly for the
histories in which choices are asked for only when the windows are free: no pick is counted, and
neither an open column nor a picked row belongs to another interpreter.
-/

namespace Adventure.Windows

/-- An interpreter may ask for choices without taking them from another one. -/
def isFree (ws : Windows) (id : Nat) : Bool :=
  ws.pickedCount == 0 && (!ws.choosing || ws.choosingId == id) && ws.chosen.all (·.1 == id)

/-- Choices are asked for only while the windows are free. -/
def Orderly : List Call → Prop
  | [] => True
  | .showChoices _ _ id :: earlier => (after earlier).isFree id = true ∧ Orderly earlier
  | _ :: earlier => Orderly earlier

/-- The windows still serve an interpreter that waits for its choice. -/
inductive Attended (calls : List Call) (id : Nat) : Prop where
  | choosing (hchoosing : (after calls).choosing = true) (hid : (after calls).choosingId = id)
      (hcolumn : waiting? id calls = some (after calls).column)
  | counting (hcount : 0 < (after calls).pickedCount) (hid : (after calls).choosingId = id)
      (hpicked : pickedFor id (after calls).pickedRow calls = true)
  | holding (row : Nat) (hchosen : (after calls).chosen = some (id, row))
      (hpicked : pickedFor id row calls = true)

/-- A row that a call hands to an interpreter was picked for it, out of the choices that it asked
for last. -/
def Call.HandsOverPicks (call : Call) (earlier : List Call) : Prop :=
  ∀ id row, call = .takeChosen id → ((after earlier).takeChosen id).1 = some row →
    (waiting? id earlier).isSome = true ∧ pickedFor id row earlier = true

/-- No answer was invented, swapped or lost: at every point every interpreter that waited was
served, and every row handed over was picked for its taker. -/
def Honest : List Call → Prop
  | [] => True
  | call :: earlier =>
    call.HandsOverPicks earlier ∧
      (∀ id, (waiting? id (call :: earlier)).isSome = true → Attended (call :: earlier) id) ∧
      Honest earlier

/-! ## Orderly histories

One question at a time goes through its phases, and nobody else waits. -/

/-- What becomes of a question: it is asked, its answer is counted down, and the answer waits.
Next to the windows stand the choices that each interpreter waits for, and the rows that were
picked for it. -/
inductive Phase (ws : Windows) (waits : Nat → Option Column) (picked : Nat → Nat → Bool) :
    Prop where
  | idle (hchoosing : ws.choosing = false) (hcount : ws.pickedCount = 0)
      (hchosen : ws.chosen = .none) (hwaits : ∀ id, waits id = .none)
  | choosing (id : Nat) (hchoosing : ws.choosing = true) (hid : ws.choosingId = id)
      (hcount : ws.pickedCount = 0) (hchosen : ws.chosen = .none)
      (hopen : ∀ w ∈ ws.choiceBalloons, Window.IsOpenChoice w)
      (hwaits : waits id = some ws.column) (hothers : ∀ other, other ≠ id → waits other = .none)
  | counting (id : Nat) (hchoosing : ws.choosing = false) (hid : ws.choosingId = id)
      (hcount : 0 < ws.pickedCount) (hchosen : ws.chosen = .none)
      (hpicked : picked id ws.pickedRow = true)
      (hwaits : (waits id).isSome = true) (hothers : ∀ other, other ≠ id → waits other = .none)
  | answered (id row : Nat) (hchoosing : ws.choosing = false) (hcount : ws.pickedCount = 0)
      (hchosen : ws.chosen = some (id, row)) (hpicked : picked id row = true)
      (hwaits : (waits id).isSome = true) (hothers : ∀ other, other ≠ id → waits other = .none)

/-- The phase that a history has led to. -/
def PhaseAfter (calls : List Call) : Prop :=
  Phase (after calls) (fun id => waiting? id calls) (fun id row => pickedFor id row calls)

section Phases

variable {calls : List Call}

/-- In every phase, whoever waits is served. -/
theorem PhaseAfter.attended (h : PhaseAfter calls) {id : Nat}
    (hwaits : (waiting? id calls).isSome = true) : Attended calls id := by
  have hsame : ∀ asker, (∀ other, other ≠ asker → waiting? other calls = .none) → asker = id := by
    intro asker hothers
    by_cases heq : asker = id
    · exact heq
    · simp [hothers id (Ne.symm heq)] at hwaits
  cases h with
  | idle _ _ _ hnone => simp [hnone id] at hwaits
  | choosing asker hchoosing hid _ _ _ hcolumn hothers =>
    obtain rfl := hsame asker hothers
    exact .choosing hchoosing hid hcolumn
  | counting asker _ hid hcount _ hpicked _ hothers =>
    obtain rfl := hsame asker hothers
    exact .counting hcount hid hpicked
  | answered asker row _ _ hchosen hpicked _ hothers =>
    obtain rfl := hsame asker hothers
    exact .holding row hchosen hpicked

/-- In every phase, a row that is handed over was picked for its taker. -/
theorem PhaseAfter.handsOverPicks (h : PhaseAfter calls) (call : Call) :
    call.HandsOverPicks calls := by
  rintro id row rfl htake
  unfold takeChosen at htake
  cases h with
  | idle _ _ hchosen _ => simp [hchosen] at htake
  | choosing _ _ _ _ hchosen _ _ _ => simp [hchosen] at htake
  | counting _ _ _ _ hchosen _ _ _ => simp [hchosen] at htake
  | answered asker picked _ _ hchosen hpicked hwaits _ =>
    simp only [hchosen] at htake
    split at htake
    · next hid =>
      simp only [Option.some.injEq] at htake
      subst hid htake
      exact ⟨hwaits, hpicked⟩
    · cases htake

variable {ws : Windows} {waits : Nat → Option Column} {picked : Nat → Nat → Bool}

/-- The window that comes next does not matter to choices. -/
theorem Phase.queue (h : Phase ws waits picked) (next : Option Window) :
    Phase { ws with next } waits picked := by
  cases h with
  | idle hchoosing hcount hchosen hnone => exact .idle hchoosing hcount hchosen hnone
  | choosing id hchoosing hid hcount hchosen hopen hwaits hothers =>
    exact .choosing id hchoosing hid hcount hchosen hopen hwaits hothers
  | counting id hchoosing hid hcount hchosen hpicked hwaits hothers =>
    exact .counting id hchoosing hid hcount hchosen hpicked hwaits hothers
  | answered id row hchoosing hcount hchosen hpicked hwaits hothers =>
    exact .answered id row hchoosing hcount hchosen hpicked hwaits hothers

theorem isFree_iff (ws : Windows) (id : Nat) :
    ws.isFree id = true ↔ ws.pickedCount = 0 ∧ (ws.choosing = true → ws.choosingId = id) ∧
      ∀ asker row, ws.chosen = some (asker, row) → asker = id := by
  unfold isFree
  cases ws.choosing <;> rcases ws.chosen with _ | ⟨asker, row⟩ <;> simp [and_assoc]

/-- Choices that an interpreter asks for while the windows are free are the only ones. -/
theorem PhaseAfter.showChoices (h : PhaseAfter calls) {id : Nat}
    (hfree : (after calls).isFree id = true) (first : String × Bool) (rest : List (String × Bool)) :
    PhaseAfter (.showChoices first rest id :: calls) := by
  obtain ⟨hcount, hchoosing, hchosen⟩ := (isFree_iff _ _).1 hfree
  have hothers : ∀ other, other ≠ id → waiting? other calls = .none := by
    intro other hother
    cases h with
    | idle _ _ _ hnone => exact hnone other
    | choosing asker hyes hid _ _ _ _ hothers =>
      exact hothers other (by rw [← hid, hchoosing hyes]; exact hother)
    | counting _ _ _ hpos _ _ _ _ =>
      rw [hcount] at hpos
      exact absurd hpos (by decide)
    | answered asker row _ _ hrow _ _ hothers =>
      exact hothers other (by rw [hchosen asker row hrow]; exact hother)
  refine .choosing id rfl rfl hcount rfl ?_ ?_ ?_
  · intro w hw
    simp only [after_cons, perform, Windows.showChoices, List.mem_map] at hw
    obtain ⟨choice, _, rfl⟩ := hw
    exact .inl rfl
  · simp only [waiting?, ↓reduceIte, after_cons, perform, column, Windows.showChoices, List.map_map]
    rfl
  · intro other hother
    simpa [waiting?, Ne.symm hother] using hothers other hother

/-- Taking a row ends its taker's wait, and nothing else ends one. -/
theorem PhaseAfter.takeChosen (h : PhaseAfter calls) (taker : Nat) :
    PhaseAfter (.takeChosen taker :: calls) := by
  have hsame : (after calls).hasChosen taker = false →
      PhaseAfter (.takeChosen taker :: calls) := by
    intro hnot
    have hws : after (.takeChosen taker :: calls) = after calls := by
      simp only [after_cons, perform, Windows.takeChosen]
      split
      · next asker row hchosen =>
        have hne : asker ≠ taker := by simpa [hasChosen, hchosen] using hnot
        rw [if_neg hne]
      · rfl
    have hwaits : ∀ id, waiting? id (.takeChosen taker :: calls) = waiting? id calls := by
      intro id
      simp only [waiting?]
      split
      · next hid =>
        simp only [Bool.and_eq_true, decide_eq_true_eq] at hid
        rw [← hid.1, hnot] at hid
        exact absurd hid.2 (by simp)
      · rfl
    have hpicked : ∀ id row, pickedFor id row (.takeChosen taker :: calls) =
        pickedFor id row calls := fun _ _ => rfl
    unfold PhaseAfter
    simp only [hws, hwaits, hpicked]
    exact h
  cases h with
  | idle _ _ hchosen _ => exact hsame (by simp [hasChosen, hchosen])
  | choosing _ _ _ _ hchosen _ _ _ => exact hsame (by simp [hasChosen, hchosen])
  | counting _ _ _ _ hchosen _ _ _ => exact hsame (by simp [hasChosen, hchosen])
  | answered asker row hchoosing hcount hchosen _ _ hothers =>
    by_cases hid : asker = taker
    · subst hid
      refine .idle ?_ ?_ ?_ ?_
      · simpa [perform, Windows.takeChosen, hchosen] using hchoosing
      · simpa [perform, Windows.takeChosen, hchosen] using hcount
      · simp [perform, Windows.takeChosen, hchosen]
      · intro id
        by_cases hother : id = asker
        · simp [waiting?, hother, hasChosen, hchosen]
        · simpa [waiting?, Ne.symm hother] using hothers id hother
    · exact hsame (by simpa [hasChosen, hchosen] using hid)

/-- A frame moves a question on to its next phase, and never to another interpreter. -/
theorem PhaseAfter.update (h : PhaseAfter calls) (input : Input) :
    PhaseAfter (.update input :: calls) := by
  have hkeep : ∀ id row, pickedFor id row calls = true →
      pickedFor id row (.update input :: calls) = true := by
    intro id row hpicked
    simp [pickedFor, hpicked]
  cases h with
  | idle hchoosing hcount hchosen hnone =>
    obtain ⟨hchoosing', hcount', hchosen'⟩ := update_of_idle input hchoosing hcount
    exact .idle hchoosing' hcount' (hchosen'.trans hchosen) hnone
  | choosing id hchoosing hid hcount hchosen hopen hwaits hothers =>
    obtain ⟨hid', hchosen', hnext⟩ := update_of_choosing input hchoosing hcount hopen
    rcases hnext with ⟨row, hpicks, hrow, hchoosing', hcount', hpicked'⟩ |
      ⟨hchoosing', hcount', hcolumn', hopen'⟩
    · refine .counting id hchoosing' (hid'.trans hid) hcount' (hchosen'.trans hchosen) ?_ ?_ hothers
      · simp only [after_cons, perform, hpicked']
        have hmine : (waiting? id calls == some (after calls).column) = true := by
          simpa using hwaits
        simp [pickedFor, hpicks, hmine, hrow]
      · show (waiting? id calls).isSome = true
        simp [hwaits]
    · refine .choosing id hchoosing' (hid'.trans hid) hcount' (hchosen'.trans hchosen) hopen' ?_
        hothers
      exact hwaits.trans (congrArg some hcolumn'.symm)
  | counting id hchoosing hid hcount hchosen hpicked hwaits hothers =>
    obtain ⟨hchoosing', hcount', hnext⟩ := update_of_counting input hcount
    by_cases hlast : (after calls).pickedCount - 1 = 0
    · rw [if_pos hlast, hid] at hnext
      exact .answered id _ (hchoosing'.trans hchoosing) (hcount'.trans hlast) hnext
        (hkeep id _ hpicked) hwaits hothers
    · rw [if_neg hlast] at hnext
      obtain ⟨hchosen', hid', hrow'⟩ := hnext
      refine .counting id (hchoosing'.trans hchoosing) (hid'.trans hid) ?_ (hchosen'.trans hchosen)
        ?_ hwaits hothers
      · rw [after_cons, perform, hcount']
        exact UInt32.pos_iff_ne_zero.2 hlast
      · rw [after_cons, perform, hrow']
        exact hkeep id _ hpicked
  | answered id row hchoosing hcount hchosen hpicked hwaits hothers =>
    obtain ⟨hchoosing', hcount', hchosen'⟩ := update_of_idle input hchoosing hcount
    exact .answered id row hchoosing' hcount' (hchosen'.trans hchosen) (hkeep id row hpicked) hwaits
      hothers

/-- An orderly history always is in one of the phases. -/
theorem Orderly.phaseAfter (h : Orderly calls) : PhaseAfter calls := by
  induction calls with
  | nil => exact .idle rfl rfl rfl fun _ => rfl
  | cons call earlier ih =>
    cases call with
    | showMessage content eventId id => exact (ih h).queue _
    | showBalloon content eventId id => exact (ih h).queue _
    | showChoices first rest id => exact (ih h.2).showChoices h.1 first rest
    | update input => exact (ih h).update input
    | takeChosen taker => exact (ih h).takeChosen taker

/-- Orderly histories give honest answers. -/
theorem Orderly.isHonest (h : Orderly calls) : Honest calls := by
  induction calls with
  | nil => trivial
  | cons call earlier ih =>
    have hearlier : Orderly earlier := by
      cases call with
      | showChoices first rest id => exact h.2
      | _ => exact h
    exact ⟨hearlier.phaseAfter.handsOverPicks call, fun id hwaits => h.phaseAfter.attended hwaits,
      ih hearlier⟩

/-! ## Histories that are not orderly -/

variable {id : Nat} {first : String × Bool} {rest : List (String × Bool)}

/-- Whoever waits when another interpreter asks for choices is not served any more. -/
theorem not_honest_of_waiting {asker : Nat} (hwaits : (waiting? asker calls).isSome = true)
    (hother : asker ≠ id) : ¬ Honest (.showChoices first rest id :: calls) := by
  rintro ⟨_, hattended, _⟩
  have hstill : (waiting? asker (.showChoices first rest id :: calls)).isSome = true := by
    simpa [waiting?, Ne.symm hother] using hwaits
  cases hattended asker hstill with
  | choosing _ hid _ => exact hother hid.symm
  | counting _ hid _ => exact hother hid.symm
  | holding row hchosen _ => cases hchosen

/-- While a pick is counted under an open column, frames hand a row over that nobody picked. -/
theorem countdown_hands_over (id row : Nat) (input : Input) (left : Nat) :
    ∀ calls, (after calls).choosing = true → (after calls).pickedCount.toNat = left + 1 →
      pickedFor id row calls = false →
      let calls' := List.replicate (left + 1) (.update input) ++ calls
      (after calls').chosen = some ((after calls).choosingId, (after calls).pickedRow) ∧
        pickedFor id row calls' = false := by
  induction left with
  | zero =>
    intro calls hchoosing hleft hpicked
    have hpos : 0 < (after calls).pickedCount := by
      rw [UInt32.lt_iff_toNat_lt, hleft]
      decide
    have hone : (after calls).pickedCount - 1 = 0 := by
      rw [← UInt32.toNat_inj,
        UInt32.toNat_sub_of_le _ _ (UInt32.le_iff_toNat_le.2 (by simp [hleft]))]
      simp [hleft]
    obtain ⟨hchoosing', _, hnext⟩ := update_of_counting input hpos
    rw [if_pos hone] at hnext
    exact ⟨hnext, by simp [pickedFor, picks, hchoosing', hchoosing, hpicked]⟩
  | succ left ih =>
    intro calls hchoosing hleft hpicked
    have hpos : 0 < (after calls).pickedCount := by
      rw [UInt32.lt_iff_toNat_lt, hleft]
      simp
    have hcount : ((after calls).pickedCount - 1).toNat = left + 1 := by
      rw [UInt32.toNat_sub_of_le _ _ (UInt32.le_iff_toNat_le.2 (by simp [hleft]))]
      simp [hleft]
    have hmore : (after calls).pickedCount - 1 ≠ 0 := by
      intro hzero
      simp [hzero] at hcount
    obtain ⟨hchoosing', hcount', hnext⟩ := update_of_counting input hpos
    rw [if_neg hmore] at hnext
    obtain ⟨_, hid', hrow'⟩ := hnext
    have hlater := ih (.update input :: calls) (hchoosing'.trans hchoosing)
      (by rw [after_cons, perform, hcount', hcount])
      (by simp [pickedFor, picks, hchoosing', hchoosing, hpicked])
    simp only [after_cons, perform, hid', hrow'] at hlater
    rw [List.replicate_succ', List.append_assoc]
    exact hlater

/-- Choices that are asked for while a pick is counted get an answer that nobody gave. -/
theorem exists_not_honest_of_counting (hcount : 0 < (after calls).pickedCount) :
    ∃ more : List Call, (∀ call ∈ more, call.asks = false) ∧
      ¬ Honest (more ++ .showChoices first rest id :: calls) := by
  obtain ⟨left, hleft⟩ : ∃ left, (after calls).pickedCount.toNat = left + 1 :=
    Nat.exists_eq_add_one.2 (UInt32.lt_iff_toNat_lt.1 hcount)
  -- a new column begins with row 0, which nobody has picked in it
  obtain ⟨hchosen, hpicked⟩ := countdown_hands_over id 0 .none left
    (.showChoices first rest id :: calls) rfl hleft (by simp [pickedFor])
  generalize hlater : List.replicate (left + 1) (.update .none) ++
    .showChoices first rest id :: calls = later at hchosen hpicked
  refine ⟨.takeChosen id :: List.replicate (left + 1) (.update .none), ?_, ?_⟩
  · intro call hcall
    simp only [List.mem_cons, List.mem_replicate] at hcall
    rcases hcall with rfl | ⟨_, rfl⟩ <;> rfl
  · rw [List.cons_append, hlater]
    rintro ⟨hhands, _, _⟩
    have htake : ((after later).takeChosen id).1 = some 0 := by
      simp [Windows.takeChosen, hchosen, perform, Windows.showChoices]
    have hmine := (hhands id 0 rfl htake).2
    rw [hpicked] at hmine
    cases hmine

/-- If choices are asked for while the windows are not free, then without any further question an
answer gets lost or invented. -/
theorem PhaseAfter.exists_not_honest (h : PhaseAfter calls) (first : String × Bool)
    (rest : List (String × Bool)) (hbusy : ¬ (after calls).isFree id = true) :
    ∃ more : List Call, (∀ call ∈ more, call.asks = false) ∧
      ¬ Honest (more ++ .showChoices first rest id :: calls) := by
  rw [isFree_iff] at hbusy
  cases h with
  | idle hchoosing hcount hchosen _ => simp [hchoosing, hcount, hchosen] at hbusy
  | choosing asker hchoosing hid hcount hchosen _ hwaits _ =>
    have hother : asker ≠ id := by simpa [hcount, hchosen, hid, hchoosing] using hbusy
    exact ⟨[], by simp, not_honest_of_waiting (by simp [hwaits]) hother⟩
  | counting _ _ _ hcount _ _ _ _ => exact exists_not_honest_of_counting hcount
  | answered asker row hchoosing hcount hchosen _ hwaits _ =>
    have hother : asker ≠ id := by simpa [hcount, hchosen, hchoosing] using hbusy
    exact ⟨[], by simp, not_honest_of_waiting hwaits hother⟩

theorem Orderly.append {more : List Call} (hquiet : ∀ call ∈ more, call.asks = false)
    (h : Orderly calls) : Orderly (more ++ calls) := by
  induction more with
  | nil => exact h
  | cons call more ih =>
    obtain ⟨hcall, hmore⟩ := List.forall_mem_cons.1 hquiet
    cases call with
    | showChoices first rest id => cases hcall
    | _ => exact ih hmore

theorem Orderly.of_suffix {earlier : List Call} (h : Orderly calls) (hsuffix : earlier <:+ calls) :
    Orderly earlier := by
  induction calls with
  | nil => simpa [List.suffix_nil.1 hsuffix] using h
  | cons call calls ih =>
    rcases List.suffix_cons_iff.1 hsuffix with rfl | hearlier
    · exact h
    · cases call with
      | showChoices first rest id => exact ih h.2 hearlier
      | _ => exact ih h hearlier

end Phases

/-- Answers are never invented, swapped or lost, whatever the player and the takers do in between,
exactly if choices are only asked for while the windows are free. -/
theorem orderly_iff_honest (calls : List Call) :
    Orderly calls ↔ ∀ earlier, earlier <:+ calls → ∀ more : List Call,
      (∀ call ∈ more, call.asks = false) → Honest (more ++ earlier) := by
  constructor
  · intro h earlier hsuffix more hquiet
    exact ((h.of_suffix hsuffix).append hquiet).isHonest
  · intro h
    induction calls with
    | nil => trivial
    | cons call calls ih =>
      have hcalls : Orderly calls := ih fun earlier hsuffix =>
        h earlier (hsuffix.trans (List.suffix_cons call calls))
      cases call with
      | showChoices first rest id =>
        refine ⟨?_, hcalls⟩
        by_cases hfree : (after calls).isFree id = true
        · exact hfree
        · obtain ⟨more, hquiet, hnot⟩ :=
            hcalls.phaseAfter.exists_not_honest first rest hfree
          exact absurd (h _ (List.suffix_refl _) more hquiet) hnot
      | _ => exact hcalls

/-- One interpreter asks while another one's pick is counted: it gets a row that the player never
picked for it, and the other one is not served any more. -/
theorem not_honest_when_asking_during_countdown :
    let asked : List Call := [.showChoices ("left", false) [("right", false)] 5,
      .update { Input.none with choice := some 1 }, .update .none, .update .none, .update .none,
      .update .none, .showChoices ("yes", false) [("no", false)] 4]
    let counted := List.replicate 5 (.update .none) ++ asked
    ((after counted).takeChosen 5).1 = some 0 ∧ pickedFor 5 0 counted = false ∧
      pickedFor 4 1 counted = true ∧ ¬ Attended asked 4 ∧ ¬ Honest (.takeChosen 5 :: counted) := by
  intro asked counted
  have htake : ((after counted).takeChosen 5).1 = some 0 := by decide
  have hpicked : pickedFor 5 0 counted = false := by decide
  refine ⟨htake, hpicked, by decide, ?_, ?_⟩
  · rintro (⟨_, hid, _⟩ | ⟨_, hid, _⟩ | ⟨row, hchosen, _⟩)
    · exact absurd hid (by decide)
    · exact absurd hid (by decide)
    · exact absurd hchosen (by simp [asked, perform, showChoices])
  · rintro ⟨hhands, _, _⟩
    have hmine := (hhands 5 0 rfl htake).2
    rw [hpicked] at hmine
    cases hmine

end Adventure.Windows
