import Adventure.Proofs.Ways.Shortest
import Adventure.Proofs.Ways.Walkers

/-!
# Walks to a target

A walk to a tile is planned from the tile that its character is on, and it begins on the tile where
the character comes to stand.  So it ends on its target just when these are the same.
-/

namespace Adventure

/-! ## Undisturbed walks -/

/-- A character comes to stand on its own tile just when it stands. -/
theorem Character.destination_eq_position_iff {c : Character} :
    c.destination = c.position ↔ c.isMoving = false := by
  refine ⟨fun heq => Bool.eq_false_iff.2 fun hmoving => ?_, Character.destination_of_standing⟩
  rw [Character.destination_of_moving hmoving] at heq
  exact c.position.step_ne c.moveDir heq

namespace Walk

/-- What can happen while nobody else moves the character of a walk, and nothing is in the way of a
step that the walk tries. -/
inductive Proceeds (project : Project) : Walk × Stage → Walk × Stage → Prop where
  | walk (w : Walk) (s : Stage) (random : Random)
      (free : ∀ c dir, w.Tries s random c dir →
        s.canEnter project w.eventId false (c.position.step dir) = true) :
      Proceeds project (w, s) ((w.update project s random).1, (w.update project s random).2.1)
  | frame (w : Walk) (s : Stage) : Proceeds project (w, s) (w, s.updateCharacters)
  /-- Whatever changes something else. -/
  | aside (w : Walk) {s s' : Stage} {c c' : Character}
      (before : s.characterIn? w.mapId w.roomId w.eventId = some c)
      (after : s'.characterIn? w.mapId w.roomId w.eventId = some c') (gait : c'.gait = c.gait) :
      Proceeds project (w, s) (w, s')

/-- The course of a walk that is not disturbed. -/
def Undisturbed (project : Project) : Walk × Stage → Walk × Stage → Prop :=
  Relation.ReflTransGen (Proceeds project)

/-! ## Steps ahead -/

/-- The number of steps that have not been begun. -/
def stepsAhead (w : Walk) : Nat := w.stepsLeft.toNat - if w.stepping then 1 else 0

/-- The planned steps that have not been begun. -/
def ahead (w : Walk) : List Direction := w.path.drop (w.path.length - w.stepsAhead)

variable {w w' : Walk} {project : Project} {s s' : Stage} {random : Random} {c : Character}
  {t : Tile} {dir : Direction}

theorem settle_eq (w : Walk) : ∃ n, w.settle = { w with stepping := false, stepsLeft := n } := by
  unfold settle
  split
  · exact ⟨_, rfl⟩
  · next h => exact ⟨w.stepsLeft, by rw [← Bool.eq_false_iff.2 h]⟩

theorem settle_path (w : Walk) : w.settle.path = w.path := by
  unfold settle
  split <;> rfl

theorem settle_order (w : Walk) : w.settle.order = w.order := by
  unfold settle
  split <;> rfl

theorem settle_stepping (w : Walk) : w.settle.stepping = false := by
  unfold settle
  split
  · rfl
  · next h => exact Bool.eq_false_iff.2 h

/-- Counting a step that is over leaves the steps ahead. -/
theorem settle_stepsLeft (w : Walk) : w.settle.stepsLeft.toNat = w.stepsAhead := by
  unfold settle stepsAhead
  split
  · dsimp only
    split
    · next hzero => simp [hzero]
    · next hleft =>
      have hone : (1 : UInt32) ≤ w.stepsLeft := by grind
      rw [UInt32.toNat_sub_of_le _ _ hone]
      rfl
  · rfl

theorem stepsAhead_settle (w : Walk) : w.settle.stepsAhead = w.stepsAhead := by
  unfold stepsAhead
  rw [settle_stepping, settle_stepsLeft]
  rfl

theorem ahead_settle (w : Walk) : w.settle.ahead = w.ahead := by
  unfold ahead
  rw [stepsAhead_settle, settle_path]

/-! ## Where the steps ahead lead -/

/-- A walk along a path whose steps ahead lead its character to a tile.  It is finished only if
there are none. -/
structure LeadsTo (w : Walk) (s : Stage) (t : Tile) : Prop where
  kind : w.order.kind = .target
  fits : w.stepsLeft.toNat ≤ w.path.length
  finished : w.finished = true → w.ahead = []
  leads : ∃ c, s.characterIn? w.mapId w.roomId w.eventId = some c ∧ walk c.destination w.ahead = t

theorem ahead_eq_nil (h : w.stepsAhead = 0) : w.ahead = [] := by simp [ahead, h]

/-- The next step of a walk along a path is the first of those ahead. -/
theorem Tries.ahead_eq (h : w.Tries s random c dir) (kind : w.order.kind = .target) :
    0 < w.stepsAhead ∧ w.ahead = dir :: w.path.drop (w.path.length - (w.stepsAhead - 1)) := by
  have hleft : 0 < w.stepsAhead := by
    rw [← settle_stepsLeft]
    exact Nat.pos_of_ne_zero fun hzero => h.left (UInt32.toNat_inj.1 hzero)
  have hnext : w.settle.plannedStep? = some dir := by
    have hnext := h.next
    simp only [nextStep?, settle_order, kind] at hnext
    exact hnext
  unfold plannedStep? at hnext
  rw [settle_stepsLeft, settle_path] at hnext
  split at hnext
  · next hfits =>
    obtain ⟨hlt, hdir⟩ := List.getElem?_eq_some_iff.1 hnext
    have hsucc : w.path.length - (w.stepsAhead - 1) = w.path.length - w.stepsAhead + 1 := by omega
    refine ⟨hleft, ?_⟩
    rw [ahead, List.drop_eq_getElem_cons hlt, hdir, hsucc]
  · cases hnext

theorem stepsAhead_le (w : Walk) : w.stepsAhead ≤ w.stepsLeft.toNat := Nat.sub_le ..

/-- A walk along a path comes to an end when no steps are ahead. -/
theorem ahead_eq_nil_of_ends (kind : w.order.kind = .target)
    (fits : w.stepsLeft.toNat ≤ w.path.length)
    (last : w.settle.stepsLeft = 0 ∨ (w.settle.nextStep? s c random).1 = none) : w.ahead = [] := by
  refine ahead_eq_nil ?_
  have hle : w.stepsAhead ≤ w.path.length := w.stepsAhead_le.trans fits
  rcases last with hzero | hnone
  · rw [← settle_stepsLeft, hzero]
    rfl
  · simp only [nextStep?, settle_order, kind, plannedStep?, settle_path, settle_stepsLeft,
      if_pos hle, List.getElem?_eq_none_iff] at hnone
    omega

/-! ## What the course keeps -/

namespace LeadsTo

variable (h : w.LeadsTo s t)

include h in
theorem settle : w.settle.LeadsTo s t := by
  obtain ⟨n, hn⟩ := w.settle_eq
  have hfits : w.settle.stepsLeft.toNat ≤ w.path.length := by
    rw [settle_stepsLeft]
    exact w.stepsAhead_le.trans h.fits
  refine ⟨?_, by rwa [settle_path], fun hfinished => ?_, ?_⟩
  · rw [settle_order]
    exact h.kind
  · rw [hn] at hfinished
    rw [ahead_settle]
    exact h.finished hfinished
  · rw [ahead_settle, hn]
    exact h.leads

include h in
theorem finish (hnil : w.ahead = []) : w.finish.LeadsTo s t :=
  ⟨h.kind, h.fits, fun _ => hnil, h.leads⟩

include h in
theorem character_eq (hc : s.characterIn? w.mapId w.roomId w.eventId = some c) :
    walk c.destination w.ahead = t := by
  obtain ⟨c', hc', hleads⟩ := h.leads
  rwa [Option.some.inj (hc.symm.trans hc')]

include h in
/-- A step brings its character to the next of the tiles ahead. -/
theorem step (tries : w.Tries s random c dir) :
    { w.settle with stepping := true }.LeadsTo
      (s.modifyCharacter w.eventId fun c => c.startMove dir) t := by
  obtain ⟨n, hn⟩ := w.settle_eq
  obtain ⟨hleft, hahead⟩ := tries.ahead_eq h.kind
  have hsettled := h.settle
  have hnext : { w.settle with stepping := true }.ahead =
      w.path.drop (w.path.length - (w.stepsAhead - 1)) := by
    rw [ahead, stepsAhead, settle_path, settle_stepsLeft]
    rfl
  refine ⟨hsettled.kind, hsettled.fits, fun hfinished => ?_, c.startMove dir, ?_, ?_⟩
  · rw [hn] at hfinished
    exact absurd hfinished (Bool.eq_false_iff.1 tries.unfinished)
  · rw [hn]
    exact (Stage.characterIn?_modifyCharacter (Character.Steady.startMove dir).eventId ..).trans
      (congrArg _ tries.present)
  · rw [hnext, c.destination_startMove, ← h.character_eq tries.present, hahead,
      Character.destination_of_standing tries.standing]
    rfl

include h in
/-- Whatever happens on an undisturbed course, the steps ahead lead to the same tile. -/
theorem proceeds (next : Proceeds project (w, s) (w', s')) : w'.LeadsTo s' t := by
  cases next with
  | walk _ _ random free =>
    have hframe := w.frame_update project s random
    generalize (w.update project s random).1 = w', (w.update project s random).2.1 = s' at hframe ⊢
    cases hframe with
    | waits => exact h
    | ends due last =>
      refine h.settle.finish ?_
      rw [ahead_settle]
      exact ahead_eq_nil_of_ends h.kind h.fits last
    | steps tries enters => exact h.step tries
    | bumps tries enters => exact absurd (free _ _ tries) (Bool.eq_false_iff.1 enters)
  | frame =>
    obtain ⟨c, hc, hleads⟩ := h.leads
    refine ⟨h.kind, h.fits, h.finished, c.update, ?_, ?_⟩
    · rw [s.characterIn?_updateCharacters, hc]
      rfl
    · rwa [c.destination_update]
  | aside _ before after gait =>
    refine ⟨h.kind, h.fits, h.finished, _, after, ?_⟩
    rw [Character.destination_eq_of_gait gait]
    exact h.character_eq before

end LeadsTo

theorem LeadsTo.undisturbed {ws ws' : Walk × Stage} (h : ws.1.LeadsTo ws.2 t)
    (course : Undisturbed project ws ws') : ws'.1.LeadsTo ws'.2 t := by
  induction course with
  | refl => exact h
  | tail _ next ih => exact ih.proceeds next

/-- A walk that is over has led its character where the steps ahead led. -/
theorem LeadsTo.position_of_isOver (h : w.LeadsTo s t) (ended : w.isOver s = true) :
    ∃ c, s.characterIn? w.mapId w.roomId w.eventId = some c ∧ c.position = t := by
  obtain ⟨c, hc, hleads⟩ := h.leads
  simp only [isOver, hc, Bool.and_eq_true, Bool.not_eq_true'] at ended
  obtain ⟨hstanding, hfinished⟩ := ended
  rw [h.finished hfinished, Character.destination_of_standing hstanding] at hleads
  exact ⟨c, hc, hleads⟩

theorem update_eventId (w : Walk) (project : Project) (s : Stage) (random : Random) :
    (w.update project s random).1.eventId = w.eventId := by
  have hframe := w.frame_update project s random
  generalize (w.update project s random).1 = w', (w.update project s random).2.1 = s' at hframe ⊢
  cases hframe with
  | waits => rfl
  | ends => exact w.settle_eventId
  | steps => exact w.settle_eventId
  | bumps =>
    split
    · exact w.settle_eventId
    · exact w.settle_eventId

theorem Undisturbed.eventId_eq {ws ws' : Walk × Stage} (course : Undisturbed project ws ws') :
    ws'.1.eventId = ws.1.eventId := by
  induction course with
  | refl => rfl
  | tail _ next ih =>
    cases next with
    | walk w s random => exact (w.update_eventId project s random).trans ih
    | frame => exact ih
    | aside => exact ih

/-! ## Planned walks -/

variable {id : Int32} {order : MoveOrder} {skip : Bool}

/-- A walk to a tile is planned from the tile that its character is on. -/
theorem exists_path_of_plan (kind : order.kind = .target)
    (planned : plan s project id order skip = some w) (unfinished : w.finished = false) :
    ∃ c path, s.character? id = some c ∧
      path = s.findPath project id order.ignoreCharacters c.position ⟨order.x, order.y⟩ ∧
      walk c.position path = ⟨order.x, order.y⟩ ∧
      w = begin s id order skip path (UInt32.ofNat path.length) := by
  simp only [plan, kind, planToTarget, Option.bind_eq_some_iff] at planned
  obtain ⟨c, hc, hplanned⟩ := planned
  refine ⟨c, _, hc, rfl, ?_⟩
  split at hplanned
  · next hcomes => exact ⟨hcomes, (Option.some.inj hplanned).symm⟩
  · split at hplanned
    · obtain rfl := Option.some.inj hplanned
      cases unfinished
    · cases hplanned

/-- The counter of steps has 32 bits. -/
theorem ahead_begin (s : Stage) (id : Int32) (order : MoveOrder) (skip : Bool)
    (path : List Direction) : (begin s id order skip path (UInt32.ofNat path.length)).ahead =
      path.drop (path.length - path.length % UInt32.size) := by
  simp [ahead, stepsAhead, begin]

theorem leadsTo_begin (hc : s.character? id = some c) (kind : order.kind = .target)
    (path : List Direction) :
    (begin s id order skip path (UInt32.ofNat path.length)).LeadsTo s
      (walk c.destination (path.drop (path.length - path.length % UInt32.size))) := by
  refine ⟨kind, ?_, fun hfinished => Bool.noConfusion hfinished, c, ?_, ?_⟩
  · simp only [begin, UInt32.toNat_ofNat']
    exact Nat.mod_le ..
  · simp [begin, Stage.characterIn?, hc]
  · rw [ahead_begin]

/-! ## The end of a planned walk -/

/-- What is left of a best way without its first steps does not lead from its start to the goal. -/
theorem walk_drop_eq_iff {passable : Tile → Bool} {start goal : Tile} {path : List Direction}
    (best : IsBestWay passable start goal path) (comes : walk start path = goal) {k : Nat}
    (hk : k ≤ path.length) : walk start (path.drop k) = goal ↔ k = 0 := by
  refine ⟨fun heq => ?_, fun hzero => by rwa [hzero]⟩
  rw [← List.take_append_drop k path] at best comes
  have hback : walk start (path.take k) = start := by
    rw [walk_append, ← heq, walk_inj] at comes
    exact comes
  have hnil := best.eq_nil_of_walk_eq comes hback
  have hlength := congrArg List.length hnil
  rw [List.length_take_of_le hk] at hlength
  exact hlength

/-- An undisturbed walk to a tile ends where its planned steps lead from the tile on which it
begins.  This is the target just when the character stood as the walk was planned, as long as there
are not too many steps to count. -/
theorem target_walk_ends (kind : order.kind = .target)
    (planned : plan s project id order skip = some w) (unfinished : w.finished = false)
    (course : Undisturbed project (w, s) (w', s')) (ended : w'.isOver s' = true) :
    ∃ c c', s.character? id = some c ∧ s'.character? id = some c' ∧
      c'.position = walk c.destination (w.path.drop (w.path.length - w.path.length % UInt32.size)) ∧
      (w.path.length < UInt32.size → (c'.position = w.target ↔ c.isMoving = false)) ∧
      (c.isMoving = false → (c'.position = w.target ↔ w.path.length < UInt32.size)) := by
  obtain ⟨c, path, hc, hpath, hcomes, rfl⟩ := exists_path_of_plan kind planned unfinished
  obtain ⟨c', hc', hend⟩ :=
    ((leadsTo_begin hc kind path).undisturbed course).position_of_isOver ended
  have hid : w'.eventId = id := course.eventId_eq
  refine ⟨c, c', hc, hid ▸ Stage.character?_of_characterIn? hc', hend, fun hfew => ?_,
    fun hstanding => ?_⟩
  · show c'.position = ⟨order.x, order.y⟩ ↔ c.isMoving = false
    have hfew : path.length < UInt32.size := hfew
    have hall : path.length - path.length % UInt32.size = 0 := by
      rw [Nat.mod_eq_of_lt hfew, Nat.sub_self]
    rw [hend, hall, List.drop_zero, ← hcomes, walk_inj, Character.destination_eq_position_iff]
  · show c'.position = ⟨order.x, order.y⟩ ↔ path.length < UInt32.size
    have hbest := hpath ▸ s.isBestWay_findPath project id order.ignoreCharacters c.position
      ⟨order.x, order.y⟩
    rw [hend, Character.destination_of_standing hstanding,
      walk_drop_eq_iff hbest hcomes (Nat.sub_le ..)]
    unfold UInt32.size
    omega

/-! ### A walk through a corridor -/

/-- Some frames of a walk and of its room, unless something is in the way. -/
def drive? (project : Project) (random : Random) : Nat → Walk × Stage → Option (Walk × Stage)
  | 0, ws => some ws
  | frames + 1, (w, s) =>
    let bumps (c : Character) : Bool :=
      !c.isMoving && !w.finished && w.settle.stepsLeft ≠ 0 &&
        (w.settle.nextStep? s c random).1.any fun dir =>
          !s.canEnter project w.eventId false (c.position.step dir)
    if (s.characterIn? w.mapId w.roomId w.eventId).any bumps then none
    else
      let (w, s, _) := w.update project s random
      drive? project random frames (w, s.updateCharacters)

theorem undisturbed_of_drive? {frames : Nat} {ws ws' : Walk × Stage}
    (h : drive? project random frames ws = some ws') : Undisturbed project ws ws' := by
  induction frames generalizing ws with
  | zero => exact Option.some.inj h ▸ .refl
  | succ frames ih =>
    obtain ⟨w, s⟩ := ws
    simp only [drive?] at h
    split at h
    · cases h
    · next hfree =>
      refine .head (.walk w s random fun c dir tries => ?_) (.head (.frame _ _) (ih h))
      simpa [tries.present, tries.standing, tries.unfinished, tries.left, tries.next] using hfree

/-- A walk that is planned and goes on for some frames: as it begins, and as it is then. -/
def trial? (s : Stage) (project : Project) (order : MoveOrder) (frames : Nat) :
    Option (Walk × Walk × Stage) := do
  let w ← plan s project playerId order false
  let (w', s') ← drive? project ⟨0, 0⟩ frames (w, s)
  return (w, w', s')

theorem of_trial? {frames : Nat} (h : trial? s project order frames = some (w, w', s')) :
    plan s project playerId order false = some w ∧ Undisturbed project (w, s) (w', s') := by
  simp only [trial?, Option.bind_eq_bind, Option.bind_eq_some_iff, Option.pure_def] at h
  obtain ⟨w, hplan, ws', hdrive, heq⟩ := h
  cases heq
  exact ⟨hplan, undisturbed_of_drive? hdrive⟩

/-- The player at one end of the corridor. -/
def corridorEnd : Stage := ⟨1, 1, .player 0 0 "" .fastest, [], .empty, [], [], none, false⟩

/-- The order to walk to the third tile. -/
def toThirdTile : MoveOrder := ⟨.target, .down, 0, 2, 0, .constant, false⟩

/-- A player who stands walks to the third tile. -/
theorem corridorEnd_walk_ends :
    ∃ w w' s' c', plan corridorEnd .corridor playerId toThirdTile false = some w ∧
      w.finished = false ∧ Undisturbed .corridor (w, corridorEnd) (w', s') ∧ w'.isOver s' = true ∧
      s'.character? playerId = some c' ∧ c'.position = w.target := by
  have hstanding : corridorEnd.player.isMoving = false := rfl
  have htrial : (trial? corridorEnd .corridor toThirdTile 9).any (fun (w, w', s') =>
      !w.finished && w'.isOver s' && decide (w.path.length < UInt32.size)) = true := by
    decide +kernel
  obtain ⟨⟨w, w', s'⟩, hsome, hprops⟩ := (Option.any_eq_true _ _).1 htrial
  obtain ⟨hplan, hcourse⟩ := of_trial? hsome
  simp only [Bool.and_eq_true, Bool.not_eq_true', decide_eq_true_eq] at hprops
  obtain ⟨⟨hunfinished, hover⟩, hfew⟩ := hprops
  obtain ⟨c, c', hc, hc', -, hends, -⟩ := target_walk_ends rfl hplan hunfinished hcourse hover
  obtain rfl : corridorEnd.player = c := Option.some.inj hc
  exact ⟨w, w', s', c', hplan, hunfinished, hcourse, hover, hc', (hends hfew).2 hstanding⟩

/-- A player who still slides on to the second tile walks to the fourth. -/
theorem corridorEnd_sliding_misses :
    let s := corridorEnd.modifyCharacter playerId fun c => c.startMove .right
    ∃ w w' s' c', plan s .corridor playerId toThirdTile false = some w ∧
      w.finished = false ∧ Undisturbed .corridor (w, s) (w', s') ∧ w'.isOver s' = true ∧
      s'.character? playerId = some c' ∧ c'.position = ⟨3, 0⟩ ∧ w.target = ⟨2, 0⟩ := by
  intro s
  have htrial : (trial? s .corridor toThirdTile 13).any (fun (w, w', s') =>
      !w.finished && w'.isOver s' && decide (w.target = ⟨2, 0⟩) &&
        (s'.character? playerId).any fun c => c.position == ⟨3, 0⟩) = true := by decide +kernel
  obtain ⟨⟨w, w', s'⟩, hsome, hprops⟩ := (Option.any_eq_true _ _).1 htrial
  obtain ⟨hplan, hcourse⟩ := of_trial? hsome
  simp only [Bool.and_eq_true, Bool.not_eq_true', decide_eq_true_eq] at hprops
  obtain ⟨⟨⟨hunfinished, hover⟩, htarget⟩, hend⟩ := hprops
  obtain ⟨c', hc', hposition⟩ := (Option.any_eq_true _ _).1 hend
  exact ⟨w, w', s', c', hplan, hunfinished, hcourse, hover, hc', eq_of_beq hposition, htarget⟩

end Walk

end Adventure
