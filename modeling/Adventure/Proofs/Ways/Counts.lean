import Adventure.Proofs.Session.Journeys
import Adventure.Proofs.Ways.Tours

/-!
# Counting along a path

A walk along a path looks up its next step at the length of the path less the steps left.  A walk
that is planned has as many steps left as its path is long, and from then on the count only goes
down, so the difference is never below zero.  A save may hold any count with any path, or with none
at all: there the difference is not below zero just if the steps that have not been begun are no
more than the path has.
-/

namespace Adventure

open Session (Act)

variable {project : Project}

namespace Walk

variable {w : Walk} {s : Stage} {random : Random} {id : Int32} {order : MoveOrder} {skip : Bool}

/-- Whether a frame of a walk looks up the next step in its path. -/
structure LooksUp (w : Walk) (s : Stage) : Prop where
  kind : w.order.kind = .target
  due : ∃ c, w.IsDue s c
  left : w.settle.stepsLeft ≠ 0

/-- What a walk becomes frame by frame, whatever the rooms and the random numbers are. -/
def Becomes (project : Project) : Walk → Walk → Prop :=
  Relation.ReflTransGen fun w w' => ∃ s random, w' = (w.update project s random).1

/-- Whenever a frame of a walk looks up the next step, now or later, there are no more steps left
than the path has. -/
def StaysOnPath (project : Project) (w : Walk) : Prop :=
  ∀ w' s, Becomes project w w' → w'.LooksUp s → w'.settle.stepsLeft.toNat ≤ w'.path.length

/-- The steps left are steps of the path. -/
def Fits (w : Walk) : Prop := w.order.kind = .target → w.stepsLeft.toNat ≤ w.path.length

/-- The steps that have not been begun are steps of the path, as long as the walk is not over. -/
def FitsAhead (w : Walk) : Prop :=
  w.order.kind = .target → w.finished = false → w.stepsAhead ≤ w.path.length

/-! ## The steps ahead -/

theorem Fits.ahead (h : w.Fits) : w.FitsAhead := fun kind _ => w.stepsAhead_le.trans (h kind)

/-- A frame begins the first of the steps ahead, or it leaves them as they are. -/
theorem FitsAhead.update (h : w.FitsAhead) (s : Stage) (random : Random) :
    (w.update project s random).1.FitsAhead := by
  have hframe := w.frame_update project s random
  generalize (w.update project s random).1 = w', (w.update project s random).2.1 = s' at hframe ⊢
  have hsettled : w.settle.FitsAhead := by
    obtain ⟨n, hn⟩ := w.settle_eq
    intro kind unfinished
    rw [settle_order] at kind
    rw [hn] at unfinished
    rw [stepsAhead_settle, settle_path]
    exact h kind unfinished
  cases hframe with
  | waits => exact h
  | ends => exact fun _ hfinished => Bool.noConfusion hfinished
  | steps tries enters =>
    intro kind unfinished
    have hbound := hsettled kind unfinished
    rw [stepsAhead, w.settle_stepping] at hbound
    exact (Nat.sub_le _ _).trans hbound
  | bumps tries enters =>
    split
    · exact fun _ hfinished => Bool.noConfusion hfinished
    · exact hsettled

theorem FitsAhead.becomes {w' : Walk} (h : w.FitsAhead) (course : Becomes project w w') :
    w'.FitsAhead := by
  induction course with
  | refl => exact h
  | tail _ next ih =>
    obtain ⟨s, random, rfl⟩ := next
    exact ih.update s random

/-- A stage with nobody but the player and the character of a walk, who stand. -/
def lonelyStage (w : Walk) : Stage where
  mapId := w.mapId
  roomId := w.roomId
  player := .player 0 0 "" .fastest
  events := [.ofEvent w.eventId 0 0]
  pages := .empty
  interpreters := []
  routes := []
  playerWalk := none
  walkingToTap := false

theorem exists_isDue (unfinished : w.finished = false) : ∃ c, w.IsDue w.lonelyStage c := by
  by_cases hplayer : w.eventId = playerId
  · exact ⟨.player 0 0 "" .fastest, by
      simp [Stage.characterIn?, Stage.character?, hplayer, lonelyStage],
      rfl, unfinished⟩
  · exact ⟨.ofEvent w.eventId 0 0, by
      simp [Stage.characterIn?, Stage.character?, hplayer, lonelyStage, Character.ofEvent],
      rfl, unfinished⟩

/-- A walk stays on its path just if the steps ahead are steps of the path. -/
theorem staysOnPath_iff : w.StaysOnPath project ↔ w.FitsAhead := by
  constructor
  · intro h kind unfinished
    rw [← settle_stepsLeft]
    by_cases hleft : w.settle.stepsLeft = 0
    · rw [hleft]
      exact Nat.zero_le _
    · exact h w w.lonelyStage .refl ⟨kind, exists_isDue unfinished, hleft⟩
  · intro h w' s course looks
    obtain ⟨c, hdue⟩ := looks.due
    rw [settle_stepsLeft]
    exact h.becomes course looks.kind hdue.unfinished

/-! ## The steps left -/

/-- The counter has 32 bits, so it may begin below the length of the path. -/
theorem fits_begin (s : Stage) (id : Int32) (order : MoveOrder) (skip : Bool)
    (path : List Direction) : (begin s id order skip path (UInt32.ofNat path.length)).Fits := by
  intro _
  simp only [begin, UInt32.toNat_ofNat']
  exact Nat.mod_le ..

theorem fits_of_plan (planned : plan s project id order skip = some w) : w.Fits := by
  cases hkind : order.kind with
  | target =>
    simp only [plan, hkind, planToTarget] at planned
    obtain ⟨c, _, hplanned⟩ := Option.bind_eq_some_iff.1 planned
    have hbegins := fits_begin s id order skip
      (s.findPath project id order.ignoreCharacters c.position ⟨order.x, order.y⟩)
    split at hplanned
    · exact Option.some.inj hplanned ▸ hbegins
    · split at hplanned
      · exact Option.some.inj hplanned ▸ hbegins
      · cases hplanned
  | _ =>
    simp only [plan, hkind] at planned
    obtain rfl := Option.some.inj planned
    exact fun kind => by cases hkind.symm.trans kind

theorem Fits.update (h : w.Fits) (s : Stage) (random : Random) :
    (w.update project s random).1.Fits := by
  have hframe := w.frame_update project s random
  generalize (w.update project s random).1 = w', (w.update project s random).2.1 = s' at hframe ⊢
  have hsettled : w.settle.Fits := by
    intro kind
    rw [settle_order] at kind
    rw [settle_stepsLeft, settle_path]
    exact w.stepsAhead_le.trans (h kind)
  cases hframe with
  | waits => exact h
  | ends => exact hsettled
  | steps => exact hsettled
  | bumps =>
    split
    · exact fun _ => Nat.zero_le _
    · exact hsettled

theorem lasting_fits (project : Project) : Lasting project Fits where
  plan := fits_of_plan
  along s _ path := fits_begin s playerId _ true path
  update h s random := h.update s random

theorem lasting_fitsAhead (project : Project) : Lasting project FitsAhead where
  plan planned := (fits_of_plan planned).ahead
  along s _ path := (fits_begin s playerId _ true path).ahead
  update h s random := h.update s random

/-! ## Walks from saves -/

/-- The names of the fields of a walk. -/
def names : List String :=
  ["mapId", "roomId", "eventId", "args", "routeSkip", "distanceCount", "path", "waiting",
    "terminated"]

/-- A walk that is read from a record without a path has none. -/
theorem path_of_decode? {m : Wire.Medium} {v : Wire.Value} {f : Wire.Fields}
    (decoded : Wire.decode? m v = some w) (read : Wire.Fields.read? m names v = some f)
    (pathless : f.find? "path" = none) : w.path = [] := by
  obtain ⟨f', hread, hfields⟩ := Option.bind_eq_some_iff.1 decoded
  obtain rfl : f = f' := Option.some.inj (read.symm.trans hread)
  -- the six fields before the path, the path, and the two after it
  iterate 6 obtain ⟨_, _, hfields⟩ := Option.bind_eq_some_iff.1 hfields
  obtain ⟨path, hpath, hfields⟩ := Option.bind_eq_some_iff.1 hfields
  iterate 2 obtain ⟨_, _, hfields⟩ := Option.bind_eq_some_iff.1 hfields
  rw [Wire.Fields.withDefault, Wire.Fields.orElse, pathless] at hpath
  obtain rfl := Option.some.inj hfields
  exact (Option.some.inj hpath).symm

/-! ## Counting down -/

/-- Counting a step that is over takes one off, unless none is left. -/
theorem stepsLeft_settle (w : Walk) :
    w.settle.stepsLeft.toNat + (if w.stepping && w.stepsLeft ≠ 0 then 1 else 0) =
      w.stepsLeft.toNat := by
  rw [settle_stepsLeft, stepsAhead]
  cases w.stepping with
  | false => simp
  | true =>
    by_cases hzero : w.stepsLeft = 0
    · simp [hzero]
    · have hpos : 0 < w.stepsLeft.toNat :=
        Nat.pos_of_ne_zero fun h => hzero (UInt32.toNat_inj.1 h)
      simp [hzero]
      omega

end Walk

/-- A frame takes one off the frames left of a slide, and nothing off none. -/
theorem Character.moveCount_update_add (c : Character) :
    c.update.moveCount.toNat + (if c.isMoving then 1 else 0) = c.moveCount.toNat := by
  cases h : c.isMoving with
  | true => exact moveCount_update h
  | false => exact congrArg (fun g : Gait => g.moveCount.toNat) (gait_update_of_standing h)

/-- In a game the walks of scripts and of the player stay on their paths, at every moment and when
the player's walk goes on.  A walk that is read from a save, with whatever count and path it has,
stays on its path just if its steps ahead are steps of the path, and if all walks of a session do,
then so do those to which it leads.  The counts that walks go by are only taken from while they are
not zero. -/
theorem Session.Begins.walks_stay_on_path {s₀ : Session} (begins : Begins project s₀)
    (acts : List Act) :
    (∀ m ∈ s₀.story project acts, ∀ w ∈ m.walks, w.Fits ∧ w.StaysOnPath project) ∧
      (∀ input, ∀ w ∈ ((s₀.after project acts).beforeWalk project input).stage.walks,
        w.Fits ∧ w.StaysOnPath project) ∧
      (∀ (m : Wire.Medium) (v : Wire.Value) (w : Walk), Wire.decode? m v = some w →
        (w.StaysOnPath project ↔ (w.order.kind = .target → w.finished = false →
          w.settle.stepsLeft.toNat ≤ w.path.length)) ∧
        ∀ f, Wire.Fields.read? m Walk.names v = some f → f.find? "path" = none → w.path = []) ∧
      (∀ s : Session, (∀ w ∈ s.world.stage.walks, w.StaysOnPath project) →
        ∀ m ∈ s.story project acts, ∀ w ∈ m.walks, w.StaysOnPath project) ∧
      (∀ w : Walk, w.settle.stepsLeft.toNat + (if w.stepping && w.stepsLeft ≠ 0 then 1 else 0) =
        w.stepsLeft.toNat) ∧
      ∀ c : Character, c.update.moveCount.toNat + (if c.isMoving then 1 else 0) =
        c.moveCount.toNat := by
  obtain ⟨hstory, hwalk⟩ := begins.walking (Walk.lasting_fits project) acts
  have hstays : ∀ w : Walk, w.Fits → w.Fits ∧ w.StaysOnPath project :=
    fun w hfits => ⟨hfits, Walk.staysOnPath_iff.2 hfits.ahead⟩
  refine ⟨fun m hm w hw => hstays w (hstory m hm w hw),
    fun input w hw => hstays w (hwalk input w hw),
    fun m v w hdecoded => ⟨?_, fun f => Walk.path_of_decode? hdecoded⟩, fun s hs m hm w hw => ?_,
    Walk.stepsLeft_settle, Character.moveCount_update_add⟩
  · rw [Walk.staysOnPath_iff, Walk.FitsAhead, Walk.settle_stepsLeft]
  · have hahead : ∀ w ∈ s.world.stage.walks, w.FitsAhead :=
      fun w hw => Walk.staysOnPath_iff.1 (hs w hw)
    have hled := (walking_story (Walk.lasting_fitsAhead project) hahead acts).1 m hm
    exact Walk.staysOnPath_iff.2 (hled.all w hw)

/-- The player walks along a path to the event at the far end of the room. -/
theorem ambushRoom_walks_stay_on_path :
    ∃ w, World.start ambushRoom 1 = .ok w ∧
      let s₀ : Session := ⟨w, .start ambushRoom .deferred⟩
      (s₀.after ambushRoom (ambushWalk.take 1)).world.stage.walks.map
          (fun walk => (walk.path, walk.stepsLeft, walk.stepping)) = [([.right, .right], 2, true)] ∧
        ∀ m ∈ s₀.story ambushRoom ambushWalk, ∀ walk ∈ m.walks,
          walk.Fits ∧ walk.StaysOnPath ambushRoom := by
  obtain ⟨w, hstart, hwalks⟩ : ∃ w, World.start ambushRoom 1 = .ok w ∧
      let s₀ : Session := ⟨w, .start ambushRoom .deferred⟩
      (s₀.after ambushRoom (ambushWalk.take 1)).world.stage.walks.map
          (fun walk => (walk.path, walk.stepsLeft, walk.stepping)) =
            [([.right, .right], 2, true)] := by
    refine ⟨_, rfl, ?_⟩
    decide +kernel
  have hbegins : Session.Begins ambushRoom ⟨w, .start ambushRoom .deferred⟩ :=
    .new 1 .deferred hstart
  exact ⟨w, hstart, hwalks, (hbegins.walks_stay_on_path ambushWalk).1⟩

namespace Walk

/-- A walk of two steps without a path. -/
def stray : Walk :=
  ⟨1, 1, playerId, ⟨.target, .down, 2, 1, 1, .constant, false⟩, true, 2, [], false, false⟩

/-- The record of this walk, without the field for the path. -/
def strayRecord : Wire.Value :=
  .record [("mapId", .int 1), ("roomId", .int 1), ("eventId", .int (-1)),
    ("args", .record [("type", .text "target"), ("dir", .int 2), ("distance", .int 2),
      ("x", .int 1), ("y", .int 1)]),
    ("routeSkip", .bool true), ("distanceCount", .int 2), ("waiting", .bool false),
    ("terminated", .bool false)]

/-- The record is read all the same, and the first frame of the walk looks up a step with two steps
left of a path that has none. -/
theorem stray_leaves_path :
    (∀ m, Wire.decode? m strayRecord = some stray) ∧ stray.LooksUp corridorEnd ∧
      stray.path.length = 0 ∧ stray.settle.stepsLeft.toNat = 2 ∧ ¬ stray.StaysOnPath .corridor := by
  have hread : ∀ m, Wire.decode? m strayRecord = some stray := by
    intro m
    cases m <;> decide +kernel
  have hlooks : stray.LooksUp corridorEnd := ⟨rfl, ⟨corridorEnd.player, rfl, rfl, rfl⟩, by decide⟩
  refine ⟨hread, hlooks, rfl, rfl, fun hstays => ?_⟩
  exact absurd (hstays stray corridorEnd .refl hlooks) (by decide)

end Walk

end Adventure
