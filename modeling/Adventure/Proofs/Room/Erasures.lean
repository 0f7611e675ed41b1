import Mathlib.Data.List.Nodup
import Adventure.Proofs.Room.Cast
import Adventure.Proofs.Session.Stirs
import Adventure.Proofs.Ways.Walkers

/-!
# Erased events

An erased event is there and is not: it is not seen, others go as if it were not there, and none of
the ways to start an event finds it.  Nothing that becomes of an event while the player stays in the
room brings it back; only to enter a room makes its events anew.  All of this is told of the event
at a place of the list, and where ids differ, of the event with an id.
-/

namespace Adventure

variable {project : Project}

/-! ## What becomes of an event -/

/-- What becomes of an event while the player stays in its room.  An event that bears the id of the
player is out of reach of erasures, since that id stands for the player. -/
structure Character.Persists (c c' : Character) : Prop where
  eventId : c'.eventId = c.eventId
  erased : c.erased = true → c'.erased = true
  outOfReach : c.eventId = playerId → c'.erased = c.erased

namespace Character

variable {c c' c'' : Character}

theorem Persists.of_eq (eventId : c'.eventId = c.eventId) (erased : c'.erased = c.erased) :
    c.Persists c' := ⟨eventId, fun h => erased.trans h, fun _ => erased⟩

theorem Persists.trans (first : c.Persists c') (more : c'.Persists c'') : c.Persists c'' where
  eventId := more.eventId.trans first.eventId
  erased h := more.erased (first.erased h)
  outOfReach h := (more.outOfReach (first.eventId.trans h)).trans (first.outOfReach h)

theorem persists_turn (c : Character) (dir : Direction) : c.Persists (c.turn dir) := by
  unfold turn
  split <;> exact .of_eq rfl rfl

theorem persists_startMove (c : Character) (dir : Direction) : c.Persists (c.startMove dir) := by
  refine (c.persists_turn dir).trans ?_
  unfold startMove
  dsimp only
  split <;> exact .of_eq rfl rfl

theorem persists_update (c : Character) : c.Persists c.update := by
  have hstepping : ∀ c : Character, c.Persists c.animateStepping := fun c => by
    unfold animateStepping
    split <;> exact .of_eq rfl rfl
  have hwalking : ∀ c : Character, c.Persists c.animateWalking := fun c => by
    unfold animateWalking
    dsimp only
    split
    · split
      · exact .of_eq rfl rfl
      · split <;> exact .of_eq rfl rfl
    · exact .of_eq rfl rfl
  have hslide : ∀ c : Character, c.Persists c.slide := fun c => by
    unfold slide
    dsimp only
    split
    · split <;> exact .of_eq rfl rfl
    · exact .of_eq rfl rfl
  have hopacity : c.Persists { c with opacity := c.opacity.update } := .of_eq rfl rfl
  have hfirst := hopacity.trans (hstepping _)
  unfold update
  dsimp only
  split
  · exact hfirst.trans ((hwalking _).trans (hslide _))
  · exact hfirst

theorem admits_persists : Admits Persists where
  refl _ := .of_eq rfl rfl
  trans _ _ _ := .trans
  turn := persists_turn
  setImage c image := by
    unfold setImage
    dsimp only
    split <;> exact .of_eq rfl rfl
  setOpacity _ _ _ := .of_eq rfl rfl
  change c change := by cases change <;> exact .of_eq rfl rfl
  updateWithPage c page := by cases page <;> exact .of_eq rfl rfl

theorem isVisible_of_erased (h : c.erased = true) : c.isVisible = false := by
  simp [isVisible, h]

theorem blocks_of_erased (h : c.erased = true) : c.blocks = false := by
  simp [blocks, through, h]

end Character

namespace Stage

variable {s s' s'' : Stage}

/-- The events of the room persist. -/
def Persists (s s' : Stage) : Prop := s.Becomes (fun _ _ => True) Character.Persists s'

theorem admits_persists : Admits (fun _ _ => True) Character.Persists where
  player := ⟨fun _ => trivial, fun _ _ _ _ _ => trivial, fun _ _ => trivial, fun _ _ => trivial,
    fun _ _ _ => trivial, fun _ _ => trivial, fun _ _ => trivial⟩
  event := Character.admits_persists
  erasePlayer _ := trivial
  eraseEvent _ h := ⟨rfl, fun _ => rfl, fun hid => absurd hid h⟩

theorem Persists.refl (s : Stage) : s.Persists s := admits_persists.refl s

theorem Persists.trans (first : s.Persists s') (more : s'.Persists s'') : s.Persists s'' :=
  admits_persists.trans first more

theorem Persists.of_eq (events : s'.events = s.events) : s.Persists s' :=
  ⟨trivial, events ▸ List.forall₂_same.2 fun _ _ => .of_eq rfl rfl⟩

/-- What was at a place is still there. -/
theorem Persists.exists_event (h : s.Persists s') {k : Nat} {c : Character}
    (here : s.events[k]? = some c) : ∃ c', s'.events[k]? = some c' ∧ c.Persists c' := by
  have hk := rel_getElem?_of_forall₂ h.events k
  rw [here] at hk
  generalize s'.events[k]? = c'? at hk ⊢
  obtain (hc | _) := hk
  exact ⟨_, rfl, hc⟩

/-- Whoever is there was there before. -/
theorem Persists.exists_before (h : s.Persists s') {c' : Character} (mem : c' ∈ s'.events) :
    ∃ c ∈ s.events, c.Persists c' := by
  obtain ⟨k, hk⟩ := List.mem_iff_getElem?.1 mem
  have hrel := rel_getElem?_of_forall₂ h.events k
  rw [hk] at hrel
  generalize hc? : s.events[k]? = c? at hrel
  obtain (hc | _) := hrel
  exact ⟨_, List.mem_of_getElem? hc?, hc⟩

theorem Persists.eventIds (h : s.Persists s') : s'.eventIds = s.eventIds := by
  have hevents := h.events
  unfold Stage.eventIds
  generalize s.events = events, s'.events = events' at hevents
  induction hevents with
  | nil => rfl
  | cons first _ ih => exact congrArg₂ List.cons first.eventId ih

theorem persists_updateCharacters (s : Stage) : s.Persists s.updateCharacters := by
  refine ⟨trivial, ?_⟩
  have hmap : s.updateCharacters.events = s.events.map Character.update := rfl
  rw [hmap, List.forall₂_map_right_iff]
  exact List.forall₂_same.2 fun c _ => c.persists_update

theorem persists_startMove (s : Stage) (id : Int32) (dir : Direction) :
    s.Persists (s.modifyCharacter id fun c => c.startMove dir) :=
  admits_persists.modifyCharacter s id (fun _ => trivial) fun c _ _ => c.persists_startMove dir

end Stage

theorem Walk.persists_update (w : Walk) (project : Project) (s : Stage) (random : Random) :
    s.Persists (w.update project s random).2.1 := by
  have hframe := w.frame_update project s random
  generalize (w.update project s random).1 = w', (w.update project s random).2.1 = s' at hframe ⊢
  cases hframe with
  | waits => exact .refl s
  | ends => exact .refl s
  | steps => exact s.persists_startMove _ _
  | bumps => exact Stage.admits_persists.turn s _ fun _ => _

theorem World.persists_updatePlayerWalk (w : World) :
    w.stage.Persists (w.updatePlayerWalk project).stage := by
  unfold updatePlayerWalk
  split
  · exact .refl _
  · next walk _ =>
    have hidle : w.stage.Persists { w.stage with playerWalk := none } := .of_eq rfl
    have hwalk := hidle.trans (walk.persists_update project _ w.random)
    dsimp only
    split
    · exact hwalk.trans (.of_eq rfl)
    · split
      · have hfinish : ∀ s : Stage, s.Persists s.finishPlayerWalk := fun _ => .of_eq rfl
        have hrun : ∀ (w : World) (t : Tile), w.stage.Persists (w.runPlayerEvent project t).stage :=
          fun w t => becomes_runPlayerEvent Stage.admits_persists w t
        refine Stage.Persists.trans ?_ (hrun _ _)
        exact hwalk.trans (hfinish _)
      · exact hwalk

/-! ## Entering a room -/

/-- No event of the room has been erased. -/
def Stage.IsWhole (s : Stage) : Prop := ∀ c ∈ s.events, c.erased = false

theorem Stage.isWhole_of_eventsOf {s : Stage} (room : Room) (h : s.events = eventsOf room) :
    s.IsWhole := by
  intro c hc
  rw [h] at hc
  obtain ⟨e, _, rfl⟩ := List.mem_map.1 hc
  rfl

theorem Stage.isWhole_transfer {s s' : Stage} {roomId : Int32} {t : Tile} {dir : Option Direction}
    (h : s.transfer project roomId t dir = .ok s') : s'.IsWhole := by
  unfold transfer at h
  split at h
  · cases h
  · next room hroom =>
    obtain rfl := Except.ok.inj h
    exact isWhole_of_eventsOf room rfl

/-- To show a page erases nobody. -/
theorem Stage.IsWhole.showPage {s : Stage} (h : s.IsWhole) (eventId : Int32) (index : Option Nat) :
    (s.showPage project eventId index).IsWhole := by
  unfold Stage.showPage
  split
  · exact h
  · intro c hc
    have hsame : ∀ (s : Stage) (page : Option Page),
        (s.modifyCharacter eventId fun c => c.updateWithPage page).events.map (·.erased) =
          s.events.map (·.erased) := by
      intro s page
      unfold modifyCharacter
      split
      · rfl
      · refine map_modifyEvent _ (fun c => ?_) eventId s.events
        cases page <;> rfl
    have herased := hsame _ _ ▸ List.mem_map_of_mem (f := fun c : Character => c.erased) hc
    obtain ⟨c', hc', heq⟩ := List.mem_map.1 herased
    exact heq.symm.trans (h c' hc')

theorem World.isWhole_refreshPages {w : World} (h : w.stage.IsWhole) (project : Project) :
    (w.refreshPages project).stage.IsWhole := by
  unfold refreshPages
  refine List.foldlRecOn (motive := fun w' : World => w'.stage.IsWhole) _ _ h ?_
  exact fun w' hw' id _ => hw'.showPage id _

theorem World.isWhole_transfer {w w' : World} {roomId : Int32} {t : Tile} {dir : Option Direction}
    (h : w.transfer project roomId t dir = .ok w') : w'.stage.IsWhole := by
  unfold transfer at h
  split at h
  · cases h
  · next stage hstage =>
    obtain rfl := Except.ok.inj h
    exact isWhole_refreshPages (w := { w with stage := stage })
      (Stage.isWhole_transfer hstage) project

/-! ## What others find -/

namespace Stage

variable {s s' : Stage}

/-- The room without the event at a place of the list. -/
def without (s : Stage) (k : Nat) : Stage := { s with events := s.events.eraseIdx k }

variable {k : Nat} {c : Character} (here : s.events[k]? = some c)

include here

theorem exists_split : ∃ before later, s.events = before ++ c :: later ∧
    (s.without k).events = before ++ later := by
  obtain ⟨hk, hc⟩ := List.getElem?_eq_some_iff.1 here
  refine ⟨s.events.take k, s.events.drop (k + 1), ?_, List.eraseIdx_eq_take_drop_succ _ _⟩
  rw [← hc, List.getElem_cons_drop, List.take_append_drop]

theorem character?_without {id : Int32} (other : id ≠ c.eventId) :
    (s.without k).character? id = s.character? id := by
  obtain ⟨before, later, hevents, hwithout⟩ := exists_split here
  have hskip : (c.eventId == id) = false := by simpa using other.symm
  unfold character?
  split
  · rfl
  · rw [hwithout, hevents, List.find?_append, List.find?_append, List.find?_cons, hskip]

theorem isOccupied_without (erased : c.erased = true) (moverId : Int32) (t : Tile) :
    (s.without k).isOccupied moverId t = s.isOccupied moverId t := by
  obtain ⟨before, later, hevents, hwithout⟩ := exists_split here
  have hplayer : (s.without k).player = s.player := rfl
  unfold isOccupied characters
  rw [hwithout, hevents, hplayer]
  simp [Character.blocks_of_erased erased]

/-- Others go as if an erased event were not there. -/
theorem canEnter_without (erased : c.erased = true) {moverId : Int32} (other : moverId ≠ c.eventId)
    (ignoreOthers : Bool) (t : Tile) :
    (s.without k).canEnter project moverId ignoreOthers t =
      s.canEnter project moverId ignoreOthers t := by
  have hroom : (s.without k).room? project = s.room? project := rfl
  unfold canEnter
  rw [hroom, character?_without here other]
  simp only [isOccupied_without here erased]

omit here

/-! ## Starting scripts -/

/-- Whoever bears an id is an event, and erased. -/
structure IsGone (s : Stage) (id : Int32) : Prop where
  noPlayer : id ≠ playerId
  present : ∃ c ∈ s.events, c.eventId = id
  erased : ∀ c ∈ s.events, c.eventId = id → c.erased = true

theorem IsGone.persists {id : Int32} (h : s.IsGone id) (persists : s.Persists s') :
    s'.IsGone id := by
  refine ⟨h.noPlayer, ?_, fun c' hc' hid => ?_⟩
  · obtain ⟨c, hc, hid⟩ := h.present
    obtain ⟨k, hk⟩ := List.mem_iff_getElem?.1 hc
    obtain ⟨c', hc', hbecomes⟩ := persists.exists_event hk
    exact ⟨c', List.mem_of_getElem? hc', hbecomes.eventId.trans hid⟩
  · obtain ⟨c, hc, hbecomes⟩ := persists.exists_before hc'
    exact hbecomes.erased (h.erased c hc (hbecomes.eventId.symm.trans hid))

/-- Where ids differ, whoever bears the id of an erased event is erased. -/
theorem isGone_of_nodup (distinct : s.eventIds.Nodup) (mem : c ∈ s.events)
    (erased : c.erased = true) (noPlayer : c.eventId ≠ playerId) : s.IsGone c.eventId := by
  refine ⟨noPlayer, ⟨c, mem, rfl⟩, fun c' hc' hid => ?_⟩
  have hsame : c' = c := List.inj_on_of_nodup_map distinct hc' mem hid
  exact hsame ▸ erased

theorem IsGone.erased_character? {id : Int32} (h : s.IsGone id) :
    (s.character? id).any (·.erased) = true := by
  unfold character?
  rw [if_neg h.noPlayer]
  cases hfind : s.events.find? fun c => c.eventId == id with
  | none =>
    obtain ⟨c, hc, hid⟩ := h.present
    exact absurd (List.find?_eq_none.1 hfind c hc) (by simp [hid])
  | some c =>
    have hid : c.eventId = id := by simpa using List.find?_some hfind
    exact h.erased c (List.mem_of_find?_eq_some hfind) hid

/-- Who is looked for on a tile is found with an event that is not erased. -/
theorem IsGone.ne_of_eventAt? {id found : Int32} (h : s.IsGone id) {trigger : Trigger} {t : Tile}
    (event : s.eventAt? project trigger t = some found) : found ≠ id := by
  rintro rfl
  obtain ⟨c, hc, hid⟩ := List.mem_map.1 (List.mem_of_find?_eq_some event)
  obtain ⟨hmem, hhere⟩ := List.mem_filter.1 hc
  simp [h.erased c hmem hid] at hhere

end Stage

namespace World

/-- No script is started for an event. -/
def StartsNone (id : Int32) (w w' : World) : Prop :=
  ∀ i ∈ w'.stage.interpreters, i.eventId = id → i ∈ w.stage.interpreters

variable {w w' w'' : World} {id : Int32}

theorem StartsNone.of_eq (h : w'.stage.interpreters = w.stage.interpreters) :
    StartsNone id w w' := fun _ hi _ => h ▸ hi

theorem StartsNone.refl (w : World) : StartsNone id w w := .of_eq rfl

theorem StartsNone.trans (first : StartsNone id w w') (more : StartsNone id w' w'') :
    StartsNone id w w'' := fun i hi hid => first i (more i hi hid) hid

theorem startsNone_startEvent (w : World) {eventId : Int32} (other : eventId ≠ id) :
    StartsNone id w (w.startEvent project eventId).2 := by
  unfold startEvent
  split
  · exact .refl w
  · split
    · exact .refl w
    · intro i hi hid
      rcases List.mem_append.1 hi with hi | hi
      · exact hi
      · obtain rfl := List.mem_singleton.1 hi
        exact absurd hid other

/-- An event that is gone does not start by itself. -/
theorem startsNone_startIfAutomatic (gone : w.stage.IsGone id) (eventId : Int32) :
    StartsNone id w (startIfAutomatic project w eventId) := by
  unfold startIfAutomatic
  split
  · exact .refl w
  · split
    · exact .refl w
    · next hready =>
      have hother : eventId ≠ id := by
        rintro rfl
        simp [gone.erased_character?] at hready
      split
      · split
        · exact .refl w
        · exact startsNone_startEvent w hother
      · exact startsNone_startEvent w hother
      all_goals exact .refl w

theorem startsNone_startAutomaticEvents (gone : w.stage.IsGone id) :
    StartsNone id w (w.startAutomaticEvents project) := by
  unfold startAutomaticEvents
  refine (List.foldlRecOn (motive := fun w' : World =>
    w'.stage.IsGone id ∧ StartsNone id w w') _ _ ⟨gone, .refl w⟩ ?_).2
  rintro w' ⟨gone', hstarts⟩ eventId _
  refine ⟨gone'.persists ?_, hstarts.trans (startsNone_startIfAutomatic gone' eventId)⟩
  exact becomes_startIfAutomatic Stage.admits_persists w' eventId

/-- Nor does the player run it. -/
theorem startsNone_runPlayerEvent (gone : w.stage.IsGone id) (target : Tile) :
    StartsNone id w (w.runPlayerEvent project target) := by
  unfold runPlayerEvent
  split
  · exact .refl w
  · next eventId hevent =>
    have hother : eventId ≠ id := gone.ne_of_eventAt? hevent
    dsimp only
    split
    · exact .refl w
    · refine StartsNone.trans ?_ (startsNone_startEvent _ hother)
      split <;> exact .of_eq rfl

theorem startsNone_handleTap (gone : w.stage.IsGone id) (input : Input) :
    StartsNone id w (w.handleTap project input) := by
  unfold handleTap
  split
  · exact .refl w
  · split
    · exact .refl w
    · split
      · next eventId hevent => exact startsNone_startEvent w (gone.ne_of_eventAt? hevent)
      · split
        · exact startsNone_runPlayerEvent gone _
        · exact .of_eq rfl

theorem startsNone_updatePlayerWalk (gone : w.stage.IsGone id) :
    StartsNone id w (w.updatePlayerWalk project) := by
  unfold updatePlayerWalk
  split
  · exact .refl w
  · next walk _ =>
    have hlisted :=
      Stage.interpreters_walk { w.stage with playerWalk := none } project walk w.random
    have hidle : w.stage.Persists { w.stage with playerWalk := none } := .of_eq rfl
    have hwalk := hidle.trans (walk.persists_update project _ w.random)
    dsimp only
    split
    · exact .of_eq hlisted
    · split
      · have hfinish : ∀ s : Stage, s.Persists s.finishPlayerWalk := fun _ => .of_eq rfl
        have hgone := gone.persists (hwalk.trans (hfinish _))
        refine StartsNone.trans ?_ (startsNone_runPlayerEvent hgone _)
        exact .of_eq hlisted
      · exact .of_eq hlisted

/-- In no way is it started before scripts run. -/
theorem startsNone_startScripts (gone : w.stage.IsGone id) (input : Input) :
    StartsNone id w ((((w.refreshPages project).startAutomaticEvents project).handleTap
      project input).updatePlayerWalk project) := by
  have hpages : w.stage.Persists (w.refreshPages project).stage :=
    becomes_refreshPages Stage.admits_persists w project
  have hlisted : StartsNone id w (w.refreshPages project) :=
    .of_eq (calm_refreshPages w project).stage.interpreters
  replace gone := gone.persists hpages
  generalize w.refreshPages project = shown at *
  have hautomatic : shown.stage.Persists (shown.startAutomaticEvents project).stage :=
    becomes_startAutomaticEvents Stage.admits_persists shown
  have hstarts : StartsNone id shown (shown.startAutomaticEvents project) :=
    startsNone_startAutomaticEvents gone
  replace gone := gone.persists hautomatic
  generalize shown.startAutomaticEvents project = started at *
  have htap : started.stage.Persists (started.handleTap project input).stage :=
    becomes_handleTap Stage.admits_persists started input
  exact (hlisted.trans hstarts).trans ((startsNone_handleTap gone input).trans
    (startsNone_updatePlayerWalk (gone.persists htap)))

end World

end Adventure
