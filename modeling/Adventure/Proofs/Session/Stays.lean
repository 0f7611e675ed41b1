import Adventure.Proofs.Room.Erasures
import Adventure.Proofs.Session.Continuity

/-!
# Stays in a room

While the player stays in a room, the host acts, saves and loads, and nobody enters a room.  From
each moment of a stay to the next the events of the room persist, and so they do from any moment
to a later one.  Hence an erased event stays erased, and no tick starts it.  It does not help
that the room is the same: a transfer to the room that the player is in makes its events anew,
and ends the stay.
-/

namespace Adventure

open Moment (Line)
open Session (Act)

variable {project : Project}

/-! ## Entering a room -/

/-- What happens to the events of a room: they persist, or the player enters a room, if that
can be. -/
inductive Stage.Endures (Entry : Prop) (s s' : Stage) : Prop where
  | stays (persists : s.Persists s')
  | enters (entry : Entry) (whole : s'.IsWhole)

theorem Stage.Persists.then_endures {Entry : Prop} {s s' s'' : Stage} (first : s.Persists s')
    (more : s'.Endures Entry s'') : s.Endures Entry s'' := by
  cases more with
  | stays persists => exact .stays (first.trans persists)
  | enters entry whole => exact .enters entry whole

namespace Interpreter

variable {i : Interpreter} {s : Session} {Entry : Prop}

/-- The command lets the player enter a room: it is a transfer to a room that there is, and the
screen is covered by now if it has to be. -/
def Enters (project : Project) (r : Interpreter × Session × Command) : Prop :=
  ∃ order branches, r.2.2 = .act (.transfer order) branches ∧ r.1.kind ≠ .route ∧
    (transitionColor? order.transition = none ∨ r.1.pending = some .transfer) ∧
      ∃ w, enterRoom r.2.1 project order = .ok w

theorem name_of_enters {r : Interpreter × Session × Command} (h : Enters project r) :
    r.2.2.name = "transfer" := by
  obtain ⟨order, branches, heq, _⟩ := h
  rw [heq]
  rfl

theorem endures_transfer {order : TransferOrder} (enters : ∀ w,
    transitionColor? order.transition = none ∨ i.pending = some .transfer →
      enterRoom s project order = .ok w → Entry) :
    s.world.stage.Endures Entry (i.transfer s project order).session.world.stage := by
  unfold transfer
  dsimp only
  split
  · exact .stays (.of_eq rfl)
  · next color? covered hcovers =>
    have hready : transitionColor? order.transition = none ∨ i.pending = some .transfer := by
      cases hcolor : transitionColor? order.transition with
      | none => exact .inl rfl
      | some color =>
        cases hpending : i.pending == some .transfer with
        | true => exact .inr (by simpa using hpending)
        | false => exact (hcovers color hcolor hpending).elim
    split
    · exact .stays (.of_eq rfl)
    · next w hw =>
      have hwhole : w.stage.IsWhole := World.isWhole_transfer hw
      split <;> exact .enters (enters w hready hw) hwhole

theorem endures_execute (command : Command) (enters : Enters project (i, s, command) → Entry) :
    s.world.stage.Endures Entry (i.execute s project command).session.world.stage := by
  unfold execute
  split
  · exact .stays (.refl _)
  · next hfits =>
    split
    · next action branches =>
      by_cases htransfer : ∃ order, action = .transfer order
      · obtain ⟨order, rfl⟩ := htransfer
        refine endures_transfer fun w ready hw => enters ⟨order, branches, rfl, ?_, ready, w, hw⟩
        have hnot : (Command.act (.transfer order) branches).fitsRoute = false := rfl
        exact fun hroute => hfits (by simpa [hnot] using hroute)
      · exact .stays (becomes_act Stage.admits_persists branches (not_exists.1 htransfer))
    · exact .stays (becomes_setRoute Stage.admits_persists _ _)

theorem persists_updateWalk (i : Interpreter) (s : Session) (project : Project) :
    s.world.stage.Persists (i.updateWalk s project).2.2.world.stage := by
  unfold updateWalk
  split
  · exact .refl _
  · next walk _ =>
    have hwalk := walk.persists_update project s.world.stage s.world.random
    dsimp only
    split <;> exact hwalk

theorem endures_step (i : Interpreter) (s : Session)
    (enters : ∀ r, i.running? s project = some r → Enters project r → Entry) :
    s.world.stage.Endures Entry (i.step s project).2.2.world.stage := by
  have hwalk := persists_updateWalk { i with wait := .none } s project
  cases hrunning : i.running? s project with
  | none =>
    rcases step_of_idle hrunning with hsame | hframe
    · rw [hsame]
      exact .stays (.refl _)
    · rw [hframe]
      exact .stays hwalk
  | some r =>
    obtain ⟨j, t, c⟩ := r
    obtain ⟨_, _, heq, _⟩ := running?_eq_some hrunning
    rw [heq] at hwalk
    rw [step_of_running hrunning, stage_follow]
    exact hwalk.then_endures (endures_execute c (enters _ hrunning))

end Interpreter

/-! ## Acts -/

/-- The host lets the player enter a room, or a command does so in a tick. -/
def Session.Enters (project : Project) (s : Session) : Act → Prop
  | .tick input => ∃ r ∈ s.commandsRun project input, Interpreter.Enters project r
  | .transfer roomId t dir => ∃ w, s.world.transfer project roomId t dir = .ok w
  | _ => False

theorem Session.persists_startScripts (s : Session) (input : Input) :
    s.world.stage.Persists (s.startScripts project input).world.stage := by
  have hpages : s.world.stage.Persists (s.world.refreshPages project).stage :=
    World.becomes_refreshPages Stage.admits_persists s.world project
  refine (hpages.trans ?_).trans (World.persists_updatePlayerWalk _)
  exact Stage.admits_persists.trans (World.becomes_startAutomaticEvents Stage.admits_persists _)
    (World.becomes_handleTap Stage.admits_persists _ input)

theorem Stage.spans_endures (project : Project) (Entry : Prop) :
    Spans project (fun r => Interpreter.Enters project r → Entry) (Endures Entry) where
  aside _ _ _ events := .stays (.of_eq events)
  starts s input := .stays (s.persists_startScripts input)
  step i s enters := i.endures_step s enters
  frame s := by
    have hdrop : s.Persists s.dropStale := .of_eq rfl
    exact .stays (hdrop.trans (persists_updateCharacters _))

namespace Session

variable {s s' s₀ : Session} {told : List Moment}

theorem line_endures (s : Session) (act : Act) {Entry : Prop}
    (enters : s.Enters project act → Entry) :
    Line (Moment.Along (Stage.Endures Entry)) (.still s) (s.moments project act)
      (.still (s.perform project act)) := by
  refine (Stage.spans_endures project Entry).line_moments s act (fun input htick r hr hroom => ?_)
    fun noTick => ?_
  · subst htick
    exact enters ⟨r, hr, hroom⟩
  · by_cases htransfer : ∃ roomId t dir, act = .transfer roomId t dir
    · obtain ⟨roomId, t, dir, rfl⟩ := htransfer
      unfold perform
      dsimp only
      split
      · next w hw => exact .enters (enters ⟨w, hw⟩) (World.isWhole_transfer hw)
      · exact .stays (.refl _)
    · refine .stays (s.becomes_perform Stage.admits_persists noTick fun roomId t dir heq => ?_)
      exact htransfer ⟨roomId, t, dir, heq⟩

/-- In an act by which nobody enters a room the events persist from moment to moment. -/
theorem line_persists (s : Session) {act : Act} (stays : ¬ s.Enters project act) :
    Line (Moment.Along Stage.Persists) (.still s) (s.moments project act)
      (.still (s.perform project act)) := by
  refine (s.line_endures act stays).imp trivial (fun _ _ _ _ => trivial) fun a b _ endures => ?_
  cases endures with
  | stays persists => exact persists
  | enters entry => exact entry.elim

end Session

/-! ## Events that stand for the player -/

/-- No event that bears the id of the player is erased. -/
def Stage.Spares (s : Stage) : Prop :=
  ∀ c ∈ s.events, c.eventId = playerId → c.erased = false

theorem Stage.Spares.persists {s s' : Stage} (h : s.Spares) (persists : s.Persists s') :
    s'.Spares := by
  intro c' hc' hid
  obtain ⟨c, hc, hbecomes⟩ := persists.exists_before hc'
  have hplayer : c.eventId = playerId := hbecomes.eventId.symm.trans hid
  exact (hbecomes.outOfReach hplayer).trans (h c hc hplayer)

theorem Stage.IsWhole.spares {s : Stage} (h : s.IsWhole) : s.Spares := fun c hc _ => h c hc

theorem World.isWhole_start {w : World} {seed : UInt64} (h : start project seed = .ok w) :
    w.stage.IsWhole := by
  obtain ⟨stage, hstage, rfl⟩ := exists_enter h
  refine isWhole_refreshPages (w := ofProgress (.fresh stage) seed) ?_ project
  unfold Stage.enter at hstage
  split at hstage
  · cases hstage
  · next room _ =>
    obtain rfl := Except.ok.inj hstage
    exact Stage.isWhole_of_eventsOf room rfl

namespace Session

variable {s s' s₀ : Session} {told : List Moment}

theorem spares_perform (h : s.world.stage.Spares) (act : Act) :
    (s.perform project act).world.stage.Spares := by
  have hline : Line (Moment.Along (Stage.Endures True)) (.still s) (s.moments project act)
      (.still (s.perform project act)) := s.line_endures act fun _ => trivial
  refine hline.invariant (P := fun m => m.session.world.stage.Spares) h
    (fun a b endures spares => ?_) _ hline.last_mem
  cases endures with
  | stays persists => exact spares.persists persists
  | enters _ whole => exact whole.spares

theorem spares_after (h : s.world.stage.Spares) (acts : List Act) :
    (s.after project acts).world.stage.Spares := by
  induction acts generalizing s with
  | nil => exact h
  | cons act acts ih => exact ih (spares_perform h act)

theorem Begins.spares (h : Begins project s) : s.world.stage.Spares := by
  induction h with
  | new seed host started => exact (World.isWhole_start started).spares
  | @loaded s _ acts seed host ih =>
    have hsaved : (s.after project acts).world.stage.Spares := spares_after ih acts
    exact hsaved

/-! ## Stays -/

/-- The moments of a stay in the room that the player is in, and where it leads. -/
inductive Stay (project : Project) (s : Session) : List Moment → Session → Prop where
  | begins : Stay project s [.still s] s
  | goesOn {told : List Moment} {s' : Session} (earlier : Stay project s told s') (act : Act)
      (stays : ¬ s'.Enters project act) :
      Stay project s (told ++ s'.moments project act) (s'.perform project act)
  | loads {told : List Moment} {s' : Session} (earlier : Stay project s told s') (seed : UInt64)
      (host : Host) :
      Stay project s
        (told ++ [.still ⟨.resume s'.world.toProgress seed, .start project host⟩])
        ⟨.resume s'.world.toProgress seed, .start project host⟩

namespace Stay

theorem line (h : s.Stay project told s') :
    ∃ rest, told = .still s :: rest ∧
      Line (Moment.Along Stage.Persists) (.still s) rest (.still s') := by
  induction h with
  | begins => exact ⟨[], rfl, .nil _⟩
  | @goesOn told s' _ act stays ih =>
    obtain ⟨rest, rfl, hline⟩ := ih
    exact ⟨_, rfl, hline.append (s'.line_persists stays)⟩
  | loads _ seed host ih =>
    obtain ⟨rest, rfl, hline⟩ := ih
    exact ⟨_, rfl, hline.append (.single (.of_eq rfl))⟩

theorem last_mem (h : s.Stay project told s') : .still s' ∈ told := by
  obtain ⟨rest, rfl, hline⟩ := h.line
  exact hline.last_mem

/-- A stay in a game is a part of the game. -/
theorem exists_begins {acts : List Act} (h : (s₀.after project acts).Stay project told s')
    (begins : Begins project s₀) :
    ∃ s₁ acts', Begins project s₁ ∧ s' = s₁.after project acts' := by
  induction h with
  | begins => exact ⟨s₀, acts, begins, rfl⟩
  | goesOn _ act _ ih =>
    obtain ⟨s₁, acts', hbegins, rfl⟩ := ih
    exact ⟨s₁, acts' ++ [act], hbegins, by simp [after]⟩
  | loads _ seed host ih =>
    obtain ⟨s₁, acts', hbegins, rfl⟩ := ih
    exact ⟨_, [], .loaded hbegins acts' seed host, rfl⟩

end Stay

/-! ## What ticks start -/

theorem stage_afterWindows (s : Session) (project : Project) (input : Input) :
    (s.afterWindows project input).world.stage = s.world.stage := by
  obtain ⟨save, hworld⟩ := Moment.collectSave_world (s.withAnswers project)
  have hcollects : (s.withAnswers project).collectSave.world.stage =
      (s.withAnswers project).world.stage := congrArg (·.stage) hworld
  have hmusic : s.resumeMusic.world.stage = s.world.stage := by
    unfold resumeMusic
    split <;> rfl
  exact hcollects.trans hmusic

end Session

namespace Moment

/-- The scripts that are there, on the stage or off it.  Of the routes only those off the
stage are. -/
def listed (m : Moment) : List Interpreter := m.off ++ m.session.world.stage.interpreters

theorem listed_still (s : Session) : (still s).listed = s.world.stage.interpreters := rfl

/-- Every script of an event was there before. -/
def StartsNone (id : Int32) (m m' : Moment) : Prop :=
  ∀ i ∈ m'.listed, i.kind ≠ .route → i.eventId = id → ∃ j ∈ m.listed, j.origin = i.origin

namespace StartsNone

variable {id : Int32} {m m' m'' : Moment} {s s' : Session}

theorem of_subset (h : m'.listed ⊆ m.listed) : m.StartsNone id m' :=
  fun i hi _ _ => ⟨i, h hi, rfl⟩

theorem trans (first : m.StartsNone id m') (more : m'.StartsNone id m'') : m.StartsNone id m'' := by
  intro i hi hkind hid
  obtain ⟨j, hj, hij⟩ := more i hi hkind hid
  have hsame : j.kind = i.kind := Interpreter.kind_eq_of_origin hij
  obtain ⟨k, hk, hjk⟩ := first j hj (hsame ▸ hkind)
    ((Interpreter.eventId_eq_of_origin hij).trans hid)
  exact ⟨k, hk, hjk.trans hij⟩

theorem of_sameCast (same : s.world.SameCast s'.world) :
    (Moment.still s).StartsNone id (.still s') := by
  refine of_subset ?_
  rw [listed_still, listed_still, same.stage.interpreters]
  exact List.Subset.refl _

theorem of_startsNone (h : World.StartsNone id s.world s'.world) :
    (Moment.still s).StartsNone id (.still s') :=
  fun i hi _ hid => ⟨i, h i hi hid, rfl⟩

/-- Turns start no scripts. -/
theorem of_worked (worked : m.Worked m') : m.StartsNone id m' := by
  intro i hi _ _
  rcases List.mem_append.1 hi with hi | hi
  · have horigin : i.origin ∈ m.off.map Interpreter.origin :=
      worked.origins ▸ List.mem_map_of_mem hi
    obtain ⟨j, hj, heq⟩ := List.mem_map.1 horigin
    exact ⟨j, List.mem_append_left _ hj, heq⟩
  · exact ⟨i, List.mem_append_right _ (worked.world.interpreters.subset hi), rfl⟩

theorem line_turns (turn : List Interpreter) (s : Session) (fit : Moment.Fit ⟨s, [], turn⟩) :
    Line (StartsNone id) ⟨s, [], turn⟩ (turns project [] turn s)
      ⟨(Interpreter.updateAll project turn s).2, (Interpreter.updateAll project turn s).1, []⟩ :=
  (Moment.line_turns [] turn s).imp fit (fun _ _ works fit => (works.worked fit).2)
    fun _ _ fit works => of_worked (works.worked fit).1

end StartsNone

end Moment

namespace Session

variable {s s' s₀ : Session} {told : List Moment} {id : Int32}

theorem line_startsNone_scriptMoments (h : s.world.Roster) (registry : (Moment.still s).Registry) :
    Line (Moment.StartsNone id) (.still s) (s.scriptMoments project)
      (.still (s.runScripts project)) := by
  have hinterpreters : Line (Moment.StartsNone id) (.still s)
      (batch project s.world.stage.interpreters s.withoutInterpreters Stage.mergeInterpreters)
      (.still (s.runInterpreters project)) := by
    refine .cons (.of_subset ?_) ((Moment.StartsNone.line_turns _ _ ?_).append
      (.single (.of_subset ?_)))
    · simp [Moment.listed, Moment.off, Moment.still, withoutInterpreters, modifyWorld,
        World.modifyStage]
    · exact fun i hi => fit_interpreters registry i (by simpa [Moment.off] using hi)
    · simp [Moment.listed, Moment.off, Moment.still, modifyWorld, World.modifyStage,
        Stage.mergeInterpreters]
  have hroutes : Line (Moment.StartsNone id) (.still (s.runInterpreters project))
      (batch project (s.runInterpreters project).world.stage.routes
        (s.runInterpreters project).withoutRoutes Stage.mergeRoutes)
      (.still ((s.runInterpreters project).runRoutes project)) := by
    have hroster : (s.runInterpreters project).world.Roster :=
      roster_runInterpreters project (fit_interpreters registry) h
    refine .cons (fun i hi hkind _ => ⟨i, ?_, rfl⟩) ((Moment.StartsNone.line_turns _ _ ?_).append
      (.single (.of_subset ?_)))
    · rcases List.mem_append.1 hi with hi | hi
      · exact absurd (hroster.routeKinds i (by simpa [Moment.off] using hi)).1 hkind
      · exact List.mem_append_right _ hi
    · have hfit := fit_routes (registry_runInterpreters registry project)
      exact fun r hr => hfit r (by simpa [Moment.off] using hr)
    · simp [Moment.listed, Moment.off, Moment.still, modifyWorld, World.modifyStage,
        Stage.mergeRoutes]
  exact hinterpreters.append hroutes

/-- At no moment of a tick is there a script of an event that is gone unless it was there before. -/
theorem line_startsNone_tickMoments (h : s.world.Roster) (registry : (Moment.still s).Registry)
    (gone : s.world.stage.IsGone id) (input : Input) :
    Line (Moment.StartsNone id) (.still s) (s.tickMoments project input)
      (.still (s.update project input)) := by
  have hbefore : Line (Moment.StartsNone id) (.still s)
      [.still s.resumeMusic, .still (s.withAnswers project),
        .still (s.withAnswers project).collectSave, .still (s.beforeWindows project),
        .still (s.afterWindows project input),
        .still ((s.afterWindows project input).modifyWorld fun w =>
          { w with pictures := w.pictures.update }),
        .still (s.beforeScripts project input)] (.still (s.beforeScripts project input)) := by
    have hgone : (s.afterWindows project input).world.stage.IsGone id :=
      s.stage_afterWindows project input ▸ gone
    refine .cons (.of_sameCast s.sameCast_resumeMusic) (.cons (.of_sameCast (.of_stage_eq rfl rfl))
      (.cons (.of_sameCast (sameCast_collectSave _)) (.cons (.of_sameCast (.of_stage_eq rfl rfl))
        (.cons (.of_sameCast (.of_stage_eq rfl rfl)) (.cons (.of_sameCast (.of_stage_eq rfl rfl))
          (.single (.of_startsNone ?_)))))))
    exact World.startsNone_startScripts (w := { (s.afterWindows project input).world with
      pictures := (s.afterWindows project input).world.pictures.update }) hgone _
  have hscripts : Line (Moment.StartsNone id) (.still (s.beforeScripts project input))
      ((s.beforeScripts project input).scriptMoments project)
      (.still ((s.beforeScripts project input).runScripts project)) :=
    line_startsNone_scriptMoments (roster_beforeScripts h project input)
      (registry_beforeScripts registry project input)
  have hafter : Line (Moment.StartsNone id)
      (.still ((s.beforeScripts project input).runScripts project))
      [.still (s.afterScripts project input),
        .still (s.afterScripts project input).sendScheduledSave,
        .still (s.afterSaves project input), .still (s.update project input)]
      (.still (s.update project input)) := by
    refine .cons (.of_subset ?_) (.cons (.of_sameCast (sameCast_sendScheduledSave _))
      (.cons (.of_sameCast ?_) (.single (.of_sameCast (.of_stage_eq rfl rfl)))))
    · rw [Moment.listed_still, Moment.listed_still]
      exact List.filter_sublist.subset
    · unfold afterSaves save
      dsimp only
      split
      · exact sameCast_requestSave _
      · exact .refl _
  exact (hbefore.append hscripts).append hafter

theorem Begins.startsNone_of_isGone (begins : Begins project s₀) (acts : List Act)
    (gone : (s₀.after project acts).world.stage.IsGone id) (input : Input) :
    ∀ m ∈ (s₀.after project acts).tickMoments project input,
      (Moment.still (s₀.after project acts)).StartsNone id m := by
  have hroster : (s₀.after project acts).world.Roster :=
    roster_after begins.roster begins.registry acts
  have hregistry : (Moment.still (s₀.after project acts)).Registry :=
    registry_after begins.registry acts
  exact fun m hm => (line_startsNone_tickMoments hroster hregistry gone input).invariant
    (.of_subset (List.Subset.refl _)) (fun _ _ more first => first.trans more) m
      (List.mem_cons_of_mem _ hm)

/-- Once an event is erased, it is erased for the rest of the stay: it is not seen, others go as if
it were not there, and the tick after the stay does not start it.  A tick in a stay is the one after
a shorter stay. -/
theorem Begins.erased_stays (begins : Begins project s₀) (acts : List Act)
    (stay : (s₀.after project acts).Stay project told s')
    (distinct : (s₀.after project acts).world.stage.eventIds.Nodup)
    {before later : List Moment} {m : Moment} (here : told = before ++ m :: later) {k : Nat}
    {c : Character} (event : m.session.world.stage.events[k]? = some c) (erased : c.erased = true) :
    (∀ m' ∈ m :: later, ∃ c', m'.session.world.stage.events[k]? = some c' ∧
        c'.eventId = c.eventId ∧ c'.erased = true ∧ c'.isVisible = false ∧
        ∀ moverId, moverId ≠ c.eventId → ∀ ignoreOthers t,
          (m'.session.world.stage.without k).canEnter project moverId ignoreOthers t =
            m'.session.world.stage.canEnter project moverId ignoreOthers t) ∧
      ∀ input, ∀ m' ∈ s'.tickMoments project input,
        (Moment.still s').StartsNone c.eventId m' := by
  obtain ⟨rest, rfl, hline⟩ := stay.line
  have hkeeps : ∀ {first : Moment} (a b : Moment), a.Along Stage.Persists b →
      first.Along Stage.Persists a → first.Along Stage.Persists b :=
    fun _ _ more first => first.trans more
  have harrives : (Moment.still (s₀.after project acts)).Along Stage.Persists m :=
    hline.invariant (.refl _) hkeeps m (here ▸ by simp)
  have hrest : Line (Moment.Along Stage.Persists) m later (.still s') := hline.rest here
  have hlater : ∀ m' ∈ m :: later, m.Along Stage.Persists m' := hrest.invariant (.refl _) hkeeps
  refine ⟨fun m' hm' => ?_, fun input => ?_⟩
  · obtain ⟨c', hc', hbecomes⟩ := (hlater m' hm').exists_event event
    have herased : c'.erased = true := hbecomes.erased erased
    refine ⟨c', hc', hbecomes.eventId, herased, Character.isVisible_of_erased herased, ?_⟩
    intro moverId other ignoreOthers t
    exact Stage.canEnter_without hc' herased (hbecomes.eventId ▸ other) ignoreOthers t
  · have hspares : m.session.world.stage.Spares :=
      (spares_after begins.spares acts).persists harrives
    have hmem : c ∈ m.session.world.stage.events := List.mem_of_getElem? event
    have hother : c.eventId ≠ playerId := fun hid =>
      Bool.false_ne_true ((hspares c hmem hid).symm.trans erased)
    have hids : m.session.world.stage.eventIds.Nodup := harrives.eventIds ▸ distinct
    have hgone : s'.world.stage.IsGone c.eventId :=
      (Stage.isGone_of_nodup hids hmem erased hother).persists (hlater _ hrest.last_mem)
    obtain ⟨s₁, acts', hbegins, rfl⟩ := stay.exists_begins begins
    exact hbegins.startsNone_of_isGone acts' hgone input

end Session

/-- A room with an event that erases itself.  As soon as a switch is on it shows another page, with
an image and with commands for the player. -/
def emptyShrine : Project :=
  let first := { Page.blank with trigger := .parallel, commands := [.act .eraseEvent []] }
  let second := { Page.blank with
    conditions := [.switch 1 true], image := "spirit", trigger := .player
    commands := [.act (.wait 1000) []] }
  let room : Room :=
    { id := 1, width := 2, height := 1, tileSetId := 0, tiles := []
      events := [⟨5, 1, 0, [first, second]⟩], background := "", foreground := "" }
  { (default : Project) with
    maps := [⟨1, "", [room]⟩]
    system := { (default : System) with initialPosition := ⟨1, 1, 0, 0⟩ } }

/-- The switch is turned on after a tick, and a tick later the game is saved and loaded. -/
def emptyShrineLoaded (s : Session) : Session :=
  let turned := s.perform emptyShrine (.set (s.world.memory.setSwitch 1 true) s.world.inventory)
  ⟨.resume (turned.perform emptyShrine (.tick .none)).world.toProgress 1,
    .start emptyShrine .deferred⟩

/-- The event that has erased itself takes on its other page.  Even so it is not seen, and whatever
the player taps, it does not start. -/
theorem emptyShrine_stays_empty :
    ∃ w, World.start emptyShrine 1 = .ok w ∧
      let s := Session.after emptyShrine ⟨w, .start emptyShrine .deferred⟩ [.tick .none]
      let s' := emptyShrineLoaded s
      (∃ told, s.Stay emptyShrine told s') ∧ s.world.stage.eventIds.Nodup ∧
        (s'.world.stage.page? emptyShrine 5).map (·.trigger) = some .player ∧
        (∃ c, s.world.stage.events[0]? = some c ∧ c.eventId = 5 ∧ c.erased = true) ∧
        (∃ c', s'.world.stage.events[0]? = some c' ∧ c'.imageName = "spirit" ∧
          c'.isVisible = false) ∧
        ∀ input, ∀ m ∈ s'.tickMoments emptyShrine input, ∀ i ∈ m.listed, i.kind ≠ .route →
          i.eventId ≠ 5 := by
  obtain ⟨w, hstart, hnames, hdistinct, hplayer, ⟨c, hc, hid, herased⟩, himage, hidle⟩ :
      ∃ w, World.start emptyShrine 1 = .ok w ∧
        let s := Session.after emptyShrine ⟨w, .start emptyShrine .deferred⟩ [.tick .none]
        let turned := s.perform emptyShrine
          (.set (s.world.memory.setSwitch 1 true) s.world.inventory)
        let s' := emptyShrineLoaded s
        (∀ r ∈ turned.commandsRun emptyShrine .none, r.2.2.name ≠ "transfer") ∧
          s.world.stage.eventIds.Nodup ∧
          (s'.world.stage.page? emptyShrine 5).map (·.trigger) = some .player ∧
          (∃ c ∈ s.world.stage.events[0]?, c.eventId = 5 ∧ c.erased = true) ∧
          (s'.world.stage.events[0]?.map (·.imageName) = some "spirit") ∧
          ∀ i ∈ s'.world.stage.interpreters, i.eventId ≠ 5 := by
    refine ⟨_, rfl, ?_⟩
    decide +kernel
  have hbegins : Session.Begins emptyShrine ⟨w, .start emptyShrine .deferred⟩ :=
    .new 1 .deferred hstart
  generalize hs : Session.after emptyShrine _ [.tick .none] = s at *
  have harrived : s.Stay emptyShrine [.still s] s := .begins
  have hticked := (harrived.goesOn (.set _ _) id).goesOn (.tick .none) fun ⟨r, hr, henters⟩ =>
    hnames r hr (Interpreter.name_of_enters henters)
  obtain ⟨rest, hstay⟩ : ∃ rest, s.Stay emptyShrine (.still s :: rest) (emptyShrineLoaded s) :=
    ⟨_, hticked.loads 1 .deferred⟩
  subst hs
  obtain ⟨hgone, hstarts⟩ := hbegins.erased_stays [.tick .none] hstay hdistinct
    (List.nil_append _).symm hc herased
  obtain ⟨c', hc', _, _, hhidden, _⟩ := hgone _ hstay.last_mem
  refine ⟨w, hstart, ⟨_, hstay⟩, hdistinct, hplayer, ⟨c, hc, hid, herased⟩, ?_, ?_⟩
  · refine ⟨c', hc', ?_, hhidden⟩
    rw [← Option.some_inj, ← himage]
    exact (congrArg (Option.map _) hc').symm
  · intro input m hm i hi hkind hid'
    obtain ⟨j, hj, horigin⟩ := hstarts input m hm i hi hkind (hid'.trans hid.symm)
    rw [Moment.listed_still] at hj
    exact hidle j hj ((Interpreter.eventId_eq_of_origin horigin).trans hid')

/-- A room with an event that erases itself.  A little later another event brings the player to the
same room. -/
def hauntedRoom : Project :=
  let page (trigger : Trigger) (commands : Script) : Page := { Page.blank with trigger, commands }
  let room : Room :=
    { id := 1, width := 2, height := 1, tileSetId := 0, tiles := []
      events := [⟨5, 1, 0, [page .parallel [.act .eraseEvent []]]⟩,
        ⟨6, 1, 0, [page .auto [.act (.wait 1) [],
          .act (.transfer ⟨.constant, 1, 0, 0, none, .none⟩) []]]⟩]
      background := "", foreground := "" }
  { (default : Project) with
    maps := [⟨1, "", [room]⟩]
    system := { (default : System) with initialPosition := ⟨1, 1, 0, 0⟩ } }

/-- The player never leaves the room, and still the erased event comes back: it is seen, blocks
others and starts again. -/
theorem hauntedRoom_erased_returns :
    ∃ w, World.start hauntedRoom 1 = .ok w ∧
      let s : Session := ⟨w, .start hauntedRoom .deferred⟩
      let looks (acts : List Act) : List (Int32 × Bool × Bool × Bool) :=
        (s.after hauntedRoom acts).world.stage.events.map fun c =>
          (c.eventId, c.erased, c.isVisible, c.blocks)
      (∀ m ∈ Moment.still s :: Session.story hauntedRoom s [.tick .none, .tick .none],
          m.session.world.stage.mapId = 1 ∧ m.session.world.stage.roomId = 1 ∧
            m.session.world.stage.eventIds = [5, 6]) ∧
        looks [.tick .none] = [(5, true, false, false), (6, false, true, true)] ∧
        looks [.tick .none, .tick .none] = [(5, false, true, true), (6, false, true, true)] ∧
        5 ∈ ((s.after hauntedRoom [.tick .none, .tick .none]).beforeScripts hauntedRoom
          .none).world.stage.interpreters.map (·.eventId) := by
  refine ⟨_, rfl, ?_⟩
  decide +kernel

end Adventure
