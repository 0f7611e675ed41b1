import Adventure.Proofs.Room.Placeholders
import Adventure.Proofs.Session.Story

/-!
# Commands for the script's own event

Ids of events are given per room, and a script goes on when the player changes the room.  Commands
that act on the event that runs the script therefore look whether its room is still the current one,
and so does a move under way; all but the command that erases the event, which takes any event with
its id.
-/

namespace Adventure

variable {project : Project}

/-- Whether a command acts on the event that runs the script. -/
def Action.actsOnSelf : Action → Bool
  | .eraseEvent | .moveCharacter _ | .turnCharacter _ | .rotateCharacter _ | .changeCharacter _
  | .setCharacterImage _ | .setCharacterOpacity _ => true
  | _ => false

theorem Character.erase_eq_self_iff (c : Character) : c.erase = c ↔ c.erased = true := by
  refine ⟨fun h => ?_, fun h => ?_⟩
  · rw [← h]
    rfl
  · unfold Character.erase
    rw [← h]

namespace Stage

/-- A change of the player is none of the events. -/
theorem events_modifyCharacter_player (s : Stage) (change : Character → Character) :
    (s.modifyCharacter playerId change).events = s.events := by
  rw [modifyCharacter, if_pos rfl]

/-- A change of an event leaves all events as they are exactly if it does so with the first one that
has the id. -/
theorem modifyEvent_eq_self_iff (id : Int32) (change : Character → Character)
    (events : List Character) :
    modifyEvent id change events = events ↔
      ∀ c, events.find? (·.eventId == id) = some c → change c = c := by
  induction events with
  | nil => simp [modifyEvent]
  | cons c rest ih =>
    by_cases hid : c.eventId = id
    · simp [modifyEvent, hid]
    · simp [modifyEvent, hid, ih]

/-- In another room than its own only the player is found. -/
theorem characterIn?_of_away (s : Stage) {mapId roomId id : Int32}
    (away : mapId ≠ s.mapId ∨ roomId ≠ s.roomId) (event : id ≠ playerId) :
    s.characterIn? mapId roomId id = none := by
  rw [characterIn?, if_pos]
  simpa [event] using away

end Stage

namespace Walk

/-- A walk that belongs to another room moves no event. -/
theorem events_update (w : Walk) (project : Project) (s : Stage) (random : Random)
    (away : w.mapId ≠ s.mapId ∨ w.roomId ≠ s.roomId) :
    (w.update project s random).2.1.events = s.events := by
  by_cases hplayer : w.eventId = playerId
  · unfold update
    split
    · rfl
    · split
      · rfl
      · have hid : w.settle.eventId = playerId := by
          rw [← hplayer, settle]
          split <;> rfl
        dsimp only
        split
        · rfl
        · split
          · rfl
          · dsimp only
            unfold takeStep
            rw [hid]
            split <;> exact s.events_modifyCharacter_player _
  · rw [update, s.characterIn?_of_away away hplayer]

theorem room_of_planToTarget {w : Walk} {s : Stage} {eventId : Int32} {order : MoveOrder}
    {skip : Bool} (h : planToTarget s project eventId order skip = some w) :
    w.mapId = s.mapId ∧ w.roomId = s.roomId := by
  obtain ⟨c, _, h⟩ := Option.bind_eq_some_iff.1 h
  dsimp only at h
  split at h
  · cases h
    exact ⟨rfl, rfl⟩
  · split at h
    · cases h
      exact ⟨rfl, rfl⟩
    · cases h

/-- A walk belongs to the room in which it is planned. -/
theorem room_of_plan {w : Walk} {s : Stage} {eventId : Int32} {order : MoveOrder} {skip : Bool}
    (h : plan s project eventId order skip = some w) : w.mapId = s.mapId ∧ w.roomId = s.roomId := by
  unfold plan at h
  split at h
  case h_7 => exact room_of_planToTarget h
  all_goals
    cases h
    exact ⟨rfl, rfl⟩

end Walk

namespace Interpreter

variable {i : Interpreter} {s : Session}

theorem away_of_isIn {mapId roomId : Int32} (h : i.isIn mapId roomId = false) :
    i.mapId ≠ mapId ∨ i.roomId ≠ roomId := by
  by_cases hmap : i.mapId = mapId
  · exact .inr fun hroom => by simp [isIn, hmap, hroom] at h
  · exact .inl hmap

/-- A command that looks for its character in the script's room reaches no event of another one. -/
theorem events_withTarget {run : Character → Effect}
    (away : i.isIn s.world.stage.mapId s.world.stage.roomId = false)
    (player : i.target = playerId → ∀ c,
      (run c).session.world.stage.events = s.world.stage.events) :
    (i.withTarget s run).session.world.stage.events = s.world.stage.events := by
  by_cases htarget : i.target = playerId
  · unfold withTarget
    split
    · exact player htarget _
    · rfl
  · rw [withTarget, s.world.stage.characterIn?_of_away (away_of_isIn away) htarget]
    rfl

theorem events_changeTarget {change : Character → Character}
    (away : i.isIn s.world.stage.mapId s.world.stage.roomId = false) :
    (i.changeTarget s change).session.world.stage.events = s.world.stage.events :=
  events_withTarget away fun htarget _ => by
    rw [htarget]
    exact s.world.stage.events_modifyCharacter_player change

/-- Every command on the event itself but the one that erases it. -/
theorem events_act (branches : List Script) {action : Action} (self : action.actsOnSelf = true)
    (stays : action ≠ .eraseEvent)
    (away : i.isIn s.world.stage.mapId s.world.stage.roomId = false) :
    (i.act s project branches action).session.world.stage.events = s.world.stage.events := by
  cases action with
  | eraseEvent => exact absurd rfl stays
  | turnCharacter dir => exact events_changeTarget away
  | rotateCharacter angle => exact events_changeTarget away
  | setCharacterImage image => exact events_changeTarget away
  | setCharacterOpacity change =>
    refine events_withTarget away fun htarget _ => ?_
    rw [htarget]
    exact s.world.stage.events_modifyCharacter_player _
  | changeCharacter change =>
    refine events_withTarget away fun htarget _ => ?_
    rw [htarget]
    cases change <;> exact s.world.stage.events_modifyCharacter_player _
  | moveCharacter order =>
    refine events_withTarget away fun _ _ => ?_
    dsimp only
    split <;> rfl
  | _ => cases self

theorem events_eraseEvent :
    (i.act s project branches .eraseEvent).session.world.stage.events = s.world.stage.events ↔
      ∀ c, s.world.stage.character? i.actingEvent = some c →
        i.actingEvent = playerId ∨ c.erased = true := by
  have hevents : (i.act s project branches .eraseEvent).session.world.stage =
      s.world.stage.modifyCharacter i.actingEvent Character.erase := rfl
  rw [hevents, Stage.modifyCharacter, Stage.character?]
  by_cases hplayer : i.actingEvent = playerId
  · simp [hplayer]
  · simp [hplayer, Stage.modifyEvent_eq_self_iff, Character.erase_eq_self_iff]

/-- A move that a script begins belongs to the script's own room, if it is one of an event. -/
theorem isIn_of_moveTarget {order : MoveOrder} {walk : Walk} (event : i.target ≠ playerId)
    (before : i.walk = none)
    (planned : (i.moveTarget s project order).interpreter.walk = some walk) :
    i.isIn walk.mapId walk.roomId = true := by
  cases hhome : i.isIn s.world.stage.mapId s.world.stage.roomId with
  | false =>
    rw [moveTarget, withTarget, s.world.stage.characterIn?_of_away (away_of_isIn hhome) event]
      at planned
    cases before.symm.trans planned
  | true =>
    unfold moveTarget withTarget at planned
    split at planned
    · dsimp only at planned
      split at planned
      · next walk' hplan =>
        obtain rfl : walk' = walk := Option.some.inj planned
        obtain ⟨hmap, hroom⟩ := Walk.room_of_plan hplan
        rw [hmap, hroom, hhome]
      · cases before.symm.trans planned
    · cases before.symm.trans planned

theorem events_updateWalk {walk : Walk} (under : i.walk = some walk)
    (home : i.isIn walk.mapId walk.roomId = true)
    (away : i.isIn s.world.stage.mapId s.world.stage.roomId = false) :
    (i.updateWalk s project).2.2.world.stage.events = s.world.stage.events := by
  have hwalk : walk.mapId ≠ s.world.stage.mapId ∨ walk.roomId ≠ s.world.stage.roomId := by
    have hhome : i.mapId = walk.mapId ∧ i.roomId = walk.roomId := by simpa [isIn] using home
    rw [← hhome.1, ← hhome.2]
    exact away_of_isIn away
  have hevents := walk.events_update project s.world.stage s.world.random hwalk
  rw [updateWalk, under]
  dsimp only
  split <;> exact hevents

/-- In a room that is not the script's own a command on the event that runs the script changes no
event, and neither does a move of the event that is under way.  The exception is the command that
erases the event: it erases the event of this room that has the same id, if there is one that is not
erased. -/
theorem own_room (away : i.isIn s.world.stage.mapId s.world.stage.roomId = false) :
    (∀ branches action, action.actsOnSelf = true →
      ((i.execute s project (.act action branches)).session.world.stage.events =
          s.world.stage.events ↔
        (action = .eraseEvent → i.kind ≠ .route →
          ∀ c, s.world.stage.character? i.actingEvent = some c →
            i.actingEvent = playerId ∨ c.erased = true))) ∧
      ∀ walk, i.walk = some walk → i.isIn walk.mapId walk.roomId = true →
        (i.updateWalk s project).2.2.world.stage.events = s.world.stage.events := by
  refine ⟨fun branches action self => ?_, fun walk under home => events_updateWalk under home away⟩
  by_cases herase : action = .eraseEvent
  · subst herase
    by_cases hroute : i.kind = .route
    · have hrefused : i.execute s project (.act .eraseEvent branches) =
          i.go s (.fail (.notInRoute (Command.act .eraseEvent branches).name)) := by
        rw [execute, if_pos (by simp [hroute, Command.fitsRoute, Action.fitsRoute])]
      rw [hrefused]
      exact iff_of_true rfl fun _ hkind => absurd hroute hkind
    · have hruns : i.execute s project (.act .eraseEvent branches) =
          i.act s project branches .eraseEvent := by
        rw [execute, if_neg (by simp [hroute])]
      rw [hruns, events_eraseEvent]
      exact ⟨fun h _ _ => h, fun h => h rfl hroute⟩
  · refine iff_of_true ?_ fun h => absurd h herase
    unfold execute
    split
    · rfl
    · exact events_act branches self herase away

end Interpreter

/-- Two rooms with an event 5 each.  That of the first room brings the player to the second one and
erases itself. -/
def twinHouse : Project :=
  let leaves := { Page.blank with
    commands := [.act (.transfer ⟨.constant, 2, 0, 0, none, .none⟩) [], .act .eraseEvent []] }
  let room (id : Int32) (page : Page) : Room :=
    { id, width := 2, height := 1, tileSetId := 0, tiles := [], events := [⟨5, 1, 0, [page]⟩],
      background := "", foreground := "" }
  { (default : Project) with
    maps := [⟨1, "", [room 1 leaves, room 2 Page.blank]⟩]
    system := { (default : System) with initialPosition := ⟨1, 1, 0, 0⟩ } }

/-- A script of the event in the first room, which it moves along. -/
def twinScript : Interpreter :=
  let order : MoveOrder := ⟨.direction, .left, 1, 0, 0, .constant, false⟩
  { Interpreter.start 7 1 1 5 .event [] with
    walk := some ⟨1, 1, 5, order, false, 1, [], false, false⟩ }

/-- In the second room the script neither turns nor moves the event there, but erases it. -/
theorem twinScript_erases_only :
    ∃ w, World.start twinHouse 1 = .ok w ∧
      let s := Session.after twinHouse ⟨w, .start twinHouse .deferred⟩ [.transfer 2 ⟨0, 0⟩ none]
      let events := s.world.stage.events
      twinScript.isIn s.world.stage.mapId s.world.stage.roomId = false ∧
        (twinScript.execute s twinHouse
          (.act (.turnCharacter .left) [])).session.world.stage.events =
          events ∧
        (twinScript.execute s twinHouse (.act .eraseEvent [])).session.world.stage.events ≠ events ∧
        (twinScript.updateWalk s twinHouse).2.2.world.stage.events = events := by
  obtain ⟨w, hstart, haway, c, hc, hlive⟩ : ∃ w, World.start twinHouse 1 = .ok w ∧
      let s := Session.after twinHouse ⟨w, .start twinHouse .deferred⟩ [.transfer 2 ⟨0, 0⟩ none]
      twinScript.isIn s.world.stage.mapId s.world.stage.roomId = false ∧
        ∃ c, s.world.stage.character? 5 = some c ∧ c.erased = false := by
    refine ⟨_, rfl, ?_⟩
    decide +kernel
  obtain ⟨hcommands, hwalk⟩ := Interpreter.own_room haway
  refine ⟨w, hstart, haway, ?_, fun hsame => ?_, hwalk _ rfl (by decide)⟩
  · exact (hcommands [] (.turnCharacter .left) rfl).2 fun h => by cases h
  · rcases (hcommands [] .eraseEvent rfl).1 hsame rfl (by decide) c hc with hplayer | herased
    · exact absurd hplayer (by decide)
    · cases hlive.symm.trans herased

/-- In a game the event of the second room is erased. -/
theorem twinHouse_erases_twin :
    ∃ w, World.start twinHouse 1 = .ok w ∧
      let s := Session.after twinHouse ⟨w, .start twinHouse .deferred⟩ [.startEvent 5, .tick .none]
      s.world.stage.roomId = 2 ∧ s.world.stage.events.map (·.erased) = [true] := by
  refine ⟨_, rfl, ?_⟩
  decide +kernel

end Adventure
