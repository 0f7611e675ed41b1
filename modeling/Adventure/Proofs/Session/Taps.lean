import Adventure.Proofs.Dialogue.Uses
import Adventure.Proofs.Session.Story

/-!
# One tap, one effect

The windows have the input of a tick first.  What they use is gone for the room, and what they leave
has not changed them, so a tap never goes on from a message and lets the player walk as well.
-/

namespace Adventure

/-! ## Windows that leave the input -/

namespace Windows

variable {ws : Windows} {input : Input}

/-- There is nothing to dismiss where no message is open. -/
theorem dismiss_eq_self (h : ws.balloons.any Window.isOpened = false) : ws.dismiss = ws := by
  have hmap : (ws.balloons.map fun w => if w.isOpened then w.close else w) = ws.balloons := by
    refine (List.map_congr_left fun w hw => ?_).trans ws.balloons.map_id
    exact if_neg (List.any_eq_false.1 h w hw)
  unfold dismiss
  rw [hmap]

theorem respond_none (ws : Windows) :
    ws.respond .none = (false, if ws.pickedCount > 0 then ws.countPick else ws) := by
  unfold respond
  split
  · rfl
  · split
    · rfl
    · simp [Input.none]

/-- Windows that do not use the input respond as if there were none. -/
theorem respond_of_unused (h : (ws.respond input).1 = false) :
    (ws.respond input).2 = (ws.respond .none).2 := by
  rw [respond_none]
  have hresponds := ws.responds input
  generalize ws.respond input = answer at h hresponds ⊢
  cases hresponds with
  | counts counting => exact (if_pos counting).symm
  | picks => cases h
  | dismisses idle => simp [idle, dismiss_eq_self h]
  | waits idle => simp [idle]

theorem update_of_unused (h : (ws.update input).1 = false) :
    (ws.update input).2 = (ws.update .none).2 :=
  congrArg animate (respond_of_unused h)

end Windows

/-! ## The rest of a tick -/

/-- A used input has no tap, tile or choice any more; what is pressed and where the pointer is are
kept. -/
theorem Input.consumed_eq (i : Input) : i.consumed =
    ⟨false, .none, i.pressedTile, i.pointer, i.pointerPressed, i.pointerReleased, .none⟩ := rfl

namespace World

theorem handleTap_of_none {input : Input} (h : input.tappedTile = none) (w : World)
    (project : Project) : w.handleTap project input = w := by
  unfold handleTap
  rw [h]

end World

namespace Session

variable {s : Session} {project : Project} {input : Input}

/-- Whether the windows use the input of a tick. -/
def isUsed (s : Session) (project : Project) (input : Input) : Bool :=
  ((s.beforeWindows project).world.windows.update input).1

/-- What follows in a tick once the windows have had the input. -/
def rest (s : Session) (project : Project) (input : Input) : Session :=
  ((s.modifyWorld fun w => { w with pictures := w.pictures.update }).updateRoom
    project input).modifyWorld fun w => w.updateTouch input

theorem update_eq_rest (s : Session) (project : Project) (input : Input) :
    s.update project input =
      (s.afterWindows project input).rest project (s.inputLeft project input) := rfl

theorem inputLeft_of_used (h : s.isUsed project input = true) :
    s.inputLeft project input = input.consumed := if_pos h

theorem inputLeft_of_unused (h : s.isUsed project input = false) :
    s.inputLeft project input = input := if_neg (Bool.eq_false_iff.1 h)

theorem afterWindows_of_unused (h : s.isUsed project input = false) :
    s.afterWindows project input = s.afterWindows project .none := by
  have hwindows := Windows.update_of_unused h
  exact congrArg (fun windows => (s.beforeWindows project).modifyWorld fun w =>
    { w with windows := windows }) hwindows

/-- Without a tapped tile the room goes on as without any input. -/
theorem updateRoom_of_none (h : input.tappedTile = none) (s : Session) (project : Project) :
    s.updateRoom project input = s.updateRoom project .none := by
  have hstart : s.startScripts project input = s.startScripts project .none := by
    have hidle : ∀ w : World, w.handleTap project .none = w := fun w =>
      World.handleTap_of_none rfl w project
    unfold startScripts
    simp only [World.handleTap_of_none h, hidle]
  unfold updateRoom
  rw [hstart]

/-- An input acts on the windows or on the rest of the session.  Windows that do not use it are what
they would be without it.  If they use it, then the tick goes on without the tap, the tapped tile
and the choice, and the room as without any input: the tap starts no event and no walk.  This is so
whenever the input makes a difference to the windows. -/
theorem input_acts_once (s : Session) (project : Project) (input : Input) :
    (∀ ws : Windows, (ws.update input).1 = false → (ws.update input).2 = (ws.update .none).2) ∧
    (s.isUsed project input = false →
      s.update project input = (s.afterWindows project .none).rest project input) ∧
    (s.isUsed project input = true →
      s.update project input = (s.afterWindows project input).rest project input.consumed ∧
        ∀ t : Session, t.updateRoom project input.consumed = t.updateRoom project .none ∧
          t.world.handleTap project input.consumed = t.world) ∧
    (s.afterWindows project input ≠ s.afterWindows project .none →
      s.isUsed project input = true) := by
  refine ⟨fun ws => Windows.update_of_unused, fun hunused => ?_, fun hused => ⟨?_, fun t => ?_⟩, ?_⟩
  · rw [update_eq_rest, inputLeft_of_unused hunused, afterWindows_of_unused hunused]
  · rw [update_eq_rest, inputLeft_of_used hused]
  · exact ⟨updateRoom_of_none rfl t project, World.handleTap_of_none rfl t.world project⟩
  · intro hne
    cases hused : s.isUsed project input with
    | true => rfl
    | false => exact absurd (afterWindows_of_unused hused) hne

end Session

/-! ### A tap in a room of two tiles -/

def twoTiles : Project :=
  let room : Room :=
    { id := 1, width := 2, height := 1, tileSetId := 0, tiles := [], events := [], background := "",
      foreground := "" }
  { (default : Project) with
    maps := [⟨1, "", [room]⟩]
    system := { (default : System) with initialPosition := ⟨1, 1, 0, 0⟩ } }

/-- A tap on the tile next to the player. -/
def tapBeside : Input := { Input.none with triggered := true, tappedTile := some ⟨1, 0⟩ }

/-- The tap lets the player walk, and with a message on the screen it goes on from the message. -/
theorem tapBeside_acts_once :
    ∃ w, World.start twoTiles 1 = .ok w ∧
      let s : Session := ⟨w, .start twoTiles .deferred⟩
      let message : Window := { Window.waiting .message "" 0 1 with state := .opened }
      let told : Session := s.modifyWorld fun w => { w with windows := { Windows.none with
        balloons := [message] } }
      s.isUsed twoTiles tapBeside = false ∧
        (s.update twoTiles tapBeside).world.stage.playerWalk.isSome = true ∧
        s.update twoTiles tapBeside =
          (s.afterWindows twoTiles .none).rest twoTiles tapBeside ∧
        told.isUsed twoTiles tapBeside = true ∧
        (told.update twoTiles tapBeside).world.windows.balloons.map (·.state) = [.closing] ∧
        (told.update twoTiles tapBeside).world.stage.playerWalk = none ∧
        told.update twoTiles tapBeside =
          (told.afterWindows twoTiles tapBeside).rest twoTiles tapBeside.consumed := by
  refine ⟨_, rfl, ?_⟩
  intro s message told
  have hunused : s.isUsed twoTiles tapBeside = false := by decide +kernel
  have hused : told.isUsed twoTiles tapBeside = true := by decide +kernel
  exact ⟨hunused, by decide +kernel, (Session.input_acts_once s twoTiles tapBeside).2.1 hunused,
    hused, by decide +kernel, by decide +kernel,
    ((Session.input_acts_once told twoTiles tapBeside).2.2.1 hused).1⟩

end Adventure
