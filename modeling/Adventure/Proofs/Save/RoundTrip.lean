import Adventure.Proofs.Save.Envelope
import Adventure.Proofs.Save.Stage
import Adventure.Proofs.Session.Pace

/-!
# Saved games go on

A game that is saved in any reachable state is loaded as it was: dialogue, moves, changes under way
and scripts suspended at any depth.  Only the requests of scripts are gone, and their commands count
as done.
-/

namespace Adventure

open Wire Save

/-! ## Requests -/

namespace Interpreter

/-- Whether the script waits for the answer to a request. -/
def awaitsRequest (i : Interpreter) : Bool :=
  match i.pending with
  | some (.request _) => true
  | _ => false

/-- The script past the command that made the request. -/
def pastRequest (i : Interpreter) : Interpreter :=
  if i.awaitsRequest then { i with pending := none, wait := .none }.advance else i

theorem forgetRequest_eq (i : Interpreter) : i.forgetRequest = i.pastRequest := by
  cases hp : i.pending with
  | none => simp [forgetRequest, pastRequest, awaitsRequest, hp]
  | some p => cases p <;> simp [forgetRequest, pastRequest, awaitsRequest, hp]

/-- Of the list that is running the index goes up by one, and nothing else changes. -/
theorem advance_eq (i : Interpreter) : i.advance =
    { i with frames := i.frames.modifyHead fun f => { f with index := f.index + 1 } } := by
  obtain ⟨_, _, _, _, _, frames, _⟩ := i
  cases frames <;> rfl

/-- A script that waits for an answer stands behind its command then and waits for nothing; all the
rest of it is kept. -/
theorem pastRequest_of_awaits {i : Interpreter} (h : i.awaitsRequest = true) : i.pastRequest =
    { i with
      frames := i.frames.modifyHead fun f => { f with index := f.index + 1 }
      pending := none
      wait := .none } := by
  rw [pastRequest, if_pos h, advance_eq]

theorem pastRequest_of_not {i : Interpreter} (h : i.awaitsRequest = false) : i.pastRequest = i := by
  rw [pastRequest, h]
  rfl

end Interpreter

/-- The stage with every script past the command that made a request. -/
def Stage.pastRequests (s : Stage) : Stage :=
  { s with
    interpreters := s.interpreters.map Interpreter.pastRequest
    routes := s.routes.map Interpreter.pastRequest }

/-- Whether no script of a stage waits for the answer to a request. -/
def Stage.AwaitsNothing (s : Stage) : Prop :=
  ∀ i ∈ s.interpreters ++ s.routes, i.awaitsRequest = false

instance (s : Stage) : Decidable s.AwaitsNothing :=
  inferInstanceAs (Decidable (∀ i ∈ s.interpreters ++ s.routes, i.awaitsRequest = false))

namespace Stage

theorem forgetRequests_eq (s : Stage) : s.forgetRequests = s.pastRequests := by
  have hforget : Interpreter.forgetRequest = Interpreter.pastRequest :=
    funext Interpreter.forgetRequest_eq
  rw [forgetRequests, pastRequests, hforget]

theorem pastRequests_of_awaitsNothing {s : Stage} (h : s.AwaitsNothing) : s.pastRequests = s := by
  have hmap : ∀ is : List Interpreter, (∀ i ∈ is, i.awaitsRequest = false) →
      is.map Interpreter.pastRequest = is := by
    intro is his
    exact (List.map_congr_left fun i hi => Interpreter.pastRequest_of_not (his i hi)).trans
      (List.map_id is)
  rw [pastRequests, hmap _ fun i hi => h i (List.mem_append_left _ hi),
    hmap _ fun i hi => h i (List.mem_append_right _ hi)]

end Stage

/-! ## Saving and loading -/

/-- The scripts of a project that was read are storable, and so are the scripts in them. -/
theorem Project.inherits_storable {bytes : List UInt8} {project : Project}
    (h : ofDocumentBytes? bytes = some project) : project.Inherits Script.Storable where
  owned := storable_of_read h
  branch h hc hb := h.branch hc hb
  body h hc := h.body hc

/-- A world that is loaded from progress has it, if the player's speed was remembered. -/
theorem World.resume_toProgress {w : World} (h : w.Paced) (seed : UInt64) :
    (resume w.toProgress seed).toProgress =
      { w.toProgress with stage := w.stage.pastRequests } := by
  have hplayer : { w.stage.player with speed := w.playerSpeed } = w.stage.player := by
    rw [← h.speed]
  show { w.toProgress with
    stage := { w.stage with
      player := { w.stage.player with speed := w.playerSpeed } }.forgetRequests } = _
  rw [hplayer, Stage.forgetRequests_eq]

/-- A game that was saved in a reachable state is loaded as it was, past the commands that made
requests.  If there are none, it is saved again as the same bytes.  Its numbers have the widths that
they have on the wire, and the length of what is saved fits the envelope. -/
theorem Session.Reachable.encode_decode {bytes : List UInt8} {project : Project} {s : Session}
    (read : ofDocumentBytes? bytes = some project) (spares : project.SparesPlayer)
    (reached : Reachable project s) (fits : s.world.toProgress.Fits)
    (short : (pack s.world.toProgress).length < 2 ^ 32) :
    ∃ blob, s.world.encode = .ok blob ∧ ∀ seed, ∃ w, World.decode blob seed = .ok w ∧
      w.toProgress = { s.world.toProgress with stage := s.world.stage.pastRequests } ∧
      (s.world.stage.AwaitsNothing → w.encode = .ok blob) := by
  have hscripts : s.world.stage.Holds Script.Storable :=
    reached.holds (Project.inherits_storable read)
  have hblob : ∃ blob, toBlob .progress s.world.toProgress = .ok blob ∧
      ofBlob .progress blob = .ok s.world.toProgress :=
    ofBlob_toBlob (Progress.told fits hscripts) (Progress.writable fits hscripts) short
  obtain ⟨blob, hencode, hdecode⟩ := hblob
  refine ⟨blob, hencode, fun seed => ⟨World.resume s.world.toProgress seed, ?_, ?_, ?_⟩⟩
  · rw [World.decode, hdecode]
  · exact World.resume_toProgress (reached.paced spares) seed
  · intro hnothing
    rw [World.encode, World.resume_toProgress (reached.paced spares) seed,
      Stage.pastRequests_of_awaitsNothing hnothing]
    exact hencode

/-- A document with an empty room, and a common event that waits inside a branch. -/
def quietRoom : List UInt8 :=
  let wait : Value := .record [("name", .text "wait"), ("args", .record [("time", .int 3)])]
  let branch : Value := .record
    [("name", .text "if"), ("args", .record [("conditions", .list [])]),
      ("branches", .list [.list [wait]])]
  bytesOfText (Json.compact (.record
    [("maps", .list [.record [("id", .int 0), ("rooms", .list [.record [("id", .int 0)]])]]),
      ("commonEvents", .list [.record [("id", .int 1), ("commands", .list [branch])]])]))

/-- A tick after the common event was started. -/
def Session.inQuietRoom (project : Project) (w : World) : Session :=
  let s : Session := ⟨w, .start project (.prompt .start)⟩
  (s.modifyWorld fun w => (w.startCommonEvent project 1).2).update project .none

/-- The common event is suspended two lists deep, and the game is loaded as it was. -/
theorem Session.inQuietRoom_encode_decode :
    ∃ (project : Project) (s : Session), ofDocumentBytes? quietRoom = some project ∧
      project.SparesPlayer ∧ Reachable project s ∧ s.world.toProgress.Fits ∧
      (pack s.world.toProgress).length < 2 ^ 32 ∧
      (∃ i ∈ s.world.stage.interpreters, i.frames.length = 2) ∧
      ∃ blob, s.world.encode = .ok blob ∧ ∀ seed, ∃ w, World.decode blob seed = .ok w ∧
        w.toProgress = s.world.toProgress ∧ w.encode = .ok blob := by
  have hrun : (ofDocumentBytes? quietRoom : Option Project).any (fun project =>
      (World.start project 1).toOption.any fun w =>
        let s := inQuietRoom project w
        decide (project.SparesPlayer ∧ s.world.toProgress.Fits ∧
          (pack s.world.toProgress).length < 2 ^ 32 ∧ s.world.stage.AwaitsNothing ∧
          ∃ i ∈ s.world.stage.interpreters, i.frames.length = 2)) = true := by
    decide +kernel
  obtain ⟨project, hread, hrun⟩ := (Option.any_eq_true _ _).1 hrun
  obtain ⟨w, hw, hrun⟩ := (Option.any_eq_true _ _).1 hrun
  have hstart : World.start project 1 = .ok w := by
    cases hresult : World.start project 1 with
    | error e => simp [hresult, Except.toOption] at hw
    | ok w' => simpa [hresult, Except.toOption] using hw
  obtain ⟨hspares, hfits, hshort, hnothing, hsuspended⟩ := of_decide_eq_true hrun
  have hreached : Reachable project (inQuietRoom project w) :=
    ((Reachable.start 1 _ hstart).commonEvent 1).tick .none
  obtain ⟨blob, hencode, hdecode⟩ := hreached.encode_decode hread hspares hfits hshort
  refine ⟨project, _, hread, hspares, hreached, hfits, hshort, hsuspended, blob, hencode, ?_⟩
  intro seed
  obtain ⟨loaded, hloaded, hprogress, hagain⟩ := hdecode seed
  refine ⟨loaded, hloaded, ?_, hagain hnothing⟩
  rw [hprogress, Stage.pastRequests_of_awaitsNothing hnothing]

end Adventure
