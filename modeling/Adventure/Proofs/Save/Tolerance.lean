import Adventure.Proofs.Save.RoundTrip
import Adventure.Proofs.Wire.Parts
import Adventure.Proofs.Wire.Reworked

/-!
# Saves of other versions

A save may have its fields in another order, lack some of them, and have fields that this version
knows nothing of.  It is loaded all the same, unless the stage is missing: the fields that were kept
are what they were, and the others have their defaults.
-/

namespace Adventure

open Wire Wire.Value Save

namespace Progress

/-- The fields of progress on the wire. -/
def fields (p : Progress) : List (String × Value) :=
  [("variables", encode p.memory), ("items", encode p.inventory), ("hints", encode p.hints),
    ("screen", encode p.screen), ("windows", encode p.windows), ("pictures", encode p.pictures),
    ("map", encode p.stage), ("lastInterpreterId", encode p.lastInterpreterId),
    ("autosaveEnabled", encode p.autosaves), ("playerControlEnabled", encode p.playerControl),
    ("playerSpeed", encode p.playerSpeed), ("inventoryVisible", encode p.inventoryVisible),
    ("cleared", encode p.cleared), ("lastPlayingBgm", encode p.music),
    ("backgrounds", encode p.backgrounds), ("foregrounds", encode p.foregrounds)]

theorem encode_eq (p : Progress) : encode p = .record p.fields := rfl

/-- The names of the fields. -/
def names : List String :=
  ["variables", "items", "hints", "screen", "windows", "pictures", "map", "lastInterpreterId",
    "autosaveEnabled", "playerControlEnabled", "playerSpeed", "inventoryVisible", "cleared",
    "lastPlayingBgm", "backgrounds", "foregrounds"]

theorem names_fields (p : Progress) : p.fields.map (·.1) = names := rfl

/-- Progress with the defaults of the fields that were dropped. -/
def without (p : Progress) (dropped : List String) : Progress where
  memory := if "variables" ∈ dropped then .unset else p.memory
  inventory := if "items" ∈ dropped then .empty else p.inventory
  hints := if "hints" ∈ dropped then .none else p.hints
  screen := if "screen" ∈ dropped then default else p.screen
  windows := if "windows" ∈ dropped then .none else p.windows
  pictures := if "pictures" ∈ dropped then default else p.pictures
  stage := p.stage
  lastInterpreterId := if "lastInterpreterId" ∈ dropped then 0 else p.lastInterpreterId
  autosaves := if "autosaveEnabled" ∈ dropped then true else p.autosaves
  playerControl := if "playerControlEnabled" ∈ dropped then true else p.playerControl
  playerSpeed := if "playerSpeed" ∈ dropped then Speed.playerDefault else p.playerSpeed
  inventoryVisible := if "inventoryVisible" ∈ dropped then false else p.inventoryVisible
  cleared := if "cleared" ∈ dropped then false else p.cleared
  music := if "lastPlayingBgm" ∈ dropped then none else p.music
  backgrounds := if "backgrounds" ∈ dropped then .empty else p.backgrounds
  foregrounds := if "foregrounds" ∈ dropped then .empty else p.foregrounds

variable {p : Progress} {dropped : List String} {v : Value}

/-- Progress is read from the fields that were kept, if the stage is among them. -/
theorem decode?_of_tells {f : Fields} (h : p.Fits) (hscripts : p.stage.Holds Script.Storable)
    (hread : Fields.read? .packed names v = some f)
    (hf : f.Tells (p.fields.filter fun f => f.1 ∉ dropped)) (hmap : "map" ∉ dropped) :
    decode? .packed v = some (p.without dropped) := by
  refine bind_of_eq hread ?_
  refine bind_of_eq (hf.withDefault_kept "variables" p.memory .unset rfl) ?_
  refine bind_of_eq (hf.withDefault_kept "items" p.inventory .empty rfl) ?_
  refine bind_of_eq (hf.withDefault_kept "hints" p.hints .none rfl) ?_
  refine bind_of_eq (hf.withDefault_kept "screen" p.screen default rfl) ?_
  refine bind_of_eq (hf.withDefaultOf_kept "windows" (Windows.told h.windows) rfl) ?_
  refine bind_of_eq (hf.withDefault_kept "pictures" p.pictures default rfl) ?_
  refine bind_of_eq (hf.requiredOf_kept "map" (Stage.told h.stage hscripts) rfl hmap) ?_
  refine bind_of_eq (hf.orElse_kept "lastInterpreterId" rfl fun _ =>
    serial?_of_retold h.lastInterpreterId) ?_
  refine bind_of_eq (hf.withDefault_kept "autosaveEnabled" p.autosaves true rfl) ?_
  refine bind_of_eq (hf.withDefault_kept "playerControlEnabled" p.playerControl true rfl) ?_
  refine bind_of_eq (hf.orElse_kept "playerSpeed" rfl fun _ => speedOr?_of_retold) ?_
  refine bind_of_eq (hf.withDefault_kept "inventoryVisible" p.inventoryVisible false rfl) ?_
  refine bind_of_eq (hf.withDefault_kept "cleared" p.cleared false rfl) ?_
  refine bind_of_eq (hf.withDefault_kept "lastPlayingBgm" p.music none rfl) ?_
  refine bind_of_eq (hf.withDefault_kept "backgrounds" p.backgrounds .empty rfl) ?_
  exact bind_of_eq (hf.withDefault_kept "foregrounds" p.foregrounds .empty rfl) rfl

/-- Nothing is read if the stage is not found. -/
theorem decode?_of_find? (h : ∀ f, Fields.read? .packed names v = some f → f.find? "map" = none) :
    (decode? .packed v : Option Progress) = none := by
  refine Option.bind_eq_none_iff.2 fun f hread => ?_
  -- the six fields before the stage may be in order
  iterate 6 refine Option.bind_eq_none_iff.2 fun _ _ => ?_
  refine Option.bind_eq_none_iff.2 fun stage hstage => ?_
  rw [Fields.required, h f hread] at hstage
  cases hstage

/-- Nothing is read from a map in which no key stands for the stage. -/
theorem decode?_map_of_ne {entries : List (Value × Value)}
    (h : ∀ e ∈ entries, fieldKey? .packed names e.1 ≠ some (.known "map")) :
    (decode? .packed (.map entries) : Option Progress) = none := by
  refine decode?_of_find? fun f hread => ?_
  obtain ⟨fields, hfields, rfl⟩ := Option.map_eq_some_iff.1 hread
  show (fields.find? fun e => e.1 == "map").map _ = none
  rw [List.find?_eq_none.2 fun e he hname => ?_]
  · rfl
  · obtain ⟨k, hk, hkey⟩ := mem_of_collectFields? hfields e he
    rw [beq_iff_eq.1 hname] at hkey
    exact h _ hk hkey

end Progress

/-- Progress when a game goes on from it: the player walks at the saved speed, and every script is
past the command that made a request. -/
def Progress.resumed (p : Progress) : Progress :=
  let stage := { p.stage with player := { p.stage.player with speed := p.playerSpeed } }
  { p with stage := stage.pastRequests }

theorem World.toProgress_resume (p : Progress) (seed : UInt64) :
    (resume p seed).toProgress = p.resumed := by
  show { p with
    stage := { p.stage with
      player := { p.stage.player with speed := p.playerSpeed } }.forgetRequests } = _
  rw [Stage.forgetRequests_eq]
  rfl

/-- What is loaded from a payload in an envelope. -/
theorem World.decode_of_wrap {payload blob : List UInt8} (h : wrap .progress payload = .ok blob)
    (seed : UInt64) :
    decode blob seed =
      ((unpack? payload).map fun p => resume p seed).elim (.error .undecodable) .ok := by
  have short : payload.length < 0x100000000 := by
    by_contra hlong
    rw [wrap, if_neg hlong] at h
    cases h
  obtain ⟨blob', hwrap, hunwrap⟩ := @unwrapKind_wrap .progress _ short
  obtain rfl := Except.ok.inj (hwrap.symm.trans h)
  simp only [decode, ofBlob, hunwrap]
  cases (unpack? payload : Option Progress) <;> rfl

/-- A game that was saved in a reachable state is loaded from a payload whose entries changed
places, in which fields were dropped and entries added under other names: the fields that were kept
are as they were, past the commands that made requests, the others have their defaults, and the
player walks at the speed that was kept or at the default one.  Without the stage nothing is loaded,
whatever else is in the payload.  The numbers have the widths that they have on the wire, and the
length of the payload fits the envelope. -/
theorem Session.Reachable.decode_reworked {bytes : List UInt8} {project : Project} {s : Session}
    (read : ofDocumentBytes? bytes = some project) (reached : Reachable project s)
    (fits : s.world.toProgress.Fits) {dropped : List String} {payload : List UInt8}
    (reworked : MessagePack.Reworks s.world.toProgress.fields dropped payload)
    (short : payload.length < 2 ^ 32) :
    (∃ blob, wrap .progress payload = .ok blob ∧
      ("map" ∉ dropped → unpack? payload = some (s.world.toProgress.without dropped) ∧
        ∀ seed, ∃ w, World.decode blob seed = .ok w ∧
          w.toProgress = (s.world.toProgress.without dropped).resumed ∧
          w.stage.player.speed =
            if "playerSpeed" ∈ dropped then Speed.playerDefault else s.world.playerSpeed) ∧
      ("map" ∈ dropped → (unpack? payload : Option Progress) = none ∧
        ∀ seed, World.decode blob seed = .error .undecodable)) ∧
    ∀ other entries, MessagePack.read? other = some (.map entries) →
      (∀ e ∈ entries, fieldKey? .packed Progress.names e.1 ≠ some (.known "map")) →
      ∀ blob seed, wrap .progress other = .ok blob →
        World.decode blob seed = .error .undecodable := by
  have hscripts : s.world.stage.Holds Script.Storable :=
    reached.holds (Project.inherits_storable read)
  have hwritable := Progress.writable fits hscripts
  rw [Progress.encode_eq] at hwritable
  obtain ⟨v, f, hread, hfields, htells⟩ :=
    reworked.exists_read hwritable (show Progress.names.Nodup by decide) short
  rw [Progress.names_fields] at hfields
  obtain ⟨blob, hwrap, -⟩ := @unwrapKind_wrap .progress _ short
  refine ⟨⟨blob, hwrap, fun hmap => ?_, fun hmap => ?_⟩, ?_⟩
  · have hunpack : unpack? payload = some (s.world.toProgress.without dropped) := by
      rw [unpack?, hread]
      exact Progress.decode?_of_tells fits hscripts hfields htells hmap
    refine ⟨hunpack, fun seed => ⟨World.resume (s.world.toProgress.without dropped) seed, ?_,
      World.toProgress_resume _ seed, rfl⟩⟩
    rw [World.decode_of_wrap hwrap, hunpack]
    rfl
  · have hunpack : (unpack? payload : Option Progress) = none := by
      rw [unpack?, hread]
      refine Progress.decode?_of_find? fun f' hf' => ?_
      obtain rfl := Option.some.inj (hfields.symm.trans hf')
      exact htells.find?_of_dropped hmap
    refine ⟨hunpack, fun seed => ?_⟩
    rw [World.decode_of_wrap hwrap, hunpack]
    rfl
  · intro other entries hother hno blob seed hblob
    have hunpack : (unpack? other : Option Progress) = none := by
      rw [unpack?, hother]
      exact Progress.decode?_map_of_ne hno
    rw [World.decode_of_wrap hblob, hunpack]
    rfl

/-- The entries of progress behind one that this version knows nothing of, without three of them. -/
def Progress.reworked (p : Progress) : List UInt8 :=
  MessagePack.joinEntries
    ((MessagePack.writeText "weather", MessagePack.write (.list [.text "rain"])) ::
    MessagePack.packFields
      (p.fields.filter fun f => f.1 ∉ ["hints", "playerSpeed", "autosaveEnabled"]))

theorem Progress.reworks_reworked (p : Progress) :
    MessagePack.Reworks p.fields ["hints", "playerSpeed", "autosaveEnabled"] p.reworked := by
  refine ⟨[(MessagePack.writeText "weather", MessagePack.write (.list [.text "rain"]))], _, rfl,
    (List.perm_append_singleton _ _).symm, fun e he => ?_⟩
  obtain rfl := List.mem_singleton.1 he
  have hlist : (Value.list [.text "rain"]).Writable false (MessagePack.maxDepth - 1) :=
    ⟨by decide, trivial, trivial⟩
  obtain ⟨x, -, hvalue⟩ := MessagePack.spells_write hlist (by decide +kernel)
  exact ⟨"weather", x, ⟨MessagePack.spells_writeText (by decide +kernel), hvalue⟩,
    show "weather" ∉ Progress.names by decide⟩

/-- The common event is suspended, and the game is loaded without what was dropped. -/
theorem Session.inQuietRoom_decode_reworked :
    ∃ (project : Project) (s : Session), ofDocumentBytes? quietRoom = some project ∧
      Reachable project s ∧ s.world.toProgress.Fits ∧ s.world.toProgress.reworked.length < 2 ^ 32 ∧
      ∃ blob, wrap .progress s.world.toProgress.reworked = .ok blob ∧
        ∀ seed, ∃ w, World.decode blob seed = .ok w ∧ w.stage.player.speed = .playerDefault ∧
          w.autosaves = true ∧ w.memory = s.world.memory ∧
          w.stage.interpreters = s.world.stage.pastRequests.interpreters := by
  have hrun : (ofDocumentBytes? quietRoom : Option Project).any (fun project =>
      (World.start project 1).toOption.any fun w =>
        let s := inQuietRoom project w
        decide (s.world.toProgress.Fits ∧ s.world.toProgress.reworked.length < 2 ^ 32)) = true := by
    decide +kernel
  obtain ⟨project, hread, hrun⟩ := (Option.any_eq_true _ _).1 hrun
  obtain ⟨w, hw, hrun⟩ := (Option.any_eq_true _ _).1 hrun
  have hstart : World.start project 1 = .ok w := by
    cases hresult : World.start project 1 with
    | error e => simp [hresult, Except.toOption] at hw
    | ok w' => simpa [hresult, Except.toOption] using hw
  obtain ⟨hfits, hshort⟩ := of_decide_eq_true hrun
  have hreached : Reachable project (inQuietRoom project w) :=
    ((Reachable.start 1 _ hstart).commonEvent 1).tick .none
  obtain ⟨⟨blob, hwrap, hload, -⟩, -⟩ :=
    hreached.decode_reworked hread hfits (Progress.reworks_reworked _) hshort
  refine ⟨project, _, hread, hreached, hfits, hshort, blob, hwrap, fun seed => ?_⟩
  obtain ⟨loaded, hloaded, hprogress, hspeed⟩ := (hload (by decide)).2 seed
  refine ⟨loaded, hloaded, hspeed, ?_, ?_, ?_⟩
  · simpa [Progress.resumed, Progress.without] using congrArg Progress.autosaves hprogress
  · simpa [Progress.resumed, Progress.without] using congrArg Progress.memory hprogress
  · exact congrArg (fun p : Progress => p.stage.interpreters) hprogress

end Adventure
