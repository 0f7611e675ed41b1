import Adventure.Proofs.Project.Storable
import Adventure.Proofs.Save.Parts
import Adventure.Proofs.Session.Scripts
import Adventure.World.Progress

/-!
# Progress comes back

Windows, scripts under way, the stage and all of progress are read from whatever comes back of
them, if the scripts are storable and every number has the width that it has on the wire: 32 bits
for numbers that are handed out in order, and 64 bits for positions in lists.
-/

namespace Adventure

open Wire Wire.Value

variable {m : Medium}

/-! ## Widths -/

structure Windows.Fits (ws : Windows) : Prop where
  next : ∀ w ∈ ws.next, w.interpreterId < 2 ^ 32
  balloons : ∀ w ∈ ws.balloons, w.interpreterId < 2 ^ 32
  choiceBalloons : ∀ w ∈ ws.choiceBalloons, w.interpreterId < 2 ^ 32
  choosingId : ws.choosingId < 2 ^ 32
  pickedRow : ws.pickedRow < 2 ^ 64
  chosen : ∀ p ∈ ws.chosen, p.1 < 2 ^ 32 ∧ p.2 < 2 ^ 64

instance (ws : Windows) : Decidable ws.Fits :=
  decidable_of_iff
    ((∀ w ∈ ws.next, w.interpreterId < 2 ^ 32) ∧ (∀ w ∈ ws.balloons, w.interpreterId < 2 ^ 32) ∧
      (∀ w ∈ ws.choiceBalloons, w.interpreterId < 2 ^ 32) ∧ ws.choosingId < 2 ^ 32 ∧
      ws.pickedRow < 2 ^ 64 ∧ ∀ p ∈ ws.chosen, p.1 < 2 ^ 32 ∧ p.2 < 2 ^ 64)
    ⟨fun ⟨next, balloons, choices, id, row, chosen⟩ => ⟨next, balloons, choices, id, row, chosen⟩,
      fun h => ⟨h.next, h.balloons, h.choiceBalloons, h.choosingId, h.pickedRow, h.chosen⟩⟩

def Wait.Fits : Wait → Prop
  | request id => id < 2 ^ 32
  | _ => True

instance (w : Wait) : Decidable w.Fits := by
  cases w <;> unfold Wait.Fits <;> infer_instance

def Pending.Fits : Pending → Prop
  | request id => id < 2 ^ 32
  | _ => True

instance (p : Pending) : Decidable p.Fits := by
  cases p <;> unfold Pending.Fits <;> infer_instance

structure Interpreter.Fits (i : Interpreter) : Prop where
  id : i.id < 2 ^ 32
  frames : ∀ f ∈ i.frames, f.index < 2 ^ 64
  wait : i.wait.Fits
  pending : ∀ p ∈ i.pending, p.Fits

instance (i : Interpreter) : Decidable i.Fits :=
  decidable_of_iff
    (i.id < 2 ^ 32 ∧ (∀ f ∈ i.frames, f.index < 2 ^ 64) ∧ i.wait.Fits ∧ ∀ p ∈ i.pending, p.Fits)
    ⟨fun ⟨id, frames, wait, pending⟩ => ⟨id, frames, wait, pending⟩,
      fun h => ⟨h.id, h.frames, h.wait, h.pending⟩⟩

structure Stage.Fits (s : Stage) : Prop where
  pages : ∀ e ∈ s.pages.entries, e.2 < 2 ^ 64
  interpreters : ∀ i ∈ s.interpreters, i.Fits
  routes : ∀ r ∈ s.routes, r.Fits

instance (s : Stage) : Decidable s.Fits :=
  decidable_of_iff
    ((∀ e ∈ s.pages.entries, e.2 < 2 ^ 64) ∧ (∀ i ∈ s.interpreters, i.Fits) ∧
      ∀ r ∈ s.routes, r.Fits)
    ⟨fun ⟨pages, interpreters, routes⟩ => ⟨pages, interpreters, routes⟩,
      fun h => ⟨h.pages, h.interpreters, h.routes⟩⟩

/-- Whether every number in progress has the width that it has on the wire. -/
structure Progress.Fits (p : Progress) : Prop where
  windows : p.windows.Fits
  stage : p.stage.Fits
  lastInterpreterId : p.lastInterpreterId < 2 ^ 32

instance (p : Progress) : Decidable p.Fits :=
  decidable_of_iff (p.windows.Fits ∧ p.stage.Fits ∧ p.lastInterpreterId < 2 ^ 32)
    ⟨fun ⟨windows, stage, id⟩ => ⟨windows, stage, id⟩,
      fun h => ⟨h.windows, h.stage, h.lastInterpreterId⟩⟩

/-! ## Windows -/

theorem writable_serial {plain : Bool} {depth n : Nat} (h : n < 2 ^ 32) :
    (encode n).Writable plain depth := writable_position (by omega)

instance : LawfulEnumeration WindowKind where
  ofLabel?_label a := by cases a <;> rfl

instance : LawfulEnumeration WindowState where
  ofLabel?_label a := by cases a <;> rfl

theorem Window.told {w : Window} (hid : w.interpreterId < 2 ^ 32) : Told m w :=
  fun v h => read_record h (.refl _) (by decide) fun f hf => by
    simp [hf.required "kind" w.kind rfl, hf.required "content" w.content rfl,
      hf.required "eventId" w.eventId rfl,
      hf.requiredBy "interpreterId" rfl (fun _ => serial?_of_retold hid),
      hf.required "state" w.state rfl, hf.required "count" w.count rfl,
      hf.withDefault "checked" w.checked false rfl]

theorem Window.writable {w : Window} (hid : w.interpreterId < 2 ^ 32) :
    (encode w).Writable false 1 :=
  writable_packed_record (by simp [writable_encode, writable_serial hid])

theorem Window.encode_ne_null (w : Window) : encode w ≠ .null := fun h => by cases h

theorem chosen?_of_retold {chosen : Option (Nat × Nat)} {v : Value}
    (hchosen : ∀ p ∈ chosen, p.1 < 2 ^ 32 ∧ p.2 < 2 ^ 64) (h : (encode chosen).Retold v) :
    chosen? m v = some chosen := by
  cases chosen with
  | none =>
    obtain rfl : v = .null := h
    rfl
  | some p =>
    obtain ⟨hid, hrow⟩ := hchosen p rfl
    obtain ⟨id, row⟩ := p
    change (Value.list [encode id, encode row]).Retold v at h
    simp only [Retold, RetoldItems] at h
    obtain ⟨_, ⟨id', _, hid', ⟨row', _, hrow', rfl, rfl⟩, rfl⟩, rfl⟩ := h
    simp only [chosen?, pair?, serial?_of_retold hid hid', told_position hrow row' hrow']

theorem Windows.told {ws : Windows} (h : ws.Fits) : Told m ws :=
  fun v hv => read_record hv (.refl _) (by decide) fun f hf => by
    simp [
      hf.withDefaultOf "nextBalloon" (told_option (fun w hw => Window.told (h.next w hw))
        Window.encode_ne_null) rfl,
      hf.withDefaultOf "balloons" (told_list fun w hw => Window.told (h.balloons w hw)) rfl,
      hf.withDefaultOf "choiceBalloons"
        (told_list fun w hw => Window.told (h.choiceBalloons w hw)) rfl,
      hf.withDefault "choosing" ws.choosing false rfl,
      hf.orElse "choosingInterpreterId" rfl (fun _ => serial?_of_retold h.choosingId),
      hf.withDefaultOf "chosenIndex" (told_position h.pickedRow) rfl,
      hf.withDefault "chosenBalloonWaitingCount" ws.pickedCount 0 rfl,
      hf.orElse "chosen" rfl (fun _ => chosen?_of_retold h.chosen)]

theorem Windows.writable {ws : Windows} (h : ws.Fits) : (encode ws).Writable false 3 := by
  have hnext : (encode ws.next).Writable false 2 :=
    writable_encode_option fun w hw => (Window.writable (h.next w hw)).mono (by decide)
  have hballoons : (encode ws.balloons).Writable false 2 :=
    writable_encode_list fun w hw => Window.writable (h.balloons w hw)
  have hchoices : (encode ws.choiceBalloons).Writable false 2 :=
    writable_encode_list fun w hw => Window.writable (h.choiceBalloons w hw)
  have hchosen : (encode ws.chosen).Writable false 2 := by
    refine writable_encode_option fun p hp => ?_
    obtain ⟨hid, hrow⟩ := h.chosen p hp
    exact writable_list (by simp [writable_serial hid, writable_position hrow])
  exact writable_packed_record (by
    simp [writable_encode, hnext, hballoons, hchoices, writable_serial h.choosingId,
      writable_position h.pickedRow, hchosen])

/-! ## Scripts under way -/

namespace Script.Storable

variable {script : Script}

theorem told (h : Storable script) : Told m script := by
  obtain ⟨depth, _, hscript⟩ := h
  exact told_list fun c hc => (Command.storableList_iff.1 hscript c hc).told

theorem writable (h : Storable script) : (encode script).Writable false (Json.maxDepth + 6) := by
  obtain ⟨depth, hdepth, hscript⟩ := h
  refine writable_encode_list fun c hc => ?_
  have hcommand := (Command.storableList_iff.1 hscript c hc).writable
  exact hcommand.anyway.mono (by omega)

end Script.Storable

instance : LawfulEnumeration InterpreterKind where
  ofLabel?_label a := by cases a <;> rfl

instance : LawfulEnumeration FrameKind where
  ofLabel?_label a := by cases a <;> rfl

theorem Frame.told {f : Frame} (hscript : Script.Storable f.commands) (hindex : f.index < 2 ^ 64) :
    Told m f :=
  fun v h => read_record h (.refl _) (by decide) fun g hg => by
    simp [hg.requiredOf "commands" hscript.told rfl,
      hg.requiredOf "index" (told_position hindex) rfl, hg.required "kind" f.kind rfl,
      hg.required "eventId" f.eventId rfl]

theorem Frame.writable {f : Frame} (hscript : Script.Storable f.commands)
    (hindex : f.index < 2 ^ 64) : (encode f).Writable false (Json.maxDepth + 7) :=
  writable_packed_record (by
    simp [writable_encode, hscript.writable, writable_position hindex])

/-- A case without fields comes back. -/
theorem bare?_of_retold {α : Type} {a : α} {fields : List (String × Value)} {v : Value}
    (h : (Value.record fields).Retold v) : bare? a v = some a := by
  rw [Value.record, Retold] at h
  obtain ⟨told, entries, _, _, rfl⟩ := h
  rfl

theorem Wait.told {w : Wait} (hw : w.Fits) : Told m w := by
  intro v h
  cases w with
  | frames count =>
    refine read_tagged h (by decide) (by simp) fun v' hv' => ?_
    exact read_record hv' (.refl _) (by decide) fun f hf => by
      simp [hf.required "count" count rfl]
  | request id =>
    refine read_tagged h (by decide) (by simp) fun v' hv' => ?_
    exact read_record hv' (.refl _) (by decide) fun f hf => by
      simp [hf.requiredBy "id" rfl (fun _ => serial?_of_retold hw)]
  | route character =>
    refine read_tagged h (by decide) (by simp) fun v' hv' => ?_
    exact read_record hv' (.refl _) (by decide) fun f hf => by
      simp [hf.required "character" character rfl]
  | picture id =>
    refine read_tagged h (by decide) (by simp) fun v' hv' => ?_
    exact read_record hv' (.refl _) (by decide) fun f hf => by
      simp [hf.required "id" id rfl]
  | opacity character =>
    refine read_tagged h (by decide) (by simp) fun v' hv' => ?_
    exact read_record hv' (.refl _) (by decide) fun f hf => by
      simp [hf.required "character" character rfl]
  | _ => exact read_tagged h (by decide) (by simp) fun v' hv' => bare?_of_retold hv'

theorem Wait.writable {w : Wait} (hw : w.Fits) : (encode w).Writable false 1 := by
  cases w with
  | request id =>
    exact writable_packed_record (by simp [Writable, writable_serial (show id < 2 ^ 32 from hw)])
  | _ => exact writable_packed_record (by simp [Writable, writable_encode])

theorem Pending.told {p : Pending} (hp : p.Fits) : Told m p := by
  intro v h
  cases p with
  | request id =>
    refine read_tagged h (by decide) (by simp) fun v' hv' => ?_
    exact read_record hv' (.refl _) (by decide) fun f hf => by
      simp [hf.requiredBy "id" rfl (fun _ => serial?_of_retold hp)]
  | _ => exact read_tagged h (by decide) (by simp) fun v' hv' => bare?_of_retold hv'

theorem Pending.writable {p : Pending} (hp : p.Fits) : (encode p).Writable false 1 := by
  cases p with
  | request id =>
    exact writable_packed_record (by simp [Writable, writable_serial (show id < 2 ^ 32 from hp)])
  | _ => exact writable_packed_record (by simp [Writable])

theorem Pending.encode_ne_null (p : Pending) : encode p ≠ .null := by
  cases p <;> exact fun h => by cases h

instance : Faithful m RouteState where
  told r v h := read_record h (.refl _) (by decide) fun f hf => by
    simp [hf.required "character" r.character rfl, hf.required "repeat" r.repeats rfl,
      hf.required "skip" r.skip rfl]

instance : Packable false RouteState 1 where
  writable r := writable_packed_record (by simp [writable_encode])

theorem RouteState.encode_ne_null (r : RouteState) : encode r ≠ .null := fun h => by cases h

instance : Faithful m (Option RouteState) := .option RouteState.encode_ne_null

theorem Interpreter.told {i : Interpreter} (h : i.Fits) (hscripts : i.Holds Script.Storable) :
    Told m i := by
  have hframes : Told m i.frames.reverse := told_list fun f hf =>
    Frame.told (hscripts f (List.mem_reverse.1 hf)) (h.frames f (List.mem_reverse.1 hf))
  have hpending : Told m i.pending :=
    told_option (fun p hp => Pending.told (h.pending p hp)) Pending.encode_ne_null
  exact fun v hv => read_record hv (.refl _) (by decide) fun f hf => by
    simp [hf.requiredBy "id" rfl (fun _ => serial?_of_retold h.id),
      hf.required "mapId" i.mapId rfl, hf.required "roomId" i.roomId rfl,
      hf.required "eventId" i.eventId rfl, hf.required "kind" i.kind rfl,
      hf.requiredOf "frames" hframes rfl, hf.withDefaultOf "wait" (Wait.told h.wait) rfl,
      hf.withDefaultOf "pending" hpending rfl, hf.withDefault "moveState" i.walk none rfl,
      hf.withDefault "route" i.route none rfl, hf.withDefault "terminated" i.terminated false rfl]

theorem Interpreter.writable {i : Interpreter} (h : i.Fits) (hscripts : i.Holds Script.Storable) :
    (encode i).Writable false (Json.maxDepth + 9) := by
  have hframes : (encode i.frames.reverse).Writable false (Json.maxDepth + 8) :=
    writable_encode_list fun f hf => Frame.writable (hscripts f (List.mem_reverse.1 hf))
      (h.frames f (List.mem_reverse.1 hf))
  have hwait : (encode i.wait).Writable false (Json.maxDepth + 8) :=
    (Wait.writable h.wait).mono (by decide)
  have hpending : (encode i.pending).Writable false (Json.maxDepth + 8) :=
    writable_encode_option fun p hp => (Pending.writable (h.pending p hp)).mono (by decide)
  exact writable_packed_record (by
    simp [writable_encode, writable_serial h.id, hframes, hwait, hpending])

/-! ## Stages -/

theorem Stage.told {s : Stage} (h : s.Fits) (hscripts : s.Holds Script.Storable) :
    Told .packed s := by
  have hpages : Told .packed s.pages := told_map fun e he => told_position (h.pages e he)
  have hinterpreters : Told .packed s.interpreters := told_list fun i hi =>
    Interpreter.told (h.interpreters i hi) (hscripts.interpreters i hi)
  have hroutes : Told .packed s.routes := told_list fun r hr =>
    Interpreter.told (h.routes r hr) (hscripts.routes r hr)
  exact fun v hv => read_record hv (.refl _) (by decide) fun f hf => by
    simp [hf.required "mapId" s.mapId rfl, hf.required "roomId" s.roomId rfl,
      hf.required "player" s.player rfl, hf.required "events" s.events rfl,
      hf.withDefaultOf "pageIndices" hpages rfl, hf.withDefaultOf "interpreters" hinterpreters rfl,
      hf.withDefaultOf "routeInterpreters" hroutes rfl,
      hf.withDefault "playerMove" s.playerWalk none rfl,
      hf.withDefault "playerMovingByUserInput" s.walkingToTap false rfl]

theorem Stage.writable {s : Stage} (h : s.Fits) (hscripts : s.Holds Script.Storable) :
    (encode s).Writable false (Json.maxDepth + 11) := by
  have hpages : (encode s.pages).Writable false (Json.maxDepth + 10) :=
    writable_encode_map (fun k => Packable.writable k) fun e he => writable_position (h.pages e he)
  have hinterpreters : (encode s.interpreters).Writable false (Json.maxDepth + 10) :=
    writable_encode_list fun i hi =>
      Interpreter.writable (h.interpreters i hi) (hscripts.interpreters i hi)
  have hroutes : (encode s.routes).Writable false (Json.maxDepth + 10) :=
    writable_encode_list fun r hr => Interpreter.writable (h.routes r hr) (hscripts.routes r hr)
  exact writable_packed_record (by simp [writable_encode, hpages, hinterpreters, hroutes])

/-! ## Progress -/

theorem Progress.told {p : Progress} (h : p.Fits) (hscripts : p.stage.Holds Script.Storable) :
    Told .packed p :=
  fun v hv => read_record hv (.refl _) (by decide) fun f hf => by
    simp [hf.withDefault "variables" p.memory .unset rfl,
      hf.withDefault "items" p.inventory .empty rfl, hf.withDefault "hints" p.hints .none rfl,
      hf.withDefault "screen" p.screen default rfl,
      hf.withDefaultOf "windows" (Windows.told h.windows) rfl,
      hf.withDefault "pictures" p.pictures default rfl,
      hf.requiredOf "map" (Stage.told h.stage hscripts) rfl,
      hf.orElse "lastInterpreterId" rfl (fun _ => serial?_of_retold h.lastInterpreterId),
      hf.withDefault "autosaveEnabled" p.autosaves true rfl,
      hf.withDefault "playerControlEnabled" p.playerControl true rfl,
      hf.orElse "playerSpeed" rfl (fun _ => speedOr?_of_retold),
      hf.withDefault "inventoryVisible" p.inventoryVisible false rfl,
      hf.withDefault "cleared" p.cleared false rfl,
      hf.withDefault "lastPlayingBgm" p.music none rfl,
      hf.withDefault "backgrounds" p.backgrounds .empty rfl,
      hf.withDefault "foregrounds" p.foregrounds .empty rfl]

theorem Progress.writable {p : Progress} (h : p.Fits) (hscripts : p.stage.Holds Script.Storable) :
    (encode p).Writable false MessagePack.maxDepth := by
  have hstage : (encode p.stage).Writable false (Json.maxDepth + 11) :=
    Stage.writable h.stage hscripts
  have hwindows : (encode p.windows).Writable false (Json.maxDepth + 11) :=
    (Windows.writable h.windows).mono (by decide)
  have hrecord : (encode p).Writable false (Json.maxDepth + 12) :=
    writable_packed_record (by
      simp [writable_encode, hstage, hwindows, writable_serial h.lastInterpreterId])
  exact hrecord.mono (by decide)

end Adventure
