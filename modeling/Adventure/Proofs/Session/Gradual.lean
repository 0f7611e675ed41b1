import Adventure.Proofs.Session.Succession

/-!
# Gradual changes from turn to turn

A script can wait for the tint, for a picture or for the opacity of a character.  These have parts
that go on once between two turns of the script: characters at the end of a tick, and the rest
before scripts run.  So a part that sets out is due after just as many turns as it has frames.
-/

namespace Adventure

variable {project : Project}

/-! ## Parts that arrive -/

namespace Interpolation

/-- Sets out, if there is a target. -/
def aim (p : Interpolation) (frames : UInt32) : Option Binary64 → Interpolation
  | none => p
  | some target => p.setTo target frames

/-- What has no target is at rest; what has one is to arrive in so many frames. -/
def IsDue (frames : Nat) : Option Binary64 → Interpolation → Prop
  | none, p => p.isAnimating = false
  | some target, p =>
    p.count.toNat = frames ∧ p.target = target ∧ (frames = 0 → p.current = target)

variable {p : Interpolation} {frames : Nat} {target? : Option Binary64}

theorem isAnimating_eq_false : p.isAnimating = false ↔ p.count.toNat = 0 := by
  rw [isAnimating, decide_eq_false_iff_not, gt_iff_lt, UInt32.lt_iff_toNat_lt]
  exact Nat.not_lt.trans Nat.le_zero

theorem toNat_pred {n : UInt32} (h : n ≠ 0) : (n - 1).toNat = n.toNat - 1 := by
  have hpos : n.toNat ≠ 0 := fun hzero => h (UInt32.toNat_inj.1 hzero)
  have hone : (1 : UInt32) ≤ n := UInt32.le_iff_toNat_le.2 (Nat.one_le_iff_ne_zero.2 hpos)
  exact UInt32.toNat_sub_of_le _ _ hone

theorem update_of_idle (h : p.isAnimating = false) : p.update = p := by
  rw [update, if_pos (UInt32.toNat_inj.1 (isAnimating_eq_false.1 h))]

theorem isDue_aim (h : p.isAnimating = false) (frames : UInt32) :
    IsDue frames.toNat target? (p.aim frames target?) := by
  cases target? with
  | none => exact h
  | some target =>
    by_cases hzero : frames = 0
    · rw [aim, setTo, if_pos hzero, hzero]
      exact ⟨rfl, rfl, fun _ => rfl⟩
    · rw [aim, setTo, if_neg hzero]
      exact ⟨rfl, rfl, fun hcount => absurd (UInt32.toNat_inj.1 hcount) hzero⟩

/-- Every frame brings the arrival closer, and the last one lands on the target. -/
theorem IsDue.update (h : IsDue frames target? p) : IsDue (frames - 1) target? p.update := by
  cases target? with
  | none => rwa [IsDue, update_of_idle h]
  | some target =>
    obtain ⟨hcount, rfl, harrived⟩ := h
    unfold Interpolation.update
    dsimp only
    split
    · next hzero =>
      obtain rfl : frames = 0 := by rw [← hcount, hzero]; rfl
      exact ⟨hcount, rfl, harrived⟩
    · next hpos =>
      have hless : (p.count - 1).toNat = frames - 1 := by
        rw [toNat_pred hpos, hcount]
      split
      · exact ⟨hless, rfl, fun _ => rfl⟩
      · next hmore =>
        refine ⟨hless, rfl, fun hlast => absurd ?_ hmore⟩
        exact UInt32.toNat_inj.1 (hless.trans hlast)

/-- All parts arrive in time. -/
def AllDue (frames : Nat) (targets : List (Option Binary64)) (parts : List Interpolation) : Prop :=
  List.Forall₂ (IsDue frames) targets parts

variable {targets : List (Option Binary64)} {parts : List Interpolation}

theorem allDue_aim (h : ∀ p ∈ parts, p.isAnimating = false)
    (length : targets.length = parts.length) (frames : UInt32) :
    AllDue frames.toNat targets (List.zipWith (aim · frames) parts targets) := by
  induction targets generalizing parts with
  | nil =>
    rw [List.zipWith_nil_right]
    exact .nil
  | cons target? targets ih =>
    cases parts with
    | nil => cases length
    | cons p parts =>
      obtain ⟨hfirst, hmore⟩ := List.forall_mem_cons.1 h
      exact .cons (isDue_aim hfirst frames) (ih hmore (Nat.succ.inj length))

theorem AllDue.update (h : AllDue frames targets parts) :
    AllDue (frames - 1) targets (parts.map Interpolation.update) := by
  induction h with
  | nil => exact .nil
  | cons first _ ih => exact .cons first.update ih

theorem AllDue.idle (h : AllDue 0 targets parts) : parts.any isAnimating = false := by
  induction h with
  | nil => rfl
  | @cons target? p _ _ first _ ih =>
    have hidle : p.isAnimating = false := by
      cases target? with
      | none => exact first
      | some target => exact isAnimating_eq_false.2 first.1
    rw [List.any_cons, hidle, ih]
    rfl

/-- Some part is on its way until all have arrived. -/
theorem AllDue.animating (h : AllDue (frames + 1) targets parts)
    (aims : targets.any Option.isSome = true) : parts.any isAnimating = true := by
  induction h with
  | nil => cases aims
  | @cons target? p _ _ first _ ih =>
    rw [List.any_cons, Bool.or_eq_true]
    cases target? with
    | none => exact .inr (ih aims)
    | some target =>
      refine .inl (Bool.of_not_eq_false fun hidle => ?_)
      rw [isAnimating_eq_false, first.1] at hidle
      cases hidle

end Interpolation

/-! ## What waits are for -/

/-- The parts of the tint. -/
def Tint.parts (t : Tint) : List Interpolation := [t.red, t.green, t.blue, t.gray]

/-- The parts of the picture. -/
def Picture.parts (p : Picture) : List Interpolation :=
  [p.x, p.y, p.scaleX, p.scaleY, p.angle, p.opacity] ++ p.tint.parts

/-- What the wait of a script is for: all of these parts have to come to rest.  A character only
counts in the room of the script. -/
def Wait.parts (wait : Wait) (mapId roomId : Int32) (f : Fixtures) : List Interpolation :=
  match wait with
  | .tint => f.screen.tint.parts
  | .picture id => ((f.pictures.get? id).map Picture.parts).getD []
  | .opacity character => (f.fading.opacity? mapId roomId character).toList
  | _ => []

/-- Other waits are for something else than gradual changes. -/
def Wait.IsForParts : Wait → Prop
  | .tint | .picture _ | .opacity _ => True
  | _ => False

theorem Tint.parts_update (t : Tint) : t.update.parts = t.parts.map Interpolation.update := rfl

theorem Tint.any_parts (t : Tint) : t.parts.any Interpolation.isAnimating = t.isAnimating := by
  simp [parts, isAnimating, Bool.or_assoc]

theorem Picture.any_parts (p : Picture) :
    p.parts.any Interpolation.isAnimating = p.isAnimating := by
  rw [parts, List.any_append, Tint.any_parts]
  simp [isAnimating, Bool.or_assoc]

namespace Pictures

variable (ps : Pictures) (id : UInt64)

theorem get?_modify (change : Picture → Picture) :
    (ps.modify id change).get? id = (ps.get? id).map change := by
  rw [get?, get?, modify, List.getElem?_modify]
  cases ps.slots[id.toNat]? with
  | none => rfl
  | some slot => simp

theorem get?_update : ps.update.get? id = (ps.get? id).map Picture.update := by
  rw [get?, get?, update, List.getElem?_map]
  cases ps.slots[id.toNat]? <;> rfl

end Pictures

namespace Character

variable (c : Character)

theorem opacity_animateStepping : c.animateStepping.opacity = c.opacity := by
  unfold animateStepping
  split <;> rfl

theorem opacity_animateWalking : c.animateWalking.opacity = c.opacity := by
  unfold animateWalking
  split
  · dsimp only
    split
    · rfl
    · split <;> rfl
  · rfl

theorem opacity_slide : c.slide.opacity = c.opacity := by
  unfold slide
  dsimp only
  split
  · split <;> rfl
  · rfl

theorem opacity_update : c.update.opacity = c.opacity.update := by
  unfold update
  dsimp only
  split
  · rw [opacity_slide, opacity_animateWalking, opacity_animateStepping]
  · rw [opacity_animateStepping]

end Character

theorem Stage.opacity?_updateCharacters (s : Stage) (mapId roomId id : Int32) :
    s.updateCharacters.fading.opacity? mapId roomId id =
      (s.fading.opacity? mapId roomId id).map Interpolation.update := by
  rw [opacity?_fading, opacity?_fading, characterIn?_updateCharacters, Option.map_map,
    Option.map_map]
  exact Option.map_congr fun c _ => c.opacity_update

theorem Wait.parts_opacity (character mapId roomId : Int32) (w : World) :
    (Wait.opacity character).parts mapId roomId w.fixtures =
      ((w.stage.characterIn? mapId roomId character).map (·.opacity)).toList :=
  congrArg Option.toList (w.stage.opacity?_fading mapId roomId character)

/-- A wait for parts is over when all of them are at rest. -/
theorem Interpreter.isWaitOver_of_isForParts {i : Interpreter} (h : i.wait.IsForParts)
    (s : Session) : i.isWaitOver s =
      !(i.wait.parts i.mapId i.roomId s.world.fixtures).any Interpolation.isAnimating := by
  unfold isWaitOver
  cases hwait : i.wait with
  | picture id =>
    show (!s.world.pictures.isAnimating id) =
      !(((s.world.pictures.get? id).map Picture.parts).getD []).any Interpolation.isAnimating
    unfold Pictures.isAnimating
    cases s.world.pictures.get? id with
    | none => rfl
    | some p => exact congrArg _ p.any_parts.symm
  | tint => exact congrArg (! ·) s.world.screen.tint.any_parts.symm
  | opacity character =>
    rw [Wait.parts_opacity]
    dsimp only
    cases s.world.stage.characterIn? i.mapId i.roomId character with
    | none => rfl
    | some c => simp
  | _ =>
    rw [hwait] at h
    exact h.elim

/-- Between a turn and the next one there is one frame of all parts: of characters at the end of a
tick, and of the tint and of pictures when the next one begins. -/
theorem Wait.parts_frame (wait : Wait) (mapId roomId : Int32) {w : World} {f : Fixtures}
    (h : wait.parts mapId roomId f =
      wait.parts mapId roomId { w.fixtures with fading := w.stage.updateCharacters.fading }) :
    wait.parts mapId roomId { f with screen := f.screen.update, pictures := f.pictures.update } =
      (wait.parts mapId roomId w.fixtures).map Interpolation.update := by
  cases wait with
  | tint =>
    replace h : f.screen.tint.parts = w.screen.tint.parts := h
    show f.screen.tint.update.parts = w.screen.tint.parts.map Interpolation.update
    rw [Tint.parts_update, h]
  | picture id =>
    replace h : ((f.pictures.get? id).map Picture.parts).getD [] =
      ((w.pictures.get? id).map Picture.parts).getD [] := h
    show ((f.pictures.update.get? id).map Picture.parts).getD [] =
      (((w.pictures.get? id).map Picture.parts).getD []).map Interpolation.update
    rw [← h, Pictures.get?_update]
    cases f.pictures.get? id <;> rfl
  | opacity character =>
    replace h : (f.fading.opacity? mapId roomId character).toList =
      (w.stage.updateCharacters.fading.opacity? mapId roomId character).toList := h
    show (f.fading.opacity? mapId roomId character).toList =
      (w.stage.fading.opacity? mapId roomId character).toList.map Interpolation.update
    rw [h, Stage.opacity?_updateCharacters]
    cases w.stage.fading.opacity? mapId roomId character <;> rfl
  | _ => rfl

/-- If nobody else touches them, parts have gone on by one frame when the script has its
next turn. -/
theorem Turn.Next.parts_eq {wait : Wait} {mapId roomId : Int32} {τ τ' : Turn project}
    (h : τ.Next (wait.parts mapId roomId) τ') :
    wait.parts mapId roomId τ'.found.world.fixtures =
      (wait.parts mapId roomId τ.left.2.world.fixtures).map Interpolation.update := by
  have hspares : ∀ parts, ∀ r ∈ Interpreter.commandsOfTurns project (τ.later ++ τ'.earlier),
      Interpreter.Keeps project (fun f => wait.parts mapId roomId f = parts) r :=
    fun parts r hr hkept => (h.commandsSpare r hr).trans hkept
  rw [commandsOfTurns_append] at hspares
  have hran := τ.kept_ran (fun r hr => hspares _ r (List.mem_append_left _ hr)) rfl
  have hafter : wait.parts mapId roomId τ.afterTick.world.fixtures = _ :=
    congrArg (wait.parts mapId roomId) (τ.session.fixtures_update τ.input project)
  have hhost := h.spares.trans hafter
  have hbefore : wait.parts mapId roomId
      (τ'.session.beforeScripts project τ'.input).world.fixtures = _ :=
    (congrArg _ (τ'.session.fixtures_beforeScripts τ'.input)).trans
      (wait.parts_frame mapId roomId hhost)
  rw [hran] at hbefore
  exact τ'.kept_found (fun r hr => hspares _ r (List.mem_append_right _ hr)) hbefore

end Adventure
