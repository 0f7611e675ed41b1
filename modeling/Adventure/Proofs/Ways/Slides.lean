import Mathlib.Data.List.Chain
import Adventure.Proofs.Ways.Walkers

/-!
# Where slides are drawn

A character that slides is drawn on its way from the middle of the lower edge of its tile to that of
the next one.  How far it has come follows from the frames that are left and from the frames that a
slide takes at the speed that the character has by now, which need not be the one that it set out
with.  So the character goes back wherever a new speed puts it back, and nowhere else.
-/

namespace Adventure

/-! ## Places in pixels -/

namespace Tile

/-- The middle of the lower edge. -/
def foot (t : Tile) : Int32 × Int32 := (t.x * tileSize + tileSize / 2, (t.y + 1) * tileSize)

/-- So many pixels from there in a direction. -/
def footAhead (t : Tile) (dir : Direction) (d : Int32) : Int32 × Int32 :=
  (t.foot.1 + dir.delta.1 * d, t.foot.2 + dir.delta.2 * d)

theorem foot_step (t : Tile) (dir : Direction) : (t.step dir).foot = t.footAhead dir tileSize := by
  refine Prod.ext ?_ ?_
  · show (t.x + dir.delta.1) * tileSize + tileSize / 2 =
      t.x * tileSize + tileSize / 2 + dir.delta.1 * tileSize
    grind
  · show (t.y + dir.delta.2 + 1) * tileSize = (t.y + 1) * tileSize + dir.delta.2 * tileSize
    grind

theorem footAhead_inj {t : Tile} {dir : Direction} {d d' : Int32}
    (h : t.footAhead dir d = t.footAhead dir d') : d = d' := by
  obtain ⟨hx, hy⟩ := Prod.mk.inj h
  cases dir <;> simp only [Direction.delta] at hx hy <;> grind

end Tile

/-! ## What becomes of a gait -/

/-- What can become of a gait from one moment to the next, where the character has a speed then. -/
inductive Gait.Next (g : Gait) (speed : Speed) : Gait → Prop where
  | stays : Next g speed g
  | setsOut (dir : Direction) (standing : g.isMoving = false) :
      Next g speed ⟨g.position, speed.frames, dir⟩
  | slides (moving : g.isMoving = true) : Next g speed g.slide

namespace Gait

variable {g g' : Gait} {speed : Speed}

theorem isMoving_iff : g.isMoving = true ↔ 0 < g.moveCount.toNat := by
  simp [isMoving, UInt32.lt_iff_toNat_lt]

/-- A slide that goes on leads the same way, and no more frames are left than before. -/
theorem Next.of_moving (h : g.Next speed g') (moving : g.isMoving = true)
    (goesOn : g'.isMoving = true) :
    g'.position = g.position ∧ g'.moveDir = g.moveDir ∧
      g'.moveCount.toNat ≤ g.moveCount.toNat := by
  cases h with
  | stays => exact ⟨rfl, rfl, le_rfl⟩
  | setsOut dir standing => exact absurd moving (by simp [standing])
  | slides =>
    unfold slide at goesOn ⊢
    split
    · next hlast => simp [hlast, isMoving] at goesOn
    · have hone : (1 : UInt32) ≤ g.moveCount := by
        have hcount := isMoving_iff.1 moving
        rw [UInt32.le_iff_toNat_le]
        exact hcount
      refine ⟨rfl, rfl, ?_⟩
      rw [UInt32.toNat_sub_of_le _ _ hone]
      exact Nat.sub_le _ _

/-- A slide ends on the tile that it leads to. -/
theorem Next.position_of_ends (h : g.Next speed g') (moving : g.isMoving = true)
    (ended : g'.isMoving = false) : g'.position = g.destination := by
  cases h with
  | stays => exact absurd moving (by simp [ended])
  | setsOut dir standing => exact absurd moving (by simp [standing])
  | slides =>
    have hdestination : g.slide.destination = g.slide.position := by simp [destination, ended]
    rw [← hdestination, destination_slide moving]

theorem Next.of_standing (h : g.Next speed g') (standing : g.isMoving = false)
    (moving : g'.isMoving = true) :
    g'.position = g.position ∧ g'.moveCount = speed.frames := by
  cases h with
  | stays => exact absurd moving (by simp [standing])
  | setsOut dir => exact ⟨rfl, rfl⟩
  | slides slid => exact absurd slid (by simp [standing])

end Gait

theorem Speed.frames_le_slowest (v : Speed) : v.frames.toNat ≤ slowest.frames.toNat := by
  cases v <;> decide

theorem Speed.frames_toNat_pos (v : Speed) : (0 : Int) < v.frames.toNat :=
  Int.natCast_pos.2 (UInt32.lt_iff_toNat_lt.1 v.frames_pos)

namespace Character

variable {c c' c'' c₀ : Character}

/-! ## How far a slide has come -/

/-- The pixels that a character has come on its way, as it is drawn. -/
def progress (c : Character) : Int :=
  (((c.speed.frames.toNat : Int) - c.moveCount.toNat) * 16).tdiv c.speed.frames.toNat

/-- No slide takes more frames than one at the slowest speed. -/
def IsWithinSlowest (c : Character) : Prop := c.moveCount.toNat ≤ Speed.slowest.frames.toNat

/-- Whether a character that slides is drawn on the way to the next tile: somewhere between the
middle of the lower edge of its tile and that of the next one, which is a tile further. -/
def IsDrawnBetween (c : Character) : Prop :=
  ∃ k : Nat, k ≤ 16 ∧ c.drawPosition = c.position.footAhead c.moveDir (Int32.ofNat k)

theorem drawPosition_of_standing (h : c.isMoving = false) : c.drawPosition = c.position.foot := by
  unfold drawPosition
  rw [h]
  rfl

theorem drawPosition_of_moving (moving : c.isMoving = true) (within : c.IsWithinSlowest) :
    c.drawPosition = c.position.footAhead c.moveDir (Int32.ofInt c.progress) := by
  have hwithin : c.moveCount.toNat ≤ 64 := within
  have hframes : c.speed.frames.toNat ≤ 64 := c.speed.frames_le_slowest
  have hpos := c.speed.frames_toNat_pos
  have hint : ∀ n : UInt32, n.toInt32 = Int32.ofInt n.toNat := fun n => by
    rw [Int32.ofInt_eq_ofNat, ← UInt32.toInt32_ofNat', UInt32.ofNat_toNat]
  have hprogress : (c.speed.frames.toInt32 - c.moveCount.toInt32) * tileSize /
      c.speed.frames.toInt32 = Int32.ofInt c.progress := by
    have hsize : tileSize = Int32.ofInt 16 := rfl
    have hmin : Int32.minValue.toInt = -2147483648 := rfl
    have hmax : Int32.maxValue.toInt = 2147483647 := rfl
    rw [hint, hint, hsize, ← Int32.ofInt_sub, ← Int32.ofInt_mul, ← Int32.ofInt_tdiv]
    · rfl
    all_goals omega
  simp only [drawPosition, if_pos moving, hprogress]
  rfl

theorem progress_le (c : Character) : c.progress ≤ 16 := by
  have hpos : (0 : Int) < c.speed.frames.toNat := c.speed.frames_toNat_pos
  have hall : c.progress ≤ ((c.speed.frames.toNat : Int) * 16).tdiv c.speed.frames.toNat :=
    Int.tdiv_le_tdiv hpos (by omega)
  rwa [Int.mul_tdiv_cancel_left _ (Int.ne_of_gt hpos)] at hall

theorem natAbs_progress_le (h : c.IsWithinSlowest) : c.progress.natAbs ≤ 1024 := by
  have hframes : c.speed.frames.toNat ≤ 64 := c.speed.frames_le_slowest
  have hcount : c.moveCount.toNat ≤ 64 := h
  refine (Int.natAbs_tdiv_le_natAbs _ _).trans ?_
  omega

/-- Whoever slides is on the way exactly if it has not come less than nowhere. -/
theorem isDrawnBetween_iff (moving : c.isMoving = true) (within : c.IsWithinSlowest) :
    c.IsDrawnBetween ↔ 0 ≤ c.progress := by
  have hle := c.progress_le
  have habs := natAbs_progress_le within
  unfold IsDrawnBetween
  rw [drawPosition_of_moving moving within]
  constructor
  · rintro ⟨k, hk, hdrawn⟩
    have hsame : (Int32.ofInt c.progress).toInt = (Int32.ofNat k).toInt :=
      congrArg Int32.toInt (Tile.footAhead_inj hdrawn)
    rw [Int32.toInt_ofInt_of_le (by omega) (by omega), Int32.toInt_ofNat_of_lt (by omega)] at hsame
    omega
  · intro h
    refine ⟨c.progress.toNat, by omega, ?_⟩
    rw [← Int32.ofInt_eq_ofNat, Int.toNat_of_nonneg h]

/-- This is so unless the frames that are left are many for the speed. -/
theorem progress_nonneg_iff (c : Character) :
    0 ≤ c.progress ↔ 16 * c.moveCount.toNat < 17 * c.speed.frames.toNat := by
  have hpos : (0 : Int) < c.speed.frames.toNat := c.speed.frames_toNat_pos
  unfold progress
  generalize hpixels : ((c.speed.frames.toNat : Int) - c.moveCount.toNat) * 16 = pixels
  rcases Int.lt_or_le pixels 0 with hlt | hge
  · have hback : pixels.tdiv c.speed.frames.toNat = -(-pixels / c.speed.frames.toNat) := by
      rw [← Int.tdiv_eq_ediv_of_nonneg (by omega), Int.neg_tdiv, Int.neg_neg]
    have hone := Int.ediv_lt_iff_lt_mul (a := -pixels) (b := 1) hpos
    rw [hback]
    omega
  · exact iff_of_true (Int.tdiv_nonneg hge (Int.le_of_lt hpos)) (by omega)

/-! ## From one moment to the next -/

/-- A character stays as it stood or slid. -/
structure Lingers (c c' : Character) : Prop where
  eventId : c'.eventId = c.eventId
  gait : c'.gait = c.gait

/-- What can become of a character from one moment to the next. -/
structure Goes (c c' : Character) : Prop where
  eventId : c'.eventId = c.eventId
  gait : c.gait.Next c'.speed c'.gait

theorem Lingers.refl (c : Character) : c.Lingers c := ⟨rfl, rfl⟩

theorem Lingers.trans (first : c.Lingers c') (more : c'.Lingers c'') : c.Lingers c'' :=
  ⟨more.eventId.trans first.eventId, more.gait.trans first.gait⟩

theorem Lingers.then_goes (first : c.Lingers c') (more : c'.Goes c'') : c.Goes c'' :=
  ⟨more.eventId.trans first.eventId, first.gait ▸ more.gait⟩

theorem Lingers.goes (h : c.Lingers c') : c.Goes c' := ⟨h.eventId, h.gait ▸ .stays⟩

/-! ## Slides -/

/-- The moments of a slide, after one in which the character stands. -/
structure IsSlide (c₀ : Character) (slide : List Character) : Prop where
  standing : c₀.isMoving = false
  moving : ∀ c ∈ slide, c.isMoving = true

/-- A slide is drawn on the way to the next tile, and never goes back. -/
structure IsDrawnOnward (slide : List Character) : Prop where
  between : ∀ c ∈ slide, c.IsDrawnBetween
  onward : slide.Pairwise fun c c' => c.progress ≤ c'.progress

/-- Where the speed is raised during a slide, this does not put the character back. -/
def IsNeverPutBack (slide : List Character) : Prop :=
  slide.IsChain fun c c' => c'.speed.frames < c.speed.frames → c.progress ≤ c'.progress

/-- A character is on its way from where another one stands. -/
structure OnWay (c₀ : Character) (dir : Direction) (c : Character) : Prop where
  moving : c.isMoving = true
  eventId : c.eventId = c₀.eventId
  position : c.position = c₀.position
  moveDir : c.moveDir = dir
  within : c.IsWithinSlowest

variable {dir : Direction}

/-- Whoever sets out has not come anywhere yet. -/
theorem Goes.onWay_of_standing (h : c₀.Goes c) (standing : c₀.isMoving = false)
    (moving : c.isMoving = true) : c₀.OnWay c.moveDir c ∧ c.progress = 0 := by
  obtain ⟨hposition, hcount⟩ := h.gait.of_standing standing moving
  replace hcount : c.moveCount = c.speed.frames := hcount
  refine ⟨⟨moving, h.eventId, hposition, rfl, ?_⟩, ?_⟩
  · rw [IsWithinSlowest, hcount]
    exact c.speed.frames_le_slowest
  · simp [progress, hcount]

theorem OnWay.goes (h : c₀.OnWay dir c) (goes : c.Goes c') (moving : c'.isMoving = true) :
    c₀.OnWay dir c' := by
  obtain ⟨hposition, hdir, hcount⟩ := goes.gait.of_moving h.moving moving
  exact ⟨moving, goes.eventId.trans h.eventId, Eq.trans hposition h.position,
    Eq.trans hdir h.moveDir, Nat.le_trans hcount h.within⟩

theorem tdiv_le_tdiv_of_mul_le {a b m n : Int} (hm : 0 < m) (hn : 0 < n) (h : a * n ≤ b * m) :
    a.tdiv m ≤ b.tdiv n :=
  calc a.tdiv m = (a * n).tdiv (m * n) := (Int.mul_tdiv_mul_of_pos_left a m hn).symm
    _ ≤ (b * m).tdiv (m * n) := Int.tdiv_le_tdiv (Int.mul_pos hm hn) h
    _ = (b * m).tdiv (n * m) := by rw [Int.mul_comm m n]
    _ = b.tdiv n := Int.mul_tdiv_mul_of_pos_left b n hm

/-- A character comes further with every frame, and a lower speed does not put it back. -/
theorem Goes.progress_le (h : c.Goes c') (moving : c.isMoving = true) (goesOn : c'.isMoving = true)
    (slower : c.speed.frames ≤ c'.speed.frames) : c.progress ≤ c'.progress := by
  obtain ⟨_, _, hcount⟩ := h.gait.of_moving moving goesOn
  replace hcount : c'.moveCount.toNat ≤ c.moveCount.toNat := hcount
  have hpos : (0 : Int) < c.speed.frames.toNat := c.speed.frames_toNat_pos
  have hpos' : (0 : Int) < c'.speed.frames.toNat := c'.speed.frames_toNat_pos
  have hleft : (c'.moveCount.toNat : Int) * c.speed.frames.toNat ≤
      c.moveCount.toNat * c'.speed.frames.toNat := by
    exact_mod_cast Nat.mul_le_mul hcount (UInt32.le_iff_toNat_le.1 slower)
  refine tdiv_le_tdiv_of_mul_le hpos hpos' ?_
  grind

theorem OnWay.forall {slide : List Character} (h : c₀.OnWay dir c)
    (goes : (c :: slide).IsChain Goes) (moving : ∀ d ∈ slide, d.isMoving = true) :
    ∀ d ∈ c :: slide, c₀.OnWay dir d := by
  induction slide generalizing c with
  | nil => exact fun d hd => List.mem_singleton.1 hd ▸ h
  | cons c' slide ih =>
    obtain ⟨hfirst, hmore⟩ := List.isChain_cons_cons.1 goes
    obtain ⟨hmoving, hothers⟩ := List.forall_mem_cons.1 moving
    exact List.forall_mem_cons.2 ⟨h, ih (h.goes hfirst hmoving) hmore hothers⟩

namespace IsSlide

variable {slide : List Character}

/-- A slide leads the same way all the time, and at first it has not come anywhere. -/
theorem onWay (h : c₀.IsSlide (c :: slide)) (goes : (c₀ :: c :: slide).IsChain Goes) :
    c.progress = 0 ∧ ∀ d ∈ c :: slide, c₀.OnWay c.moveDir d := by
  obtain ⟨hfirst, hmore⟩ := List.isChain_cons_cons.1 goes
  obtain ⟨hmoving, hothers⟩ := List.forall_mem_cons.1 h.moving
  obtain ⟨hstart, hzero⟩ := hfirst.onWay_of_standing h.standing hmoving
  exact ⟨hzero, hstart.forall hmore hothers⟩

theorem exists_onWay (h : c₀.IsSlide slide) (goes : (c₀ :: slide).IsChain Goes) :
    ∃ dir, ∀ c ∈ slide, c₀.OnWay dir c := by
  cases slide with
  | nil => exact ⟨.down, by simp⟩
  | cons c slide => exact ⟨c.moveDir, (h.onWay goes).2⟩

/-- Between raises of the speed a slide comes further anyway. -/
theorem onward (h : c₀.IsSlide slide) (goes : slide.IsChain Goes) (raised : IsNeverPutBack slide) :
    slide.Pairwise fun c c' => c.progress ≤ c'.progress := by
  refine List.IsChain.pairwise (List.isChain_iff_getElem.2 fun n hn => ?_)
  have hgoes := List.isChain_iff_getElem.1 goes n hn
  have hraised := List.isChain_iff_getElem.1 raised n hn
  have hmoving : ∀ (k : Nat) (hk : k < slide.length), slide[k].isMoving = true :=
    fun k hk => h.moving _ (List.getElem_mem hk)
  rcases UInt32.lt_or_le slide[n + 1].speed.frames slide[n].speed.frames with hfaster | hslower
  · exact hraised hfaster
  · exact hgoes.progress_le (hmoving n _) (hmoving (n + 1) hn) hslower

/-- A slide is drawn as it should be, exactly if raising the speed never puts the character back. -/
theorem isDrawnOnward_iff (h : c₀.IsSlide slide) (goes : (c₀ :: slide).IsChain Goes) :
    IsDrawnOnward slide ↔ IsNeverPutBack slide := by
  constructor
  · rintro ⟨_, honward⟩
    exact honward.isChain.imp fun c c' hle _ => hle
  · intro hraised
    have honward := h.onward goes.tail hraised
    refine ⟨fun c hc => ?_, honward⟩
    cases slide with
    | nil => cases hc
    | cons first slide =>
      obtain ⟨hzero, hway⟩ := h.onWay goes
      have hc' := hway c hc
      refine (isDrawnBetween_iff hc'.moving hc'.within).2 ?_
      rcases List.mem_cons.1 hc with rfl | hlater
      · exact Int.le_of_eq hzero.symm
      · exact hzero ▸ (List.pairwise_cons.1 honward).1 c hlater

end IsSlide

/-! ## What characters do -/

theorem lingers_turn (c : Character) (dir : Direction) : c.Lingers (c.turn dir) :=
  ⟨(Steady.turn fun _ => dir).eventId c, gait_turn c dir⟩

theorem lingers_setImage (c : Character) (image : CharacterImage) :
    c.Lingers (c.setImage image) := by
  unfold setImage
  dsimp only
  split <;> exact ⟨rfl, rfl⟩

theorem lingers_updateWithPage (c : Character) (page : Option Page) :
    c.Lingers (c.updateWithPage page) := by
  cases page <;> exact ⟨rfl, rfl⟩

theorem goes_startMove (standing : c.isMoving = false) (dir : Direction) :
    c.Goes (c.startMove dir) := by
  refine ⟨(Steady.startMove dir).eventId c, ?_⟩
  rw [gait_startMove, (Steady.startMove dir).speed c]
  exact .setsOut dir standing

theorem goes_update (c : Character) : c.Goes c.update := by
  refine ⟨Steady.update.eventId c, ?_⟩
  rw [gait_update]
  split
  · next hmoving => exact .slides hmoving
  · exact .stays

end Character

/-! ## Stages -/

namespace Stage

/-- What was at each place of the cast is in a relation to what is there now. -/
def Each (R : Character → Character → Prop) (s s' : Stage) : Prop :=
  ∀ k : Nat, Option.Rel R s.characters[k]? s'.characters[k]?

/-- All stay as they stood or slid. -/
def Lingers (s s' : Stage) : Prop := s.Each Character.Lingers s'

/-- The player has just entered a room: the events stand where the room has them. -/
structure IsEntered (project : Project) (s : Stage) : Prop where
  player : s.player.isMoving = false
  events : ∃ room, s.room? project = some room ∧
    s.events.map Character.gait = (eventsOf room).map Character.gait

/-- What can become of the cast from one moment to the next. -/
inductive Goes (project : Project) (s s' : Stage) : Prop where
  | on (each : s.Each Character.Goes s')
  | enters (entered : s'.IsEntered project)

variable {project : Project} {s s' s'' : Stage}

namespace Each

variable {R R' R'' : Character → Character → Prop}

theorem of_characters_eq (refl : ∀ c, R c c) (h : s'.characters = s.characters) : s.Each R s' := by
  intro k
  rw [h]
  cases s.characters[k]? with
  | none => exact .none
  | some c => exact .some (refl c)

theorem imp (h : s.Each R s') (imp : ∀ c c', R c c' → R' c c') : s.Each R' s' := by
  intro k
  have hk := h k
  revert hk
  generalize s.characters[k]? = c?, s'.characters[k]? = c'?
  rintro (hc | _)
  · exact .some (imp _ _ hc)
  · exact .none

theorem comp (h : s.Each R s') (h' : s'.Each R' s'')
    (comp : ∀ c c' c'', R c c' → R' c' c'' → R'' c c'') : s.Each R'' s'' := by
  intro k
  have hfirst := h k
  have hmore := h' k
  revert hfirst hmore
  generalize s.characters[k]? = c?, s'.characters[k]? = c'?, s''.characters[k]? = c''?
  rintro (hc | _) (hc' | _)
  · exact .some (comp _ _ _ hc hc')
  · exact .none

/-- At most the character at one place is changed. -/
theorem of_modify {i : Nat} {change : Character → Character}
    (modified : s'.characters = s.characters.modify i change)
    (here : ∀ c, s.characters[i]? = some c → R c (change c)) (refl : ∀ c, R c c) : s.Each R s' := by
  intro k
  rw [modified, List.getElem?_modify]
  cases hk : s.characters[k]? with
  | none => exact .none
  | some c =>
    refine .some ?_
    split
    · next heq => exact here c (heq ▸ hk)
    · exact refl c

end Each

/-! ### Lingering -/

theorem Lingers.of_characters_eq (h : s'.characters = s.characters) : s.Lingers s' :=
  Each.of_characters_eq Character.Lingers.refl h

theorem Lingers.refl (s : Stage) : s.Lingers s := .of_characters_eq rfl

theorem Lingers.trans (first : s.Lingers s') (more : s'.Lingers s'') : s.Lingers s'' :=
  first.comp more fun _ _ _ hc hc' => hc.trans hc'

theorem Lingers.goes (h : s.Lingers s') : s.Goes project s' := .on (h.imp fun _ _ hc => hc.goes)

theorem Lingers.then_goes (first : s.Lingers s') (more : s'.Goes project s'') :
    s.Goes project s'' := by
  cases more with
  | enters entered => exact .enters entered
  | on each => exact .on (first.comp each fun _ _ _ hc hc' => hc.then_goes hc')

theorem Lingers.gaits (h : s.Lingers s') :
    s'.characters.map Character.gait = s.characters.map Character.gait := by
  refine List.ext_getElem? fun k => ?_
  have hk := h k
  rw [List.getElem?_map, List.getElem?_map]
  revert hk
  generalize s.characters[k]? = c?, s'.characters[k]? = c'?
  rintro (hc | _)
  · exact congrArg some hc.gait
  · rfl

/-! ### Entering -/

/-- Nobody slides where the player has just entered. -/
theorem IsEntered.standing (h : s.IsEntered project) {c : Character} (mem : c ∈ s.characters) :
    c.isMoving = false := by
  rcases List.mem_cons.1 mem with rfl | hevent
  · exact h.player
  · obtain ⟨room, _, hevents⟩ := h.events
    have hgait : c.gait ∈ (eventsOf room).map Character.gait :=
      hevents ▸ List.mem_map_of_mem hevent
    simp only [eventsOf, List.map_map, List.mem_map] at hgait
    obtain ⟨e, _, he⟩ := hgait
    exact Character.isMoving_eq_of_gait he.symm

theorem IsEntered.lingers (h : s.IsEntered project) (lingers : s.Lingers s')
    (room : s'.room? project = s.room? project) : s'.IsEntered project := by
  obtain ⟨hplayer, hevents⟩ := List.cons.inj lingers.gaits
  obtain ⟨r, hr, hr'⟩ := h.events
  have hstanding := (Character.isMoving_eq_of_gait hplayer).trans h.player
  exact ⟨hstanding, r, room.trans hr, hevents.trans hr'⟩

theorem isEntered_transfer {roomId : Int32} {t : Tile} {dir : Option Direction}
    (h : s.transfer project roomId t dir = .ok s') : s'.IsEntered project := by
  unfold transfer at h
  split at h
  · cases h
  · next room hroom =>
    obtain rfl := Except.ok.inj h
    refine ⟨?_, room, hroom, rfl⟩
    cases dir with
    | none => rfl
    | some d => exact Character.isMoving_eq_of_gait ((s.player.teleport t).gait_turn d)

/-! ### What is at a place -/

/-- Whoever slides was there the moment before. -/
theorem Goes.exists_goes (h : s.Goes project s') {k : Nat} {c' : Character}
    (here : s'.characters[k]? = some c') (moving : c'.isMoving = true) :
    ∃ c, s.characters[k]? = some c ∧ c.Goes c' := by
  cases h with
  | enters entered =>
    have hstanding := entered.standing (List.mem_of_getElem? here)
    exact absurd moving (by simp [hstanding])
  | on each =>
    have hk := each k
    rw [here] at hk
    generalize s.characters[k]? = c? at hk ⊢
    obtain (hc | _) := hk
    exact ⟨_, rfl, hc⟩

/-- A slide ends where it leads to, unless the player enters a room. -/
theorem Goes.drawPosition_of_ends (h : s.Goes project s') {k : Nat} {c c' : Character}
    (before : s.characters[k]? = some c) (here : s'.characters[k]? = some c')
    (moving : c.isMoving = true) (ended : c'.isMoving = false) :
    c'.drawPosition = c.position.footAhead c.moveDir tileSize ∨ s'.IsEntered project := by
  cases h with
  | enters entered => exact .inr entered
  | on each =>
    have hk := each k
    rw [before, here] at hk
    obtain (hc | _) := hk
    have hposition : c'.position = c.destination := hc.gait.position_of_ends moving ended
    rw [Character.drawPosition_of_standing ended, hposition, Character.destination_of_moving moving,
      Tile.foot_step]
    exact .inl rfl

/-! ### Changes of characters -/

theorem lingers_modifyCharacter (s : Stage) (id : Int32) {change : Character → Character}
    (h : ∀ c : Character, c.Lingers (change c)) : s.Lingers (s.modifyCharacter id change) := by
  obtain ⟨i, hi⟩ : ∃ i : Nat,
      (s.modifyCharacter id change).characters = s.characters.modify i change := by
    by_cases hid : id = playerId
    · exact ⟨0, by simp [modifyCharacter, characters, hid]⟩
    · exact ⟨s.eventIds.idxOf id + 1,
        by simp [modifyCharacter, characters, hid, modifyEvent_eq, eventIds]⟩
  exact Each.of_modify hi (fun c _ => h c) Character.Lingers.refl

theorem goes_updateCharacters (s : Stage) : s.Goes project s.updateCharacters := by
  refine .on fun k => ?_
  have hmap : s.updateCharacters.characters = s.characters.map Character.update := rfl
  rw [hmap, List.getElem?_map]
  cases s.characters[k]? with
  | none => exact .none
  | some c => exact .some c.goes_update

theorem goes_startMove {id : Int32} {c : Character} (h : s.character? id = some c)
    (standing : c.isMoving = false) (dir : Direction) :
    s.Goes project (s.modifyCharacter id fun c => c.startMove dir) := by
  obtain ⟨i, hi, hmodify, _⟩ := exists_place h
  refine .on (Each.of_modify (hmodify _) (fun d hd => ?_) fun d => (Character.Lingers.refl d).goes)
  obtain rfl : c = d := Option.some.inj (hi.symm.trans hd)
  exact Character.goes_startMove standing dir

end Stage

/-! ## Frames of a walk -/

namespace Walk

variable (w : Walk) (project : Project) (s : Stage) (random : Random)

theorem goes_update : s.Goes project (w.update project s random).2.1 := by
  have hframe := w.frame_update project s random
  generalize (w.update project s random).1 = w', (w.update project s random).2.1 = s' at hframe ⊢
  cases hframe with
  | waits => exact (Stage.Lingers.refl s).goes
  | ends => exact (Stage.Lingers.refl s).goes
  | steps tries =>
    exact Stage.goes_startMove (Stage.character?_of_characterIn? tries.present) tries.standing _
  | bumps => exact (s.lingers_modifyCharacter _ fun c => c.lingers_turn _).goes

/-- With the last frame of a walk nobody sets out. -/
theorem lingers_of_isOver
    (h : (w.update project s random).1.isOver (w.update project s random).2.1 = true) :
    s.Lingers (w.update project s random).2.1 := by
  have hframe := w.frame_update project s random
  generalize (w.update project s random).1 = w', (w.update project s random).2.1 = s' at h hframe ⊢
  cases hframe with
  | waits => exact .refl s
  | ends => exact .refl s
  | bumps => exact s.lingers_modifyCharacter _ fun c => c.lingers_turn _
  | @steps c dir tries =>
    have hwalk : w.settle.mapId = w.mapId ∧ w.settle.roomId = w.roomId := by
      unfold settle
      split <;> exact ⟨rfl, rfl⟩
    have hpresent : (s.modifyCharacter w.eventId fun c => c.startMove dir).characterIn? w.mapId
        w.roomId w.eventId = (s.characterIn? w.mapId w.roomId w.eventId).map (·.startMove dir) :=
      Stage.characterIn?_modifyCharacter (Character.Steady.startMove dir).eventId _ _
    rw [tries.present] at hpresent
    simp [isOver, hwalk, settle_eventId, hpresent, Character.isMoving_startMove] at h

end Walk

end Adventure
