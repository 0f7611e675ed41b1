import Adventure.Proofs.Ways.Walkers

/-!
# Characters keep apart

A character that slides keeps two tiles: the one it leaves and the one it comes to.  A step is made
only onto a tile that nobody keeps, so characters that block each other never come to share one, in
whatever order their walks and slides go on.
-/

namespace Adventure

namespace Stage

/-- Different characters have different ids, and no event has the id that stands for the player. -/
structure HasDistinctIds (s : Stage) : Prop where
  nodup : (s.characters.map (·.eventId)).Nodup
  others : playerId ∉ s.eventIds

/-- No two characters that block others keep the same tile. -/
def Spaced (s : Stage) : Prop :=
  ∀ (i j : Nat) (c d : Character), i ≠ j → s.characters[i]? = some c → s.characters[j]? = some d →
    c.blocks = true → d.blocks = true → ∀ t, c.occupies t = true → d.occupies t = false

/-- Between two moments, whoever sets out and does not pass everything does so for a tile of the
room that is no wall. -/
def SetsOutInside (project : Project) (s s' : Stage) : Prop :=
  ∀ (i : Nat) (c c' : Character), s.characters[i]? = some c → s'.characters[i]? = some c' →
    c.isMoving = false → c'.isMoving = true → c.through = false →
      ∃ room, s.room? project = some room ∧ room.contains c'.destination = true ∧
        room.hasWall project c'.destination = false

/-- What brings characters to other tiles: a frame of some walk, wherever it has come to, and a
frame of the room. -/
inductive Motion where
  | walk (w : Walk) (random : Random)
  | frame

def move (project : Project) (s : Stage) : Motion → Stage
  | .walk w random => (w.update project s random).2.1
  | .frame => s.updateCharacters

variable {s s' : Stage} {project : Project} {id : Int32} {c d : Character} {t : Tile}

/-! ## The characters after a change -/

/-- Characters at different places differ in what is different for all of them. -/
theorem place_eq_of_nodup {α : Type} {f : Character → α} {i j : Nat}
    (nodup : (s.characters.map f).Nodup) (hi : s.characters[i]? = some c)
    (hj : s.characters[j]? = some d) (heq : f c = f d) : i = j := by
  refine (List.getElem?_inj ?_ nodup).1 ?_
  · simpa using (List.getElem?_eq_some_iff.1 hi).1
  · simp [hi, hj, heq]

theorem ids_modifyCharacter {change : Character → Character} (steady : Character.Steady change)
    (s : Stage) (id : Int32) :
    (s.modifyCharacter id change).characters.map (·.eventId) = s.characters.map (·.eventId) := by
  have hevents := eventIds_modifyCharacter steady.eventId s id
  unfold modifyCharacter at hevents ⊢
  split
  · simp [characters, steady.eventId]
  · next hid => simpa [characters, eventIds, hid] using hevents

theorem ids_updateCharacters (s : Stage) :
    s.updateCharacters.characters.map (·.eventId) = s.characters.map (·.eventId) := by
  simp [characters, updateCharacters, Character.Steady.update.eventId]

theorem HasDistinctIds.of_ids (h : s.HasDistinctIds)
    (ids : s'.characters.map (·.eventId) = s.characters.map (·.eventId)) : s'.HasDistinctIds := by
  have hevents : s'.eventIds = s.eventIds := (List.cons.inj ids).2
  exact ⟨ids ▸ h.nodup, hevents ▸ h.others⟩

/-- Everybody else has another id. -/
theorem HasDistinctIds.eventId_ne (h : s.HasDistinctIds) {i j : Nat}
    (hi : s.characters[i]? = some c) (hid : (id = playerId ∧ i = 0) ∨ c.eventId = id) (hne : j ≠ i)
    (hj : s.characters[j]? = some d) : d.eventId ≠ id := by
  rcases hid with ⟨rfl, rfl⟩ | rfl
  · obtain ⟨k, rfl⟩ := Nat.exists_eq_succ_of_ne_zero hne
    intro heq
    exact h.others (heq ▸ List.mem_map_of_mem (List.mem_of_getElem? hj))
  · intro heq
    exact hne (place_eq_of_nodup h.nodup hj hi heq)

/-! ## Passage -/

theorem exists_room_of_canEnter {ignore : Bool} (h : s.canEnter project id ignore t = true) :
    ∃ room, s.room? project = some room ∧ room.contains t = true ∧
      ((s.character? id).any Character.through = true ∨ (room.hasWall project t = false ∧
        (ignore = true ∨ s.isOccupied id t = false))) := by
  unfold canEnter at h
  split at h
  · cases h
  · next room hroom =>
    refine ⟨room, hroom, ?_⟩
    simpa using h

/-- Whoever sets out for a tile that can be entered keeps apart from all others. -/
theorem not_occupies_of_canEnter (h : s.canEnter project id false t = true)
    (hc : s.character? id = some c) (hblocks : c.blocks = true) (hd : d ∈ s.characters)
    (hne : d.eventId ≠ id) (hother : d.blocks = true) : d.occupies t = false := by
  obtain ⟨_, -, -, hthrough | ⟨-, hignored | hfree⟩⟩ := exists_room_of_canEnter h
  · rw [hc] at hthrough
    simp only [Option.any_some] at hthrough
    simp [Character.blocks, hthrough] at hblocks
  · cases hignored
  · have hfree := List.any_eq_false.1 hfree d hd
    simpa [hne, hother] using hfree

/-! ## Spacing is kept -/

/-- Characters that stand on different tiles keep apart. -/
theorem spaced_of_standing (standing : ∀ c ∈ s.characters, c.isMoving = false)
    (apart : (s.characters.map (·.position)).Nodup) : s.Spaced := by
  have hstands : ∀ (i : Nat) c, s.characters[i]? = some c → ∀ t, c.occupies t = true →
      c.position = t := by
    intro i c hc t ht
    have hstanding := Character.destination_of_standing (standing c (List.mem_of_getElem? hc))
    simpa [Character.occupies, hstanding] using ht
  intro i j c d hne hc hd _ _ t ht
  refine Bool.eq_false_iff.2 fun hkeeps => hne (place_eq_of_nodup apart hc hd ?_)
  rw [hstands i c hc t ht, hstands j d hd t hkeeps]

/-- Where everybody keeps at most the tiles from before, all stay apart. -/
theorem Spaced.of_keeps_less (h : s.Spaced)
    (less : ∀ (i : Nat) (c' : Character), s'.characters[i]? = some c' →
      ∃ c, s.characters[i]? = some c ∧ c'.blocks = c.blocks ∧
        ∀ t, c'.occupies t = true → c.occupies t = true) : s'.Spaced := by
  intro i j c' d' hne hc' hd' hblocks hother t ht
  obtain ⟨c, hc, hcblocks, hckeeps⟩ := less i c' hc'
  obtain ⟨d, hd, hdblocks, hdkeeps⟩ := less j d' hd'
  have happart := h i j c d hne hc hd (hcblocks ▸ hblocks) (hdblocks ▸ hother) t (hckeeps t ht)
  refine Bool.eq_false_iff.2 fun hkeeps => ?_
  rw [hdkeeps t hkeeps] at happart
  cases happart

/-- A frame of a character gives up the tile that it has left. -/
theorem occupies_of_occupies_update (h : c.update.occupies t = true) : c.occupies t = true := by
  rw [Character.occupies_iff, c.destination_update] at h
  rw [Character.occupies_iff]
  rcases h with hposition | hdestination
  · rcases c.position_update with heq | heq
    · exact .inl (heq ▸ hposition)
    · exact .inr (heq ▸ hposition)
  · exact .inr hdestination

theorem Spaced.updateCharacters (h : s.Spaced) : s.updateCharacters.Spaced := by
  refine h.of_keeps_less fun i c' hc' => ?_
  have hmap : s.updateCharacters.characters = s.characters.map Character.update := rfl
  rw [hmap, List.getElem?_map, Option.map_eq_some_iff] at hc'
  obtain ⟨c, hc, rfl⟩ := hc'
  exact ⟨c, hc, Character.blocks_eq c.through_update (Character.Steady.update.priority c),
    fun t => occupies_of_occupies_update⟩

theorem Spaced.turn (h : s.Spaced) (hc : s.character? id = some c) (dir : Direction) :
    (s.modifyCharacter id fun c => c.turn dir).Spaced := by
  obtain ⟨k, hk, hmodify, -⟩ := exists_place hc
  refine h.of_keeps_less fun i c' hc' => ?_
  rw [hmodify, List.getElem?_modify] at hc'
  obtain ⟨d, hd, rfl⟩ := Option.map_eq_some_iff.1 hc'
  refine ⟨d, hd, ?_⟩
  split
  · have hpriority := (Character.Steady.turn fun _ => dir).priority d
    refine ⟨Character.blocks_eq (d.through_turn dir) hpriority, fun t ht => ?_⟩
    rwa [← Character.occupies_eq_of_gait (d.gait_turn dir)]
  · exact ⟨rfl, fun _ ht => ht⟩

/-- After a step, the tile left and the tile ahead are kept by nobody else. -/
theorem Spaced.apart_startMove (h : s.Spaced) (ids : s.HasDistinctIds)
    (hc : s.character? id = some c) {dir : Direction}
    (enters : s.canEnter project id false (c.position.step dir) = true) {k j : Nat}
    (hk : s.characters[k]? = some c) (hid : (id = playerId ∧ k = 0) ∨ c.eventId = id) (hne : j ≠ k)
    (hd : s.characters[j]? = some d) (hblocks : (c.startMove dir).blocks = true)
    (hother : d.blocks = true) (ht : (c.startMove dir).occupies t = true) :
    d.occupies t = false := by
  have hpriority := (Character.Steady.startMove dir).priority c
  have hmover : c.blocks = true := by
    rwa [← Character.blocks_eq (c.through_startMove dir) hpriority]
  rw [Character.occupies_iff, c.destination_startMove, Character.position_startMove] at ht
  rcases ht with rfl | rfl
  · exact h k j c d hne.symm hk hd hmover hother _ (Character.occupies_iff.2 (.inl rfl))
  · exact not_occupies_of_canEnter enters hc hmover (List.mem_of_getElem? hd)
      (ids.eventId_ne hk hid hne hd) hother

/-- A step onto a tile that nobody keeps. -/
theorem Spaced.startMove (h : s.Spaced) (ids : s.HasDistinctIds) (hc : s.character? id = some c)
    {dir : Direction} (enters : s.canEnter project id false (c.position.step dir) = true) :
    (s.modifyCharacter id fun c => c.startMove dir).Spaced := by
  obtain ⟨k, hk, hmodify, hid⟩ := exists_place hc
  intro i j c' d' hne hc' hd' hblocks hother t ht
  rw [hmodify, List.getElem?_modify] at hc' hd'
  obtain ⟨c₀, hc₀, rfl⟩ := Option.map_eq_some_iff.1 hc'
  obtain ⟨d₀, hd₀, rfl⟩ := Option.map_eq_some_iff.1 hd'
  -- the mover is the one character, the other, or neither
  by_cases hi : k = i
  · subst hi
    obtain rfl := Option.some.inj (hk.symm.trans hc₀)
    rw [if_pos rfl] at hblocks ht
    rw [if_neg hne] at hother ⊢
    exact h.apart_startMove ids hc enters hk hid hne.symm hd₀ hblocks hother ht
  · rw [if_neg hi] at hblocks ht
    by_cases hj : k = j
    · subst hj
      obtain rfl := Option.some.inj (hk.symm.trans hd₀)
      rw [if_pos rfl] at hother ⊢
      refine Bool.eq_false_iff.2 fun hkeeps => ?_
      rw [h.apart_startMove ids hc enters hk hid hne hc₀ hother hblocks hkeeps] at ht
      cases ht
    · rw [if_neg hj] at hother ⊢
      exact h i j c₀ d₀ hne hc₀ hd₀ hblocks hother t ht

/-! ## Motions -/

/-- All that a motion can do. -/
theorem move_cases (project : Project) (s : Stage) (m : Motion) :
    s.move project m = s ∨ s.move project m = s.updateCharacters ∨
      ∃ id c dir, s.character? id = some c ∧
        (s.move project m = (s.modifyCharacter id fun c => c.turn dir) ∨
          (s.canEnter project id false (c.position.step dir) = true ∧
            s.move project m = s.modifyCharacter id fun c => c.startMove dir)) := by
  cases m with
  | frame => exact .inr (.inl rfl)
  | walk w random =>
    dsimp only [move]
    have hframe := w.frame_update project s random
    generalize (w.update project s random).1 = w', (w.update project s random).2.1 = s' at hframe ⊢
    cases hframe with
    | waits => exact .inl rfl
    | ends => exact .inl rfl
    | steps tries enters =>
      exact .inr (.inr ⟨_, _, _, character?_of_characterIn? tries.present, .inr ⟨enters, rfl⟩⟩)
    | bumps tries =>
      exact .inr (.inr ⟨_, _, _, character?_of_characterIn? tries.present, .inl rfl⟩)

theorem ids_move (project : Project) (s : Stage) (m : Motion) :
    (s.move project m).characters.map (·.eventId) = s.characters.map (·.eventId) := by
  rcases move_cases project s m with heq | heq | ⟨id, c, dir, -, heq | ⟨-, heq⟩⟩ <;> rw [heq]
  · exact ids_updateCharacters s
  · exact ids_modifyCharacter (.turn fun _ => dir) s id
  · exact ids_modifyCharacter (.startMove dir) s id

/-- No motion brings characters together. -/
theorem Spaced.move (h : s.Spaced) (ids : s.HasDistinctIds) (m : Motion) :
    (s.move project m).Spaced := by
  rcases move_cases project s m with heq | heq | ⟨id, c, dir, hc, heq | ⟨enters, heq⟩⟩ <;> rw [heq]
  · exact h
  · exact h.updateCharacters
  · exact h.turn hc dir
  · exact h.startMove ids hc enters

/-- Whoever sets out has checked the tile ahead. -/
theorem setsOutInside_startMove (hc : s.character? id = some c) {dir : Direction}
    (enters : s.canEnter project id false (c.position.step dir) = true) :
    SetsOutInside project s (s.modifyCharacter id fun c => c.startMove dir) := by
  intro i c₀ c' hc₀ hc' hstanding hmoving hthrough
  obtain ⟨k, hk, hmodify, -⟩ := exists_place hc
  rw [hmodify, List.getElem?_modify, hc₀, Option.map_eq_map, Option.map_some] at hc'
  obtain rfl := Option.some.inj hc'
  by_cases hi : k = i
  · subst hi
    obtain rfl := Option.some.inj (hk.symm.trans hc₀)
    obtain ⟨room, hroom, hinside, hpassable⟩ := exists_room_of_canEnter enters
    rw [if_pos rfl, c.destination_startMove]
    refine ⟨room, hroom, hinside, (hpassable.resolve_left fun hpasses => ?_).1⟩
    simp [hc, hthrough] at hpasses
  · rw [if_neg hi, hstanding] at hmoving
    cases hmoving

/-- Nobody sets out where all stand and slide as before. -/
theorem setsOutInside_of_isMoving (h : ∀ (i : Nat) (c c' : Character), s.characters[i]? = some c →
    s'.characters[i]? = some c' → c.isMoving = false → c'.isMoving = false) :
    SetsOutInside project s s' := by
  intro i c c' hc hc' hstanding hmoving
  rw [h i c c' hc hc' hstanding] at hmoving
  cases hmoving

theorem setsOutInside_refl (s : Stage) : SetsOutInside project s s :=
  setsOutInside_of_isMoving fun _ _ _ hc hc' hstanding =>
    Option.some.inj (hc.symm.trans hc') ▸ hstanding

theorem setsOutInside_turn (hc : s.character? id = some c) (dir : Direction) :
    SetsOutInside project s (s.modifyCharacter id fun c => c.turn dir) := by
  refine setsOutInside_of_isMoving fun i c₀ c' hc₀ hc' hstanding => ?_
  obtain ⟨k, -, hmodify, -⟩ := exists_place hc
  rw [hmodify, List.getElem?_modify, hc₀, Option.map_eq_map, Option.map_some] at hc'
  obtain rfl := Option.some.inj hc'
  split
  · exact (Character.isMoving_eq_of_gait (c₀.gait_turn dir)).trans hstanding
  · exact hstanding

theorem setsOutInside_updateCharacters (s : Stage) :
    SetsOutInside project s s.updateCharacters := by
  refine setsOutInside_of_isMoving fun i c c' hc hc' hstanding => ?_
  have hmap : s.updateCharacters.characters = s.characters.map Character.update := rfl
  rw [hmap, List.getElem?_map, hc, Option.map_some] at hc'
  obtain rfl := Option.some.inj hc'
  exact (Character.isMoving_eq_of_gait (Character.gait_update_of_standing hstanding)).trans
    hstanding

theorem setsOutInside_move (project : Project) (s : Stage) (m : Motion) :
    SetsOutInside project s (s.move project m) := by
  rcases move_cases project s m with heq | heq | ⟨id, c, dir, hc, heq | ⟨enters, heq⟩⟩ <;> rw [heq]
  · exact setsOutInside_refl s
  · exact setsOutInside_updateCharacters s
  · exact setsOutInside_turn hc dir
  · exact setsOutInside_startMove hc enters

/-! ## A whole course of motions -/

theorem spaced_foldl_move (h : s.Spaced) (ids : s.HasDistinctIds) (motions : List Motion) :
    (motions.foldl (move project) s).Spaced := by
  induction motions generalizing s with
  | nil => exact h
  | cons m motions ih => exact ih (h.move ids m) (ids.of_ids (ids_move project s m))

/-- Whatever walks go on, and whichever frames pass between them, characters that kept apart at the
beginning still do, and nobody sets out next for a wall or for a place outside the room but those
who pass everything. -/
theorem keeps_apart_of_moves (project : Project) (s : Stage) (h : s.Spaced) (ids : s.HasDistinctIds)
    (motions : List Motion) :
    (motions.foldl (move project) s).Spaced ∧
      ∀ m : Motion, SetsOutInside project (motions.foldl (move project) s)
        ((motions.foldl (move project) s).move project m) :=
  ⟨spaced_foldl_move h ids motions, setsOutInside_move project _⟩

end Stage

/-! ### Two characters that meet -/

/-- The player and somebody else, at the two ends of the corridor. -/
def corridorEnds : Stage :=
  ⟨1, 1, .player 0 0 "" .fastest, [{ Character.ofEvent 5 3 0 with speed := .fastest }],
    .empty, [], [],
    none, false⟩

/-- Both walk towards each other for some frames. -/
def towardEachOther (frames : Nat) : List Stage.Motion :=
  let walk (id : Int32) (dir : Direction) : Walk :=
    .begin corridorEnds id ⟨.direction, dir, 3, 0, 0, .constant, false⟩ false [] 3
  (List.replicate frames
    [.walk (walk playerId .right) ⟨0, 0⟩, .walk (walk 5 .left) ⟨0, 0⟩, .frame]).flatten

/-- They stop face to face. -/
theorem corridorEnds_keep_apart :
    corridorEnds.Spaced ∧ corridorEnds.HasDistinctIds ∧
      let last := (towardEachOther 9).foldl (Stage.move .corridor) corridorEnds
      last.characters.map (·.position) = [⟨1, 0⟩, ⟨2, 0⟩] ∧ last.Spaced := by
  have hspaced : corridorEnds.Spaced := Stage.spaced_of_standing (by decide) (by decide)
  have hids : corridorEnds.HasDistinctIds := ⟨by decide, by decide⟩
  exact ⟨hspaced, hids, by decide +kernel,
    (Stage.keeps_apart_of_moves .corridor corridorEnds hspaced hids (towardEachOther 9)).1⟩

end Adventure
