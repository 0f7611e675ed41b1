import Adventure.Proofs.Session.Course

/-!
# Events without a page

An event that stops to show a page becomes a placeholder, which blocks nobody.  An event that enters
the room without a page is none yet: it has the looks of a new character, and it stands in the way
until it has shown a page or a script lets it pass through.
-/

namespace Adventure

namespace Stage

/-- Whether pages change the looks of the event at a position of the list: it is the first one with
its id, and the id is not the player's. -/
def ShowsPages (s : Stage) (k : Nat) (id : Int32) : Prop :=
  id ≠ playerId ∧ s.eventIds.idxOf id = k

/-- The looks of events, given those that have shown a page since the player entered the room. -/
structure Dressed (s : Stage) (shown : List Int32) : Prop where
  unseen : ∀ id, id ∉ shown → s.pageIndex? id = none
  fresh : ∀ k c, s.events[k]? = some c → ¬ (c.eventId ∈ shown ∧ s.ShowsPages k c.eventId) →
    c.priority = .same
  placeholder : ∀ k c, s.events[k]? = some c → c.eventId ∈ shown → s.ShowsPages k c.eventId →
    s.pageIndex? c.eventId = none → c.priority = .below

variable {s s' : Stage} {shown : List Int32}

/-- What keeps the ids, the levels and the pages of events keeps their looks. -/
theorem Dressed.of_similar (h : s.Dressed shown) (hpages : s'.pages = s.pages)
    (hevents : ∀ (k : Nat) (c' : Character), s'.events[k]? = some c' → ∃ c, s.events[k]? = some c ∧
      c'.eventId = c.eventId ∧ c'.priority = c.priority)
    (hids : s'.eventIds = s.eventIds) : s'.Dressed shown := by
  have hindex : ∀ id, s'.pageIndex? id = s.pageIndex? id := by
    intro id
    simp only [pageIndex?, hpages]
  have hshows : ∀ k id, s'.ShowsPages k id ↔ s.ShowsPages k id := by
    intro k id
    simp only [ShowsPages, hids]
  refine ⟨fun id hid => (hindex id).trans (h.unseen id hid), ?_, ?_⟩
  · intro k c' hc' hnot
    obtain ⟨c, hc, hid, hpriority⟩ := hevents k c' hc'
    rw [hshows, hid] at hnot
    exact hpriority.trans (h.fresh k c hc hnot)
  · intro k c' hc' hshown hfirst hnone
    obtain ⟨c, hc, hid, hpriority⟩ := hevents k c' hc'
    rw [hid] at hshown hfirst hnone
    rw [hshows] at hfirst
    rw [hindex] at hnone
    exact hpriority.trans (h.placeholder k c hc hshown hfirst hnone)

/-- What can be said of the events after one of them was changed. -/
theorem getElem?_modifyCharacter {change : Character → Character} (s : Stage) (id : Int32)
    {k : Nat} {c' : Character} (hc' : (s.modifyCharacter id change).events[k]? = some c') :
    ∃ c, s.events[k]? = some c ∧ (c' = c ∨ (c' = change c ∧ s.ShowsPages k id)) := by
  unfold modifyCharacter at hc'
  split at hc'
  · exact ⟨c', hc', .inl rfl⟩
  · next hid =>
    rw [modifyEvent_eq, List.getElem?_modify] at hc'
    cases hc : s.events[k]? with
    | none => simp [hc] at hc'
    | some c =>
      refine ⟨c, rfl, ?_⟩
      simp only [hc, Option.map_eq_map, Option.map_some, Option.some.injEq] at hc'
      split at hc'
      · next hk => exact .inr ⟨hc'.symm, hid, hk⟩
      · exact .inl hc'.symm

/-- The event that a change reaches is changed. -/
theorem getElem?_modifyCharacter_self {change : Character → Character} (s : Stage) {id : Int32}
    {k : Nat} {c : Character} (hc : s.events[k]? = some c) (hk : s.ShowsPages k id) :
    (s.modifyCharacter id change).events[k]? = some (change c) := by
  obtain ⟨hid, hfirst⟩ := hk
  unfold modifyCharacter
  rw [if_neg hid]
  show (modifyEvent id change s.events)[k]? = some (change c)
  rw [modifyEvent_eq, List.getElem?_modify]
  simp only [eventIds] at hfirst
  simp [hc, hfirst]

theorem Dressed.modifyCharacter (h : s.Dressed shown) (id : Int32)
    {change : Character → Character} (heventId : ∀ c, (change c).eventId = c.eventId)
    (hpriority : ∀ c, (change c).priority = c.priority) :
    (s.modifyCharacter id change).Dressed shown := by
  have hpages : (s.modifyCharacter id change).pages = s.pages := by
    unfold Stage.modifyCharacter
    split <;> rfl
  refine h.of_similar hpages ?_ (eventIds_modifyCharacter heventId s id)
  intro k c' hc'
  obtain ⟨c, hc, rfl | ⟨rfl, _⟩⟩ := getElem?_modifyCharacter s id hc'
  · exact ⟨_, hc, rfl, rfl⟩
  · exact ⟨c, hc, heventId c, hpriority c⟩

theorem Dressed.updateCharacters (h : s.Dressed shown) : s.updateCharacters.Dressed shown := by
  have hupdate := Character.Steady.update
  refine h.of_similar rfl ?_ ?_
  · intro k c' hc'
    simp only [Stage.updateCharacters, List.getElem?_map, Option.map_eq_some_iff] at hc'
    obtain ⟨c, hc, rfl⟩ := hc'
    exact ⟨c, hc, hupdate.eventId c, hupdate.priority c⟩
  · simp only [eventIds, Stage.updateCharacters, List.map_map]
    exact List.map_congr_left fun c _ => hupdate.eventId c

/-- New events look as they are made, and show nothing. -/
theorem dressed_eventsOf (room : Room) (hevents : s.events = eventsOf room)
    (hpages : s.pages = .empty) : s.Dressed [] := by
  refine ⟨fun id _ => ?_, ?_, ?_⟩
  · simp only [pageIndex?, hpages]
    rfl
  · intro k c hc _
    have hmem : c ∈ eventsOf room := hevents ▸ List.mem_of_getElem? hc
    obtain ⟨e, _, rfl⟩ := List.mem_map.1 hmem
    rfl
  · intro k c _ hshown
    cases hshown

theorem Dressed.congr {shown' : List Int32} (h : s.Dressed shown)
    (hmem : ∀ id, id ∈ shown ↔ id ∈ shown') : s.Dressed shown' := by
  refine ⟨fun id hid => h.unseen id (hid ∘ (hmem id).1), ?_, ?_⟩
  · intro k c hc hnot
    refine h.fresh k c hc fun hyes => hnot ⟨(hmem _).1 hyes.1, hyes.2⟩
  · intro k c hc hshown
    exact h.placeholder k c hc ((hmem _).2 hshown)

theorem ShowsPages.eventId {k : Nat} {id : Int32} {c : Character} (h : s.ShowsPages k id)
    (hc : s.events[k]? = some c) : c.eventId = id := by
  have hk : s.eventIds[k]? = some c.eventId := by simp [eventIds, hc]
  obtain ⟨hlt, hget⟩ := List.getElem?_eq_some_iff.1 hk
  rw [← hget]
  have hfirst := h.2
  subst hfirst
  exact List.getElem_idxOf hlt

/-- Another page of one event, with the change of looks that comes with it. -/
theorem Dressed.setPage (h : s.Dressed shown) {id : Int32} {index : Option Nat}
    (hnew : s.pageIndex? id ≠ index) {pages : SortedMap Int32 Nat}
    (hself : pages.find? id = index) (hothers : ∀ other, other ≠ id →
      pages.find? other = s.pages.find? other) {change : Character → Character}
    (heventId : ∀ c, (change c).eventId = c.eventId)
    (hplain : index = none → ∀ c, (change c).priority = .below) :
    (({ s with pages } : Stage).modifyCharacter id change).Dressed
      ((Mark.page id index).shown shown) := by
  have hpages : (({ s with pages } : Stage).modifyCharacter id change).pages = pages := by
    unfold Stage.modifyCharacter
    split <;> rfl
  have hids : (({ s with pages } : Stage).modifyCharacter id change).eventIds = s.eventIds :=
    eventIds_modifyCharacter heventId _ id
  have hmem : ∀ other, other ∈ (Mark.page id index).shown shown ↔
      other ∈ shown ∨ (other = id ∧ index ≠ none) := by
    intro other
    cases index with
    | none => simp [Mark.shown]
    | some i => simp [Mark.shown, or_comm]
  -- an event that stops to show a page has shown one
  have hleft : index = none → id ∈ shown := by
    rintro rfl
    by_cases hid : id ∈ shown
    · exact hid
    · exact absurd (h.unseen id hid) hnew
  refine ⟨?_, ?_, ?_⟩
  · intro other hother
    rw [hmem] at hother
    simp only [pageIndex?, hpages]
    by_cases hid : other = id
    · subst hid
      rw [hself]
      by_cases hnone : index = none
      · exact hnone
      · exact absurd (.inr ⟨rfl, hnone⟩) hother
    · rw [hothers other hid]
      exact h.unseen other fun hyes => hother (.inl hyes)
  · intro k c' hc' hnot
    simp only [ShowsPages, hids, hmem] at hnot
    obtain ⟨c, hc, rfl | ⟨rfl, hshows⟩⟩ := getElem?_modifyCharacter _ id hc'
    · exact h.fresh k _ hc fun hyes => hnot ⟨.inl hyes.1, hyes.2⟩
    · have hid : c.eventId = id := ShowsPages.eventId (s := s) hshows hc
      rw [heventId, hid] at hnot
      by_cases hnone : index = none
      · exact absurd ⟨.inl (hleft hnone), hshows⟩ hnot
      · exact absurd ⟨.inr ⟨rfl, hnone⟩, hshows⟩ hnot
  · intro k c' hc' hshown hshows hnone
    simp only [ShowsPages, hids] at hshows
    simp only [pageIndex?, hpages] at hnone
    rw [hmem] at hshown
    by_cases hid : c'.eventId = id
    · rw [hid, hself] at hnone
      rw [hid] at hshows
      obtain ⟨c, hc, _⟩ := getElem?_modifyCharacter _ id hc'
      rw [getElem?_modifyCharacter_self { s with pages } hc hshows] at hc'
      obtain rfl := Option.some.inj hc'
      exact hplain hnone c
    · obtain ⟨c, hc, rfl | ⟨rfl, hself'⟩⟩ := getElem?_modifyCharacter _ id hc'
      · rw [hothers _ hid] at hnone
        rcases hshown with hshown | ⟨heq, _⟩
        · exact h.placeholder k _ hc hshown hshows hnone
        · exact absurd heq hid
      · exact absurd ((heventId c).trans (ShowsPages.eventId (s := s) hself' hc)) hid

theorem Dressed.showPage (h : s.Dressed shown) (project : Project) (id : Int32)
    (index : Option Nat) :
    (s.showPage project id index).Dressed ((Mark.page id index).shown shown) := by
  have hupdate : ∀ page, ∀ c : Character, (c.updateWithPage page).eventId = c.eventId := by
    intro page c
    cases page <;> rfl
  unfold Stage.showPage
  split
  · next hsame =>
    cases index with
    | none => exact h
    | some i =>
      have hid : id ∈ shown := by
        by_cases hmem : id ∈ shown
        · exact hmem
        · rw [h.unseen id hmem] at hsame
          cases hsame
      refine h.congr fun other => ?_
      simp only [Mark.shown, List.mem_cons]
      exact ⟨.inr, fun hor => hor.elim (fun heq => heq ▸ hid) fun hmem => hmem⟩
  · next hnew =>
    cases index with
    | none =>
      refine h.setPage hnew (SortedMap.find?_erase_self s.pages id)
        (fun other hne => SortedMap.find?_erase_of_ne s.pages hne) (hupdate _) fun _ c => ?_
      have hnone : ({ s with pages := s.pages.erase id } : Stage).page? project id = none := by
        simp [page?, pageIndex?]
      simp only [hnone]
      rfl
    | some i =>
      exact h.setPage hnew (SortedMap.find?_insert_self s.pages id i)
        (fun other hne => SortedMap.find?_insert_of_ne s.pages hne i) (hupdate _)
        fun hnone => by cases hnone

/-- The events of a room that the player comes to. -/
theorem dressed_transfer {project : Project} {roomId : Int32} {t : Tile} {dir : Option Direction}
    (h : s.transfer project roomId t dir = .ok s') : s'.Dressed [] := by
  unfold transfer at h
  split at h
  · cases h
  · next room _ =>
    obtain rfl := Except.ok.inj h
    exact dressed_eventsOf room rfl rfl

end Stage

/-! ## Courses -/

variable {project : Project}

theorem World.changeSpeed_stage (w : World) (id : Int32) (speed : Speed) :
    (w.changeSpeed id speed).stage = w.stage.modifyCharacter id fun c =>
      c.change (.speed speed) := by
  unfold World.changeSpeed
  split <;> rfl

/-- Along the course of a game, events look according to the pages that they have shown. -/
theorem World.Course.dressed {w : World} {shown : List Int32} (h : World.Course project w shown) :
    w.stage.Dressed shown := by
  induction h with
  | enter seed entered =>
    unfold Stage.enter at entered
    split at entered
    · cases entered
    · next room _ =>
      obtain rfl := Except.ok.inj entered
      exact Stage.dressed_eventsOf room rfl rfl
  | change _ change ih =>
    cases change with
    | aside _ scene =>
      refine ih.of_similar scene.pages ?_ (congrArg (List.map Character.eventId) scene.events)
      intro k c hc
      exact ⟨c, scene.events ▸ hc, rfl, rfl⟩
    | character w id steady => exact ih.modifyCharacter id steady.eventId steady.priority
    | speed w id speed =>
      rw [World.changeSpeed_stage]
      exact ih.modifyCharacter id (fun _ => rfl) fun _ => rfl
    | frame w => exact ih.updateCharacters
    | page w index _ => exact ih.showPage project _ index
    | enter w entered => exact Stage.dressed_transfer entered

/-- An event without a page blocks nobody exactly if it has shown a page since the player entered
the room, or else passes through everything.  Of several events with one id only the first counts
as one that shows pages. -/
theorem Session.Reachable.blocks_eq_false_iff {s : Session} (h : Session.Reachable project s) :
    (∃ shown, World.Course project s.world shown) ∧
      ∀ shown, World.Course project s.world shown → ∀ (k : Nat) (c : Character),
        s.world.stage.events[k]? = some c → s.world.stage.pageIndex? c.eventId = none →
        (c.blocks = false ↔
          (c.eventId ∈ shown ∧ s.world.stage.ShowsPages k c.eventId) ∨ c.through = true) := by
  refine ⟨h.exists_course, fun shown hcourse k c hc hnone => ?_⟩
  have hdressed := hcourse.dressed
  by_cases hshown : c.eventId ∈ shown ∧ s.world.stage.ShowsPages k c.eventId
  · have hbelow := hdressed.placeholder k c hc hshown.1 hshown.2 hnone
    simp [Character.blocks, hbelow, hshown]
  · have hsame := hdressed.fresh k c hc hshown
    simp [Character.blocks, hsame, hshown]

/-- A room with one event, whose only page waits for a switch. -/
def lampRoom : Project :=
  let page := { Page.blank with conditions := [.switch 1 true] }
  let room : Room :=
    { id := 1, width := 2, height := 1, tileSetId := 0, tiles := [],
      events := [⟨5, 1, 0, [page]⟩], background := "", foreground := "" }
  { (default : Project) with
    maps := [⟨1, "", [room]⟩]
    system := { (default : System) with initialPosition := ⟨1, 1, 0, 0⟩ } }

/-- The event of a new game shows no page, and still nobody can enter its tile. -/
theorem lampRoom_blocks :
    ∃ w c, World.start lampRoom 1 = .ok w ∧ w.stage.events = [c] ∧
      w.stage.pageIndex? c.eventId = none ∧ c.blocks = true ∧
      w.stage.canEnter lampRoom playerId false c.position = false :=
  ⟨_, _, rfl, rfl, rfl, rfl, rfl⟩

/-- The event blocks because it has shown no page and is not passed through. -/
theorem lampRoom_blocks_eq_false_iff :
    ∃ s c, Session.Reachable lampRoom s ∧ s.world.stage.events[0]? = some c ∧
      s.world.stage.pageIndex? c.eventId = none ∧
      (∃ shown, World.Course lampRoom s.world shown) ∧
      ∀ shown, World.Course lampRoom s.world shown →
        (c.blocks = false ↔
          (c.eventId ∈ shown ∧ s.world.stage.ShowsPages 0 c.eventId) ∨ c.through = true) := by
  have hreached : Session.Reachable lampRoom ⟨_, .start lampRoom (.prompt .start)⟩ :=
    .start 1 _ rfl
  have hblocks := hreached.blocks_eq_false_iff
  exact ⟨_, _, hreached, rfl, rfl, hblocks.1, fun shown hcourse =>
    hblocks.2 shown hcourse 0 _ rfl rfl⟩

end Adventure
