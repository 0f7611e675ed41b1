import Mathlib.Data.List.Induction
import Adventure.World.Events

/-!
# The pages that events show

When pages are refreshed the events have their turns one after the other, and each of them shows the
last of its pages whose conditions hold at its turn.  Among the conditions only the special one,
which asks for an event that the player can run on the player's own tile, depends on the pages that
other events show.  So in the end an event shows the page that is due exactly if the special
condition is answered then as it was at its turn, or if its page does not depend on the answer.
-/

namespace Adventure

/-! ## The last place in a list -/

section LastWhere

variable {α : Type} {p : α → Bool} {l : List α}

/-- The last place of a list that passes a test. -/
def lastWhere? (p : α → Bool) (l : List α) : Option Nat :=
  (l.zipIdx.reverse.find? fun (a, _) => p a).map (·.2)

/-- Whether a place is the last one of a list that passes a test; `none` if no place does. -/
structure IsLastWhere (p : α → Bool) (l : List α) (place : Option Nat) : Prop where
  passes : ∀ k, place = some k → ∃ a, l[k]? = some a ∧ p a = true
  last : ∀ k a, l[k]? = some a → p a = true → ∃ later, place = some later ∧ k ≤ later

theorem lastWhere?_concat (l : List α) (a : α) :
    lastWhere? p (l ++ [a]) = if p a then some l.length else lastWhere? p l := by
  unfold lastWhere?
  rw [List.zipIdx_append, List.reverse_append]
  cases h : p a <;> simp [h]

theorem isLastWhere_lastWhere? (p : α → Bool) (l : List α) : IsLastWhere p l (lastWhere? p l) := by
  induction l using List.reverseRecOn with
  | nil => exact ⟨fun k h => by simp [lastWhere?] at h, fun k a h => by simp at h⟩
  | append_singleton l a ih =>
    rw [lastWhere?_concat]
    split
    · next ha =>
      refine ⟨fun k h => ?_, fun k b hb _ => ⟨_, rfl, ?_⟩⟩
      · obtain rfl := Option.some.inj h
        exact ⟨a, by simp, ha⟩
      · have hk := (List.getElem?_eq_some_iff.1 hb).1
        simp only [List.length_append, List.length_singleton] at hk
        omega
    · next ha =>
      refine ⟨fun k h => ?_, fun k b hb hpb => ?_⟩
      · obtain ⟨b, hb, hpb⟩ := ih.passes k h
        have hk := (List.getElem?_eq_some_iff.1 hb).1
        exact ⟨b, by rw [List.getElem?_append_left hk, hb], hpb⟩
      · by_cases hk : k < l.length
        · rw [List.getElem?_append_left hk] at hb
          exact ih.last k b hb hpb
        · rw [List.getElem?_append_right (Nat.not_lt.1 hk), List.getElem?_singleton] at hb
          split at hb
          · exact absurd (Option.some.inj hb ▸ hpb) ha
          · cases hb

theorem IsLastWhere.le {place place' : Option Nat} (h : IsLastWhere p l place)
    (h' : IsLastWhere p l place') {k : Nat} (hk : place = some k) :
    ∃ later, place' = some later ∧ k ≤ later := by
  obtain ⟨a, ha, hp⟩ := h.passes k hk
  exact h'.last k a ha hp

theorem IsLastWhere.eq {place place' : Option Nat} (h : IsLastWhere p l place)
    (h' : IsLastWhere p l place') : place = place' := by
  cases place with
  | none =>
    cases place' with
    | none => rfl
    | some k =>
      obtain ⟨_, hnone, _⟩ := h'.le h rfl
      cases hnone
  | some k =>
    obtain ⟨k', rfl, hle⟩ := h.le h' rfl
    obtain ⟨_, heq, hge⟩ := h'.le h rfl
    obtain rfl := Option.some.inj heq
    rw [Nat.le_antisymm hle hge]

theorem isLastWhere_iff {place : Option Nat} : IsLastWhere p l place ↔ place = lastWhere? p l :=
  ⟨fun h => h.eq (isLastWhere_lastWhere? p l), fun h => h ▸ isLastWhere_lastWhere? p l⟩

end LastWhere

/-! ## Pages that are due -/

namespace World

section Due

variable (w : World) (project : Project) (eventId : Int32)

/-- The pages of an event of this room. -/
def pagesOf : List Page :=
  ((project.event? w.stage.mapId w.stage.roomId eventId).map (·.pages)).getD []

/-- Whether an event shows the last of its pages whose conditions all hold, or none if there is no
such page. -/
def ShowsDuePage : Prop :=
  IsLastWhere (fun page => w.meetsAll project eventId page.conditions) (w.pagesOf project eventId)
    (w.stage.pageIndex? eventId)

/-- The answer to the special condition: whether an event that the player can run stands on the
player's tile. -/
def eventAtPlayer : Bool := (w.stage.playerEventAt? project w.stage.player.position).isSome

/-- Whether a condition holds, if the special one is answered like this. -/
def meetsIf (answer : Bool) : Condition → Bool
  | .eventAtPlayer => answer
  | condition => w.meets project eventId condition

/-- The page of an event that is due, if the special condition is answered like this. -/
def duePage? (answer : Bool) : Option Nat :=
  lastWhere? (fun page => page.conditions.all (w.meetsIf project eventId answer))
    (w.pagesOf project eventId)

theorem meetsIf_eventAtPlayer :
    w.meetsIf project eventId (w.eventAtPlayer project) = w.meets project eventId := by
  funext condition
  cases condition <;> rfl

/-- The page that an event chooses is the one that is due with the answer of the moment. -/
theorem choosePage?_eq :
    w.choosePage? project eventId = w.duePage? project eventId (w.eventAtPlayer project) := by
  rw [duePage?, meetsIf_eventAtPlayer, choosePage?, pagesOf]
  cases project.event? w.stage.mapId w.stage.roomId eventId with
  | none => rfl
  | some e => rfl

theorem showsDuePage_iff :
    w.ShowsDuePage project eventId ↔
      w.stage.pageIndex? eventId = w.duePage? project eventId (w.eventAtPlayer project) := by
  rw [duePage?, meetsIf_eventAtPlayer]
  exact isLastWhere_iff

end Due

variable {w w' : World} {project : Project}

/-- What is due to an event depends on the memory, the inventory and the room. -/
theorem duePage?_congr (memory : w'.memory = w.memory) (inventory : w'.inventory = w.inventory)
    (mapId : w'.stage.mapId = w.stage.mapId) (roomId : w'.stage.roomId = w.stage.roomId)
    (eventId : Int32) (answer : Bool) :
    w'.duePage? project eventId answer = w.duePage? project eventId answer := by
  have hcomparand : w'.comparand = w.comparand := by
    funext value comparand
    cases comparand <;> simp only [World.comparand, memory]
  have hmeets : w'.meetsIf project eventId answer = w.meetsIf project eventId answer := by
    funext condition
    cases condition with
    | eventAtPlayer => rfl
    | item id question => cases question <;> simp only [meetsIf, meets, inventory]
    | _ => simp only [meetsIf, meets, selfSwitchKey, memory, mapId, roomId, hcomparand]
  simp only [duePage?, pagesOf, hmeets, mapId, roomId]

end World

/-! ## Turns -/

namespace Stage

variable (s : Stage) (project : Project) (eventId : Int32) (index : Option Nat)

theorem pages_modifyCharacter (id : Int32) (change : Character → Character) :
    (s.modifyCharacter id change).pages = s.pages := by
  unfold modifyCharacter
  split <;> rfl

/-- An event that shows a page changes pages and looks, and nothing else. -/
theorem showPage_eq : ∃ player events, s.showPage project eventId index = { s with
    player := player, events := events, pages := (s.showPage project eventId index).pages } := by
  unfold showPage
  split
  · exact ⟨s.player, s.events, rfl⟩
  · unfold modifyCharacter
    dsimp only
    split
    · exact ⟨_, s.events, rfl⟩
    · exact ⟨s.player, _, rfl⟩

theorem pageIndex?_showPage : (s.showPage project eventId index).pageIndex? eventId = index := by
  unfold showPage
  split
  · next hsame => exact hsame
  · simp only [pageIndex?, pages_modifyCharacter]
    cases index <;> simp

theorem pageIndex?_showPage_of_ne {other : Int32} (h : other ≠ eventId) :
    (s.showPage project eventId index).pageIndex? other = s.pageIndex? other := by
  unfold showPage
  split
  · rfl
  · simp only [pageIndex?, pages_modifyCharacter]
    cases index with
    | none => exact SortedMap.find?_erase_of_ne _ h
    | some i => exact SortedMap.find?_insert_of_ne _ h _

end Stage

namespace World

variable (w : World) (project : Project)

theorem stage_refreshPage (turn : Int32) :
    (refreshPage project w turn).stage =
      w.stage.showPage project turn (w.choosePage? project turn) := rfl

theorem duePage?_refreshPage (turn eventId : Int32) (answer : Bool) :
    (refreshPage project w turn).duePage? project eventId answer =
      w.duePage? project eventId answer := by
  obtain ⟨player, events, hstage⟩ := w.stage.showPage_eq project turn (w.choosePage? project turn)
  have hmap : (refreshPage project w turn).stage.mapId = w.stage.mapId := by
    rw [stage_refreshPage, hstage]
  have hroom : (refreshPage project w turn).stage.roomId = w.stage.roomId := by
    rw [stage_refreshPage, hstage]
  have hmemory : (refreshPage project w turn).memory = w.memory := rfl
  exact duePage?_congr hmemory rfl hmap hroom eventId answer

theorem duePage?_turns (turns : List Int32) (eventId : Int32) (answer : Bool) :
    (turns.foldl (refreshPage project) w).duePage? project eventId answer =
      w.duePage? project eventId answer := by
  induction turns generalizing w with
  | nil => rfl
  | cons turn turns ih => rw [List.foldl_cons, ih, duePage?_refreshPage]

/-- The turns of other events do not change the page that an event shows. -/
theorem pageIndex?_turns {turns : List Int32} {eventId : Int32} (h : eventId ∉ turns) :
    (turns.foldl (refreshPage project) w).stage.pageIndex? eventId =
      w.stage.pageIndex? eventId := by
  induction turns generalizing w with
  | nil => rfl
  | cons turn turns ih =>
    obtain ⟨hne, hrest⟩ := List.ne_and_not_mem_of_not_mem_cons h
    rw [List.foldl_cons, ih _ hrest, stage_refreshPage, Stage.pageIndex?_showPage_of_ne _ _ _ _ hne]

/-- In the end an event shows the page that was due at its last turn. -/
theorem pageIndex?_refreshPages {before after : List Int32} {eventId : Int32}
    (turns : w.stage.eventIds = before ++ eventId :: after) (last : eventId ∉ after) :
    (w.refreshPages project).stage.pageIndex? eventId =
      w.duePage? project eventId
        ((before.foldl (refreshPage project) w).eventAtPlayer project) := by
  rw [refreshPages, turns, List.foldl_append, List.foldl_cons, pageIndex?_turns _ _ last,
    stage_refreshPage, Stage.pageIndex?_showPage, choosePage?_eq, duePage?_turns]

/-- After the pages are refreshed an event of the room shows the last of its pages whose conditions
hold by then exactly if the special condition is answered by then as it was at the last turn of the
event, or if the same page is due with either answer. -/
theorem showsDuePage_refreshPages_iff {eventId : Int32} (h : eventId ∈ w.stage.eventIds) :
    ∃ before after, w.stage.eventIds = before ++ eventId :: after ∧ eventId ∉ after ∧
      ((w.refreshPages project).ShowsDuePage project eventId ↔
        (w.refreshPages project).eventAtPlayer project =
            (before.foldl (refreshPage project) w).eventAtPlayer project ∨
          w.duePage? project eventId true = w.duePage? project eventId false) := by
  obtain ⟨after, before, hturns, hlast⟩ := List.eq_append_cons_of_mem (List.mem_reverse.2 h)
  have hturns' : w.stage.eventIds = before.reverse ++ eventId :: after.reverse := by
    rw [← List.reverse_reverse w.stage.eventIds, hturns]
    simp
  have hlast' : eventId ∉ after.reverse := mt List.mem_reverse.1 hlast
  refine ⟨before.reverse, after.reverse, hturns', hlast', ?_⟩
  have hdue : ∀ answer, (w.refreshPages project).duePage? project eventId answer =
      w.duePage? project eventId answer := duePage?_turns w project _ eventId
  rw [showsDuePage_iff, pageIndex?_refreshPages w project hturns' hlast', hdue]
  generalize (w.refreshPages project).eventAtPlayer project = now
  generalize (before.reverse.foldl (refreshPage project) w).eventAtPlayer project = earlier
  cases now <;> cases earlier <;> simp [eq_comm]

end World

/-- A room with two events.  The first one waits for an event that the player can run where the
player stands, and the second one is such an event as soon as it shows its page. -/
def mirrorRoom : Project :=
  let mirror := { Page.blank with conditions := [.eventAtPlayer] }
  let visitor := { Page.blank with trigger := .player, commands := [.act .nop []] }
  let room : Room :=
    { id := 1, width := 2, height := 1, tileSetId := 0, tiles := [],
      events := [⟨1, 1, 0, [mirror]⟩, ⟨2, 0, 0, [visitor]⟩], background := "", foreground := "" }
  { (default : Project) with
    maps := [⟨1, "", [room]⟩]
    system := { (default : System) with initialPosition := ⟨1, 1, 0, 0⟩ } }

/-- In a new game the first event has had its turn too early: it shows no page, though the
conditions of its page hold. -/
theorem mirrorRoom_shows_none :
    ∃ w, World.start mirrorRoom 1 = .ok w ∧ w.stage.pageIndex? 1 = none ∧
      ¬ w.ShowsDuePage mirrorRoom 1 := by
  refine ⟨_, rfl, rfl, fun h => ?_⟩
  obtain ⟨_, hnone, _⟩ := h.last 0 _ rfl rfl
  cases hnone

/-- The first event would show the page that is due if the second one had been looked for after its
turn. -/
theorem mirrorRoom_showsDuePage_iff :
    ∃ w, World.start mirrorRoom 1 = .ok w ∧ ∃ before after,
      w.stage.eventIds = before ++ 1 :: after ∧ 1 ∉ after ∧
        ((w.refreshPages mirrorRoom).ShowsDuePage mirrorRoom 1 ↔
          (w.refreshPages mirrorRoom).eventAtPlayer mirrorRoom =
              (before.foldl (World.refreshPage mirrorRoom) w).eventAtPlayer mirrorRoom ∨
            w.duePage? mirrorRoom 1 true = w.duePage? mirrorRoom 1 false) :=
  ⟨_, rfl, World.showsDuePage_refreshPages_iff _ mirrorRoom (List.mem_cons_self ..)⟩

end Adventure
