import Mathlib.Data.List.Basic
import Mathlib.Data.List.Perm.Subperm
import Mathlib.Order.Nat
import Adventure.Proofs.Ways.Steps

/-!
# The search for a way

The search reaches tile after tile, and a tile that it reached later has no shorter way than one
that it reached earlier.  The tiles whose neighbours are still to be looked at come last among those
that were reached, so when the neighbours of a tile are looked at, no tile reached so far is more
than one step further away.  This is what makes the way to every tile a shortest one, and the first
tile reached among those closest to the goal the nearest of them.
-/

namespace Adventure.Search

/-! ## Arrivals -/

/-- The tiles reached, the latest first. -/
def reached (start : Tile) (arrivals : List Arrival) : List Tile :=
  arrivals.map (·.tile) ++ [start]

/-- The way on which a tile was reached. -/
def wayTo : List Arrival → Tile → List Direction
  | [], _ => []
  | a :: earlier, t => if a.tile = t then wayTo earlier a.origin ++ [a.dir] else wayTo earlier t

/-- Arrivals as a search makes them: by a step from a tile reached before, other than the goal, onto
a new one that is passable or the goal. -/
inductive Grown (start goal : Tile) (passable : Tile → Bool) : List Arrival → Prop where
  | nil : Grown start goal passable []
  | cons {a : Arrival} {earlier : List Arrival} (grown : Grown start goal passable earlier)
      (origin : a.origin ∈ reached start earlier) (leaves : a.origin ≠ goal)
      (step : a.tile = a.origin.step a.dir) (new : a.tile ∉ reached start earlier)
      (enters : a.tile = goal ∨ passable a.tile = true) : Grown start goal passable (a :: earlier)

variable {start goal : Tile} {passable : Tile → Bool} {a : Arrival}
  {arrivals earlier : List Arrival}
  {t u : Tile}

theorem mem_reached_cons :
    t ∈ reached start (a :: earlier) ↔ t = a.tile ∨ t ∈ reached start earlier := List.mem_cons

theorem start_mem_reached (start : Tile) (arrivals : List Arrival) :
    start ∈ reached start arrivals := by
  simp [reached]

theorem wayTo_cons_self (a : Arrival) (earlier : List Arrival) :
    wayTo (a :: earlier) a.tile = wayTo earlier a.origin ++ [a.dir] := if_pos rfl

/-- A new tile leaves the ways to the others as they are. -/
theorem wayTo_cons_of_mem (new : a.tile ∉ reached start earlier) (h : t ∈ reached start earlier) :
    wayTo (a :: earlier) t = wayTo earlier t :=
  if_neg fun heq : a.tile = t => new (heq ▸ h)

namespace Grown

theorem nodup (h : Grown start goal passable arrivals) : (reached start arrivals).Nodup := by
  induction h with
  | nil => simp [reached]
  | cons _ _ _ _ new _ ih => exact List.nodup_cons.2 ⟨new, ih⟩

theorem wayTo_start (h : Grown start goal passable arrivals) : wayTo arrivals start = [] := by
  induction h with
  | nil => rfl
  | cons _ _ _ _ new _ ih => rwa [wayTo_cons_of_mem new (start_mem_reached ..)]

theorem walk_wayTo (h : Grown start goal passable arrivals) (ht : t ∈ reached start arrivals) :
    walk start (wayTo arrivals t) = t := by
  induction h generalizing t with
  | nil => exact (List.mem_singleton.1 ht).symm
  | cons _ origin _ step new _ ih =>
    rcases mem_reached_cons.1 ht with rfl | hearlier
    · rw [wayTo_cons_self, walk_concat, ih origin, step]
    · rw [wayTo_cons_of_mem new hearlier, ih hearlier]

/-- The way to a tile other than the goal enters passable tiles only, and never the goal. -/
theorem clear_of_ne (h : Grown start goal passable arrivals) (ht : t ∈ reached start arrivals)
    (hne : t ≠ goal) : ∀ u ∈ entered start (wayTo arrivals t), passable u = true ∧ u ≠ goal := by
  induction h generalizing t with
  | nil => exact fun u hu => absurd hu List.not_mem_nil
  | @cons a earlier grown origin leaves step new enters ih =>
    rcases mem_reached_cons.1 ht with rfl | hearlier
    · have hend : walk start (wayTo earlier a.origin ++ [a.dir]) = a.tile := by
        rw [walk_concat, grown.walk_wayTo origin, step]
      intro u hu
      rw [wayTo_cons_self, entered_concat, hend, List.mem_append, List.mem_singleton] at hu
      rcases hu with hbefore | rfl
      · exact ih origin leaves u hbefore
      · exact ⟨enters.resolve_left hne, hne⟩
    · rw [wayTo_cons_of_mem new hearlier]
      exact ih hearlier hne

/-- Up to its last step the way to a tile enters passable tiles only, and not the goal. -/
theorem exists_last (h : Grown start goal passable arrivals) (ht : t ∈ reached start arrivals)
    (hne : t ≠ start) : ∃ before d, wayTo arrivals t = before ++ [d] ∧
      ∀ u ∈ entered start before, passable u = true ∧ u ≠ goal := by
  induction h generalizing t with
  | nil => exact absurd (List.mem_singleton.1 ht) hne
  | @cons a earlier grown origin leaves step new enters ih =>
    rcases mem_reached_cons.1 ht with rfl | hearlier
    · exact ⟨_, _, wayTo_cons_self a earlier, grown.clear_of_ne origin leaves⟩
    · rw [wayTo_cons_of_mem new hearlier]
      exact ih hearlier hne

theorem wayTo_eq_nil (h : Grown start goal passable arrivals) (ht : t ∈ reached start arrivals) :
    wayTo arrivals t = [] ↔ t = start := by
  refine ⟨fun hnil => ?_, fun heq => heq ▸ h.wayTo_start⟩
  have hwalk := h.walk_wayTo ht
  rw [hnil] at hwalk
  exact hwalk.symm

theorem enters (h : Grown start goal passable arrivals) (ht : t ∈ reached start arrivals) :
    t = start ∨ t = goal ∨ passable t = true := by
  induction h with
  | nil => exact .inl (List.mem_singleton.1 ht)
  | cons _ _ _ _ _ enters ih =>
    rcases mem_reached_cons.1 ht with rfl | hearlier
    · exact .inr enters
    · exact ih hearlier

/-- No more tiles are reached than are passable, apart from the start and the goal. -/
theorem length_reached_le (h : Grown start goal passable arrivals) {area : List Tile}
    (inside : ∀ t, passable t = true → t ∈ area) :
    (reached start arrivals).length ≤ area.length + 2 := by
  have hsubset : reached start arrivals ⊆ start :: goal :: area := by
    intro t ht
    rcases h.enters ht with rfl | rfl | hpassable
    · simp
    · simp
    · simp [inside t hpassable]
  exact (h.nodup.subperm hsubset).length_le

end Grown

/-! ## The way back -/

/-- An arrival is found by its tile. -/
theorem Grown.find? (h : Grown start goal passable arrivals) (ha : a ∈ arrivals) :
    arrivals.find? (fun b => b.tile == a.tile) = some a := by
  induction h with
  | nil => cases ha
  | @cons b earlier _ _ _ _ new _ ih =>
    rcases List.mem_cons.1 ha with rfl | hearlier
    · simp
    · have hne : b.tile ≠ a.tile := fun heq =>
        new (heq ▸ List.mem_append_left _ (List.mem_map_of_mem hearlier))
      simp [hne, ih hearlier]

theorem Grown.find?_start (h : Grown start goal passable arrivals) :
    arrivals.find? (fun b => b.tile == start) = none := by
  induction h with
  | nil => rfl
  | @cons b earlier _ _ _ _ new _ ih =>
    have hne : b.tile ≠ start := fun heq => new (heq ▸ start_mem_reached start earlier)
    simp [hne, ih]

/-- Following the arrivals back from a tile gives the way on which it was reached. -/
theorem Grown.trace_eq {s : Search} (h : Grown start goal passable s.arrivals)
    (ht : t ∈ reached start s.arrivals) (way : List Direction) {fuel : Nat}
    (hfuel : s.arrivals.length ≤ fuel) : s.trace fuel t way = wayTo s.arrivals t ++ way := by
  -- the induction is on the arrivals that are left, among which the tile still is
  have hpart : ∀ left fuel t way, left <:+ s.arrivals → Grown start goal passable left →
      left.length ≤ fuel → t ∈ reached start left → s.trace fuel t way = wayTo left t ++ way := by
    intro left
    induction left with
    | nil =>
      intro fuel t way _ _ _ ht
      obtain rfl := List.mem_singleton.1 ht
      cases fuel with
      | zero => rfl
      | succ fuel => simp [trace, arrival?, h.find?_start, wayTo]
    | cons a left ih =>
      intro fuel t way hsuffix hgrown hfuel ht
      have hleft : left <:+ s.arrivals := (List.suffix_cons a left).trans hsuffix
      cases hgrown with
      | cons grown origin _ _ new _ =>
        rcases mem_reached_cons.1 ht with rfl | hearlier
        · obtain ⟨fuel, rfl⟩ : ∃ n, fuel = n + 1 :=
            Nat.exists_eq_add_one.2 (by simp at hfuel; omega)
          have hfound : s.arrival? a.tile = some a := h.find? (hsuffix.subset List.mem_cons_self)
          have hrest := ih fuel a.origin (a.dir :: way) hleft grown (Nat.le_of_succ_le_succ hfuel)
            origin
          simp only [trace, hfound, hrest, wayTo_cons_self, List.append_assoc, List.cons_append,
            List.nil_append]
        · rw [wayTo_cons_of_mem new hearlier]
          exact ih fuel t way hleft grown (Nat.le_of_succ_le hfuel) hearlier
  exact hpart s.arrivals _ t way List.suffix_rfl h hfuel ht

/-! ## Searches under way -/

/-- The number of steps on which a tile was reached. -/
def depth (s : Search) (t : Tile) : Nat := (wayTo s.arrivals t).length

/-- The tiles that a search has reached, the latest first. -/
def found (start : Tile) (s : Search) : List Tile := reached start s.arrivals

/-- Whether the neighbour of a tile in a direction has been looked at: if it can be entered, it has
been reached, and with one step more at most. -/
def HasLooked (start goal : Tile) (passable : Tile → Bool) (s : Search) (t : Tile) (d : Direction) :
    Prop :=
  t.step d = goal ∨ passable (t.step d) = true →
    t.step d ∈ s.found start ∧ s.depth (t.step d) ≤ s.depth t + 1

/-- What holds of a search at any time. -/
structure Sound (start goal : Tile) (passable : Tile → Bool) (s : Search) : Prop where
  grown : Grown start goal passable s.arrivals
  ordered : (s.found start).Pairwise fun later earlier => s.depth earlier ≤ s.depth later
  best_mem : s.best ∈ s.found start
  closest : ∀ t ∈ s.found start, s.best.distance goal ≤ t.distance goal
  nearest : ∀ t ∈ s.found start, t.distance goal = s.best.distance goal → s.depth s.best ≤ s.depth t

/-- A search between two tiles of its queue, given the tiles that have come up. -/
structure Waiting (start goal : Tile) (passable : Tile → Bool) (done : List Tile)
    (s : Search) : Prop
    extends Sound start goal passable s where
  split : s.found start = s.queue.reverse ++ done
  leaves : goal ∉ done
  looked : ∀ t ∈ done, ∀ d, s.HasLooked start goal passable t d
  span : ∀ t ∈ s.queue.head?, ∀ u ∈ s.found start, s.depth u ≤ s.depth t + 1

/-- A search that looks at the neighbours of a tile. -/
structure Looking (start goal : Tile) (passable : Tile → Bool) (done : List Tile) (t : Tile)
    (s : Search) : Prop extends Sound start goal passable s where
  split : s.found start = s.queue.reverse ++ t :: done
  leaves : goal ∉ t :: done
  looked : ∀ u ∈ done, ∀ d, s.HasLooked start goal passable u d
  span : ∀ u ∈ s.found start, s.depth u ≤ s.depth t + 1

variable {s s' : Search} {done : List Tile} {d : Direction}

/-- A search that goes on keeps the tiles that it has reached, and their ways. -/
structure Extends (start : Tile) (s s' : Search) : Prop where
  mem : ∀ u ∈ s.found start, u ∈ s'.found start
  depth : ∀ u ∈ s.found start, s'.depth u = s.depth u

theorem HasLooked.extends (h : s.HasLooked start goal passable t d) (ht : t ∈ s.found start)
    (more : Extends start s s') : s'.HasLooked start goal passable t d := by
  intro henters
  obtain ⟨hmem, hdepth⟩ := h henters
  exact ⟨more.mem _ hmem, by rwa [more.depth _ hmem, more.depth _ ht]⟩

/-! ## Looking at a neighbour -/

/-- The search after it has reached a new tile from another one. -/
def enter (goal t : Tile) (s : Search) (d : Direction) : Search :=
  { arrivals := ⟨t.step d, t, d⟩ :: s.arrivals
    queue := s.queue ++ [t.step d]
    best := if (t.step d).distance goal < s.best.distance goal then t.step d else s.best }

theorem mem_found_iff : t ∈ s.found start ↔ t = start ∨ (s.arrival? t).isSome = true := by
  simp [found, reached, arrival?, List.find?_isSome, or_comm]

/-- A neighbour is entered if it is new and can be entered. -/
theorem look_cases (start goal : Tile) (passable : Tile → Bool) (t : Tile) (s : Search)
    (d : Direction) :
    (look start goal passable t s d = s ∧
        (t.step d ∈ s.found start ∨ ¬ (t.step d = goal ∨ passable (t.step d) = true))) ∨
      (look start goal passable t s d = enter goal t s d ∧ t.step d ∉ s.found start ∧
        (t.step d = goal ∨ passable (t.step d) = true)) := by
  unfold look
  simp only [mem_found_iff]
  split
  · next hskip =>
    refine .inl ⟨rfl, ?_⟩
    simp only [Bool.or_eq_true, decide_eq_true_eq, Bool.and_eq_true, Bool.not_eq_true'] at hskip
    rcases hskip with hreached | ⟨hgoal, hwall⟩
    · exact .inl hreached
    · exact .inr (by simp [hgoal, hwall])
  · next hnew =>
    refine .inr ⟨rfl, ?_⟩
    simp only [Bool.or_eq_true, decide_eq_true_eq, Bool.and_eq_true, Bool.not_eq_true'] at hnew
    grind

theorem extends_enter (hnew : t.step d ∉ s.found start) : Extends start s (enter goal t s d) :=
  ⟨fun _ hu => List.mem_cons_of_mem _ hu,
    fun _ hu => congrArg List.length (wayTo_cons_of_mem hnew hu)⟩

theorem depth_enter : (enter goal t s d).depth (t.step d) = s.depth t + 1 := by
  have hway : wayTo (enter goal t s d).arrivals (t.step d) = wayTo s.arrivals t ++ [d] :=
    wayTo_cons_self _ _
  simp [depth, hway]

/-- The closest tile after another one has been reached. -/
theorem best_enter_le (goal t : Tile) (s : Search) (d : Direction) :
    (enter goal t s d).best.distance goal ≤ (t.step d).distance goal ∧
      (enter goal t s d).best.distance goal ≤ s.best.distance goal := by
  simp only [enter]
  split <;> omega

namespace Looking

variable (h : Looking start goal passable done t s)

include h in
theorem mem_found : t ∈ s.found start := by simp [h.split]

include h in
/-- A tile that is reached now is no nearer than any reached before. -/
theorem depth_le_depth_enter {u : Tile} (hu : u ∈ s.found start) :
    s.depth u ≤ (enter goal t s d).depth (t.step d) := (h.span u hu).trans_eq depth_enter.symm

include h in
/-- The closest tile is still the nearest of its kind once another one has been reached. -/
theorem nearest_enter (hnew : t.step d ∉ s.found start) {u : Tile}
    (hu : u ∈ (enter goal t s d).found start)
    (heq : u.distance goal = (enter goal t s d).best.distance goal) :
    (enter goal t s d).depth (enter goal t s d).best ≤ (enter goal t s d).depth u := by
  have hmore : Extends start s (enter goal t s d) := extends_enter hnew
  by_cases hcloser : (t.step d).distance goal < s.best.distance goal
  · -- the new tile is closer than all others, so it is the only one of its kind
    have hbest : (enter goal t s d).best = t.step d := if_pos hcloser
    rw [hbest] at heq ⊢
    rcases mem_reached_cons.1 hu with rfl | hu
    · exact Nat.le_refl _
    · have hclosest := h.closest u hu
      omega
  · have hbest : (enter goal t s d).best = s.best := if_neg hcloser
    rw [hbest] at heq ⊢
    rw [hmore.depth _ h.best_mem]
    rcases mem_reached_cons.1 hu with rfl | hu
    · exact h.depth_le_depth_enter h.best_mem
    · exact (h.nearest u hu heq).trans_eq (hmore.depth u hu).symm

include h in
theorem sound_enter (hnew : t.step d ∉ s.found start)
    (henters : t.step d = goal ∨ passable (t.step d) = true) :
    (enter goal t s d).Sound start goal passable := by
  have hmore : Extends start s (enter goal t s d) := extends_enter hnew
  refine ⟨?_, ?_, ?_, ?_, fun u hu heq => h.nearest_enter hnew hu heq⟩
  · refine .cons h.grown h.mem_found (fun hgoal => h.leaves ?_) rfl hnew henters
    exact hgoal ▸ List.mem_cons_self
  · refine List.pairwise_cons.2 ⟨fun u hu => ?_, h.ordered.imp_of_mem fun hv hu hle => ?_⟩
    · exact (hmore.depth u hu).trans_le (h.depth_le_depth_enter hu)
    · rwa [hmore.depth _ hu, hmore.depth _ hv]
  · simp only [enter]
    split
    · exact List.mem_cons_self
    · exact List.mem_cons_of_mem _ h.best_mem
  · intro u hu
    rcases mem_reached_cons.1 hu with rfl | hu
    · exact (best_enter_le goal t s d).1
    · exact (best_enter_le goal t s d).2.trans (h.closest u hu)

include h in
theorem enter (hnew : t.step d ∉ s.found start)
    (henters : t.step d = goal ∨ passable (t.step d) = true) :
    Looking start goal passable done t (enter goal t s d) := by
  have hmore : Extends start s (Search.enter goal t s d) := extends_enter hnew
  refine ⟨h.sound_enter hnew henters, ?_, h.leaves, fun u hu d' => ?_, fun u hu => ?_⟩
  · have hsplit : (Search.enter goal t s d).found start = t.step d :: s.found start := rfl
    rw [hsplit, h.split]
    simp [Search.enter]
  · refine (h.looked u hu d').extends ?_ hmore
    simp [h.split, hu]
  · rw [hmore.depth t h.mem_found]
    rcases mem_reached_cons.1 hu with rfl | hu
    · exact depth_enter.le
    · exact (hmore.depth u hu).trans_le (h.span u hu)

include h in
/-- Looking at a neighbour. -/
theorem look (d : Direction) :
    Looking start goal passable done t (look start goal passable t s d) ∧
      Extends start s (look start goal passable t s d) ∧
      (look start goal passable t s d).HasLooked start goal passable t d := by
  rcases look_cases start goal passable t s d with ⟨heq, hskip⟩ | ⟨heq, hnew, henters⟩
  · rw [heq]
    refine ⟨h, ⟨fun _ hu => hu, fun _ _ => rfl⟩, fun henters => ?_⟩
    have hreached := hskip.resolve_right (not_not_intro henters)
    exact ⟨hreached, h.span _ hreached⟩
  · rw [heq]
    have hmore : Extends start s (Search.enter goal t s d) := extends_enter hnew
    refine ⟨h.enter hnew henters, hmore, fun _ => ⟨List.mem_cons_self, ?_⟩⟩
    exact (depth_enter.trans (congrArg (· + 1) (hmore.depth t h.mem_found).symm)).le

include h in
/-- Looking at the neighbours in several directions. -/
theorem foldl_look (dirs : List Direction) :
    Looking start goal passable done t (dirs.foldl (Search.look start goal passable t) s) ∧
      Extends start s (dirs.foldl (Search.look start goal passable t) s) ∧
      ∀ d ∈ dirs,
        (dirs.foldl (Search.look start goal passable t) s).HasLooked start goal passable t d := by
  induction dirs generalizing s with
  | nil => exact ⟨h, ⟨fun _ hu => hu, fun _ _ => rfl⟩, fun _ hd => absurd hd List.not_mem_nil⟩
  | cons d dirs ih =>
    obtain ⟨hlooking, hmore, hlooked⟩ := h.look d
    obtain ⟨hlast, hrest, hothers⟩ := ih hlooking
    refine ⟨hlast, ⟨fun u hu => hrest.mem u (hmore.mem u hu), fun u hu => ?_⟩, fun d' hd' => ?_⟩
    · exact (hrest.depth u (hmore.mem u hu)).trans (hmore.depth u hu)
    · rcases List.mem_cons.1 hd' with rfl | hd'
      · exact hlooked.extends hlooking.mem_found hrest
      · exact hothers d' hd'

include h in
/-- Once all its neighbours have been looked at, the search is done with a tile.  The tile that
comes up next was not reached before it. -/
theorem finish (hlooked : ∀ d, s.HasLooked start goal passable t d) :
    Waiting start goal passable (t :: done) s := by
  refine ⟨h.toSound, h.split, h.leaves, fun u hu => ?_, fun next hnext u hu => ?_⟩
  · rcases List.mem_cons.1 hu with rfl | hu
    · exact hlooked
    · exact h.looked u hu
  · have hlater : next ∈ s.queue.reverse := List.mem_reverse.2 (List.mem_of_mem_head? hnext)
    have hordered := h.ordered
    rw [h.split, List.pairwise_append] at hordered
    have hnext : s.depth t ≤ s.depth next := hordered.2.2 next hlater t List.mem_cons_self
    exact (h.span u hu).trans (Nat.succ_le_succ hnext)

end Looking

/-! ## Going through the queue -/

namespace Waiting

theorem initial (start goal : Tile) (passable : Tile → Bool) :
    Waiting start goal passable [] ⟨[], [start], start⟩ := by
  have hfound : found start ⟨[], [start], start⟩ = [start] := rfl
  have hdepth : ∀ t, depth ⟨[], [start], start⟩ t = 0 := fun _ => rfl
  refine ⟨⟨.nil, ?_, ?_, ?_, ?_⟩, rfl, List.not_mem_nil, ?_, ?_⟩ <;> simp [hfound, hdepth]

variable (h : Waiting start goal passable done s) {rest : List Tile}

include h in
/-- A tile comes up whose neighbours are looked at next. -/
theorem next (hqueue : s.queue = t :: rest) (hne : t ≠ goal) :
    Looking start goal passable done t { s with queue := rest } := by
  refine ⟨⟨h.grown, h.ordered, h.best_mem, h.closest, h.nearest⟩, ?_, ?_, h.looked, ?_⟩
  · have hsplit : s.found start = s.queue.reverse ++ done := h.split
    rw [hqueue, List.reverse_cons, List.append_assoc] at hsplit
    exact hsplit
  · rintro (_ | ⟨_, hdone⟩)
    · exact hne rfl
    · exact h.leaves hdone
  · exact h.span t (by rw [hqueue]; rfl)

include h in
theorem expand (hqueue : s.queue = t :: rest) (hne : t ≠ goal) :
    Waiting start goal passable (t :: done)
      (expand start goal passable { s with queue := rest } t) := by
  obtain ⟨hlooking, -, hlooked⟩ := (h.next hqueue hne).foldl_look Direction.all
  exact hlooking.finish fun d => hlooked d (by cases d <;> decide)

end Waiting

/-! ## The end of a search -/

/-- Whether a search goes no further: nothing is left in its queue, or the goal comes up. -/
def IsOver (goal : Tile) (s : Search) : Prop := s.queue = [] ∨ s.queue.head? = some goal

/-- A search that is over: from each tile reached it has looked in all directions, unless the goal
was reached in no more steps. -/
structure Settled (start goal : Tile) (passable : Tile → Bool) (s : Search) : Prop
    extends Sound start goal passable s where
  isOver : IsOver goal s
  looked : ∀ t ∈ s.found start, (∀ d, s.HasLooked start goal passable t d) ∨
    (goal ∈ s.found start ∧ s.depth goal ≤ s.depth t)

namespace Waiting

variable (h : Waiting start goal passable done s) {rest : List Tile}

include h in
theorem settled_of_nil (hqueue : s.queue = []) : Settled start goal passable s := by
  refine ⟨h.toSound, .inl hqueue, fun t ht => .inl (h.looked t ?_)⟩
  have hsplit : s.found start = done := by simpa [hqueue] using h.split
  exact hsplit ▸ ht

include h in
/-- When the goal comes up, all tiles before it have been dealt with, and those behind it in the
queue are no nearer. -/
theorem settled_of_goal (hqueue : s.queue = goal :: rest) :
    Settled start goal passable { s with best := goal } := by
  have hsplit : s.found start = rest.reverse ++ goal :: done := by
    simpa [hqueue] using h.split
  have hgoal : goal ∈ s.found start := by simp [hsplit]
  have hordered := h.ordered
  rw [hsplit, List.pairwise_append] at hordered
  refine ⟨⟨h.grown, h.ordered, hgoal, fun t _ => ?_, fun t ht heq => ?_⟩, ?_, fun t ht => ?_⟩
  · simp [Tile.distance_self]
  · obtain rfl : t = goal := by simpa [Tile.distance_self, Tile.distance_eq_zero] using heq
    exact Nat.le_refl _
  · exact .inr (by simp [hqueue])
  · have hcases : t ∈ rest.reverse ++ goal :: done := hsplit ▸ ht
    rcases List.mem_append.1 hcases with hlater | hcases
    · exact .inr ⟨hgoal, hordered.2.2 t hlater goal List.mem_cons_self⟩
    · rcases List.mem_cons.1 hcases with rfl | hdone
      · exact .inr ⟨hgoal, Nat.le_refl _⟩
      · exact .inl (h.looked t hdone)

include h in
/-- The tiles that came up are among those reached. -/
theorem length_done_le {area : List Tile} (inside : ∀ t, passable t = true → t ∈ area) :
    done.length ≤ area.length + 2 := by
  have hreached := h.grown.length_reached_le inside
  have hsplit : reached start s.arrivals = s.queue.reverse ++ done := h.split
  rw [hsplit, List.length_append] at hreached
  omega

include h in
/-- A search comes to its end, since each step leaves fewer tiles to come up. -/
theorem exists_last {area : List Tile} (inside : ∀ t, passable t = true → t ∈ area) {n : Nat}
    (hn : area.length + 2 < done.length + n) :
    ∃ last, Settled start goal passable last ∧
      ∀ fuel, area.length + 2 < done.length + fuel → run start goal passable fuel s = last := by
  induction n generalizing s done with
  | zero => exact absurd (h.length_done_le inside) (by omega)
  | succ n ih =>
    have hfuel : ∀ fuel, area.length + 2 < done.length + fuel → ∃ m, fuel = m + 1 := fun _ hlt =>
      Nat.exists_eq_add_one.2 (by have := h.length_done_le inside; omega)
    cases hqueue : s.queue with
    | nil =>
      refine ⟨s, h.settled_of_nil hqueue, fun fuel _ => ?_⟩
      cases fuel <;> simp [run, hqueue]
    | cons t rest =>
      by_cases hgoal : t = goal
      · refine ⟨{ s with best := goal }, h.settled_of_goal (hgoal ▸ hqueue), fun fuel hlt => ?_⟩
        obtain ⟨m, rfl⟩ := hfuel fuel hlt
        simp [run, hqueue, hgoal]
      · obtain ⟨last, hlast, hrun⟩ := ih (h.expand hqueue hgoal) (by simp; omega)
        refine ⟨last, hlast, fun fuel hlt => ?_⟩
        obtain ⟨m, rfl⟩ := hfuel fuel hlt
        simp only [run, hqueue, if_neg hgoal]
        exact hrun m (by simp; omega)

end Waiting

end Adventure.Search
