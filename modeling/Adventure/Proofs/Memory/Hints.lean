import Adventure.Interpreter.Execute
import Mathlib.Data.List.Induction
import Mathlib.Data.List.Nodup

/-!
# The progress of hints

Three collections tell how far hints have come, and each can be read off the orders that were given:
a hint is active if it was started and not completed, paused if moreover the last order about it is
a pause, and completed if it was ever completed.  The active hints stand in the order in which they
were first started, so a hint that is started again after a pause keeps its place.

All that holds of hints then follows from what a list of orders is: an order that was given stays
given, so completion is for good.
-/

namespace Adventure

namespace Hints

open Interpreter (controlHint)

/-- An order about a hint, as scripts give them. -/
abbrev Act := Int32 × HintOrder

/-- The hints after some orders, from the beginning of a game. -/
def after (acts : List Act) : Hints := acts.foldl (fun h act => controlHint h act.1 act.2) none

/-- The last order about a hint. -/
def lastOrder? (acts : List Act) (id : Int32) : Option HintOrder :=
  (acts.reverse.find? fun act => act.1 = id).map (·.2)

/-- The collections say of each hint what the orders say of it. -/
structure Recounts (acts : List Act) (h : Hints) : Prop where
  active : ∀ id, id ∈ h.active ↔ (id, .start) ∈ acts ∧ (id, .complete) ∉ acts
  order : h.active.Pairwise fun a b => acts.idxOf (a, .start) < acts.idxOf (b, .start)
  paused : ∀ id, h.paused.contains id ↔ id ∈ h.active ∧ lastOrder? acts id = some .pause
  completed : ∀ id, h.completed.contains id ↔ (id, .complete) ∈ acts

variable {acts : List Act} {h : Hints} {id : Int32}

theorem after_concat (acts : List Act) (act : Act) :
    after (acts ++ [act]) = controlHint (after acts) act.1 act.2 := by
  simp only [after, List.foldl_append, List.foldl_cons, List.foldl_nil]

theorem lastOrder?_self (acts : List Act) (id : Int32) (order : HintOrder) :
    lastOrder? (acts ++ [(id, order)]) id = some order := by
  simp [lastOrder?]

theorem lastOrder?_of_ne {other : Int32} (hne : other ≠ id) (acts : List Act) (order : HintOrder) :
    lastOrder? (acts ++ [(id, order)]) other = lastOrder? acts other := by
  simp [lastOrder?, hne.symm]

/-! ## One order -/

/-- A further order moves no start that was given before it. -/
theorem Recounts.order_append (hr : Recounts acts h) (more : List Act) :
    h.active.Pairwise fun a b =>
      (acts ++ more).idxOf (a, .start) < (acts ++ more).idxOf (b, .start) := by
  refine hr.order.imp_of_mem fun {a b} ha hb hlt => ?_
  rwa [List.idxOf_append_of_mem ((hr.active a).1 ha).1,
    List.idxOf_append_of_mem ((hr.active b).1 hb).1]

theorem recounts_none : Recounts [] none where
  active := by simp [none]
  order := .nil
  paused := by simp [none, lastOrder?, SortedMap.contains, SortedMap.find?, SortedMap.empty,
    SortedMap.lookup]
  completed := by simp [none, SortedMap.contains, SortedMap.find?, SortedMap.empty,
    SortedMap.lookup]

/-- The collections tell the same of a hint. -/
def Agree (h h' : Hints) (id : Int32) : Prop :=
  (id ∈ h'.active ↔ id ∈ h.active) ∧ (h'.paused.contains id ↔ h.paused.contains id) ∧
    (h'.completed.contains id ↔ h.completed.contains id)

/-- An order is recounted if it leaves the other hints alone, and does right by its own. -/
theorem Recounts.concat {h' : Hints} {order : HintOrder} (hr : Recounts acts h)
    (others : ∀ other, other ≠ id → Agree h h' other)
    (sequence : h'.active.Pairwise fun a b =>
      (acts ++ [(id, order)]).idxOf (a, .start) < (acts ++ [(id, order)]).idxOf (b, .start))
    (active : id ∈ h'.active ↔
      (id, .start) ∈ acts ++ [(id, order)] ∧ (id, .complete) ∉ acts ++ [(id, order)])
    (paused : h'.paused.contains id ↔ id ∈ h'.active ∧ order = .pause)
    (completed : h'.completed.contains id ↔ (id, .complete) ∈ acts ++ [(id, order)]) :
    Recounts (acts ++ [(id, order)]) h' where
  order := sequence
  active other := by
    by_cases hne : other = id
    · exact hne ▸ active
    · rw [(others other hne).1, hr.active other]
      simp [hne]
  paused other := by
    by_cases hne : other = id
    · subst hne
      rw [paused, lastOrder?_self, Option.some.injEq]
    · rw [(others other hne).2.1, (others other hne).1, hr.paused other, lastOrder?_of_ne hne]
  completed other := by
    by_cases hne : other = id
    · exact hne ▸ completed
    · rw [(others other hne).2.2, hr.completed other]
      simp [hne]

theorem recounts_start (hr : Recounts acts h) (id : Int32) :
    Recounts (acts ++ [(id, .start)]) (h.start id) := by
  have hactive := hr.active id
  have hcompleted := hr.completed id
  rw [start]
  split
  · next hknown =>
    rw [Bool.or_eq_true, hcompleted, List.contains_iff_mem] at hknown
    refine hr.concat (fun other hne => ?_) (hr.order_append _) ?_ ?_ ?_
    · simp [Agree, SortedMap.contains_erase_iff, hne]
    · rcases hknown with hclosed | hstarted
      · simp [hactive, hclosed]
      · simp [hstarted, (hactive.1 hstarted).2]
    · simp [SortedMap.contains_erase_iff]
    · simpa using hcompleted
  · next hnew =>
    rw [Bool.or_eq_true, hcompleted, List.contains_iff_mem, not_or] at hnew
    obtain ⟨hopen, hinactive⟩ := hnew
    have hfirst : (id, .start) ∉ acts := fun hmem => hinactive (hactive.2 ⟨hmem, hopen⟩)
    refine hr.concat (fun other hne => ?_) ?_ ?_ ?_ ?_
    · simp [Agree, SortedMap.contains_erase_iff, hne]
    · refine List.pairwise_append.2 ⟨hr.order_append _, List.pairwise_singleton _ _, ?_⟩
      rintro a ha b hb
      have hbefore := ((hr.active a).1 ha).1
      rw [List.mem_singleton.1 hb, List.idxOf_append_of_mem hbefore,
        List.idxOf_append_of_notMem hfirst]
      exact Nat.lt_add_right _ (List.idxOf_lt_length_of_mem hbefore)
    · simp [hopen]
    · simp [SortedMap.contains_erase_iff]
    · simpa using hcompleted

theorem recounts_pause (hr : Recounts acts h) (id : Int32) :
    Recounts (acts ++ [(id, .pause)]) (h.pause id) := by
  have hactive := hr.active id
  have hpaused := hr.paused id
  have hcompleted := hr.completed id
  rw [pause]
  split
  · next hactive_now =>
    rw [List.contains_iff_mem] at hactive_now
    refine hr.concat (fun other hne => ?_) (hr.order_append _) ?_ ?_ ?_
    · simp [Agree, SortedMap.contains_insert_iff, hne]
    · simpa using hactive
    · simp [SortedMap.contains_insert_iff, hactive_now]
    · simpa using hcompleted
  · next hinactive =>
    rw [List.contains_iff_mem] at hinactive
    refine hr.concat (fun _ _ => ⟨.rfl, .rfl, .rfl⟩) (hr.order_append _) ?_ ?_ ?_
    · simpa using hactive
    · simp [hpaused, hinactive]
    · simpa using hcompleted

theorem recounts_complete (hr : Recounts acts h) (id : Int32) :
    Recounts (acts ++ [(id, .complete)]) (h.complete id) := by
  refine hr.concat (fun other hne => ?_) ((hr.order_append _).filter _) ?_ ?_ ?_
  · simp [Agree, complete, SortedMap.contains_insert_iff, SortedMap.contains_erase_iff, hne]
  · simp [complete]
  · simp [complete, SortedMap.contains_erase_iff]
  · simp [complete, SortedMap.contains_insert_iff]

theorem recounts_after (acts : List Act) : Recounts acts (after acts) := by
  induction acts using List.reverseRecOn with
  | nil => exact recounts_none
  | append_singleton acts act ih =>
    obtain ⟨id, order⟩ := act
    rw [after_concat]
    cases order with
    | start => exact recounts_start ih id
    | pause => exact recounts_pause ih id
    | complete => exact recounts_complete ih id

/-! ## What holds of hints -/

theorem mem_running_iff : id ∈ h.running ↔ id ∈ h.active ∧ ¬ h.paused.contains id := by
  simp [running]

theorem Recounts.not_completed (hr : Recounts acts h) (hid : id ∈ h.active) : ¬ h.isCompleted id :=
  fun hcompleted => ((hr.active id).1 hid).2 ((hr.completed id).1 hcompleted)

/-- The first of a list in strict order comes before all of it. -/
theorem head?_eq_some_iff {α : Type} {f : α → Nat} {l : List α} {a : α}
    (h : l.Pairwise fun a b => f a < f b) : l.head? = some a ↔ a ∈ l ∧ ∀ b ∈ l, f a ≤ f b := by
  cases h with
  | nil => simp
  | @cons first rest hfirst _ =>
    rw [List.head?_cons, Option.some.injEq]
    constructor
    · rintro rfl
      exact ⟨List.mem_cons_self,
        List.forall_mem_cons.2 ⟨Nat.le_refl _, fun b hb => Nat.le_of_lt (hfirst b hb)⟩⟩
    · rintro ⟨hmem, hleast⟩
      rcases List.mem_cons.1 hmem with rfl | hrest
      · rfl
      · exact absurd (hfirst a hrest) (Nat.not_lt.2 (hleast first List.mem_cons_self))

theorem Recounts.current?_iff (hr : Recounts acts h) :
    h.current? = some id ↔ (id ∈ h.active ∧ ¬ h.paused.contains id) ∧
      ∀ other ∈ h.active, ¬ h.paused.contains other →
        acts.idxOf (id, .start) ≤ acts.idxOf (other, .start) := by
  have hrunning : h.running.Pairwise fun a b => acts.idxOf (a, .start) < acts.idxOf (b, .start) :=
    hr.order.filter _
  rw [current?, head?_eq_some_iff hrunning]
  simp only [mem_running_iff, and_imp]

/-- Hints are in order whatever scripts do: no hint is active twice, or active and completed, or
paused without being active; the hint to show is the one first started of those that are active and
not paused; and a completed hint stays out of all of it. -/
theorem hints_stay_consistent (acts : List Act) :
    (after acts).active.Nodup ∧
    (∀ id ∈ (after acts).active, ¬ (after acts).isCompleted id) ∧
    (∀ id, (after acts).paused.contains id → id ∈ (after acts).active) ∧
    (∀ id, (after acts).current? = some id ↔
      (id ∈ (after acts).active ∧ ¬ (after acts).paused.contains id) ∧
        ∀ other ∈ (after acts).active, ¬ (after acts).paused.contains other →
          acts.idxOf (id, .start) ≤ acts.idxOf (other, .start)) ∧
    ((after acts).current?.isSome ↔ 0 < (after acts).activeCount) ∧
    (∀ id, (after acts).isCompleted id ↔ (id, .complete) ∈ acts) ∧
    ∀ id, (after acts).isCompleted id → ∀ later,
      (after (acts ++ later)).isCompleted id ∧ id ∉ (after (acts ++ later)).active ∧
        ¬ (after (acts ++ later)).paused.contains id ∧
          (after (acts ++ later)).current? ≠ some id := by
  have hr := recounts_after acts
  refine ⟨hr.order.imp fun hlt heq => ?_, fun _ => hr.not_completed,
    fun id hid => ((hr.paused id).1 hid).1,
    fun _ => hr.current?_iff, ?_, hr.completed, fun id hid later => ?_⟩
  · exact absurd (heq ▸ hlt) (Nat.lt_irrefl _)
  · rw [current?, List.isSome_head?, activeCount, List.length_pos_iff, ne_eq]
  · have hlater := recounts_after (acts ++ later)
    have hcompleted : (after (acts ++ later)).isCompleted id :=
      (hlater.completed id).2 (List.mem_append_left later ((hr.completed id).1 hid))
    have hinactive : id ∉ (after (acts ++ later)).active :=
      fun hactive => hlater.not_completed hactive hcompleted
    exact ⟨hcompleted, hinactive, fun hpaused => hinactive ((hlater.paused id).1 hpaused).1,
      fun hcurrent => hinactive (hlater.current?_iff.1 hcurrent).1.1⟩

theorem completed_hint_stays_away :
    let acts : List Act := [(2, .start), (5, .start), (2, .pause), (5, .complete)]
    let later : List Act := [(5, .start), (2, .start)]
    (after acts).isCompleted 5 ∧ (after acts).activeCount = 0 ∧
      5 ∉ (after (acts ++ later)).active ∧ (after (acts ++ later)).current? = some 2 := by
  intro acts later
  have hcompleted : (after acts).isCompleted 5 := by decide +kernel
  obtain ⟨-, hinactive, -, -⟩ := (hints_stay_consistent acts).2.2.2.2.2.2 5 hcompleted later
  exact ⟨hcompleted, by decide +kernel, hinactive, by decide +kernel⟩

end Hints

end Adventure
