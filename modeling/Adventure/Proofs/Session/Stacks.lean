import Adventure.Proofs.Session.Suspension

/-!
# Stacks of command lists

A script begins with one list, its root, and enters branches and called scripts above it.  It stands
on its stack as long as the root is there, and every position is one of its list or the end of it.
A route never enters a list, so its root is all that there is.
-/

namespace Adventure

/-! ## Stacks -/

/-- Branches and called scripts above one root, the innermost list first. -/
inductive IsStack : List Frame → Prop where
  | root {f : Frame} (kind : f.kind = .root) (index : f.index ≤ f.commands.length) : IsStack [f]
  | entered {f : Frame} {below : List Frame} (kind : f.kind ≠ .root)
      (index : f.index ≤ f.commands.length) (rest : IsStack below) : IsStack (f :: below)

namespace IsStack

variable {f f' : Frame} {frames below rest : List Frame}

/-- The innermost list goes to another position. -/
theorem move (h : IsStack (f :: below)) (kind : f'.kind = f.kind)
    (index : f'.index ≤ f'.commands.length) : IsStack (f' :: below) := by
  cases h with
  | root hkind _ => exact .root (kind.trans hkind) index
  | entered hkind _ rest => exact .entered (kind ▸ hkind) index rest

theorem tail (h : IsStack (f :: f' :: below)) : IsStack (f' :: below) := by
  cases h with
  | entered _ _ rest => exact rest

/-- What is left below the innermost called script. -/
theorem of_dropWhile (h : IsStack frames)
    (split : frames.dropWhile (fun f => f.kind ≠ .call) = f :: rest) : IsStack rest := by
  induction h with
  | root kind _ => simp [kind] at split
  | @entered g below _ _ hbelow ih =>
    by_cases hcall : g.kind = .call
    · simp only [List.dropWhile_cons, hcall, ne_eq, not_true_eq_false, decide_false,
        Bool.false_eq_true, ↓reduceIte, List.cons.injEq] at split
      exact split.2 ▸ hbelow
    · simp only [List.dropWhile_cons, hcall, ne_eq, not_false_eq_true, decide_true,
        ↓reduceIte] at split
      exact ih split

end IsStack

/-! ## Scripts on their stacks -/

namespace Interpreter

variable {i : Interpreter} {f : Frame} {c : Command}

theorem pending_modifyFrame (i : Interpreter) (change : Frame → Frame) :
    (i.modifyFrame change).pending = i.pending := by
  obtain ⟨frames, h⟩ := i.modifyFrame_eq change
  rw [h]

theorem walk_modifyFrame (i : Interpreter) (change : Frame → Frame) :
    (i.modifyFrame change).walk = i.walk := by
  obtain ⟨frames, h⟩ := i.modifyFrame_eq change
  rw [h]

theorem wait_modifyFrame (i : Interpreter) (change : Frame → Frame) :
    (i.modifyFrame change).wait = i.wait := by
  obtain ⟨frames, h⟩ := i.modifyFrame_eq change
  rw [h]

/-- A script that runs on its stack; a route has nothing above its root. -/
structure Stands (i : Interpreter) : Prop where
  live : i.terminated = false
  stack : IsStack i.frames
  route : i.kind = .route ↔ i.route.isSome = true
  depth : i.kind = .route → i.frames.length = 1

theorem stands_start (id : Nat) (mapId roomId eventId : Int32) {kind : InterpreterKind}
    (script : Script) (isScript : kind ≠ .route) :
    (start id mapId roomId eventId kind script).Stands where
  live := rfl
  stack := .root rfl (Nat.zero_le _)
  route := ⟨fun h => absurd h isScript, fun h => by cases h⟩
  depth _ := rfl

theorem stands_startRoute (id : Nat) (mapId roomId : Int32) (route : RouteState) (body : Script) :
    (startRoute id mapId roomId route body).Stands where
  live := rfl
  stack := .root rfl (Nat.zero_le _)
  route := ⟨fun _ => rfl, fun _ => rfl⟩
  depth _ := rfl

namespace Stands

/-- The innermost list goes to another position. -/
theorem modifyFrame (h : i.Stands) {change : Frame → Frame}
    (hchange : ∀ f, i.frame? = some f →
      (change f).kind = f.kind ∧ (change f).index ≤ (change f).commands.length) :
    (i.modifyFrame change).Stands := by
  unfold Interpreter.modifyFrame
  split
  · next f below hframes =>
    have hframe : i.frame? = some f := by rw [frame?, hframes, List.head?_cons]
    obtain ⟨hkind, hindex⟩ := hchange f hframe
    refine ⟨h.live, (hframes ▸ h.stack).move hkind hindex, h.route, fun hroute => ?_⟩
    have hdepth := h.depth hroute
    rw [hframes] at hdepth
    exact hdepth
  · exact h

theorem advance (h : i.Stands) (hcurrent : i.current? = some c) : i.advance.Stands := by
  refine h.modifyFrame fun f hframe => ⟨rfl, ?_⟩
  rw [current?, hframe, Option.bind_some] at hcurrent
  exact Nat.succ_le_of_lt (List.getElem?_eq_some_iff.1 hcurrent).1

theorem jump (h : i.Stands) {index : Nat} (hframe : i.frame? = some f)
    (hindex : index ≤ f.commands.length) : (i.jump index).Stands := by
  refine h.modifyFrame fun g hg => ⟨rfl, ?_⟩
  obtain rfl := Option.some.inj (hframe.symm.trans hg)
  exact hindex

theorem push (h : i.Stands) (script : i.kind ≠ .route) (kind : f.kind ≠ .root)
    (index : f.index ≤ f.commands.length) : (i.push f).Stands :=
  ⟨h.live, .entered kind index h.stack, h.route, fun hroute => absurd hroute script⟩

/-- A route has called nothing that it could return from. -/
theorem leave (h : i.Stands) (live : i.leave.terminated = false) : i.leave.Stands := by
  unfold Interpreter.leave at live ⊢
  split at live
  · next g rest hsplit =>
    have hstack := h.stack.of_dropWhile hsplit
    refine ⟨h.live, hstack, h.route, fun hroute => ?_⟩
    -- of a single root nothing is left below a called script
    have hle := (List.dropWhile_sublist (l := i.frames) fun f => f.kind ≠ .call).length_le
    rw [hsplit, h.depth hroute, List.length_cons] at hle
    have hnil : rest = [] := List.eq_nil_of_length_eq_zero (by omega)
    subst hnil
    cases hstack
  · cases live

theorem finishFrame (h : i.Stands) (live : i.finishFrame.2.terminated = false) :
    i.finishFrame.2.Stands := by
  unfold Interpreter.finishFrame at live ⊢
  split at live
  · next f g below hframes =>
    refine ⟨h.live, (hframes ▸ h.stack).tail, h.route, fun hroute => ?_⟩
    have hdepth := h.depth hroute
    simp [hframes] at hdepth
  · split at live
    · next hrepeats =>
      rw [if_pos hrepeats]
      exact h.modifyFrame fun f _ => ⟨rfl, Nat.zero_le _⟩
    · cases live

end Stands

end Interpreter

end Adventure
