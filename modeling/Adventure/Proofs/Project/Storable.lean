import Adventure.Proofs.Script.Documents
import Adventure.Project.Wire

/-!
# Scripts of projects

Every script of a project that was read from a document is storable.
-/

namespace Adventure

open Wire Wire.Value

/-! ## Scripts -/

/-- Whether a document may hold a script. -/
def Script.Storable (script : Script) : Prop :=
  ∃ depth ≤ Json.maxDepth, Command.StorableList depth script

namespace Script.Storable

theorem branch {script : Script} (h : Storable script) {command : Command} (hc : command ∈ script)
    {branch : Script} (hb : branch ∈ command.branches) : Storable branch := by
  obtain ⟨depth, hdepth, hscript⟩ := h
  have hcommand := Command.storableList_iff.1 hscript command hc
  have hlists : Command.StorableLists (depth - 2) command.branches := by
    cases command with
    | act action branches => exact hcommand.2.2
    | route order body branches => exact hcommand.2.2
  exact ⟨depth - 2 - 1, by omega, (Command.storableLists_iff.1 hlists branch hb).2⟩

theorem body {script : Script} (h : Storable script) {order : RouteOrder} {body : Script}
    {branches : List Script} (hc : .route order body branches ∈ script) : Storable body := by
  obtain ⟨depth, hdepth, hscript⟩ := h
  have hroute := Command.storableList_iff.1 hscript _ hc
  exact ⟨depth - 3, by omega, hroute.2.1⟩

theorem nil : Storable [] := ⟨0, Nat.zero_le _, trivial⟩

end Script.Storable

/-! ## Reading projects -/

/-- Whether something is read from a tree of a document. -/
def Wire.Documented {α : Type} [Wire α] (a : α) : Prop :=
  ∃ v : Value, v.Bounded Json.maxDepth ∧ decode? .document v = some a

namespace Wire.Documented

variable {α β : Type} [Wire α] [Wire β]

/-- What is in a list in a field is documented. -/
theorem of_field {v : Value} {f : Fields} {names : List String} {name : String} {xs : List α}
    (hv : v.Bounded Json.maxDepth) (hf : Fields.read? .document names v = some f)
    (h : f.withDefault .document name [] = some xs) : ∀ x ∈ xs, Documented x := by
  intro x hx
  unfold Fields.withDefault Fields.orElse at h
  split at h
  · next y hy =>
    have hyv := ((Fields.part_of_read hf hy).bounded hv).2
    obtain ⟨z, hz, hread⟩ := Command.part_of_readList h x hx
    have hzy := (hz.bounded hyv).2
    exact ⟨z, hzy.of_depth_le (Nat.le_trans hzy.depth_le (by omega)), hread⟩
  · obtain rfl := Option.some.inj h
    cases hx

/-- A script whose commands are documented is storable. -/
theorem script {script : Script} (h : ∀ c ∈ script, Documented c) : Script.Storable script := by
  refine ⟨Json.maxDepth, Nat.le_refl _, Command.storableList_iff.2 fun c hc => ?_⟩
  obtain ⟨v, hv, hread⟩ := h c hc
  exact Command.storable_of_read hv hread

theorem page {p : Page} (h : Documented p) : Script.Storable p.commands := by
  obtain ⟨v, hv, hread⟩ := h
  obtain ⟨f, hf, hread⟩ := Option.bind_eq_some_iff.1 hread
  obtain ⟨conditions, -, hread⟩ := Option.bind_eq_some_iff.1 hread
  obtain ⟨image, -, hread⟩ := Option.bind_eq_some_iff.1 hread
  obtain ⟨imageIndex, -, hread⟩ := Option.bind_eq_some_iff.1 hread
  obtain ⟨frame, -, hread⟩ := Option.bind_eq_some_iff.1 hread
  obtain ⟨dir, -, hread⟩ := Option.bind_eq_some_iff.1 hread
  simp only [Option.bind_eq_bind, Option.bind_eq_some_iff] at hread
  obtain ⟨dirFix, -, stepping, -, walking, -, through, -, speed, -, trigger, -, priority, -,
    commands, hcommands, hread⟩ := hread
  obtain rfl := Option.some.inj hread
  exact script (of_field hv hf hcommands)

theorem event {e : EventData} (h : Documented e) : ∀ p ∈ e.pages, Documented p := by
  obtain ⟨v, hv, hread⟩ := h
  simp only [decode?, Option.bind_eq_bind, Option.bind_eq_some_iff] at hread
  obtain ⟨f, hf, id, -, x, -, y, -, pages, hpages, hread⟩ := hread
  obtain rfl := Option.some.inj hread
  exact of_field hv hf hpages

theorem room {r : Room} (h : Documented r) : ∀ e ∈ r.events, Documented e := by
  obtain ⟨v, hv, hread⟩ := h
  simp only [decode?, Option.bind_eq_bind, Option.bind_eq_some_iff] at hread
  obtain ⟨f, hf, id, -, width, -, height, -, tileSetId, -, tiles, -, events, hevents, background, -,
    foreground, -, hread⟩ := hread
  obtain rfl := Option.some.inj hread
  exact of_field hv hf hevents

theorem map {d : MapData} (h : Documented d) : ∀ r ∈ d.rooms, Documented r := by
  obtain ⟨v, hv, hread⟩ := h
  simp only [decode?, Option.bind_eq_bind, Option.bind_eq_some_iff] at hread
  obtain ⟨f, hf, id, -, name, -, rooms, hrooms, hread⟩ := hread
  obtain rfl := Option.some.inj hread
  exact of_field hv hf hrooms

theorem item {i : Item} (h : Documented i) : Script.Storable i.commands := by
  obtain ⟨v, hv, hread⟩ := h
  simp only [decode?, Option.bind_eq_bind, Option.bind_eq_some_iff] at hread
  obtain ⟨f, hf, id, -, name, -, icon, -, group, -, commands, hcommands, hread⟩ := hread
  obtain rfl := Option.some.inj hread
  exact script (of_field hv hf hcommands)

theorem combine {c : Combine} (h : Documented c) : Script.Storable c.commands := by
  obtain ⟨v, hv, hread⟩ := h
  simp only [decode?, Option.bind_eq_bind, Option.bind_eq_some_iff] at hread
  obtain ⟨f, hf, id, -, item1, -, item2, -, kind, -, commands, hcommands, hread⟩ := hread
  obtain rfl := Option.some.inj hread
  exact script (of_field hv hf hcommands)

theorem commonEvent {e : CommonEvent} (h : Documented e) : Script.Storable e.commands := by
  obtain ⟨v, hv, hread⟩ := h
  simp only [decode?, Option.bind_eq_bind, Option.bind_eq_some_iff] at hread
  obtain ⟨f, hf, id, -, name, -, commands, hcommands, hread⟩ := hread
  obtain rfl := Option.some.inj hread
  exact script (of_field hv hf hcommands)

theorem hint {t : Hint} (h : Documented t) : Script.Storable t.commands := by
  obtain ⟨v, hv, hread⟩ := h
  simp only [decode?, Option.bind_eq_bind, Option.bind_eq_some_iff] at hread
  obtain ⟨f, hf, id, -, commands, hcommands, hread⟩ := hread
  obtain rfl := Option.some.inj hread
  exact script (of_field hv hf hcommands)

end Wire.Documented

/-- Every script of a project in a document is storable. -/
theorem Project.storable_of_documented {project : Project} (h : Documented project) :
    ∀ entry ∈ project.scripts, Script.Storable entry.2 := by
  obtain ⟨v, hv, hread⟩ := h
  simp only [decode?, Option.bind_eq_bind, Option.bind_eq_some_iff] at hread
  obtain ⟨f, hf, maps, hmaps, tileSets, -, texts, -, items, hitems, combines, hcombines,
    commonEvents, hevents, hints, hhints, products, -, tables, -, system, -, hread⟩ := hread
  obtain rfl := Option.some.inj hread
  intro entry hentry
  simp only [scripts, List.mem_append, List.mem_flatMap, List.mem_map] at hentry
  rcases hentry with (((hpage | hitem) | hcombine) | hevent) | hhint
  · obtain ⟨d, hd, r, hr, e, he, ⟨p, index⟩, hp, rfl⟩ := hpage
    have hroom := (Documented.of_field hv hf hmaps d hd).map r hr
    exact ((hroom.room e he).event p (List.fst_mem_of_mem_zipIdx hp)).page
  · obtain ⟨i, hi, rfl⟩ := hitem
    exact (Documented.of_field hv hf hitems i hi).item
  · obtain ⟨c, hc, rfl⟩ := hcombine
    exact (Documented.of_field hv hf hcombines c hc).combine
  · obtain ⟨e, he, rfl⟩ := hevent
    exact (Documented.of_field hv hf hevents e he).commonEvent
  · obtain ⟨t, ht, rfl⟩ := hhint
    exact (Documented.of_field hv hf hhints t ht).hint

/-- Every script of a project that was read is storable. -/
theorem Project.storable_of_read {bytes : List UInt8} {project : Project}
    (h : ofDocumentBytes? bytes = some project) :
    ∀ entry ∈ project.scripts, Script.Storable entry.2 := by
  obtain ⟨v, hv, hread⟩ := Option.bind_eq_some_iff.1 h
  exact storable_of_documented ⟨v, Json.bounded_readPieces? hv, hread⟩

end Adventure
