import Adventure.Project.Basic
import Adventure.Proofs.Script.Visits

/-!
# Commands that were not understood

The diagnostics of a project list every command of its scripts that was not understood, once and in
order, with the owner of the script and the path that a walk through it gives the command.  Owners
are named by ids, and paths count the body of a route as list 0.  So an owner and a path tell
commands apart in a project where no two scripts have the same owner and no route has commands both
in its first branch and in its body.
-/

namespace Adventure

/-! ## Scripts -/

namespace Project

variable {project : Project}

/-- Where the scripts of a project stand. -/
inductive HasScript (project : Project) : List Nat → ScriptOwner → Script → Prop where
  | page {a b c i : Nat} {map : MapData} {room : Room} {event : EventData} {page : Page}
    (hmap : project.maps[a]? = some map) (hroom : map.rooms[b]? = some room)
    (hevent : room.events[c]? = some event) (hpage : event.pages[i]? = some page) :
    HasScript project [0, a, b, c, i] (.page map.id room.id event.id i) page.commands
  | item {i : Nat} {item : Item} (h : project.items[i]? = some item) :
    HasScript project [1, i] (.item item.id) item.commands
  | combine {i : Nat} {combine : Combine} (h : project.combines[i]? = some combine) :
    HasScript project [2, i] (.combine combine.id) combine.commands
  | commonEvent {i : Nat} {event : CommonEvent} (h : project.commonEvents[i]? = some event) :
    HasScript project [3, i] (.commonEvent event.id) event.commands
  | hint {i : Nat} {hint : Hint} (h : project.hints[i]? = some hint) :
    HasScript project [4, i] (.hint hint.id) hint.commands

/-- No place of a script goes on from another. -/
theorem HasScript.eq_of_prefix {p q : List Nat} {owner owner' : ScriptOwner}
    {script script' : Script}
    (h : project.HasScript p owner script) (h' : project.HasScript q owner' script')
    (hpre : p <+: q) : p = q := by
  refine hpre.eq_of_length ?_
  cases h <;> cases h' <;> simp_all

/-- The scripts of the events' pages. -/
theorem enumerates_pages (project : Project) :
    Enumerates (Numbered (fun _ m => Numbered (fun _ r => Numbered (fun _ e =>
      Numbered (fun i (page : Page) q s =>
        q = [] ∧ s = (ScriptOwner.page m.id r.id e.id i, page.commands)) 0 e.pages)
      0 r.events) 0 m.rooms) 0 project.maps)
      (project.maps.flatMap fun m => m.rooms.flatMap fun r => r.events.flatMap fun e =>
        e.pages.zipIdx.map fun (p, i) => (.page m.id r.id e.id i, p.commands)) :=
  .numbered fun _ _ _ => .numbered fun _ _ _ => .numbered fun _ _ _ => .mapIdx ..

/-- The scripts of a project in the order of their places. -/
theorem enumerates_scripts (project : Project) :
    Enumerates (fun p s => project.HasScript p s.1 s.2) project.scripts := by
  have hpages := (enumerates_pages project).first
  have hitems := Enumerates.extend hpages
    (.map (fun i => (.item i.id, i.commands)) project.items)
  have hcombines := Enumerates.extend hitems
    (.map (fun c => (.combine c.id, c.commands)) project.combines)
  have hevents := Enumerates.extend hcombines
    (.map (fun e => (.commonEvent e.id, e.commands)) project.commonEvents)
  have hall := Enumerates.extend hevents
    (.map (fun h => (.hint h.id, h.commands)) project.hints)
  refine hall.1.congr fun p ⟨owner, script⟩ => ⟨?_, fun h => ?_⟩
  · rintro ((((⟨_, rfl, a, m, _, hmap, rfl, b, r, _, hroom, rfl, c, e, _, hevent, rfl,
      i, page, _, hpage, rfl, rfl, heq⟩ | ⟨_, rfl, i, _, _, h, rfl, rfl, heq⟩) |
      ⟨_, rfl, i, _, _, h, rfl, rfl, heq⟩) | ⟨_, rfl, i, _, _, h, rfl, rfl, heq⟩) |
      ⟨_, rfl, i, _, _, h, rfl, rfl, heq⟩) <;> cases heq <;> simp only [Nat.zero_add]
    · exact .page hmap hroom hevent hpage
    · exact .item h
    · exact .combine h
    · exact .commonEvent h
    · exact .hint h
  · cases h with
    | page hmap hroom hevent hpage =>
      exact .inl (.inl (.inl (.inl ⟨_, rfl, _, _, _, hmap, by rw [Nat.zero_add], _, _, _,
        hroom, by rw [Nat.zero_add], _, _, _, hevent, by rw [Nat.zero_add], _, _, _, hpage,
        by rw [Nat.zero_add], rfl, by rw [Nat.zero_add]⟩)))
    | item h => exact .inl (.inl (.inl (.inr ⟨_, rfl, _, _, _, h, by rw [Nat.zero_add], rfl, rfl⟩)))
    | combine h => exact .inl (.inl (.inr ⟨_, rfl, _, _, _, h, by rw [Nat.zero_add], rfl, rfl⟩))
    | commonEvent h => exact .inl (.inr ⟨_, rfl, _, _, _, h, by rw [Nat.zero_add], rfl, rfl⟩)
    | hint h => exact .inr ⟨_, rfl, _, _, _, h, by rw [Nat.zero_add], rfl, rfl⟩

/-- Which command stands in a project: at which place, in whose script, and with which
path there. -/
def Stands (project : Project) (place : List Nat) (owner : ScriptOwner) (path : List Nat)
    (c : Command) : Prop :=
  ∃ q r script, project.HasScript q owner script ∧ Script.Stands script r path c ∧ place = q ++ r

/-! ## Diagnostics -/

/-- Whether a diagnostic tells of the command at a place. -/
def Misread (project : Project) (place : List Nat) (d : ScriptDiagnostic) : Prop :=
  ∃ c, project.Stands place d.owner d.path c ∧ c.misreading? = some d.why ∧ c.name = d.name

/-- The diagnostics tell of every command that was not understood. -/
theorem enumerates_diagnostics (project : Project) :
    Enumerates project.Misread project.diagnostics := by
  have hscript : ∀ s : ScriptOwner × Script, Enumerates _ (diagnose s.1 s.2) := fun s =>
    (Script.enumerates_visits s.2).filterMap fun v =>
      v.command.misreading?.map fun why =>
        ScriptDiagnostic.mk s.1 v.path v.command.name why
  refine (project.enumerates_scripts.flatMap hscript
    fun _ _ _ _ h h' => h.eq_of_prefix h').congr fun place d => ?_
  constructor
  · rintro ⟨q, s, hscript, r, rfl, v, hstands, hd⟩
    obtain ⟨why, hwhy, rfl⟩ := Option.map_eq_some_iff.1 hd
    exact ⟨v.command, ⟨q, r, s.2, hscript, hstands, rfl⟩, hwhy, rfl⟩
  · rintro ⟨c, ⟨q, r, script, hscript, hstands, rfl⟩, hwhy, hname⟩
    refine ⟨q, (d.owner, script), hscript, r, rfl, ⟨d.path, c⟩, hstands, ?_⟩
    simp only [hwhy, hname, Option.map_some]

/-- The owners of the scripts that have commands. -/
def owners (project : Project) : List ScriptOwner :=
  project.scripts.filterMap fun (owner, script) => if script.isEmpty then none else some owner

/-- Whether owners and paths tell the commands of a project apart. -/
structure TellsApart (project : Project) : Prop where
  owners : project.owners.Nodup
  paths : ∀ s ∈ project.scripts, Script.NumbersApart s.2

/-- An owner and a path lead to one place at most. -/
theorem Stands.unique {place place' : List Nat} {owner : ScriptOwner} {path : List Nat}
    {c c' : Command} (apart : project.TellsApart) (h : project.Stands place owner path c)
    (h' : project.Stands place' owner path c') : place = place' ∧ c = c' := by
  obtain ⟨q, r, script, hscript, hstands, rfl⟩ := h
  obtain ⟨q', r', script', hscript', hstands', rfl⟩ := h'
  have howners := project.enumerates_scripts.filterMap
    fun (owner, script) => if script.isEmpty then none else some owner
  have howned : ∀ {q script}, project.HasScript q owner script → script ≠ [] →
      ∃ s : ScriptOwner × Script, project.HasScript q s.1 s.2 ∧
        (if s.2.isEmpty then none else some s.1) = some owner :=
    fun {_ script} hscript hne => ⟨(owner, script), hscript, by simp [hne]⟩
  have hunrepeated := howners.nodup_map_iff (f := id)
  rw [List.map_id] at hunrepeated
  obtain rfl := hunrepeated.1 apart.owners q q' owner owner (howned hscript hstands.ne_nil)
    (howned hscript' hstands'.ne_nil) rfl
  obtain ⟨-, rfl⟩ := Prod.mk.inj
    (project.enumerates_scripts.unique (a := (owner, script)) (b := (owner, script')) hscript
      hscript')
  have hmem := project.enumerates_scripts.mem_iff (a := (owner, script)) |>.2 ⟨q, hscript⟩
  obtain ⟨rfl, rfl⟩ := hstands.unique (apart.paths (owner, script) hmem) hstands'
  exact ⟨rfl, rfl⟩

/-- Diagnostics locate every command that was not understood.  A walk through a script comes past
every command once and in order, parents before children, and its paths lead to the commands; they
lead nowhere else if they tell the lists below every command apart.  So the diagnostics of a project
tell of each command that was not understood once and in order, with an owner and a path that lead
to it, and to no other command if owners and paths tell commands apart. -/
theorem diagnostics_locate (project : Project) :
    (∀ script, Enumerates (fun place v => Script.Stands script place v.path v.command)
      (Command.visits script)) ∧
    (∀ script, Script.NumbersApart script → ((Command.visits script).map (·.path)).Nodup ∧
      ∀ v ∈ Command.visits script, ∃ place, Script.Stands script place v.path v.command ∧
        ∀ place' c, Script.Stands script place' v.path c → place' = place ∧ c = v.command) ∧
    Enumerates project.Misread project.diagnostics ∧
    (project.TellsApart → (project.diagnostics.map fun d => (d.owner, d.path)).Nodup ∧
      ∀ d ∈ project.diagnostics, ∃ place c, project.Stands place d.owner d.path c ∧
        c.misreading? = some d.why ∧ c.name = d.name ∧
        ∀ place' c', project.Stands place' d.owner d.path c' → place' = place ∧ c' = c) := by
  refine ⟨Script.enumerates_visits, fun script apart => ⟨Script.nodup_paths_iff.2 apart, ?_⟩,
    project.enumerates_diagnostics, fun apart => ⟨?_, ?_⟩⟩
  · intro v hv
    obtain ⟨place, hstands⟩ := (Script.enumerates_visits script).mem_iff.1 hv
    exact ⟨place, hstands, fun place' c hstands' => hstands'.unique apart hstands⟩
  · rw [project.enumerates_diagnostics.nodup_map_iff]
    rintro place place' d d' ⟨c, hstands, -, -⟩ ⟨c', hstands', -, -⟩ heq
    obtain ⟨howner, hpath⟩ := Prod.mk.inj heq
    rw [← howner, ← hpath] at hstands'
    exact (hstands.unique apart hstands').1
  · intro d hd
    obtain ⟨place, c, hstands, hwhy, hname⟩ := project.enumerates_diagnostics.mem_iff.1 hd
    exact ⟨place, c, hstands, hwhy, hname, fun place' c' hstands' => hstands'.unique apart hstands⟩

end Project

/-- A project with shared scripts of one id. -/
def Project.ofScripts (scripts : List Script) : Project :=
  { (default : Project) with
    commonEvents := scripts.map fun script => { id := 1, name := "", commands := script } }

/-- A command that no name fits. -/
def Command.garbled (name : String) : Command := .act (.unrecognized name .null .unknownName) []

/-- A condition and a route, each with a garbled command below it. -/
def nestedScript : Script :=
  [.act (.branch []) [[.act .nop [], .garbled "one"]],
    .route { eventId := -1, repeats := false, skip := false, wait := false } [.garbled "two"] []]

theorem nestedScript_diagnostics_locate :
    let project := Project.ofScripts [nestedScript]
    project.TellsApart ∧
      project.diagnostics = [⟨.commonEvent 1, [0, 0, 1], "one", .unknownName⟩,
        ⟨.commonEvent 1, [1, 0, 0], "two", .unknownName⟩] ∧
      ∀ d ∈ project.diagnostics, ∃ place c, project.Stands place d.owner d.path c ∧
        c.misreading? = some d.why ∧ c.name = d.name ∧
        ∀ place' c', project.Stands place' d.owner d.path c' → place' = place ∧ c' = c := by
  have apart : (Project.ofScripts [nestedScript]).TellsApart := ⟨by decide, by decide⟩
  exact ⟨apart, by decide, ((Project.ofScripts [nestedScript]).diagnostics_locate.2.2.2 apart).2⟩

/-- A route with a garbled command in a branch and one in the body. -/
def crossedScript : Script :=
  [.route { eventId := -1, repeats := false, skip := false, wait := false } [.garbled "two"]
    [[.garbled "one"]]]

/-- The garbled commands have one path, and so do those of two scripts with one id. -/
theorem crossedScript_not_apart :
    ¬((Command.visits crossedScript).map (·.path)).Nodup ∧
      (Project.ofScripts [crossedScript]).diagnostics =
        [⟨.commonEvent 1, [0, 0, 0], "one", .unknownName⟩,
          ⟨.commonEvent 1, [0, 0, 0], "two", .unknownName⟩] ∧
      (Project.ofScripts [[.garbled "one"], [.garbled "two"]]).diagnostics =
        [⟨.commonEvent 1, [0], "one", .unknownName⟩,
          ⟨.commonEvent 1, [0], "two", .unknownName⟩] := by
  decide

end Adventure
