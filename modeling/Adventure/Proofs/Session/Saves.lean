import Mathlib.Data.List.Sort
import Adventure.Proofs.Platform.Answers
import Adventure.Proofs.Session.Registry

/-!
# The protocol of saves

Saves come from scripts, which queue them, and from the host, and the answers to them come whenever
the platform likes.  A story is told here by what happens to saves in it: one is scheduled by a
script, one is submitted to the host, an answer is received.  Between two submissions the answer to
the first is received, and what scripts have scheduled is submitted in order and at most once.
-/

namespace Adventure

open Moment (Next Trail)

/-! ## Ids in use -/

namespace Platform

/-- The ids under which something was asked or answered. -/
def usedIds (p : Platform) : List Nat := p.askedIds ++ p.inbox.map (·.id) ++ p.answers.keys

/-- No answer is collected, and the ids that come into use are of a certain kind. -/
structure Uses (p p' : Platform) (new : Nat → Prop) : Prop where
  answers : ∀ id ∈ p'.answers.keys, id ∈ p.answers.keys
  used : ∀ id ∈ p'.usedIds, id ∈ p.usedIds ∨ new id

variable {p p' : Platform} {new : Nat → Prop}

theorem mem_usedIds {id : Nat} :
    id ∈ p.usedIds ↔ id ∈ p.askedIds ∨ id ∈ p.inbox.map (·.id) ∨ id ∈ p.answers.keys := by
  simp [usedIds]

theorem Uses.refl (p : Platform) (new : Nat → Prop) : p.Uses p new := ⟨fun _ h => h, fun _ => .inl⟩

theorem Silent.usedIds (h : p.Silent p') : p'.usedIds = p.usedIds := by
  rw [Platform.usedIds, Platform.usedIds, askedIds, askedIds, h.requests, h.inbox, h.answers]

theorem Silent.uses (h : p.Silent p') (new : Nat → Prop) : p.Uses p' new :=
  ⟨fun _ hid => h.answers ▸ hid, fun _ hid => .inl (h.usedIds ▸ hid)⟩

theorem Silent.saves (h : p.Silent p') : p'.saves = p.saves := by
  rw [Platform.saves, Platform.saves, h.requests]

theorem uses_send (p : Platform) (id : Nat) (r : Request) : p.Uses (p.send id r) (· = id) := by
  refine ⟨fun k hk => by rwa [answers_send] at hk, fun k hk => ?_⟩
  rw [mem_usedIds] at hk ⊢
  rcases hk with hk | hk | hk
  · rw [askedIds, requests_send, List.map_append, List.mem_append] at hk
    exact hk.imp .inl List.mem_singleton.1
  · obtain ⟨a, ha, rfl⟩ := List.mem_map.1 hk
    exact (mem_inbox_send p ha).imp_left fun ha => .inr (.inl (List.mem_map_of_mem ha))
  · rw [answers_send] at hk
    exact .inl (.inr (.inr hk))

theorem uses_saveProgress (p : Platform) (id : Nat) (data : List UInt8) :
    p.Uses (p.saveProgress id data) (· = id) :=
  have huses := uses_send { p with progress := some data } id (.saveProgress data)
  ⟨huses.answers, huses.used⟩

theorem uses_deliver (p : Platform) (a : Answer) : p.Uses (p.deliver a) (· = a.id) := by
  refine ⟨fun _ h => h, fun k hk => ?_⟩
  rw [mem_usedIds] at hk ⊢
  rcases hk with hk | hk | hk
  · exact .inl (.inl hk)
  · rw [deliver, List.map_append, List.mem_append] at hk
    exact hk.imp (fun hk => .inr (.inl hk)) List.mem_singleton.1
  · exact .inl (.inr (.inr hk))

theorem uses_takeAnswer (p : Platform) (id : Nat) (new : Nat → Prop) :
    p.Uses (p.takeAnswer id).2 new := by
  have hkeys : ∀ k ∈ (p.takeAnswer id).2.answers.keys, k ∈ p.answers.keys := fun k hk => by
    rw [SortedMap.mem_keys_iff] at hk ⊢
    by_cases heq : k = id
    · rw [heq, show (p.takeAnswer id).2.answers.find? id = none from
        SortedMap.find?_erase_self _ _] at hk
      cases hk
    · rwa [show (p.takeAnswer id).2.answers.find? k = p.answers.find? k from
        SortedMap.find?_erase_of_ne _ heq] at hk
  refine ⟨hkeys, fun k hk => .inl ?_⟩
  rw [mem_usedIds] at hk ⊢
  exact hk.imp_right (Or.imp_right (hkeys k))

theorem mem_keys_collect {project : Project} {id : Nat}
    (h : id ∈ (p.collect project).answers.keys) :
    id ∈ p.answers.keys ∨ id ∈ p.inbox.map (·.id) := by
  rw [SortedMap.mem_keys_iff, find?_collect] at h
  split at h
  · rw [latestAnswer?, Option.isSome_or, Bool.or_eq_true] at h
    rcases h with h | h
    · obtain ⟨a, ha, hid⟩ := List.find?_isSome.1 h
      exact .inr (List.mem_map.2 ⟨a, List.mem_reverse.1 ha, beq_iff_eq.1 hid⟩)
    · exact .inl ((SortedMap.mem_keys_iff _ _).2 h)
  · cases h

theorem mem_usedIds_collect {project : Project} {id : Nat}
    (h : id ∈ (p.collect project).usedIds) : id ∈ p.usedIds := by
  rw [mem_usedIds] at h ⊢
  rcases h with h | h | h
  · rw [askedIds, requests_collect] at h
    exact .inl h
  · simp at h
  · exact .inr (mem_keys_collect h).symm

theorem length_inbox_send (p : Platform) (id : Nat) (r : Request) :
    p.inbox.length ≤ (p.send id r).inbox.length := by
  unfold send
  dsimp only
  split
  · simp [deliver, tell]
  · exact le_rfl

theorem saves_send {id : Nat} {r : Request} (h : r.kind ≠ .saveProgress) :
    (p.send id r).saves = p.saves := by
  rw [saves, saves, requests_send]
  cases r <;> first | exact absurd rfl h | simp

theorem length_inbox_saveProgress (p : Platform) (id : Nat) (data : List UInt8) :
    p.inbox.length ≤ (p.saveProgress id data).inbox.length :=
  length_inbox_send { p with progress := some data } id _

theorem saves_saveProgress (p : Platform) (id : Nat) (data : List UInt8) :
    (p.saveProgress id data).saves = p.saves ++ [(id, data)] := by
  rw [saves, saves, requests_saveProgress]
  simp

end Platform

/-! ## Events -/

/-- What happens to saves. -/
inductive SaveEvent where
  /-- A script queues a save, to be submitted under an id. -/
  | scheduled (id : Nat)
  /-- Progress is sent to the host. -/
  | submitted (id : Nat) (data : List UInt8)
  /-- The answer to a request is collected. -/
  | received (id : Nat)

namespace SaveEvent

def scheduledId? : SaveEvent → Option Nat
  | scheduled id => some id
  | _ => none

/-- What was submitted, and under which id. -/
def submission? : SaveEvent → Option (Nat × List UInt8)
  | submitted id data => some (id, data)
  | _ => none

/-- The ids of scheduled saves, in order. -/
def scheduledIds (log : List SaveEvent) : List Nat := log.filterMap scheduledId?

/-- The saves that were submitted, in order. -/
def submissions (log : List SaveEvent) : List (Nat × List UInt8) := log.filterMap submission?

/-- The ids of the saves that were submitted, in order. -/
def submittedIds (log : List SaveEvent) : List Nat := (submissions log).map (·.1)

variable (first more : List SaveEvent)

@[simp] theorem scheduledIds_append :
    scheduledIds (first ++ more) = scheduledIds first ++ scheduledIds more := List.filterMap_append

@[simp] theorem submissions_append :
    submissions (first ++ more) = submissions first ++ submissions more := List.filterMap_append

@[simp] theorem submittedIds_append :
    submittedIds (first ++ more) = submittedIds first ++ submittedIds more := by
  simp [submittedIds]

@[simp] theorem scheduledIds_cons_scheduled (id : Nat) :
    scheduledIds (.scheduled id :: more) = id :: scheduledIds more := rfl

@[simp] theorem submissions_cons_scheduled (id : Nat) :
    submissions (.scheduled id :: more) = submissions more := rfl

@[simp] theorem scheduledIds_cons_submitted (id : Nat) (data : List UInt8) :
    scheduledIds (.submitted id data :: more) = scheduledIds more := rfl

@[simp] theorem submissions_cons_submitted (id : Nat) (data : List UInt8) :
    submissions (.submitted id data :: more) = (id, data) :: submissions more := rfl

@[simp] theorem scheduledIds_nil : scheduledIds [] = [] := rfl

@[simp] theorem submissions_nil : submissions [] = [] := rfl

@[simp] theorem submittedIds_nil : submittedIds [] = [] := rfl

@[simp] theorem scheduledIds_received (inbox : List Answer) :
    scheduledIds (inbox.map fun a => .received a.id) = [] := by
  simp [scheduledIds, scheduledId?]

@[simp] theorem submissions_received (inbox : List Answer) :
    submissions (inbox.map fun a => .received a.id) = [] := by
  simp [submissions, submission?]

end SaveEvent

namespace Moment

/-- The ids of the saves that scripts have queued. -/
def queue (m : Moment) : List Nat := m.session.world.scheduledSaves

/-- The id under which something was asked last. -/
def last (m : Moment) : Nat := m.session.platform.lastRequestId

/-- What happens to saves from one moment to the next. -/
def saveEvents (m m' : Moment) : List SaveEvent :=
  let p := m.session.platform
  let p' := m'.session.platform
  (p.inbox.drop p'.inbox.length).map (fun a => .received a.id) ++
    (m'.queue.drop m.queue.length).map .scheduled ++
    (p'.saves.drop p.saves.length).map fun (id, data) => .submitted id data

/-- All that can happen to saves from one moment to the next. -/
inductive Saving (m m' : Moment) : List SaveEvent → Prop where
  | nothing (inFlight : m'.session.world.saveInFlight = m.session.world.saveInFlight)
      (queue : m'.queue = m.queue) (last : m.last ≤ m'.last)
      (uses : m.session.platform.Uses m'.session.platform fun id => m.last < id ∧ id ≤ m'.last)
      (saves : m'.session.platform.saves = m.session.platform.saves) : Saving m m' []
  | schedules (inFlight : m'.session.world.saveInFlight = m.session.world.saveInFlight)
      (queue : m'.queue = m.queue ++ [m.last + 1]) (last : m'.last = m.last + 1)
      (uses : m.session.platform.Uses m'.session.platform fun _ => False)
      (saves : m'.session.platform.saves = m.session.platform.saves) :
      Saving m m' [.scheduled (m.last + 1)]
  | receives (inFlight : m'.session.world.saveInFlight = m.session.world.saveInFlight)
      (queue : m'.queue = m.queue) (last : m'.last = m.last)
      (answers : ∀ id ∈ m'.session.platform.answers.keys,
        id ∈ m.session.platform.answers.keys ∨ id ∈ m.session.platform.inbox.map (·.id))
      (used : ∀ id ∈ m'.session.platform.usedIds, id ∈ m.session.platform.usedIds)
      (saves : m'.session.platform.saves = m.session.platform.saves) :
      Saving m m' (m.session.platform.inbox.map fun a => .received a.id)
  | settles {save : SaveInFlight} (inFlight : m.session.world.saveInFlight = some save)
      (answered : save.requestId ∈ m.session.platform.answers.keys)
      (queue : m'.queue = m.queue) (last : m'.last = m.last)
      (uses : m.session.platform.Uses m'.session.platform fun _ => False)
      (saves : m'.session.platform.saves = m.session.platform.saves) : Saving m m' []
  | fails {id : Nat} (inFlight : m'.session.world.saveInFlight = m.session.world.saveInFlight)
      (queue : m.queue = id :: m'.queue) (last : m'.last = m.last)
      (uses : m.session.platform.Uses m'.session.platform (· = id))
      (saves : m'.session.platform.saves = m.session.platform.saves) : Saving m m' []
  | submits {id : Nat} {data : List UInt8} {byScript : Bool} (all : m.off = [])
      (stays : m.session.world.stage.walkingToTap = false)
      (encoded : m.session.world.encode = .ok data)
      (free : m.session.world.saveInFlight = none)
      (inFlight : m'.session.world.saveInFlight = some ⟨id, byScript⟩)
      (queue : m.queue = id :: m'.queue ∧ m'.last = m.last ∨
        m.queue = [] ∧ m'.queue = [] ∧ id = m.last + 1 ∧ m'.last = m.last + 1)
      (uses : m.session.platform.Uses m'.session.platform (· = id))
      (saves : m'.session.platform.saves = m.session.platform.saves ++ [(id, data)]) :
      Saving m m' [.submitted id data]

variable {project : Project} {inputs : Input → Prop} {collects : Prop} {m m' : Moment}

/-- A passage that collects nothing. -/
theorem saveEvents_eq (inbox : m.session.platform.inbox.length ≤ m'.session.platform.inbox.length) :
    m.saveEvents m' = (m'.queue.drop m.queue.length).map .scheduled ++
      (m'.session.platform.saves.drop m.session.platform.saves.length).map
        fun (id, data) => .submitted id data := by
  simp [saveEvents, List.drop_eq_nil_of_le inbox]

theorem saveEvents_eq_nil
    (inbox : m.session.platform.inbox.length ≤ m'.session.platform.inbox.length)
    (queue : m'.queue.length ≤ m.queue.length)
    (saves : m'.session.platform.saves = m.session.platform.saves) : m.saveEvents m' = [] := by
  simp [saveEvents_eq inbox, List.drop_eq_nil_of_le queue, saves]

theorem Saving.of_nothing (inFlight : m'.session.world.saveInFlight = m.session.world.saveInFlight)
    (queue : m'.queue = m.queue) (last : m.last ≤ m'.last)
    (uses : m.session.platform.Uses m'.session.platform fun id => m.last < id ∧ id ≤ m'.last)
    (saves : m'.session.platform.saves = m.session.platform.saves)
    (inbox : m.session.platform.inbox.length ≤ m'.session.platform.inbox.length) :
    m.Saving m' (m.saveEvents m') := by
  rw [saveEvents_eq_nil inbox (by rw [queue]) saves]
  exact .nothing inFlight queue last uses saves

/-- Nothing happens to saves, and nothing is asked. -/
theorem Saving.of_silent (inFlight : m'.session.world.saveInFlight = m.session.world.saveInFlight)
    (queue : m'.queue = m.queue) (silent : m.session.platform.Silent m'.session.platform) :
    m.Saving m' (m.saveEvents m') :=
  .of_nothing inFlight queue silent.lastRequestId.ge (silent.uses _) silent.saves
    (by rw [silent.inbox])

theorem Saving.of_schedules
    (inFlight : m'.session.world.saveInFlight = m.session.world.saveInFlight)
    (queue : m'.queue = m.queue ++ [m.last + 1]) (last : m'.last = m.last + 1)
    (uses : m.session.platform.Uses m'.session.platform fun _ => False)
    (saves : m'.session.platform.saves = m.session.platform.saves)
    (inbox : m.session.platform.inbox.length ≤ m'.session.platform.inbox.length) :
    m.Saving m' (m.saveEvents m') := by
  have hevents : m.saveEvents m' = [.scheduled (m.last + 1)] := by
    simp [saveEvents_eq inbox, queue, saves]
  exact hevents ▸ .schedules inFlight queue last uses saves

theorem Saving.of_submits {id : Nat} {data : List UInt8} {byScript : Bool} (all : m.off = [])
    (stays : m.session.world.stage.walkingToTap = false)
    (encoded : m.session.world.encode = .ok data)
    (free : m.session.world.saveInFlight = none)
    (inFlight : m'.session.world.saveInFlight = some ⟨id, byScript⟩)
    (queue : m.queue = id :: m'.queue ∧ m'.last = m.last ∨
      m.queue = [] ∧ m'.queue = [] ∧ id = m.last + 1 ∧ m'.last = m.last + 1)
    (uses : m.session.platform.Uses m'.session.platform (· = id))
    (saves : m'.session.platform.saves = m.session.platform.saves ++ [(id, data)])
    (inbox : m.session.platform.inbox.length ≤ m'.session.platform.inbox.length) :
    m.Saving m' (m.saveEvents m') := by
  have hlength : m'.queue.length ≤ m.queue.length := by
    rcases queue with ⟨hqueue, _⟩ | ⟨hqueue, hqueue', _⟩ <;> simp [*]
  have hevents : m.saveEvents m' = [.submitted id data] := by
    simp [saveEvents_eq inbox, List.drop_eq_nil_of_le hlength, saves]
  exact hevents ▸ .submits all stays encoded free inFlight queue uses saves

theorem Saving.of_settles {save : SaveInFlight}
    (inFlight : m.session.world.saveInFlight = some save)
    (answered : save.requestId ∈ m.session.platform.answers.keys)
    (queue : m'.queue = m.queue) (last : m'.last = m.last)
    (uses : m.session.platform.Uses m'.session.platform fun _ => False)
    (saves : m'.session.platform.saves = m.session.platform.saves)
    (inbox : m.session.platform.inbox.length ≤ m'.session.platform.inbox.length) :
    m.Saving m' (m.saveEvents m') := by
  rw [saveEvents_eq_nil inbox (by rw [queue]) saves]
  exact .settles inFlight answered queue last uses saves

theorem Saving.of_fails {id : Nat}
    (inFlight : m'.session.world.saveInFlight = m.session.world.saveInFlight)
    (queue : m.queue = id :: m'.queue) (last : m'.last = m.last)
    (uses : m.session.platform.Uses m'.session.platform (· = id))
    (saves : m'.session.platform.saves = m.session.platform.saves)
    (inbox : m.session.platform.inbox.length ≤ m'.session.platform.inbox.length) :
    m.Saving m' (m.saveEvents m') := by
  rw [saveEvents_eq_nil inbox (by simp [queue]) saves]
  exact .fails inFlight queue last uses saves

/-- The platform asks something else. -/
theorem Saving.of_ask {p : Platform} {r : Request}
    (inFlight : m'.session.world.saveInFlight = m.session.world.saveInFlight)
    (queue : m'.queue = m.queue) (silent : m.session.platform.Silent p)
    (unsaved : r.kind ≠ .saveProgress) (asked : m'.session.platform = (p.ask r).2) :
    m.Saving m' (m.saveEvents m') := by
  have hlast : m'.last = m.last + 1 := by
    rw [last, asked, Platform.lastRequestId_ask, silent.lastRequestId, last]
  have hid : p.lastRequestId = m.last := silent.lastRequestId
  have huses : p.nextRequestId.2.Uses (p.ask r).2 (· = p.lastRequestId + 1) :=
    Platform.uses_send _ _ r
  refine .of_nothing inFlight queue (by omega) ?_ ?_ ?_
  · rw [asked]
    refine ⟨fun id h => silent.answers ▸ huses.answers id h, fun id h => ?_⟩
    rcases huses.used id h with h | rfl
    · exact .inl (silent.usedIds ▸ h)
    · exact .inr (by omega)
  · rw [asked]
    exact (Platform.saves_send unsaved).trans silent.saves
  · rw [asked, ← silent.inbox]
    exact Platform.length_inbox_send p.nextRequestId.2 _ r

/-- What a step of a script does about saves. -/
theorem Saving.of_step {s : Session} {ran rest : List Interpreter} {i : Interpreter}
    (h : i.GoesTo project s (i.step s project).2) :
    Saving ⟨s, ran, i :: rest⟩ ⟨(i.step s project).2.2, ran, (i.step s project).2.1 :: rest⟩
      (saveEvents ⟨s, ran, i :: rest⟩
        ⟨(i.step s project).2.2, ran, (i.step s project).2.1 :: rest⟩) := by
  obtain ⟨hgoes, _⟩ := h
  generalize (i.step s project).2 = r at hgoes ⊢
  obtain ⟨i', s'⟩ := r
  dsimp only at hgoes ⊢
  cases hgoes with
  | ended terminated => exact .of_silent rfl rfl (.refl _)
  | waits live waits => exact .of_silent rfl rfl (.refl _)
  | aside id unawaited unawaited' unchosen unchosen' world platform =>
    exact .of_silent world.saveInFlight world.scheduledSaves platform
  | speaks window id unawaited unawaited' unchosen unchosen' world =>
    exact .of_silent world.saveInFlight world.scheduledSaves (.refl _)
  | opens running pending id unawaited unchosen shown world =>
    exact .of_silent world.saveInFlight world.scheduledSaves (.refl _)
  | chooses id unawaited unawaited' choosing unchosen' taken world platform =>
    refine .of_silent world.saveInFlight world.scheduledSaves ?_
    dsimp only
    rw [platform]
    exact .refl _
  | @answered id awaited ready =>
    exact .of_nothing rfl rfl le_rfl (Platform.uses_takeAnswer _ id _) rfl le_rfl
  | asks request id unawaited awaited' unchosen unchosen' unsaved world platform =>
    exact .of_ask world.saveInFlight world.scheduledSaves platform unsaved rfl
  | @queues _ w id unawaited awaited' unchosen unchosen' world =>
    refine .of_schedules world.saveInFlight ?_ rfl ⟨fun _ h => h, fun _ h => .inl h⟩ rfl le_rfl
    exact congrArg (· ++ [s.platform.lastRequestId + 1]) world.scheduledSaves

/-- Answers are collected. -/
theorem Saving.of_collect (s : Session) (project : Project) :
    (still s).Saving (still (s.modifyPlatform fun p => p.collect project))
      ((still s).saveEvents (still (s.modifyPlatform fun p => p.collect project))) := by
  have hsaves : (s.platform.collect project).saves = s.platform.saves := by
    rw [Platform.saves, Platform.saves, Platform.requests_collect]
  have hevents : (still s).saveEvents (still (s.modifyPlatform fun p => p.collect project)) =
      s.platform.inbox.map fun a => .received a.id := by
    simp [saveEvents, still, queue, Session.modifyPlatform, hsaves]
  rw [hevents]
  exact .receives rfl rfl (Platform.lastRequestId_collect _ _)
    (fun _ hid => Platform.mem_keys_collect hid) (fun _ hid => Platform.mem_usedIds_collect hid)
    hsaves

/-- The save in flight is noted as answered. -/
theorem Saving.of_collectSave (s : Session) :
    (still s).Saving (still s.collectSave) ((still s).saveEvents (still s.collectSave)) := by
  unfold Session.collectSave
  split
  · exact .of_silent rfl rfl (.refl _)
  · next save hsave =>
    split
    · exact .of_silent rfl rfl (.refl _)
    · next hanswered =>
      have hkey : save.requestId ∈ s.platform.answers.keys := by
        rw [SortedMap.mem_keys_iff, ← Platform.hasAnswer_eq]
        simpa using hanswered
      dsimp only
      split
      · exact .of_settles hsave hkey rfl rfl (.refl _ _) rfl le_rfl
      · exact .of_settles hsave hkey rfl rfl (Platform.uses_takeAnswer _ _ _) rfl le_rfl

/-- A save that a script has queued is sent. -/
theorem Saving.of_sendScheduledSave (s : Session) :
    (still s).Saving (still s.sendScheduledSave)
      ((still s).saveEvents (still s.sendScheduledSave)) := by
  unfold Session.sendScheduledSave
  split
  · exact .of_silent rfl rfl (.refl _)
  · next hfree =>
    simp only [Bool.or_eq_true, not_or, Bool.not_eq_true, Option.isSome_eq_false_iff,
      Option.isNone_iff_eq_none] at hfree
    obtain ⟨hfree, hstays⟩ := hfree
    split
    · exact .of_silent rfl rfl (.refl _)
    · next id rest hqueue =>
      dsimp only
      split
      · next data hencode =>
        refine .of_submits rfl hstays hencode hfree rfl (.inl ⟨hqueue, ?_⟩)
          (Platform.uses_saveProgress _ _ _) (Platform.saves_saveProgress _ _ _)
          (Platform.length_inbox_saveProgress _ _ _)
        exact Platform.lastRequestId_saveProgress s.platform id data
      · refine .of_fails rfl hqueue rfl (Platform.uses_deliver s.platform _) rfl ?_
        simp [still, Session.modifyPlatform, Session.modifyWorld, Platform.failRequest,
          Platform.deliver]

/-- Progress is sent that no script has queued. -/
theorem Saving.of_requestSave (s : Session) :
    (still s).Saving (still s.requestSave.2) ((still s).saveEvents (still s.requestSave.2)) := by
  unfold Session.requestSave
  split
  · exact .of_silent rfl rfl (.refl _)
  · next hfree =>
    simp only [World.isSaving, Bool.or_eq_true, not_or, Bool.not_eq_true, Bool.not_eq_false',
      Option.isSome_eq_false_iff, Option.isNone_iff_eq_none, List.isEmpty_iff] at hfree
    obtain ⟨⟨hfree, hqueue⟩, hstays⟩ := hfree
    split
    · exact .of_silent rfl rfl (.refl _)
    · next data hencode =>
      have huses := Platform.uses_saveProgress s.platform.nextRequestId.2
        (s.platform.lastRequestId + 1) data
      refine .of_submits rfl hstays hencode hfree rfl (.inr ⟨hqueue, hqueue, rfl, ?_⟩)
        ⟨huses.answers, huses.used⟩ (Platform.saves_saveProgress _ _ _)
        (Platform.length_inbox_saveProgress s.platform.nextRequestId.2 _ _)
      exact Platform.lastRequestId_saveProgress s.platform.nextRequestId.2 _ data

/-- What a passage does about saves. -/
theorem Next.saving (next : Next project inputs collects m m') (h : m.Registry) :
    m.Saving m' (m.saveEvents m') := by
  cases next with
  | quiet quiet => exact .of_silent quiet.saveInFlight quiet.scheduledSaves quiet.platform
  | windows s _ => exact .of_silent rfl rfl (.refl _)
  | step s ran i rest => exact .of_step (Interpreter.goesTo_step h.coherent_of_turn)
  | ask s unsaved => exact .of_ask rfl rfl (.refl _) unsaved rfl
  | collect s _ => exact .of_collect s project
  | collectSave s => exact .of_collectSave s
  | sendScheduledSave s => exact .of_sendScheduledSave s
  | requestSave s => exact .of_requestSave s
  | deliver s a asked =>
    have huses := s.platform.uses_deliver a
    refine .of_nothing rfl rfl le_rfl ⟨huses.answers, fun id hid => ?_⟩ rfl ?_
    · rcases huses.used id hid with hid | rfl
      · exact .inl hid
      · have hasked : a.id ∈ s.platform.askedIds := List.contains_iff_mem.1 asked
        exact .inl (Platform.mem_usedIds.2 (.inl hasked))
    · simp [still, Session.modifyPlatform, Platform.deliver]

/-! ## The protocol -/

/-- Queued saves have ids of their own in the order they were queued, and nothing was asked under
them. -/
structure InOrder (m : Moment) : Prop where
  increasing : m.queue.Pairwise (· < ·)
  queued : ∀ id ∈ m.queue, id ≤ m.last ∧ id ∉ m.session.platform.usedIds
  used : ∀ id ∈ m.session.platform.usedIds, id ≤ m.last

/-- A save is in flight, and its answer has not been received. -/
def InFlight (m : Moment) (id : Nat) : Prop :=
  (∃ byScript, m.session.world.saveInFlight = some ⟨id, byScript⟩) ∧
    id ∉ m.session.platform.answers.keys

/-- The ids of what happens to saves from a moment on: they come from the queue or are new, and they
come in order. -/
structure IdsFrom (m : Moment) (log : List SaveEvent) : Prop where
  scheduled : ∀ id ∈ SaveEvent.scheduledIds log, m.last < id
  scheduled_increasing : (SaveEvent.scheduledIds log).Pairwise (· < ·)
  submitted : ∀ id ∈ SaveEvent.submittedIds log, id ∈ m.queue ∨ m.last < id
  submitted_increasing : (SaveEvent.submittedIds log).Pairwise (· < ·)

/-- The queue gets no longer, and what comes into use is not in it. -/
theorem InOrder.next (o : m.InOrder) (queue : m'.queue.Sublist m.queue) (last : m.last ≤ m'.last)
    (used : ∀ id ∈ m'.session.platform.usedIds,
      id ∈ m.session.platform.usedIds ∨ id ∉ m'.queue ∧ id ≤ m'.last) : m'.InOrder := by
  refine ⟨o.increasing.sublist queue, fun id hid => ?_, fun id hid => ?_⟩
  · obtain ⟨hle, hunused⟩ := o.queued id (queue.subset hid)
    refine ⟨hle.trans last, fun h => ?_⟩
    rcases used id h with h | ⟨hnot, _⟩
    · exact hunused h
    · exact hnot hid
  · rcases used id hid with h | ⟨_, hle⟩
    · exact (o.used id h).trans last
    · exact hle

/-- The first save of the queue leaves it. -/
theorem InOrder.dequeue (o : m.InOrder) {id : Nat} (queue : m.queue = id :: m'.queue)
    (last : m'.last = m.last)
    (uses : m.session.platform.Uses m'.session.platform (· = id)) : m'.InOrder := by
  have hincreasing := o.increasing
  rw [queue, List.pairwise_cons] at hincreasing
  refine o.next (queue ▸ List.sublist_cons_self _ _) last.ge fun k hk => ?_
  refine (uses.used k hk).imp_right fun heq => ⟨fun hmem => ?_, ?_⟩
  · exact absurd (hincreasing.1 k hmem) (heq ▸ Nat.lt_irrefl k)
  · rw [heq, last]
    exact (o.queued id (queue ▸ List.mem_cons_self)).1

/-- A save is added to the queue under a new id. -/
theorem InOrder.enqueue (o : m.InOrder) (queue : m'.queue = m.queue ++ [m.last + 1])
    (last : m'.last = m.last + 1)
    (used : ∀ id ∈ m'.session.platform.usedIds, id ∈ m.session.platform.usedIds) : m'.InOrder := by
  refine ⟨?_, fun id hid => ?_, fun id hid => ?_⟩
  · rw [queue, List.pairwise_append]
    refine ⟨o.increasing, List.pairwise_singleton _ _, fun id hid id' hid' => ?_⟩
    rw [List.mem_singleton.1 hid']
    exact Nat.lt_succ_of_le (o.queued id hid).1
  · rw [queue, List.mem_append, List.mem_singleton] at hid
    rcases hid with hid | rfl
    · obtain ⟨hle, hunused⟩ := o.queued id hid
      exact ⟨by omega, fun h => hunused (used id h)⟩
    · exact ⟨last.ge, fun h => absurd (o.used _ (used _ h)) (Nat.not_succ_le_self _)⟩
  · rw [last]
    exact Nat.le_succ_of_le (o.used id (used id hid))

/-- What comes from a later moment comes from an earlier one. -/
theorem IdsFrom.widen {log : List SaveEvent} (later : m'.IdsFrom log) (last : m.last ≤ m'.last)
    (queue : ∀ id ∈ m'.queue, id ∈ m.queue ∨ m.last < id) : m.IdsFrom log := by
  refine ⟨fun id hid => last.trans_lt (later.scheduled id hid), later.scheduled_increasing,
    fun id hid => ?_, later.submitted_increasing⟩
  rcases later.submitted id hid with hid | hlt
  · exact queue id hid
  · exact .inr (last.trans_lt hlt)

namespace Saving

variable {events : List SaveEvent} (h : m.Saving m' events)

include h

theorem inOrder (o : m.InOrder) : m'.InOrder := by
  cases h with
  | nothing inFlight queue last uses saves =>
    refine o.next (queue ▸ List.Sublist.refl _) last fun id hid => ?_
    refine (uses.used id hid).imp_right fun ⟨hlt, hle⟩ => ⟨fun hmem => ?_, hle⟩
    exact absurd (o.queued id (queue ▸ hmem)).1 (Nat.not_le.2 hlt)
  | schedules inFlight queue last uses saves =>
    exact o.enqueue queue last fun id hid => (uses.used id hid).resolve_right fun h => h
  | receives inFlight queue last answers used saves =>
    exact o.next (queue ▸ List.Sublist.refl _) last.ge fun id hid => .inl (used id hid)
  | settles inFlight answered queue last uses saves =>
    exact o.next (queue ▸ List.Sublist.refl _) last.ge fun id hid =>
      (uses.used id hid).imp_right False.elim
  | fails inFlight queue last uses saves => exact o.dequeue queue last uses
  | submits all stays encoded free inFlight queue uses saves =>
    rcases queue with ⟨hqueue, hlast⟩ | ⟨hqueue, hqueue', hid, hlast⟩
    · exact o.dequeue hqueue hlast uses
    · refine o.next (by rw [hqueue, hqueue']) (by omega) fun k hk => ?_
      refine (uses.used k hk).imp_right fun heq => ⟨by simp [hqueue'], ?_⟩
      omega

/-- Nothing is submitted while a save is in flight, which it is until its answer is received. -/
theorem inFlight {id : Nat} (f : m.InFlight id) :
    SaveEvent.submissions events = [] ∧ (m'.InFlight id ∨ .received id ∈ events) := by
  obtain ⟨⟨byScript, hsave⟩, hunanswered⟩ := f
  cases h with
  | nothing inFlight queue last uses saves =>
    exact ⟨rfl, .inl ⟨⟨byScript, inFlight.trans hsave⟩, fun h => hunanswered (uses.answers id h)⟩⟩
  | schedules inFlight queue last uses saves =>
    exact ⟨rfl, .inl ⟨⟨byScript, inFlight.trans hsave⟩, fun h => hunanswered (uses.answers id h)⟩⟩
  | fails inFlight queue last uses saves =>
    exact ⟨rfl, .inl ⟨⟨byScript, inFlight.trans hsave⟩, fun h => hunanswered (uses.answers id h)⟩⟩
  | receives inFlight queue last answers used saves =>
    refine ⟨SaveEvent.submissions_received _, ?_⟩
    by_cases hinbox : id ∈ m.session.platform.inbox.map (·.id)
    · obtain ⟨a, ha, rfl⟩ := List.mem_map.1 hinbox
      exact .inr (List.mem_map_of_mem ha)
    · refine .inl ⟨⟨byScript, inFlight.trans hsave⟩, fun h => ?_⟩
      exact (answers id h).elim hunanswered hinbox
  | settles inFlight answered queue last uses saves =>
    obtain rfl := Option.some.inj (inFlight.symm.trans hsave)
    exact absurd answered hunanswered
  | submits all stays encoded free inFlight queue uses saves => cases free.symm.trans hsave

/-- A save is in flight once it was submitted. -/
theorem inFlight_of_submitted (o : m.InOrder) {id : Nat} {data : List UInt8}
    (submitted : .submitted id data ∈ events) :
    events = [.submitted id data] ∧ m'.InFlight id := by
  cases h with
  | nothing | settles | fails => cases submitted
  | schedules => simp at submitted
  | receives => simp at submitted
  | submits all stays encoded free inFlight queue uses saves =>
    obtain ⟨rfl, rfl⟩ := SaveEvent.submitted.inj (List.mem_singleton.1 submitted)
    refine ⟨rfl, ⟨_, inFlight⟩, fun hmem => ?_⟩
    have hused : id ∈ m.session.platform.usedIds :=
      Platform.mem_usedIds.2 (.inr (.inr (uses.answers id hmem)))
    rcases queue with ⟨hqueue, _⟩ | ⟨_, _, rfl, _⟩
    · exact (o.queued id (hqueue ▸ List.mem_cons_self)).2 hused
    · exact absurd (o.used _ hused) (Nat.not_succ_le_self _)

theorem saves_eq :
    m'.session.platform.saves = m.session.platform.saves ++ SaveEvent.submissions events := by
  cases h with
  | nothing inFlight queue last uses saves => simpa using saves
  | schedules inFlight queue last uses saves => simpa using saves
  | receives inFlight queue last answers used saves => simpa using saves
  | settles inFlight answered queue last uses saves => simpa using saves
  | fails inFlight queue last uses saves => simpa using saves
  | submits all stays encoded free inFlight queue uses saves => exact saves

theorem idsFrom (o : m.InOrder) {log : List SaveEvent} (later : m'.IdsFrom log) :
    m.IdsFrom (events ++ log) := by
  cases h with
  | nothing inFlight queue last uses saves =>
    exact later.widen last fun id hid => .inl (queue ▸ hid)
  | settles inFlight answered queue last uses saves =>
    exact later.widen last.ge fun id hid => .inl (queue ▸ hid)
  | fails inFlight queue last uses saves =>
    exact later.widen last.ge fun id hid => .inl (queue ▸ List.mem_cons_of_mem _ hid)
  | receives inFlight queue last answers used saves =>
    have hlater := later.widen last.ge fun id hid => .inl (queue ▸ hid)
    refine ⟨?_, ?_, ?_, ?_⟩
    · simpa using hlater.scheduled
    · simpa using hlater.scheduled_increasing
    · simpa [SaveEvent.submittedIds] using hlater.submitted
    · simpa [SaveEvent.submittedIds] using hlater.submitted_increasing
  | schedules inFlight queue last uses saves =>
    have hlater : m.IdsFrom log := later.widen (by omega) fun id hid => by
      rw [queue, List.mem_append, List.mem_singleton] at hid
      rcases hid with hid | rfl
      · exact .inl hid
      · exact .inr (Nat.lt_succ_self _)
    have hnew : ∀ id ∈ SaveEvent.scheduledIds log, m.last + 1 < id := fun id hid =>
      last ▸ later.scheduled id hid
    refine ⟨?_, ?_, ?_, ?_⟩
    · simpa using hlater.scheduled
    · simpa using ⟨hnew, hlater.scheduled_increasing⟩
    · simpa [SaveEvent.submittedIds] using hlater.submitted
    · simpa [SaveEvent.submittedIds] using hlater.submitted_increasing
  | @submits id data byScript all stays encoded free inFlight queue uses saves =>
    -- it is the first of the queue, or else the queue is empty and it has a new id
    have hid : id ∈ m.queue ∨ m.last < id := by
      rcases queue with ⟨hqueue, _⟩ | ⟨_, _, rfl, _⟩
      · exact .inl (hqueue ▸ List.mem_cons_self)
      · exact .inr (Nat.lt_succ_self _)
    have hrest : ∀ k, k ∈ m'.queue ∨ m'.last < k → id < k := by
      rcases queue with ⟨hqueue, hlast⟩ | ⟨_, hqueue, rfl, hlast⟩
      · have hincreasing := o.increasing
        rw [hqueue, List.pairwise_cons] at hincreasing
        have hle := (o.queued id (hqueue ▸ List.mem_cons_self)).1
        rintro k (hk | hk)
        · exact hincreasing.1 k hk
        · omega
      · rw [hqueue, hlast]
        simp
    have hlater : m.IdsFrom log := by
      rcases queue with ⟨hqueue, hlast⟩ | ⟨_, hqueue, _, hlast⟩
      · exact later.widen hlast.ge fun k hk => .inl (hqueue ▸ List.mem_cons_of_mem _ hk)
      · exact later.widen (by omega) (by simp [hqueue])
    refine ⟨hlater.scheduled, hlater.scheduled_increasing, ?_, ?_⟩
    · exact List.forall_mem_cons.2 ⟨hid, hlater.submitted⟩
    · exact List.pairwise_cons.2 ⟨fun k hk => hrest k (later.submitted k hk),
        hlater.submitted_increasing⟩

end Saving

/-! ## Logs -/

/-- What happens to saves in a story. -/
def saveLog : List Moment → List SaveEvent
  | m :: m' :: rest => m.saveEvents m' ++ saveLog (m' :: rest)
  | _ => []

/-- Saves that are safe. -/
structure SavesSafely (moments : List Moment) : Prop where
  /-- Between two submissions the answer to the first is received. -/
  answered : ∀ before between later id data id' data', saveLog moments =
    before ++ .submitted id data :: (between ++ .submitted id' data' :: later) →
      .received id ∈ between
  /-- No save is submitted twice. -/
  once : (SaveEvent.submittedIds (saveLog moments)).Nodup
  /-- The saves of scripts are submitted in the order in which they were scheduled. -/
  ordered : ((SaveEvent.submittedIds (saveLog moments)).filter fun id =>
    id ∈ SaveEvent.scheduledIds (saveLog moments)).Sublist
      (SaveEvent.scheduledIds (saveLog moments))
  /-- Nothing is submitted while the player walks to a tapped tile. -/
  stays : ∀ m m', [m, m'] <:+: moments → ∀ id data, .submitted id data ∈ m.saveEvents m' →
    m.session.world.stage.walkingToTap = false
  /-- What is submitted is the progress of a moment in which all scripts are on the stage. -/
  whole : ∀ m m', [m, m'] <:+: moments → ∀ id data, .submitted id data ∈ m.saveEvents m' →
    m.session.world.encode = .ok data ∧ m.session.world.stage.scripts = m.scripts

variable {moments : List Moment}

/-- Of two logs that follow each other, the first has nothing to do with what is only in the
second. -/
theorem exists_of_append_eq {α : Type} {first more l l' : List α} {x : α} (hx : x ∉ first)
    (h : first ++ more = l ++ x :: l') : ∃ l'', l = first ++ l'' ∧ more = l'' ++ x :: l' := by
  rcases List.append_eq_append_iff.1 h with ⟨as, rfl, hmore⟩ | ⟨bs, rfl, hmore⟩
  · exact ⟨as, rfl, hmore⟩
  · cases bs with
    | nil => exact ⟨[], by simp, hmore.symm⟩
    | cons b bs =>
      obtain ⟨rfl, _⟩ := List.cons.inj hmore
      exact absurd (List.mem_append_right _ List.mem_cons_self) hx

theorem not_mem_of_submissions_eq_nil {events : List SaveEvent}
    (h : SaveEvent.submissions events = []) (id : Nat) (data : List UInt8) :
    .submitted id data ∉ events := fun hmem => by
  have hsubmission : (id, data) ∈ SaveEvent.submissions events :=
    List.mem_filterMap.2 ⟨_, hmem, rfl⟩
  rw [h] at hsubmission
  cases hsubmission

/-- What the host is sent is what the log says. -/
theorem Trail.saves_eq (trail : Trail project inputs collects m moments m') (h : m.Registry) :
    m'.session.platform.saves =
      m.session.platform.saves ++ SaveEvent.submissions (saveLog (m :: moments)) := by
  induction trail with
  | nil m => simp [saveLog]
  | cons next _ ih =>
    rw [ih (h.passage next), (next.saving h).saves_eq, saveLog, SaveEvent.submissions_append,
      List.append_assoc]

theorem Trail.idsFrom (trail : Trail project inputs collects m moments m') (h : m.Registry)
    (o : m.InOrder) : m.IdsFrom (saveLog (m :: moments)) := by
  induction trail with
  | nil m => exact ⟨by simp [saveLog], by simp [saveLog], by simp [saveLog], by simp [saveLog]⟩
  | cons next _ ih =>
    have hsaving := next.saving h
    exact hsaving.idsFrom o (ih (h.passage next) (hsaving.inOrder o))

/-- Before another save is submitted, the answer to the one in flight is received. -/
theorem Trail.received_of_inFlight (trail : Trail project inputs collects m moments m')
    (h : m.Registry) {id : Nat} (inFlight : m.InFlight id) {before later : List SaveEvent}
    {id' : Nat} {data : List UInt8}
    (log : saveLog (m :: moments) = before ++ .submitted id' data :: later) :
    .received id ∈ before := by
  induction trail generalizing before with
  | nil m => simp [saveLog] at log
  | cons next _ ih =>
    obtain ⟨hnone, hnext⟩ := (next.saving h).inFlight inFlight
    obtain ⟨rest, rfl, hrest⟩ :=
      exists_of_append_eq (not_mem_of_submissions_eq_nil hnone id' data) log
    rcases hnext with hstill | hreceived
    · exact List.mem_append_right _ (ih (h.passage next) hstill hrest)
    · exact List.mem_append_left _ hreceived

theorem Trail.answered (trail : Trail project inputs collects m moments m') (h : m.Registry)
    (o : m.InOrder) {before between later : List SaveEvent} {id id' : Nat} {data data' : List UInt8}
    (log : saveLog (m :: moments) =
      before ++ .submitted id data :: (between ++ .submitted id' data' :: later)) :
    .received id ∈ between := by
  induction trail generalizing before with
  | nil m => simp [saveLog] at log
  | @cons m b _ _ next more ih =>
    have hsaving := next.saving h
    by_cases hmem : .submitted id data ∈ m.saveEvents b
    · obtain ⟨hevents, hinFlight⟩ := hsaving.inFlight_of_submitted o hmem
      rw [saveLog, hevents] at log
      cases before with
      | nil => exact more.received_of_inFlight (h.passage next) hinFlight (List.cons.inj log).2
      | cons e before => exact ih (h.passage next) (hsaving.inOrder o) (List.cons.inj log).2
    · obtain ⟨rest, rfl, hrest⟩ := exists_of_append_eq hmem log
      exact ih (h.passage next) (hsaving.inOrder o) hrest

/-- Passages are between any two moments that follow each other. -/
theorem Trail.next_of_infix (trail : Trail project inputs collects m moments m')
    (h : m.Registry) {a b : Moment} (pair : [a, b] <:+: m :: moments) :
    a.Registry ∧ Next project inputs collects a b := by
  induction trail with
  | nil m => simpa using pair.length_le
  | cons next _ ih =>
    rcases List.infix_cons_iff.1 pair with hfirst | hlater
    · obtain ⟨rfl, hsecond⟩ := List.cons_prefix_cons.1 hfirst
      obtain ⟨rfl, _⟩ := List.cons_prefix_cons.1 hsecond
      exact ⟨h, next⟩
    · exact ih (h.passage next) hlater

theorem Saving.of_submitted {events : List SaveEvent} (h : m.Saving m' events) {id : Nat}
    {data : List UInt8} (submitted : .submitted id data ∈ events) :
    m.off = [] ∧ m.session.world.stage.walkingToTap = false ∧
      m.session.world.encode = .ok data := by
  cases h with
  | nothing | settles | fails => cases submitted
  | schedules => simp at submitted
  | receives => simp at submitted
  | submits all stays encoded free inFlight queue uses saves =>
    obtain ⟨rfl, rfl⟩ := SaveEvent.submitted.inj (List.mem_singleton.1 submitted)
    exact ⟨all, stays, encoded⟩

theorem Trail.savesSafely (trail : Trail project inputs collects m moments m') (h : m.Registry)
    (o : m.InOrder) : SavesSafely (m :: moments) := by
  have hids := trail.idsFrom h o
  have honce : (SaveEvent.submittedIds (saveLog (m :: moments))).Nodup :=
    hids.submitted_increasing.imp fun hlt => Nat.ne_of_lt hlt
  refine ⟨fun _ _ _ _ _ _ _ => trail.answered h o, honce, ?_, ?_, ?_⟩
  · have hsubperm : ((SaveEvent.submittedIds (saveLog (m :: moments))).filter fun id =>
        decide (id ∈ SaveEvent.scheduledIds (saveLog (m :: moments)))).Subperm
          (SaveEvent.scheduledIds (saveLog (m :: moments))) :=
      (honce.filter _).subperm fun id hid => of_decide_eq_true (List.mem_filter.1 hid).2
    exact List.sublist_of_subperm_of_pairwise hsubperm (hids.submitted_increasing.filter _)
      hids.scheduled_increasing
  · intro a b pair id data hmem
    obtain ⟨ha, hnext⟩ := trail.next_of_infix h pair
    exact ((hnext.saving ha).of_submitted hmem).2.1
  · intro a b pair id data hmem
    obtain ⟨ha, hnext⟩ := trail.next_of_infix h pair
    obtain ⟨hoff, _, hencoded⟩ := (hnext.saving ha).of_submitted hmem
    exact ⟨hencoded, by simp [scripts, hoff]⟩

end Moment

namespace Session

variable {project : Project}

/-- A game on a new platform, without saves that scripts have queued. -/
theorem inOrder_of_start {w : World} (host : Host) (queue : w.scheduledSaves = []) :
    (Moment.still ⟨w, .start project host⟩).InOrder := by
  have hqueue : (Moment.still ⟨w, .start project host⟩).queue = [] := queue
  have hused : (Platform.start project host).usedIds = [] := rfl
  refine ⟨by simp [hqueue], by simp [hqueue], fun id hid => ?_⟩
  simp [Moment.still, hused] at hid

theorem Begins.inOrder {s : Session} (h : Begins project s) : (Moment.still s).InOrder := by
  cases h with
  | new seed host started =>
    obtain ⟨stage, _, rfl⟩ := World.exists_enter started
    exact inOrder_of_start host (World.starts_refreshPages _).scheduledSaves
  | loaded earlier acts seed host => exact inOrder_of_start host rfl

theorem Begins.saves {s : Session} (h : Begins project s) : s.platform.saves = [] := by
  cases h <;> rfl

/-- In every game, saves are safe, and those of the log are all that the host is sent. -/
theorem Begins.savesSafely_story {s : Session} (begins : Begins project s) (acts : List Act) :
    Moment.SavesSafely (.still s :: story project s acts) ∧
      (s.after project acts).platform.saves =
        SaveEvent.submissions (Moment.saveLog (.still s :: story project s acts)) := by
  have htrail := trail_after project s acts
  refine ⟨htrail.savesSafely begins.registry begins.inOrder, ?_⟩
  have hsaves : (s.after project acts).platform.saves = s.platform.saves ++ _ :=
    htrail.saves_eq begins.registry
  rw [hsaves, begins.saves, List.nil_append]

end Session

/-- A common event saves twice. -/
def saveRoom : Project := .emptyRoom [.act .save [], .act .save []]

/-- Two scripts save twice each, and the host saves in between. -/
def Session.busySaving : List Session.Act :=
  let answer (id : Nat) (succeeded : Bool) : Session.Act :=
    .answer ⟨id, .saveProgress, ⟨succeeded, []⟩⟩
  [.requestSave, .startCommonEvent 1, .startCommonEvent 1, .tick .none, answer 1 true, .tick .none,
    .requestSave, answer 2 false, .tick .none, .tick .none, answer 3 true, .tick .none,
    answer 4 true, .tick .none]

/-- The save of the host goes first, and then those of the scripts in turn. -/
theorem saveRoom_savesSafely :
    ∃ w, World.start saveRoom 1 = .ok w ∧
      let s : Session := ⟨w, .start saveRoom .deferred⟩
      Moment.SavesSafely (.still s :: Session.story saveRoom s Session.busySaving) ∧
      (s.after saveRoom Session.busySaving).platform.saves.map (·.1) = [1, 2, 3, 4, 5] := by
  have hrun : ∃ w, World.start saveRoom 1 = .ok w ∧
      let s : Session := ⟨w, .start saveRoom .deferred⟩
      (s.after saveRoom Session.busySaving).platform.saves.map (·.1) = [1, 2, 3, 4, 5] := by
    refine ⟨_, rfl, ?_⟩
    decide +kernel
  obtain ⟨w, hstart, hsaves⟩ := hrun
  have hbegins : Session.Begins saveRoom ⟨w, .start saveRoom .deferred⟩ := .new 1 .deferred hstart
  exact ⟨w, hstart, (hbegins.savesSafely_story Session.busySaving).1, hsaves⟩

end Adventure
