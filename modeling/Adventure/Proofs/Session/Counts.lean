import Adventure.Proofs.Session.Saves

/-!
# Counts of 32 bits

Scripts and requests are numbered from one on.  Here they are counted without a bound, but their
ids have 32 bits, and a count that has run over may give ids that are in use.  Neither count ever
goes down, so as long as both fit, all ids that were given so far are exact and those that differ do
so in 32 bits.
-/

namespace Adventure

open Moment (Next Trail)

/-- An id as it is kept, in 32 bits. -/
def keptId (id : Nat) : UInt32 := .ofNat id

theorem keptId_succ (id : Nat) : keptId (id + 1) = keptId id + 1 := UInt32.ofNat_add id 1

/-- In 32 bits the next id is one more than the last, too; after the highest one it is 0. -/
theorem World.keptId_nextInterpreterId (w : World) :
    keptId w.nextInterpreterId.1 = keptId w.lastInterpreterId + 1 := keptId_succ _

theorem Platform.keptId_nextRequestId (p : Platform) :
    keptId p.nextRequestId.1 = keptId p.lastRequestId + 1 := keptId_succ _

theorem toNat_keptId {id : Nat} (h : id < 2 ^ 32) : (keptId id).toNat = id :=
  UInt32.toNat_ofNat_of_lt' h

theorem keptId_lt {id id' : Nat} (h : id' < 2 ^ 32) (lt : id < id') : keptId id < keptId id' :=
  (UInt32.ofNat_lt_iff_lt (lt.trans h) h).2 lt

theorem keptId_le {id id' : Nat} (h : id' < 2 ^ 32) (le : id ≤ id') : keptId id ≤ keptId id' :=
  (UInt32.ofNat_le_iff_le (le.trans_lt h) h).2 le

theorem keptId_injOn : Set.InjOn keptId {id | id < 2 ^ 32} := fun id hid id' hid' heq => by
  rw [← toNat_keptId hid, heq, toNat_keptId hid']

/-- Whether the ids that were given last have 32 bits. -/
structure Session.CountsFit (s : Session) : Prop where
  scripts : s.world.lastInterpreterId < 2 ^ 32
  requests : s.platform.lastRequestId < 2 ^ 32

/-- No count goes down from one session to another. -/
structure Session.CountsUp (s s' : Session) : Prop where
  scripts : s.world.lastInterpreterId ≤ s'.world.lastInterpreterId
  requests : s.platform.lastRequestId ≤ s'.platform.lastRequestId

namespace Session

variable {s s' s'' : Session}

theorem CountsUp.refl (s : Session) : s.CountsUp s := ⟨le_rfl, le_rfl⟩

theorem CountsUp.trans (h : s.CountsUp s') (h' : s'.CountsUp s'') : s.CountsUp s'' :=
  ⟨h.scripts.trans h'.scripts, h.requests.trans h'.requests⟩

theorem CountsUp.fit (h : s.CountsUp s') (fit : s'.CountsFit) : s.CountsFit :=
  ⟨h.scripts.trans_lt fit.scripts, h.requests.trans_lt fit.requests⟩

end Session

namespace Moment

variable {project : Project} {inputs : Input → Prop} {collects : Prop} {m m' : Moment}
  {moments : List Moment}

theorem Saving.last_le {events : List SaveEvent} (h : m.Saving m' events) : m.last ≤ m'.last := by
  cases h with
  | nothing inFlight queue last => exact last
  | schedules inFlight queue last => exact (Nat.le_succ _).trans last.ge
  | receives inFlight queue last => exact last.ge
  | settles inFlight answered queue last => exact last.ge
  | fails inFlight queue last => exact last.ge
  | submits all stays encoded free inFlight queue =>
    rcases queue with ⟨_, hlast⟩ | ⟨_, _, _, hlast⟩
    · exact hlast.ge
    · exact (Nat.le_succ _).trans hlast.ge

theorem Next.countsUp (next : Next project inputs collects m m') (h : m.Registry) :
    m.session.CountsUp m'.session := by
  refine ⟨?_, (next.saving h).last_le⟩
  rcases next.recruits_or_step with ⟨_, hstarted, _⟩ | ⟨s, ran, i, rest, rfl, rfl⟩
  · exact hstarted.le
  · obtain ⟨hgoes, -⟩ : i.GoesTo project s (i.step s project).2 :=
      Interpreter.goesTo_step h.coherent_of_turn
    obtain ⟨_, hstarted, _⟩ := hgoes.recruits
    exact hstarted.le

/-- In all moments of a trail the counts are at most what they are in the last one. -/
theorem Trail.countsUp (trail : Trail project inputs collects m moments m') (h : m.Registry) :
    ∀ a ∈ m :: moments, a.session.CountsUp m'.session := by
  induction trail with
  | nil m => exact List.forall_mem_singleton.2 (.refl m.session)
  | cons next _ ih =>
    have hlater := ih (h.passage next)
    refine List.forall_mem_cons.2 ⟨?_, hlater⟩
    exact (next.countsUp h).trans (hlater _ List.mem_cons_self)

/-- In a moment, the ids of all scripts and requests have 32 bits and differ there. -/
structure KeptIds (m : Moment) : Prop where
  scripts : ∀ i ∈ m.scripts, i.id < 2 ^ 32
  scripts_nodup : (m.scripts.map fun i => keptId i.id).Nodup
  awaited : ∀ id ∈ m.awaited, id < 2 ^ 32
  awaited_nodup : (m.awaited.map keptId).Nodup
  queue_increasing : (m.queue.map keptId).Pairwise (· < ·)
  queued : ∀ id ∈ m.queue, id < 2 ^ 32
  used : ∀ id ∈ m.session.platform.usedIds, id < 2 ^ 32

theorem Registry.keptIds (h : m.Registry) (o : m.InOrder) (fit : m.session.CountsFit) :
    m.KeptIds := by
  have hscripts : ∀ i ∈ m.scripts, i.id < 2 ^ 32 :=
    fun i hi => (h.ids_le i hi).trans_lt fit.scripts
  have hawaited : ∀ id ∈ m.awaited, id < 2 ^ 32 :=
    fun id hid => (h.awaited_le id hid).trans_lt fit.requests
  have hqueued : ∀ id ∈ m.queue, id < 2 ^ 32 :=
    fun id hid => (o.queued id hid).1.trans_lt fit.requests
  refine ⟨hscripts, ?_, hawaited, ?_, ?_, hqueued,
    fun id hid => (o.used id hid).trans_lt fit.requests⟩
  · have hids : ∀ id ∈ m.scripts.map (·.id), id < 2 ^ 32 := by
      simpa using hscripts
    have hkept := h.ids.map_on fun id hid id' hid' heq =>
      keptId_injOn (hids id hid) (hids id' hid') heq
    rwa [Multiset.map_map] at hkept
  · exact h.awaited.map_on fun id hid id' hid' heq =>
      keptId_injOn (hawaited id hid) (hawaited id' hid') heq
  · rw [List.pairwise_map]
    exact o.increasing.imp_of_mem fun _ hid' lt => keptId_lt (hqueued _ hid') lt

end Moment

namespace Session

variable {project : Project} {s : Session}

/-- As long as the counts fit, all ids were exact in every moment so far. -/
theorem Begins.keptIds (begins : Begins project s) (acts : List Act)
    (fit : (s.after project acts).CountsFit) :
    ∀ m ∈ .still s :: story project s acts, m.KeptIds := by
  have htrail := trail_after project s acts
  have hkept : ∀ m ∈ .still s :: story project s acts, m.Registry ∧ m.InOrder :=
    htrail.invariant ⟨begins.registry, begins.inOrder⟩ fun a b next ⟨h, o⟩ =>
      ⟨h.passage next, (next.saving h).inOrder o⟩
  intro m hm
  obtain ⟨hregistry, hinOrder⟩ := hkept m hm
  exact hregistry.keptIds hinOrder ((htrail.countsUp begins.registry m hm).fit fit)

end Session

end Adventure
