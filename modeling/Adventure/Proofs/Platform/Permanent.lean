import Adventure.Proofs.Platform.Traffic
import Adventure.Proofs.Save.Permanent
import Adventure.Proofs.Session.Story

/-!
# Permanent variables are a map that lasts

A call writes one slot of the map, and what is sent to be saved is the whole map after the write.
An id beyond the limit is refused before anything else.  The one other thing that can go wrong is
that all of the variables together are too long for a save; so many can only come from outside,
since no call makes more of them than the limit.
-/

namespace Adventure

open Save Wire

namespace Platform

variable (p : Platform)

theorem many_of_savePermanent {p : Platform} {id : Nat} {value : Int64} {fault : SaveFault}
    (h : p.savePermanent id value = .error (.save fault)) :
    477218587 ≤ p.permanent.slots.length := by
  unfold savePermanent at h
  split at h
  · next hid =>
    dsimp only at h
    split at h
    · cases h
    · next hblob =>
      have hmany := Permanent.many_of_toBlob hblob
      rw [setPermanent, Permanent.length_set] at hmany
      unfold permanentLimit at hid
      omega
  · cases h

/-- The platform that a call leaves.  A variable is set before all of them turn out to be too long
for a save. -/
def keepPermanent (id : Nat) (value : Int64) : Platform :=
  match p.savePermanent id value with
  | .ok (_, p') => p'
  | .error (.save _) => p.setPermanent id value
  | .error (.outOfRange _) => p

/-- The platform that calls leave, one after another. -/
def keepAllPermanent (calls : List (Nat × Int64)) : Platform :=
  calls.foldl (fun p call => p.keepPermanent call.1 call.2) p

/-- A blob from which any platform takes over variables that read like this. -/
def Restores (bytes : List UInt8) (slots : Nat → Int64) : Prop :=
  ∀ p : Platform, ∃ p', p.withPermanent bytes = .ok p' ∧ p'.permanentVariable = slots

/-- What comes of a call that is within the limit: the variables are sent, or nothing is because
they are too long for a save. -/
inductive Heeds (p : Platform) (id : Nat) (value : Int64) : Prop
  | sent (bytes : List UInt8)
      (ok : p.savePermanent id value = .ok (p.lastRequestId + 1, p.keepPermanent id value))
      (lastRequestId : (p.keepPermanent id value).lastRequestId = p.lastRequestId + 1)
      (requests : (p.keepPermanent id value).requests =
        p.requests ++ [(p.lastRequestId + 1, .savePermanent bytes)])
      (restores : Restores bytes (p.keepPermanent id value).permanentVariable)
  | overgrown (fault : SaveFault)
      (error : p.savePermanent id value = .error (.save fault))
      (silent : p.Silent (p.keepPermanent id value))
      (many : 477218587 ≤ p.permanent.slots.length)

variable {p : Platform} {id : Nat} {value : Int64}

theorem savePermanent_of_limit_le (beyond : permanentLimit ≤ id) :
    p.savePermanent id value = .error (.outOfRange id) := by
  rw [savePermanent, if_neg (Nat.not_lt.2 beyond)]

theorem savePermanent_of_lt (within : id < permanentLimit) :
    p.savePermanent id value =
      match toBlob .permanent (p.permanent.set id value) with
      | .ok bytes => .ok ((p.setPermanent id value).ask (.savePermanent bytes))
      | .error fault => .error (.save fault) := by
  rw [savePermanent, if_pos within]
  rfl

theorem keepPermanent_of_limit_le (beyond : permanentLimit ≤ id) :
    p.keepPermanent id value = p := by
  rw [keepPermanent, savePermanent_of_limit_le beyond]

/-- Within the limit the slot is set, whether or not a save can be made of all of them. -/
theorem permanent_keepPermanent (within : id < permanentLimit) :
    (p.keepPermanent id value).permanent = p.permanent.set id value := by
  have hsend : ∀ bytes, ((p.setPermanent id value).ask (.savePermanent bytes)).2.permanent =
      p.permanent.set id value := by
    intro bytes
    unfold ask send
    dsimp only
    split <;> rfl
  rw [keepPermanent, savePermanent_of_lt within]
  cases toBlob .permanent (p.permanent.set id value) with
  | ok bytes => exact hsend bytes
  | error fault => rfl

theorem permanentVariable_keepPermanent (within : id < permanentLimit) :
    (p.keepPermanent id value).permanentVariable =
      Function.update p.permanentVariable id value := by
  have hget := p.permanent.get_set id value
  rw [← permanent_keepPermanent within] at hget
  exact hget

theorem restores_of_toBlob {permanent : Permanent} {bytes : List UInt8}
    (h : toBlob .permanent permanent = .ok bytes) : Restores bytes permanent.get := by
  have hfits : (pack permanent).length < 0x100000000 := by
    unfold toBlob wrap at h
    split at h
    · assumption
    · cases h
  have hwritable : (encode permanent).Writable false MessagePack.maxDepth :=
    writable_encode permanent (by decide)
  obtain ⟨blob, hblob, hread⟩ : ∃ blob, toBlob .permanent permanent = .ok blob ∧
      ofBlob .permanent blob = .ok permanent :=
    ofBlob_toBlob (Faithful.told permanent) hwritable hfits
  obtain rfl : bytes = blob := Except.ok.inj (h.symm.trans hblob)
  intro p
  exact ⟨{ p with permanent := permanent }, by rw [withPermanent, hread], rfl⟩

theorem heeds_of_lt (within : id < permanentLimit) : p.Heeds id value := by
  have hpermanent : (p.keepPermanent id value).permanent = p.permanent.set id value :=
    permanent_keepPermanent within
  have hcall : p.savePermanent id value = _ := savePermanent_of_lt within
  cases hblob : toBlob .permanent (p.permanent.set id value) with
  | ok bytes =>
    rw [hblob] at hcall
    have hkeep : p.keepPermanent id value =
        ((p.setPermanent id value).ask (.savePermanent bytes)).2 := by
      rw [keepPermanent, hcall]
    refine .sent bytes ?_ ?_ ?_ ?_
    · rw [hcall, hkeep]
      rfl
    · rw [hkeep, lastRequestId_ask]
      rfl
    · rw [hkeep, requests_ask]
      rfl
    · have hrestores := restores_of_toBlob hblob
      rw [← hpermanent] at hrestores
      exact hrestores
  | error fault =>
    rw [hblob] at hcall
    have hkeep : p.keepPermanent id value = p.setPermanent id value := by
      rw [keepPermanent, hcall]
    refine .overgrown fault hcall ?_ (many_of_savePermanent hcall)
    rw [hkeep]
    exact ⟨rfl, rfl, rfl, rfl⟩

/-- No call makes more slots than the limit. -/
theorem length_keepPermanent_le (p : Platform) (id : Nat) (value : Int64) :
    (p.keepPermanent id value).permanent.slots.length ≤
      max p.permanent.slots.length permanentLimit := by
  by_cases hid : id < permanentLimit
  · rw [permanent_keepPermanent hid, Permanent.length_set]
    omega
  · rw [keepPermanent_of_limit_le (Nat.not_lt.1 hid)]
    omega

/-! ## Any number of calls -/

theorem length_keepAllPermanent_le (p : Platform) (calls : List (Nat × Int64)) :
    (p.keepAllPermanent calls).permanent.slots.length ≤
      max p.permanent.slots.length permanentLimit := by
  induction calls generalizing p with
  | nil => exact Nat.le_max_left _ _
  | cons call calls ih =>
    have hfirst := p.length_keepPermanent_le call.1 call.2
    have hrest := ih (p.keepPermanent call.1 call.2)
    rw [keepAllPermanent, List.foldl_cons]
    rw [keepAllPermanent] at hrest
    omega

/-- The calls within the limit are what the variables hold. -/
theorem permanentVariable_keepAllPermanent (p : Platform) (calls : List (Nat × Int64)) :
    (p.keepAllPermanent calls).permanentVariable =
      calls.foldl (fun slots call =>
        if call.1 < permanentLimit then Function.update slots call.1 call.2 else slots)
        p.permanentVariable := by
  induction calls generalizing p with
  | nil => rfl
  | cons call calls ih =>
    have hfirst : (p.keepPermanent call.1 call.2).permanentVariable =
        if call.1 < permanentLimit then Function.update p.permanentVariable call.1 call.2
        else p.permanentVariable := by
      split
      · next hid => exact permanentVariable_keepPermanent hid
      · next hid => rw [keepPermanent_of_limit_le (Nat.not_lt.1 hid)]
    have hrest := ih (p.keepPermanent call.1 call.2)
    rw [hfirst] at hrest
    exact hrest

end Platform

/-- The command that saves a variable leaves the platform that a call leaves. -/
theorem Interpreter.session_savePermanentVariable {i : Interpreter} (idle : i.pending = none)
    (s : Session) (permanentId : UInt64) (variableId : Int32) :
    (i.savePermanentVariable s permanentId variableId).session =
      s.modifyPlatform fun p =>
        p.keepPermanent permanentId.toNat (s.world.memory.get variableId) := by
  rw [savePermanentVariable, withAnswer_of_pending idle, Session.modifyPlatform,
    Platform.keepPermanent]
  dsimp only
  cases s.platform.savePermanent permanentId.toNat (s.world.memory.get variableId) with
  | ok sent => rfl
  | error fault => cases fault <;> rfl

namespace Platform

/-- Permanent variables are a map that lasts.  After any calls they read as the calls within the
limit say; the next call within the limit writes one slot, and what is sent restores every one of
them; and a call beyond the limit changes nothing. -/
theorem permanent_lasts (p : Platform) (calls : List (Nat × Int64)) :
    let q := p.keepAllPermanent calls
    q.permanentVariable =
        calls.foldl (fun slots call =>
          if call.1 < permanentLimit then Function.update slots call.1 call.2 else slots)
          p.permanentVariable ∧
      (∀ id value, id < permanentLimit →
        (q.keepPermanent id value).permanentVariable =
            Function.update q.permanentVariable id value ∧
          q.Heeds id value ∧
          (p.permanent.slots.length < 477218587 →
            ∃ p', q.savePermanent id value = .ok (q.lastRequestId + 1, p'))) ∧
      (∀ id value, permanentLimit ≤ id →
        q.savePermanent id value = .error (.outOfRange id) ∧ q.keepPermanent id value = q) ∧
      ∀ (i : Interpreter) (s : Session) (permanentId : UInt64) (variableId : Int32),
        i.pending = none → s.platform = q →
          (i.savePermanentVariable s permanentId variableId).session.platform =
            q.keepPermanent permanentId.toNat (s.world.memory.get variableId) := by
  intro q
  refine ⟨p.permanentVariable_keepAllPermanent calls, fun id value within => ?_,
    fun id value beyond => ⟨savePermanent_of_limit_le beyond, keepPermanent_of_limit_le beyond⟩,
    fun i s permanentId variableId idle hq => ?_⟩
  · refine ⟨permanentVariable_keepPermanent within, heeds_of_lt within, fun few => ?_⟩
    have hlength : q.permanent.slots.length ≤ max p.permanent.slots.length permanentLimit :=
      p.length_keepAllPermanent_le calls
    cases q.heeds_of_lt within with
    | sent bytes ok => exact ⟨_, ok⟩
    | overgrown fault error silent many =>
      unfold permanentLimit at hlength
      omega
  · rw [Interpreter.session_savePermanentVariable idle, Session.modifyPlatform, hq]

/-- A platform that took over three variables. -/
def threeKept : Platform :=
  { Platform.start default .deferred with permanent := ⟨[5, 0, 3]⟩ }

/-- Calls at both sides of the limit, the last of them for a variable that is there. -/
def callsAround : List (Nat × Int64) := [(2, 77), (1024, 1), (1023, 6), (2, -9)]

theorem permanent_lasts_callsAround :
    ∃ w, World.start (.emptyRoom []) 1 = .ok w ∧
      let q := threeKept.keepAllPermanent callsAround
      let i := Interpreter.start 1 1 1 0 .parallel []
      threeKept.permanent.slots.length < 477218587 ∧ 1 < permanentLimit ∧ permanentLimit ≤ 1024 ∧
        [0, 1, 2, 3, 1023, 1024].map q.permanentVariable = [5, 0, -9, 0, 6, 0] ∧
        q.lastRequestId = 3 ∧
        (q.keepPermanent 1 8).permanentVariable = Function.update q.permanentVariable 1 8 ∧
        q.Heeds 1 8 ∧ (∃ p', q.savePermanent 1 8 = .ok (4, p')) ∧
        q.savePermanent 1024 8 = .error (.outOfRange 1024) ∧ q.keepPermanent 1024 8 = q ∧
        i.pending = none ∧
        (i.savePermanentVariable ⟨w, q⟩ 1024 7).session.platform = q := by
  obtain ⟨hreads, hwithin, hbeyond, hcommand⟩ := permanent_lasts threeKept callsAround
  have hlast : (threeKept.keepAllPermanent callsAround).lastRequestId = 3 := by decide +kernel
  obtain ⟨hset, hheeds, hsent⟩ := hwithin 1 8 (by decide)
  obtain ⟨hrefused, hkept⟩ := hbeyond 1024 8 (Nat.le_refl _)
  refine ⟨_, rfl, by decide, by decide, Nat.le_refl _, ?_, hlast, hset, hheeds, ?_, hrefused, hkept,
    rfl, ?_⟩
  · rw [hreads]
    decide
  · rw [hlast] at hsent
    exact hsent (by decide)
  · rw [hcommand _ _ _ _ rfl rfl]
    exact (hbeyond 1024 _ (Nat.le_refl _)).2

end Platform

end Adventure
