import Adventure.Platform.Basic

/-!
# Requests and answers

What each operation of the platform does to the traffic with the host: the requests that were sent,
the answers in the inbox and the collected answers.
-/

namespace Adventure.Platform

/-- The requests that the host was sent, in order. -/
def requests (p : Platform) : List (Nat × Request) :=
  p.calls.filterMap fun
    | .request id r => some (id, r)
    | _ => none

/-- The ids of the requests that the host was sent, in order. -/
def askedIds (p : Platform) : List Nat := p.requests.map (·.1)

/-- The saves that the host was sent, in order. -/
def saves (p : Platform) : List (Nat × List UInt8) :=
  p.requests.filterMap fun
    | (id, .saveProgress data) => some (id, data)
    | _ => none

/-- No request is made, and no answer comes or goes. -/
structure Silent (p p' : Platform) : Prop where
  requests : p'.requests = p.requests
  inbox : p'.inbox = p.inbox
  answers : p'.answers = p.answers
  lastRequestId : p'.lastRequestId = p.lastRequestId

theorem Silent.refl (p : Platform) : p.Silent p := ⟨rfl, rfl, rfl, rfl⟩

variable (p : Platform)

/-! ## Sending -/

@[simp] theorem answers_send (id : Nat) (r : Request) : (p.send id r).answers = p.answers := by
  unfold send
  dsimp only
  split <;> rfl

@[simp] theorem lastRequestId_send (id : Nat) (r : Request) :
    (p.send id r).lastRequestId = p.lastRequestId := by
  unfold send
  dsimp only
  split <;> rfl

@[simp] theorem requests_send (id : Nat) (r : Request) :
    (p.send id r).requests = p.requests ++ [(id, r)] := by
  unfold send
  dsimp only
  split <;> simp [Platform.requests, deliver, tell]

/-- The host answers the request that it was sent, or nothing. -/
theorem mem_inbox_send {id : Nat} {r : Request} {a : Answer} (h : a ∈ (p.send id r).inbox) :
    a ∈ p.inbox ∨ a.id = id := by
  unfold send at h
  dsimp only at h
  split at h
  · rcases List.mem_append.1 h with h | h
    · exact .inl h
    · exact .inr (by rw [List.mem_singleton.1 h])
  · exact .inl h

@[simp] theorem answers_ask (r : Request) : (p.ask r).2.answers = p.answers := answers_send _ _ _

@[simp] theorem lastRequestId_ask (r : Request) :
    (p.ask r).2.lastRequestId = p.lastRequestId + 1 := lastRequestId_send _ _ _

@[simp] theorem requests_ask (r : Request) :
    (p.ask r).2.requests = p.requests ++ [(p.lastRequestId + 1, r)] := requests_send _ _ _

@[simp] theorem answers_saveProgress (id : Nat) (data : List UInt8) :
    (p.saveProgress id data).answers = p.answers := answers_send _ _ _

@[simp] theorem lastRequestId_saveProgress (id : Nat) (data : List UInt8) :
    (p.saveProgress id data).lastRequestId = p.lastRequestId := lastRequestId_send _ _ _

@[simp] theorem requests_saveProgress (id : Nat) (data : List UInt8) :
    (p.saveProgress id data).requests = p.requests ++ [(id, .saveProgress data)] :=
  requests_send _ _ _

/-! ## Collecting -/

/-- What an answer changes by itself has nothing to do with the traffic. -/
theorem silent_apply (project : Project) (a : Answer) : p.Silent (p.apply project a) := by
  have hlanguage : ∀ language, p.Silent (p.setLanguage project language) := by
    intro language
    unfold setLanguage
    split <;> exact ⟨rfl, rfl, rfl, rfl⟩
  unfold apply
  split <;>
    first
    | exact ⟨rfl, rfl, rfl, rfl⟩
    | split
      · first
        | exact hlanguage _
        | split <;> exact ⟨rfl, rfl, rfl, rfl⟩
      · exact .refl _

/-- Answers that were received one after the other. -/
theorem receive_all (project : Project) (inbox : List Answer) :
    let p' := inbox.foldl (receive project) p
    p'.requests = p.requests ∧ p'.inbox = p.inbox ∧ p'.lastRequestId = p.lastRequestId ∧
      p'.answers = inbox.foldl (fun answers a => answers.insert a.id a) p.answers := by
  induction inbox generalizing p with
  | nil => exact ⟨rfl, rfl, rfl, rfl⟩
  | cons a inbox ih =>
    obtain ⟨hrequests, hinbox, hlast, hanswers⟩ := ih (p.receive project a)
    have happly := p.silent_apply project a
    refine ⟨hrequests.trans happly.requests, hinbox.trans happly.inbox,
      hlast.trans happly.lastRequestId, ?_⟩
    exact hanswers.trans (by simp [receive])

@[simp] theorem requests_collect (project : Project) : (p.collect project).requests = p.requests :=
  (receive_all { p with inbox := [] } project p.inbox).1

@[simp] theorem inbox_collect (project : Project) : (p.collect project).inbox = [] :=
  (receive_all { p with inbox := [] } project p.inbox).2.1

@[simp] theorem lastRequestId_collect (project : Project) :
    (p.collect project).lastRequestId = p.lastRequestId :=
  (receive_all { p with inbox := [] } project p.inbox).2.2.1

theorem answers_collect (project : Project) :
    (p.collect project).answers =
      (p.inbox.foldl (fun answers a => answers.insert a.id a) p.answers).keepLargest answerLimit :=
  congrArg (·.keepLargest answerLimit) (receive_all { p with inbox := [] } project p.inbox).2.2.2

end Adventure.Platform
