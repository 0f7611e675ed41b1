import Adventure.Session.Basic

/-!
# Effects of commands

What a command leaves behind, and how its script goes on.
-/

namespace Adventure

/-- How a script goes on after a command. -/
inductive Outcome where
  /-- With the next command, in the same tick. -/
  | next
  /-- With this command again, in the next tick. -/
  | retry
  /-- With the next command, once a wait is over. -/
  | wait (wait : Wait)
  /-- With this command again, once a wait is over. -/
  | waitHere (wait : Wait)
  /-- With a list of commands, and with the next command after it. -/
  | enter (frame : Frame)
  /-- At another place of the list, in the next tick. -/
  | jump (index : Nat)
  /-- After the called script that the command stands in. -/
  | leave
  /-- Not at all. -/
  | fail (fault : ScriptFault)

/-- What a command leaves behind. -/
structure Effect where
  interpreter : Interpreter
  session : Session
  outcome : Outcome

namespace Interpreter

/-- Changes nothing. -/
def go (i : Interpreter) (s : Session) (outcome : Outcome) : Effect := ⟨i, s, outcome⟩

/-- Changes the world and goes on. -/
def change (i : Interpreter) (s : Session) (change : World → World) : Effect :=
  ⟨i, s.modifyWorld change, .next⟩

/-- Changes the world and goes on, after a wait if the command asks for one. -/
def changeThenWait (i : Interpreter) (s : Session) (waits : Bool) (wait : Wait)
    (change : World → World) :
    Effect :=
  ⟨i, s.modifyWorld change, if waits then .wait wait else .next⟩

/-! ## Requests -/

/-- Waits for the answer to a request. -/
def awaitAnswer (i : Interpreter) (s : Session) (requestId : Nat) : Effect :=
  ⟨{ i with pending := some (.request requestId) }, s, .waitHere (.request requestId)⟩

/-- Takes the answer to the request that the command made before, if it made one. -/
def takeAnswer? (i : Interpreter) (s : Session) : Option Effect :=
  match i.pending with
  | some (.request id) =>
    some ⟨{ i with pending := none }, s.modifyPlatform fun p => (p.takeAnswer id).2, .next⟩
  | _ => none

/-- Runs a command that makes a request: `issue` the first time, and the rest of it once the request
has been answered. -/
def withAnswer (i : Interpreter) (s : Session) (issue : Unit → Effect) : Effect :=
  match i.takeAnswer? s with
  | some effect => effect
  | none => issue ()

/-- Sends a request and waits for its answer. -/
def request (i : Interpreter) (s : Session) (request : Request) : Effect :=
  i.withAnswer s fun _ =>
    let (id, platform) := s.platform.ask request
    i.awaitAnswer { s with platform := platform } id

end Interpreter

end Adventure
