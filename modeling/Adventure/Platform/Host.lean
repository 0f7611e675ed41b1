import Adventure.Platform.FileHost

/-!
# Hosts

Who answers requests: at once and from memory, at once and from files, or at some later time and
from outside.
-/

namespace Adventure

open Wire

/-- Answers every request at once and remembers what was bought and saved. -/
structure PromptHost where
  purchases : List String
  /-- The last progress that was saved. -/
  lastProgress : Option (List UInt8)
  /-- Whether every request fails. -/
  failing : Bool
  deriving DecidableEq, Repr

namespace PromptHost

def start : PromptHost := ⟨[], none, false⟩

/-- What a request leaves behind, unless it fails. -/
def remember (h : PromptHost) : Request → PromptHost
  | .saveProgress data => { h with lastProgress := some data }
  | .purchase key =>
    if h.purchases.contains key then h else { h with purchases := h.purchases ++ [key] }
  | _ => h

/-- The data of a reply. -/
def replyData (h : PromptHost) : Request → List UInt8
  | .purchase _ | .restorePurchases | .showShop _ => toDocumentBytes h.purchases
  | .changeLanguage language => bytesOfText language
  | .prices _ => toDocumentBytes (Value.record [])
  | _ => []

/-- Answers a request. -/
def handle (h : PromptHost) (request : Request) : Reply × PromptHost :=
  let h := if h.failing then h else h.remember request
  (⟨!h.failing, h.replyData request⟩, h)

end PromptHost

/-- Who answers requests. -/
inductive Host where
  | prompt (host : PromptHost)
  /-- Answers come from outside, in any order and at any time. -/
  | deferred
  | files (host : FileHost)

namespace Host

/-- What a host does about a request: it may answer at once. -/
def handle : Host → Request → Option Reply × Host
  | prompt h, request =>
    let (reply, h) := h.handle request
    (some reply, .prompt h)
  | deferred, _ => (none, .deferred)
  | files h, request =>
    let (reply, h) := h.handle request
    (some reply, .files h)

end Host

end Adventure
