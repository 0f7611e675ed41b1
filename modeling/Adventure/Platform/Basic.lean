import Adventure.Platform.Host
import Adventure.Platform.Sound
import Adventure.Project.Wire
import Adventure.Save.Permanent
import Adventure.Text.Utf8

/-!
# The platform

Everything that the game needs from outside of its world: requests and their answers, what was
bought, permanent variables, the language, sound and the time.  Answers wait in an inbox until the
world collects them at the beginning of a tick; collected answers are kept for whoever asked.
-/

namespace Adventure

open Save Wire

/-- So many answers are kept that nobody has taken. -/
def answerLimit : Nat := 64

/-- The game's view of what is outside of its world. -/
structure Platform where
  host : Host
  /-- What the host was told, in order. -/
  calls : List Call
  /-- What was played, in order; `none` where there is no sound. -/
  sounds : Option (List SoundEvent)
  /-- Answers that have not been collected, in order. -/
  inbox : List Answer
  lastRequestId : Nat
  /-- Collected answers that nobody has taken, by the ids of their requests. -/
  answers : SortedMap Nat Answer
  /-- The last progress that was sent or loaded. -/
  progress : Option (List UInt8)
  permanent : Permanent
  /-- The keys of the products that the player owns. -/
  purchases : List String
  prices : SortedMap String String
  language : String
  interstitialAdsLoaded : Bool
  rewardedAdsLoaded : Bool
  /-- Seconds since the beginning of 1970. -/
  clock : Int64

/-- Why a permanent variable cannot be saved. -/
inductive PermanentFault where
  | outOfRange (id : Nat)
  | save (fault : SaveFault)
  deriving DecidableEq, Repr

def PermanentFault.message : PermanentFault → String
  | outOfRange id =>
    "permanent variable " ++ toString id ++ " is out of range (limit " ++
      toString permanentLimit ++ ")"
  | save fault => fault.message

namespace Platform

/-- The language of a project for which none was picked: its first one. -/
def firstLanguage (project : Project) : String := project.texts.languages.head?.getD "en"

def start (project : Project) (host : Host) : Platform where
  host := host
  calls := []
  sounds := none
  inbox := []
  lastRequestId := 0
  answers := .empty
  progress := none
  permanent := default
  purchases := []
  prices := .empty
  language := firstLanguage project
  interstitialAdsLoaded := false
  rewardedAdsLoaded := false
  clock := 0

/-! ## What is known -/

def isPurchased (p : Platform) (key : String) : Bool := p.purchases.contains key

/-- The highest tier among the owned products. -/
def sponsorTier (p : Platform) (project : Project) : Int64 :=
  (project.products.filter fun x => p.isPurchased x.key).foldl
    (fun best x => if best ≤ x.kind.tier then x.kind.tier else best) 0

/-- The price of a product; one that is not known is the empty text. -/
def price (p : Platform) (key : String) : String := (p.prices.find? key).getD ""

/-- Picks a language that the project has texts for, or else its first one. -/
def setLanguage (p : Platform) (project : Project) (language : String) : Platform :=
  match project.texts.languages with
  | [] => { p with language := language }
  | first :: rest =>
    { p with language := if (first :: rest).contains language then language else first }

def setAdsLoaded (p : Platform) (interstitial rewarded : Bool) : Platform :=
  { p with interstitialAdsLoaded := interstitial, rewardedAdsLoaded := rewarded }

/-- Takes over permanent data that an earlier session saved. -/
def withPermanent (p : Platform) (bytes : List UInt8) : Except SaveFault Platform :=
  match ofBlob .permanent bytes with
  | .ok permanent => .ok { p with permanent := permanent }
  | .error fault => .error fault

def permanentVariable (p : Platform) (id : Nat) : Int64 := p.permanent.get id

/-! ## Sound -/

/-- Plays something, where there is sound. -/
def play (p : Platform) (event : SoundEvent) : Platform :=
  { p with sounds := p.sounds.map fun played => played ++ [event] }

/-! ## Requests -/

/-- The id of the next request, which is counted like those of scripts: without a bound here, and
exact in 32 bits as long as `Session.CountsFit`. -/
def nextRequestId (p : Platform) : Nat × Platform :=
  (p.lastRequestId + 1, { p with lastRequestId := p.lastRequestId + 1 })

/-- Puts an answer into the inbox. -/
def deliver (p : Platform) (answer : Answer) : Platform := { p with inbox := p.inbox ++ [answer] }

/-- Tells the host something that it does not answer. -/
def tell (p : Platform) (call : Call) : Platform := { p with calls := p.calls ++ [call] }

/-- Sends a request under an id. -/
def send (p : Platform) (id : Nat) (request : Request) : Platform :=
  let (reply, host) := p.host.handle request
  let p := { p.tell (.request id request) with host := host }
  match reply with
  | some reply => p.deliver ⟨id, request.kind, reply⟩
  | none => p

/-- Sends a request under a new id. -/
def ask (p : Platform) (request : Request) : Nat × Platform :=
  let (id, p) := p.nextRequestId
  (id, p.send id request)

/-- Answers a request that never went out. -/
def failRequest (p : Platform) (id : Nat) (kind : RequestKind) : Platform :=
  p.deliver ⟨id, kind, .failure⟩

/-- Sends progress to be saved. -/
def saveProgress (p : Platform) (id : Nat) (data : List UInt8) : Platform :=
  { p with progress := some data }.send id (.saveProgress data)

def setPermanent (p : Platform) (id : Nat) (value : Int64) : Platform :=
  { p with permanent := p.permanent.set id value }

/-- Sets a permanent variable and sends all of them to be saved. -/
def savePermanent (p : Platform) (id : Nat) (value : Int64) :
    Except PermanentFault (Nat × Platform) :=
  if id < permanentLimit then
    let p := p.setPermanent id value
    match toBlob .permanent p.permanent with
    | .ok bytes => .ok (p.ask (.savePermanent bytes))
    | .error fault => .error (.save fault)
  else .error (.outOfRange id)

/-- Asks for the prices of all products. -/
def askPrices (p : Platform) (project : Project) : Nat × Platform :=
  p.ask (.prices (project.products.map (·.key)))

/-! ## Answers -/

/-- What an answer changes by itself. -/
def apply (project : Project) (p : Platform) (a : Answer) : Platform :=
  match a.kind with
  | .interstitialAds => { p with interstitialAdsLoaded := false }
  | .rewardedAds => { p with rewardedAdsLoaded := false }
  | .purchase | .restorePurchases | .showShop =>
    if a.reply.succeeded then
      match ofDocumentBytes? a.reply.data with
      | some keys => { p with purchases := keys }
      | none => p
    else p
  | .prices =>
    if a.reply.succeeded then
      match ofDocumentBytes? a.reply.data with
      | some prices => { p with prices := prices }
      | none => p
    else p
  | .changeLanguage =>
    if a.reply.succeeded then p.setLanguage project (Utf8.readDamaged a.reply.data) else p
  | .unlockAchievement | .saveProgress | .savePermanent | .openLink | .shareImage => p

/-- Collects an answer. -/
def receive (project : Project) (p : Platform) (a : Answer) : Platform :=
  { p.apply project a with answers := p.answers.insert a.id a }

/-- Collects all answers of the inbox.  Beyond the limit the answers to the oldest requests go. -/
def collect (p : Platform) (project : Project) : Platform :=
  let p := p.inbox.foldl (receive project) { p with inbox := [] }
  { p with answers := p.answers.keepLargest answerLimit }

def hasAnswer (p : Platform) (id : Nat) : Bool := p.answers.contains id

/-- Takes the answer to a request. -/
def takeAnswer (p : Platform) (id : Nat) : Option Answer × Platform :=
  (p.answers.find? id, { p with answers := p.answers.erase id })

end Platform

end Adventure
