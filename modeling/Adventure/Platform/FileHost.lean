import Adventure.Files.Store
import Adventure.Platform.Request
import Adventure.Wire.Document

/-!
# A platform of files

Answers every request at once.  Saves go to files, purchases succeed and are remembered in a list,
prices come from a file, and ads and links are taken as seen.
-/

namespace Adventure

open Files Wire

/-- Why something cannot be loaded. -/
inductive LoadFault where
  | unreadable
  | notDecodable
  deriving DecidableEq, Repr

/-- Where a platform of files keeps things. -/
structure FileHost where
  store : FileStore
  savePath : String
  purchasesPath : String
  languagePath : String
  pricesPath : Option String

/-- The language file. -/
structure LanguageChoice where
  language : String

instance : Wire LanguageChoice where
  encode c := .record [("language", encode c.language)]
  decode? m v := do
    let f ← Fields.read? m ["language"] v
    return ⟨← f.required m "language"⟩

namespace FileHost

/-- Permanent data lies next to the save. -/
def permanentPath (h : FileHost) : String := sibling h.savePath "permanent.msgpack"

/-! ## Loading -/

/-- The bytes of a file, if there is one. -/
def load (h : FileHost) (path : String) : Except LoadFault (Option (List UInt8)) :=
  match h.store.read path with
  | .ok bytes => .ok bytes
  | .error .unreadable => .error .unreadable

/-- The document in a file, if there is one. -/
def loadDocument {α : Type} [Wire α] (h : FileHost) (path : String) : Except LoadFault (Option α) :=
  match h.load path with
  | .error e => .error e
  | .ok none => .ok none
  | .ok (some bytes) =>
    match ofDocumentBytes? bytes with
    | some a => .ok (some a)
    | none => .error .notDecodable

def loadProgress (h : FileHost) : Except LoadFault (Option (List UInt8)) := h.load h.savePath

def loadPermanent (h : FileHost) : Except LoadFault (Option (List UInt8)) := h.load h.permanentPath

/-- The keys of the products that were bought. -/
def loadPurchases (h : FileHost) : Except LoadFault (List String) :=
  match h.loadDocument h.purchasesPath with
  | .error e => .error e
  | .ok keys => .ok (keys.getD [])

def loadLanguage (h : FileHost) : Except LoadFault (Option String) :=
  match h.loadDocument (α := LanguageChoice) h.languagePath with
  | .error e => .error e
  | .ok choice => .ok (choice.map (·.language))

/-- The prices of some products; the price of one that the file does not list is the empty text. -/
def loadPrices (h : FileHost) (keys : List String) : Except LoadFault (SortedMap String String) :=
  let known : Except LoadFault (Option (SortedMap String String)) :=
    match h.pricesPath with
    | none => .ok none
    | some path => h.loadDocument path
  match known with
  | .error e => .error e
  | .ok known =>
    let price (key : String) : String := ((known.getD .empty).find? key).getD ""
    .ok (.ofList (keys.map fun key => (key, price key)))

/-! ## Answering -/

/-- Writes a file; says whether that worked. -/
def save (h : FileHost) (path : String) (bytes : List UInt8) : Bool × FileHost :=
  let (written, store) := h.store.save path bytes
  (written, { h with store := store })

/-- Adds a product to the list of purchases, and gives the whole list if that worked. -/
def recordPurchase (h : FileHost) (key : String) : Option (List String) × FileHost :=
  match h.loadPurchases with
  | .error _ => (none, h)
  | .ok bought =>
    if bought.contains key then (some bought, h)
    else
      let bought := bought ++ [key]
      let (written, h) := h.save h.purchasesPath (toDocumentBytes bought)
      (if written then some bought else none, h)

/-- The list of purchases as a reply. -/
def purchasesReply (h : FileHost) : Reply :=
  match h.loadPurchases with
  | .ok bought => ⟨true, toDocumentBytes bought⟩
  | .error _ => .failure

/-- Writes a file and says no more than whether that worked. -/
def saveReply (h : FileHost) (path : String) (bytes : List UInt8) : Reply × FileHost :=
  let (written, h) := h.save path bytes
  (⟨written, []⟩, h)

/-- Answers a request. -/
def handle (h : FileHost) : Request → Reply × FileHost
  | .saveProgress data => h.saveReply h.savePath data
  | .savePermanent data => h.saveReply h.permanentPath data
  | .purchase key =>
    match h.recordPurchase key with
    | (some bought, h) => (⟨true, toDocumentBytes bought⟩, h)
    | (none, h) => (.failure, h)
  | .restorePurchases => (h.purchasesReply, h)
  | .showShop _ => (h.purchasesReply, h)
  | .changeLanguage language =>
    let (written, h) := h.save h.languagePath (toDocumentBytes (LanguageChoice.mk language))
    (⟨written, bytesOfText language⟩, h)
  | .prices keys =>
    match h.loadPrices keys with
    | .ok prices => (⟨true, toDocumentBytes prices⟩, h)
    | .error _ => (.failure, h)
  | .unlockAchievement _ | .interstitialAds _ | .rewardedAds _
  | .openLink _ _ | .shareImage _ _ _ =>
    (.success, h)

end FileHost

end Adventure
