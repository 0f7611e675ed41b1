import Adventure.Wire.Codec

/-!
# Requests to the platform

Saving, purchases, ads and links are left to the platform that the game runs on.  A request goes out
under an id; its answer comes back under the same id, at some later time or never.
-/

namespace Adventure

open Wire

/-- What kinds of requests there are. -/
inductive RequestKind where
  | unlockAchievement
  | saveProgress
  | savePermanent
  | purchase
  | restorePurchases
  | showShop
  | interstitialAds
  | rewardedAds
  | openLink
  | shareImage
  | changeLanguage
  | prices
  deriving DecidableEq, Repr

instance : Enumeration RequestKind where
  cases := [.unlockAchievement, .saveProgress, .savePermanent, .purchase, .restorePurchases,
    .showShop, .interstitialAds, .rewardedAds, .openLink, .shareImage, .changeLanguage, .prices]
  label
    | .unlockAchievement => "unlock_achievement"
    | .saveProgress => "save_progress"
    | .savePermanent => "save_permanent"
    | .purchase => "purchase"
    | .restorePurchases => "restore_purchases"
    | .showShop => "show_shop"
    | .interstitialAds => "interstitial_ads"
    | .rewardedAds => "rewarded_ads"
    | .openLink => "open_link"
    | .shareImage => "share_image"
    | .changeLanguage => "change_language"
    | .prices => "iap_prices"

/-- What is asked of the platform. -/
inductive Request where
  | unlockAchievement (id : Int32)
  | saveProgress (data : List UInt8)
  | savePermanent (data : List UInt8)
  | purchase (key : String)
  | restorePurchases
  | showShop (catalog : String)
  | interstitialAds (force : Bool)
  | rewardedAds (force : Bool)
  | openLink (kind : String) (data : String)
  | shareImage (title : String) (message : String) (image : List UInt8)
  | changeLanguage (language : String)
  | prices (keys : List String)
  deriving DecidableEq, Repr

namespace Request

def kind : Request → RequestKind
  | unlockAchievement _ => .unlockAchievement
  | saveProgress _ => .saveProgress
  | savePermanent _ => .savePermanent
  | purchase _ => .purchase
  | restorePurchases => .restorePurchases
  | showShop _ => .showShop
  | interstitialAds _ => .interstitialAds
  | rewardedAds _ => .rewardedAds
  | openLink _ _ => .openLink
  | shareImage _ _ _ => .shareImage
  | changeLanguage _ => .changeLanguage
  | prices _ => .prices

end Request

/-- Whether a request succeeded, with data that depends on its kind: a JSON list of product keys for
purchases, a JSON map for prices, the bytes of a language's code. -/
structure Reply where
  succeeded : Bool
  data : List UInt8
  deriving DecidableEq, Repr

namespace Reply

def success : Reply := ⟨true, []⟩

def failure : Reply := ⟨false, []⟩

end Reply

/-- A reply on its way back. -/
structure Answer where
  id : Nat
  kind : RequestKind
  reply : Reply
  deriving DecidableEq, Repr

/-- What the platform is told. -/
inductive Call where
  | request (id : Nat) (request : Request)
  /-- Ends the program; there is no answer. -/
  | terminateGame
  /-- Counts an event; there is no answer. -/
  | sendAnalytics (event : String) (value : String)
  deriving DecidableEq, Repr

/-! ## As documents -/

namespace Request

/-- What a request says, as the fields of a record.  Of long data only the length is told. -/
def fields : Request → List (String × Value)
  | unlockAchievement id => [("achievement_id", encode id)]
  | saveProgress data | savePermanent data => [("len", encode data.length)]
  | purchase key => [("product_key", encode key)]
  | restorePurchases => []
  | showShop catalog => [("catalog", encode catalog)]
  | interstitialAds force | rewardedAds force => [("force", encode force)]
  | openLink kind data => [("kind", encode kind), ("data", encode data)]
  | shareImage title _ _ => [("title", encode title)]
  | changeLanguage language => [("language", encode language)]
  | prices _ => []

end Request

/-- A call as a record, which its kind stands in. -/
def Call.toValue : Call → Value
  | request id r => .record ([("request", encode r.kind), ("id", encode id)] ++ r.fields)
  | terminateGame => .record [("request", .text "terminate_game")]
  | sendAnalytics event value => .record
      [("request", .text "send_analytics"), ("event", encode event), ("value", encode value)]

end Adventure
