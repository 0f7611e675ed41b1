import Adventure.Proofs.Files.Writes
import Adventure.Proofs.Platform.Traffic
import Adventure.Proofs.Wire.Keyed
import Mathlib.Logic.Relation

/-!
# Purchases last

The list of what was bought is kept in three places: in a file, in answers that wait to be
collected, and in the platform, where each answer that is collected takes the place of the list
before.  Requests only ever add to the end of the file, so that the lists are prefixes of each other
in this order, and none of them is lost to an older one.
-/

namespace Adventure

open Files Wire

/-! ## Lists that grow -/

/-- A list that new members were added to at its end. -/
def Extended (before after : List String) : Prop :=
  ∃ added, after = before ++ added ∧ added.Nodup ∧ ∀ key ∈ added, key ∉ before

namespace Extended

variable {l l' l'' : List String}

theorem refl (l : List String) : Extended l l :=
  ⟨[], (List.append_nil l).symm, List.nodup_nil, fun _ h => by cases h⟩

theorem trans (first : Extended l l') (more : Extended l' l'') : Extended l l'' := by
  obtain ⟨added, rfl, nodup, new⟩ := first
  obtain ⟨added', rfl, nodup', new'⟩ := more
  simp only [List.mem_append, not_or] at new'
  refine ⟨added ++ added', List.append_assoc .., ?_, fun key hkey => ?_⟩
  · exact List.nodup_append.2 ⟨nodup, nodup', fun a ha b hb heq => (new' b hb).2 (heq ▸ ha)⟩
  · rcases List.mem_append.1 hkey with hkey | hkey
    · exact new key hkey
    · exact (new' key hkey).1

theorem prefixes (h : Extended l l') : l <+: l' := by
  obtain ⟨added, rfl, -⟩ := h
  exact List.prefix_append _ _

theorem concat {key : String} (h : key ∉ l) : Extended l (l ++ [key]) := by
  refine ⟨[key], rfl, List.nodup_singleton key, fun k hk => ?_⟩
  rwa [List.mem_singleton.1 hk]

end Extended

/-! ## The file -/

namespace FileHost

variable {h : FileHost}

/-- The list of purchases in the file; empty where none can be read. -/
def bought (h : FileHost) : List String :=
  match h.loadPurchases with
  | .ok keys => keys
  | .error _ => []

theorem bought_of_ok {keys : List String} (hload : h.loadPurchases = .ok keys) :
    h.bought = keys := by
  rw [bought, hload]

theorem bought_of_error {fault : LoadFault} (hload : h.loadPurchases = .error fault) :
    h.bought = [] := by
  rw [bought, hload]

theorem loadPurchases_of_read {keys : List String}
    (hread : h.store.read h.purchasesPath = .ok (some (toDocumentBytes keys))) :
    h.loadPurchases = .ok keys := by
  have hkeys : ofDocumentBytes? (toDocumentBytes keys) = some keys :=
    ofDocumentBytes?_toDocumentBytes keys (by decide)
  simp only [loadPurchases, loadDocument, load, hread, hkeys, Option.getD_some]

/-- What is bought is what the file says, if there is one. -/
theorem bought_eq_of_read {h' : FileHost} (hpath : h'.purchasesPath = h.purchasesPath)
    (hread : ∀ bytes, h'.store.read h.purchasesPath = .ok (some bytes) ↔
      h.store.read h.purchasesPath = .ok (some bytes)) : h'.bought = h.bought := by
  have hnothing : ∀ {g : FileHost}, (∀ bytes, g.store.read g.purchasesPath ≠ .ok (some bytes)) →
      g.bought = [] := by
    intro g hg
    cases hfile : g.store.read g.purchasesPath with
    | error fault =>
      cases fault
      simp only [bought, loadPurchases, loadDocument, load, hfile]
    | ok file =>
      cases file with
      | some bytes => exact absurd hfile (hg bytes)
      | none =>
        simp only [bought, loadPurchases, loadDocument, load, hfile]
        rfl
  by_cases hfile : ∃ bytes, h.store.read h.purchasesPath = .ok (some bytes)
  · obtain ⟨bytes, hbytes⟩ := hfile
    have hbytes' := (hread bytes).2 hbytes
    simp only [bought, loadPurchases, loadDocument, load, hpath, hbytes, hbytes']
  · rw [not_exists] at hfile
    rw [hnothing hfile, hnothing fun bytes hbytes => hfile bytes ((hread bytes).1 (hpath ▸ hbytes))]

/-- A purchase is there already, or it goes to the end of the file, or it fails and nothing that was
bought changes. -/
theorem recordPurchase_cases (sound : h.store.Sound) (key : String) :
    (key ∈ h.bought ∧ h.recordPurchase key = (some h.bought, h)) ∨
      ∃ h' : FileHost, h'.store.Sound ∧ key ∉ h.bought ∧
        ((h'.bought = h.bought ++ [key] ∧ h.recordPurchase key = (some h'.bought, h')) ∨
          (h'.bought = h.bought ∧ h.recordPurchase key = (none, h'))) := by
  cases hload : h.loadPurchases with
  | error fault =>
    refine .inr ⟨h, sound, ?_, .inr ⟨rfl, by simp only [recordPurchase, hload]⟩⟩
    rw [bought_of_error hload]
    exact List.not_mem_nil
  | ok keys =>
    rw [bought_of_ok hload]
    by_cases hkey : key ∈ keys
    · exact .inl ⟨hkey, by simp [recordPurchase, hload, hkey]⟩
    · refine .inr ?_
      obtain ⟨⟨written, store⟩, hsave⟩ : ∃ r,
          h.store.save h.purchasesPath (toDocumentBytes (keys ++ [key])) = r := ⟨_, rfl⟩
      have hsound : store.Sound := by
        have hsaved := sound.save h.purchasesPath (toDocumentBytes (keys ++ [key]))
        rwa [hsave] at hsaved
      have hrecord : h.recordPurchase key =
          (if written then some (keys ++ [key]) else none, { h with store := store }) := by
        simp [recordPurchase, hload, hkey, FileHost.save, hsave]
      refine ⟨{ h with store := store }, hsound, hkey, ?_⟩
      cases written with
      | true =>
        have hbought : ({ h with store := store } : FileHost).bought = keys ++ [key] :=
          bought_of_ok (loadPurchases_of_read (FileStore.read_of_save hsave))
        exact .inl ⟨hbought, hbought ▸ hrecord⟩
      | false =>
        have hbought : ({ h with store := store } : FileHost).bought = h.bought :=
          bought_eq_of_read rfl fun bytes => FileStore.read_of_failed sound hsave
        exact .inr ⟨hbought.trans (bought_of_ok hload), hrecord⟩

/-- What a request for the shop does to the file: nothing that was bought is lost, and the list of
an answer is the whole list. -/
structure Sells (h : FileHost) (r : Request) : Prop where
  sound : (h.handle r).2.store.Sound
  extended : Extended h.bought (h.handle r).2.bought
  answer : (h.handle r).1.succeeded = true →
    (h.handle r).1.data = toDocumentBytes (h.handle r).2.bought

theorem sells_of_reply {r : Request} (sound : h.store.Sound)
    (reply : h.handle r = (h.purchasesReply, h)) : h.Sells r := by
  have hreply : h.purchasesReply.succeeded = true →
      h.purchasesReply.data = toDocumentBytes h.bought := by
    rw [purchasesReply, bought]
    cases h.loadPurchases with
    | ok keys => exact fun _ => rfl
    | error fault => exact fun hfailed => by cases hfailed
  exact ⟨by rwa [reply], by rw [reply]; exact .refl _, by rwa [reply]⟩

theorem sells_purchase (sound : h.store.Sound) (key : String) : h.Sells (.purchase key) := by
  rcases recordPurchase_cases sound key with ⟨-, hrecord⟩ | ⟨h', hsound, hnew, ⟨hbought, hrecord⟩ |
    ⟨hbought, hrecord⟩⟩
  · have hhandle : h.handle (.purchase key) = (⟨true, toDocumentBytes h.bought⟩, h) := by
      rw [handle, hrecord]
    exact ⟨by rwa [hhandle], by rw [hhandle]; exact .refl _, fun _ => by rw [hhandle]⟩
  · have hhandle : h.handle (.purchase key) = (⟨true, toDocumentBytes h'.bought⟩, h') := by
      rw [handle, hrecord]
    refine ⟨by rwa [hhandle], ?_, fun _ => by rw [hhandle]⟩
    rw [hhandle, hbought]
    exact .concat hnew
  · have hhandle : h.handle (.purchase key) = (.failure, h') := by
      rw [handle, hrecord]
    refine ⟨by rwa [hhandle], ?_, fun hfailed => by rw [hhandle] at hfailed; cases hfailed⟩
    rw [hhandle, hbought]
    exact .refl _

/-- A purchase is answered as succeeded exactly if the file lists it then. -/
theorem succeeded_purchase_iff (sound : h.store.Sound) (key : String) :
    (h.handle (.purchase key)).1.succeeded = true ↔
      key ∈ (h.handle (.purchase key)).2.bought := by
  rcases recordPurchase_cases sound key with ⟨hkey, hrecord⟩ | ⟨h', -, hnew, ⟨hbought, hrecord⟩ |
    ⟨hbought, hrecord⟩⟩
  · rw [handle, hrecord]
    exact iff_of_true rfl hkey
  · rw [handle, hrecord]
    refine iff_of_true rfl ?_
    rw [hbought]
    exact List.mem_append_right _ (List.mem_singleton_self key)
  · rw [handle, hrecord]
    exact iff_of_false Bool.false_ne_true (hbought ▸ hnew)

end FileHost

/-! ## Answers -/

/-- The list of purchases that an answer brings. -/
def Answer.purchases? (a : Answer) : Option (List String) :=
  match a.kind with
  | .purchase | .restorePurchases | .showShop =>
    if a.reply.succeeded then ofDocumentBytes? a.reply.data else none
  | _ => none

theorem FileHost.Sells.purchases?_eq {h : FileHost} {r : Request} (sells : h.Sells r) {id : Nat}
    {keys : List String} (hkeys : Answer.purchases? ⟨id, r.kind, (h.handle r).1⟩ = some keys) :
    keys = (h.handle r).2.bought := by
  have hlist : ofDocumentBytes? (toDocumentBytes (h.handle r).2.bought) =
      some (h.handle r).2.bought := ofDocumentBytes?_toDocumentBytes _ (by decide)
  have hdata : (h.handle r).1.succeeded = true ∧
      ofDocumentBytes? (h.handle r).1.data = some keys := by
    rw [Answer.purchases?] at hkeys
    split at hkeys
    · exact Option.ite_none_right_eq_some.1 hkeys
    · exact Option.ite_none_right_eq_some.1 hkeys
    · exact Option.ite_none_right_eq_some.1 hkeys
    · cases hkeys
  rw [sells.answer hdata.1, hlist] at hdata
  exact (Option.some.inj hdata.2).symm

theorem FileHost.Sells.purchases?_purchase {h : FileHost} {key : String}
    (sells : h.Sells (.purchase key)) (id : Nat)
    (succeeded : (h.handle (.purchase key)).1.succeeded = true) :
    Answer.purchases? ⟨id, .purchase, (h.handle (.purchase key)).1⟩ =
      some (h.handle (.purchase key)).2.bought := by
  rw [Answer.purchases?]
  simp only [succeeded, if_true]
  rw [sells.answer succeeded]
  exact ofDocumentBytes?_toDocumentBytes _ (by decide)

namespace Platform

variable {project : Project} {p p' : Platform} {h : FileHost}

/-- The list of purchases in the file; empty where none can be read. -/
def bought (p : Platform) : List String :=
  match p.host with
  | .files h => h.bought
  | _ => []

theorem bought_eq (host : p.host = .files h) : p.bought = h.bought := by
  rw [bought, host]

/-- The lists of purchases that wait in the inbox, in order. -/
def waiting (p : Platform) : List (List String) := p.inbox.filterMap Answer.purchases?

/-- The list of purchases once all answers are collected. -/
def latest (p : Platform) : List String := p.waiting.getLast?.getD p.purchases

theorem latest_eq (p : Platform) : p.latest = p.waiting.getLast?.getD p.purchases := rfl

theorem latest_concat {lists : List (List String)} {keys : List String}
    (h : p.waiting = lists ++ [keys]) : p.latest = keys := by
  rw [latest_eq, h, List.getLast?_concat, Option.getD_some]

theorem apply_purchases (project : Project) (p : Platform) (a : Answer) :
    (p.apply project a).purchases = a.purchases?.getD p.purchases ∧
      (p.apply project a).host = p.host := by
  obtain ⟨id, kind, succeeded, data⟩ := a
  cases succeeded with
  | false => cases kind <;> exact ⟨rfl, rfl⟩
  | true =>
    cases kind with
    | purchase | restorePurchases | showShop =>
      simp only [apply, Answer.purchases?, if_true]
      cases (ofDocumentBytes? data : Option (List String)) <;> exact ⟨rfl, rfl⟩
    | prices =>
      simp only [apply, if_true]
      cases (ofDocumentBytes? data : Option (SortedMap String String)) <;> exact ⟨rfl, rfl⟩
    | changeLanguage =>
      simp only [apply, if_true, setLanguage]
      cases project.texts.languages <;> exact ⟨rfl, rfl⟩
    | _ => exact ⟨rfl, rfl⟩

theorem receive_all_purchases (project : Project) (inbox : List Answer) (p : Platform) :
    (inbox.foldl (receive project) p).purchases =
        (inbox.filterMap Answer.purchases?).getLast?.getD p.purchases ∧
      (inbox.foldl (receive project) p).host = p.host := by
  induction inbox generalizing p with
  | nil => exact ⟨rfl, rfl⟩
  | cons a inbox ih =>
    obtain ⟨hpurchases, hhost⟩ := ih (p.receive project a)
    obtain ⟨happly, hhost'⟩ := apply_purchases project p a
    refine ⟨hpurchases.trans ?_, hhost.trans hhost'⟩
    show _ = ((a :: inbox).filterMap Answer.purchases?).getLast?.getD p.purchases
    rw [show (p.receive project a).purchases = _ from happly, List.filterMap_cons]
    cases a.purchases? with
    | none => rfl
    | some keys =>
      show _ = ((keys :: inbox.filterMap Answer.purchases?).getLast?).getD _
      rw [List.getLast?_cons]
      rfl

theorem purchases_collect (p : Platform) (project : Project) :
    (p.collect project).purchases = p.latest :=
  (receive_all_purchases project p.inbox { p with inbox := [] }).1

theorem host_collect (p : Platform) (project : Project) : (p.collect project).host = p.host :=
  (receive_all_purchases project p.inbox { p with inbox := [] }).2

/-! ## Visits to the shop -/

/-- What happens at the shop: requests, answers that are collected, and meanwhile anything outside
that leaves the list of purchases as it is, such as another file or whether files can be written. -/
inductive ShopStep (project : Project) : Platform → Platform → Prop where
  | buy (p : Platform) (key : String) : ShopStep project p (p.ask (.purchase key)).2
  | restore (p : Platform) : ShopStep project p (p.ask .restorePurchases).2
  | browse (p : Platform) (catalog : String) : ShopStep project p (p.ask (.showShop catalog)).2
  | collect (p : Platform) : ShopStep project p (p.collect project)
  | meanwhile {p : Platform} {h : FileHost} {store : FileStore} (host : p.host = .files h)
      (sound : store.Sound)
      (kept : ({ h with store := store } : FileHost).loadPurchases = h.loadPurchases) :
      ShopStep project p { p with host := .files { h with store := store } }

/-- Any number of steps at the shop. -/
abbrev Shopping (project : Project) : Platform → Platform → Prop :=
  Relation.ReflTransGen (ShopStep project)

/-- The lists of purchases are prefixes of each other: the one in the platform comes first, those
that wait come in the order of their answers, and the one in the file comes last. -/
structure Ordered (p : Platform) (h : FileHost) : Prop where
  host : p.host = .files h
  sound : h.store.Sound
  lists : (p.purchases :: p.waiting ++ [h.bought]).Pairwise (· <+: ·)

/-- What does not get lost at the shop. -/
structure Keeps (p p' : Platform) : Prop where
  bought : Extended p.bought p'.bought
  purchases : p.purchases <+: p'.purchases
  latest : p.latest <+: p'.latest

theorem Keeps.refl (p : Platform) : p.Keeps p := ⟨.refl _, List.prefix_refl _, List.prefix_refl _⟩

theorem Keeps.trans {p'' : Platform} (first : p.Keeps p') (more : p'.Keeps p'') : p.Keeps p'' :=
  ⟨first.bought.trans more.bought, first.purchases.trans more.purchases,
    first.latest.trans more.latest⟩

theorem mem_latest (p : Platform) : p.latest ∈ p.purchases :: p.waiting := by
  rw [latest]
  cases hlast : p.waiting.getLast? with
  | none => exact List.mem_cons_self
  | some keys => exact List.mem_cons_of_mem _ (List.mem_of_getLast? hlast)

theorem Ordered.prefixes_bought (ordered : p.Ordered h) {keys : List String}
    (hkeys : keys ∈ p.purchases :: p.waiting) : keys <+: h.bought :=
  (List.pairwise_append.1 ordered.lists).2.2 keys hkeys h.bought (List.mem_singleton_self _)

theorem Ordered.purchases_prefixes (ordered : p.Ordered h) : p.purchases <+: p.latest := by
  rcases List.mem_cons.1 p.mem_latest with heq | hmem
  · exact heq.symm ▸ List.prefix_refl p.purchases
  · exact (List.pairwise_cons.1 (List.pairwise_append.1 ordered.lists).1).1 _ hmem

/-- What is asked of files is answered at once. -/
theorem ask_files (host : p.host = .files h) (r : Request) :
    (p.ask r).2.host = .files (h.handle r).2 ∧ (p.ask r).2.purchases = p.purchases ∧
      (p.ask r).2.inbox = p.inbox ++ [⟨p.lastRequestId + 1, r.kind, (h.handle r).1⟩] := by
  have hhandle : p.host.handle r = (some (h.handle r).1, .files (h.handle r).2) := by
    rw [host]
    rfl
  simp only [ask, nextRequestId, send, hhandle]
  exact ⟨rfl, rfl, rfl⟩

theorem waiting_ask (host : p.host = .files h) (r : Request) :
    (p.ask r).2.waiting = p.waiting ++
      (Answer.purchases? ⟨p.lastRequestId + 1, r.kind, (h.handle r).1⟩).toList := by
  obtain ⟨-, -, hinbox⟩ := ask_files host r
  rw [waiting, waiting, hinbox, List.filterMap_append]
  cases hkeys : Answer.purchases? ⟨p.lastRequestId + 1, r.kind, (h.handle r).1⟩ <;> simp [hkeys]

theorem Ordered.ask (ordered : p.Ordered h) {r : Request} (sells : h.Sells r) :
    (p.ask r).2.Ordered (h.handle r).2 ∧ p.Keeps (p.ask r).2 := by
  obtain ⟨hhost, hpurchases, -⟩ := ask_files ordered.host r
  have hwaiting := waiting_ask ordered.host r
  have hbefore : ∀ keys ∈ p.purchases :: p.waiting, keys <+: (h.handle r).2.bought :=
    fun keys hkeys => (ordered.prefixes_bought hkeys).trans sells.extended.prefixes
  have hlists := (List.pairwise_append.1 ordered.lists).1
  have hbought : Extended p.bought (p.ask r).2.bought := by
    rw [bought_eq ordered.host, bought_eq hhost]
    exact sells.extended
  have hkept : p.purchases <+: (p.ask r).2.purchases := hpurchases ▸ List.prefix_refl _
  cases hkeys : Answer.purchases? ⟨p.lastRequestId + 1, r.kind, (h.handle r).1⟩ with
  | none =>
    rw [hkeys, Option.toList_none, List.append_nil] at hwaiting
    refine ⟨⟨hhost, sells.sound, ?_⟩, hbought, hkept, ?_⟩
    · rw [hpurchases, hwaiting, List.pairwise_append]
      exact ⟨hlists, List.pairwise_singleton _ _, fun keys hkeys last hlast =>
        List.mem_singleton.1 hlast ▸ hbefore keys hkeys⟩
    · have hlatest : (p.ask r).2.latest = p.latest := by
        rw [latest_eq, latest_eq, hwaiting, hpurchases]
      exact hlatest.symm ▸ List.prefix_refl p.latest
  | some keys =>
    obtain rfl := sells.purchases?_eq hkeys
    rw [hkeys, Option.toList_some] at hwaiting
    refine ⟨⟨hhost, sells.sound, ?_⟩, hbought, hkept, ?_⟩
    · rw [hpurchases, hwaiting, ← List.cons_append, List.append_assoc, List.pairwise_append]
      refine ⟨hlists, by simp, fun keys hkeys last hlast => ?_⟩
      have hlast' : last = (h.handle r).2.bought := by simpa using hlast
      exact hlast' ▸ hbefore keys hkeys
    · rw [latest_concat hwaiting]
      exact hbefore _ p.mem_latest

theorem Ordered.collect (ordered : p.Ordered h) (project : Project) :
    (p.collect project).Ordered h ∧ p.Keeps (p.collect project) := by
  have hhost := (host_collect p project).trans ordered.host
  have hwaiting : (p.collect project).waiting = [] := by
    rw [waiting, inbox_collect]
    rfl
  have hpurchases := purchases_collect p project
  refine ⟨⟨hhost, ordered.sound, ?_⟩, ?_, ?_, ?_⟩
  · rw [hwaiting, hpurchases]
    simpa using ordered.prefixes_bought p.mem_latest
  · rw [bought_eq ordered.host, bought_eq hhost]
    exact .refl _
  · rw [hpurchases]
    exact ordered.purchases_prefixes
  · rw [latest_eq (p.collect project), hwaiting, hpurchases]
    exact List.prefix_refl _

/-- Nothing gets lost in one step. -/
theorem ShopStep.keeps (step : ShopStep project p p') (ordered : p.Ordered h) :
    (∃ h', p'.Ordered h') ∧ p.Keeps p' := by
  cases step with
  | buy key =>
    obtain ⟨hordered, hkeeps⟩ := ordered.ask (FileHost.sells_purchase ordered.sound key)
    exact ⟨⟨_, hordered⟩, hkeeps⟩
  | restore =>
    obtain ⟨hordered, hkeeps⟩ := ordered.ask (r := .restorePurchases)
      (FileHost.sells_of_reply ordered.sound rfl)
    exact ⟨⟨_, hordered⟩, hkeeps⟩
  | browse catalog =>
    obtain ⟨hordered, hkeeps⟩ := ordered.ask (r := .showShop catalog)
      (FileHost.sells_of_reply ordered.sound rfl)
    exact ⟨⟨_, hordered⟩, hkeeps⟩
  | collect =>
    obtain ⟨hordered, hkeeps⟩ := ordered.collect project
    exact ⟨⟨_, hordered⟩, hkeeps⟩
  | @meanwhile h' store host sound kept =>
    obtain rfl : h' = h := Host.files.inj (host.symm.trans ordered.host)
    have hbought : ({ h' with store := store } : FileHost).bought = h'.bought := by
      rw [FileHost.bought, FileHost.bought, kept]
    refine ⟨⟨_, rfl, sound, ?_⟩, ?_, List.prefix_refl _, List.prefix_refl _⟩
    · rw [hbought]
      exact ordered.lists
    · rw [bought_eq host, bought_eq rfl, hbought]
      exact .refl _

/-- Nothing gets lost in any number of steps. -/
theorem Shopping.keeps (shopping : Shopping project p p') (ordered : p.Ordered h) :
    (∃ h', p'.Ordered h') ∧ p.Keeps p' := by
  induction shopping with
  | refl => exact ⟨⟨h, ordered⟩, .refl p⟩
  | tail _ step ih =>
    obtain ⟨⟨h', ordered'⟩, hkeeps⟩ := ih
    obtain ⟨hordered, hkeeps'⟩ := step.keeps ordered'
    exact ⟨hordered, hkeeps.trans hkeeps'⟩

theorem isPurchased_iff {key : String} : p.isPurchased key = true ↔ key ∈ p.purchases :=
  List.contains_iff_mem

/-- A platform of files that began with the purchases of its file never loses one.  The file is only
ever extended at its end, by products that it did not list; what is purchased stays purchased; and a
purchase succeeds exactly if the file lists it then, so that the file lists it ever after and the
platform knows it as soon as answers are collected. -/
theorem purchases_last {p₀ : Platform} (host : p₀.host = .files h) (sound : h.store.Sound)
    (quiet : p₀.inbox = []) (loaded : h.loadPurchases = .ok p₀.purchases)
    (reached : Shopping project p₀ p) (later : Shopping project p p') :
    Extended p.bought p'.bought ∧
    (∀ key, p.isPurchased key = true → p'.isPurchased key = true) ∧
    ∀ key, ∃ reply,
      (p.ask (.purchase key)).2.inbox = p.inbox ++ [⟨p.lastRequestId + 1, .purchase, reply⟩] ∧
      (reply.succeeded = true ↔ key ∈ (p.ask (.purchase key)).2.bought) ∧
      (reply.succeeded = true → ∀ q, Shopping project (p.ask (.purchase key)).2 q →
        key ∈ q.bought ∧ (q.collect project).isPurchased key = true) := by
  have ordered₀ : p₀.Ordered h := by
    refine ⟨host, sound, ?_⟩
    rw [waiting, quiet, FileHost.bought_of_ok loaded]
    simp
  obtain ⟨⟨g, ordered⟩, -⟩ := reached.keeps ordered₀
  have hkeeps := (later.keeps ordered).2
  refine ⟨hkeeps.bought, fun key hkey => ?_, fun key => ?_⟩
  · rw [isPurchased_iff] at hkey ⊢
    exact hkeeps.purchases.subset hkey
  · obtain ⟨hhost, -, hinbox⟩ := ask_files ordered.host (.purchase key)
    have sells := FileHost.sells_purchase ordered.sound key
    have hsucceeded := FileHost.succeeded_purchase_iff ordered.sound key
    have hordered := (ordered.ask sells).1
    refine ⟨_, hinbox, by rwa [bought_eq hhost], fun hreply q hq => ?_⟩
    have hlater := (hq.keeps hordered).2
    have hkey := hsucceeded.1 hreply
    refine ⟨hlater.bought.prefixes.subset (by rwa [bought_eq hhost]), ?_⟩
    rw [isPurchased_iff, purchases_collect]
    refine hlater.latest.subset ?_
    have hwaiting := waiting_ask ordered.host (.purchase key)
    rw [show (Request.purchase key).kind = .purchase from rfl,
      sells.purchases?_purchase _ hreply] at hwaiting
    rw [latest_concat hwaiting]
    exact hkey

/-! ## A shop that closes -/

/-- Files, none of which is there yet. -/
def noFiles : FileHost := ⟨.empty, "save.msgpack", "purchases.json", "language.json", none⟩

/-- The platform after one product was bought. -/
def tipped : Platform :=
  ((Platform.start default (.files noFiles)).ask (.purchase "tip_jar")).2.collect default

/-- The files then, once nothing can be written any more. -/
def lockedFiles : FileHost :=
  let h := (noFiles.handle (.purchase "tip_jar")).2
  { h with store := { h.store with readOnly := true } }

/-- The platform after another product could not be bought. -/
def lockedOut : Platform :=
  ({ tipped with host := .files lockedFiles }.ask (.purchase "unlock_all")).2.collect default

theorem purchases_last_lockedOut :
    noFiles.store.Sound ∧ Shopping default (.start default (.files noFiles)) tipped ∧
      Shopping default tipped lockedOut ∧ tipped.bought = ["tip_jar"] ∧
      Extended tipped.bought lockedOut.bought ∧ lockedOut.bought = ["tip_jar"] ∧
      lockedOut.isPurchased "tip_jar" = true := by
  have sound : noFiles.store.Sound := fun names bytes hnode => by
    rw [FileStore.node?] at hnode
    split at hnode <;> cases hnode
  have hhost : tipped.host = .files (noFiles.handle (.purchase "tip_jar")).2 :=
    (host_collect _ _).trans (ask_files rfl _).1
  have hlocked : lockedFiles.store.Sound :=
    (FileHost.sells_purchase sound "tip_jar").sound
  have hreached : Shopping default (.start default (.files noFiles)) tipped :=
    .tail (.single (.buy _ "tip_jar")) (.collect _)
  have hlater : Shopping default tipped lockedOut :=
    .tail (.tail (.single (.meanwhile hhost hlocked rfl)) (.buy _ "unlock_all")) (.collect _)
  have hloaded : noFiles.loadPurchases = .ok [] := by decide +kernel
  obtain ⟨hbought, hpurchased, -⟩ := purchases_last rfl sound rfl hloaded hreached hlater
  exact ⟨sound, hreached, hlater, by decide +kernel, hbought, by decide +kernel,
    hpurchased "tip_jar" (by decide +kernel)⟩

end Platform

end Adventure
