import Adventure.Proofs.Number.Draws
import Adventure.World.Questions

/-!
# What an operand reads

An operand of an assignment is a number of 64 bits, whichever of the eleven kinds it is of.
`World.Reads` says what each kind reads: what is not there counts as 0, and so does a switch that is
off, a question whose answer is no, and a cell that holds no whole number.  It says of the random
numbers what becomes of them, too: nothing, but for a random operand.
-/

namespace Adventure

/-! ## Variables -/

namespace Variables

/-- The variables that are reserved for the host, or the others. -/
def cells (v : Variables) (internal : Bool) : SortedMap Int32 Int64 :=
  if internal then v.internalNumbers else v.numbers

/-- What a variable holds; one that is not there holds 0. -/
def held (v : Variables) (internal : Bool) (id : Int32) : Int64 :=
  ((v.cells internal).find? id).getD 0

end Variables

theorem narrow?_eq_some_iff {value : Int64} {id : Int32} :
    narrow? value = some id ↔ value = id.toInt64 := by
  have hlow := id.le_toInt
  have hhigh := id.toInt_lt
  constructor
  · intro h
    rw [narrow?] at h
    split at h
    · next hvalue =>
      obtain rfl := Option.some.inj h
      rw [← Int64.toInt_inj, Int32.toInt_toInt64, Int32.toInt_ofInt_of_le hvalue.1 hvalue.2]
    · cases h
  · rintro rfl
    rw [narrow?, Int32.toInt_toInt64, if_pos ⟨hlow, hhigh⟩, Int32.ofInt_toInt]

/-- The id that a number stands for; all numbers that are no ids stand for one. -/
inductive Names (value : Int64) : Int32 → Prop where
  | id {id : Int32} (h : value = id.toInt64) : Names value id
  | astray (h : ∀ id : Int32, value ≠ id.toInt64) : Names value unsetId

theorem names_idOfValue (value : Int64) : Names value (idOfValue value) := by
  rw [idOfValue]
  cases hid : narrow? value with
  | some id => exact .id (narrow?_eq_some_iff.1 hid)
  | none =>
    refine .astray fun id heq => ?_
    rw [narrow?_eq_some_iff.2 heq] at hid
    cases hid

theorem Names.eq {value : Int64} {id id' : Int32} (h : Names value id)
    (hvalue : value = id'.toInt64) : id = id' := by
  cases h with
  | id heq =>
    have hint := congrArg Int64.toInt (heq.symm.trans hvalue)
    rwa [Int32.toInt_toInt64, Int32.toInt_toInt64, Int32.toInt_inj] at hint
  | astray hnone => exact absurd hvalue (hnone id')

/-! ## Answers -/

/-- A number that tells whether something holds: 1 if it does, and 0 otherwise. -/
def Tells (value : Int64) (p : Prop) : Prop := p ∧ value = 1 ∨ ¬ p ∧ value = 0

theorem tells_boolValue {b : Bool} {p : Prop} (h : b = true ↔ p) :
    Tells (World.boolValue b) p := by
  cases b with
  | true => exact .inl ⟨h.1 rfl, rfl⟩
  | false => exact .inr ⟨fun hp => Bool.false_ne_true (h.2 hp), rfl⟩

/-- A number that counts; there are none above the greatest number of 64 bits. -/
def Counts (value : Int64) (count : Nat) : Prop := value.toInt = min count (2 ^ 63 - 1)

theorem counts_countValue (count : Nat) : Counts (World.countValue count) count := by
  unfold Counts World.countValue
  split
  · next h =>
    rw [Int64.toInt_ofNat_of_lt h]
    omega
  · next h =>
    rw [Int64.toInt_maxValue]
    omega

/-- What is there to be read of a character, while a tile is pressed. -/
inductive Character.Shows (c : Character) (pressed : Option Tile) : CharacterProbe → Int64 → Prop
    where
  | up (h : c.dir = .up) : Shows c pressed .direction 0
  | right (h : c.dir = .right) : Shows c pressed .direction 1
  | down (h : c.dir = .down) : Shows c pressed .direction 2
  | left (h : c.dir = .left) : Shows c pressed .direction 3
  | roomX : Shows c pressed .roomX c.x.toInt64
  | roomY : Shows c pressed .roomY c.y.toInt64
  | screenX : Shows c pressed .screenX c.drawPosition.1.toInt64
  | screenY : Shows c pressed .screenY c.drawPosition.2.toInt64
  | isPressed {value : Int64} (h : Tells value (pressed = some ⟨c.x, c.y⟩)) :
      Shows c pressed .isPressed value

/-- What the id of a picture is read as, for one that may not be there. -/
inductive ReadsPicture (picture : Option Nat) : Int64 → Prop where
  | there {id : Nat} (h : picture = some id) (narrow : id < 2 ^ 63) :
      ReadsPicture picture (.ofNat id)
  | wide {id : Nat} (h : picture = some id) (wide : 2 ^ 63 ≤ id) : ReadsPicture picture 0
  | nowhere (h : picture = none) : ReadsPicture picture 0

theorem readsPicture_pictureValue (picture : Option Nat) :
    ReadsPicture picture (World.pictureValue picture) := by
  cases picture with
  | none => exact .nowhere rfl
  | some id =>
    rw [World.pictureValue]
    split
    · next hnarrow => exact .there rfl hnarrow
    · next hwide => exact .wide rfl (Nat.not_lt.1 hwide)

/-- The highest of the tiers that the owned products of a project grant; 0 without any. -/
structure Platform.Sponsors (p : Platform) (project : Project) (tier : Int64) : Prop where
  upper : ∀ x ∈ project.products, x.key ∈ p.purchases → x.kind.tier ≤ tier
  attained : tier = 0 ∨ ∃ x ∈ project.products, x.key ∈ p.purchases ∧ x.kind.tier = tier
  nonneg : 0 ≤ tier

/-- The highest of some tiers, and of one that is known before. -/
theorem foldl_tier_spec (xs : List Product) (best : Int64) :
    let tier := xs.foldl (fun best x => if best ≤ x.kind.tier then x.kind.tier else best) best
    best ≤ tier ∧ (∀ x ∈ xs, x.kind.tier ≤ tier) ∧
      (tier = best ∨ ∃ x ∈ xs, x.kind.tier = tier) := by
  induction xs generalizing best with
  | nil => exact ⟨Int64.le_refl best, by simp, .inl rfl⟩
  | cons x rest ih =>
    obtain ⟨hbest, hrest, hattained⟩ := ih (if best ≤ x.kind.tier then x.kind.tier else best)
    have hmax : best ≤ (if best ≤ x.kind.tier then x.kind.tier else best) ∧
        x.kind.tier ≤ (if best ≤ x.kind.tier then x.kind.tier else best) := by
      split
      · next hle => exact ⟨hle, Int64.le_refl _⟩
      · next hnot => exact ⟨Int64.le_refl _, (Int64.le_total best x.kind.tier).resolve_left hnot⟩
    refine ⟨Int64.le_trans hmax.1 hbest,
      List.forall_mem_cons.2 ⟨Int64.le_trans hmax.2 hbest, hrest⟩, ?_⟩
    rcases hattained with heq | ⟨y, hy, heq⟩
    · rw [List.foldl_cons, heq]
      split
      · exact .inr ⟨x, List.mem_cons_self, rfl⟩
      · exact .inl rfl
    · exact .inr ⟨y, List.mem_cons_of_mem x hy, heq⟩

theorem Platform.sponsors_sponsorTier (p : Platform) (project : Project) :
    p.Sponsors project (p.sponsorTier project) := by
  have howned : ∀ x, x ∈ (project.products.filter fun x => p.isPurchased x.key) ↔
      x ∈ project.products ∧ x.key ∈ p.purchases := by
    simp [Platform.isPurchased]
  obtain ⟨hnonneg, hupper, hattained⟩ :=
    foldl_tier_spec (project.products.filter fun x => p.isPurchased x.key) 0
  refine ⟨fun x hx hkey => hupper x ((howned x).2 ⟨hx, hkey⟩), ?_, hnonneg⟩
  refine hattained.imp_right fun ⟨x, hx, htier⟩ => ?_
  obtain ⟨hmem, hkey⟩ := (howned x).1 hx
  exact ⟨x, hmem, hkey, htier⟩

namespace World

variable (w : World) (platform : Platform) (project : Project)

theorem characterValue_of_none {id : Int32} (h : w.stage.character? id = none)
    (probe : CharacterProbe) : w.characterValue probe id = 0 := by
  rw [characterValue, h]

theorem shows_characterValue {id : Int32} {c : Character} (h : w.stage.character? id = some c)
    (probe : CharacterProbe) : c.Shows w.pressedTile probe (w.characterValue probe id) := by
  rw [characterValue, h]
  cases probe with
  | direction =>
    show c.Shows w.pressedTile .direction (Int64.ofNat c.dir.index)
    cases hdir : c.dir with
    | up => exact .up hdir
    | right => exact .right hdir
    | down => exact .down hdir
    | left => exact .left hdir
  | roomX => exact .roomX
  | roomY => exact .roomY
  | screenX => exact .screenX
  | screenY => exact .screenY
  | isPressed => exact .isPressed (tells_boolValue beq_iff_eq)

/-- What is there to be read of the game as a whole. -/
inductive Knows : SystemProbe → Int64 → Prop where
  | interstitialAds {value : Int64} (h : Tells value (platform.interstitialAdsLoaded = true)) :
      Knows .interstitialAdsLoaded value
  | rewardedAds {value : Int64} (h : Tells value (platform.rewardedAdsLoaded = true)) :
      Knows .rewardedAdsLoaded value
  | hints {value : Int64}
      (h : Counts value (w.hints.active.countP fun id => !w.hints.paused.contains id)) :
      Knows .activeHintCount value
  | room : Knows .roomId w.stage.roomId.toInt64
  | time : Knows .currentTime platform.clock
  | activeItem : Knows .activeItemId w.inventory.activeItem.toInt64
  | eventItem : Knows .eventItemId w.inventory.eventItem.toInt64
  | triggered {value : Int64} (h : ReadsPicture w.touch.triggered value) :
      Knows .triggeredPictureId value
  | pressed {value : Int64} (h : ReadsPicture w.touch.pressed value) :
      Knows .pressedPictureId value
  | released {value : Int64} (h : ReadsPicture w.touch.released value) :
      Knows .releasedPictureId value
  | sponsor {tier : Int64} (h : platform.Sponsors project tier) : Knows .sponsorTier tier

theorem knows_systemValue (probe : SystemProbe) :
    w.Knows platform project probe (w.systemValue platform project probe) := by
  cases probe with
  | interstitialAdsLoaded => exact .interstitialAds (tells_boolValue Iff.rfl)
  | rewardedAdsLoaded => exact .rewardedAds (tells_boolValue Iff.rfl)
  | activeHintCount =>
    have hcount : w.hints.activeCount =
        w.hints.active.countP fun id => !w.hints.paused.contains id := by
      rw [Hints.activeCount, Hints.running, List.countP_eq_length_filter]
    exact .hints (hcount ▸ counts_countValue _)
  | roomId => exact .room
  | currentTime => exact .time
  | activeItemId => exact .activeItem
  | eventItemId => exact .eventItem
  | triggeredPictureId => exact .triggered (readsPicture_pictureValue _)
  | pressedPictureId => exact .pressed (readsPicture_pictureValue _)
  | releasedPictureId => exact .released (readsPicture_pictureValue _)
  | sponsorTier => exact .sponsor (platform.sponsors_sponsorTier project)

/-- The whole number of 64 bits in a cell; what is none counts as 0. -/
inductive ReadsCell (cell : Option Wire.Value) : Int64 → Prop where
  | number {n : Int64} (h : cell = some (.int n.toInt)) : ReadsCell cell n
  | other (h : ∀ n : Int64, cell ≠ some (.int n.toInt)) : ReadsCell cell 0

theorem readsCell_cellValue (cell : Option Wire.Value) : ReadsCell cell (cellValue cell) := by
  unfold cellValue
  split
  · next n =>
    split
    · next hwithin =>
      refine .number ?_
      rw [Int64.toInt_ofInt_of_le hwithin.1 hwithin.2]
    · next hbeyond =>
      refine .other fun m heq => hbeyond ?_
      obtain rfl : n = m.toInt := by simpa using heq
      exact ⟨m.le_toInt, m.toInt_lt⟩
  · next hother => exact .other fun n => hother n.toInt

/-- What an operand reads for an event, and what becomes of the random numbers. -/
inductive Reads (eventId : Int32) : Operand → Int64 → Random → Prop where
  | constant (value : Int64) : Reads eventId (.constant value) value w.random
  | variable (id : Int32) : Reads eventId (.variable id) (w.memory.held false id) w.random
  /-- The variable whose id the given variable holds. -/
  | variableRef {id target : Int32} (names : Names (w.memory.held false id) target) :
      Reads eventId (.variableRef id) (w.memory.held false target) w.random
  | switch {id : Int32} {value : Int64}
      (tells : Tells value (w.memory.switches.find? id = some true)) :
      Reads eventId (.switch id) value w.random
  /-- The switch whose id the given variable holds. -/
  | switchRef {id target : Int32} {value : Int64} (names : Names (w.memory.held false id) target)
      (tells : Tells value (w.memory.switches.find? target = some true)) :
      Reads eventId (.switchRef id) value w.random
  | random {first last value : Int64} {random : Random}
      (drawn : w.random.between first last = (value, random))
      (low : min first last ≤ value) (high : value ≤ max first last) :
      Reads eventId (.random first last) value random
  | character {probe : CharacterProbe} {id : Int32} {c : Character} {value : Int64}
      (there : w.stage.character? (if id = selfId then eventId else id) = some c)
      (shows : c.Shows w.pressedTile probe value) :
      Reads eventId (.character probe id) value w.random
  | nobody {probe : CharacterProbe} {id : Int32}
      (absent : w.stage.character? (if id = selfId then eventId else id) = none) :
      Reads eventId (.character probe id) 0 w.random
  /-- The items that the player owns of a group, where 0 stands for all. -/
  | owned {group : Int32} {value : Int64} (counts : Counts value (w.inventory.items.countP fun id =>
        decide (group = 0 ∨ ∃ item, project.item? id = some item ∧ item.group = group))) :
      Reads eventId (.itemGroup .owned group) value w.random
  /-- The items that the project has of a group, where 0 stands for all. -/
  | total {group : Int32} {value : Int64}
      (counts : Counts value
        (project.items.countP fun item => decide (group = 0 ∨ item.group = group))) :
      Reads eventId (.itemGroup .total group) value w.random
  | product {id : Int32} {value : Int64}
      (tells : Tells value (∃ x, project.product? id = some x ∧ x.key ∈ platform.purchases)) :
      Reads eventId (.product id) value w.random
  | system {probe : SystemProbe} {value : Int64} (knows : w.Knows platform project probe value) :
      Reads eventId (.system probe) value w.random
  | cell {name column : String} {record value : Int64}
      (cell : ReadsCell ((project.table? name).bind (·.cell? record column)) value) :
      Reads eventId (.table name record .constant column) value w.random
  /-- A cell of the record whose id a variable holds. -/
  | cellOf {name column : String} {holder value : Int64} {id : Int32} (names : Names holder id)
      (cell : ReadsCell ((project.table? name).bind (·.cell? (w.memory.held false id) column))
        value) :
      Reads eventId (.table name holder .variable column) value w.random

/-- Only a random operand draws a number. -/
theorem Reads.random_eq {w : World} {platform : Platform} {project : Project} {eventId : Int32}
    {operand : Operand} {value : Int64} {random : Random}
    (h : w.Reads platform project eventId operand value random) :
    random = w.random ∨ ∃ first last, operand = .random first last := by
  cases h with
  | random => exact .inr ⟨_, _, rfl⟩
  | _ => exact .inl rfl

theorem find?_getD_eq_true {m : SortedMap Int32 Bool} {id : Int32} :
    (m.find? id).getD false = true ↔ m.find? id = some true := by
  cases m.find? id <;> simp

/-- The operand of an assignment is what its kind reads. -/
theorem reads_operand (eventId : Int32) (operand : Operand) :
    w.Reads platform project eventId operand (w.operand platform project eventId operand).1
      (w.operand platform project eventId operand).2 := by
  match operand with
  | .constant value => exact .constant value
  | .variable id => exact .variable id
  | .variableRef id => exact .variableRef (names_idOfValue _)
  | .switch id => exact .switch (tells_boolValue find?_getD_eq_true)
  | .switchRef id => exact .switchRef (names_idOfValue _) (tells_boolValue find?_getD_eq_true)
  | .random first last =>
    have hwithin := Random.spread_within (Random.min_le_max first last) w.random
    exact .random rfl hwithin.1 hwithin.2
  | .character probe id =>
    cases hc : w.stage.character? (if id = selfId then eventId else id) with
    | none =>
      rw [World.operand, w.characterValue_of_none hc]
      exact .nobody hc
    | some c => exact .character hc (w.shows_characterValue hc probe)
  | .itemGroup count group =>
    cases count with
    | owned =>
      have hcount : w.inventory.ownedInGroup project group =
          w.inventory.items.countP fun id =>
            decide (group = 0 ∨ ∃ item, project.item? id = some item ∧ item.group = group) := by
        refine List.countP_congr fun id _ => ?_
        simp [Option.any_eq_true]
      exact .owned (hcount ▸ counts_countValue _)
    | total =>
      have hcount : project.itemsInGroup group =
          project.items.countP fun item => decide (group = 0 ∨ item.group = group) := by
        refine List.countP_congr fun item _ => ?_
        simp
      exact .total (hcount ▸ counts_countValue _)
  | .product id =>
    refine .product (tells_boolValue ?_)
    simp [Option.any_eq_true, Platform.isPurchased]
  | .system probe => exact .system (w.knows_systemValue platform project probe)
  | .table name record source column =>
    match source with
    | .constant => exact .cell (readsCell_cellValue _)
    | .variable => exact .cellOf (names_idOfValue record) (readsCell_cellValue _)

end World

end Adventure
