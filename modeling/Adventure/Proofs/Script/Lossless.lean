import Adventure.Proofs.Script.Nesting
import Adventure.Proofs.Script.Sizes
import Adventure.Proofs.Wire.Packed
import Adventure.Proofs.Wire.Spelled

/-!
# Scripts lose nothing

A script that is read from a document or from packed data is written so that it is read again,
and what it is written as says the same names, branches and arguments that are not understood as
what it was read from.  Two things are beyond packed data and documents: packed data says lengths
in 32 bits, so a longer text of a document does not fit, and a document has no numbers that are
infinite or none at all, so where arguments are kept as they stood, `null` is kept for these.
-/

namespace Adventure

open Save Wire Wire.Value

namespace Command

/-! ## Spelling -/

theorem decodeItems?_spelled {α : Type} {read : Value → Option α}
    (h : ∀ v : Value, read v.spelled = read v) (items : List Value) :
    decodeItems? read (items.map spelled) = decodeItems? read items := by
  induction items with
  | nil => rfl
  | cons x rest ih => rw [List.map_cons, decodeItems?, decodeItems?, h, ih]

theorem readList?_spelled {α : Type} {m : Medium} {read : Value → Option α}
    (h : ∀ v : Value, read v.spelled = read v) (v : Value) :
    readList? m read v.spelled = readList? m read v := by
  rw [readList?, readList?, items?_spelled]
  cases items? m v with
  | none => rfl
  | some items => exact decodeItems?_spelled h items

/-- Whether keys are spelled with escapes does not matter to a command. -/
theorem ofValueWithin?_spelled {fuel : Nat} {m : Medium} : ∀ v : Value,
    ofValueWithin? fuel m v.spelled = ofValueWithin? fuel m v := by
  induction fuel with
  | zero => exact fun _ => rfl
  | succ fuel ih =>
    intro v
    simp only [ofValueWithin?, Option.bind_eq_bind, Fields.read?_spelled]
    cases Fields.read? m ["name", "args", "branches"] v with
    | none => rfl
    | some f =>
      have hname : (f.spelled.required m "name" : Option String) = f.required m "name" :=
        f.requiredBy_spelled decode?_text_spelled "name"
      have hargs : f.spelled.withDefault m "args" Value.null = f.withDefault m "args" .null :=
        f.orElse_spelled plain?_spelled "args" .null
      have hbranches :=
        f.orElse_spelled (readList?_spelled (m := m) (readList?_spelled (m := m) ih))
        "branches" []
      simp only [Option.map_some, Option.bind_some, hname, hargs, hbranches]

theorem decode?_spelled {m : Medium} (v : Value) :
    (decode? m v.spelled : Option Script) = decode? m v := by
  refine readList?_spelled (fun x => ?_) v
  show ofValueWithin? (x.spelled.depth + 1) m x.spelled = ofValueWithin? (x.depth + 1) m x
  rw [depth_spelled, ofValueWithin?_spelled]

/-! ## Round trips -/

variable {m : Medium} {v : Value} {depth : Nat} {script : Script}

theorem exists_storable (hv : v.Bounded depth) (h : decode? m v = some script) :
    ∀ c ∈ script, ∃ n, c.Storable n := by
  intro c hc
  obtain ⟨y, hy | ⟨-, n, rfl⟩, hyc⟩ := part_or_octet_of_readList h c hc
  · exact ⟨_, storable_of_ofValue? (hy.bounded hv).2 hyc⟩
  · cases hyc

section Storable

variable (h : ∀ c ∈ script, ∃ n, c.Storable n)

include h

theorem told_script : Told m script := told_list fun c hc => (h c hc).elim fun _ => Storable.told

theorem writable_script {n : Nat} (hdepth : (encode script).depth ≤ n) :
    (encode script).Writable true n := by
  have hlist : (encode script).Writable true ((encode script).depth + 1) := by
    refine writable_encode_list fun c hc => ?_
    obtain ⟨k, hk⟩ := h c hc
    refine hk.writable.of_depth_le ?_
    have hle := depth_le_of_mem_items (List.mem_map.2 ⟨c, hc, rfl⟩ : encode c ∈ script.map encode)
    exact Nat.le_trans hle (Nat.le_succ _)
  exact hlist.of_depth_le hdepth

/-- A script comes back from packed data. -/
theorem unpack?_pack (hdepth : (encode script).depth ≤ MessagePack.maxDepth)
    (hsized : (encode script).isSized = true) : unpack? (pack script) = some script := by
  obtain ⟨v', htold, hread⟩ :=
    MessagePack.read?_write_of_sized (writable_script h hdepth) hsized
  rw [unpack?, pack, hread]
  exact told_script h v' htold

/-- A script without doubles comes back from a document. -/
theorem ofDocumentBytes?_toDocumentBytes (hdepth : (encode script).depth ≤ Json.maxDepth)
    (hfloatless : (encode script).isFloatless = true) :
    ofDocumentBytes? (toDocumentBytes script) = some script := by
  have hwritable := writable_script h hdepth
  rw [ofDocumentBytes?, toDocumentBytes, toDocument, Json.readBytes?_compact hwritable hfloatless]
  exact (decode?_spelled _).trans (told_script h _ hwritable.retold)

end Storable

/-! ## Outlines -/

/-- Whether a tree is the record of a command with a name, arguments and branches. -/
def IsRecord (m : Medium) (v : Value) (name : String) (args : Value) (lists : List Value) : Prop :=
  ∃ f, Fields.read? m ["name", "args", "branches"] v = some f ∧ f.required m "name" = some name ∧
    f.withDefault m "args" Value.null = some args ∧ f.orElse (items? m) "branches" [] = some lists

/-- The trees of the commands of a route, which stand in its arguments. -/
def routeBody? (args : Value) : Option (List Value) :=
  (Fields.read? .document ["eventId", "repeat", "skip", "wait", "commands"] args).bind fun f =>
    (f.find? "commands").bind (items? .document)

mutual

/-- Whether a tree gives the outline of a command: its name, the commands of its branches and of its
body, and the arguments of one that was not understood. -/
def Outlined : Medium → Command → Value → Prop
  | m, act action branches, v => ∃ args lists, IsRecord m v action.name args lists ∧
      ((act action branches).misreading?.isSome → action.args = args) ∧
      OutlinedLists m branches lists
  | m, route _ body branches, v => ∃ args lists commands, IsRecord m v "set_route" args lists ∧
      routeBody? args = some commands ∧ OutlinedList .document body commands ∧
      OutlinedLists m branches lists

def OutlinedLists : Medium → List Script → List Value → Prop
  | _, [], lists => lists = []
  | m, script :: rest, lists => ∃ x items lists', lists = x :: lists' ∧ items? m x = some items ∧
      OutlinedList m script items ∧ OutlinedLists m rest lists'

def OutlinedList : Medium → Script → List Value → Prop
  | _, [], items => items = []
  | m, command :: rest, items => ∃ x items', items = x :: items' ∧ Outlined m command x ∧
      OutlinedList m rest items'

end

theorem outlinedList_of_decodeItems? {m : Medium} {read : Value → Option Command}
    (hread : ∀ {x : Value} {c : Command}, read x = some c → Outlined m c x) {items : List Value}
    {script : Script} (h : decodeItems? read items = some script) :
    OutlinedList m script items := by
  induction items generalizing script with
  | nil =>
    obtain rfl := Option.some.inj h
    rfl
  | cons x rest ih =>
    rw [decodeItems?] at h
    split at h
    · next c cs hc hcs =>
      obtain rfl := Option.some.inj h
      exact ⟨x, rest, rfl, hread hc, ih hcs⟩
    · cases h

theorem outlinedLists_of_decodeItems? {m : Medium} {read : Value → Option Command}
    (hread : ∀ {x : Value} {c : Command}, read x = some c → Outlined m c x) {lists : List Value}
    {branches : List Script} (h : decodeItems? (readList? m read) lists = some branches) :
    OutlinedLists m branches lists := by
  induction lists generalizing branches with
  | nil =>
    obtain rfl := Option.some.inj h
    rfl
  | cons x rest ih =>
    rw [decodeItems?] at h
    split at h
    · next script scripts hscript hscripts =>
      obtain rfl := Option.some.inj h
      obtain ⟨items, hitems, hcommands⟩ := Option.bind_eq_some_iff.1 hscript
      exact ⟨x, items, rest, rfl, hitems, outlinedList_of_decodeItems? hread hcommands, ih hscripts⟩
    · cases h

theorem misreading?_act (action : Action) (branches : List Script) :
    (act action branches).misreading? = (act action []).misreading? := by
  cases action <;> rfl

/-- The body of a route is read from the commands in its arguments. -/
theorem exists_routeBody {read : Value → Option Command} {args : Value} {order : RouteOrder}
    {body : Script} (h : routeArgs? read args = some (order, body)) :
    ∃ commands, routeBody? args = some commands ∧ decodeItems? read commands = some body := by
  simp only [routeArgs?, Option.bind_eq_bind, Option.bind_eq_some_iff] at h
  obtain ⟨f, hf, id, -, repeats, -, skip, -, wait, -, commands, ⟨x, hx, hread⟩, h⟩ := h
  obtain ⟨-, rfl⟩ := Prod.mk.inj (Option.some.inj h)
  obtain ⟨items, hitems, hbody⟩ := Option.bind_eq_some_iff.1 hread
  refine ⟨items, ?_, hbody⟩
  rw [routeBody?, hf, Option.bind_some, hx, Option.bind_some, hitems]

/-- A command has the outline that it is read from. -/
theorem outlined_of_readWithin {fuel : Nat} : ∀ {m : Medium} {v : Value} {c : Command},
    ofValueWithin? fuel m v = some c → Outlined m c v := by
  induction fuel with
  | zero => exact fun h => by cases h
  | succ fuel ih =>
    intro m v c h
    simp only [ofValueWithin?, Option.bind_eq_bind, Option.bind_eq_some_iff] at h
    obtain ⟨f, hf, name, hname, args, hargs, branches, hbranches, h⟩ := h
    obtain ⟨lists, hlists, houtlined⟩ : ∃ lists, f.orElse (items? m) "branches" [] = some lists ∧
        OutlinedLists m branches lists := by
      unfold Fields.orElse at hbranches ⊢
      split at hbranches
      · obtain ⟨lists, hlists, hread⟩ := Option.bind_eq_some_iff.1 hbranches
        exact ⟨lists, hlists, outlinedLists_of_decodeItems? ih hread⟩
      · obtain rfl := Option.some.inj hbranches
        exact ⟨[], rfl, rfl⟩
    have hrecord : IsRecord m v name args lists := ⟨f, hf, hname, hargs, hlists⟩
    split at h
    · next hroute =>
      rw [hroute] at hrecord
      split at h
      · next order body hbody =>
        obtain rfl := Option.some.inj h
        obtain ⟨commands, hcommands, hread⟩ := exists_routeBody hbody
        exact ⟨args, lists, commands, hrecord, hcommands, outlinedList_of_decodeItems? ih hread,
          houtlined⟩
      · obtain rfl := Option.some.inj h
        exact ⟨args, lists, hroute ▸ hrecord, fun _ => rfl, houtlined⟩
    · obtain rfl := Option.some.inj h
      obtain ⟨hsame, hkept⟩ := Action.read_spec name args
      refine ⟨args, lists, by rw [hsame]; exact hrecord, fun hmisread => ?_, houtlined⟩
      rw [misreading?_act] at hmisread
      exact hkept hmisread

/-- Whether a tree gives the outline of a script. -/
def Outlines (m : Medium) (v : Value) (script : Script) : Prop :=
  ∃ items, items? m v = some items ∧ OutlinedList m script items

theorem outlines_of_read {v : Value} (h : decode? m v = some script) : Outlines m v script := by
  obtain ⟨items, hitems, hread⟩ := Option.bind_eq_some_iff.1 h
  exact ⟨items, hitems, outlinedList_of_decodeItems? outlined_of_readWithin hread⟩

theorem outlines_encode (h : ∀ c ∈ script, ∃ n, c.Storable n) :
    Outlines m (encode script) script :=
  outlines_of_read (told_script h _ (writable_script h (Nat.le_refl _)).retold)

/-! ## Codecs -/

/-- What was read from packed data has lengths that packed data can say. -/
theorem isSized_of_unpack? {bytes : List UInt8} (h : unpack? bytes = some script) :
    (encode script).isSized = true := by
  obtain ⟨v, hread, hv⟩ := Option.bind_eq_some_iff.1 h
  exact StaysSized.isSized hv (MessagePack.isSized_read? hread)

/-- Nothing of a script is lost.  What is read from a document comes back from packed data just if
none of its lengths is too long for that, and from a document as well unless it has doubles; what
is read from packed data comes back from packed data unless it is written deeper than packed data
is read.  Either way each command is written with the name and the branches that it was read with,
and with its arguments where they were not understood. -/
theorem lossless (script : Script) :
    (∀ bytes, ofDocumentBytes? bytes = some script →
      (∃ v, Json.readBytes? bytes = some v ∧ Outlines .document v script) ∧
      (∀ m, Outlines m (encode script) script) ∧
      (unpack? (pack script) = some script ↔ (encode script).isSized = true) ∧
      ((encode script).isFloatless = true →
        ofDocumentBytes? (toDocumentBytes script) = some script)) ∧
    (∀ bytes, unpack? bytes = some script →
      (∃ v, MessagePack.read? bytes = some v ∧ Outlines .packed v script) ∧
      (∀ m, Outlines m (encode script) script) ∧
      ((encode script).depth ≤ MessagePack.maxDepth → unpack? (pack script) = some script)) := by
  refine ⟨fun bytes hbytes => ?_, fun bytes hbytes => ?_⟩
  · obtain ⟨v, hread, hv⟩ := Option.bind_eq_some_iff.1 hbytes
    have hbounded : v.Bounded Json.maxDepth := Json.bounded_readPieces? hread
    have hstorable := exists_storable hbounded hv
    have hdepth : (encode script).depth ≤ Json.maxDepth :=
      Nat.le_trans (NoDeeper.depth_le hv) hbounded.depth_le
    refine ⟨⟨v, hread, outlines_of_read hv⟩, fun m => outlines_encode hstorable,
      ⟨isSized_of_unpack?, fun hsized => ?_⟩, ofDocumentBytes?_toDocumentBytes hstorable hdepth⟩
    exact unpack?_pack hstorable (Nat.le_trans hdepth (by decide)) hsized
  · obtain ⟨v, hread, hv⟩ := Option.bind_eq_some_iff.1 hbytes
    have hstorable := exists_storable (MessagePack.bounded_read? hread) hv
    exact ⟨⟨v, hread, outlines_of_read hv⟩, fun m => outlines_encode hstorable,
      fun hdepth => unpack?_pack hstorable hdepth (isSized_of_unpack? hbytes)⟩

/-- The bytes of `[{"name":"wait","args":{"time":10}},` and
`{"name":"teleport","args":{"where":3},"branches":[[{"name":"nop"}]]}]`. -/
def teleportDocument : List UInt8 :=
  [91, 123, 34, 110, 97, 109, 101, 34, 58, 34, 119, 97, 105, 116, 34, 44, 34, 97, 114, 103, 115,
    34, 58, 123, 34, 116, 105, 109, 101, 34, 58, 49, 48, 125, 125, 44, 123, 34, 110, 97, 109, 101,
    34, 58, 34, 116, 101, 108, 101, 112, 111, 114, 116, 34, 44, 34, 97, 114, 103, 115, 34, 58,
    123, 34, 119, 104, 101, 114, 101, 34, 58, 51, 125, 44, 34, 98, 114, 97, 110, 99, 104, 101,
    115, 34, 58, 91, 91, 123, 34, 110, 97, 109, 101, 34, 58, 34, 110, 111, 112, 34, 125, 93, 93,
    125, 93]

/-- What they say: the second command is not understood, and has a branch all the same. -/
def teleportScript : Script :=
  [act (.wait 10) [],
    act (.unrecognized "teleport" (.map [(.text "where", .int 3)]) .unknownName) [[act .nop []]]]

theorem lossless_teleport :
    ofDocumentBytes? teleportDocument = some teleportScript ∧
      unpack? (pack teleportScript) = some teleportScript ∧
      ofDocumentBytes? (toDocumentBytes teleportScript) = some teleportScript ∧
      Outlines .packed (encode teleportScript) teleportScript := by
  have hread : ofDocumentBytes? teleportDocument = some teleportScript := rfl
  obtain ⟨-, houtlines, hpacked, hdocument⟩ := (lossless teleportScript).1 teleportDocument hread
  have hunpack := hpacked.2 (by decide)
  obtain ⟨-, -, hagain⟩ := (lossless teleportScript).2 (pack teleportScript) hunpack
  exact ⟨hread, hagain (by decide), hdocument (by decide), houtlines .packed⟩

/-! ## What does not fit -/

/-- There are texts of any length. -/
theorem exists_utf8ByteSize (n : Nat) : ∃ s : String, s.utf8ByteSize = n := by
  induction n with
  | zero => exact ⟨"", rfl⟩
  | succ n ih =>
    obtain ⟨s, rfl⟩ := ih
    exact ⟨s ++ "a", String.utf8ByteSize_append⟩

/-- What a label is written as. -/
theorem encode_label (s : String) : encode [act (.label s) []] = .list [.map [(.text "name",
    .text "label"), (.text "args", .map [(.text "name", .text s)])]] := rfl

/-- A label of any length is read from the document that is written of it. -/
theorem ofDocumentBytes?_label (s : String) :
    ofDocumentBytes? (toDocumentBytes [act (.label s) []]) = some [act (.label s) []] := by
  have hstorable : ∀ c ∈ [act (.label s) []], ∃ n, c.Storable n :=
    List.forall_mem_singleton.2 ⟨1, Nat.one_pos, trivial, trivial⟩
  have hdepth : (encode [act (.label s) []]).depth = 3 := rfl
  exact ofDocumentBytes?_toDocumentBytes hstorable (hdepth ▸ by decide) rfl

/-- A label that is too long does not come back from packed data. -/
theorem unpack?_pack_label {s : String} (h : 0x100000000 ≤ s.utf8ByteSize) :
    unpack? (pack [act (.label s) []]) ≠ some [act (.label s) []] := by
  intro hback
  have hsized := isSized_of_unpack? hback
  rw [encode_label, isSized_list_iff, List.forall_mem_singleton] at hsized
  have hargs : (Value.map [(.text "name", .text s)]).isSized = true :=
    ((isSized_map_iff.1 hsized.2).2 _ (.tail _ (.head _))).2
  have hname : (Value.text s).isSized = true := ((isSized_map_iff.1 hargs).2 _ (.head _)).2
  exact absurd (of_decide_eq_true hname) (Nat.not_lt.2 h)

/-- A list with a command that is not known, which has an argument. -/
def sparkles (x : Value) : Value :=
  .list [.map [(.text "name", .text "sparkles"), (.text "args", .map [(.text "z", x)])]]

/-- The double that is written for no number. -/
def nan : Binary64 := ⟨0x7ff8000000000000⟩

/-- The bytes of packed `[{"name": "sparkles", "args": {"z": NaN}}]`. -/
def sparklesPacked : List UInt8 :=
  [0x91, 0x82, 0xa4, 110, 97, 109, 101, 0xa8, 115, 112, 97, 114, 107, 108, 101, 115, 0xa4, 97, 114,
    103, 115, 0x81, 0xa1, 122, 0xcb, 0x7f, 0xf8, 0, 0, 0, 0, 0, 0]

/-- What they say: the arguments are kept, with `null` for what a document cannot say. -/
def sparklesScript : Script :=
  [act (.unrecognized "sparkles" (.map [(.text "z", .null)]) .unknownName) []]

set_option maxRecDepth 4000 in
theorem read?_sparklesPacked : MessagePack.read? sparklesPacked = some (sparkles (.float nan)) := by
  with_unfolding_all rfl

/-- A script of a document may be too long for packed data, and an argument of packed data that no
document can say is not written again. -/
theorem label_too_long_and_argument_dropped :
    (∃ bytes, ∃ script : Script, ofDocumentBytes? bytes = some script ∧
      unpack? (pack script) ≠ some script) ∧
    MessagePack.read? sparklesPacked = some (sparkles (.float nan)) ∧
    unpack? sparklesPacked = some sparklesScript ∧
    encode sparklesScript = sparkles .null ∧ sparkles .null ≠ sparkles (.float nan) := by
  obtain ⟨s, hs⟩ := exists_utf8ByteSize 0x100000000
  have hlong := unpack?_pack_label (Nat.le_of_eq hs.symm)
  have hunpack : unpack? sparklesPacked = some sparklesScript := by
    rw [unpack?, read?_sparklesPacked]
    rfl
  refine ⟨⟨_, _, ofDocumentBytes?_label s, hlong⟩, read?_sparklesPacked, hunpack, rfl, ?_⟩
  exact fun h => by simp [sparkles] at h

end Command

end Adventure
