import Adventure.Project.Basic
import Adventure.Wire.Codec

/-!
# Projects on the wire

The fields of everything in a project, with the defaults of those that may be left out.
-/

namespace Adventure

open Wire

instance : Enumeration Trigger where
  cases := [.player, .direct, .auto, .parallel, .never]
  label
    | .player => "player"
    | .direct => "direct"
    | .auto => "auto"
    | .parallel => "parallel"
    | .never => "never"

instance : Enumeration Priority where
  cases := [.below, .same, .above]
  label
    | .below => "below"
    | .same => "same"
    | .above => "above"

instance : Enumeration Passage where
  cases := [.passable, .wall]
  label
    | .passable => "passable"
    | .wall => "wall"

instance : Enumeration CombineKind where
  cases := [.combine, .use]
  label
    | .combine => "combine"
    | .use => "use"

instance : Enumeration ProductKind where
  cases := [.unlock, .consumable, .tier1Donation, .tier2Donation, .tier3Donation]
  label
    | .unlock => "unlock"
    | .consumable => "consumable"
    | .tier1Donation => "tier1_donation"
    | .tier2Donation => "tier2_donation"
    | .tier3Donation => "tier3_donation"

instance : Wire Page where
  encode p := .record
    [("conditions", encode p.conditions), ("image", encode p.image),
      ("imageIndex", encode p.imageIndex), ("frame", encode p.frame), ("dir", encode p.dir),
      ("dirFix", encode p.dirFix), ("stepping", encode p.stepping), ("walking", encode p.walking),
      ("through", encode p.through), ("speed", encode p.speed), ("trigger", encode p.trigger),
      ("priority", encode p.priority), ("commands", encode p.commands)]
  decode? m v := do
    let f ← Fields.read? m ["conditions", "image", "imageIndex", "frame", "dir", "dirFix",
      "stepping", "walking", "through", "speed", "trigger", "priority", "commands"] v
    let d := Page.blank
    return {
      conditions := ← f.withDefault m "conditions" d.conditions
      image := ← f.withDefault m "image" d.image
      imageIndex := ← f.withDefault m "imageIndex" d.imageIndex
      frame := ← f.withDefault m "frame" d.frame
      dir := ← f.withDefault m "dir" d.dir
      dirFix := ← f.withDefault m "dirFix" d.dirFix
      stepping := ← f.withDefault m "stepping" d.stepping
      walking := ← f.withDefault m "walking" d.walking
      through := ← f.withDefault m "through" d.through
      speed := ← f.withDefault m "speed" d.speed
      trigger := ← f.withDefault m "trigger" d.trigger
      priority := ← f.withDefault m "priority" d.priority
      commands := ← f.withDefault m "commands" d.commands }

instance : Wire EventData where
  encode e := .record
    [("id", encode e.id), ("x", encode e.x), ("y", encode e.y), ("pages", encode e.pages)]
  decode? m v := do
    let f ← Fields.read? m ["id", "x", "y", "pages"] v
    return {
      id := ← f.required m "id"
      x := ← f.required m "x"
      y := ← f.required m "y"
      pages := ← f.withDefault m "pages" [] }

instance : Wire Room where
  encode r := .record
    [("id", encode r.id), ("width", encode r.width), ("height", encode r.height),
      ("tileSetId", encode r.tileSetId), ("tiles", encode r.tiles), ("events", encode r.events),
      ("background", encode r.background), ("foreground", encode r.foreground)]
  decode? m v := do
    let f ← Fields.read? m ["id", "width", "height", "tileSetId", "tiles", "events", "background",
      "foreground"] v
    return {
      id := ← f.required m "id"
      width := ← f.withDefault m "width" Room.defaultSize
      height := ← f.withDefault m "height" Room.defaultSize
      tileSetId := ← f.withDefault m "tileSetId" 0
      tiles := ← f.withDefault m "tiles" []
      events := ← f.withDefault m "events" []
      background := ← f.withDefault m "background" ""
      foreground := ← f.withDefault m "foreground" "" }

instance : Wire MapData where
  encode d := .record [("id", encode d.id), ("name", encode d.name), ("rooms", encode d.rooms)]
  decode? m v := do
    let f ← Fields.read? m ["id", "name", "rooms"] v
    return {
      id := ← f.required m "id"
      name := ← f.withDefault m "name" ""
      rooms := ← f.withDefault m "rooms" [] }

instance : Wire TileSet where
  encode s := .record [("id", encode s.id), ("passageTypes", encode s.passages)]
  decode? m v := do
    let f ← Fields.read? m ["id", "passageTypes"] v
    return { id := ← f.required m "id", passages := ← f.withDefault m "passageTypes" [] }

instance : Wire Item where
  encode i := .record
    [("id", encode i.id), ("name", encode i.name), ("icon", encode i.icon),
      ("group", encode i.group), ("commands", encode i.commands)]
  decode? m v := do
    let f ← Fields.read? m ["id", "name", "icon", "group", "commands"] v
    return {
      id := ← f.required m "id"
      name := ← f.withDefault m "name" ""
      icon := ← f.withDefault m "icon" ""
      group := ← f.withDefault m "group" 0
      commands := ← f.withDefault m "commands" [] }

instance : Wire Combine where
  encode c := .record
    [("id", encode c.id), ("item1", encode c.item1), ("item2", encode c.item2),
      ("type", encode c.kind), ("commands", encode c.commands)]
  decode? m v := do
    let f ← Fields.read? m ["id", "item1", "item2", "type", "commands"] v
    return {
      id := ← f.required m "id"
      item1 := ← f.required m "item1"
      item2 := ← f.required m "item2"
      kind := ← f.withDefault m "type" .combine
      commands := ← f.withDefault m "commands" [] }

instance : Wire CommonEvent where
  encode e :=
    .record [("id", encode e.id), ("name", encode e.name), ("commands", encode e.commands)]
  decode? m v := do
    let f ← Fields.read? m ["id", "name", "commands"] v
    return {
      id := ← f.required m "id"
      name := ← f.withDefault m "name" ""
      commands := ← f.withDefault m "commands" [] }

instance : Wire Hint where
  encode h := .record [("id", encode h.id), ("commands", encode h.commands)]
  decode? m v := do
    let f ← Fields.read? m ["id", "commands"] v
    return { id := ← f.required m "id", commands := ← f.withDefault m "commands" [] }

instance : Wire Product where
  encode p := .record [("id", encode p.id), ("key", encode p.key), ("type", encode p.kind)]
  decode? m v := do
    let f ← Fields.read? m ["id", "key", "type"] v
    return {
      id := ← f.required m "id"
      key := ← f.required m "key"
      kind := ← f.withDefault m "type" .unlock }

instance : Wire Table where
  encode t := .record [("name", encode t.name), ("records", encode t.records)]
  decode? m v := do
    let f ← Fields.read? m ["name", "records"] v
    return { name := ← f.required m "name", records := ← f.withDefault m "records" .empty }

instance : Wire Texts where
  encode t := .record [("languages", encode t.languages), ("data", encode t.data)]
  decode? m v := do
    let f ← Fields.read? m ["languages", "data"] v
    return {
      languages := ← f.withDefault m "languages" []
      data := ← f.withDefault m "data" .empty }

instance : Wire StartPosition where
  encode p := .record
    [("mapId", encode p.mapId), ("roomId", encode p.roomId), ("x", encode p.x), ("y", encode p.y)]
  decode? m v := do
    let f ← Fields.read? m ["mapId", "roomId", "x", "y"] v
    return {
      mapId := ← f.withDefault m "mapId" 0
      roomId := ← f.withDefault m "roomId" 0
      x := ← f.withDefault m "x" 0
      y := ← f.withDefault m "y" 0 }

instance : Wire System where
  encode s := .record
    [("gameName", encode s.gameName), ("defaultLanguage", encode s.defaultLanguage),
      ("initialPosition", encode s.initialPosition),
      ("initialPlayerImage", encode s.initialPlayerImage)]
  decode? m v := do
    let f ← Fields.read? m
      ["gameName", "defaultLanguage", "initialPosition", "initialPlayerImage"] v
    return {
      gameName := ← f.withDefault m "gameName" ""
      defaultLanguage := ← f.withDefault m "defaultLanguage" ""
      initialPosition := ← f.withDefault m "initialPosition" default
      initialPlayerImage := ← f.withDefault m "initialPlayerImage" "" }

instance : Wire Project where
  encode p := .record
    [("maps", encode p.maps), ("tileSets", encode p.tileSets), ("texts", encode p.texts),
      ("items", encode p.items), ("combines", encode p.combines),
      ("commonEvents", encode p.commonEvents), ("hints", encode p.hints),
      ("iapProducts", encode p.products), ("tables", encode p.tables), ("system", encode p.system)]
  decode? m v := do
    let f ← Fields.read? m ["maps", "tileSets", "texts", "items", "combines", "commonEvents",
      "hints", "iapProducts", "tables", "system"] v
    return {
      maps := ← f.withDefault m "maps" []
      tileSets := ← f.withDefault m "tileSets" []
      texts := ← f.withDefault m "texts" default
      items := ← f.withDefault m "items" []
      combines := ← f.withDefault m "combines" []
      commonEvents := ← f.withDefault m "commonEvents" []
      hints := ← f.withDefault m "hints" []
      products := ← f.withDefault m "iapProducts" []
      tables := ← f.withDefault m "tables" []
      system := ← f.withDefault m "system" default }

end Adventure
