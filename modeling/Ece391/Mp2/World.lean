import Ece391.Base.Results
import Ece391.Mp2.Photo

/-!
# The world of the adventure game

Rooms, objects, accomplishments and photos of `world.c`, and the operations that move objects. An array of
structures is one function for each field, a pointer to a room or an object is an identifier or `none`,
and `rand` holds the outcomes of the calls to come. Widths and heights are 16-bit, so the differences in
`insert_object` do not overflow.
-/

namespace Ece391.Mp2

/-- The areas of the map, one after the other; the backpack is a room too. -/
inductive RoomId where
  | inventory
  | in391Lab | by391Lab | inIeee | byIeee | in395Lab | by395Lab | evtStair | inCleanr | byCleanr
  | evrtVend | almamater | inCocomr | byCocomr | byZas | eastEvrt | evrtBsmt
  | westBone | circleN | circleSw | eastBone | bardeen | libBack | reserve | talbotNw | talbotSw
  | talbot | springfld | caribou | kenney | dcl | libFront
  | kenneyE | newmark | mntlNw | mntlSw | mntlLobby | mntlLab1 | mntlLab2 | mntlLab3 | cslView
  | cslDoor | cslLobby | cslUpper | cslLounge | beckLot | beckman | beckDoor | beckLobby | beckMri
  | garage | carSite | allerton | fuDogs | statue | sunsinger | willard | willSide | remPlane
  | cockpit | overWill | airRio | remIce | remLab
  deriving DecidableEq, Repr

inductive ObjId where
  | board | jetpack | tux | mp2 | bookC | bookWode | gpsBad | gpsGood | gpsSpec | bunnysuit
  | battEmpty | battFull | battCar | mtnDew | fish | icard | carKey | robotDead | robotLive | mimoCard
  deriving DecidableEq, Repr

inductive Flag where
  | hasEaten
  | wearingSuit
  | carOpen
  | carFixed
  | luredTux
  deriving DecidableEq, Repr

def Flag.num : Flag → Nat
  | .hasEaten => 0
  | .wearingSuit => 1
  | .carOpen => 2
  | .carFixed => 3
  | .luredTux => 4

inductive Swap where
  | circle
  | car
  deriving DecidableEq, Repr

def nObjects : Nat := 20
def statusMsgLen : Nat := 40

structure RoomData where
  id : RoomId
  name : String
  filename : String
  left : Option RoomId
  enter : Option RoomId
  right : Option RoomId

structure ObjData where
  id : ObjId
  name : String
  filename : String
  room : Option RoomId
  x : Int
  y : Int

structure SwapData where
  id : Swap
  filename : String

def roomData : List RoomData := [
  ⟨.inventory, "Inventory", "images/backpack.photo", none, none, none⟩,
  ⟨.in391Lab, "391 Lab", "images/391lab.photo", none, some .by391Lab, none⟩,
  ⟨.by391Lab, "Outside of 391", "images/outside391.photo", some .byZas, some .in391Lab, some .byIeee⟩,
  ⟨.inIeee, "IEEE Office", "images/ieee.photo", none, some .byIeee, none⟩,
  ⟨.byIeee, "Outside IEEE", "images/byieee.photo", some .by391Lab, some .inIeee, some .by395Lab⟩,
  ⟨.in395Lab, "395 Lab", "images/395lab.photo", none, some .by395Lab, none⟩,
  ⟨.by395Lab, "Outside of 395", "images/outside395.photo", some .byIeee, none, some .evtStair⟩,
  ⟨.evtStair, "Everitt Stairs", "images/evtstair.photo", some .by395Lab, some .eastEvrt, some .byCleanr⟩,
  ⟨.inCleanr, "In Cleanroom", "images/cleanr.photo", none, some .byCleanr, none⟩,
  ⟨.byCleanr, "By the Cleanroom", "images/outclean.photo", some .evtStair, none, some .evrtVend⟩,
  ⟨.evrtVend, "Vending Machine", "images/vend.photo", some .byCleanr, some .evrtBsmt, none⟩,
  ⟨.almamater, "Alma Mater", "images/almamater.photo", some .eastEvrt, some .eastEvrt, some .byCocomr⟩,
  ⟨.inCocomr, "Cocomero", "images/incoco.photo", none, some .byCocomr, none⟩,
  ⟨.byCocomr, "Near Cocomero", "images/bycoco.photo", some .almamater, some .inCocomr, some .byZas⟩,
  ⟨.byZas, "The Ruins", "images/ruins.photo", some .byCocomr, none, none⟩,
  ⟨.eastEvrt, "East of Everitt", "images/eeast.photo", some .almamater, some .evtStair, some .evrtBsmt⟩,
  ⟨.evrtBsmt, "Basement Entry", "images/basement.photo", some .eastEvrt, some .evrtVend, some .circleSw⟩,
  ⟨.westBone, "Boneyard Creek", "images/bonew.photo", some .circleSw, none, some .circleN⟩,
  ⟨.circleN, "Boneyard Bridge", "images/circlen1.photo", some .westBone, some .talbotNw, some .eastBone⟩,
  ⟨.circleSw, "Boneyard Bridge", "images/circlesw.photo", some .eastBone, some .evrtBsmt, some .circleN⟩,
  ⟨.eastBone, "Boneyard Creek", "images/bonee.photo", some .circleN, none, some .circleSw⟩,
  ⟨.bardeen, "Bardeen Quad", "images/bardeen.photo", some .libBack, some .eastBone, some .talbotSw⟩,
  ⟨.libBack, "Grainger Library", "images/graingerback.photo", some .dcl, some .reserve, some .bardeen⟩,
  ⟨.reserve, "Grainger Reserves", "images/reserve.photo", none, some .libBack, some .libFront⟩,
  ⟨.talbotNw, "Talbot Lab", "images/talbotnw.photo", some .circleSw, some .talbot, some .talbotSw⟩,
  ⟨.talbotSw, "Talbot Lab", "images/talbotsw.photo", some .talbotNw, some .talbot, some .springfld⟩,
  ⟨.talbot, "Talbot Lab", "images/talbot.photo", none, some .talbotNw, none⟩,
  ⟨.springfld, "Springfield Avenue", "images/springfield.photo", some .talbotSw, some .caribou, some .kenney⟩,
  ⟨.caribou, "Caribou", "images/caribou.photo", none, some .springfld, none⟩,
  ⟨.kenney, "Kenney Gym", "images/kenney.photo", some .springfld, none, some .dcl⟩,
  ⟨.dcl, "DCL", "images/dcl.photo", some .kenney, some .kenneyE, some .libFront⟩,
  ⟨.libFront, "Grainger Library", "images/graingerfront.photo", some .dcl, some .reserve, some .talbotSw⟩,
  ⟨.kenneyE, "East of Kenney", "images/kenneye.photo", some .dcl, some .dcl, some .newmark⟩,
  ⟨.newmark, "Newmark Lab", "images/newmark.photo", some .mntlNw, none, some .kenneyE⟩,
  ⟨.mntlNw, "MNTL", "images/mntlnw.photo", some .newmark, some .mntlLobby, some .cslView⟩,
  ⟨.mntlSw, "MNTL", "images/mntlsw.photo", some .mntlNw, some .mntlLobby, some .beckman⟩,
  ⟨.mntlLobby, "Lobby of MNTL", "images/mntllobby.photo", some .mntlLab1, some .mntlSw, some .mntlLab2⟩,
  ⟨.mntlLab1, "Kevin's Lab in MNTL", "images/mntllab1.photo", none, none, some .mntlLobby⟩,
  ⟨.mntlLab2, "MNTL Laser Lab", "images/mntllab2.photo", some .mntlLobby, some .mntlLab3, none⟩,
  ⟨.mntlLab3, "MNTL Laser Lab", "images/mntllab3.photo", none, some .mntlLab2, none⟩,
  ⟨.cslView, "CSL", "images/csl.photo", some .beckLot, some .cslDoor, some .mntlNw⟩,
  ⟨.cslDoor, "CSL Main Entrance", "images/csldoor.photo", some .beckLot, none, some .mntlNw⟩,
  ⟨.cslLobby, "CSL Lobby", "images/csllobby.photo", some .cslUpper, some .cslDoor, none⟩,
  ⟨.cslUpper, "Upper Floor of CSL", "images/cslupper.photo", none, some .cslLounge, some .cslLobby⟩,
  ⟨.cslLounge, "CSL Lounge", "images/csllounge.photo", none, some .cslUpper, none⟩,
  ⟨.beckLot, "Beckman Circle Lot", "images/becklot.photo", some .beckman, some .garage, some .cslView⟩,
  ⟨.beckman, "Beckman Institute", "images/beckman.photo", some .mntlSw, some .beckDoor, some .beckLot⟩,
  ⟨.beckDoor, "Beckman Institute", "images/beckdoor.photo", some .mntlSw, none, some .beckLot⟩,
  ⟨.beckLobby, "Beckman Lobby", "images/becklobby.photo", none, some .beckMri, some .beckDoor⟩,
  ⟨.beckMri, "An MRI Lab", "images/beckmri.photo", none, some .beckLobby, none⟩,
  ⟨.garage, "Campus Parking", "images/garage.photo", some .beckLot, some .carSite, none⟩,
  ⟨.carSite, "Use Someone's Car?", "images/carclosed.photo", none, some .garage, none⟩,
  ⟨.allerton, "Allerton Mansion", "images/allerton.photo", some .fuDogs, none, some .sunsinger⟩,
  ⟨.fuDogs, "Fu Dog Statues", "images/fudogs.photo", none, some .statue, some .allerton⟩,
  ⟨.statue, "A Tall Statue", "images/statue.photo", none, some .fuDogs, none⟩,
  ⟨.sunsinger, "The Sun Singer", "images/sunsinger.photo", some .allerton, none, none⟩,
  ⟨.willard, "Willard Airport", "images/willard.photo", none, some .willSide, none⟩,
  ⟨.willSide, "Willard Tower", "images/willardside.photo", some .remPlane, none, some .willard⟩,
  ⟨.remPlane, "Sensor-Laden Plane", "images/rsenseplane.photo", some .cockpit, none, some .willSide⟩,
  ⟨.cockpit, "Plane Cockpit", "images/cockpit.photo", none, none, some .remPlane⟩,
  ⟨.overWill, "Flying over Willard", "images/overwillard.photo", none, some .cockpit, some .airRio⟩,
  ⟨.airRio, "Rio de Janeiro", "images/riofromair.photo", some .overWill, none, some .remIce⟩,
  ⟨.remIce, "Ice Fields", "images/rsenseice.photo", some .airRio, some .remLab, none⟩,
  ⟨.remLab, "Remote Sensing Lab", "images/rsenselab.photo", none, some .remIce, none⟩]

def objData : List ObjData := [
  ⟨.board, "board", "images/board.obj", some .inIeee, -1, -1⟩,
  ⟨.jetpack, "jetpack", "images/jetpack.obj", some .talbot, -1, -1⟩,
  ⟨.tux, "tux", "images/tux.obj", some .remLab, 250, 100⟩,
  ⟨.mp2, "mp2", "images/mp2.obj", some .cslLounge, -1, -1⟩,
  ⟨.bookC, "book", "images/book.obj", none, -1, -1⟩,
  ⟨.bookWode, "book", "images/book2.obj", none, -1, -1⟩,
  ⟨.gpsBad, "gps", "images/gpsbad.obj", some .talbot, -1, -1⟩,
  ⟨.gpsGood, "gps", "images/gpsgood.obj", none, -1, -1⟩,
  ⟨.gpsSpec, "spec", "images/gpsspec.obj", some .cslUpper, -1, -1⟩,
  ⟨.bunnysuit, "bunnysuit", "images/bunnysuit.obj", some .almamater, 230, 250⟩,
  ⟨.battEmpty, "battery", "images/battery.obj", none, -1, -1⟩,
  ⟨.battFull, "battery", "images/battery.obj", none, -1, -1⟩,
  ⟨.battCar, "battery", "images/batteryincar.obj", none, -1, -1⟩,
  ⟨.mtnDew, "dew", "images/dew.obj", none, -1, -1⟩,
  ⟨.fish, "fish", "images/fish.obj", some .eastBone, 80, 260⟩,
  ⟨.icard, "Icard", "images/icard.obj", some .bardeen, -1, -1⟩,
  ⟨.carKey, "key", "images/key.obj", some .caribou, -1, -1⟩,
  ⟨.robotDead, "robot", "images/robot.obj", some .mntlLab3, -1, -1⟩,
  ⟨.robotLive, "robot", "images/robot.obj", none, -1, -1⟩,
  ⟨.mimoCard, "mimo", "images/mimo.obj", some .statue, -1, -1⟩]

def swapData : List SwapData := [
  ⟨.circle, "images/circlen2.photo"⟩,
  ⟨.car, "images/caropen.photo"⟩]

structure World where
  roomName : RoomId → Option String
  view : RoomId → Option Photo
  contents : RoomId → Option ObjId
  left : RoomId → Option RoomId
  enter : RoomId → Option RoomId
  right : RoomId → Option RoomId
  objName : ObjId → Option String
  next : ObjId → Option ObjId
  loc : ObjId → Option RoomId
  x : ObjId → UInt16
  y : ObjId → UInt16
  img : ObjId → Option Image
  playerFlags : Nat → BitVec 32
  swapPhoto : Swap → Option Photo
  statusMsg : String
  rand : Nat → Nat

/-- What `read_photo` and `read_obj_image` make of the files. -/
structure Images where
  photo : String → Option Photo
  objImage : String → Option Image

/-- What stops the program: a use of `NULL`, a walk over a list that does not end, and the messages with
which `build_world` gives up. -/
inductive Fault where
  | null
  | endless
  | failed (message : String)
  deriving DecidableEq, Repr

/-- A pointer that is about to be used. -/
def deref {α : Type} (p : Option α) : Except Fault α :=
  match p with
  | none => .error .null
  | some a => .ok a

/-- Whether `strcasecmp` finds no difference. -/
def strcasecmp (s t : String) : Bool := s.toList.map Char.toLower == t.toList.map Char.toLower

/-- The place of a pointer to an object. -/
inductive Link where
  | contents (r : RoomId)
  | next (o : ObjId)
  deriving DecidableEq, Repr

namespace World

variable (w : World)

def showStatus (s : String) : World :=
  { w with statusMsg := String.ofList (s.toList.take statusMsgLen) }

def playerFlagIsSet (fnum : Flag) : Bool :=
  w.playerFlags (fnum.num / 32) &&& 1#32 <<< (fnum.num % 32) ≠ 0

def playerSetFlag (fnum : Flag) : World :=
  { w with
    playerFlags := Function.update w.playerFlags (fnum.num / 32)
      (w.playerFlags (fnum.num / 32) ||| 1#32 <<< (fnum.num % 32)) }

def doPhotoSwap (r : RoomId) (which : Swap) : World :=
  { w with
    view := Function.update w.view r (w.swapPhoto which)
    swapPhoto := Function.update w.swapPhoto which (w.view r) }

/-! ### Walks over the contents of a room -/

/-- `for (obj = p; NULL != obj; obj = obj->next)`, left at the first object that passes the test. More
than `size` objects in a row are a cycle. -/
def walk (test : ObjId → Except Fault Bool) : Nat → Option ObjId → Except Fault (Option ObjId)
  | _, none => .ok none
  | 0, some _ => .error .endless
  | size + 1, some obj => do
    if ← test obj then return some obj
    walk test size (w.next obj)

def findInRoom (r : RoomId) (arg : String) : Except Fault (Option ObjId) :=
  w.walk (fun obj => return strcasecmp arg (← deref (w.objName obj))) nObjects (w.contents r)

def pointer : Link → Option ObjId
  | .contents r => w.contents r
  | .next o => w.next o

def setPointer (p : Option ObjId) : Link → World
  | .contents r => { w with contents := Function.update w.contents r p }
  | .next o => { w with next := Function.update w.next o p }

/-- The loop of `remove_object` over `find`. -/
def unlink (o : ObjId) : Nat → Link → Except Fault World
  | 0, find => if w.pointer find = none then .ok w else .error .endless
  | size + 1, find =>
    match w.pointer find with
    | none => .ok w
    | some p => if o = p then .ok (w.setPointer (w.next o) find) else unlink o size (.next p)

def removeObject (o : ObjId) : Except Fault World :=
  match w.loc o with
  | none => .ok w
  | some r => do
    let w ← w.unlink o nObjects (.contents r)
    return { w with loc := Function.update w.loc o none }

def insertObjectAt (o : ObjId) (r : RoomId) (x y : Int) : Except Fault World := do
  let w ← w.removeObject o
  return { w with
    x := Function.update w.x o (UInt16.ofInt x)
    y := Function.update w.y o (UInt16.ofInt y)
    loc := Function.update w.loc o (some r)
    next := Function.update w.next o (w.contents r)
    contents := Function.update w.contents r (some o) }

/-- `0 >= range ? 0 : (rand () % range)` -/
def randBelow (range : Int) : Int × World :=
  if 0 ≥ range then (0, w)
  else ((w.rand 0 : Int) % range, { w with rand := fun i => w.rand (i + 1) })

def insertObject (o : ObjId) (r : RoomId) : Except Fault World := do
  let view ← deref (w.view r)
  let img ← deref (w.img o)
  let (xpos, w) := w.randBelow (view.width - img.width)
  let space : Int := view.height
  let range := space / 4 - img.height
  if 0 ≥ range then
    let (ypos, w) := w.randBelow (space - img.height)
    w.insertObjectAt o r xpos ypos
  else
    let (low, w) := w.randBelow range
    w.insertObjectAt o r xpos (low + 3 * space / 4)

/-- The places of the 3x3 grid, and those of the row below it, in the order of the loops. -/
def inventoryGrid : List (Int × Int) :=
  [10, 60, 110, 160].flatMap fun y => [10, 110, 210].map fun x => (x, y)

def moveObjectToGrid (obj : ObjId) : List (Int × Int) → Except Fault World
  | [] => w.insertObject obj .inventory
  | (x, y) :: places => do
    let conf ← w.walk (fun conf => .ok (x = (w.x conf).toNat ∧ y = (w.y conf).toNat)) nObjects
      (w.contents .inventory)
    if conf = none then w.insertObjectAt obj .inventory x y else moveObjectToGrid obj places

def moveObjectToInventory (obj : ObjId) : Except Fault World := w.moveObjectToGrid obj inventoryGrid

def objSpecialGet (r : RoomId) (arg : String) : Except Fault (Option ObjId × World) :=
  if r = .reserve ∧ strcasecmp "book" arg ∧ w.playerFlagIsSet .hasEaten ∧ w.loc .bookC = none then
    .ok (some .bookC, w.showStatus "You check out the C book.")
  else if r = .reserve ∧ strcasecmp "book" arg ∧ ¬w.playerFlagIsSet .hasEaten ∧ w.loc .bookWode = none then
    .ok (some .bookWode, w.showStatus "Here's a nice Wodehouse collection.")
  else if r = .carSite ∧ w.loc .battCar = some r then do
    let w ← w.removeObject .battCar
    return (some .battEmpty, w)
  else .ok (none, w)

/-! ### The first world -/

def setUpRoom (images : Images) (w : World) (data : RoomData) : Except Fault World :=
  if w.roomName data.id ≠ none then
    .error (.failed ("Duplicate index " ++ toString data.id.ctorIdx ++ " in room data.\n"))
  else
    match images.photo data.filename with
    | none => .error (.failed ("Can't read room photo " ++ data.filename ++ ".\n"))
    | some view => .ok { w with
        roomName := Function.update w.roomName data.id (some data.name)
        view := Function.update w.view data.id (some view)
        contents := Function.update w.contents data.id none
        left := Function.update w.left data.id data.left
        enter := Function.update w.enter data.id data.enter
        right := Function.update w.right data.id data.right }

/-- The fields of an object before it is put into a room. -/
def setUpFields (data : ObjData) (img : Image) (w : World) : World :=
  { w with
    objName := Function.update w.objName data.id (some data.name)
    img := Function.update w.img data.id (some img)
    next := Function.update w.next data.id none
    loc := Function.update w.loc data.id none
    x := Function.update w.x data.id 0
    y := Function.update w.y data.id 0 }

def setUpObject (images : Images) (w : World) (data : ObjData) : Except Fault World :=
  if w.objName data.id ≠ none then
    .error (.failed ("Duplicate index " ++ toString data.id.ctorIdx ++ " in object data.\n"))
  else
    match images.objImage data.filename with
    | none => .error (.failed ("Can't read object photo " ++ data.filename ++ ".\n"))
    | some img =>
      match data.room with
      | none => .ok (w.setUpFields data img)
      | some r =>
        if -1 ≠ data.x then (w.setUpFields data img).insertObjectAt data.id r data.x data.y
        else (w.setUpFields data img).insertObject data.id r

def setUpSwap (images : Images) (w : World) (data : SwapData) : Except Fault World :=
  if (w.swapPhoto data.id).isSome then
    .error (.failed ("Duplicate index " ++ toString data.id.ctorIdx ++ " in swap data.\n"))
  else
    match images.photo data.filename with
    | none => .error (.failed ("Can't read room photo " ++ data.filename ++ ".\n"))
    | some view => .ok { w with swapPhoto := Function.update w.swapPhoto data.id (some view) }

/-- `player_flags`, `room`, `object` and `swap_photo` cleared. -/
def cleared : World :=
  ⟨fun _ => none, fun _ => none, fun _ => none, fun _ => none, fun _ => none, fun _ => none,
    fun _ => none, fun _ => none, fun _ => none, fun _ => 0, fun _ => 0, fun _ => none, fun _ => 0,
    fun _ => none, w.statusMsg, w.rand⟩

def buildWorld (images : Images) : Except Fault World := do
  let w ← roomData.foldlM (setUpRoom images) w.cleared
  let w ← objData.foldlM (setUpObject images) w
  swapData.foldlM (setUpSwap images) w

end World

def startInRoom : RoomId := .eastEvrt

end Ece391.Mp2
