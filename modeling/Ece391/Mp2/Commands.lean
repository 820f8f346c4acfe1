import Ece391.Mp2.World

/-!
# The commands of the adventure game

The three moves and the fourteen typed commands of `world.c`. Each gets the player's room `*rptr` and
leaves a room behind, which is `none` once the player has won. A quest is the world with that room.
-/

namespace Ece391.Mp2

/-- `tc_action_t` -/
inductive Action where
  | allowEdit
  | discardText
  | redrawRoom
  | changeRoom
  deriving DecidableEq, Repr

structure Outcome where
  action : Action
  room : Option RoomId
  world : World

namespace World

variable (w : World)

/-- The object is in the inventory or in the room. -/
def AtHand (r : RoomId) (o : ObjId) : Prop := w.loc o = some .inventory ∨ w.loc o = some r

instance (r : RoomId) (o : ObjId) : Decidable (w.AtHand r o) :=
  inferInstanceAs (Decidable (_ ∨ _))

/-- A message to the player, who stays where they are. -/
def answer (r : RoomId) (s : String) (action : Action) : Outcome := ⟨action, some r, w.showStatus s⟩

/-! ### Moves -/

/-- The player walks into another room; the picture of the Boneyard Circle is chosen randomly. -/
def goInto (r : RoomId) : Outcome :=
  if r = .circleN then
    let w' := { w with rand := fun i => w.rand (i + 1) }
    ⟨.changeRoom, some r, if w.rand 0 % 2 = 0 then w'.doPhotoSwap r .circle else w'⟩
  else ⟨.changeRoom, some r, w⟩

/-- The common body of `try_to_move_left` and `try_to_move_right`. -/
def tryToMove (exit : Option RoomId) (r : RoomId) : Outcome :=
  match exit with
  | some s => w.goInto s
  | none =>
    if r = .inventory then w.answer r "Push 'home' or type 'inventory'." .allowEdit
    else w.answer r "You can't go that way." .allowEdit

def tryToMoveLeft (r : RoomId) : Outcome := w.tryToMove (w.left r) r

def tryToMoveRight (r : RoomId) : Outcome := w.tryToMove (w.right r) r

def advice : List String := [
  "Kevin says, \"Andres' board is FAST!\"",
  "Kevin asks, \"Got a jetpack?\"",
  "Kevin: \"You can flash hardware in 395.\"",
  "Kevin suggests, \"Always carry a fish.\"",
  "Kevin asks, \"Have you done your MP2?\"",
  "Kevin says, \"Cocomero sells yogurt.\"",
  "Kevin asks, \"Maybe you need a Dew?\"",
  "Kevin: \"A magnet can charge a battery.\""]

/-- The doors that are not in the map. -/
def tryToEnterDoor (r : RoomId) : Outcome :=
  if r = .byCleanr then
    if w.playerFlagIsSet .wearingSuit then ⟨.changeRoom, some .inCleanr, w⟩
    else w.answer r "You're not wearing a bunnysuit!" .allowEdit
  else if r = .by395Lab then
    if w.loc .icard = some .inventory then
      ⟨.changeRoom, some .in395Lab, w.showStatus "You swiped your Icard."⟩
    else w.answer r "You need a valid Icard." .allowEdit
  else if r = .cslDoor then
    if w.loc .icard = some .inventory then
      ⟨.changeRoom, some .cslLobby, w.showStatus "You swiped your Icard."⟩
    else w.answer r "You need a valid Icard." .allowEdit
  else if r = .beckDoor then
    if w.loc .robotLive = some .inventory then
      ⟨.changeRoom, some .beckLobby, w.showStatus "The robot hand picked the lock!"⟩
    else if w.loc .robotDead = some .inventory then
      w.answer r "Flash the robot's code again." .allowEdit
    else w.answer r "Complex lock!  Find a nanotech robot." .allowEdit
  else if r = .mntlLab1 then
    { w with rand := fun i => w.rand (i + 1) }.answer r (advice.getD (w.rand 0 % 8) "") .allowEdit
  else if r = .cockpit then w.answer r "A MIMO transmitter card is missing!" .allowEdit
  else w.answer r "You can't go that way." .allowEdit

def tryToEnter (r : RoomId) : Outcome :=
  match w.enter r with
  | some s => w.goInto s
  | none => w.tryToEnterDoor r

/-! ### Typed commands -/

def typedCmdBuy (r : RoomId) (arg : String) : Except Fault Outcome :=
  if strcasecmp "dew" arg then
    if r ≠ .evrtVend then return w.answer r "Great idea!  But ... where?" .discardText
    else if w.AtHand r .mtnDew then return w.answer r "Slow down!  One at a time..." .discardText
    else do
      let w := w.showStatus
        (if w.loc .mtnDew ≠ none then "Last one get stolen?  Ok...here we go..." else "You buy a Dew.")
      let w ← w.moveObjectToInventory .mtnDew
      return ⟨.redrawRoom, some r, w⟩
  else if strcasecmp "yogurt" arg then
    if r ≠ .inCocomr then return w.answer r "Cocomero doesn't deliver here." .discardText
    else if w.playerFlagIsSet .hasEaten then return w.answer r "You're not hungry." .discardText
    else return (w.playerSetFlag .hasEaten).answer r "So tasty and delicious!" .discardText
  else return w.answer r "Sorry, purchasing options are limited." .allowEdit

def typedCmdCharge (r : RoomId) (arg : String) : Except Fault Outcome :=
  if ¬strcasecmp "battery" arg then
    return w.answer r "Electronic devices aren't (always) toys!" .allowEdit
  else if ¬w.AtHand r .battEmpty ∧ ¬w.AtHand r .battFull then
    return w.answer r "What battery?" .discardText
  else if r ≠ .beckMri then return w.answer r "Find a bigger magnet." .discardText
  else if w.AtHand r .battFull then return w.answer r "Don't overdo it." .discardText
  else do
    let w ← w.removeObject .battEmpty
    let w ← w.moveObjectToInventory .battFull
    return ⟨.redrawRoom, some r, w.showStatus "Wow!  That's a strong magnet!"⟩

def typedCmdDo (r : RoomId) (arg : String) : Except Fault Outcome :=
  if r ≠ .in391Lab then return w.answer r "You can't 'do' anything here." .allowEdit
  else if ¬strcasecmp "391" arg ∧ ¬strcasecmp "mp2" arg then
    return w.answer r "Doing the 391 MP2 is more important!" .allowEdit
  else if w.loc .bookC ≠ some .inventory then
    return w.answer r "You'd better get a book from Grainger." .discardText
  else if w.loc .mp2 ≠ some .inventory then
    return w.answer r "Web's down.  Bring your own MP2." .discardText
  else if w.loc .tux ≠ some .in391Lab then
    return w.answer r "You'd have better luck if Tux were here." .discardText
  else return ⟨.changeRoom, none, w⟩

def typedCmdDrink (r : RoomId) (arg : String) : Except Fault Outcome :=
  if ¬strcasecmp "dew" arg then
    return w.answer r "That sounds less refreshing than Dew." .allowEdit
  else if ¬w.AtHand r .mtnDew then
    return w.answer r "Uh-oh.  Hadewcinations.  Buy one soon!" .discardText
  else do
    let w ← w.removeObject .mtnDew
    return ⟨.redrawRoom, some r, w.showStatus "Ahhhhhhhhhhhhhhhh...........nother?"⟩

def typedCmdDrop (r : RoomId) (arg : String) : Except Fault Outcome := do
  match ← w.findInRoom .inventory arg with
  | none => return w.answer r "You have no such thing." .allowEdit
  | some obj =>
    let w :=
      if (obj = .battFull ∧ r = .carSite) ∨ (obj = .mimoCard ∧ r = .remPlane) then
        w.showStatus "You may want to install it instead."
      else w
    let dest ← deref (if r = .inventory then w.enter .inventory else some r)
    let w ← w.insertObject obj dest
    return ⟨.redrawRoom, some r, w⟩

def typedCmdFix (r : RoomId) (arg : String) : Except Fault Outcome :=
  if ¬strcasecmp "gps" arg then
    return w.answer r "In the game, you're not as capable." .allowEdit
  else if w.AtHand r .gpsGood then return w.answer r "It's working fine." .discardText
  else if ¬w.AtHand r .gpsBad then return w.answer r "Do you have a GPS?" .discardText
  else if r ≠ .inCleanr then return w.answer r "You'd better go to the cleanroom." .discardText
  else if ¬w.AtHand r .gpsSpec then return w.answer r "Maybe you'd better get a spec?" .discardText
  else do
    let w ← w.removeObject .gpsBad
    let w ← w.removeObject .gpsSpec
    let w ← w.moveObjectToInventory .gpsGood
    return ⟨.changeRoom, some r, w.showStatus "All done--wow, you're good!"⟩

def typedCmdFlash (r : RoomId) (arg : String) : Except Fault Outcome :=
  if ¬strcasecmp "robot" arg then return w.answer r "Don't waste your time." .allowEdit
  else if ¬w.AtHand r .robotDead ∧ ¬w.AtHand r .robotLive then
    return w.answer r "Maybe get the robot first?" .discardText
  else if r ≠ .in395Lab then
    return w.answer r "With spit and a lemon?  Try the lab." .discardText
  else if w.AtHand r .robotLive then
    return w.answer r "You flash the robot's ROM again." .discardText
  else do
    let w ← w.removeObject .robotDead
    let w ← w.moveObjectToInventory .robotLive
    return ⟨.redrawRoom, some r, w.showStatus "You flash it with a lockpicking code."⟩

def typedCmdGet (r : RoomId) (arg : String) : Except Fault Outcome := do
  let src ← deref (if r = .inventory then w.enter .inventory else some r)
  let (special, w) ← w.objSpecialGet src arg
  let found ← match special with
    | some obj => pure (some obj)
    | none => w.findInRoom src arg
  match found with
  | none => return w.answer r "You see no such thing here." .allowEdit
  | some obj =>
    if obj = .tux ∧ ¬w.playerFlagIsSet .luredTux then
      return w.answer r "Tux must choose you!  Try using a fish." .discardText
    else do
      let w ← w.moveObjectToInventory obj
      return ⟨.redrawRoom, some r, w⟩

/-- What the player hears of the car while it is not fixed. -/
def carTrouble : String :=
  if w.playerFlagIsSet .carOpen then "The car isn't working." else "Do you want to use that car?"

def typedCmdGo (r : RoomId) (arg : String) : Except Fault Outcome :=
  if strcasecmp "allerton" arg then
    if r = .allerton then return w.answer r "Kazam!  You're at Allerton!" .discardText
    else if r ≠ .willard ∧ r ≠ .carSite then return w.answer r "That's quite a hike." .discardText
    else if ¬w.playerFlagIsSet .carFixed then return w.answer r w.carTrouble .discardText
    else if w.loc .gpsGood ≠ some .inventory then
      if w.loc .gpsBad = some .inventory then
        return w.answer r "That's a long road with a broken GPS." .discardText
      else return w.answer r "You'll need a GPS to find that place." .discardText
    else return ⟨.changeRoom, some .allerton, w.showStatus "You drive to Allerton Park."⟩
  else if strcasecmp "willard" arg ∨ strcasecmp "airport" arg then
    if r = .willard then return w.answer r "Kazap!  You're at Willard!" .discardText
    else if r ≠ .allerton ∧ r ≠ .carSite then return w.answer r "That's quite a hike." .discardText
    else if ¬w.playerFlagIsSet .carFixed then return w.answer r w.carTrouble .discardText
    else return ⟨.changeRoom, some .willard, w.showStatus "You drive to Willard Airport."⟩
  else if strcasecmp "campus" arg then
    if r = .carSite then return w.answer r "Kazar!  You're on campus!" .discardText
    else if r ≠ .allerton ∧ r ≠ .willard then return w.answer r "That's quite a hike." .discardText
    else return ⟨.changeRoom, some .carSite, w.showStatus "You drive back to campus."⟩
  else return w.answer r "The game map lacks certain places." .allowEdit

def typedCmdInstall (r : RoomId) (arg : String) : Except Fault Outcome :=
  if strcasecmp "battery" arg then
    if ¬w.AtHand r .battEmpty ∧ ¬w.AtHand r .battFull then
      return w.answer r "What battery?" .discardText
    else if r ≠ .carSite then return w.answer r "Do you see the car?" .discardText
    else if w.AtHand r .battEmpty then
      return w.answer r "You want to install a dead battery?" .discardText
    else do
      let w ← w.removeObject .battFull
      let w := (w.playerSetFlag .carFixed).doPhotoSwap r .car
      return ⟨.changeRoom, some r, w.showStatus "Nice work!  Now you can use it!"⟩
  else if strcasecmp "mimo" arg ∨ strcasecmp "card" arg ∨ strcasecmp "transmitter" arg then
    if ¬w.AtHand r .mimoCard then return w.answer r "Do you have one of those?" .discardText
    else if r ≠ .cockpit then return w.answer r "Nothing here needs that." .discardText
    else do
      let w ← w.removeObject .mimoCard
      let w := { w with enter := Function.update w.enter .cockpit (some .overWill) }
      return ⟨.redrawRoom, some r, w.showStatus "Ready for takeoff, captain!"⟩
  else return w.answer r "What are you playing at?" .allowEdit

def typedCmdInventory (r : RoomId) : Outcome :=
  if r = .inventory then ⟨.changeRoom, w.enter r, w⟩
  else
    ⟨.changeRoom, some .inventory, { w with enter := Function.update w.enter .inventory (some r) }⟩

def typedCmdSigh (r : RoomId) : Outcome :=
  if r ≠ .byZas then w.answer r "MP2 got you down?  Take a break!" .discardText
  else
    ⟨.discardText, some r,
      (w.showStatus "So sad... you lose your appetite.").playerSetFlag .hasEaten⟩

def typedCmdUse (r : RoomId) (arg : String) : Except Fault Outcome :=
  if strcasecmp "car" arg then
    if r = .allerton then return w.answer r "Go to campus or Willard Airport?" .discardText
    else if r = .willard then return w.answer r "Go to Allerton or campus?" .discardText
    else if r ≠ .carSite then return w.answer r "You have a car?" .discardText
    else if w.playerFlagIsSet .carFixed then
      return w.answer r "Go to Allerton or Willard Airport?" .discardText
    else if w.playerFlagIsSet .carOpen then
      return w.answer r "You'll have to charge the battery." .discardText
    else if w.loc .carKey ≠ some .inventory then
      return w.answer r "Perhaps you can find a key?" .discardText
    else do
      let w ← (w.doPhotoSwap r .car).removeObject .carKey
      let w ← w.insertObjectAt .battCar r 265 122
      return ⟨.changeRoom, some r,
        (w.playerSetFlag .carOpen).showStatus "The key works, but the battery's dead."⟩
  else if strcasecmp "fish" arg then
    if ¬w.AtHand r .fish then
      return w.answer r "Using the invisible fish...no effect!" .discardText
    else if r ≠ .remLab then return w.answer r "I don't think that's sanitary." .discardText
    else do
      let w ← w.removeObject .fish
      let w ← w.moveObjectToInventory .tux
      return ⟨.redrawRoom, some r, (w.playerSetFlag .luredTux).showStatus "Tux likes you!"⟩
  else return w.answer r "You want to use what!?" .allowEdit

def typedCmdWear (r : RoomId) (arg : String) : Except Fault Outcome :=
  if ¬strcasecmp "bunnysuit" arg then
    return w.answer r "Big Brother forbids fashion statements." .allowEdit
  else if ¬w.AtHand r .bunnysuit then return w.answer r "Do you have a bunnysuit?" .discardText
  else do
    let w ← w.removeObject .bunnysuit
    return ⟨.redrawRoom, some r, (w.playerSetFlag .wearingSuit).showStatus "You look good in pink!"⟩

end World

/-! ### The game -/

/-- The typed commands that `handle_typing` tells apart. -/
inductive TypedCmd where
  | buy | charge | doIt | drink | drop | fix | flash | get | go | install | inventory | sigh | use | wear
  deriving DecidableEq, Repr

inductive Command where
  | moveLeft
  | enter
  | moveRight
  | typed (cmd : TypedCmd) (arg : String)
  deriving DecidableEq, Repr

/-- `game_info.where` and the world. -/
structure Quest where
  room : Option RoomId
  world : World

def performTyped (w : World) (r : RoomId) (arg : String) : TypedCmd → Except Fault Outcome
  | .buy => w.typedCmdBuy r arg
  | .charge => w.typedCmdCharge r arg
  | .doIt => w.typedCmdDo r arg
  | .drink => w.typedCmdDrink r arg
  | .drop => w.typedCmdDrop r arg
  | .fix => w.typedCmdFix r arg
  | .flash => w.typedCmdFlash r arg
  | .get => w.typedCmdGet r arg
  | .go => w.typedCmdGo r arg
  | .install => w.typedCmdInstall r arg
  | .inventory => .ok (w.typedCmdInventory r)
  | .sigh => .ok (w.typedCmdSigh r)
  | .use => w.typedCmdUse r arg
  | .wear => w.typedCmdWear r arg

def perform (w : World) (r : RoomId) : Command → Except Fault Outcome
  | .moveLeft => .ok (w.tryToMoveLeft r)
  | .enter => .ok (w.tryToEnter r)
  | .moveRight => .ok (w.tryToMoveRight r)
  | .typed cmd arg => performTyped w r arg cmd

namespace Quest

def start (w : World) : Quest := ⟨some startInRoom, w⟩

/-- The game is over once the room is `NULL`. -/
def step (g : Quest) (c : Command) : Except Fault Quest :=
  match g.room with
  | none => .error .null
  | some r => do
    let out ← perform g.world r c
    return ⟨out.room, out.world⟩

/-- The steps, as a relation for `Run`. -/
def Steps (g : Quest) (c : Command) (g' : Quest) : Prop := g.step c = .ok g'

end Quest

end Ece391.Mp2
