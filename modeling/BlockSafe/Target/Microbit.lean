import BlockSafe.Text.Basic

/-!
# The micro:bit blocks

The enums that micro:bit blocks use, with their members, and the number of arguments that each
block takes.
-/

namespace BlockSafe.Microbit

/-! ## Enums -/

/-- The icons that may be suggested. -/
def iconNames : List Text := texts
  ["Heart", "SmallHeart", "Yes", "No", "Happy", "Sad", "Confused", "Angry", "Asleep", "Surprised",
   "Silly", "Fabulous", "Meh", "TShirt", "Rollerskate", "Duck", "House", "Tortoise", "Butterfly",
   "StickFigure", "Ghost", "Sword", "Giraffe", "Skull", "Umbrella", "Snake", "Rabbit", "Cow",
   "QuarterNote", "EighthNote", "Pitchfork", "Target", "Triangle", "LeftTriangle", "Chessboard",
   "Diamond", "SmallDiamond", "Square", "SmallSquare", "Scissors"]

/-- An icon name that is still accepted under its old spelling. -/
def oldIconNames : List Text := ["EigthNote"]

/-- The arrows. -/
def arrowNames : List Text := texts
  ["North", "NorthEast", "East", "SouthEast", "South", "SouthWest", "West", "NorthWest"]

/-- The gestures. -/
def gestureNames : List Text := texts
  ["Shake", "LogoUp", "LogoDown", "ScreenUp", "ScreenDown", "TiltLeft", "TiltRight", "FreeFall",
   "ThreeG", "SixG", "EightG"]

/-- The pins of the edge connector. -/
def pinNames : List Text :=
  ((List.range 17) ++ [19, 20]).map fun n => 'P' :: Text.ofNat n

/-- The known enums and their members, in the order in which prompts list them. -/
def enums : List (Text × List Text) :=
  [("Button", ["A", "B", "AB"]),
   ("Gesture", gestureNames),
   ("TouchPin", ["P0", "P1", "P2"]),
   ("Dimension", ["X", "Y", "Z", "Strength"]),
   ("Rotation", ["Pitch", "Roll"]),
   ("IconNames", iconNames ++ oldIconNames),
   ("ArrowNames", arrowNames),
   ("DigitalPin", pinNames),
   ("AnalogPin", pinNames),
   ("PulseValue", ["High", "Low"]),
   ("BeatFraction", ["Whole", "Half", "Quarter", "Eighth", "Sixteenth", "Double", "Breve"])]

/-! ## Calls -/

/-- A block with the least and the greatest number of arguments that it takes. -/
structure Signature where
  call : Text
  least : Nat
  most : Nat

/-- The blocks whose number of arguments is known. -/
def signatures : List Signature :=
  [("basic.showNumber", 1, 2),
   ("basic.showString", 1, 2),
   ("basic.showIcon", 1, 2),
   ("basic.showLeds", 1, 1),
   ("basic.showArrow", 1, 2),
   ("basic.clearScreen", 0, 0),
   ("basic.forever", 1, 1),
   ("basic.pause", 1, 1),
   ("input.onButtonPressed", 2, 2),
   ("input.onGesture", 2, 2),
   ("input.onPinPressed", 2, 2),
   ("input.buttonIsPressed", 1, 1),
   ("input.temperature", 0, 0),
   ("input.lightLevel", 0, 0),
   ("input.acceleration", 1, 1),
   ("input.compassHeading", 0, 0),
   ("input.rotation", 1, 1),
   ("input.magneticForce", 1, 1),
   ("input.runningTime", 0, 0),
   ("music.playTone", 2, 2),
   ("music.ringTone", 1, 1),
   ("music.rest", 1, 1),
   ("music.beat", 0, 1),
   ("music.tempo", 0, 0),
   ("music.setTempo", 1, 1),
   ("music.changeTempoBy", 1, 1),
   ("led.plot", 2, 2),
   ("led.unplot", 2, 2),
   ("led.toggle", 2, 2),
   ("led.point", 2, 2),
   ("led.brightness", 0, 0),
   ("led.setBrightness", 1, 1),
   ("led.plotBarGraph", 2, 3),
   ("led.enable", 1, 1),
   ("radio.sendNumber", 1, 1),
   ("radio.sendString", 1, 1),
   ("radio.sendValue", 2, 2),
   ("radio.onReceivedNumber", 1, 1),
   ("radio.onReceivedString", 1, 1),
   ("radio.setGroup", 1, 1),
   ("radio.setTransmitPower", 1, 1),
   ("radio.setTransmitSerialNumber", 1, 1),
   ("game.createSprite", 2, 2),
   ("game.addScore", 1, 1),
   ("game.score", 0, 0),
   ("game.setScore", 1, 1),
   ("game.setLife", 1, 1),
   ("game.addLife", 1, 1),
   ("game.removeLife", 1, 1),
   ("game.gameOver", 0, 0),
   ("game.startCountdown", 1, 1),
   ("pins.digitalReadPin", 1, 1),
   ("pins.digitalWritePin", 2, 2),
   ("pins.analogReadPin", 1, 1),
   ("pins.analogWritePin", 2, 2),
   ("pins.servoWritePin", 2, 2),
   ("pins.map", 5, 5),
   ("pins.onPulsed", 3, 3),
   ("pins.analogSetPitchPin", 1, 1),
   ("pins.analogPitch", 2, 2),
   ("images.createImage", 1, 1),
   ("images.createBigImage", 1, 1),
   ("images.arrowImage", 1, 1),
   ("images.iconImage", 1, 1),
   ("serial.writeLine", 1, 1),
   ("serial.writeNumber", 1, 1),
   ("serial.writeValue", 2, 2),
   ("serial.readLine", 0, 0),
   ("serial.onDataReceived", 2, 2),
   ("serial.redirect", 3, 3),
   ("control.inBackground", 1, 1),
   ("control.reset", 0, 0),
   ("control.waitMicros", 1, 1)].map
    fun (call, least, most) => ⟨(call : String), least, most⟩

end BlockSafe.Microbit
