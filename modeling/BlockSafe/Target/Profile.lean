import BlockSafe.Rule.Violation
import BlockSafe.Target.Basic
import BlockSafe.Target.Microbit
import BlockSafe.Text.Pattern

/-!
# Target profiles

What is fixed for each target: its namespaces and calls as they are told to a provider, the
tokens that belong to another target, an example program and a stub.  The stub is the program
that takes the place of one that could not be generated, so it must itself be block-safe.
-/

namespace BlockSafe

open Pattern

/-- What is fixed for one target. -/
structure Profile where
  /-- The name of the target in prompts. -/
  title : Text
  namespaces : List Text
  /-- The tokens that show that a program was written for another target. -/
  foreign : Pattern
  foreignViolation : Violation
  /-- The calls that may be used, one namespace a line. -/
  apis : Text
  /-- A program that shows the style. -/
  sample : Text
  /-- The program that stands in for a failed generation. -/
  stub : Text
  /-- Further lines of the prompt. -/
  extras : List Text

/-- Lines with a line feed between neighbours. -/
def joinLines (lines : List Text) : Text := Text.join ['\n'] lines

/-- Texts with a comma and a space between neighbours. -/
def commaJoin (items : List Text) : Text := Text.join ", " items

/-! ## Tokens -/

/-- Tokens of Arcade programs, in any mixture of cases. -/
def arcadeTokens : Pattern :=
  anyOf [litAnyCase "sprites.", litAnyCase "controller.", litAnyCase "scene.",
    litAnyCase "game.onUpdate"]

/-- Tokens of micro:bit programs, in any mixture of cases. -/
def microbitTokens : Pattern := anyOf [litAnyCase "led.", litAnyCase "radio."]

/-! ## Profiles -/

/-- The members of an enum, each with the name of the enum. -/
def qualified (enumName : Text) (members : List Text) : Text :=
  commaJoin (members.map fun member => enumName ++ '.' :: member)

/-- Programs that show the shape of micro:bit blocks. -/
def microbitExamples : List Text :=
  ["input.onButtonPressed(Button.A, function () \x7b basic.showIcon(IconNames.Heart) \x7d)",
   "basic.forever(function () \x7b led.toggle(2, 2); basic.pause(100) \x7d)",
   "radio.onReceivedNumber(function (receivedNumber) \x7b basic.showNumber(receivedNumber) \x7d)"]

/-- What a provider is told about micro:bit beyond the calls. -/
def microbitExtras : List Text :=
  texts
      ["MICRO:BIT BUILT-IN ICON/ENUM RULES:",
       "- If the request matches a built-in icon name (for example duck, heart, skull), prefer "
        ++ "basic.showIcon(IconNames.<Name>).",
       "- For known icons, do NOT hand-draw LED art with basic.showLeds(`...`) unless the user "
        ++ "explicitly asks for a custom pattern."]
    ++ ["- Valid IconNames: ".toList ++ qualified "IconNames" Microbit.iconNames,
        "- Valid ArrowNames: ".toList ++ qualified "ArrowNames" Microbit.arrowNames,
        "- Use exact event enums: Button.A, Button.B, Button.AB; ".toList
          ++ qualified "Gesture" Microbit.gestureNames,
        "- Use only valid members of the built-in enums (".toList
          ++ commaJoin ((Microbit.enums.map (·.1)).filter fun name =>
              name != "IconNames".toList && name != "ArrowNames".toList)
          ++ ").".toList]
    ++ texts
      ["- Follow canonical block signatures and argument counts. Do not invent extra arguments.",
       "MICRO:BIT BLOCK-STYLE EXAMPLES (shape guidance):"]
    ++ microbitExamples.map fun program => "- ".toList ++ program

/-- The micro:bit target. -/
def microbitProfile : Profile where
  title := "micro:bit"
  namespaces := texts
    ["basic", "input", "music", "led", "radio", "pins", "loops", "logic", "variables", "math",
     "functions", "arrays", "text", "game", "images", "serial", "control"]
  foreign := arcadeTokens
  foreignViolation := .arcadeApis
  apis :=
    joinLines <| texts
     ["basic: showNumber(n), showString(s), showIcon(IconNames), showLeds(`...`), "
       ++ "showArrow(ArrowNames), clearScreen(), forever(handler), pause(ms)",
      "input: onButtonPressed(Button.A/B/AB, handler), onGesture(Gesture.Shake/Tilt/..., "
       ++ "handler), onPinPressed(TouchPin.P0/P1/P2, handler), buttonIsPressed(Button), "
       ++ "temperature(), lightLevel(), acceleration(Dimension.X/Y/Z), compassHeading(), "
       ++ "rotation(Rotation), magneticForce(Dimension), runningTime()",
      "music: playTone(Note, BeatFraction), ringTone(freq), rest(BeatFraction), "
       ++ "beat(BeatFraction), tempo(), setTempo(bpm), changeTempoBy(delta)",
      "led: plot(x,y), unplot(x,y), toggle(x,y), point(x,y), brightness(), setBrightness(n), "
       ++ "plotBarGraph(value, high), enable(on)",
      "radio: sendNumber(n), sendString(s), sendValue(name, n), onReceivedNumber(handler), "
       ++ "onReceivedString(handler), setGroup(id), setTransmitPower(n), "
       ++ "setTransmitSerialNumber(on)",
      "game: createSprite(x,y), .move(n), .turn(Direction,degrees), .ifOnEdgeBounce(), "
       ++ ".isTouching(other), .isTouchingEdge(), addScore(n), score(), setScore(n), setLife(n), "
       ++ "addLife(n), removeLife(n), gameOver(), startCountdown(ms)",
      "pins: digitalReadPin(DigitalPin), digitalWritePin(DigitalPin,value), "
       ++ "analogReadPin(AnalogPin), analogWritePin(AnalogPin,value), "
       ++ "servoWritePin(AnalogPin,value), "
       ++ "map(value,fromLow,fromHigh,toLow,toHigh), onPulsed(DigitalPin,PulseValue,handler), "
       ++ "analogSetPitchPin(AnalogPin), analogPitch(freq,ms)",
      "images: createImage(`...`), createBigImage(`...`), arrowImage(ArrowNames), "
       ++ "iconImage(IconNames)",
      "serial: writeLine(s), writeNumber(n), writeValue(name,value), readLine(), "
       ++ "onDataReceived(delimiter,handler), redirect(tx,rx,rate)",
      "control: inBackground(handler), reset(), waitMicros(us)",
      "loops, logic, variables, math, functions, arrays, text (standard language built-ins)"]
  sample :=
    joinLines <| texts
     ["input.onButtonPressed(Button.A, function () \x7b",
      "    basic.showString(\"Hello\")",
      "\x7d)",
      "let count = 0",
      "basic.forever(function () \x7b",
      "    count += 1",
      "    basic.showNumber(count)",
      "    basic.pause(1000)",
      "\x7d)"]
  stub :=
    joinLines <| texts
     ["basic.onStart(function () \x7b",
      "    basic.showString(\"Hi\")",
      "\x7d)"]
  extras := microbitExtras

/-- The Arcade target. -/
def arcadeProfile : Profile where
  title := "Arcade"
  namespaces := texts
    ["controller", "game", "scene", "sprites", "info", "music", "effects"]
  foreign := microbitTokens
  foreignViolation := .microbitApis
  apis :=
    joinLines <| texts
     ["sprites: create(img, SpriteKind), createProjectileFromSprite(img, sprite, vx, vy), "
       ++ "onCreated(SpriteKind, handler), onDestroyed(SpriteKind, handler), onOverlap(SpriteKind, "
       ++ "SpriteKind, handler), allOfKind(SpriteKind)",
      "controller: moveSprite(sprite, vx, vy), controller.A.onEvent(ControllerButtonEvent, "
       ++ "handler), controller.B.onEvent(ControllerButtonEvent, handler), dx(), dy()",
      "scene: setBackgroundColor(color), setBackgroundImage(img), cameraFollowSprite(sprite), "
       ++ "setTileMapLevel(tilemap), onHitWall(SpriteKind, handler), "
       ++ "onOverlapTile(SpriteKind, tile, handler)",
      "game: onUpdate(handler), onUpdateInterval(ms, handler), splash(title, subtitle?), "
       ++ "over(win), reset()",
      "info: score(), setScore(n), changeScoreBy(n), life(), setLife(n), changeLifeBy(n), "
       ++ "startCountdown(s), onCountdownEnd(handler), onLifeZero(handler)",
      "music: playTone(freq, ms), playMelody(melody, tempo), setVolume(vol)",
      "effects: spray, fire, warm radial, cool radial, halo, fountain (applied via "
       ++ "sprite.startEffect())",
      "animation: runImageAnimation(sprite, frames, interval, loop), "
       ++ "runMovementAnimation(sprite, path, interval, loop)"]
  sample :=
    joinLines <| texts
     ["let mySprite = sprites.create(img`",
      "    . . . . . . . .",
      "    . . . 7 7 . . .",
      "    . . 7 7 7 7 . .",
      "    . . . 7 7 . . .",
      "`, SpriteKind.Player)",
      "controller.moveSprite(mySprite)",
      "mySprite.setStayInScreen(true)"]
  stub :=
    joinLines <| texts
     ["controller.A.onEvent(ControllerButtonEvent.Pressed, function () \x7b",
      "    game.splash(\"Start!\")",
      "\x7d)",
      "game.onUpdate(function () \x7b",
      "\x7d)"]
  extras := []

/-- The Maker target. -/
def makerProfile : Profile where
  title := "Maker"
  namespaces := texts
    ["pins", "input", "loops", "music"]
  foreign := arcadeTokens
  foreignViolation := .arcadeApis
  apis :=
    joinLines <| texts
     ["pins: digitalReadPin(DigitalPin), digitalWritePin(DigitalPin, value), "
       ++ "analogReadPin(AnalogPin), analogWritePin(AnalogPin, value), servoWritePin(AnalogPin, "
       ++ "value), map(value, fromLow, fromHigh, toLow, toHigh)",
      "input: onButtonPressed(handler), buttonIsPressed(), temperature(), lightLevel()",
      "loops: forever(handler), pause(ms)",
      "music: playTone(freq, ms), ringTone(freq), rest(ms), setTempo(bpm)"]
  sample :=
    joinLines <| texts
     ["let on = false",
      "loops.forever(function () \x7b",
      "    on = !(on)",
      "    if (on) \x7b",
      "        pins.digitalWritePin(DigitalPin.P0, 1)",
      "    \x7d else \x7b",
      "        pins.digitalWritePin(DigitalPin.P0, 0)",
      "    \x7d",
      "    loops.pause(500)",
      "\x7d)"]
  stub :=
    joinLines <| texts
     ["loops.forever(function () \x7b",
      "\x7d)"]
  extras := []

/-- The profile of a target. -/
def Target.profile : Target → Profile
  | .microbit => microbitProfile
  | .arcade => arcadeProfile
  | .maker => makerProfile

end BlockSafe
