import CartridgeRuntime.Media.Audio

/-!
# Drawing a frame

The commands of a frame document are drawn into a window. `validateDrawWork` estimates their work
before anything is drawn. What a command draws is the list of its pixel writes, in their order, and
`renderFrame` applies them to the pixels.
-/

namespace CartridgeRuntime.Media

open Checked Encoding Saturating

def maxDrawWorkUnits : Nat := 100000000
def maxMediaAssetPathBytes : Nat := 1024

/-- The size of a window. -/
structure WindowConfig where
  width : UInt32
  height : UInt32

/-- A color with its opacity. -/
structure Color where
  r : UInt8
  g : UInt8
  b : UInt8
  a : UInt8 := 255
deriving Inhabited

/-- What a frame draws. -/
inductive DrawCommand where
  | clear (color : Color)
  | rect (x y : Int32) (width height : UInt32) (color : Color)
  | line (x1 y1 x2 y2 : Int32) (width : UInt16) (color : Color)
  | image (asset : String) (sourceWidth sourceHeight : UInt32) (x y : Int32) (width height : UInt32)
  | text (text : String) (font : Option String) (x y : Int32) (scale : UInt16) (color : Color)

/-- The commands of a frame and the size they are written for. -/
structure FrameDocument where
  logicalWidth : UInt32
  logicalHeight : UInt32
  commands : List DrawCommand

/-! ## Scales -/

/-- From the size of a frame to that of the window. -/
structure Scale where
  logicalWidth : Nat
  logicalHeight : Nat
  width : Nat
  height : Nat

/-- Scale a coordinate. -/
def scaleCoordinate (value : Int) (target logical : Nat) : Int :=
  clampI32 ((value * target).tdiv logical)

/-- Scale a length. -/
def scaleLength (value target logical : Nat) : Nat :=
  min (value * target / logical) (2 ^ 32 - 1)

namespace Scale

def x (scale : Scale) (value : Int) : Int := scaleCoordinate value scale.width scale.logicalWidth
def y (scale : Scale) (value : Int) : Int := scaleCoordinate value scale.height scale.logicalHeight
def w (scale : Scale) (value : Nat) : Nat := scaleLength value scale.width scale.logicalWidth
def h (scale : Scale) (value : Nat) : Nat := scaleLength value scale.height scale.logicalHeight

end Scale

/-- The scale of a frame in a window. -/
def FrameDocument.scale (frame : FrameDocument) (config : WindowConfig) : Scale where
  logicalWidth := frame.logicalWidth.toNat
  logicalHeight := frame.logicalHeight.toNat
  width := config.width.toNat
  height := config.height.toNat

/-! ## The estimate -/

def saturatingMulWord (a b : Nat) : Nat := min (a * b) wordMax
def saturatingAddWord (a b : Nat) : Nat := min (a + b) wordMax

/-- A coordinate is not too far outside. -/
def validateCoordinate (value : Int) (logical : Nat) : Except MediaError Unit :=
  rejectIf (value.natAbs > logical * 8) (.limit "draw coordinate is too far outside the canvas")

/-- The work of a command. -/
def commandWork (frame : FrameDocument) (config : WindowConfig) :
    DrawCommand → Except MediaError Nat
  | .clear _ => pure (config.width.toNat * config.height.toNat)
  | .rect _ _ width height _ | .image _ _ _ _ _ width height =>
    pure (saturatingMulWord (min ((frame.scale config).w width.toNat) config.width.toNat)
      (min ((frame.scale config).h height.toNat) config.height.toNat))
  | .line x1 y1 x2 y2 width _ => do
    let scale := frame.scale config
    rejectIf (width.toNat = 0 ∨ width.toNat > 64) (.limit "line width must be between 1 and 64")
    validateCoordinate x1.toInt frame.logicalWidth.toNat
    validateCoordinate x2.toInt frame.logicalWidth.toNat
    validateCoordinate y1.toInt frame.logicalHeight.toNat
    validateCoordinate y2.toInt frame.logicalHeight.toNat
    let length := saturatingAddWord (max (scale.x x1.toInt - scale.x x2.toInt).natAbs
      (scale.y y1.toInt - scale.y y2.toInt).natAbs) 1
    let brush := saturatingAddWord width.toNat 1
    pure (saturatingMulWord length (saturatingMulWord brush brush))
  | .text text font x y textScale _ => do
    let scale := frame.scale config
    validateCoordinate x.toInt frame.logicalWidth.toNat
    validateCoordinate y.toInt frame.logicalHeight.toNat
    let glyphPixel := saturatingMulWord (max (scale.w textScale.toNat) 1)
      (max (scale.h textScale.toNat) 1)
    let raster := saturatingMulWord (saturatingMulWord text.toList.length (16 * 32)) glyphPixel
    pure (saturatingAddWord raster (if font.isSome then 95 * 16 * 32 else 0))

/-- The tests of a command that come after the budget. -/
def validateExtent (frame : FrameDocument) : DrawCommand → Except MediaError Unit
  | .rect x y width height _ | .image _ _ _ x y width height => do
    validateCoordinate x.toInt frame.logicalWidth.toNat
    validateCoordinate y.toInt frame.logicalHeight.toNat
    rejectIf (width.toNat > frame.logicalWidth.toNat * 8
      ∨ height.toNat > frame.logicalHeight.toNat * 8) (.limit "draw extent is too large")
  | _ => pure ()

/-- One turn of the loop over the commands, with the work so far. -/
def chargeCommand (frame : FrameDocument) (config : WindowConfig) (work : Nat)
    (command : DrawCommand) : Except MediaError Nat := do
  let commandWork ← commandWork frame config command
  let work := saturatingAddWord work commandWork
  rejectIf (work > maxDrawWorkUnits) (.limit "draw work budget exceeded")
  validateExtent frame command
  pure work

/-- The commands of a frame stay within the budget. -/
def validateDrawWork (frame : FrameDocument) (config : WindowConfig) : Except MediaError Unit := do
  let _ ← frame.commands.foldlM (chargeCommand frame config) 0
  pure ()

/-! ## Pixel writes -/

/-- A pixel is set or mixed with a color. -/
inductive Write where
  | set (pixel : Nat) (color : Color)
  | blend (x y : Nat) (color : Color)
deriving Inhabited

/-- The places of a rectangle, row by row. -/
def pixelGrid (left top right bottom : Nat) : List (Nat × Nat) :=
  (List.range' top (bottom - top)).flatMap fun py =>
    (List.range' left (right - left)).map fun px => (px, py)

/-- The nearest number between zero and a canvas extent. -/
def clampCanvas (value : Int) (extent : Nat) : Nat := (max 0 (min value extent)).toNat

section

variable (config : WindowConfig) (scale : Scale)

/-- Write every pixel. -/
def clear (color : Color) : List Write :=
  (List.range (config.width.toNat * config.height.toNat * 4 / 4)).map (.set · color)

/-- Write the pixels of a rectangle that are inside the window. -/
def fillRect (x y : Int) (width height : Nat) (color : Color) : List Write :=
  let x := scale.x x
  let y := scale.y y
  -- a coordinate and a length are too small for their 64-bit sum to saturate
  let right := clampCanvas (x + scale.w width) config.width.toNat
  let bottom := clampCanvas (y + scale.h height) config.height.toNat
  (pixelGrid (max x 0).toNat (max y 0).toNat right bottom).map fun (px, py) => .blend px py color

/-! ## Lines -/

/-- What a line's loop does not change: its end, the distances (the second one negative) and the
directions. -/
structure Line where
  x1 : Int
  y1 : Int
  dx : Int
  dy : Int
  sx : Int
  sy : Int

/-- The variables of the loop. -/
structure LinePoint where
  x0 : Int
  y0 : Int
  error : Int

/-- The nearest signed 64-bit number. -/
def clampI64 (value : Int) : Int := max (-9223372036854775808) (min value 9223372036854775807)

/-- The end of a turn: one step along one of the axes or both. -/
def Line.next (line : Line) (point : LinePoint) : LinePoint :=
  let doubled := clampI64 (point.error * 2)
  let point :=
    if doubled ≥ line.dy then
      { point with error := point.error + line.dy, x0 := point.x0 + line.sx }
    else point
  if doubled ≤ line.dx then
    { point with error := point.error + line.dx, y0 := point.y0 + line.sy }
  else point

/-- The points of the loop, unless it takes more turns than allowed. -/
def Line.walk (line : Line) : Nat → LinePoint → Option (List (Int × Int))
  | 0, _ => none
  | turns + 1, point =>
    if point.x0 = line.x1 ∧ point.y0 = line.y1 then some [(point.x0, point.y0)]
    else (line.walk turns (line.next point)).map ((point.x0, point.y0) :: ·)

/-- The line between two points, and its first point. -/
def lineBetween (x0 y0 x1 y1 : Int) : Line × LinePoint :=
  let dx : Int := (x1 - x0).natAbs
  let dy : Int := -(y1 - y0).natAbs
  (⟨x1, y1, dx, dy, if x0 < x1 then 1 else -1, if y0 < y1 then 1 else -1⟩, ⟨x0, y0, dx + dy⟩)

/-- The square of pixels around a point of a line. -/
def brush (radius : Nat) (color : Color) (point : Int × Int) : List Write :=
  (List.range (2 * radius + 1)).flatMap fun (row : Nat) =>
    (List.range (2 * radius + 1)).filterMap fun (column : Nat) =>
      let px := saturatingAdd point.1 ((column : Int) - radius)
      let py := saturatingAdd point.2 ((row : Int) - radius)
      if px ≥ 0 ∧ py ≥ 0 ∧ px < config.width.toNat ∧ py < config.height.toNat then
        some (.blend px.toNat py.toNat color)
      else none

/-- A line, if its loop takes no more turns than allowed. -/
def drawLine (turns : Nat) (x1 y1 x2 y2 : Int) (width : Nat) (color : Color) :
    Option (List Write) :=
  let (line, start) := lineBetween (scale.x x1) (scale.y y1) (scale.x x2) (scale.y y2)
  (line.walk turns start).map (·.flatMap (brush config (min width 64 / 2) color))

/-! ## Images -/

/-- The pixel of an image for a place of the canvas. Products are 64-bit numbers. -/
def blitPixel (source : List UInt8) (sourceWidth sourceHeight : Nat) (x y : Int)
    (width height : Nat) : Nat × Nat → Except MediaError Write
  | (px, py) => do
    rejectIf ((px : Int) < x) (.invalid "image x offset became negative")
    rejectIf ((py : Int) < y) (.invalid "image y offset became negative")
    let sx := (px - x).toNat * sourceWidth % 2 ^ 64 / width
    let sy := (py - y).toNat * sourceHeight % 2 ^ 64 / height
    let index := (sy * sourceWidth + sx) * 4 % 2 ^ 64
    match (source.drop index).take 4 with
    | [r, g, b, a] => do
      rejectIf (px ≥ 2 ^ 32) (.limit "image x coordinate is not addressable")
      rejectIf (py ≥ 2 ^ 32) (.limit "image y coordinate is not addressable")
      pure (.blend px py ⟨r, g, b, a⟩)
    | _ => .error (.asset "image pixel is outside its payload")

/-- Write the pixels of a scaled image that are inside the window. -/
def blit (source : List UInt8) (sourceWidth sourceHeight : Nat) (x y : Int) (width height : Nat) :
    Except MediaError (List Write) :=
  let x := scale.x x
  let y := scale.y y
  let width := scale.w width
  let height := scale.h height
  if width = 0 ∨ height = 0 then pure []
  else
    let left := clampCanvas x config.width.toNat
    let top := clampCanvas y config.height.toNat
    let right := clampCanvas (x + width) config.width.toNat
    let bottom := clampCanvas (y + height) config.height.toNat
    (pixelGrid left top right bottom).mapM
      (blitPixel source sourceWidth sourceHeight x y width height)

/-! ## Texts -/

/-- A font: the size of a glyph, and the bits of all glyphs. -/
structure ParsedFont where
  width : Nat
  height : Nat
  bits : List Bool

/-- Read a font asset. -/
def parseFont (bytes : List UInt8) : Except MediaError ParsedFont := do
  rejectIf (bytes.length < 6 ∨ bytes.take 4 ≠ utf8Bytes "CFNT")
    (.asset "font asset does not have a CFNT header")
  let width := (bytes.getD 4 0).toNat
  let height := (bytes.getD 5 0).toNat
  rejectIf (width = 0 ∨ height = 0 ∨ width > 16 ∨ height > 32)
    (.asset "font dimensions are invalid")
  let bits := 95 * width * height
  rejectIf (bytes.length ≠ 6 + (bits + 7) / 8) (.asset "font payload length is invalid")
  pure ⟨width, height,
    (List.range bits).map fun index => (bytes.getD (6 + index / 8) 0).toNat.testBit (7 - index % 8)⟩

/-- The bits of a printable character in a font. -/
def customGlyph (font : ParsedFont) (character : Char) : Option (List Bool) :=
  let code := character.toNat
  if 32 ≤ code ∧ code ≤ 126 then
    let glyphBits := font.width * font.height
    let start := (code - 32) * glyphBits
    if start + glyphBits ≤ font.bits.length then some ((font.bits.drop start).take glyphBits)
    else none
  else none

/-- Without a font, every character but the blank is a block. -/
def builtinGlyph (character : Char) : List Bool :=
  List.replicate 35 (character != ' ')

/-- The set bits of a glyph, as squares. -/
def drawGlyph (glyphWidth glyphHeight : Nat) (bits : List Bool) (cursor y : Int) (size : Nat)
    (color : Color) : List Write :=
  (List.range glyphHeight).flatMap fun row =>
    (List.range glyphWidth).flatMap fun column =>
      if bits[row * glyphWidth + column]? = some true then
        fillRect config scale (saturatingAdd cursor (column * size)) (saturatingAdd y (row * size))
          size size color
      else []

/-- The loop over the characters, with the place of the next one. -/
def drawCharacters (font : Option ParsedFont) (y : Int) (size : Nat) (color : Color) :
    Int → List Char → List Write
  | _, [] => []
  | cursor, character :: rest =>
    if character = '\n' then drawCharacters font y size color cursor rest
    else
      let glyphWidth := font.elim 5 ParsedFont.width
      let glyphHeight := font.elim 7 ParsedFont.height
      let bits := (font.bind (customGlyph · character)).getD (builtinGlyph character)
      drawGlyph config scale glyphWidth glyphHeight bits cursor y size color
        ++ drawCharacters font y size color (saturatingAdd cursor ((glyphWidth + 1) * size)) rest

/-- Draw the characters of a text. -/
def drawText (text : String) (font : Option (List UInt8)) (x y : Int) (size : Nat)
    (color : Color) : Except MediaError (List Write) :=
  if text.isEmpty then pure []
  else do
    let parsed ← font.mapM parseFont
    pure (drawCharacters config scale parsed y size color x text.toList)

end

/-! ## A frame -/

/-- The path of an asset is in its normal form. -/
def validateAssetPath (path : String) : Except MediaError Unit :=
  let characters := path.toList
  rejectIf (characters = [] ∨ byteLength characters > maxMediaAssetPathBytes
    ∨ characters.head? = some '/' ∨ '\\' ∈ characters
    ∨ ∃ part ∈ characters.splitOn '/', part = [] ∨ part = ['.'] ∨ part = ['.', '.'] ∨ ':' ∈ part)
    (.asset "media asset path is not normalized")

/-- The bytes of an image. -/
def checkedRgbaLen (width height : Nat) : Except MediaError Nat := do
  rejectIf (width * height > wordMax ∨ width * height * 4 > wordMax)
    (.limit "image dimensions overflow")
  pure (width * height * 4)

/-- Why a frame is not drawn to its end: an error, or a line whose loop does not end in time. -/
inductive DrawFailure where
  | error (error : MediaError)
  | unfinished
deriving DecidableEq

/-- The assets of a frame and the largest size of an image. -/
structure Assets where
  asset : String → Option (List UInt8)
  maxAssetBytes : Nat

/-- What a command draws. -/
def drawCommand (config : WindowConfig) (scale : Scale) (assets : Assets) (turns : Nat) :
    DrawCommand → Except DrawFailure (List Write)
  | .clear color => pure (clear config color)
  | .rect x y width height color =>
    pure (fillRect config scale x.toInt y.toInt width.toNat height.toNat color)
  | .line x1 y1 x2 y2 width color =>
    okOr (drawLine config scale turns x1.toInt y1.toInt x2.toInt y2.toInt width.toNat color)
      .unfinished
  | .image path sourceWidth sourceHeight x y width height => mapError .error do
      validateAssetPath path
      rejectIf (sourceWidth.toNat = 0 ∨ sourceHeight.toNat = 0)
        (.asset "image dimensions must be positive")
      let bytes ← okOr (assets.asset path) (.asset s!"missing image asset {debugText path}")
      let expected ← checkedRgbaLen sourceWidth.toNat sourceHeight.toNat
      rejectIf (bytes.length ≠ expected ∨ bytes.length > assets.maxAssetBytes)
        (.asset s!"image asset {debugText path} has an invalid length")
      blit config scale bytes sourceWidth.toNat sourceHeight.toNat x.toInt y.toInt width.toNat
        height.toNat
  | .text text font x y textScale color => mapError .error do
      rejectIf (byteLength text.toList > 16 * 1024 ∨ textScale.toNat = 0 ∨ textScale.toNat > 256)
        (.limit "text command exceeds its limits")
      let fontBytes ← font.mapM fun path => do
        validateAssetPath path
        okOr (assets.asset path) (.asset s!"missing font asset {debugText path}")
      drawText config scale text fontBytes x.toInt y.toInt textScale.toNat color

/-- The loop over the commands: what is written before the end or the first failure. -/
def drawCommands (config : WindowConfig) (scale : Scale) (assets : Assets) (turns : Nat) :
    List DrawCommand → List Write × Option DrawFailure
  | [] => ([], none)
  | command :: rest =>
    match drawCommand config scale assets turns command with
    | .error failure => ([], some failure)
    | .ok writes =>
      let (more, failure) := drawCommands config scale assets turns rest
      (writes ++ more, failure)

end CartridgeRuntime.Media
