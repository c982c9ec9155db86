import CartridgeRuntime.Media.Graphics
import Mathlib.Algebra.Order.BigOperators.Group.List

/-!
# The work of a frame

`drawCommands_bounded`: the commands of a frame that `validateDrawWork` accepts make no more pixel
writes than the budget, the loop of every line ends at its end point, and every image is read inside
its payload.
-/

namespace CartridgeRuntime.Media

open Checked Saturating

/-! ## Lines

Along the longer axis every turn takes one step. `Track` is what the error says then of the steps
along the shorter axis: it is the same for both directions. -/

/-- After `steps` steps along the longer axis and `side` steps along the shorter one. -/
structure Track (long short steps side error : Int) : Prop where
  error_eq : error = (side + 1) * long - (steps + 1) * short
  low : -short ≤ 2 * error
  high : 2 * error ≤ 3 * long - 2 * short
  side_nonneg : 0 ≤ side
  side_le : side ≤ steps

variable {long short steps side error : Int} {width : Nat}

theorem track_start (hshort : 0 ≤ short) (hle : short ≤ long) :
    Track long short 0 0 (long - short) :=
  ⟨by ring, by omega, by omega, Int.le_refl 0, Int.le_refl 0⟩

theorem Track.straight (hshort : 0 ≤ short) (h : Track long short steps side error)
    (hturn : ¬ 2 * error ≤ long) : Track long short (steps + 1) side (error - short) := by
  obtain ⟨herror, hlow, hhigh, hside, hsteps⟩ := h
  exact ⟨by rw [herror]; ring, by omega, by omega, hside, by omega⟩

theorem Track.turn (hle : short ≤ long) (h : Track long short steps side error)
    (hturn : 2 * error ≤ long) :
    Track long short (steps + 1) (side + 1) (error - short + long) := by
  obtain ⟨herror, hlow, hhigh, hside, hsteps⟩ := h
  exact ⟨by rw [herror]; ring, by omega, by omega, by omega, by omega⟩

/-- At the end of the longer axis the shorter one is at its end too. -/
theorem Track.side_eq (hshort : 0 ≤ short) (h : Track long short long side error) :
    side = short := by
  obtain ⟨herror, hlow, hhigh, hside, hsteps⟩ := h
  have hsplit : error = long * (side + 1 - short) - short := by rw [herror]; ring
  rcases Int.lt_trichotomy side short with hlt | heq | hgt
  · have : long * (side + 1 - short) ≤ 0 :=
      Int.mul_nonpos_of_nonneg_of_nonpos (by omega) (by omega)
    omega
  · exact heq
  · have : long * 2 ≤ long * (side + 1 - short) :=
      Int.mul_le_mul_of_nonneg_left (by omega) (by omega)
    omega

/-- A line whose places are given by the steps along its axes. -/
structure Tracked (line : Line) (long short : Int) (place : Int → Int → Int → LinePoint) : Prop where
  short_nonneg : 0 ≤ short
  short_le : short ≤ long
  next : ∀ steps side error, Track long short steps side error →
    line.next (place steps side error)
      = if 2 * error ≤ long then place (steps + 1) (side + 1) (error - short + long)
        else place (steps + 1) side (error - short)
  at_end : ∀ steps side error, (place steps side error).x0 = line.x1
    ∧ (place steps side error).y0 = line.y1 ↔ steps = long ∧ side = short

/-- The loop takes one turn for each step that is left, and one at the end. -/
theorem Tracked.walk_eq {line : Line} {place : Int → Int → Int → LinePoint}
    (h : Tracked line long short place) (left : Nat) (htrack : Track long short steps side error)
    (hleft : steps + left = long) {turns : Nat} (hturns : left < turns) :
    ∃ points, line.walk turns (place steps side error) = some points
      ∧ points.length = left + 1 ∧ points.getLast? = some (line.x1, line.y1) := by
  obtain ⟨turns, rfl⟩ : ∃ rest, turns = rest + 1 := ⟨turns - 1, by omega⟩
  rw [Line.walk]
  induction left generalizing steps side error turns with
  | zero =>
    obtain rfl : steps = long := by omega
    have hend := (h.at_end _ side error).mpr ⟨rfl, htrack.side_eq h.short_nonneg⟩
    rw [if_pos hend, hend.1, hend.2]
    exact ⟨_, rfl, rfl, rfl⟩
  | succ left ih =>
    have hnot : ¬ ((place steps side error).x0 = line.x1 ∧ (place steps side error).y0 = line.y1) := by
      rw [h.at_end]
      omega
    obtain ⟨turns, rfl⟩ : ∃ rest, turns = rest + 1 := ⟨turns - 1, by omega⟩
    obtain ⟨steps', side', error', hnext, htrack'⟩ : ∃ steps' side' error',
        line.next (place steps side error) = place steps' side' error'
          ∧ Track long short steps' side' error' ∧ steps' = steps + 1 := by
      rw [h.next steps side error htrack]
      by_cases hturn : 2 * error ≤ long
      · exact ⟨_, _, _, if_pos hturn, htrack.turn h.short_le hturn, rfl⟩
      · exact ⟨_, _, _, if_neg hturn, htrack.straight h.short_nonneg hturn, rfl⟩
    obtain ⟨points, hwalk, hlength, hlast⟩ := ih htrack'.1 (by omega) turns (by omega)
    rw [if_neg hnot, hnext, Line.walk, hwalk]
    refine ⟨_, rfl, by rw [List.length_cons, hlength], ?_⟩
    rw [List.getLast?_cons, hlast]
    rfl

/-- A direction is one step forward or back. -/
theorem mul_direction_inj {direction a b : Int} (h : direction = 1 ∨ direction = -1) :
    direction * a = direction * b ↔ a = b := by
  rcases h with rfl | rfl <;> omega

theorem eq_add_direction (start target : Int) :
    target = start + (if start < target then 1 else -1) * ((target - start).natAbs : Int) := by
  split <;> omega

theorem direction_cases (start target : Int) :
    (if start < target then (1 : Int) else -1) = 1
      ∨ (if start < target then (1 : Int) else -1) = -1 := by
  split <;> simp

/-- The loop of a line between 32-bit points takes one turn for each step along the longer axis, and
one more at its end point. -/
theorem walk_lineBetween {x0 y0 x1 y1 : Int} (hx0 : clampI32 x0 = x0) (hy0 : clampI32 y0 = y0)
    (hx1 : clampI32 x1 = x1) (hy1 : clampI32 y1 = y1) {turns : Nat}
    (hturns : max (x1 - x0).natAbs (y1 - y0).natAbs < turns) :
    ∃ points, (lineBetween x0 y0 x1 y1).1.walk turns (lineBetween x0 y0 x1 y1).2 = some points
      ∧ points.length = max (x1 - x0).natAbs (y1 - y0).natAbs + 1
      ∧ points.getLast? = some (x1, y1) := by
  have hrange : (x1 - x0).natAbs ≤ 2 ^ 32 ∧ (y1 - y0).natAbs ≤ 2 ^ 32 := by
    unfold clampI32 at hx0 hy0 hx1 hy1
    omega
  have hdx := direction_cases x0 x1
  have hdy := direction_cases y0 y1
  have hendx := eq_add_direction x0 x1
  have hendy := eq_add_direction y0 y1
  unfold lineBetween
  dsimp only
  generalize (if x0 < x1 then (1 : Int) else -1) = sx at *
  generalize (if y0 < y1 then (1 : Int) else -1) = sy at *
  generalize (x1 - x0).natAbs = a at *
  generalize (y1 - y0).natAbs = b at *
  rcases Nat.le_total b a with hle | hle
  · have htracked : Tracked ⟨x1, y1, a, -b, sx, sy⟩ a b
        fun steps side error => ⟨x0 + sx * steps, y0 + sy * side, error⟩ := by
      refine ⟨Int.natCast_nonneg b, by omega, ?_, ?_⟩
      · intro steps side error htrack
        have hlow := htrack.low
        have hhigh := htrack.high
        have hdoubled : clampI64 (error * 2) = 2 * error := by
          unfold clampI64
          omega
        simp only [Line.next, hdoubled, ge_iff_le, hlow, if_true]
        split
        · simp only [LinePoint.mk.injEq]
          exact ⟨by ring, by ring, by ring⟩
        · simp only [LinePoint.mk.injEq]
          exact ⟨by ring, trivial, by ring⟩
      · intro steps side error
        show x0 + sx * steps = x1 ∧ y0 + sy * side = y1 ↔ _
        rw [hendx, hendy, Int.add_right_inj, Int.add_right_inj, mul_direction_inj hdx,
          mul_direction_inj hdy]
    have hwalk := htracked.walk_eq a (track_start (Int.natCast_nonneg b) (by omega)) (by omega)
      (show a < turns by omega)
    simpa [Nat.max_eq_left hle, sub_eq_add_neg] using hwalk
  · have htracked : Tracked ⟨x1, y1, a, -b, sx, sy⟩ b a
        fun steps side error => ⟨x0 + sx * side, y0 + sy * steps, -error⟩ := by
      refine ⟨Int.natCast_nonneg a, by omega, ?_, ?_⟩
      · intro steps side error htrack
        have hlow := htrack.low
        have hhigh := htrack.high
        have hdoubled : clampI64 (-error * 2) = -(2 * error) := by
          unfold clampI64
          omega
        have hstep : -(2 * error) ≤ a := by omega
        simp only [Line.next, hdoubled, ge_iff_le, neg_le_neg_iff, hstep, if_true]
        split
        · simp only [LinePoint.mk.injEq]
          exact ⟨by ring, by ring, by ring⟩
        · simp only [LinePoint.mk.injEq]
          exact ⟨trivial, by ring, by ring⟩
      · intro steps side error
        show x0 + sx * side = x1 ∧ y0 + sy * steps = y1 ↔ _
        rw [hendx, hendy, Int.add_right_inj, Int.add_right_inj, mul_direction_inj hdx,
          mul_direction_inj hdy, and_comm]
    have hwalk := htracked.walk_eq b (track_start (Int.natCast_nonneg a) (by omega)) (by omega)
      (show b < turns by omega)
    have herror : (a : Int) + -b = -((b : Int) - a) := by ring
    simpa [Nat.max_eq_right hle, herror] using hwalk

/-- The loop of a line of a frame. -/
theorem walk_scaled {turns : Nat} (hturns : 2 ^ 32 < turns) (scale : Scale) (x1 y1 x2 y2 : Int) :
    ∃ points,
      (lineBetween (scale.x x1) (scale.y y1) (scale.x x2) (scale.y y2)).1.walk turns
        (lineBetween (scale.x x1) (scale.y y1) (scale.x x2) (scale.y y2)).2 = some points
      ∧ points.length
        = max (scale.x x1 - scale.x x2).natAbs (scale.y y1 - scale.y y2).natAbs + 1
      ∧ points.getLast? = some (scale.x x2, scale.y y2) := by
  have hx1 := clampI32_mem ((x1 * scale.width).tdiv scale.logicalWidth)
  have hx2 := clampI32_mem ((x2 * scale.width).tdiv scale.logicalWidth)
  have hy1 := clampI32_mem ((y1 * scale.height).tdiv scale.logicalHeight)
  have hy2 := clampI32_mem ((y2 * scale.height).tdiv scale.logicalHeight)
  rw [← Int.natAbs_neg (scale.x x1 - scale.x x2), ← Int.natAbs_neg (scale.y y1 - scale.y y2),
    neg_sub, neg_sub]
  refine walk_lineBetween (clampI32_of_mem hx1.1 hx1.2) (clampI32_of_mem hy1.1 hy1.2)
    (clampI32_of_mem hx2.1 hx2.2) (clampI32_of_mem hy2.1 hy2.2) ?_
  omega

/-! ## Rectangles, lines and texts -/

theorem length_flatMap_le {α β : Type} {l : List α} {f : α → List β} {n : Nat}
    (h : ∀ a ∈ l, (f a).length ≤ n) : (l.flatMap f).length ≤ l.length * n := by
  have hsum := List.sum_le_card_nsmul (l.map fun a => (f a).length) n (by simpa using h)
  simpa [List.length_flatMap] using hsum

theorem length_pixelGrid_le (left top right bottom : Nat) :
    (pixelGrid left top right bottom).length ≤ (bottom - top) * (right - left) := by
  refine (length_flatMap_le (n := right - left) ?_).trans ?_
  · intro py _
    rw [List.length_map, List.length_range']
  · rw [List.length_range']

/-- The part of an extent that is on the canvas. -/
theorem span_le (x : Int) (length extent : Nat) :
    clampCanvas (x + length) extent - (max x 0).toNat ≤ min length extent := by
  unfold clampCanvas
  omega

theorem span_clamped_le (x : Int) (length extent : Nat) :
    clampCanvas (x + length) extent - clampCanvas x extent ≤ min length extent := by
  unfold clampCanvas
  omega

section

variable {config : WindowConfig} {scale : Scale}

theorem length_fillRect_le (x y : Int) (width height : Nat) (color : Color) :
    (fillRect config scale x y width height color).length
      ≤ min (scale.w width) config.width.toNat * min (scale.h height) config.height.toNat := by
  rw [fillRect, List.length_map, Nat.mul_comm]
  refine (length_pixelGrid_le _ _ _ _).trans (Nat.mul_le_mul ?_ ?_)
  · exact span_le _ _ _
  · exact span_le _ _ _

theorem length_brush_le (radius : Nat) (color : Color) (point : Int × Int) :
    (brush config radius color point).length ≤ (2 * radius + 1) * (2 * radius + 1) := by
  refine (length_flatMap_le (n := 2 * radius + 1) ?_).trans ?_
  · intro row _
    exact (List.length_filterMap_le _ _).trans List.length_range.le
  · rw [List.length_range]

theorem exists_drawLine {turns : Nat} (hturns : 2 ^ 32 < turns) (x1 y1 x2 y2 : Int)
    (hwidth : width ≤ 64) (color : Color) :
    ∃ writes, drawLine config scale turns x1 y1 x2 y2 width color = some writes
      ∧ writes.length ≤ (max (scale.x x1 - scale.x x2).natAbs (scale.y y1 - scale.y y2).natAbs + 1)
        * ((width + 1) * (width + 1)) := by
  obtain ⟨points, hwalk, hlength, -⟩ := walk_scaled hturns scale x1 y1 x2 y2
  have hradius : 2 * (min width 64 / 2) + 1 ≤ width + 1 := by omega
  refine ⟨points.flatMap (brush config (min width 64 / 2) color), ?_, ?_⟩
  · rw [drawLine]
    exact congrArg (Option.map _) hwalk
  · have hpoint : ∀ point ∈ points, (brush config (min width 64 / 2) color point).length
        ≤ (width + 1) * (width + 1) := fun point _ =>
      (length_brush_le _ _ _).trans (Nat.mul_le_mul hradius hradius)
    exact (length_flatMap_le hpoint).trans (by rw [hlength])

theorem length_drawGlyph_le {glyphWidth glyphHeight : Nat} (hwidth : glyphWidth ≤ 16)
    (hheight : glyphHeight ≤ 32) (bits : List Bool) (cursor y : Int) (size : Nat) (color : Color) :
    (drawGlyph config scale glyphWidth glyphHeight bits cursor y size color).length
      ≤ 16 * 32 * (scale.w size * scale.h size) := by
  have hpixel : ∀ row column : Nat, (if bits[row * glyphWidth + column]? = some true then
      fillRect config scale (saturatingAdd cursor (column * size)) (saturatingAdd y (row * size))
        size size color else []).length ≤ scale.w size * scale.h size := by
    intro row column
    split
    · exact (length_fillRect_le _ _ _ _ _).trans
        (Nat.mul_le_mul (Nat.min_le_left _ _) (Nat.min_le_left _ _))
    · exact Nat.zero_le _
  refine (length_flatMap_le (n := 16 * (scale.w size * scale.h size)) ?_).trans ?_
  · intro row _
    refine (length_flatMap_le fun column _ => hpixel row column).trans ?_
    rw [List.length_range]
    exact Nat.mul_le_mul_right _ hwidth
  · rw [List.length_range, Nat.mul_comm 16 32, Nat.mul_assoc]
    exact Nat.mul_le_mul_right _ hheight

/-- The size of a glyph is within the estimate. -/
def fontFits (font : Option ParsedFont) : Prop :=
  font.elim 5 ParsedFont.width ≤ 16 ∧ font.elim 7 ParsedFont.height ≤ 32

theorem length_drawCharacters_le {font : Option ParsedFont} (hfont : fontFits font) (y : Int)
    (size : Nat) (color : Color) (cursor : Int) (text : List Char) :
    (drawCharacters config scale font y size color cursor text).length
      ≤ text.length * (16 * 32 * (scale.w size * scale.h size)) := by
  induction text generalizing cursor with
  | nil => exact Nat.zero_le _
  | cons character rest ih =>
    rw [drawCharacters, List.length_cons, Nat.succ_mul]
    split
    · exact (ih cursor).trans (Nat.le_add_right _ _)
    · rw [List.length_append, Nat.add_comm]
      exact Nat.add_le_add (ih _) (length_drawGlyph_le hfont.1 hfont.2 _ _ _ _ _)

theorem fontFits_of_parseFont {bytes : List UInt8} {font : ParsedFont}
    (h : parseFont bytes = .ok font) : fontFits (some font) := by
  simp only [parseFont, bind_eq_ok, rejectIf_eq_ok, exists_unit, pure_eq_ok, Except.ok.injEq] at h
  obtain ⟨-, hsize, -, rfl⟩ := h
  show (bytes.getD 4 0).toNat ≤ 16 ∧ (bytes.getD 5 0).toNat ≤ 32
  omega

theorem length_drawText_le {text : String} {font : Option (List UInt8)} {x y : Int} {size : Nat}
    {color : Color} {writes : List Write}
    (h : drawText config scale text font x y size color = .ok writes) :
    writes.length ≤ text.toList.length * (16 * 32 * (scale.w size * scale.h size)) := by
  unfold drawText at h
  split at h
  · cases h
    exact Nat.zero_le _
  · rw [bind_eq_ok] at h
    obtain ⟨parsed, hparsed, hwrites⟩ := h
    cases hwrites
    refine length_drawCharacters_le ?_ _ _ _ _ _
    cases font with
    | none =>
      cases hparsed
      exact ⟨by decide, by decide⟩
    | some bytes =>
      obtain ⟨font, hfont, rfl⟩ := map_eq_ok.mp
        (show (parseFont bytes).map some = .ok parsed from hparsed)
      exact fontFits_of_parseFont hfont

/-! ## Images -/

/-- A place of the source is inside of it. -/
theorem scaled_lt {offset length source : Nat} (hoffset : offset < length)
    (hlength : length < 2 ^ 32) (hsource : 0 < source) (hbound : source < 2 ^ 32) :
    offset * source % 2 ^ 64 / length < source := by
  have hlt : offset * source < length * source := Nat.mul_lt_mul_of_pos_right hoffset hsource
  have hword : length * source ≤ 2 ^ 32 * 2 ^ 32 := Nat.mul_le_mul hlength.le hbound.le
  rw [Nat.mod_eq_of_lt (show offset * source < 2 ^ 64 by omega)]
  exact Nat.div_lt_of_lt_mul hlt

theorem exists_blitPixel {source : List UInt8} {sourceWidth sourceHeight height px py : Nat}
    {x y : Int} (hwidth : 0 < sourceWidth ∧ sourceWidth < 2 ^ 32)
    (hheight : 0 < sourceHeight ∧ sourceHeight < 2 ^ 32)
    (hlength : checkedRgbaLen sourceWidth sourceHeight = .ok source.length) (hw : width < 2 ^ 32)
    (hh : height < 2 ^ 32) (hx : x ≤ px ∧ px < x + width) (hy : y ≤ py ∧ py < y + height)
    (hpx : px < 2 ^ 32) (hpy : py < 2 ^ 32) :
    ∃ write, blitPixel source sourceWidth sourceHeight x y width height (px, py) = .ok write := by
  simp only [checkedRgbaLen, bind_eq_ok, rejectIf_eq_ok, exists_unit, pure_eq_ok,
    Except.ok.injEq, not_or, Nat.not_lt] at hlength
  have hsx := scaled_lt (show (px - x).toNat < width by omega) hw hwidth.1 hwidth.2
  have hsy := scaled_lt (show (py - y).toNat < height by omega) hh hheight.1 hheight.2
  unfold blitPixel
  dsimp only
  rw [rejectIf_of_not _ (by omega), rejectIf_of_not _ (by omega), ok_bind, ok_bind]
  generalize (px - x).toNat * sourceWidth % 2 ^ 64 / width = sx at *
  generalize (py - y).toNat * sourceHeight % 2 ^ 64 / height = sy at *
  have hindex : sy * sourceWidth + sx + 1 ≤ sourceWidth * sourceHeight :=
    calc sy * sourceWidth + sx + 1 ≤ sy * sourceWidth + sourceWidth := by omega
      _ = (sy + 1) * sourceWidth := (Nat.succ_mul _ _).symm
      _ ≤ sourceHeight * sourceWidth := Nat.mul_le_mul_right _ hsy
      _ = sourceWidth * sourceHeight := Nat.mul_comm _ _
  unfold wordMax at hlength
  rw [Nat.mod_eq_of_lt (by omega)]
  obtain ⟨r, g, b, a, hpixel⟩ :
      ∃ r g b a, (source.drop ((sy * sourceWidth + sx) * 4)).take 4 = [r, g, b, a] := by
    have hfour : ((source.drop ((sy * sourceWidth + sx) * 4)).take 4).length = 4 := by
      rw [List.length_take, List.length_drop]
      omega
    obtain ⟨r, g, b, a, hpixel⟩ := List.length_eq_four.mp hfour
    exact ⟨r, g, b, a, hpixel⟩
  rw [hpixel]
  dsimp only
  rw [rejectIf_of_not _ (by omega), rejectIf_of_not _ (by omega)]
  exact ⟨_, rfl⟩

theorem mem_pixelGrid {left top right bottom px py : Nat}
    (h : (px, py) ∈ pixelGrid left top right bottom) :
    left ≤ px ∧ px < right ∧ top ≤ py ∧ py < bottom := by
  simp only [pixelGrid, List.mem_flatMap, List.mem_map, List.mem_range'_1, Prod.mk.injEq] at h
  omega

/-- An image of the right length is drawn, with no more writes than its estimate. -/
theorem exists_blit {source : List UInt8} {sourceWidth sourceHeight : Nat}
    (hwidth : 0 < sourceWidth ∧ sourceWidth < 2 ^ 32)
    (hheight : 0 < sourceHeight ∧ sourceHeight < 2 ^ 32)
    (hlength : checkedRgbaLen sourceWidth sourceHeight = .ok source.length) (x y : Int)
    (width height : Nat) :
    ∃ writes, blit config scale source sourceWidth sourceHeight x y width height = .ok writes
      ∧ writes.length
        ≤ min (scale.w width) config.width.toNat * min (scale.h height) config.height.toNat := by
  unfold blit
  dsimp only
  split
  · exact ⟨[], rfl, Nat.zero_le _⟩
  · have hw : scale.w width < 2 ^ 32 := by unfold Scale.w scaleLength; omega
    have hh : scale.h height < 2 ^ 32 := by unfold Scale.h scaleLength; omega
    have hcw := config.width.toNat_lt
    have hch := config.height.toNat_lt
    have hpixel : ∀ place ∈ pixelGrid (clampCanvas (scale.x x) config.width.toNat)
        (clampCanvas (scale.y y) config.height.toNat)
        (clampCanvas (scale.x x + scale.w width) config.width.toNat)
        (clampCanvas (scale.y y + scale.h height) config.height.toNat),
        ∃ write, blitPixel source sourceWidth sourceHeight (scale.x x) (scale.y y) (scale.w width)
          (scale.h height) place = .ok write := by
      rintro ⟨px, py⟩ hplace
      have hgrid := mem_pixelGrid hplace
      unfold clampCanvas at hgrid
      exact exists_blitPixel hwidth hheight hlength hw hh (by omega) (by omega) (by omega)
        (by omega)
    choose! write hwrite using hpixel
    refine ⟨_, mapM_eq_ok hwrite, ?_⟩
    rw [List.length_map, Nat.mul_comm]
    exact (length_pixelGrid_le _ _ _ _).trans
      (Nat.mul_le_mul (span_clamped_le _ _ _) (span_clamped_le _ _ _))

end

/-! ## The budget -/

/-- A product within the budget is exact. -/
theorem saturatingMulWord_eq {a b : Nat} (h : saturatingMulWord a b ≤ maxDrawWorkUnits) :
    saturatingMulWord a b = a * b := by
  unfold saturatingMulWord maxDrawWorkUnits wordMax at *
  omega

theorem saturatingAddWord_eq {a b : Nat} (h : saturatingAddWord a b ≤ maxDrawWorkUnits) :
    saturatingAddWord a b = a + b := by
  unfold saturatingAddWord maxDrawWorkUnits wordMax at *
  omega

/-- The estimate of a line covers its points. -/
theorem line_le_work {distance : Nat} (hwidth : width ≤ 64)
    (hle : saturatingMulWord (saturatingAddWord distance 1)
      (saturatingMulWord (saturatingAddWord width 1) (saturatingAddWord width 1))
        ≤ maxDrawWorkUnits) :
    (distance + 1) * ((width + 1) * (width + 1)) ≤ saturatingMulWord (saturatingAddWord distance 1)
      (saturatingMulWord (saturatingAddWord width 1) (saturatingAddWord width 1)) := by
  have hproduct : (width + 1) * (width + 1) ≤ 65 * 65 := Nat.mul_le_mul (by omega) (by omega)
  have hside : saturatingAddWord width 1 = width + 1 :=
    saturatingAddWord_eq (by unfold saturatingAddWord maxDrawWorkUnits; omega)
  have hbrush : saturatingMulWord (width + 1) (width + 1) = (width + 1) * (width + 1) :=
    saturatingMulWord_eq (by unfold saturatingMulWord maxDrawWorkUnits; omega)
  have hexact := saturatingMulWord_eq hle
  rw [hexact, hside, hbrush] at hle ⊢
  rw [saturatingAddWord_eq ((Nat.le_mul_of_pos_right _ (by positivity)).trans hle)]

/-- The estimate of a text covers its characters. -/
theorem text_le_raster {characters w h : Nat} (hw : w < 2 ^ 32) (hh : h < 2 ^ 32)
    (hle : saturatingMulWord (saturatingMulWord characters (16 * 32))
      (saturatingMulWord (max w 1) (max h 1)) ≤ maxDrawWorkUnits) :
    characters * (16 * 32 * (w * h)) ≤ saturatingMulWord (saturatingMulWord characters (16 * 32))
      (saturatingMulWord (max w 1) (max h 1)) := by
  have hproduct : max w 1 * max h 1 ≤ (2 ^ 32 - 1) * (2 ^ 32 - 1) :=
    Nat.mul_le_mul (by omega) (by omega)
  have hpositive : 0 < max w 1 * max h 1 := Nat.mul_pos (by omega) (by omega)
  have hglyph : saturatingMulWord (max w 1) (max h 1) = max w 1 * max h 1 := by
    unfold saturatingMulWord wordMax
    omega
  have hexact := saturatingMulWord_eq hle
  rw [hexact, hglyph] at hle ⊢
  have hcharacters : saturatingMulWord characters (16 * 32) = characters * (16 * 32) :=
    saturatingMulWord_eq ((Nat.le_mul_of_pos_right _ hpositive).trans hle)
  rw [hcharacters, ← Nat.mul_assoc]
  exact Nat.mul_le_mul_left _ (Nat.mul_le_mul (by omega) (by omega))

section

variable {config : WindowConfig} {frame : FrameDocument} {assets : Assets} {turns : Nat}

/-- A command makes no more writes than its estimate, and its loops end. -/
theorem length_drawCommand_le (hturns : 2 ^ 32 < turns) {command : DrawCommand} {work : Nat}
    (hwork : commandWork frame config command = .ok work) (hle : work ≤ maxDrawWorkUnits) :
    drawCommand config (frame.scale config) assets turns command ≠ .error .unfinished
      ∧ ∀ writes, drawCommand config (frame.scale config) assets turns command = .ok writes →
        writes.length ≤ work := by
  have hextent : ∀ value, (frame.scale config).w value < 2 ^ 32
      ∧ (frame.scale config).h value < 2 ^ 32 := by
    intro value
    unfold Scale.w Scale.h scaleLength
    omega
  have hmapError : ∀ {x : Except MediaError (List Write)},
      (mapError .error x : Except DrawFailure _) ≠ .error .unfinished := by
    rintro (_ | _) <;> simp [mapError]
  cases command with
  | clear color =>
    refine ⟨by simp [drawCommand], ?_⟩
    rintro _ ⟨⟩
    cases hwork
    rw [clear, List.length_map, List.length_range, Nat.mul_div_cancel _ (by decide)]
  | rect x y width height color =>
    refine ⟨by simp [drawCommand], ?_⟩
    rintro _ ⟨⟩
    cases hwork
    rw [saturatingMulWord_eq hle]
    exact length_fillRect_le _ _ _ _ _
  | line x1 y1 x2 y2 width color =>
    simp only [commandWork, bind_eq_ok, rejectIf_eq_ok, exists_unit, pure_eq_ok,
      Except.ok.injEq, not_or, Nat.not_lt] at hwork
    obtain ⟨hwidth, -, -, -, -, rfl⟩ := hwork
    obtain ⟨writes, hdraw, hlength⟩ := @exists_drawLine _ config (frame.scale config) _ hturns
      x1.toInt y1.toInt x2.toInt y2.toInt hwidth.2 color
    rw [drawCommand, hdraw]
    refine ⟨by simp [okOr], ?_⟩
    rintro _ ⟨⟩
    exact hlength.trans (line_le_work hwidth.2 hle)
  | image path sourceWidth sourceHeight x y width height =>
    refine ⟨hmapError, ?_⟩
    intro writes hdraw
    cases hwork
    simp only [drawCommand, mapError_eq_ok, bind_eq_ok, rejectIf_eq_ok, exists_unit, okOr_eq_ok,
      not_or, not_not] at hdraw
    obtain ⟨-, hpositive, bytes, -, expected, hexpected, ⟨hbytes, -⟩, hblit⟩ := hdraw
    rw [← hbytes] at hexpected
    obtain ⟨_, hok, hlength⟩ := @exists_blit config (frame.scale config) _ _ _
      ⟨by omega, sourceWidth.toNat_lt⟩ ⟨by omega, sourceHeight.toNat_lt⟩ hexpected x.toInt y.toInt
      width.toNat height.toNat
    cases hblit.symm.trans hok
    rw [saturatingMulWord_eq hle]
    exact hlength
  | text text font x y textScale color =>
    refine ⟨hmapError, ?_⟩
    intro writes hdraw
    simp only [commandWork, bind_eq_ok, exists_unit, pure_eq_ok, Except.ok.injEq] at hwork
    obtain ⟨-, -, rfl⟩ := hwork
    simp only [drawCommand, mapError_eq_ok, bind_eq_ok, rejectIf_eq_ok, exists_unit] at hdraw
    obtain ⟨-, fontBytes, -, htext⟩ := hdraw
    have hexact := saturatingAddWord_eq hle
    rw [hexact] at hle ⊢
    have hraster := (Nat.le_add_right _ _).trans hle
    refine (length_drawText_le htext).trans ((text_le_raster ?_ ?_ hraster).trans ?_)
    · exact (hextent _).1
    · exact (hextent _).2
    · exact Nat.le_add_right _ _

/-- The loop over the commands, after some work. -/
theorem length_drawCommands_le (hturns : 2 ^ 32 < turns) {commands : List DrawCommand}
    {work last : Nat} (hcharge : commands.foldlM (chargeCommand frame config) work = .ok last)
    (hwork : work ≤ maxDrawWorkUnits) :
    work + (drawCommands config (frame.scale config) assets turns commands).1.length
        ≤ maxDrawWorkUnits
      ∧ (drawCommands config (frame.scale config) assets turns commands).2
        ≠ some .unfinished := by
  induction commands generalizing work with
  | nil => exact ⟨hwork, nofun⟩
  | cons command rest ih =>
    rw [List.foldlM_cons, bind_eq_ok] at hcharge
    obtain ⟨after, hafter, hrest⟩ := hcharge
    simp only [chargeCommand, bind_eq_ok, rejectIf_eq_ok, exists_unit, pure_eq_ok,
      Except.ok.injEq, Nat.not_lt] at hafter
    obtain ⟨cost, hcost, hbudget, -, rfl⟩ := hafter
    obtain ⟨hlength, hends⟩ := ih hrest hbudget
    rw [saturatingAddWord_eq hbudget] at hlength
    have hsum : work + cost ≤ maxDrawWorkUnits := (Nat.le_add_right _ _).trans hlength
    obtain ⟨hfinished, hwrites⟩ := @length_drawCommand_le config frame assets turns hturns
      command cost hcost ((Nat.le_add_left _ _).trans hsum)
    rw [drawCommands]
    cases hdraw : drawCommand config (frame.scale config) assets turns command with
    | error failure =>
      refine ⟨hwork, ?_⟩
      rintro ⟨⟩
      exact hfinished hdraw
    | ok writes =>
      have hcommand := hwrites writes hdraw
      refine ⟨?_, hends⟩
      rw [List.length_append]
      omega

/-- The commands of a frame that is accepted make no more pixel writes than the budget, whatever its
assets are, and come to an end or to an error of a check. The loop of every line stops at its end
point, after one point for each step along its longer axis and one more. An image whose asset has the
length of its size is drawn without an error. -/
theorem drawCommands_bounded (h : validateDrawWork frame config = .ok ()) (hturns : 2 ^ 32 < turns) :
    (drawCommands config (frame.scale config) assets turns frame.commands).1.length
        ≤ maxDrawWorkUnits
      ∧ (drawCommands config (frame.scale config) assets turns frame.commands).2
        ≠ some .unfinished
      ∧ (∀ (x1 y1 x2 y2 : Int32), let scale := frame.scale config
        let line := lineBetween (scale.x x1.toInt) (scale.y y1.toInt) (scale.x x2.toInt)
          (scale.y y2.toInt)
        ∃ points, line.1.walk turns line.2 = some points
          ∧ points.length = max (scale.x x1.toInt - scale.x x2.toInt).natAbs
            (scale.y y1.toInt - scale.y y2.toInt).natAbs + 1
          ∧ points.getLast? = some (scale.x x2.toInt, scale.y y2.toInt))
      ∧ ∀ (source : List UInt8) (sourceWidth sourceHeight : UInt32) (x y : Int32)
        (width height : UInt32), 0 < sourceWidth.toNat → 0 < sourceHeight.toNat →
        checkedRgbaLen sourceWidth.toNat sourceHeight.toNat = .ok source.length →
        ∃ writes, blit config (frame.scale config) source sourceWidth.toNat sourceHeight.toNat
          x.toInt y.toInt width.toNat height.toNat = .ok writes := by
  simp only [validateDrawWork, bind_eq_ok, pure_eq_ok, and_true] at h
  obtain ⟨last, hcharge⟩ := h
  obtain ⟨hlength, hends⟩ :=
    @length_drawCommands_le config frame assets turns hturns _ 0 last hcharge (Nat.zero_le _)
  refine ⟨by rwa [Nat.zero_add] at hlength, hends, ?_, ?_⟩
  · intro x1 y1 x2 y2
    exact walk_scaled hturns _ _ _ _ _
  · intro source sourceWidth sourceHeight x y width height hwidth hheight hexpected
    obtain ⟨writes, hwrites, -⟩ := @exists_blit config (frame.scale config) _ _ _
      ⟨hwidth, sourceWidth.toNat_lt⟩ ⟨hheight, sourceHeight.toNat_lt⟩ hexpected x.toInt y.toInt
      width.toNat height.toNat
    exact ⟨writes, hwrites⟩

end

/-- A line across a window, and a text. -/
def demoFrame : FrameDocument where
  logicalWidth := 320
  logicalHeight := 240
  commands := [.clear ⟨1, 2, 3, 255⟩, .line 0 0 319 200 3 ⟨9, 9, 9, 255⟩,
    .text "ok" none 4 4 2 ⟨200, 40, 80, 180⟩]

theorem drawCommands_demoFrame :
    validateDrawWork demoFrame ⟨32, 24⟩ = .ok ()
      ∧ (drawCommands ⟨32, 24⟩ (demoFrame.scale ⟨32, 24⟩) ⟨fun _ => none, 0⟩ (2 ^ 32 + 1)
        demoFrame.commands).1.length ≤ maxDrawWorkUnits :=
  ⟨by decide +kernel, (drawCommands_bounded (by decide +kernel) (Nat.lt_succ_self _)).1⟩

end CartridgeRuntime.Media
