import DocumentIntelligence.PageTransforms
import Mathlib.Algebra.Order.Floor.Defs
import Mathlib.Tactic.FieldSimp
import Mathlib.Analysis.SpecialFunctions.Trigonometric.Basic

/-!
# Deskewed pixels and deskewed coordinates

The resampler rotates about the middle of the pixels, the recorded transform
about the middle of the page with both sides taken as one. The estimate of the
angle is a parameter.
-/

set_option autoImplicit false

namespace DocumentIntelligence.Deskew
open PlaneMaps PageTransforms

/-- `image::GrayImage` -/
structure GrayImage where
  width : ℕ
  height : ℕ
  getPixel : ℕ → ℕ → UInt8

section Field
variable {K : Type*} [Field K] [LinearOrder K] [IsStrictOrderedRing K]

/-- The place in the source which `rotate_bilinear` samples for a pixel. -/
def sourceLocation (trig : Trig K) (width height : ℕ) (angle : DeskewAngle K) (x y : ℕ) : K×K :=
  let cosine := trig.cosine angle.degrees
  let sine := trig.sine angle.degrees
  let centerX := ((width-1 : ℕ) : K)/2
  let centerY := ((height-1 : ℕ) : K)/2
  let translatedX := (x : K)-centerX
  let translatedY := (y : K)-centerY
  (centerX+cosine*translatedX+sine*translatedY,centerY-sine*translatedX+cosine*translatedY)

section Pixels
variable [FloorRing K]

/-- `f64::round` and `as u8` of a number which is not negative. -/
def roundLuma (value : K) : UInt8 := UInt8.ofNat (min ⌊value+1/2⌋.toNat 255)

def luma (source : GrayImage) (x y : ℕ) : K := ((source.getPixel x y).toNat : K)

/-- Outside of the source the page is white. -/
def bilinearLuma (source : GrayImage) (x y : K) : UInt8 :=
  let maximumX := ((source.width-1 : ℕ) : K)
  let maximumY := ((source.height-1 : ℕ) : K)
  if x < 0 ∨ y < 0 ∨ maximumX < x ∨ maximumY < y then 255
  else
    let left := ⌊x⌋.toNat
    let top := ⌊y⌋.toNat
    let right := min (left+1) (source.width-1)
    let bottom := min (top+1) (source.height-1)
    let horizontal := x-(left : K)
    let vertical := y-(top : K)
    let topValue := luma source left top*(1-horizontal)+luma source right top*horizontal
    let bottomValue := luma source left bottom*(1-horizontal)+luma source right bottom*horizontal
    roundLuma (topValue*(1-vertical)+bottomValue*vertical)

def rotateBilinear (trig : Trig K) (source : GrayImage) (angle : DeskewAngle K) : GrayImage where
  width := source.width
  height := source.height
  getPixel x y :=
    let (sourceX,sourceY) := sourceLocation trig source.width source.height angle x y
    bilinearLuma source sourceX sourceY

end Pixels

/-! ### The two rotations compared -/

/-- The centre of a pixel, or a place between pixels, in the page. -/
def normalized (width height : ℕ) (p : K×K) : K×K :=
  ((p.1+1/2)/(width : K),(p.2+1/2)/(height : K))

/-- The chain of a deskewed page without any other transform. -/
def deskewOnly (angle : DeskewAngle K) : TransformChain K := TransformChain.new.pushDeskew angle

/-- What the recorded transform says of a pixel of the deskewed image, while it
stays inside the page, is where the pixel was sampled. -/
def Agrees (trig : Trig K) (angle : DeskewAngle K) (width height x y : ℕ) : Prop :=
  ∀ q, (deskewOnly angle).mapToOriginal trig (normalized width height ((x : K),(y : K))).1
      (normalized width height ((x : K),(y : K))).2 = .ok q →
    q = normalized width height (sourceLocation trig width height angle x y)

variable (trig : Trig K)

/-- The offset of a pixel from the centre of the page. -/
def offset (size x : ℕ) : K := ((x : K)-((size-1 : ℕ) : K)/2)/(size : K)

omit [LinearOrder K] [IsStrictOrderedRing K] in
theorem cast_pred (size : ℕ) (h : 1 ≤ size) : ((size-1 : ℕ) : K) = (size : K)-1 := by
  rw [Nat.cast_sub h, Nat.cast_one]

theorem normalized_offset (width height x y : ℕ) (hw : 1 ≤ width) (hh : 1 ≤ height) :
    normalized width height ((x : K),(y : K)) = (1/2+offset width x,1/2+offset height y) := by
  have hw' : (width : K) ≠ 0 := Nat.cast_ne_zero.mpr (by omega)
  have hh' : (height : K) ≠ 0 := Nat.cast_ne_zero.mpr (by omega)
  simp only [normalized, offset, cast_pred width hw, cast_pred height hh]
  ext
  · field_simp
    ring
  · field_simp
    ring

theorem source_offset (angle : DeskewAngle K) (width height x y : ℕ)
    (hw : 1 ≤ width) (hh : 1 ≤ height) :
    normalized width height (sourceLocation trig width height angle x y) =
      (1/2+trig.cosine angle.degrees*offset width x+
          trig.sine angle.degrees*((height : K)/(width : K)*offset height y),
        1/2-trig.sine angle.degrees*((width : K)/(height : K)*offset width x)+
          trig.cosine angle.degrees*offset height y) := by
  have hw' : (width : K) ≠ 0 := Nat.cast_ne_zero.mpr (by omega)
  have hh' : (height : K) ≠ 0 := Nat.cast_ne_zero.mpr (by omega)
  simp only [normalized, sourceLocation, offset, cast_pred width hw, cast_pred height hh]
  ext
  · field_simp
    ring
  · field_simp
    ring

omit [IsStrictOrderedRing K] in
theorem toOriginal_offset (angle : DeskewAngle K) (u v : K) :
    (TransformStep.deskew angle).toOriginal trig (1/2+u,1/2+v) =
      (1/2+trig.cosine angle.degrees*u+trig.sine angle.degrees*v,
        1/2-trig.sine angle.degrees*u+trig.cosine angle.degrees*v) := by
  simp only [TransformStep.toOriginal, add_sub_cancel_left]

theorem deskewOnly_affine (angle : DeskewAngle K) (p : K×K) :
    ((deskewOnly angle).affine trig).apply p = (TransformStep.deskew angle).toOriginal trig p := by
  rw [toOriginal_affine]
  show ((TransformStep.affine trig (.deskew angle)).comp Affine.id).apply p = _
  rw [apply_comp, apply_id]

/-- Equal sides or an angle without a sine make one rotation of the two. -/
theorem agrees_of (angle : DeskewAngle K) (width height x y : ℕ)
    (hw : 1 ≤ width) (hh : 1 ≤ height)
    (h : trig.sine angle.degrees = 0 ∨ width = height) :
    Agrees trig angle width height x y := by
  intro q hq
  have hq' := (mapToOriginal_ok trig _ _ _ q hq).2.2
  rw [deskewOnly_affine, normalized_offset width height x y hw hh, toOriginal_offset] at hq'
  rw [hq', source_offset trig angle width height x y hw hh]
  by_cases hs : trig.sine angle.degrees = 0
  · simp only [hs, zero_mul]
  · have hsame := h.resolve_left hs
    subst height
    rw [div_self (Nat.cast_ne_zero.mpr (by omega) : (width : K) ≠ 0), one_mul, one_mul]

/-- A pixel near the centre on which the two rotations agree lies on it, or the
angle has no sine, or the sides are equal. -/
theorem agrees_near (angle : DeskewAngle K) (width height x y : ℕ)
    (hw : 1 ≤ width) (hh : 1 ≤ height)
    (hnear : (offset width x : K)^2+(offset height y : K)^2 ≤ 1/4)
    (hside : (offset width x : K)^2 ≤ 1/4 ∧ (offset height y : K)^2 ≤ 1/4)
    (h : Agrees trig angle width height x y) :
    (trig.sine angle.degrees = 0 ∨ width = height) ∨
      (offset width x : K) = 0 ∧ (offset height y : K) = 0 := by
  have hw' : (width : K) ≠ 0 := Nat.cast_ne_zero.mpr (by omega)
  have hh' : (height : K) ≠ 0 := Nat.cast_ne_zero.mpr (by omega)
  have hx := abs_le.mp (abs_le_of_sq_le_sq (by linarith [hside.1] :
    (offset width x : K)^2 ≤ (1/2)^2) (by norm_num))
  have hy := abs_le.mp (abs_le_of_sq_le_sq (by linarith [hside.2] :
    (offset height y : K)^2 ≤ (1/2)^2) (by norm_num))
  have hin : InSquare (1/2+(offset width x : K),1/2+(offset height y : K)) := by
    constructor <;> constructor <;> linarith
  have hmap := mapToOriginal_of_inside trig (deskewOnly angle) _ hin
  rw [deskewOnly_affine, if_pos (deskew_inSquare trig angle _ _ hnear), toOriginal_offset] at hmap
  have hagree := h _ (by rw [normalized_offset width height x y hw hh]; exact hmap)
  rw [source_offset trig angle width height x y hw hh, Prod.mk.injEq] at hagree
  have hfirst : trig.sine angle.degrees*(((width : K)-(height : K))*offset height y) = 0 := by
    have hsame : trig.sine angle.degrees*offset height y =
        trig.sine angle.degrees*((height : K)/(width : K)*offset height y) := by
      linarith [hagree.1]
    field_simp at hsame
    linarith
  have hsecond : trig.sine angle.degrees*(((width : K)-(height : K))*offset width x) = 0 := by
    have hsame : trig.sine angle.degrees*offset width x =
        trig.sine angle.degrees*((width : K)/(height : K)*offset width x) := by
      linarith [hagree.2]
    field_simp at hsame
    linarith
  by_cases hs : trig.sine angle.degrees = 0
  · exact Or.inl (Or.inl hs)
  by_cases hsides : width = height
  · exact Or.inl (Or.inr hsides)
  · have hne : (width : K)-(height : K) ≠ 0 :=
      sub_ne_zero.mpr fun heq => hsides (Nat.cast_injective heq)
    refine Or.inr ⟨?_, ?_⟩
    · exact ((mul_eq_zero.mp hsecond).resolve_left hs |> mul_eq_zero.mp).resolve_left hne
    · exact ((mul_eq_zero.mp hfirst).resolve_left hs |> mul_eq_zero.mp).resolve_left hne

/-! ### A pixel beside the centre -/

/-- Even sides have no pixel in their middle, odd ones have. -/
theorem offset_middle (size : ℕ) (h : 1 ≤ size) : (offset size (size/2) : K)^2 ≤ 1/16 := by
  have hsize : (1 : K) ≤ (size : K) := by exact_mod_cast h
  rcases Nat.even_or_odd' size with ⟨k, heven | hodd⟩
  · have hk : size/2 = k := by omega
    have hoff : (offset size (size/2) : K) = 1/(2*(size : K)) := by
      rw [offset, cast_pred size h, hk]
      have hcast : (size : K) = 2*(k : K) := by rw [heven]; push_cast; ring
      rw [hcast] at hsize ⊢
      have hk0 : (k : K) ≠ 0 := fun h0 => by rw [h0] at hsize; linarith
      field_simp
      ring
    have htwo : (2 : K) ≤ (size : K) := by exact_mod_cast (by omega : 2 ≤ size)
    rw [hoff, div_pow, one_pow]
    exact one_div_le_one_div_of_le (by norm_num) (by nlinarith)
  · have hk : size/2 = k := by omega
    have hcast : (size : K) = 2*(k : K)+1 := by rw [hodd]; push_cast; ring
    have hoff : (offset size (size/2) : K) = 0 := by
      rw [offset, cast_pred size h, hk, hcast]
      ring
    rw [hoff]
    norm_num

/-- The pixel before the middle is off the centre, by a third of the side at most. -/
theorem offset_beside (size : ℕ) (h : 2 ≤ size) :
    (offset size (size/2-1) : K) ≠ 0 ∧ (offset size (size/2-1) : K)^2 ≤ 1/9 := by
  have hsize : (2 : K) ≤ (size : K) := by exact_mod_cast h
  have hsize0 : (size : K) ≠ 0 := by linarith
  have hbefore : ((size/2-1 : ℕ) : K) = ((size/2 : ℕ) : K)-1 := cast_pred _ (by omega)
  rcases Nat.even_or_odd' size with ⟨k, heven | hodd⟩
  · have hk : size/2 = k := by omega
    have hcast : (k : K) = (size : K)/2 := by rw [heven]; push_cast; ring
    have hoff : (offset size (size/2-1) : K) = -(1/(2*(size : K))) := by
      rw [offset, cast_pred size (by omega), hbefore, hk, hcast]
      field_simp
      ring
    rw [hoff]
    refine ⟨neg_ne_zero.mpr (one_div_ne_zero (by positivity)), ?_⟩
    rw [neg_sq, div_pow, one_pow]
    exact one_div_le_one_div_of_le (by norm_num) (by nlinarith)
  · have hk : size/2 = k := by omega
    have hthree : (3 : K) ≤ (size : K) := by exact_mod_cast (by omega : 3 ≤ size)
    have hcast : (k : K) = ((size : K)-1)/2 := by rw [hodd]; push_cast; ring
    have hoff : (offset size (size/2-1) : K) = -(1/(size : K)) := by
      rw [offset, cast_pred size (by omega), hbefore, hk, hcast]
      field_simp
      ring
    rw [hoff]
    refine ⟨neg_ne_zero.mpr (one_div_ne_zero hsize0), ?_⟩
    rw [neg_sq, div_pow, one_pow]
    exact one_div_le_one_div_of_le (by norm_num) (by nlinarith)

/-- The recorded transform of an image describes the resampling of all its pixels
exactly when the angle has no sine, the sides are equal, or there is no pixel. -/
theorem agrees_iff (angle : DeskewAngle K) (width height : ℕ) :
    (∀ x < width, ∀ y < height, Agrees trig angle width height x y) ↔
      trig.sine angle.degrees = 0 ∨ width = height ∨ width = 0 ∨ height = 0 := by
  constructor
  · intro h
    by_cases hw : width = 0
    · exact Or.inr (Or.inr (Or.inl hw))
    by_cases hh : height = 0
    · exact Or.inr (Or.inr (Or.inr hh))
    by_cases htall : 2 ≤ height
    · have hx := offset_middle (K := K) width (by omega)
      have hy := offset_beside (K := K) height htall
      have hnear := agrees_near trig angle width height (width/2) (height/2-1) (by omega)
        (by omega) (by linarith [hy.2]) ⟨by linarith, by linarith [hy.2]⟩
        (h _ (by omega) _ (by omega))
      exact (hnear.resolve_right fun hzero => hy.1 hzero.2).imp_right Or.inl
    by_cases hwide : 2 ≤ width
    · have hx := offset_beside (K := K) width hwide
      have hy := offset_middle (K := K) height (by omega)
      have hnear := agrees_near trig angle width height (width/2-1) (height/2) (by omega)
        (by omega) (by linarith [hx.2]) ⟨by linarith [hx.2], by linarith⟩
        (h _ (by omega) _ (by omega))
      exact (hnear.resolve_right fun hzero => hx.1 hzero.1).imp_right Or.inl
    · exact Or.inr (Or.inl (by omega))
  · intro h x hx y hy
    exact agrees_of trig angle width height x y (by omega) (by omega)
      (h.imp_right fun hsides => hsides.resolve_right (by omega))

end Field

/-! ### The angles of the program -/

/-- The sine and cosine of the real numbers. -/
noncomputable def realTrig : Trig ℝ where
  cosine degrees := Real.cos (degrees*(Real.pi/180))
  sine degrees := Real.sin (degrees*(Real.pi/180))
  unit _ := Real.cos_sq_add_sin_sq _

theorem sine_pos (angle : DeskewAngle ℝ) (h : 0 < angle.degrees) :
    0 < realTrig.sine angle.degrees := by
  have hbounds := angle.bounds
  have hpi := Real.pi_pos
  exact Real.sin_pos_of_pos_of_lt_pi (by positivity) (by nlinarith [hbounds.2])

theorem cosine_pos (angle : DeskewAngle ℝ) : 0 < realTrig.cosine angle.degrees := by
  have hbounds := angle.bounds
  have hpi := Real.pi_pos
  exact Real.cos_pos_of_mem_Ioo ⟨by nlinarith [hbounds.1],by nlinarith [hbounds.2]⟩

def sixDegrees : DeskewAngle ℝ := ⟨6,decide_eq_true (by norm_num [maximumDeskewDegrees])⟩

theorem square_page_agrees : Agrees realTrig sixDegrees 256 256 128 127 :=
  (agrees_iff realTrig sixDegrees 256 256).mpr (Or.inr (Or.inl rfl)) 128 (by omega) 127 (by omega)

/-- A page of 512 by 256 pixels, turned by six degrees: the pixel beside the centre
is not where the recorded transform says. -/
theorem wide_page_disagrees : ¬Agrees realTrig sixDegrees 512 256 256 127 := by
  intro h
  have hsine := sine_pos sixDegrees (by norm_num [sixDegrees])
  have hx : (offset 512 256 : ℝ) = 1/1024 := by norm_num [offset]
  have hy : (offset 256 127 : ℝ) = -(1/512) := by norm_num [offset]
  have hnear := agrees_near realTrig sixDegrees 512 256 256 127 (by omega) (by omega)
    (by rw [hx, hy]; norm_num) (by rw [hx, hy]; norm_num) h
  rcases hnear with (hzero | hsides) | hcentre
  · exact hsine.ne' hzero
  · omega
  · rw [hx] at hcentre
    norm_num at hcentre

end DocumentIntelligence.Deskew
