import Mathlib.Algebra.Order.Field.Basic
import Mathlib.Algebra.BigOperators.Group.List.Basic
import Mathlib.Tactic.Ring
import Mathlib.Tactic.Linarith

/-!
# Affine maps of the plane

Points are pairs over a field. An affine map has a determinant, and the signed
area which a closed path encloses is multiplied by it.
-/

set_option autoImplicit false

namespace DocumentIntelligence.PlaneMaps

/-- The numeral of the halves and the squares below. -/
instance two_atLeastTwo : Nat.AtLeastTwo 2 := ⟨le_rfl⟩

/-- `(x,y)` goes to `(xx*x+xy*y+x0, yx*x+yy*y+y0)`. -/
@[ext] structure Affine (K : Type*) where
  xx : K
  xy : K
  x0 : K
  yx : K
  yy : K
  y0 : K
  deriving DecidableEq, Repr

section Maps
variable {K : Type*} [CommRing K]

def Affine.apply (m : Affine K) (p : K×K) : K×K :=
  (m.xx*p.1+m.xy*p.2+m.x0,m.yx*p.1+m.yy*p.2+m.y0)

def Affine.id : Affine K := ⟨1,0,0,0,1,0⟩

/-- The map which applies `n` first. -/
def Affine.comp (m n : Affine K) : Affine K where
  xx := m.xx*n.xx+m.xy*n.yx
  xy := m.xx*n.xy+m.xy*n.yy
  x0 := m.xx*n.x0+m.xy*n.y0+m.x0
  yx := m.yx*n.xx+m.yy*n.yx
  yy := m.yx*n.xy+m.yy*n.yy
  y0 := m.yx*n.x0+m.yy*n.y0+m.y0

def Affine.det (m : Affine K) : K := m.xx*m.yy-m.xy*m.yx

@[simp] theorem apply_id (p : K×K) : Affine.id.apply p = p := by
  simp [Affine.apply, Affine.id]

@[simp] theorem apply_comp (m n : Affine K) (p : K×K) :
    (m.comp n).apply p = m.apply (n.apply p) := by
  ext
  · simp only [Affine.apply, Affine.comp]
    ring
  · simp only [Affine.apply, Affine.comp]
    ring

@[simp] theorem det_id : (Affine.id : Affine K).det = 1 := by simp [Affine.det, Affine.id]

@[simp] theorem det_comp (m n : Affine K) : (m.comp n).det = m.det*n.det := by
  simp only [Affine.det, Affine.comp]
  ring

/-- A list of maps, the last one applied first. -/
def chain (maps : List (Affine K)) : Affine K := maps.foldr Affine.comp Affine.id

@[simp] theorem chain_nil : chain ([] : List (Affine K)) = Affine.id := rfl

@[simp] theorem chain_cons (m : Affine K) (maps : List (Affine K)) :
    chain (m::maps) = m.comp (chain maps) := rfl

theorem chain_append (maps others : List (Affine K)) (p : K×K) :
    (chain (maps++others)).apply p = (chain maps).apply ((chain others).apply p) := by
  induction maps with
  | nil => simp
  | cons m maps ih => simp [ih]

/-- A list of maps with determinants of square one has such a determinant. -/
theorem det_chain_sq (maps : List (Affine K)) (h : ∀ m ∈ maps, m.det^2 = 1) :
    (chain maps).det^2 = 1 := by
  induction maps with
  | nil => simp
  | cons m maps ih =>
    rw [chain_cons, det_comp, mul_pow, h m List.mem_cons_self,
      ih fun n hn => h n (List.mem_cons_of_mem m hn), one_mul]

/-! ### Enclosed areas -/

def cross (p q : K×K) : K := p.1*q.2-q.1*p.2

/-- Twice the signed area which the closed path encloses. -/
def doubledArea (points : List (K×K)) : K :=
  ((points.zip (points.drop 1++points.take 1)).map fun (p,q) => cross p q).sum

/-- The part of the sum from one corner to another one. -/
def pathArea : K×K → List (K×K) → K×K → K
  | p,[],last => cross p last
  | p,q::points,last => cross p q+pathArea q points last

theorem zip_cross (p last : K×K) (points : List (K×K)) :
    (((p::points).zip (points++[last])).map fun (p,q) => cross p q).sum =
      pathArea p points last := by
  induction points generalizing p with
  | nil => simp [pathArea]
  | cons q points ih =>
    rw [List.cons_append, List.zip_cons_cons, List.map_cons, List.sum_cons, ih q, pathArea]

theorem doubledArea_cons (p : K×K) (points : List (K×K)) :
    doubledArea (p::points) = pathArea p points p := zip_cross p p points

/-- What a translated path adds, which depends on its ends only. -/
def Affine.drift (m : Affine K) (p : K×K) : K :=
  m.x0*(m.yx*p.1+m.yy*p.2)-m.y0*(m.xx*p.1+m.xy*p.2)

theorem cross_apply (m : Affine K) (p q : K×K) :
    cross (m.apply p) (m.apply q) = m.det*cross p q+(m.drift q-m.drift p) := by
  simp only [cross, Affine.apply, Affine.det, Affine.drift]
  ring

theorem pathArea_map (m : Affine K) (p last : K×K) (points : List (K×K)) :
    pathArea (m.apply p) (points.map m.apply) (m.apply last) =
      m.det*pathArea p points last+(m.drift last-m.drift p) := by
  induction points generalizing p with
  | nil => exact cross_apply m p last
  | cons q points ih =>
    rw [List.map_cons, pathArea, ih q, cross_apply, pathArea]
    ring

theorem doubledArea_map (m : Affine K) (points : List (K×K)) :
    doubledArea (points.map m.apply) = m.det*doubledArea points := by
  by_cases h : points = []
  · simp [h, doubledArea]
  · have hp : points = points.head h::points.tail := (List.cons_head_tail h).symm
    rw [hp, List.map_cons, doubledArea_cons, doubledArea_cons, pathArea_map]
    ring

/-- The corners of a rectangle, from its first one around. -/
def corners (left top right bottom : K) : List (K×K) :=
  [(left,top),(right,top),(right,bottom),(left,bottom)]

theorem doubledArea_corners (left top right bottom : K) :
    doubledArea (corners left top right bottom) = 2*((right-left)*(bottom-top)) := by
  rw [corners, doubledArea_cons]
  simp only [pathArea, cross]
  ring

end Maps

section Ordered
variable {K : Type*} [Field K] [LinearOrder K] [IsStrictOrderedRing K]

/-- The point lies in the unit square. -/
def InSquare (p : K×K) : Prop := (0 ≤ p.1 ∧ p.1 ≤ 1) ∧ 0 ≤ p.2 ∧ p.2 ≤ 1

instance (p : K×K) : Decidable (InSquare p) := inferInstanceAs (Decidable (_ ∧ _))

theorem abs_doubledArea_map (m : Affine K) (points : List (K×K)) (h : m.det^2 = 1) :
    |doubledArea (points.map m.apply)| = |doubledArea points| := by
  have hdet : |m.det| = |1| := (sq_eq_sq_iff_abs_eq_abs m.det 1).mp (by rw [h, one_pow])
  rw [abs_one] at hdet
  rw [doubledArea_map, abs_mul, hdet, one_mul]

end Ordered

end DocumentIntelligence.PlaneMaps
