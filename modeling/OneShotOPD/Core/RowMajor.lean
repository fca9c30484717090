import Mathlib.Algebra.BigOperators.Group.List.Basic
import Mathlib.Data.List.Forall2
import Mathlib.Tactic.Common
import Mathlib.Tactic.Ring

/-!
# Row-major positions

The position of an element in a contiguous tensor is a number in mixed radix,
whose digits are the coordinates of the element.  A rectangular block of a
tensor has positions of its own, and the map from them to the positions of the
whole tensor shifts the digits.
-/

namespace OneShotOPD.RowMajor

/-- The position of the element at some coordinates. -/
def ravel : List ℕ → List ℕ → ℕ
  | _ :: shape, coord :: coords => coord * shape.prod + ravel shape coords
  | _, _ => 0

/-- The coordinates of the element at a position. -/
def unravel : List ℕ → ℕ → List ℕ
  | [], _ => []
  | _ :: shape, position => position / shape.prod :: unravel shape (position % shape.prod)

def InBounds (shape coords : List ℕ) : Prop :=
  List.Forall₂ (fun coord size => coord < size) coords shape

theorem ravel_lt {shape coords : List ℕ} (hbounds : InBounds shape coords) :
    ravel shape coords < shape.prod := by
  induction hbounds with
  | nil => simp [ravel]
  | @cons coord size coords shape hcoord _ ih =>
      rw [ravel, List.prod_cons]
      calc
        coord * shape.prod + ravel shape coords < coord * shape.prod + shape.prod :=
          Nat.add_lt_add_left ih _
        _ = (coord + 1) * shape.prod := by ring
        _ ≤ size * shape.prod := Nat.mul_le_mul_right _ hcoord

private theorem tail_pos {size : ℕ} {shape : List ℕ} {position : ℕ}
    (hposition : position < (size :: shape).prod) : 0 < shape.prod := by
  rw [List.prod_cons] at hposition
  exact Nat.pos_of_mul_pos_left (Nat.zero_lt_of_lt hposition)

theorem inBounds_unravel {shape : List ℕ} {position : ℕ}
    (hposition : position < shape.prod) : InBounds shape (unravel shape position) := by
  induction shape generalizing position with
  | nil => exact .nil
  | cons size shape ih =>
      have hpos := tail_pos hposition
      rw [List.prod_cons, Nat.mul_comm] at hposition
      exact .cons (Nat.div_lt_of_lt_mul hposition) (ih (Nat.mod_lt _ hpos))

theorem ravel_unravel {shape : List ℕ} {position : ℕ} (hposition : position < shape.prod) :
    ravel shape (unravel shape position) = position := by
  induction shape generalizing position with
  | nil =>
      rw [List.prod_nil, Nat.lt_one_iff] at hposition
      exact hposition.symm
  | cons size shape ih =>
      rw [unravel, ravel, ih (Nat.mod_lt _ (tail_pos hposition)), Nat.mul_comm]
      exact Nat.div_add_mod position shape.prod

theorem unravel_ravel {shape coords : List ℕ} (hbounds : InBounds shape coords) :
    unravel shape (ravel shape coords) = coords := by
  induction hbounds with
  | nil => rfl
  | @cons coord size coords shape hcoord hcoords ih =>
      have hlt := ravel_lt hcoords
      have hpos : 0 < shape.prod := Nat.zero_lt_of_lt hlt
      rw [ravel, unravel, Nat.mul_comm, Nat.mul_add_div hpos, Nat.div_eq_of_lt hlt,
        Nat.mul_add_mod, Nat.mod_eq_of_lt hlt, ih, Nat.add_zero]

/-! ## Blocks -/

/-- A block of some size lies at some offset inside a tensor. -/
def Within : List ℕ → List ℕ → List ℕ → Prop
  | size :: sizes, start :: starts, whole :: wholes =>
      start + size ≤ whole ∧ Within sizes starts wholes
  | [], [], [] => True
  | _, _, _ => False

instance decidableWithin : ∀ sizes starts wholes : List ℕ, Decidable (Within sizes starts wholes)
  | _ :: sizes, _ :: starts, _ :: wholes =>
      have := decidableWithin sizes starts wholes
      inferInstanceAs (Decidable (_ ∧ _))
  | [], [], [] => isTrue trivial
  | [], [], _ :: _ => isFalse id
  | [], _ :: _, _ => isFalse id
  | _ :: _, [], _ => isFalse id
  | _ :: _, _ :: _, [] => isFalse id

/-- The block covers the element at some coordinates. -/
def Covers : List ℕ → List ℕ → List ℕ → Prop
  | size :: sizes, start :: starts, coord :: coords =>
      (start ≤ coord ∧ coord < start + size) ∧ Covers sizes starts coords
  | [], [], [] => True
  | _, _, _ => False

def shift (starts coords : List ℕ) : List ℕ := List.zipWith (· + ·) coords starts

/-- The elements of a block are covered by it, and lie in the tensor. -/
theorem covers_shift {sizes starts wholes coords : List ℕ} (hwithin : Within sizes starts wholes)
    (hbounds : InBounds sizes coords) :
    Covers sizes starts (shift starts coords) ∧ InBounds wholes (shift starts coords) := by
  induction hbounds generalizing starts wholes with
  | nil =>
      cases starts <;> cases wholes <;> simp_all [Within, Covers, shift, InBounds]
  | @cons coord size coords sizes hcoord _ ih =>
      cases starts with
      | nil => simp [Within] at hwithin
      | cons start starts =>
          cases wholes with
          | nil => simp [Within] at hwithin
          | cons whole wholes =>
              obtain ⟨hle, hrest⟩ := hwithin
              obtain ⟨hcovers, hin⟩ := ih hrest
              have hown : coord + start < start + size := by omega
              exact ⟨⟨⟨Nat.le_add_left _ _, hown⟩, hcovers⟩, .cons (hown.trans_le hle) hin⟩

/-- Every element that a block covers is an element of the block. -/
theorem exists_shift_of_covers {sizes starts coords : List ℕ}
    (hcovers : Covers sizes starts coords) :
    ∃ own, InBounds sizes own ∧ shift starts own = coords := by
  induction sizes generalizing starts coords with
  | nil =>
      cases starts <;> cases coords <;> simp [Covers] at hcovers
      exact ⟨[], .nil, rfl⟩
  | cons size sizes ih =>
      cases starts with
      | nil => simp [Covers] at hcovers
      | cons start starts =>
          cases coords with
          | nil => simp [Covers] at hcovers
          | cons coord coords =>
              obtain ⟨⟨hle, hlt⟩, hrest⟩ := hcovers
              obtain ⟨own, hbounds, hshift⟩ := ih hrest
              refine ⟨(coord - start) :: own, .cons (by omega) hbounds, ?_⟩
              rw [shift, List.zipWith_cons_cons, Nat.sub_add_cancel hle]
              exact congrArg _ hshift

theorem shift_injective {sizes starts first second : List ℕ}
    (hstarts : starts.length = sizes.length) (hfirst : InBounds sizes first)
    (hsecond : InBounds sizes second) (heq : shift starts first = shift starts second) :
    first = second := by
  induction hfirst generalizing starts second with
  | nil => exact (List.forall₂_nil_right_iff.mp hsecond).symm
  | @cons coord size coords sizes _ _ ih =>
      obtain ⟨other, others, -, hothers, rfl⟩ := List.forall₂_cons_right_iff.mp hsecond
      cases starts with
      | nil => simp at hstarts
      | cons start starts =>
          rw [shift, shift, List.zipWith_cons_cons, List.zipWith_cons_cons,
            List.cons_eq_cons] at heq
          have hrest := ih (by simpa using hstarts) hothers heq.2
          rw [Nat.add_right_cancel heq.1, hrest]

/-! ## Cutting one dimension -/

/-- What a block covers after one of its dimensions is cut depends on one coordinate only. -/
theorem exists_covers_set_iff {sizes starts coords : List ℕ} (hcovers : Covers sizes starts coords)
    {dim size start : ℕ} (hsize : sizes[dim]? = some size) (hstart : starts[dim]? = some start) :
    ∃ coord, (start ≤ coord ∧ coord < start + size) ∧ ∀ length first,
      Covers (sizes.set dim length) (starts.set dim first) coords ↔
        first ≤ coord ∧ coord < first + length := by
  induction sizes generalizing starts coords dim with
  | nil => simp at hsize
  | cons own sizes ih =>
      cases starts with
      | nil => simp at hstart
      | cons begin starts =>
          cases coords with
          | nil => simp [Covers] at hcovers
          | cons coord coords =>
              obtain ⟨hown, hrest⟩ := hcovers
              cases dim with
              | zero =>
                  obtain rfl := Option.some.inj hsize
                  obtain rfl := Option.some.inj hstart
                  exact ⟨coord, hown, fun length first => and_iff_left hrest⟩
              | succ dim =>
                  obtain ⟨found, hfound, hiff⟩ := ih hrest hsize hstart
                  exact ⟨found, hfound, fun length first =>
                    (and_iff_right hown).trans (hiff length first)⟩

/-- A block that is cut covers nothing new. -/
theorem covers_of_set {sizes starts coords : List ℕ} {dim size start length first : ℕ}
    (hsize : sizes[dim]? = some size) (hstart : starts[dim]? = some start) (hfirst : start ≤ first)
    (hlast : first + length ≤ start + size)
    (hcovers : Covers (sizes.set dim length) (starts.set dim first) coords) :
    Covers sizes starts coords := by
  induction sizes generalizing starts coords dim with
  | nil => simp at hsize
  | cons own sizes ih =>
      cases starts with
      | nil => simp at hstart
      | cons begin starts =>
          cases coords with
          | nil => cases dim <;> simp [Covers] at hcovers
          | cons coord coords =>
              cases dim with
              | zero =>
                  obtain rfl := Option.some.inj hsize
                  obtain rfl := Option.some.inj hstart
                  obtain ⟨hown, hrest⟩ := hcovers
                  exact ⟨⟨hfirst.trans hown.1, hown.2.trans_le hlast⟩, hrest⟩
              | succ dim =>
                  obtain ⟨hown, hrest⟩ := hcovers
                  exact ⟨hown, ih hsize hstart hrest⟩

/-- A block that is cut stays inside the tensor. -/
theorem within_set {sizes starts wholes : List ℕ} {dim size start length first : ℕ}
    (hwithin : Within sizes starts wholes) (hsize : sizes[dim]? = some size)
    (hstart : starts[dim]? = some start) (hlast : first + length ≤ start + size) :
    Within (sizes.set dim length) (starts.set dim first) wholes := by
  induction sizes generalizing starts wholes dim with
  | nil => simp at hsize
  | cons own sizes ih =>
      cases starts with
      | nil => simp at hstart
      | cons begin starts =>
          cases wholes with
          | nil => simp [Within] at hwithin
          | cons whole wholes =>
              obtain ⟨hown, hrest⟩ := hwithin
              cases dim with
              | zero =>
                  obtain rfl := Option.some.inj hsize
                  obtain rfl := Option.some.inj hstart
                  exact ⟨hlast.trans hown, hrest⟩
              | succ dim => exact ⟨hown, ih hrest hsize hstart⟩

theorem within_whole (shape : List ℕ) : Within shape (shape.map fun _ => 0) shape := by
  induction shape with
  | nil => trivial
  | cons size shape ih => exact ⟨(Nat.zero_add size).le, ih⟩

/-- A block that covers something has no empty dimension. -/
theorem zero_not_mem_of_covers {sizes starts coords : List ℕ}
    (hcovers : Covers sizes starts coords) : 0 ∉ sizes := by
  induction sizes generalizing starts coords with
  | nil => exact List.not_mem_nil
  | cons size sizes ih =>
      cases starts with
      | nil => simp [Covers] at hcovers
      | cons start starts =>
          cases coords with
          | nil => simp [Covers] at hcovers
          | cons coord coords =>
              obtain ⟨hcoord, hrest⟩ := hcovers
              rw [List.mem_cons, not_or]
              exact ⟨by omega, ih hrest⟩

theorem covers_whole {shape coords : List ℕ} (hbounds : InBounds shape coords) :
    Covers shape (shape.map fun _ => 0) coords := by
  induction hbounds with
  | nil => trivial
  | cons hcoord _ ih => exact ⟨⟨Nat.zero_le _, by rwa [Nat.zero_add]⟩, ih⟩

/-! ## Single rows -/

theorem within_row {rows : ℕ} (row : Fin rows) (shape : List ℕ) :
    Within (1 :: shape) (row :: shape.map fun _ => 0) (rows :: shape) :=
  ⟨row.isLt, within_whole shape⟩

/-- Every element is in one row. -/
theorem existsUnique_covers_row {rows : ℕ} {shape coords : List ℕ}
    (hbounds : InBounds (rows :: shape) coords) :
    ∃! row : Fin rows, Covers (1 :: shape) (row :: shape.map fun _ => 0) coords := by
  cases hbounds with
  | cons hcoord hrest =>
      refine ⟨⟨_, hcoord⟩, ⟨⟨le_rfl, Nat.lt_succ_self _⟩, covers_whole hrest⟩, ?_⟩
      rintro row ⟨⟨hle, hlt⟩, -⟩
      exact Fin.ext (hle.antisymm (Nat.le_of_lt_succ hlt))

end OneShotOPD.RowMajor
