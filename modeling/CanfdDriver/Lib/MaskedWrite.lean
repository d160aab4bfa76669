import Mathlib.Tactic

/-! Read-modify-write accesses to a register.  Setting bits, clearing bits and
writing a field are all masked writes, and masked writes compose. -/

namespace CanfdDriver.Lib

variable {w : Nat}

/-- The bits of `mask` are replaced by those of `value`, the others are kept. -/
@[ext] structure MaskedWrite (w : Nat) : Type where
  mask : BitVec w
  value : BitVec w
  value_and_mask : value &&& mask = value

namespace MaskedWrite

def apply (m : MaskedWrite w) (v : BitVec w) : BitVec w := (v &&& ~~~m.mask) ||| m.value

def set (b : BitVec w) : MaskedWrite w := ⟨b, b, BitVec.and_self⟩

def clear (b : BitVec w) : MaskedWrite w := ⟨b, 0, BitVec.zero_and⟩

def field (b x : BitVec w) : MaskedWrite w :=
  ⟨b, x &&& b, by rw [BitVec.and_assoc, BitVec.and_self]⟩

def andThen (m n : MaskedWrite w) : MaskedWrite w where
  mask := m.mask ||| n.mask
  value := (m.value &&& ~~~n.mask) ||| n.value
  value_and_mask := by
    have hm := m.value_and_mask
    have hn := n.value_and_mask
    ext i hi
    have hmi := congrArg (·[i]) hm
    have hni := congrArg (·[i]) hn
    simp only [BitVec.getElem_and] at hmi hni
    simp only [BitVec.getElem_and, BitVec.getElem_or, BitVec.getElem_not]
    grind

theorem or_eq_apply (v b : BitVec w) : v ||| b = (set b).apply v := by
  ext i hi
  simp only [apply, set, BitVec.getElem_and, BitVec.getElem_or, BitVec.getElem_not]
  grind

theorem and_not_eq_apply (v b : BitVec w) : v &&& ~~~b = (clear b).apply v := by
  simp [apply, clear]

theorem apply_apply (m n : MaskedWrite w) (v : BitVec w) :
    n.apply (m.apply v) = (m.andThen n).apply v := by
  ext i hi
  simp only [apply, andThen, BitVec.getElem_and, BitVec.getElem_or, BitVec.getElem_not]
  grind

theorem field_apply_self (b v : BitVec w) : (field b v).apply v = v := by
  ext i hi
  simp only [apply, field, BitVec.getElem_and, BitVec.getElem_or, BitVec.getElem_not]
  grind

theorem apply_and_of_sub {m : MaskedWrite w} {b : BitVec w} (h : b &&& m.mask = b)
    (v : BitVec w) : m.apply v &&& b = m.value &&& b := by
  ext i hi
  have hi := congrArg (·[i]) h
  simp only [BitVec.getElem_and] at hi
  simp only [apply, BitVec.getElem_and, BitVec.getElem_or, BitVec.getElem_not]
  grind

theorem apply_and_of_disjoint {m : MaskedWrite w} {b : BitVec w} (h : b &&& m.mask = 0)
    (v : BitVec w) : m.apply v &&& b = v &&& b := by
  ext i hi
  have hi := congrArg (·[i]) h
  have hv := congrArg (·[i]) m.value_and_mask
  simp only [BitVec.getElem_and, BitVec.ofNat_eq_ofNat, BitVec.getElem_zero] at hi hv
  simp only [apply, BitVec.getElem_and, BitVec.getElem_or, BitVec.getElem_not]
  grind

theorem and_not_and_of_sub {b m : BitVec w} (h : b &&& m = b) (v : BitVec w) :
    v &&& ~~~m &&& b = 0 := by
  rw [and_not_eq_apply, apply_and_of_sub h]
  exact BitVec.zero_and

theorem and_not_and_of_disjoint {b m : BitVec w} (h : b &&& m = 0) (v : BitVec w) :
    v &&& ~~~m &&& b = v &&& b := by
  rw [and_not_eq_apply, apply_and_of_disjoint h]

theorem and_not_eq_self {v m : BitVec w} : v &&& ~~~m = v ↔ v &&& m = 0 := by
  constructor
  · intro h
    rw [← h]
    exact and_not_and_of_sub BitVec.and_self v
  · intro h
    ext i hi
    have hbit := congrArg (·[i]) h
    simp only [BitVec.getElem_and, BitVec.ofNat_eq_ofNat, BitVec.getElem_zero] at hbit
    simp only [BitVec.getElem_and, BitVec.getElem_not]
    grind

theorem or_and_of_sub {b m : BitVec w} (h : b &&& m = b) (v : BitVec w) : (v ||| m) &&& b = b := by
  rw [or_eq_apply, apply_and_of_sub h, BitVec.and_comm]
  exact h

theorem or_and_of_disjoint {b m : BitVec w} (h : b &&& m = 0) (v : BitVec w) :
    (v ||| m) &&& b = v &&& b := by
  rw [or_eq_apply, apply_and_of_disjoint h]

theorem apply_and_not (m : MaskedWrite w) (v b : BitVec w) :
    m.apply v &&& ~~~b = (v &&& ~~~(b ||| m.mask)) ||| (m.value &&& ~~~b) := by
  ext i hi
  simp only [apply, BitVec.getElem_and, BitVec.getElem_or, BitVec.getElem_not]
  grind

theorem apply_and_eq_zero {m : MaskedWrite w} {b v : BitVec w} (h : m.value &&& b = 0)
    (hv : v &&& b = 0) : m.apply v &&& b = 0 := by
  ext i hi
  have hi := congrArg (·[i]) h
  have hv := congrArg (·[i]) hv
  simp only [BitVec.getElem_and, BitVec.ofNat_eq_ofNat, BitVec.getElem_zero] at hi hv
  simp only [apply, BitVec.getElem_and, BitVec.getElem_or, BitVec.getElem_not,
    BitVec.ofNat_eq_ofNat, BitVec.getElem_zero]
  grind

theorem or_and_not_eq_zero {a b m : BitVec w} (ha : a &&& ~~~m = 0) (hb : b &&& ~~~m = 0) :
    (a ||| b) &&& ~~~m = 0 := by
  ext i hi
  have hai := congrArg (·[i]) ha
  have hbi := congrArg (·[i]) hb
  simp only [BitVec.getElem_and, BitVec.getElem_not, BitVec.ofNat_eq_ofNat,
    BitVec.getElem_zero] at hai hbi
  simp only [BitVec.getElem_and, BitVec.getElem_or, BitVec.getElem_not, BitVec.ofNat_eq_ofNat,
    BitVec.getElem_zero]
  grind

theorem shiftLeft_and_not_eq_zero {x m : BitVec w} {pos width : Nat} (hx : x.toNat < 2 ^ width)
    (hm : ∀ i, i < width → m.getLsbD (pos + i) = true) : (x <<< pos) &&& ~~~m = 0 := by
  apply BitVec.eq_of_getLsbD_eq
  intro j hj
  rw [BitVec.getLsbD_and, BitVec.getLsbD_not, BitVec.getLsbD_shiftLeft]
  by_cases hpos : j < pos
  · simp [hpos]
  · obtain hlow | hhigh := Nat.lt_or_ge (j - pos) width
    · have hset := hm _ hlow
      rw [show pos + (j - pos) = j by omega] at hset
      simp [hset]
    · have hle : 2 ^ width ≤ 2 ^ (j - pos) := Nat.pow_le_pow_right (by decide) hhigh
      have hzero : x.getLsbD (j - pos) = false :=
        Nat.testBit_lt_two_pow (Nat.lt_of_lt_of_le hx hle)
      simp [hzero]

end MaskedWrite

end CanfdDriver.Lib
