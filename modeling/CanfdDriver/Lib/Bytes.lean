import Mathlib.Tactic

namespace CanfdDriver.Lib

variable {w : Nat}

def packBytes (w : Nat) (b : Nat → BitVec 8) : Nat → BitVec w
  | 0 => 0
  | n + 1 => packBytes w b n ||| (b n).setWidth w <<< (8 * n)

def byteAt (x : BitVec w) (k : Nat) : BitVec 8 := (x >>> (8 * k)).setWidth 8

theorem getLsbD_packBytes (b : Nat → BitVec 8) {n : Nat} (h : 8 * n ≤ w) (i : Nat) :
    (packBytes w b n).getLsbD i = (decide (i < 8 * n) && (b (i / 8)).getLsbD (i % 8)) := by
  induction n with
  | zero => simp [packBytes]
  | succ n ih =>
    rw [packBytes, BitVec.getLsbD_or, ih (by omega), BitVec.getLsbD_shiftLeft,
      BitVec.getLsbD_setWidth]
    obtain hlow | hhigh := Nat.lt_or_ge i (8 * n)
    · simp [hlow, Nat.lt_add_right 8 hlow, Nat.mul_succ]
    · by_cases hi : i < 8 * (n + 1)
      · have hdiv : i / 8 = n := by omega
        have hmod : i - 8 * n = i % 8 := by omega
        simp [hi, hdiv, hmod, Nat.not_lt.mpr hhigh, show i < w by omega, show i % 8 < w by omega]
      · have hout : (b n).getLsbD (i - 8 * n) = false := BitVec.getLsbD_of_ge _ _ (by omega)
        simp [hi, hout, Nat.not_lt.mpr hhigh]

theorem byteAt_packBytes (b : Nat → BitVec 8) {n : Nat} (h : 8 * n ≤ w) {k : Nat} (hk : k < n) :
    byteAt (packBytes w b n) k = b k := by
  apply BitVec.eq_of_getLsbD_eq
  intro i hi
  have hdiv : (8 * k + i) / 8 = k := by omega
  have hmod : (8 * k + i) % 8 = i := by omega
  rw [byteAt, BitVec.getLsbD_setWidth, BitVec.getLsbD_ushiftRight, getLsbD_packBytes b h, hdiv,
    hmod]
  simp [hi, show 8 * k + i < 8 * n by omega]

end CanfdDriver.Lib
