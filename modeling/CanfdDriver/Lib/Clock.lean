import Mathlib.Tactic

/-! A free-running clock that is read through a register of a few bits, and
deadlines that are tested on differences of such readings. -/

namespace CanfdDriver.Lib

variable {w : Nat}

/-- The real time at each reading of a clock that never stops. -/
structure Clock : Type where
  time : Nat → Nat
  mono : Monotone time
  unbounded : ∀ t, ∃ k, t ≤ time k

namespace Clock

def reading (c : Clock) (w k : Nat) : BitVec w := BitVec.ofNat w (c.time k)

/-- A deadline of `d` ticks is not jumped over: between two readings the clock advances by at
most what the register holds beside `d`. -/
def Steps (c : Clock) (w d : Nat) : Prop := ∀ k, c.time (k + 1) ≤ c.time k + (2 ^ w - d)

variable {c : Clock} {d k : Nat}

theorem toNat_elapsed (h : c.time k < c.time 0 + 2 ^ w) :
    (c.reading w k - c.reading w 0).toNat = c.time k - c.time 0 := by
  have hsum : c.time k - c.time 0 + c.time 0 = c.time k :=
    Nat.sub_add_cancel (c.mono (Nat.zero_le k))
  have hdiff : c.reading w k - c.reading w 0 = BitVec.ofNat w (c.time k - c.time 0) := by
    rw [reading, reading, ← hsum, BitVec.ofNat_add, BitVec.add_sub_cancel, hsum]
  rw [hdiff, BitVec.toNat_ofNat, Nat.mod_eq_of_lt (by omega)]

theorem exists_deadline (hd : 0 < d) :
    ∃ n, (∀ k, k ≤ n → c.time k < c.time 0 + d) ∧ c.time 0 + d ≤ c.time (n + 1) := by
  classical
  have hpass := c.unbounded (c.time 0 + d)
  have hfirst := Nat.find_spec hpass
  have hmin : ∀ k, k < Nat.find hpass → c.time k < c.time 0 + d :=
    fun k hk => Nat.not_le.mp (Nat.find_min hpass hk)
  generalize Nat.find hpass = first at hfirst hmin
  cases first with
  | zero => omega
  | succ n => exact ⟨n, fun k hk => hmin k (Nat.lt_succ_of_le hk), hfirst⟩

/-- Up to the first reading past the deadline, the test on readings is the test on real time. -/
theorem expired_iff (hsteps : c.Steps w d) (hd : 0 < d) (hw : d ≤ 2 ^ w) {n : Nat}
    (hbefore : ∀ k, k ≤ n → c.time k < c.time 0 + d) (hk : k ≤ n + 1) :
    d ≤ (c.reading w k - c.reading w 0).toNat ↔ c.time 0 + d ≤ c.time k := by
  have hfits : c.time k < c.time 0 + 2 ^ w := by
    cases k with
    | zero => exact Nat.lt_add_of_pos_right (Nat.lt_of_lt_of_le hd hw)
    | succ k =>
      have hlast := hbefore k (Nat.le_of_succ_le_succ hk)
      have hstep := hsteps k
      omega
  have hle := c.mono (Nat.zero_le k)
  rw [toNat_elapsed hfits]
  omega

end Clock

end CanfdDriver.Lib
