import Mathlib.Tactic

namespace CanfdDriver.Lib

variable {ε β : Type}

inductive Verdict (ε β : Type) : Type
  | next : Verdict ε β
  | quit : Verdict ε β
  | found : β → Verdict ε β
  | fault : ε → Verdict ε β

/-- `scan f i n` runs the body `f` at `i, i + 1, …, i + n - 1`. -/
def scan (f : Nat → Verdict ε β) : Nat → Nat → Except ε (Option β)
  | _, 0 => .ok none
  | i, n + 1 => match f i with
    | .next => scan f (i + 1) n
    | .quit => .ok none
    | .found b => .ok (some b)
    | .fault e => .error e

/-- The body skips every candidate before `k`. -/
structure StopsAt (f : Nat → Verdict ε β) (i n k : Nat) : Prop where
  le : i ≤ k
  lt : k < i + n
  skip : ∀ j, i ≤ j → j < k → f j = .next
  stop : f k ≠ .next

def Verdict.outcome : Verdict ε β → Except ε (Option β)
  | .next => .ok none
  | .quit => .ok none
  | .found b => .ok (some b)
  | .fault e => .error e

namespace StopsAt

variable {f : Nat → Verdict ε β} {i n k k' : Nat}

theorem unique (h : StopsAt f i n k) (h' : StopsAt f i n k') : k = k' := by
  rcases lt_trichotomy k k' with hlt | heq | hgt
  · exact absurd (h'.skip k h.le hlt) h.stop
  · exact heq
  · exact absurd (h.skip k' h'.le hgt) h'.stop

theorem first (hi : f i ≠ .next) : StopsAt f i (n + 1) i :=
  ⟨le_rfl, by omega, fun j hj hji => by omega, hi⟩

theorem of_succ (hi : f i = .next) (h : StopsAt f (i + 1) n k) : StopsAt f i (n + 1) k where
  le := by have := h.le; omega
  lt := by have := h.lt; omega
  stop := h.stop
  skip j hj hk := by
    obtain rfl | hne := eq_or_ne j i
    · exact hi
    · exact h.skip j (by omega) hk

end StopsAt

variable {f : Nat → Verdict ε β} {i n : Nat}

theorem scan_cases :
    ((∀ j, i ≤ j → j < i + n → f j = .next) ∧ scan f i n = .ok none) ∨
      ∃ k, StopsAt f i n k ∧ scan f i n = (f k).outcome := by
  induction n generalizing i with
  | zero => exact .inl ⟨fun j hj hlt => by omega, rfl⟩
  | succ n ih =>
    cases hi : f i with
    | next =>
      have hscan : scan f i (n + 1) = scan f (i + 1) n := by simp [scan, hi]
      rcases ih (i := i + 1) with ⟨hall, hnone⟩ | ⟨k, hk, hout⟩
      · refine .inl ⟨fun j hj hlt => ?_, hscan.trans hnone⟩
        obtain rfl | hne := eq_or_ne j i
        · exact hi
        · exact hall j (by omega) (by omega)
      · exact .inr ⟨k, hk.of_succ hi, hscan.trans hout⟩
    | quit => exact .inr ⟨i, .first (by simp [hi]), by simp [scan, hi, Verdict.outcome]⟩
    | found b => exact .inr ⟨i, .first (by simp [hi]), by simp [scan, hi, Verdict.outcome]⟩
    | fault e => exact .inr ⟨i, .first (by simp [hi]), by simp [scan, hi, Verdict.outcome]⟩

theorem scan_of_stopsAt {k : Nat} (h : StopsAt f i n k) : scan f i n = (f k).outcome := by
  rcases scan_cases (f := f) (i := i) (n := n) with ⟨hall, -⟩ | ⟨k', hk', hout⟩
  · exact absurd (hall k h.le h.lt) h.stop
  · rw [h.unique hk', hout]

theorem scan_eq_found {b : β} :
    scan f i n = .ok (some b) ↔ ∃ k, StopsAt f i n k ∧ f k = .found b := by
  constructor
  · intro h
    rcases scan_cases (f := f) (i := i) (n := n) with ⟨-, hnone⟩ | ⟨k, hk, hout⟩
    · simp [hnone] at h
    · refine ⟨k, hk, ?_⟩
      rw [hout] at h
      cases hf : f k <;> simp_all [Verdict.outcome]
  · rintro ⟨k, hk, hf⟩
    rw [scan_of_stopsAt hk, hf, Verdict.outcome]

theorem scan_eq_fault {e : ε} :
    scan f i n = .error e ↔ ∃ k, StopsAt f i n k ∧ f k = .fault e := by
  constructor
  · intro h
    rcases scan_cases (f := f) (i := i) (n := n) with ⟨-, hnone⟩ | ⟨k, hk, hout⟩
    · simp [hnone] at h
    · refine ⟨k, hk, ?_⟩
      rw [hout] at h
      cases hf : f k <;> simp_all [Verdict.outcome]
  · rintro ⟨k, hk, hf⟩
    rw [scan_of_stopsAt hk, hf, Verdict.outcome]

end CanfdDriver.Lib
