import Mathlib.Tactic
import Mathlib.Data.Fin.Basic

/-! A ring buffer with one sacrificed slot: `m + 1` slots hold at most `m`
elements, so that equal indices mean empty.  The abstract value is a list. -/

namespace CanfdDriver.Lib

structure Ring (m : Nat) (α : Type) : Type where
  slot : Fin (m + 1) → α
  head : Fin (m + 1)
  tail : Fin (m + 1)

namespace Ring

variable {m : Nat} {α : Type}

def empty (a : α) : Ring m α := ⟨fun _ => a, 0, 0⟩

def reset (r : Ring m α) : Ring m α := { r with head := 0, tail := 0 }

def full (r : Ring m α) : Prop := r.head + 1 = r.tail

instance (r : Ring m α) : Decidable r.full := inferInstanceAs (Decidable (_ = _))

def push (r : Ring m α) (a : α) : Ring m α :=
  { r with slot := Function.update r.slot r.head a, head := r.head + 1 }

def front (r : Ring m α) : α := r.slot r.tail

def advance (r : Ring m α) : Ring m α := { r with tail := r.tail + 1 }

def count (r : Ring m α) : Nat := (r.head - r.tail).val

def toList (r : Ring m α) : List α :=
  (List.range r.count).map fun i => r.slot (r.tail + Fin.ofNat (m + 1) i)

theorem ofNat_succ (i : Nat) : Fin.ofNat (m + 1) (i + 1) = Fin.ofNat (m + 1) i + 1 := by
  apply Fin.ext
  simp [Fin.ofNat, Fin.val_add]

@[simp] theorem length_toList (r : Ring m α) : r.toList.length = r.count := by
  simp [toList]

theorem count_le (r : Ring m α) : r.count ≤ m := Nat.le_of_lt_succ (r.head - r.tail).isLt

theorem head_eq (r : Ring m α) : r.head = r.tail + Fin.ofNat (m + 1) r.count := by
  simp [count]

theorem count_eq_zero {r : Ring m α} : r.count = 0 ↔ r.tail = r.head := by
  rw [count, Fin.val_eq_zero_iff, sub_eq_zero, eq_comm]

theorem toList_eq_nil {r : Ring m α} : r.toList = [] ↔ r.tail = r.head := by
  rw [← List.length_eq_zero_iff, length_toList, count_eq_zero]

theorem full_iff {r : Ring m α} : r.full ↔ r.count = m := by
  have h : r.full ↔ r.head - r.tail = -1 := by
    rw [full, ← sub_eq_zero, add_sub_right_comm, add_eq_zero_iff_eq_neg]
  rw [h, count, Fin.ext_iff, Fin.coe_neg_one]

theorem count_push {r : Ring m α} (h : ¬r.full) (a : α) : (r.push a).count = r.count + 1 := by
  have hlt : r.head - r.tail < Fin.last m := by
    have := r.count_le
    have := mt full_iff.mpr h
    rw [Fin.lt_def, Fin.val_last]
    change r.count < m
    omega
  calc
    (r.push a).count = (r.head - r.tail + 1).val := by
      simp only [push, count, add_sub_right_comm]
    _ = r.count + 1 := Fin.val_add_one_of_lt hlt

theorem slot_ne_head {r : Ring m α} {i : Nat} (hi : i < r.count) :
    r.tail + Fin.ofNat (m + 1) i ≠ r.head := by
  intro h
  have hval : (Fin.ofNat (m + 1) i).val = r.count := by
    rw [count, ← h, add_sub_cancel_left]
  have hle := r.count_le
  rw [Fin.val_ofNat, Nat.mod_eq_of_lt (by omega)] at hval
  omega

theorem toList_push {r : Ring m α} (h : ¬r.full) (a : α) :
    (r.push a).toList = r.toList ++ [a] := by
  rw [toList, count_push h, List.range_succ, List.map_append]
  congr 1
  · apply List.map_congr_left
    intro i hi
    exact Function.update_of_ne (slot_ne_head (List.mem_range.mp hi)) a r.slot
  · change [Function.update r.slot r.head a (r.tail + Fin.ofNat (m + 1) r.count)] = [a]
    rw [← head_eq, Function.update_self]

theorem count_advance {r : Ring m α} (h : r.tail ≠ r.head) :
    r.advance.count + 1 = r.count := by
  have hne : r.head - r.tail ≠ 0 := by
    rw [sub_ne_zero]
    exact h.symm
  calc
    r.advance.count + 1 = (r.head - r.tail - 1).val + 1 := by
      simp only [advance, count, sub_add_eq_sub_sub]
    _ = r.count := by
      have := Fin.val_sub_one_of_ne_zero hne
      have := Fin.val_ne_zero_iff.mpr hne
      rw [count]
      omega

theorem toList_eq_cons {r : Ring m α} (h : r.tail ≠ r.head) :
    r.toList = r.front :: r.advance.toList := by
  rw [toList, ← count_advance h, List.range_succ_eq_map, List.map_cons, List.map_map]
  congr 1
  · simp [front]
  · apply List.map_congr_left
    intro i _
    simp only [Function.comp_apply, advance, Nat.succ_eq_add_one, ofNat_succ]
    rw [add_assoc, add_comm 1]

@[simp] theorem toList_reset (r : Ring m α) : r.reset.toList = [] :=
  toList_eq_nil.mpr rfl

/-- Stores `a` unless the ring is full. -/
def offer (r : Ring m α) (a : α) : Ring m α := if r.full then r else r.push a

def room (r : Ring m α) : Nat := m - r.count

theorem room_eq_zero {r : Ring m α} : r.room = 0 ↔ r.full := by
  have := r.count_le
  rw [full_iff, room]
  omega

theorem room_push {r : Ring m α} (h : ¬r.full) (a : α) : r.room = (r.push a).room + 1 := by
  have := r.count_le
  have := mt full_iff.mpr h
  rw [room, room, count_push h]
  omega

theorem foldl_offer_of_full {r : Ring m α} (h : r.full) (as : List α) : as.foldl offer r = r := by
  induction as with
  | nil => rfl
  | cons a as ih => rw [List.foldl_cons, offer, if_pos h, ih]

theorem toList_foldl_offer (r : Ring m α) (as : List α) :
    (as.foldl offer r).toList = r.toList ++ as.take r.room := by
  induction as generalizing r with
  | nil => simp
  | cons a as ih =>
    by_cases h : r.full
    · rw [foldl_offer_of_full h, room_eq_zero.mpr h, List.take_zero, List.append_nil]
    · rw [List.foldl_cons, offer, if_neg h, ih, toList_push h, room_push h a, List.take_succ_cons,
        List.append_assoc, List.singleton_append]

end Ring

end CanfdDriver.Lib
