import CanfdDriver.Hal.Run
import CanfdDriver.Lib.Clock

namespace CanfdDriver

open Lib NoraCanfd

def Sample.ends (n : NodeState) (done : BitVec 32 → Bool) (start : BitVec 32) (x : Sample) : Bool :=
  done x.value || n.expired start x.tick

def Sample.verdict (done : BitVec 32 → Bool) (x : Sample) : Status :=
  if done x.value then .ok else .timeout

namespace NoraCanfd

section

variable {n : NodeState} {done : BitVec 32 → Bool} {start : BitVec 32}

theorem pollResult_append {xs ys : List Sample} (h : ∀ x ∈ xs, x.ends n done start = false) :
    pollResult n done start (xs ++ ys) = pollResult n done start ys := by
  induction xs with
  | nil => rfl
  | cons x xs ih =>
    have hx := h x (List.mem_cons_self ..)
    rw [Sample.ends, Bool.or_eq_false_iff] at hx
    rw [List.cons_append, pollResult, hx.1, hx.2]
    exact ih fun y hy => h y (List.mem_cons_of_mem x hy)

theorem pollResult_cons {x : Sample} {xs : List Sample} (h : x.ends n done start = true) :
    pollResult n done start (x :: xs) = .ok (x.verdict done) := by
  rw [pollResult, Sample.verdict]
  split
  next => rfl
  next hd =>
    rw [Sample.ends, Bool.or_eq_true] at h
    rw [if_pos (h.resolve_left hd)]

/-- The loop sees what it waits for before it reads the deadline. -/
def ShownInTime (n : NodeState) (done : BitVec 32 → Bool) (start : BitVec 32) (xs : List Sample) :
    Prop :=
  ∃ before x after, xs = before ++ x :: after ∧ done x.value = true ∧
    ∀ y ∈ before, n.expired start y.tick = false

theorem pollResult_ok_iff {xs : List Sample} :
    pollResult n done start xs = .ok .ok ↔ ShownInTime n done start xs := by
  constructor
  · intro h
    induction xs with
    | nil => cases h
    | cons x xs ih =>
      rw [pollResult] at h
      split at h
      next hd => exact ⟨[], x, xs, rfl, hd, fun _ hy => absurd hy (List.not_mem_nil)⟩
      next =>
        split at h
        next => cases h
        next he =>
          obtain ⟨before, y, after, rfl, hd, hb⟩ := ih h
          refine ⟨x :: before, y, after, rfl, hd, fun z hz => ?_⟩
          rcases List.mem_cons.mp hz with rfl | hz
          · exact Bool.eq_false_iff.mpr he
          · exact hb z hz
  · rintro ⟨before, x, after, rfl, hd, hb⟩
    induction before with
    | nil => rw [List.nil_append, pollResult, if_pos hd]
    | cons y before ih =>
      rw [List.cons_append, pollResult]
      split
      next => rfl
      next =>
        rw [hb y (List.mem_cons_self ..)]
        exact ih fun z hz => hb z (List.mem_cons_of_mem y hz)

def rounds (s : Nat → Sample) (m : Nat) : List Sample := (List.range m).map s

theorem pollResult_rounds {s : Nat → Sample} {k : Nat} (hk : (s k).ends n done start = true)
    (hbefore : ∀ j, j < k → (s j).ends n done start = false) (m : Nat) :
    pollResult n done start (rounds s m) =
      if m ≤ k then .error .polling else .ok ((s k).verdict done) := by
  have hskip (j : Nat) (hj : j ≤ k) : ∀ x ∈ rounds s j, x.ends n done start = false := by
    intro x hx
    obtain ⟨i, hi, rfl⟩ := List.mem_map.mp hx
    exact hbefore i (Nat.lt_of_lt_of_le (List.mem_range.mp hi) hj)
  split
  next hm =>
    rw [← List.append_nil (rounds s m), pollResult_append (hskip m hm)]
    rfl
  next hm =>
    obtain ⟨r, rfl⟩ : ∃ r, m = k + (r + 1) := ⟨m - k - 1, by omega⟩
    have hsplit : rounds s (k + (r + 1)) =
        rounds s k ++ s k :: (List.range r).map fun i => s (k + (i + 1)) := by
      simp only [rounds, List.range_add, List.map_append, List.map_map, List.range_succ_eq_map,
        List.map_cons, Function.comp_def, Nat.add_zero, Nat.succ_eq_add_one]
    rw [hsplit, pollResult_append (hskip k le_rfl), pollResult_cons hk]

end

inductive PollLoop : Type
  | requestMode (reqop : BitVec 8)
  | waitFlag (mask : BitVec 32)

namespace PollLoop

def run : PollLoop → Poll → M Status
  | .requestMode reqop, p => NoraCanfd.requestMode reqop p
  | .waitFlag mask, p => NoraCanfd.waitFlag mask p

def done : PollLoop → BitVec 32 → Bool
  | .requestMode reqop, con => opmodGet con = reqop
  | .waitFlag mask, v => v &&& mask ≠ 0

def entered : PollLoop → Chan → Chan
  | .requestMode reqop, c => c.writeCon (reqopWrite reqop)
  | .waitFlag _, c => c

theorem exec_run (l : PollLoop) (p : Poll) (c : Chan) :
    (l.run p).exec c =
      (pollResult c.node l.done (if c.node.getMs then p.start else 0) p.samples).map
        (·, l.entered c) := by
  cases l with
  | requestMode reqop => exact exec_requestMode reqop p
  | waitFlag mask =>
    simp only [run, NoraCanfd.waitFlag, startTick, Prog.exec_bind, Prog.exec_get, Prog.exec_pure,
      exec_pollUntil]
    rfl

end PollLoop

def pollsOf (value : Nat → BitVec 32) (clock : Clock) (m : Nat) : Poll :=
  ⟨clock.reading 32 0, rounds (fun k => ⟨value k, clock.reading 32 (k + 1)⟩) m⟩

/-- How a loop ends at round `n`: with `ok` just if a sample up to then shows the condition, with a
timeout only if none does and the time is up; and it never polls past the deadline. -/
structure PollEnds (done : BitVec 32 → Bool) (value : Nat → BitVec 32) (clock : Clock)
    (timeoutMs n : Nat) (st : Status) : Prop where
  outcome : st = .ok ∨ st = .timeout
  ok : st = .ok ↔ ∃ k, k ≤ n ∧ done (value k) = true
  late : st = .timeout →
    (∀ k, k ≤ n → done (value k) = false) ∧ clock.time 0 + timeoutMs ≤ clock.time (n + 1)
  before : ∀ k, k < n → done (value k) = false ∧ clock.time (k + 1) < clock.time 0 + timeoutMs

section

variable {n : NodeState} {done : BitVec 32 → Bool}

theorem expired_iff_elapsed {x y : BitVec 32} (hms : n.getMs = true) (ht : n.timeoutMs ≠ 0) :
    n.expired x y = true ↔ n.timeoutMs.toNat ≤ (y - x).toNat := by
  simp only [NodeState.expired, hms, ht, Bool.true_and, ne_eq, not_false_eq_true, decide_true,
    decide_eq_true_eq, BitVec.le_def]

theorem not_expired {x y : BitVec 32} (h : n.getMs = false ∨ n.timeoutMs = 0) :
    n.expired x y = false := by
  rcases h with h | h <;> simp [NodeState.expired, h]

theorem PollEnds.of_round {value : Nat → BitVec 32} {clock : Clock} {timeoutMs k : Nat}
    (hbefore : ∀ j, j < k → done (value j) = false ∧ clock.time (j + 1) < clock.time 0 + timeoutMs)
    (hend : done (value k) = true ∨ clock.time 0 + timeoutMs ≤ clock.time (k + 1)) :
    PollEnds done value clock timeoutMs k (if done (value k) then .ok else .timeout) := by
  cases hd : done (value k) with
  | true =>
    rw [if_pos rfl]
    exact ⟨.inl rfl, iff_of_true rfl ⟨k, le_rfl, hd⟩, (fun h => by cases h), hbefore⟩
  | false =>
    have hnone : ∀ j, j ≤ k → done (value j) = false := by
      intro j hj
      rcases Nat.lt_or_eq_of_le hj with hlt | rfl
      · exact (hbefore j hlt).1
      · exact hd
    have hlate := hend.resolve_left (by simp [hd])
    rw [if_neg Bool.false_ne_true]
    refine ⟨.inr rfl, iff_of_false (by decide) ?_, fun _ => ⟨hnone, hlate⟩, hbefore⟩
    rintro ⟨j, hj, hj'⟩
    exact Bool.false_ne_true ((hnone j hj).symm.trans hj')

theorem pollResult_ends {value : Nat → BitVec 32} {clock : Clock} (hms : n.getMs = true)
    (ht : n.timeoutMs ≠ 0) (hsteps : clock.Steps 32 n.timeoutMs.toNat) :
    ∃ k st, PollEnds done value clock n.timeoutMs.toNat k st ∧
      ∀ m, pollResult n done (clock.reading 32 0) (pollsOf value clock m).samples =
        if m ≤ k then .error .polling else .ok st := by
  have hpos : 0 < n.timeoutMs.toNat := Nat.pos_of_ne_zero fun h0 => ht (BitVec.eq_of_toNat_eq h0)
  have hlt : n.timeoutMs.toNat ≤ 2 ^ 32 := n.timeoutMs.isLt.le
  obtain ⟨last, hbefore, hpast⟩ := clock.exists_deadline hpos
  let s : Nat → Sample := fun k => ⟨value k, clock.reading 32 (k + 1)⟩
  have hends (k : Nat) (hk : k ≤ last) : (s k).ends n done (clock.reading 32 0) = true ↔
      done (value k) = true ∨ clock.time 0 + n.timeoutMs.toNat ≤ clock.time (k + 1) := by
    rw [Sample.ends, Bool.or_eq_true, expired_iff_elapsed hms ht,
      Clock.expired_iff hsteps hpos hlt hbefore (Nat.succ_le_succ hk)]
  have hlast := (hends last le_rfl).mpr (.inr hpast)
  have hstop : ∃ k, (s k).ends n done (clock.reading 32 0) = true := ⟨last, hlast⟩
  classical
  have hfirst := Nat.find_spec hstop
  have hmin : ∀ k, k < Nat.find hstop → (s k).ends n done (clock.reading 32 0) = false :=
    fun k hk => Bool.eq_false_iff.mpr (Nat.find_min hstop hk)
  have hle : Nat.find hstop ≤ last := Nat.find_min' hstop hlast
  generalize Nat.find hstop = k at hfirst hmin hle
  refine ⟨k, (s k).verdict done, .of_round (fun j hj => ?_) ((hends k hle).mp hfirst),
    pollResult_rounds hfirst hmin⟩
  have hnot := (not_congr (hends j (by omega))).mp (Bool.eq_false_iff.mp (hmin j hj))
  rw [not_or, Bool.not_eq_true, Nat.not_le] at hnot
  exact hnot

theorem pollResult_untimed (h : n.getMs = false ∨ n.timeoutMs = 0) {start : BitVec 32}
    {xs : List Sample} : pollResult n done start xs ≠ .ok .timeout := by
  induction xs with
  | nil => exact fun h0 => by cases h0
  | cons x xs ih =>
    rw [pollResult, not_expired h]
    split
    next => exact fun h0 => by cases h0
    next => exact ih

end

/-- With a timeout both loops end, on the condition or past the deadline, however the tick wraps;
without one they never time out. -/
theorem polling_ends (l : PollLoop) (c : Chan) (value : Nat → BitVec 32) (clock : Clock) :
    (c.node.getMs = true → c.node.timeoutMs ≠ 0 → clock.Steps 32 c.node.timeoutMs.toNat →
      ∃ n st, PollEnds l.done value clock c.node.timeoutMs.toNat n st ∧
        ∀ m, (l.run (pollsOf value clock m)).exec c =
          if m ≤ n then .error .polling else .ok (st, l.entered c)) ∧
    (c.node.getMs = false ∨ c.node.timeoutMs = 0 →
      ∀ p st d, (l.run p).exec c = .ok (st, d) → st ≠ .timeout) := by
  constructor
  · intro hms ht hsteps
    obtain ⟨n, st, hends, hresult⟩ :=
      @pollResult_ends c.node l.done value clock hms ht hsteps
    refine ⟨n, st, hends, fun m => ?_⟩
    rw [l.exec_run, hms, if_pos rfl]
    simp only [pollsOf] at hresult ⊢
    rw [hresult]
    split <;> rfl
  · intro hno p st d h
    rw [l.exec_run] at h
    have hnever := @pollResult_untimed c.node l.done hno
      (if c.node.getMs then p.start else 0) p.samples
    cases hp : pollResult c.node l.done (if c.node.getMs then p.start else 0) p.samples with
    | error e =>
      rw [hp] at h
      cases h
    | ok st' =>
      rw [hp] at h hnever
      cases h
      exact fun hst => hnever (congrArg Except.ok hst)

def wrappingClock : Clock :=
  ⟨fun k => 2 ^ 32 - 1 + k, fun _ _ h => Nat.add_le_add_left h _, fun t => ⟨t, Nat.le_add_left t _⟩⟩

theorem polling_ends_example :
    ∃ n, wrappingClock.time 0 + 10 ≤ wrappingClock.time (n + 1) ∧
      ∀ m, ∃ d, (requestMode opmodeConfig (pollsOf (fun _ => 0) wrappingClock m)).exec
        (resetChan.setNode ⟨true, true, 10⟩) = if m ≤ n then .error .polling else .ok (.timeout, d) := by
  have hsteps : wrappingClock.Steps 32 10 := by
    intro k
    change 2 ^ 32 - 1 + (k + 1) ≤ 2 ^ 32 - 1 + k + (2 ^ 32 - 10)
    omega
  obtain ⟨n, st, hends, hresult⟩ := (polling_ends (.requestMode opmodeConfig)
    (resetChan.setNode ⟨true, true, 10⟩) (fun _ => 0) wrappingClock).1 rfl (by decide) hsteps
  have hst : st = .timeout := by
    refine hends.outcome.resolve_left fun h => ?_
    obtain ⟨k, -, hk⟩ := hends.ok.mp h
    exact absurd hk (by decide)
  exact ⟨n, (hends.late hst).2, fun m => ⟨_, hst ▸ hresult m⟩⟩

end NoraCanfd

end CanfdDriver
