import CanfdDriver.Cmsis.Requests
import CanfdDriver.Cmsis.View

namespace CanfdDriver

open Lib NoraCanfd Cmsis

/-- The state without what traffic changes. -/
abbrev Chan.kept : Chan → Chan := Chan.view ⟨keptBits, false⟩

theorem Traffic.kept {c d : Chan} (h : Traffic c d) : d.kept = c.kept := by
  obtain ⟨rx, hrx⟩ := h.ctx
  refine Chan.ext h.present ?_ h.node h.mode h.isr ?_ (funext h.regs) rfl rfl rfl
  · simp only [Chan.view, hrx, cond_false]
  · simp only [Chan.view, h.rxLine, h.genLine, h.txPriority]

/-- However the thread is interrupted, its calls return what they return without any interrupt, and
leave what traffic does not change as they leave it then; a `MessageRead` changes nothing of it. -/
theorem interrupts_unseen {dev : Device} {b : Bench}
    (h : AppRun (.idle dev.boot) b) (hrest : b.rest = none) :
    ∃ c, Alone (fun k : Env × Call => k.2.run k.1) dev.boot (b.done.filter fun q => q.1.2.seen) c ∧
      b.state.kept = c.kept := by
  refine h.alone (v := Chan.kept) (fun _ _ ht => ht.traffic.kept) (fun k hk => call_unseeing (.inr hk) k.1)
    (fun k hk => ?_) hrest
  obtain ⟨env, call⟩ := k
  cases call with
  | canMessageRead args =>
    exact .bind ((canMessageRead_moves args).mono fun _ _ ht => ht.kept) fun _ => .pure _
  | _ => cases hk

def readEarly : List BenchMove :=
  enterUp 62 ++ [.env (.hardware exampleArrival), .env (.handler silent zeroFrame), .act, .act,
    .leave armDriverOk] ++
    Thread.undisturbed (granting .normalFd, .canMessageRead ⟨objRx, true, some fun _ => 0, 64⟩) 5 0

theorem run_readEarly : ∃ b, AppRun (.idle exampleDevice.boot) b ∧ b.rest = none ∧
    b.done.length = 3 ∧ b.state.handed.length = 1 := by
  have hrun : ∃ b, AppRun (.idle exampleDevice.boot) b ∧
      (b.rest.isNone && decide (b.done.length = 3) && decide (b.state.handed.length = 1)) = true :=
    AppRun.of_play readEarly _ (by decide +kernel)
  obtain ⟨b, hb, hp⟩ := hrun
  simp only [Bool.and_eq_true, Option.isNone_iff_eq_none, decide_eq_true_eq] at hp
  exact ⟨b, hb, hp.1.1, hp.1.2, hp.2⟩

theorem interrupts_unseen_example :
    ∃ b, AppRun (.idle exampleDevice.boot) b ∧ b.done.length = 3 ∧ b.state.handed.length = 1 ∧
      ∃ c, Alone (fun k : Env × Call => k.2.run k.1) exampleDevice.boot
        (b.done.filter fun q => q.1.2.seen) c ∧ b.state.kept = c.kept := by
  obtain ⟨b, hb, hrest, hdone, hhanded⟩ := run_readEarly
  exact ⟨b, hb, hdone, hhanded, interrupts_unseen hb hrest⟩

end CanfdDriver
