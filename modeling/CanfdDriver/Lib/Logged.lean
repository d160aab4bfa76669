import CanfdDriver.Lib.Lockstep
import CanfdDriver.Lib.Thread

namespace CanfdDriver.Lib

variable {σ η ε α β : Type}

structure Logged (σ η : Type) : Type where
  now : σ
  log : List η

namespace Logged

def focus : Focus (Logged σ η) σ where
  get := now
  put t s := { s with now := t }
  get_put _ _ := rfl
  put_put _ _ _ := rfl

/-- The interference acts on the state, and leaves its label in the history. -/
inductive Env (R : σ → η → σ → Prop) (s : Logged σ η) : Logged σ η → Prop
  | step {l : η} {t : σ} : R s.now l t → Env R s ⟨t, s.log ++ [l]⟩

variable (R : σ → η → σ → Prop) (held : σ → Nat) (gains spends : η → Bool)

/-- A step spends no more than it gains or finds held. -/
def Pays : Prop := ∀ c l d, R c l d →
  held d + (if spends l then 1 else 0) ≤ held c + if gains l then 1 else 0

/-- What was spent and what is held does not exceed what was gained, and `n` tokens more. -/
def Covered (n : Nat) (s : Logged σ η) : Prop :=
  s.log.countP spends + held s.now ≤ s.log.countP gains + n

variable {R held gains spends} {n m : Nat} {s t : Logged σ η}

theorem Covered.mono (h : Covered held gains spends n s) (hn : n ≤ m) :
    Covered held gains spends m s := Nat.le_trans h (Nat.add_le_add_left hn _)

theorem Covered.env (hR : Pays R held gains spends) (h : Covered held gains spends n s) (hs : Env R s t) :
    Covered held gains spends n t := by
  cases hs with
  | @step l d hl =>
    have hstep := hR _ _ _ hl
    rw [Covered] at h
    change (s.log ++ [l]).countP spends + held d ≤ (s.log ++ [l]).countP gains + n
    rw [List.countP_append, List.countP_append, List.countP_singleton, List.countP_singleton]
    omega

theorem Covered.interrupted (hR : Pays R held gains spends) (h : Covered held gains spends n s)
    (hs : Relation.ReflTransGen (Env R) s t) : Covered held gains spends n t := by
  induction hs with
  | refl => exact h
  | tail _ hs ih => exact ih.env hR hs

theorem Covered.conc (hR : Pays R held gains spends) {p : Prog σ ε α}
    (hp : p.Moves fun c d => held d ≤ held c) (h : Covered held gains spends n s) :
    Prog.Conc (Env R) (Covered held gains spends n) (focus.lift p)
      (fun _ => Covered held gains spends n) s := by
  have hpres : (focus.lift p).Preserves (Covered held gains spends n) := by
    induction p with
    | ret a => trivial
    | fail e => trivial
    | act u k ih =>
      refine fun s hs => ⟨?_, ih s.now (hp s.now).2⟩
      exact Nat.le_trans (Nat.add_le_add_left (hp s.now).1 _) hs
  exact hpres.conc (fun _ _ h hs => h.env hR hs) h

theorem Covered.take (hR : Pays R held gains spends) {u : σ → σ}
    (hu : ∀ c, held (u c) ≤ held c + 1) (h : Covered held gains spends n s) :
    Prog.Conc (Env R) (Covered held gains spends (n + 1))
      (focus.lift (Prog.modify u : Prog σ ε Unit)) (fun _ => Covered held gains spends (n + 1)) s := by
  intro t ht
  have ht := h.interrupted hR ht
  refine ⟨ht.mono (Nat.le_succ n), fun v hv => ?_⟩
  have hone : Covered held gains spends (n + 1) { t with now := u t.now } := by
    have hut := hu t.now
    rw [Covered] at ht
    change t.log.countP spends + held (u t.now) ≤ t.log.countP gains + (n + 1)
    omega
  exact ⟨hone.interrupted hR hv, hone.interrupted hR hv⟩

end Logged

theorem Focus.lift_bind (l : Focus σ β) (p : Prog β ε α) {γ : Type} (k : α → Prog β ε γ) :
    l.lift (p >>= k) = l.lift p >>= fun a => l.lift (k a) := by
  change l.lift (p.bind k) = (l.lift p).bind fun a => l.lift (k a)
  induction p with
  | ret a => rfl
  | fail e => rfl
  | act u n ih =>
    simp only [Prog.bind, lift]
    congr 1
    funext s
    exact ih (l.get s)

end CanfdDriver.Lib
