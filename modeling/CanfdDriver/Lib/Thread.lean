import CanfdDriver.Lib.Prog
import CanfdDriver.Lib.Reach

/-! A thread that makes one call after the other, while an interference acts
between any two of its actions. -/

namespace CanfdDriver.Lib

variable {σ ε α κ η : Type}

structure Thread (κ σ ε α : Type) : Type where
  state : σ
  /-- The call that the thread is in, and what is left of it. -/
  rest : Option (κ × Prog σ ε α)
  done : List (κ × α)

namespace Thread

def idle (s : σ) : Thread κ σ ε α := ⟨s, none, []⟩

inductive Move (κ α η : Type) : Type
  | enter (k : κ)
  | act
  | leave (a : α)
  | env (e : η)

section

variable (call : κ → Prog σ ε α) (E : η → σ → σ → Prop) (R : σ → σ → Prop)

inductive Makes (b : Thread κ σ ε α) : Move κ α η → Thread κ σ ε α → Prop
  | enter (k : κ) : b.rest = none → Makes b (.enter k) ⟨b.state, some (k, call k), b.done⟩
  | act {k : κ} {u : σ → σ} {n : σ → Prog σ ε α} : b.rest = some (k, .act u n) →
      Makes b .act ⟨u b.state, some (k, n b.state), b.done⟩
  | leave {k : κ} {a : α} : b.rest = some (k, .ret a) →
      Makes b (.leave a) ⟨b.state, none, b.done ++ [(k, a)]⟩
  | env {e : η} {t : σ} : E e b.state t → Makes b (.env e) ⟨t, b.rest, b.done⟩

/-- A move of the thread, or one step of the interference `R`. -/
def Step (b b' : Thread κ σ ε α) : Prop := ∃ m, Makes call (fun _ : Unit => R) b m b'

abbrev Run : Thread κ σ ε α → Thread κ σ ε α → Prop := Relation.ReflTransGen (Step call R)

end

variable {call : κ → Prog σ ε α} {E : η → σ → σ → Prop} {R : σ → σ → Prop}
  {I : List (κ × α) → κ → σ → Prop} {J : List (κ × α) → σ → Prop} {b b' : Thread κ σ ε α}
  {m : Move κ α η}

theorem Step.enter (k : κ) (h : b.rest = none) :
    Step call R b ⟨b.state, some (k, call k), b.done⟩ := ⟨_, .enter k h⟩

theorem Step.act {k : κ} {u : σ → σ} {n : σ → Prog σ ε α} (h : b.rest = some (k, .act u n)) :
    Step call R b ⟨u b.state, some (k, n b.state), b.done⟩ := ⟨_, .act h⟩

theorem Makes.step (h : Makes call E b m b') (hE : ∀ e s t, E e s t → R s t) :
    Step call R b b' := by
  cases h with
  | enter k hrest => exact .enter k hrest
  | act hrest => exact .act hrest
  | leave hrest => exact ⟨_, .leave hrest⟩
  | env he => exact ⟨.env (), .env (hE _ _ _ he)⟩

/-- `J` holds between the calls, and `I` inside each. -/
def Keeps (R : σ → σ → Prop) (I : List (κ × α) → κ → σ → Prop) (J : List (κ × α) → σ → Prop)
    (b : Thread κ σ ε α) : Prop :=
  match b.rest with
  | none => J b.done b.state
  | some (k, p) => p.Conc R (I b.done k) (fun a => J (b.done ++ [(k, a)])) b.state

theorem Keeps.makes (h : b.Keeps R I J)
    (hcall : ∀ k, m = .enter k → J b.done b.state →
      (call k).Conc R (I b.done k) (fun a => J (b.done ++ [(k, a)])) b.state)
    (hE : ∀ e s t, E e s t → R s t) (hR : ∀ l s t, J l s → R s t → J l t)
    (hs : Makes call E b m b') : b'.Keeps R I J := by
  cases hs with
  | enter k hrest =>
    rw [Keeps, hrest] at h
    exact hcall k rfl h
  | act hrest =>
    rw [Keeps, hrest] at h
    exact h.step .act
  | leave hrest =>
    rw [Keeps, hrest] at h
    exact (h _ .refl).2
  | env he =>
    rw [Keeps] at h ⊢
    cases hrest : b.rest with
    | none =>
      simp only [hrest] at h ⊢
      exact hR _ _ _ h (hE _ _ _ he)
    | some q =>
      simp only [hrest] at h ⊢
      exact h.env (.single (hE _ _ _ he))

theorem Keeps.step (h : b.Keeps R I J)
    (hcall : ∀ l k s, J l s → (call k).Conc R (I l k) (fun a => J (l ++ [(k, a)])) s)
    (hR : ∀ l s t, J l s → R s t → J l t) (hs : Step call R b b') : b'.Keeps R I J := by
  obtain ⟨m, hm⟩ := hs
  exact h.makes (fun k _ => hcall _ k _) (fun _ _ _ => id) hR hm

/-- What every call keeps, however it is interrupted, is kept at every point of a run. -/
theorem Run.keeps (h : Run call R b b') (hb : b.Keeps R I J)
    (hcall : ∀ l k s, J l s → (call k).Conc R (I l k) (fun a => J (l ++ [(k, a)])) s)
    (hR : ∀ l s t, J l s → R s t → J l t) : b'.Keeps R I J := by
  induction h with
  | refl => exact hb
  | tail _ hs ih => exact ih.step hcall hR hs

theorem Run.inside {s : σ} {k : κ} {p : Prog σ ε α} (h : Run call R (idle s) b) (hs : J [] s)
    (hcall : ∀ l k s, J l s → (call k).Conc R (I l k) (fun a => J (l ++ [(k, a)])) s)
    (hR : ∀ l s t, J l s → R s t → J l t) (hrest : b.rest = some (k, p)) : I b.done k b.state := by
  have hkeeps := h.keeps (b := idle s) hs hcall hR
  rw [Keeps, hrest] at hkeeps
  exact hkeeps.inv

theorem Run.between {s : σ} (h : Run call R (idle s) b) (hs : J [] s)
    (hcall : ∀ l k s, J l s → (call k).Conc R (fun _ => True) (fun a => J (l ++ [(k, a)])) s)
    (hR : ∀ l s t, J l s → R s t → J l t) (hrest : b.rest = none) : J b.done b.state := by
  have hkeeps := h.keeps (b := idle s) (I := fun _ _ _ => True) hs hcall hR
  rw [Keeps, hrest] at hkeeps
  exact hkeeps

theorem Run.invariant {I : σ → Prop} {s : σ} (h : Run call R (idle s) b) (hs : J [] s)
    (hJ : ∀ l s, J l s → I s)
    (hcall : ∀ l k s, J l s → (call k).Conc R I (fun a => J (l ++ [(k, a)])) s)
    (hR : ∀ l s t, J l s → R s t → J l t) : I b.state := by
  cases hrest : b.rest with
  | none => exact hJ _ _ (h.between hs (fun l k s h => (hcall l k s h).mono (fun _ _ => trivial)
      fun _ _ _ => id) hR hrest)
  | some q => exact h.inside (I := fun _ _ => I) hs hcall hR hrest

variable [DecidableEq α]

def fire (call : κ → Prog σ ε α) (act : η → σ → Option σ) (b : Thread κ σ ε α) :
    Move κ α η → Option (Thread κ σ ε α)
  | .enter k => match b.rest with
    | none => some ⟨b.state, some (k, call k), b.done⟩
    | some _ => none
  | .act => match b.rest with
    | some (k, .act u n) => some ⟨u b.state, some (k, n b.state), b.done⟩
    | _ => none
  | .leave a => match b.rest with
    | some (k, .ret r) => if r = a then some ⟨b.state, none, b.done ++ [(k, a)]⟩ else none
    | _ => none
  | .env e => (act e b.state).map fun t => ⟨t, b.rest, b.done⟩

theorem makes_of_fire {act : η → σ → Option σ} (hact : ∀ e s t, act e s = some t → E e s t)
    (h : fire call act b m = some b') : Makes call E b m b' := by
  obtain ⟨s, rest, l⟩ := b
  cases m with
  | enter k =>
    cases rest with
    | none =>
      cases h
      exact .enter k rfl
    | some q => cases h
  | act =>
    simp only [fire] at h
    split at h
    next =>
      cases h
      exact .act rfl
    next => cases h
  | leave a =>
    simp only [fire] at h
    split at h
    next =>
      split at h
      next ha =>
        cases h
        subst ha
        exact .leave rfl
      next => cases h
    next => cases h
  | env e =>
    obtain ⟨t, ht, rfl⟩ := Option.map_eq_some_iff.mp h
    exact .env (hact e s t ht)

theorem run_of_play {act : η → σ → Option σ} (hact : ∀ e s t, act e s = some t → R s t)
    (ms : List (Move κ α η)) (p : Thread κ σ ε α → Bool)
    (h : (play (fire call act) ms b).map p = some true) :
    ∃ b', Run call R b b' ∧ p b' = true :=
  Lib.run_of_play (fun _ _ _ hm => (makes_of_fire (E := fun e s t => act e s = some t)
    (fun _ _ _ => id) hm).step hact) ms p h

def upTo (k : κ) (n : Nat) : List (Move κ α η) := .enter k :: List.replicate n .act

def undisturbed (k : κ) (n : Nat) (a : α) : List (Move κ α η) := upTo k n ++ [.leave a]

end Thread

end CanfdDriver.Lib
