import Mathlib.Tactic
import Mathlib.Logic.Relation

/-! Sequential programs cut into atomic actions.  One definition of a program
serves two readings: `exec` runs it alone, and `Step` lets an interference
relation act on the state between any two of its actions. -/

namespace CanfdDriver.Lib

variable {σ ε α β γ : Type}

/-- An action finds a state `s`, stores `update s` and goes on with `next s`. -/
inductive Prog (σ ε α : Type) : Type
  | ret : α → Prog σ ε α
  | fail : ε → Prog σ ε α
  | act : (σ → σ) → (σ → Prog σ ε α) → Prog σ ε α

namespace Prog

def bind : Prog σ ε α → (α → Prog σ ε β) → Prog σ ε β
  | .ret a, k => k a
  | .fail e, _ => .fail e
  | .act u n, k => .act u (fun s => (n s).bind k)

instance : Monad (Prog σ ε) where
  pure := .ret
  bind := bind

def get : Prog σ ε σ := .act id .ret

def modify (f : σ → σ) : Prog σ ε Unit := .act f (fun _ => .ret ())

def exec : Prog σ ε α → σ → Except ε (α × σ)
  | .ret a, s => .ok (a, s)
  | .fail e, _ => .error e
  | .act u n, s => (n s).exec (u s)

@[simp] theorem exec_ret (a : α) (s : σ) : (ret a : Prog σ ε α).exec s = .ok (a, s) := rfl

@[simp] theorem exec_pure (a : α) (s : σ) : (pure a : Prog σ ε α).exec s = .ok (a, s) := rfl

@[simp] theorem exec_fail (e : ε) (s : σ) : (fail e : Prog σ ε α).exec s = .error e := rfl

@[simp] theorem exec_get (s : σ) : (get : Prog σ ε σ).exec s = .ok (s, s) := rfl

@[simp] theorem exec_modify (f : σ → σ) (s : σ) :
    (modify f : Prog σ ε Unit).exec s = .ok ((), f s) := rfl

theorem exec_bind (p : Prog σ ε α) (k : α → Prog σ ε β) (s : σ) :
    (p >>= k).exec s = match p.exec s with
      | .ok (a, t) => (k a).exec t
      | .error e => .error e := by
  change (p.bind k).exec s = _
  induction p generalizing s with
  | ret a => rfl
  | fail e => rfl
  | act u n ih => exact ih s (u s)

theorem exec_bind_of_ok {p : Prog σ ε α} {k : α → Prog σ ε β} {s t : σ} {a : α}
    (h : p.exec s = .ok (a, t)) : (p >>= k).exec s = (k a).exec t := by
  rw [exec_bind, h]

theorem exec_bind_eq_ok {p : Prog σ ε α} {k : α → Prog σ ε β} {s t : σ} {b : β} :
    (p >>= k).exec s = .ok (b, t) ↔
      ∃ a r, p.exec s = .ok (a, r) ∧ (k a).exec r = .ok (b, t) := by
  rw [exec_bind]
  constructor
  · intro h
    split at h
    next a r hp => exact ⟨a, r, hp, h⟩
    next => cases h
  · rintro ⟨a, r, hp, hk⟩
    rw [hp]
    exact hk

def ends (p : Prog σ ε α) (s : σ) (check : α → σ → Bool) : Bool :=
  match p.exec s with
  | .ok (a, t) => check a t
  | .error _ => false

theorem ends_iff {p : Prog σ ε α} {s : σ} {check : α → σ → Bool} :
    p.ends s check = true ↔ ∃ a t, p.exec s = .ok (a, t) ∧ check a t = true := by
  rw [ends]
  cases p.exec s with
  | error e => simp
  | ok q => simp [Prod.ext_iff]

theorem bind_assoc (p : Prog σ ε α) (k : α → Prog σ ε β) (l : β → Prog σ ε γ) :
    p >>= k >>= l = p >>= fun a => k a >>= l := by
  change (p.bind k).bind l = p.bind fun a => (k a).bind l
  induction p with
  | ret a => rfl
  | fail e => rfl
  | act u n ih =>
    simp only [bind]
    congr 1
    funext s
    exact ih s

theorem bind_pure (p : Prog σ ε α) : (p >>= pure) = p := by
  change p.bind .ret = p
  induction p with
  | ret a => rfl
  | fail e => rfl
  | act u n ih =>
    rw [bind]
    congr 1
    funext s
    exact ih s

theorem ite_bind (c : Prop) [Decidable c] (p q : Prog σ ε α) (k : α → Prog σ ε β) :
    (if c then p else q) >>= k = if c then p >>= k else q >>= k := by
  split <;> rfl

theorem exec_ite (c : Prop) [Decidable c] (p q : Prog σ ε α) (s : σ) :
    (if c then p else q).exec s = if c then p.exec s else q.exec s := by
  split <;> rfl

/-- Every action of the program preserves `I`. -/
def Preserves (I : σ → Prop) : Prog σ ε α → Prop
  | .ret _ => True
  | .fail _ => True
  | .act u n => ∀ s, I s → I (u s) ∧ (n s).Preserves I

namespace Preserves

variable {I : σ → Prop}

theorem pure (a : α) : (pure a : Prog σ ε α).Preserves I := trivial

theorem get : (get : Prog σ ε σ).Preserves I := fun _ hs => ⟨hs, trivial⟩

theorem modify {f : σ → σ} (hf : ∀ s, I s → I (f s)) :
    (modify f : Prog σ ε Unit).Preserves I := fun s hs => ⟨hf s hs, trivial⟩

theorem bind {p : Prog σ ε α} {k : α → Prog σ ε β} (hp : p.Preserves I)
    (hk : ∀ a, (k a).Preserves I) : (p >>= k).Preserves I := by
  change (p.bind k).Preserves I
  induction p with
  | ret a => exact hk a
  | fail e => trivial
  | act u n ih => exact fun s hs => ⟨(hp s hs).1, ih s (hp s hs).2⟩

theorem get_bind {k : σ → Prog σ ε α} (hk : ∀ s, I s → (k s).Preserves I) :
    (Prog.get >>= k).Preserves I := fun s hs => ⟨hs, hk s hs⟩

theorem ite {c : Prop} [Decidable c] {p q : Prog σ ε α} (hp : c → p.Preserves I)
    (hq : ¬c → q.Preserves I) : (if c then p else q).Preserves I := by
  split
  next h => exact hp h
  next h => exact hq h

theorem exec {p : Prog σ ε α} (hp : p.Preserves I) {s t : σ} {a : α}
    (h : p.exec s = .ok (a, t)) (hs : I s) : I t := by
  induction p generalizing s with
  | ret b =>
    cases h
    exact hs
  | fail e => cases h
  | act u n ih => exact ih s (hp s hs).2 h (hp s hs).1

end Preserves

/-- Every action of the program takes the state along `R`. -/
def Moves (R : σ → σ → Prop) : Prog σ ε α → Prop
  | .ret _ => True
  | .fail _ => True
  | .act u n => ∀ s, R s (u s) ∧ (n s).Moves R

namespace Moves

variable {R : σ → σ → Prop}

theorem pure (a : α) : (pure a : Prog σ ε α).Moves R := trivial

theorem fail (e : ε) : (fail e : Prog σ ε α).Moves R := trivial

theorem get [Std.Refl R] : (get : Prog σ ε σ).Moves R := fun s => ⟨Std.Refl.refl s, trivial⟩

theorem modify {f : σ → σ} (hf : ∀ s, R s (f s)) : (modify f : Prog σ ε Unit).Moves R :=
  fun s => ⟨hf s, trivial⟩

theorem bind {p : Prog σ ε α} {k : α → Prog σ ε β} (hp : p.Moves R)
    (hk : ∀ a, (k a).Moves R) : (p >>= k).Moves R := by
  change (p.bind k).Moves R
  induction p with
  | ret a => exact hk a
  | fail e => trivial
  | act u n ih => exact fun s => ⟨(hp s).1, ih s (hp s).2⟩

theorem ite {c : Prop} [Decidable c] {p q : Prog σ ε α} (hp : p.Moves R) (hq : q.Moves R) :
    (if c then p else q).Moves R := by
  split
  next => exact hp
  next => exact hq

theorem preserves {I : σ → Prop} {p : Prog σ ε α} (hp : p.Moves R)
    (hI : ∀ s t, I s → R s t → I t) : p.Preserves I := by
  induction p with
  | ret a => trivial
  | fail e => trivial
  | act u n ih => exact fun s hs => ⟨hI s _ hs (hp s).1, ih s (hp s).2⟩

theorem mono {S : σ → σ → Prop} {p : Prog σ ε α} (hp : p.Moves R) (h : ∀ s t, R s t → S s t) :
    p.Moves S := by
  induction p with
  | ret a => trivial
  | fail e => trivial
  | act u n ih => exact fun s => ⟨h s _ (hp s).1, ih s (hp s).2⟩

theorem exec [Std.Refl R] [IsTrans σ R] {p : Prog σ ε α} (hp : p.Moves R) {s t : σ} {a : α}
    (h : p.exec s = .ok (a, t)) : R s t :=
  (hp.preserves fun _ _ hs hst => Trans.trans hs hst).exec (I := R s) h (Std.Refl.refl s)

end Moves

/-- Every result of the program meets `P`, whatever it finds on its way. -/
def Returns (P : α → Prop) : Prog σ ε α → Prop
  | .ret a => P a
  | .fail _ => True
  | .act _ n => ∀ s, (n s).Returns P

namespace Returns

theorem pure {P : α → Prop} {a : α} (h : P a) : (pure a : Prog σ ε α).Returns P := h

theorem fail {P : α → Prop} (e : ε) : (fail e : Prog σ ε α).Returns P := trivial

theorem any (p : Prog σ ε α) : p.Returns fun _ => True := by
  induction p with
  | ret a => trivial
  | fail e => trivial
  | act u n ih => exact ih

theorem mono {P Q : α → Prop} {p : Prog σ ε α} (hp : p.Returns P) (h : ∀ a, P a → Q a) :
    p.Returns Q := by
  induction p with
  | ret a => exact h a hp
  | fail e => trivial
  | act u n ih => exact fun s => ih s (hp s)

theorem bind {P : α → Prop} {Q : β → Prop} {p : Prog σ ε α} {k : α → Prog σ ε β}
    (hp : p.Returns P) (hk : ∀ a, P a → (k a).Returns Q) : (p >>= k).Returns Q := by
  change (p.bind k).Returns Q
  induction p with
  | ret a => exact hk a hp
  | fail e => trivial
  | act u n ih => exact fun s => ih s (hp s)

theorem ite {P : α → Prop} {c : Prop} [Decidable c] {p q : Prog σ ε α} (hp : c → p.Returns P)
    (hq : ¬c → q.Returns P) : (if c then p else q).Returns P := by
  split
  next h => exact hp h
  next h => exact hq h

end Returns

/-- Run alone, the program takes the state along `R`. -/
def Yields (R : σ → σ → Prop) (p : Prog σ ε α) : Prop :=
  ∀ s a t, p.exec s = .ok (a, t) → R s t

theorem Moves.yields {R : σ → σ → Prop} [Std.Refl R] [IsTrans σ R] {p : Prog σ ε α}
    (hp : p.Moves R) : p.Yields R := fun _ _ _ h => hp.exec h

namespace Yields

variable {R : σ → σ → Prop}

theorem pure [Std.Refl R] (a : α) : (pure a : Prog σ ε α).Yields R := by
  intro s b t h
  cases h
  exact Std.Refl.refl s

theorem fail (e : ε) : (fail e : Prog σ ε α).Yields R := fun _ _ _ h => by cases h

theorem get [Std.Refl R] : (get : Prog σ ε σ).Yields R := by
  intro s b t h
  cases h
  exact Std.Refl.refl s

theorem bind [IsTrans σ R] {p : Prog σ ε α} {k : α → Prog σ ε β} (hp : p.Yields R)
    (hk : ∀ a, (k a).Yields R) : (p >>= k).Yields R := by
  intro s b t h
  obtain ⟨a, r, hpa, hka⟩ := exec_bind_eq_ok.mp h
  exact Trans.trans (hp s a r hpa) (hk a r b t hka)

theorem ite {c : Prop} [Decidable c] {p q : Prog σ ε α} (hp : p.Yields R) (hq : q.Yields R) :
    (if c then p else q).Yields R := by
  split
  next => exact hp
  next => exact hq

end Yields

def Avoids (p : Prog σ ε α) (e : ε) : Prop := ∀ s, p.exec s ≠ .error e

namespace Avoids

variable {e : ε}

theorem pure (a : α) : (pure a : Prog σ ε α).Avoids e := fun _ h => by cases h

theorem fail {e' : ε} (he : e' ≠ e) : (fail e' : Prog σ ε α).Avoids e :=
  fun _ h => he (Except.error.inj h)

theorem get : (get : Prog σ ε σ).Avoids e := fun _ h => by cases h

theorem modify {f : σ → σ} : (modify f : Prog σ ε Unit).Avoids e := fun _ h => by cases h

theorem bind_eq_error {p : Prog σ ε α} {k : α → Prog σ ε β} (hp : p.Avoids e) {s : σ} :
    (p >>= k).exec s = .error e ↔ ∃ a t, p.exec s = .ok (a, t) ∧ (k a).exec t = .error e := by
  have hs := hp s
  rw [exec_bind]
  cases h : p.exec s with
  | error e' =>
    rw [h] at hs
    simp only [reduceCtorEq, false_and, exists_false, iff_false]
    exact fun he => hs (congrArg Except.error (Except.error.inj he))
  | ok q => simp [Prod.ext_iff]

theorem bind {p : Prog σ ε α} {k : α → Prog σ ε β} (hp : p.Avoids e) (hk : ∀ a, (k a).Avoids e) :
    (p >>= k).Avoids e := by
  intro s h
  obtain ⟨a, t, -, ht⟩ := hp.bind_eq_error.mp h
  exact hk a t ht

theorem ite {c : Prop} [Decidable c] {p q : Prog σ ε α} (hp : p.Avoids e) (hq : q.Avoids e) :
    (if c then p else q).Avoids e := by
  split
  next => exact hp
  next => exact hq

theorem exec_ok {p : Prog σ ε α} (h : ∀ e, p.Avoids e) (s : σ) : ∃ a t, p.exec s = .ok (a, t) := by
  cases hs : p.exec s with
  | error e => exact absurd hs (h e s)
  | ok q => exact ⟨q.1, q.2, rfl⟩

end Avoids

variable (R : σ → σ → Prop)

inductive Step : Prog σ ε α × σ → Prog σ ε α × σ → Prop
  | act {u : σ → σ} {n : σ → Prog σ ε α} {s : σ} : Step (.act u n, s) (n s, u s)
  | env {p : Prog σ ε α} {s t : σ} : R s t → Step (p, s) (p, t)

/-- `I` holds whenever the program is interrupted and at its end, where `Q`
holds of the result, however the interference `R` is scheduled. -/
def Conc (I : σ → Prop) : Prog σ ε α → (α → σ → Prop) → σ → Prop
  | .ret a, Q, s => ∀ t, Relation.ReflTransGen R s t → I t ∧ Q a t
  | .fail _, _, s => ∀ t, Relation.ReflTransGen R s t → I t
  | .act u n, Q, s => ∀ t, Relation.ReflTransGen R s t → I t ∧ Conc I (n t) Q (u t)

variable {R} {I : σ → Prop}

theorem Conc.env {p : Prog σ ε α} {Q : α → σ → Prop} {s t : σ} (h : Conc R I p Q s)
    (hst : Relation.ReflTransGen R s t) : Conc R I p Q t := by
  cases p with
  | ret a => exact fun r hr => h r (hst.trans hr)
  | fail e => exact fun r hr => h r (hst.trans hr)
  | act u n => exact fun r hr => h r (hst.trans hr)

theorem Conc.inv {p : Prog σ ε α} {Q : α → σ → Prop} {s : σ} (h : Conc R I p Q s) : I s := by
  cases p with
  | ret a => exact (h s .refl).1
  | fail e => exact h s .refl
  | act u n => exact (h s .refl).1

theorem Conc.step {p p' : Prog σ ε α} {Q : α → σ → Prop} {s s' : σ} (h : Conc R I p Q s)
    (hs : Step R (p, s) (p', s')) : Conc R I p' Q s' := by
  cases hs with
  | act => exact (h s .refl).2
  | env hst => exact h.env (.single hst)

theorem Conc.bind {p : Prog σ ε α} {k : α → Prog σ ε β} {Q : β → σ → Prop} {s : σ}
    (h : Conc R I p (fun a t => Conc R I (k a) Q t) s) : Conc R I (p >>= k) Q s := by
  change Conc R I (p.bind k) Q s
  induction p generalizing s with
  | ret a => exact (h s .refl).2
  | fail e => exact h
  | act u n ih => exact fun t ht => ⟨(h t ht).1, ih t (h t ht).2⟩

theorem Conc.pure {a : α} {Q : α → σ → Prop} {s : σ}
    (h : ∀ t, Relation.ReflTransGen R s t → I t ∧ Q a t) :
    Conc R I (Pure.pure a : Prog σ ε α) Q s := h

theorem Conc.get_bind {k : σ → Prog σ ε β} {Q : β → σ → Prop} {s : σ}
    (h : ∀ t, Relation.ReflTransGen R s t → I t ∧ Conc R I (k t) Q t) :
    Conc R I (Prog.get >>= k) Q s := h

theorem Conc.modify_bind {f : σ → σ} {k : Unit → Prog σ ε β} {Q : β → σ → Prop} {s : σ}
    (h : ∀ t, Relation.ReflTransGen R s t → I t ∧ Conc R I (k ()) Q (f t)) :
    Conc R I (Prog.modify f >>= k) Q s := h

theorem Conc.mono {J : σ → Prop} {p : Prog σ ε α} {Q Q' : α → σ → Prop} {s : σ}
    (h : Conc R I p Q s) (hI : ∀ t, I t → J t) (hQ : ∀ a t, I t → Q a t → Q' a t) :
    Conc R J p Q' s := by
  induction p generalizing s with
  | ret a => exact fun t ht => ⟨hI t (h t ht).1, hQ a t (h t ht).1 (h t ht).2⟩
  | fail e => exact fun t ht => hI t (h t ht)
  | act u n ih => exact fun t ht => ⟨hI t (h t ht).1, ih t (h t ht).2⟩

theorem Conc.and {J : σ → Prop} {p : Prog σ ε α} {Q Q' : α → σ → Prop} {s : σ}
    (h : Conc R I p Q s) (h' : Conc R J p Q' s) :
    Conc R (fun t => I t ∧ J t) p (fun a t => Q a t ∧ Q' a t) s := by
  induction p generalizing s with
  | ret a => exact fun t ht => ⟨⟨(h t ht).1, (h' t ht).1⟩, (h t ht).2, (h' t ht).2⟩
  | fail e => exact fun t ht => ⟨h t ht, h' t ht⟩
  | act u n ih => exact fun t ht => ⟨⟨(h t ht).1, (h' t ht).1⟩, ih t (h t ht).2 (h' t ht).2⟩

theorem Returns.conc {P : α → Prop} {p : Prog σ ε α} (hp : p.Returns P) (s : σ) :
    Conc R (fun _ => True) p (fun a _ => P a) s := by
  induction p generalizing s with
  | ret a => exact fun _ _ => ⟨trivial, hp⟩
  | fail e => exact fun _ _ => trivial
  | act u n ih => exact fun t _ => ⟨trivial, ih t (hp t) (u t)⟩

theorem Conc.seq {p : Prog σ ε α} {k : α → Prog σ ε β} {Q : α → σ → Prop} {Q' : β → σ → Prop}
    {s : σ} (h : Conc R I p Q s) (hk : ∀ a t, I t → Q a t → Conc R I (k a) Q' t) :
    Conc R I (p >>= k) Q' s :=
  .bind (h.mono (fun _ => id) hk)

theorem Conc.run {p p' : Prog σ ε α} {Q : α → σ → Prop} {s s' : σ} (h : Conc R I p Q s)
    (hrun : Relation.ReflTransGen (Step R) (p, s) (p', s')) : Conc R I p' Q s' := by
  generalize hx : (p, s) = x at hrun
  generalize hy : (p', s') = y at hrun
  induction hrun generalizing p' s' with
  | refl =>
    cases hx
    cases hy
    exact h
  | @tail y' z _ hstep ih =>
    obtain ⟨q, t⟩ := y'
    cases hy
    exact (ih rfl).step hstep

theorem steps_of_exec {p : Prog σ ε α} {s t : σ} {a : α} (h : p.exec s = .ok (a, t)) :
    Relation.ReflTransGen (Step R) (p, s) (.ret a, t) := by
  induction p generalizing s with
  | ret b =>
    cases h
    exact .refl
  | fail e => cases h
  | act u n ih => exact .head .act (ih s h)

/-- A program whose actions preserve an invariant of the interference keeps it
under every interleaving. -/
theorem Preserves.conc {p : Prog σ ε α} (hp : p.Preserves I)
    (hR : ∀ s t, I s → R s t → I t) {s : σ} (hs : I s) : Conc R I p (fun _ t => I t) s := by
  have hstar : ∀ s t, I s → Relation.ReflTransGen R s t → I t := by
    intro s t hs hst
    induction hst with
    | refl => exact hs
    | tail _ hr ih => exact hR _ _ ih hr
  induction p generalizing s with
  | ret a => exact fun t ht => ⟨hstar s t hs ht, hstar s t hs ht⟩
  | fail e => exact fun t ht => hstar s t hs ht
  | act u n ih =>
    intro t ht
    have hI := hstar s t hs ht
    exact ⟨hI, ih t (hp t hI).2 (hp t hI).1⟩

end Prog

end CanfdDriver.Lib
