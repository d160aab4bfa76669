import CanfdDriver.Lib.Prog

namespace CanfdDriver.Lib

variable {σ τ ε α β : Type}

namespace Prog

/-- The states that the program, run alone from `s`, passes through; it need not come to an end. -/
inductive Passes : Prog σ ε α → σ → σ → Prop
  | here {p : Prog σ ε α} {s : σ} : Passes p s s
  | act {u : σ → σ} {n : σ → Prog σ ε α} {s t : σ} : Passes (n s) (u s) t → Passes (.act u n) s t

theorem Moves.passes {R : σ → σ → Prop} [Std.Refl R] [IsTrans σ R] {p : Prog σ ε α}
    (hp : p.Moves R) {s t : σ} (h : p.Passes s t) : R s t := by
  induction h with
  | here => exact Std.Refl.refl _
  | act _ ih => exact Trans.trans (hp _).1 (ih (hp _).2)

/-- Action by action the programs go on alike, and from related states to related states. -/
def Lockstep (R : σ → τ → Prop) : Prog σ ε α → Prog τ ε α → Prop
  | .ret a, .ret b => a = b
  | .fail e, .fail e' => e = e'
  | .act u n, .act v k => ∀ s t, R s t → R (u s) (v t) ∧ Lockstep R (n s) (k t)
  | _, _ => False

namespace Lockstep

variable {R : σ → τ → Prop}

theorem pure (a : α) : Lockstep R (pure a : Prog σ ε α) (pure a) := rfl

theorem fail (e : ε) : Lockstep R (.fail e : Prog σ ε α) (.fail e) := rfl

theorem modify {f : σ → σ} {g : τ → τ} (h : ∀ s t, R s t → R (f s) (g t)) :
    Lockstep R (modify f : Prog σ ε Unit) (modify g) := fun s t hst => ⟨h s t hst, rfl⟩

theorem bind {p : Prog σ ε α} {q : Prog τ ε α} {k : α → Prog σ ε β} {l : α → Prog τ ε β}
    (h : Lockstep R p q) (hk : ∀ a, Lockstep R (k a) (l a)) : Lockstep R (p >>= k) (q >>= l) := by
  change Lockstep R (p.bind k) (q.bind l)
  induction p generalizing q with
  | ret a =>
    cases q with
    | ret b => exact (show a = b from h) ▸ hk a
    | fail e => exact h.elim
    | act v m => exact h.elim
  | fail e =>
    cases q with
    | ret b => exact h.elim
    | fail e' => exact h
    | act v m => exact h.elim
  | act u n ih =>
    cases q with
    | ret b => exact h.elim
    | fail e => exact h.elim
    | act v m => exact fun s t hst => ⟨(h s t hst).1, ih s (h s t hst).2⟩

theorem get_bind {k : σ → Prog σ ε α} {l : τ → Prog τ ε α}
    (h : ∀ s t, R s t → Lockstep R (k s) (l t)) : Lockstep R (Prog.get >>= k) (Prog.get >>= l) :=
  fun s t hst => ⟨hst, h s t hst⟩

theorem ite {c d : Prop} [Decidable c] [Decidable d] (hcd : c ↔ d) {p p' : Prog σ ε α}
    {q q' : Prog τ ε α} (h : Lockstep R p q) (h' : Lockstep R p' q') :
    Lockstep R (if c then p else p') (if d then q else q') := by
  by_cases hc : c
  · rw [if_pos hc, if_pos (hcd.mp hc)]
    exact h
  · rw [if_neg hc, if_neg (mt hcd.mpr hc)]
    exact h'

theorem and {I : τ → Prop} {p : Prog σ ε α} {q : Prog τ ε α} (h : Lockstep R p q)
    (hq : q.Preserves I) : Lockstep (fun s t => R s t ∧ I t) p q := by
  induction p generalizing q with
  | ret a =>
    cases q with
    | ret b => exact h
    | fail e => exact h.elim
    | act v m => exact h.elim
  | fail e =>
    cases q with
    | ret b => exact h.elim
    | fail e' => exact h
    | act v m => exact h.elim
  | act u n ih =>
    cases q with
    | ret b => exact h.elim
    | fail e => exact h.elim
    | act v m =>
      intro s t hst
      obtain ⟨hR, hrest⟩ := h s t hst.1
      obtain ⟨hI, hm⟩ := hq t hst.2
      exact ⟨⟨hR, hI⟩, ih s hrest hm⟩

theorem exec {p : Prog σ ε α} {q : Prog τ ε α} (h : Lockstep R p q) {s : σ} {t : τ} (hst : R s t) :
    (∃ e, p.exec s = .error e ∧ q.exec t = .error e) ∨
      ∃ a s' t', p.exec s = .ok (a, s') ∧ q.exec t = .ok (a, t') ∧ R s' t' := by
  induction p generalizing q s t with
  | ret a =>
    cases q with
    | ret b =>
      cases (show a = b from h)
      exact .inr ⟨a, s, t, rfl, rfl, hst⟩
    | fail e => exact h.elim
    | act v m => exact h.elim
  | fail e =>
    cases q with
    | ret b => exact h.elim
    | fail e' =>
      cases (show e = e' from h)
      exact .inl ⟨e, rfl, rfl⟩
    | act v m => exact h.elim
  | act u n ih =>
    cases q with
    | ret b => exact h.elim
    | fail e => exact h.elim
    | act v m => exact ih s (h s t hst).2 (h s t hst).1

theorem flip {p : Prog σ ε α} {q : Prog τ ε α} (h : Lockstep R p q) :
    Lockstep (fun t s => R s t) q p := by
  induction p generalizing q with
  | ret a =>
    cases q with
    | ret b => exact Eq.symm h
    | fail e => exact h.elim
    | act v m => exact h.elim
  | fail e =>
    cases q with
    | ret b => exact h.elim
    | fail e' => exact Eq.symm h
    | act v m => exact h.elim
  | act u n ih =>
    cases q with
    | ret b => exact h.elim
    | fail e => exact h.elim
    | act v m => exact fun t s hst => ⟨(h s t hst).1, ih s (h s t hst).2⟩

theorem passes {p : Prog σ ε α} {q : Prog τ ε α} (h : Lockstep R p q) {s s' : σ} {t : τ}
    (hp : p.Passes s s') (hst : R s t) : ∃ t', q.Passes t t' ∧ R s' t' := by
  induction hp generalizing q t with
  | here => exact ⟨t, .here, hst⟩
  | @act u n s s' _ ih =>
    cases q with
    | ret b => exact h.elim
    | fail e => exact h.elim
    | act v m =>
      obtain ⟨t', ht', hR⟩ := ih (h s t hst).2 (h s t hst).1
      exact ⟨t', .act ht', hR⟩

end Lockstep

/-- The program does not see the change `g` of the state, and keeps it. -/
def Blind (g : σ → σ) (p : Prog σ ε α) : Prop := Lockstep (fun s t => s = g t) p p

namespace Blind

variable {g : σ → σ}

theorem pure (a : α) : Blind g (pure a : Prog σ ε α) := Lockstep.pure a

theorem fail (e : ε) : Blind g (.fail e : Prog σ ε α) := Lockstep.fail e

theorem modify {f : σ → σ} (h : ∀ s, f (g s) = g (f s)) : Blind g (modify f : Prog σ ε Unit) :=
  Lockstep.modify fun _ t hst => hst ▸ h t

theorem bind {p : Prog σ ε α} {k : α → Prog σ ε β} (h : Blind g p) (hk : ∀ a, Blind g (k a)) :
    Blind g (p >>= k) := Lockstep.bind h hk

theorem get_bind {k : σ → Prog σ ε α} (hk : ∀ s, k (g s) = k s) (h : ∀ s, Blind g (k s)) :
    Blind g (Prog.get >>= k) := by
  refine Lockstep.get_bind fun s t hst => ?_
  rw [hst, hk]
  exact h t

theorem ite {c : Prop} [Decidable c] {p q : Prog σ ε α} (hp : Blind g p) (hq : Blind g q) :
    Blind g (if c then p else q) := Lockstep.ite Iff.rfl hp hq

end Blind

/-- From `s` and from `t` the programs end alike: both with one failure, or with one result in
states that `Q` relates. -/
def EndAlike (Q : σ → τ → Prop) (p : Prog σ ε α) (s : σ) (q : Prog τ ε α) (t : τ) : Prop :=
  (∃ e, p.exec s = .error e ∧ q.exec t = .error e) ∨
    ∃ a s' t', p.exec s = .ok (a, s') ∧ q.exec t = .ok (a, t') ∧ Q s' t'

namespace EndAlike

variable {Q T : σ → τ → Prop} {s : σ} {t : τ}

theorem of_lockstep {p : Prog σ ε α} {q : Prog τ ε α} (h : Lockstep Q p q) (hst : Q s t) :
    EndAlike Q p s q t := h.exec hst

theorem mono {p : Prog σ ε α} {q : Prog τ ε α} (h : EndAlike Q p s q t)
    (hQ : ∀ s t, Q s t → T s t) : EndAlike T p s q t :=
  h.imp_right fun ⟨a, s', t', hp, hq, hst⟩ => ⟨a, s', t', hp, hq, hQ s' t' hst⟩

theorem pure (a : α) (h : Q s t) : EndAlike Q (pure a : Prog σ ε α) s (pure a) t :=
  .inr ⟨a, s, t, rfl, rfl, h⟩

theorem fail (e : ε) : EndAlike Q (.fail e : Prog σ ε α) s (.fail e) t := .inl ⟨e, rfl, rfl⟩

theorem modify {f : σ → σ} {g : τ → τ} (h : Q (f s) (g t)) :
    EndAlike Q (modify f : Prog σ ε Unit) s (modify g) t := .inr ⟨(), f s, g t, rfl, rfl, h⟩

theorem bind {p : Prog σ ε α} {q : Prog τ ε α} {k : α → Prog σ ε β} {l : α → Prog τ ε β}
    (h : EndAlike T p s q t) (hk : ∀ a s' t', T s' t' → EndAlike Q (k a) s' (l a) t') :
    EndAlike Q (p >>= k) s (q >>= l) t := by
  obtain ⟨e, hp, hq⟩ | ⟨a, s', t', hp, hq, hst⟩ := h
  · refine .inl ⟨e, ?_, ?_⟩
    · rw [exec_bind, hp]
    · rw [exec_bind, hq]
  · rw [EndAlike, exec_bind_of_ok hp, exec_bind_of_ok hq]
    exact hk a s' t' hst

theorem get_bind {k : σ → Prog σ ε α} {l : τ → Prog τ ε α} (h : EndAlike Q (k s) s (l t) t) :
    EndAlike Q (Prog.get >>= k) s (Prog.get >>= l) t := h

theorem ite {c d : Prop} [Decidable c] [Decidable d] (hcd : c ↔ d) {p p' : Prog σ ε α}
    {q q' : Prog τ ε α} (h : EndAlike Q p s q t) (h' : EndAlike Q p' s q' t) :
    EndAlike Q (if c then p else p') s (if d then q else q') t := by
  by_cases hc : c
  · rw [if_pos hc, if_pos (hcd.mp hc)]
    exact h
  · rw [if_neg hc, if_neg (mt hcd.mpr hc)]
    exact h'

end EndAlike

end Prog

structure Focus (σ τ : Type) : Type where
  get : σ → τ
  put : τ → σ → σ
  get_put : ∀ t s, get (put t s) = t
  put_put : ∀ t t' s, put t (put t' s) = put t s

namespace Focus

variable (l : Focus σ τ)

def Sound (s : σ) : Prop := l.put (l.get s) s = s

def lift : Prog τ ε α → Prog σ ε α
  | .ret a => .ret a
  | .fail e => .fail e
  | .act u n => .act (fun s => l.put (u (l.get s)) s) fun s => lift (n (l.get s))

/-- `p` does to the part what `q` does, and nothing else. -/
def Mirrors (p : Prog σ ε α) (q : Prog τ ε α) : Prop :=
  ∀ r, Prog.Lockstep (fun s t => s = l.put t r) p q

namespace Mirrors

variable {l}

theorem pure (a : α) : l.Mirrors (pure a : Prog σ ε α) (pure a) := fun _ => .pure a

theorem modify {f : σ → σ} {g : τ → τ} (h : ∀ r t, f (l.put t r) = l.put (g t) r) :
    l.Mirrors (Prog.modify f : Prog σ ε Unit) (Prog.modify g) :=
  fun r => .modify fun _ t hst => hst ▸ h r t

theorem bind {p : Prog σ ε α} {q : Prog τ ε α} {k : α → Prog σ ε β} {k' : α → Prog τ ε β}
    (h : l.Mirrors p q) (hk : ∀ a, l.Mirrors (k a) (k' a)) : l.Mirrors (p >>= k) (q >>= k') :=
  fun r => (h r).bind fun a => hk a r

theorem get_bind {k : σ → Prog σ ε α} {k' : τ → Prog τ ε α}
    (h : ∀ r t, l.Mirrors (k (l.put t r)) (k' t)) : l.Mirrors (Prog.get >>= k) (Prog.get >>= k') := by
  refine fun r => .get_bind fun s t hst => ?_
  rw [hst]
  exact h r t r

theorem ite {c d : Prop} [Decidable c] [Decidable d] (hcd : c ↔ d) {p p' : Prog σ ε α}
    {q q' : Prog τ ε α} (h : l.Mirrors p q) (h' : l.Mirrors p' q') :
    l.Mirrors (if c then p else p') (if d then q else q') :=
  fun r => .ite hcd (h r) (h' r)

theorem lift (q : Prog τ ε α) : l.Mirrors (l.lift q) q := by
  intro r
  induction q with
  | ret a => exact .pure a
  | fail e => exact .fail e
  | act u n ih =>
    rintro _ t rfl
    refine ⟨?_, ?_⟩
    · change l.put (u (l.get (l.put t r))) (l.put t r) = l.put (u t) r
      rw [l.get_put, l.put_put]
    · change Prog.Lockstep _ (l.lift (n (l.get (l.put t r)))) (n t)
      rw [l.get_put]
      exact ih t

theorem exec {p : Prog σ ε α} {q : Prog τ ε α} (h : l.Mirrors p q) {s : σ} (hs : l.Sound s) :
    p.exec s = (q.exec (l.get s)).map fun x => (x.1, l.put x.2 s) := by
  obtain ⟨e, hp, hq⟩ | ⟨a, _, t, hp, hq, rfl⟩ := (h s).exec hs.symm
  · rw [hp, hq]
    rfl
  · rw [hp, hq]
    rfl

theorem passes_put {p : Prog σ ε α} {q : Prog τ ε α} (h : l.Mirrors p q) {s : σ} {t : τ}
    (hq : q.Passes (l.get s) t) (hs : l.Sound s) : p.Passes s (l.put t s) := by
  obtain ⟨_, hp, rfl⟩ := (h s).flip.passes hq hs.symm
  exact hp

end Mirrors

end Focus

end CanfdDriver.Lib
