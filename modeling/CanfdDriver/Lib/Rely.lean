import CanfdDriver.Lib.Thread

namespace CanfdDriver.Lib

variable {σ ε α β κ : Type}

namespace Prog

def Within (S : σ → σ → Prop) (F : ε → Prop) : Prog σ ε α → Prop
  | .ret _ => True
  | .fail e => F e
  | .act u n => ∀ s, S s (u s) ∧ (n s).Within S F

namespace Within

variable {S : σ → σ → Prop} {F : ε → Prop}

theorem pure (a : α) : (pure a : Prog σ ε α).Within S F := trivial

theorem fail {e : ε} (he : F e) : (fail e : Prog σ ε α).Within S F := he

theorem get [Std.Refl S] : (get : Prog σ ε σ).Within S F := fun s => ⟨Std.Refl.refl s, trivial⟩

theorem modify {f : σ → σ} (hf : ∀ s, S s (f s)) : (modify f : Prog σ ε Unit).Within S F :=
  fun s => ⟨hf s, trivial⟩

theorem bind {p : Prog σ ε α} {k : α → Prog σ ε β} (hp : p.Within S F)
    (hk : ∀ a, (k a).Within S F) : (p >>= k).Within S F := by
  change (p.bind k).Within S F
  induction p with
  | ret a => exact hk a
  | fail e => exact hp
  | act u n ih => exact fun s => ⟨(hp s).1, ih s (hp s).2⟩

theorem ite {c : Prop} [Decidable c] {p q : Prog σ ε α} (hp : p.Within S F)
    (hq : q.Within S F) : (if c then p else q).Within S F := by
  split
  next => exact hp
  next => exact hq

end Within

/-- From `s`, and whatever the rely `R` does before each action and at the end: every action meets
the guarantee `G`, every failure is one of `F`, and the end meets `Q`. -/
def Meets (R G : σ → σ → Prop) (F : ε → Prop) : Prog σ ε α → (α → σ → Prop) → σ → Prop
  | .ret a, Q, s => ∀ t, R s t → Q a t
  | .fail e, _, _ => F e
  | .act u n, Q, s => ∀ t, R s t → G t (u t) ∧ (n t).Meets R G F Q (u t)

namespace Meets

variable {R G : σ → σ → Prop} {F : ε → Prop} {Q : α → σ → Prop} {p : Prog σ ε α} {s t : σ}

theorem pure {a : α} (h : ∀ t, R s t → Q a t) : (pure a : Prog σ ε α).Meets R G F Q s := h

theorem get_bind [Std.Refl G] {k : σ → Prog σ ε α}
    (h : ∀ t, R s t → (k t).Meets R G F Q t) : (Prog.get >>= k).Meets R G F Q s :=
  fun t ht => ⟨Std.Refl.refl t, h t ht⟩

theorem modify_bind {f : σ → σ} {k : Unit → Prog σ ε α}
    (h : ∀ t, R s t → G t (f t) ∧ (k ()).Meets R G F Q (f t)) :
    (Prog.modify f >>= k).Meets R G F Q s := h

theorem ite {c : Prop} [Decidable c] {q : Prog σ ε α} (hp : c → p.Meets R G F Q s)
    (hq : ¬c → q.Meets R G F Q s) : (if c then p else q).Meets R G F Q s := by
  split
  next h => exact hp h
  next h => exact hq h

theorem mono {Q' : α → σ → Prop} (h : p.Meets R G F Q s) (hQ : ∀ a t, Q a t → Q' a t) :
    p.Meets R G F Q' s := by
  induction p generalizing s with
  | ret a => exact fun t ht => hQ a t (h t ht)
  | fail e => exact h
  | act u n ih => exact fun t ht => ⟨(h t ht).1, ih t (h t ht).2⟩

theorem bind {Q : β → σ → Prop} {k : α → Prog σ ε β}
    (h : p.Meets R G F (fun a t => (k a).Meets R G F Q t) s) [Std.Refl R] :
    (p >>= k).Meets R G F Q s := by
  change (p.bind k).Meets R G F Q s
  induction p generalizing s with
  | ret a => exact h s (Std.Refl.refl s)
  | fail e => exact h
  | act u n ih => exact fun t ht => ⟨(h t ht).1, ih t (h t ht).2⟩

theorem seq [Std.Refl R] {Q' : β → σ → Prop} {k : α → Prog σ ε β} (h : p.Meets R G F Q s)
    (hk : ∀ a t, Q a t → (k a).Meets R G F Q' t) : (p >>= k).Meets R G F Q' s :=
  bind (h.mono hk)

theorem of_within {S : σ → σ → Prop} {P : σ → Prop} (hp : p.Within S F)
    (hR : ∀ s t, P s → R s t → P t) (hS : ∀ s t, P s → S s t → P t)
    (hG : ∀ s t, P s → S s t → G s t) (hs : P s) : p.Meets R G F (fun _ => P) s := by
  induction p generalizing s with
  | ret a => exact fun t ht => hR s t hs ht
  | fail e => exact hp
  | act u n ih =>
    intro t ht
    have hPt := hR s t hs ht
    exact ⟨hG t _ hPt (hp t).1, ih t (hp t).2 (hS t _ hPt (hp t).1)⟩

theorem env [IsTrans σ R] (h : p.Meets R G F Q s) (hst : R s t) : p.Meets R G F Q t := by
  cases p with
  | ret a => exact fun r hr => h r (Trans.trans hst hr)
  | fail e => exact h
  | act u n => exact fun r hr => h r (Trans.trans hst hr)

theorem exec_error [Std.Refl R] {e : ε} (h : p.Meets R G F Q s) (hexec : p.exec s = .error e) :
    F e := by
  induction p generalizing s with
  | ret a => cases hexec
  | fail e' =>
    cases hexec
    exact h
  | act u n ih => exact ih s (h s (Std.Refl.refl s)).2 hexec

end Meets

end Prog

namespace Thread

/-- `J` holds between the calls, and what is left of a call meets what the call promises. -/
def Promises (R : σ → σ → Prop) (G : κ → σ → σ → Prop) (F : κ → ε → Prop)
    (J : List (κ × α) → σ → Prop) (b : Thread κ σ ε α) : Prop :=
  match b.rest with
  | none => J b.done b.state
  | some (k, p) => p.Meets R (G k) (F k) (fun a => J (b.done ++ [(k, a)])) b.state

variable {call : κ → Prog σ ε α} {E R : σ → σ → Prop} {G : κ → σ → σ → Prop} {F : κ → ε → Prop}
  {J : List (κ × α) → σ → Prop} {b b' : Thread κ σ ε α}

theorem Promises.step [Std.Refl R] [IsTrans σ R] (h : b.Promises R G F J)
    (hE : ∀ s t, E s t → R s t)
    (hcall : ∀ l k s, J l s → (call k).Meets R (G k) (F k) (fun a => J (l ++ [(k, a)])) s)
    (hJ : ∀ l s t, J l s → R s t → J l t) (hs : Step call E b b') : b'.Promises R G F J := by
  obtain ⟨m, hs⟩ := hs
  cases hs with
  | enter k hrest =>
    rw [Promises, hrest] at h
    exact hcall _ k _ h
  | act hrest =>
    rw [Promises, hrest] at h
    exact (h _ (Std.Refl.refl _)).2
  | leave hrest =>
    rw [Promises, hrest] at h
    exact h _ (Std.Refl.refl _)
  | env hr =>
    rw [Promises] at h ⊢
    cases hrest : b.rest with
    | none =>
      simp only [hrest] at h ⊢
      exact hJ _ _ _ h (hE _ _ hr)
    | some q =>
      simp only [hrest] at h ⊢
      exact h.env (hE _ _ hr)

theorem Run.promises [Std.Refl R] [IsTrans σ R] {s : σ} (h : Run call E (idle s) b)
    (hE : ∀ s t, E s t → R s t) (h0 : J [] s)
    (hcall : ∀ l k s, J l s → (call k).Meets R (G k) (F k) (fun a => J (l ++ [(k, a)])) s)
    (hJ : ∀ l s t, J l s → R s t → J l t) : b.Promises R G F J := by
  induction h with
  | refl => exact h0
  | tail _ hs ih => exact ih.step hE hcall hJ hs

theorem Promises.guarantee [Std.Refl R] (h : b.Promises R G F J) (hs : Step call E b b') :
    E b.state b'.state ∨ b'.state = b.state ∨
      ∃ k p, b.rest = some (k, p) ∧ G k b.state b'.state := by
  obtain ⟨m, hs⟩ := hs
  cases hs with
  | enter => exact .inr (.inl rfl)
  | leave => exact .inr (.inl rfl)
  | env hr => exact .inl hr
  | act hrest =>
    rw [Promises, hrest] at h
    exact .inr (.inr ⟨_, _, hrest, (h _ (Std.Refl.refl _)).1⟩)

theorem Promises.failure [Std.Refl R] {k : κ} {p : Prog σ ε α} {e : ε} (h : b.Promises R G F J)
    (hrest : b.rest = some (k, p)) (hexec : p.exec b.state = .error e) : F k e := by
  rw [Promises, hrest] at h
  exact h.exec_error hexec

end Thread

end CanfdDriver.Lib
