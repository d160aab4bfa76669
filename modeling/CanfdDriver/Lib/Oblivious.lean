import CanfdDriver.Lib.Lockstep
import CanfdDriver.Lib.Thread

namespace CanfdDriver.Lib

variable {σ ε α β κ : Type}

namespace Prog

/-- From states with the same view the program goes on alike, and to states with the same view. -/
def Oblivious (v : σ → σ) (p : Prog σ ε α) : Prop := Lockstep (fun s t => v s = v t) p p

namespace Oblivious

variable {v : σ → σ}

theorem pure (a : α) : Oblivious v (pure a : Prog σ ε α) := Lockstep.pure a

theorem fail (e : ε) : Oblivious v (.fail e : Prog σ ε α) := Lockstep.fail e

theorem bind {p : Prog σ ε α} {k : α → Prog σ ε β} (h : Oblivious v p)
    (hk : ∀ a, Oblivious v (k a)) : Oblivious v (p >>= k) := Lockstep.bind h hk

theorem ite {c : Prop} [Decidable c] {p q : Prog σ ε α} (hp : Oblivious v p) (hq : Oblivious v q) :
    Oblivious v (if c then p else q) := Lockstep.ite Iff.rfl hp hq

theorem modify {f : σ → σ} (h : ∀ s t, v s = v t → v (f s) = v (f t)) :
    Oblivious v (modify f : Prog σ ε Unit) := Lockstep.modify h

theorem modify_view {f : σ → σ} (h : ∀ s, v (f s) = f (v s)) :
    Oblivious v (Prog.modify f : Prog σ ε Unit) :=
  .modify fun s t hst => by rw [h, h, hst]

theorem modify_unseen {f : σ → σ} (h : ∀ s, v (f s) = v s) :
    Oblivious v (Prog.modify f : Prog σ ε Unit) :=
  .modify fun s t hst => by rw [h, h, hst]

theorem get_bind {k : σ → Prog σ ε α} (hk : ∀ s, k s = k (v s)) (h : ∀ s, Oblivious v (k s)) :
    Oblivious v (Prog.get >>= k) :=
  Lockstep.get_bind fun s t hst => by
    rw [hk s, hst, ← hk t]
    exact h t

end Oblivious

/-- However it is interrupted, the program ends as the other one does that is left alone. -/
theorem Lockstep.conc {v : σ → σ} {R : σ → σ → Prop} {p q : Prog σ ε α} {s t : σ}
    (h : Lockstep (fun s t => v s = v t) p q) (hR : ∀ s t, R s t → v t = v s) (hst : v s = v t) :
    Conc R (fun _ => True) p (fun a s' => ∃ t', q.exec t = .ok (a, t') ∧ v s' = v t') s := by
  have hstar {s s' : σ} (h : Relation.ReflTransGen R s s') : v s' = v s := by
    induction h with
    | refl => rfl
    | tail _ hr ih => exact (hR _ _ hr).trans ih
  induction p generalizing q s t with
  | ret a =>
    cases q with
    | ret b =>
      cases (show a = b from h)
      exact fun s' hs => ⟨trivial, t, rfl, (hstar hs).trans hst⟩
    | fail e => exact h.elim
    | act u n => exact h.elim
  | fail e => exact fun _ _ => trivial
  | act u n ih =>
    cases q with
    | ret b => exact h.elim
    | fail e => exact h.elim
    | act w k =>
      intro s' hs
      have hnext := h s' t ((hstar hs).trans hst)
      exact ⟨trivial, (ih s' hnext.2 hnext.1 :)⟩

end Prog

inductive Alone (call : κ → Prog σ ε α) (s : σ) : List (κ × α) → σ → Prop
  | nil : Alone call s [] s
  | snoc {l : List (κ × α)} {t u : σ} {k : κ} {a : α} : Alone call s l t →
      (call k).exec t = .ok (a, u) → Alone call s (l ++ [(k, a)]) u

/-- Calls that see only the view return under interruption what they return alone, if every other
call leaves the view as it is. -/
theorem Thread.Run.alone {v : σ → σ} {R : σ → σ → Prop} {call : κ → Prog σ ε α} {seen : κ → Bool}
    {s : σ} {b : Thread κ σ ε α} (h : Thread.Run call R (.idle s) b)
    (hR : ∀ s t, R s t → v t = v s) (hseen : ∀ k, seen k = true → (call k).Oblivious v)
    (hunseen : ∀ k, seen k = false → (call k).Moves fun s t => v t = v s) (hrest : b.rest = none) :
    ∃ t, Alone call s (b.done.filter fun q => seen q.1) t ∧ v b.state = v t := by
  refine h.between (J := fun l s' => ∃ t, Alone call s (l.filter fun q => seen q.1) t ∧ v s' = v t)
    ⟨s, .nil, rfl⟩ ?_ ?_ hrest
  · rintro l k s' ⟨t, ht, hv⟩
    cases hk : seen k with
    | true =>
      refine ((hseen k hk).conc hR hv).mono (fun _ => id) fun a s'' _ ⟨t', hexec, hv'⟩ => ?_
      refine ⟨t', ?_, hv'⟩
      rw [List.filter_append, List.filter_singleton, hk]
      exact ht.snoc hexec
    | false =>
      have hpres := (hunseen k hk).preserves (I := fun s'' => v s'' = v s') fun _ _ hs hst => hst.trans hs
      refine (hpres.conc (fun _ _ hs hst => (hR _ _ hst).trans hs) rfl).mono (fun _ _ => trivial) ?_
      intro a s'' _ hs''
      refine ⟨t, ?_, hs''.trans hv⟩
      rw [List.filter_append, List.filter_singleton, hk]
      simpa using ht
  · rintro l s' s'' ⟨t, ht, hv⟩ hr
    exact ⟨t, ht, (hR _ _ hr).trans hv⟩

end CanfdDriver.Lib
