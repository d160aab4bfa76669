import CanfdDriver.Lib.Prog

namespace CanfdDriver.Lib.Prog

variable {σ ε α β τ : Type}

/-- From `s` the program comes to its end with `a` in `t`, while the interference `R` acts
between its actions. -/
inductive Runs (R : σ → σ → Prop) : Prog σ ε α → σ → α → σ → Prop
  | ret {a : α} {s : σ} : Runs R (.ret a) s a s
  | act {u : σ → σ} {n : σ → Prog σ ε α} {s t : σ} {a : α} :
      Runs R (n s) (u s) a t → Runs R (.act u n) s a t
  | env {p : Prog σ ε α} {s s' t : σ} {a : α} : R s s' → Runs R p s' a t → Runs R p s a t

variable {R : σ → σ → Prop}

theorem Runs.bind {p : Prog σ ε α} {k : α → Prog σ ε β} {s r t : σ} {a : α} {b : β}
    (hp : Runs R p s a r) (hk : Runs R (k a) r b t) : Runs R (p >>= k) s b t := by
  induction hp with
  | ret => exact hk
  | act _ ih => exact .act (ih hk)
  | env hr _ ih => exact .env hr (ih hk)

theorem runs_bind {p : Prog σ ε α} {k : α → Prog σ ε β} {s t : σ} {b : β} :
    Runs R (p >>= k) s b t ↔ ∃ a r, Runs R p s a r ∧ Runs R (k a) r b t := by
  refine ⟨fun h => ?_, fun ⟨a, r, hp, hk⟩ => hp.bind hk⟩
  change Runs R (p.bind k) s b t at h
  generalize hq : p.bind k = q at h
  induction h generalizing p with
  | ret =>
    cases p with
    | ret a =>
      have hk : k a = _ := hq
      exact ⟨a, _, .ret, hk ▸ .ret⟩
    | fail e => cases hq
    | act u n => cases hq
  | act h ih =>
    cases p with
    | ret a =>
      have hk : k a = _ := hq
      exact ⟨a, _, .ret, hk ▸ .act h⟩
    | fail e => cases hq
    | act u n =>
      cases hq
      obtain ⟨a, r, ha, hk⟩ := ih rfl
      exact ⟨a, r, .act ha, hk⟩
  | env hr _ ih =>
    obtain ⟨a, r, ha, hk⟩ := ih hq
    exact ⟨a, r, .env hr ha, hk⟩

theorem Runs.of_exec {p : Prog σ ε α} {s t : σ} {a : α} (h : p.exec s = .ok (a, t)) :
    Runs R p s a t := by
  induction p generalizing s with
  | ret b =>
    cases h
    exact .ret
  | fail e => cases h
  | act u n ih => exact .act (ih s h)

theorem Returns.runs {P : α → Prop} {p : Prog σ ε α} (hp : p.Returns P) {s t : σ} {a : α}
    (h : Runs R p s a t) : P a := by
  induction h with
  | ret => exact hp
  | act _ ih => exact ih (hp _)
  | env _ _ ih => exact ih hp

theorem Runs.not_fail {e : ε} {s t : σ} {a : α} : ¬Runs R (.fail e) s a t := by
  generalize hp : (Prog.fail e : Prog σ ε α) = p
  intro h
  induction h with
  | ret => cases hp
  | act => cases hp
  | env _ _ ih => exact ih hp

theorem Moves.runs {S : σ → σ → Prop} [Std.Refl S] [IsTrans σ S] {p : Prog σ ε α}
    (hp : p.Moves S) (hR : ∀ s t, R s t → S s t) {s t : σ} {a : α} (h : Runs R p s a t) : S s t := by
  induction h with
  | ret => exact Std.Refl.refl _
  | act _ ih => exact Trans.trans (hp _).1 (ih (hp _).2)
  | env hr _ ih => exact Trans.trans (hR _ _ hr) (ih hp)

theorem runs_get {π : σ → τ} (hR : ∀ s t, R s t → π t = π s) {s t a : σ}
    (h : Runs R (get : Prog σ ε σ) s a t) : π a = π s ∧ π t = π s := by
  generalize hp : (get : Prog σ ε σ) = p at h
  have hret {b : σ} {s a t : σ} (h : Runs R (.ret b : Prog σ ε σ) s a t) : a = b ∧ π t = π s := by
    generalize hq : (.ret b : Prog σ ε σ) = q at h
    induction h with
    | ret =>
      cases hq
      exact ⟨rfl, rfl⟩
    | act => cases hq
    | env hr _ ih => exact ⟨(ih hq).1, (ih hq).2.trans (hR _ _ hr)⟩
  induction h with
  | ret => cases hp
  | act h =>
    cases hp
    obtain ⟨rfl, ht⟩ := hret h
    exact ⟨rfl, ht⟩
  | env hr _ ih =>
    obtain ⟨ha, ht⟩ := ih hp
    exact ⟨ha.trans (hR _ _ hr), ht.trans (hR _ _ hr)⟩

/-- On the part `π` of the state, the program acts as `f` does, whatever the rest is. -/
inductive Maps (π : σ → τ) : (τ → τ) → Prog σ ε α → Prop
  | ret {a : α} : Maps π id (.ret a)
  | fail {f : τ → τ} {e : ε} : Maps π f (.fail e)
  | act {f g : τ → τ} {u : σ → σ} {n : σ → Prog σ ε α} :
      (∀ s, π (u s) = f (π s)) → (∀ s, Maps π g (n s)) → Maps π (g ∘ f) (.act u n)

namespace Maps

variable {π : σ → τ} {f g : τ → τ}

theorem pure (a : α) : Maps π id (pure a : Prog σ ε α) := .ret

theorem get_bind {k : σ → Prog σ ε α} (h : ∀ s, Maps π f (k s)) : Maps π f (get >>= k) :=
  .act (fun _ => rfl) h

theorem modify {u : σ → σ} (hu : ∀ s, π (u s) = f (π s)) :
    Maps π f (Prog.modify u : Prog σ ε Unit) :=
  (Maps.act hu fun _ => .ret :)

theorem bind {p : Prog σ ε α} {k : α → Prog σ ε β} (hp : Maps π f p) (hk : ∀ a, Maps π g (k a)) :
    Maps π (g ∘ f) (p >>= k) := by
  induction hp with
  | ret => exact hk _
  | fail => exact .fail
  | act hu _ ih => exact (Maps.act hu ih :)

theorem of_moves {p : Prog σ ε α} (h : p.Moves fun s t => π t = π s) : Maps π id p := by
  induction p with
  | ret a => exact .ret
  | fail e => exact .fail
  | act u n ih => exact .act (f := id) (fun s => (h s).1) fun s => ih s (h s).2

theorem runs {p : Prog σ ε α} (hp : Maps π f p) (hR : ∀ s t, R s t → π t = π s) {s t : σ} {a : α}
    (h : Runs R p s a t) : π t = f (π s) := by
  induction h generalizing f with
  | ret =>
    cases hp
    rfl
  | act _ ih =>
    cases hp with
    | act hu hn => rw [ih (hn _), hu]; rfl
  | env hr _ ih => rw [ih hp, hR _ _ hr]

end Maps

end CanfdDriver.Lib.Prog
