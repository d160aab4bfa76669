import Mathlib.Logic.Relation

namespace CanfdDriver.Lib

variable {σ ℓ κ : Type}

/-- `s` is reached from `start` by steps that all meet `allowed`. -/
def Reach (step : σ → ℓ → σ → Prop) (allowed : σ → ℓ → Prop) (start s : σ) : Prop :=
  Relation.ReflTransGen (fun s t => ∃ l, allowed s l ∧ step s l t) start s

namespace Reach

variable {step : σ → ℓ → σ → Prop} {allowed allowed' : σ → ℓ → Prop} {start s t : σ}

theorem tail {l : ℓ} (h : Reach step allowed start s) (ha : allowed s l) (hs : step s l t) :
    Reach step allowed start t :=
  Relation.ReflTransGen.tail h ⟨l, ha, hs⟩

theorem invariant {I : σ → Prop} (h : Reach step allowed start s) (h0 : I start)
    (hstep : ∀ s l t, I s → allowed s l → step s l t → I t) : I s := by
  induction h with
  | refl => exact h0
  | tail _ hs ih =>
    obtain ⟨l, ha, hst⟩ := hs
    exact hstep _ l _ ih ha hst

theorem mono (h : Reach step allowed start s) (ha : ∀ s l, allowed s l → allowed' s l) :
    Reach step allowed' start s :=
  Relation.ReflTransGen.mono (fun _ _ ⟨l, hl, hs⟩ => ⟨l, ha _ l hl, hs⟩) _ _ h

end Reach

/-- The state after a list of commands, each carried out by `fire`. -/
def play (fire : σ → κ → Option σ) : List κ → σ → Option σ
  | [], s => some s
  | k :: ks, s => (fire s k).bind (play fire ks)

def guarded (ok : σ → κ → Bool) (fire : σ → κ → Option σ) (s : σ) (k : κ) : Option σ :=
  if ok s k then fire s k else none

variable {fire : σ → κ → Option σ} {r : σ → σ → Prop} {ks : List κ} {s t : σ}

theorem run_play (hfire : ∀ s k t, fire s k = some t → r s t) (h : play fire ks s = some t) :
    Relation.ReflTransGen r s t := by
  induction ks generalizing s with
  | nil =>
    cases h
    exact .refl
  | cons k ks ih =>
    obtain ⟨u, hu, hrest⟩ := Option.bind_eq_some_iff.mp h
    exact .head (hfire s k u hu) (ih hrest)

theorem run_of_play (hfire : ∀ s k t, fire s k = some t → r s t) (ks : List κ) (p : σ → Bool)
    (h : (play fire ks s).map p = some true) : ∃ t, Relation.ReflTransGen r s t ∧ p t = true := by
  obtain ⟨t, ht, hp⟩ := Option.map_eq_some_iff.mp h
  exact ⟨t, run_play hfire ht, hp⟩

namespace Reach

variable {step : σ → ℓ → σ → Prop} {allowed : σ → ℓ → Prop}

theorem of_play (hfire : ∀ s k t, fire s k = some t → ∃ l, allowed s l ∧ step s l t)
    (ks : List κ) (p : σ → Bool) (h : (play fire ks s).map p = some true) :
    ∃ t, Reach step allowed s t ∧ p t = true := run_of_play hfire ks p h

theorem of_guarded {fire : σ → ℓ → Option σ} (ok : σ → ℓ → Bool)
    (hok : ∀ s l, ok s l = true → allowed s l) (hfire : ∀ s l t, fire s l = some t → step s l t)
    (ls : List ℓ) (p : σ → Bool) (h : (play (guarded ok fire) ls s).map p = some true) :
    ∃ t, Reach step allowed s t ∧ p t = true := by
  refine of_play (fun s l t h => ?_) ls p h
  rw [guarded] at h
  split at h
  next hl => exact ⟨l, hok s l hl, hfire s l t h⟩
  next => cases h

end Reach

end CanfdDriver.Lib
