import Mathlib.Data.List.Perm.Subperm
import Mathlib.Logic.Function.Basic
import Mathlib.Logic.Relation

/-! A broadcast medium with lossy listeners: what a node is given to send waits,
goes over the medium at most once, and is heard by any of the nodes, which may
lose what they hold. -/

namespace CanfdDriver.Lib

structure Medium (ι μ : Type) where
  offered : ι → List μ
  waiting : ι → List μ
  /-- What went over the medium, with its senders, oldest first. -/
  sent : List (ι × μ)
  /-- What each node has heard and not lost, oldest first. -/
  held : ι → List μ

namespace Medium

variable {ι μ : Type} [DecidableEq ι] {s t : Medium ι μ}

def empty : Medium ι μ := ⟨fun _ => [], fun _ => [], [], fun _ => []⟩

def sentBy (i : ι) (l : List (ι × μ)) : List μ := (l.filter fun p => p.1 = i).map Prod.snd

inductive Step (s : Medium ι μ) : Medium ι μ → Prop
  | offer (i : ι) (m : μ) : Step s
      { s with
        offered := Function.update s.offered i (s.offered i ++ [m])
        waiting := Function.update s.waiting i (s.waiting i ++ [m]) }
  /-- The nodes that `hears` names hear the message; its sender may be one of them. -/
  | send {i : ι} {m : μ} {before after : List μ} (hears : ι → Bool) :
      s.waiting i = before ++ m :: after → Step s
      { s with
        waiting := Function.update s.waiting i (before ++ after)
        sent := s.sent ++ [(i, m)]
        held := fun j => if hears j then s.held j ++ [m] else s.held j }
  | withdraw {waiting : ι → List μ} : (∀ i, (waiting i).Sublist (s.waiting i)) →
      Step s { s with waiting := waiting }
  | lose {held : ι → List μ} : (∀ j, (held j).Sublist (s.held j)) → Step s { s with held := held }

theorem sublist_update {f : ι → List μ} {i : ι} {l : List μ} (h : l.Sublist (f i)) (j : ι) :
    (Function.update f i l j).Sublist (f j) := by
  obtain rfl | hne := eq_or_ne j i
  · rw [Function.update_self]
    exact h
  · rw [Function.update_of_ne hne]

theorem Step.lose_at {i : ι} {l : List μ} (h : l.Sublist (s.held i)) :
    Step s { s with held := Function.update s.held i l } := .lose (sublist_update h)

theorem Step.withdraw_at {i : ι} {l : List μ} (h : l.Sublist (s.waiting i)) :
    Step s { s with waiting := Function.update s.waiting i l } := .withdraw (sublist_update h)

abbrev Run : Medium ι μ → Medium ι μ → Prop := Relation.ReflTransGen Step

/-- Every node holds some of what went over the medium, in that order; and what went over it for a
node, together with what waits there, was offered there, each thing as often. -/
structure Sound (s : Medium ι μ) : Prop where
  held : ∀ j, (s.held j).Sublist (s.sent.map Prod.snd)
  sent : ∀ i, (sentBy i s.sent ++ s.waiting i).Subperm (s.offered i)

theorem sentBy_append_self (i : ι) (l : List (ι × μ)) (m : μ) :
    sentBy i (l ++ [(i, m)]) = sentBy i l ++ [m] := by
  simp [sentBy]

theorem sentBy_append_of_ne {i j : ι} (h : i ≠ j) (l : List (ι × μ)) (m : μ) :
    sentBy j (l ++ [(i, m)]) = sentBy j l := by
  simp [sentBy, h]

theorem Step.sound (h : Step s t) (hs : Sound s) : Sound t := by
  cases h with
  | offer i m =>
    refine ⟨hs.held, fun j => ?_⟩
    obtain rfl | hne := eq_or_ne j i
    · simp only [Function.update_self, ← List.append_assoc]
      exact (hs.sent j).append (List.Subperm.refl [m])
    · simp only [Function.update_of_ne hne]
      exact hs.sent j
  | @send i m before after hears hw =>
    refine ⟨fun j => ?_, fun j => ?_⟩
    · simp only [List.map_append, List.map_cons, List.map_nil]
      split
      next => exact (hs.held j).append (List.Sublist.refl [m])
      next => exact (hs.held j).trans (List.sublist_append_left _ _)
    · obtain rfl | hne := eq_or_ne j i
      · have hsent := hs.sent j
        simp only [hw] at hsent
        simp only [Function.update_self, sentBy_append_self, List.append_assoc]
        have hperm : ([m] ++ (before ++ after)).Perm (before ++ m :: after) :=
          (List.perm_middle.symm : (m :: (before ++ after)).Perm _)
        exact (hperm.append_left _).subperm.trans hsent
      · simp only [Function.update_of_ne hne, sentBy_append_of_ne hne.symm]
        exact hs.sent j
  | withdraw hl =>
    exact ⟨hs.held, fun i => ((hl i).append_left _).subperm.trans (hs.sent i)⟩
  | lose hl => exact ⟨fun j => (hl j).trans (hs.held j), hs.sent⟩

theorem sound_empty : Sound (empty : Medium ι μ) := ⟨fun _ => .slnil, fun _ => .refl _⟩

theorem Run.sound (h : Run s t) (hs : Sound s) : Sound t := by
  induction h with
  | refl => exact hs
  | tail _ hst ih => exact hst.sound ih

end Medium

end CanfdDriver.Lib
