import Mathlib.Logic.Relation
import Mathlib.Order.Basic

/-! Mutexes of threads. A deadlock is a cycle of threads of which each waits for a mutex of the
next one; an order in which the mutexes are taken excludes it. -/

/-- The owner of each mutex, and the mutex that each thread waits for. -/
structure LockState (τ μ : Type*) where
  owner : μ → Option τ
  waits : τ → Option μ

namespace LockState
variable {τ μ : Type*} (s : LockState τ μ)

def WaitsOn (t t' : τ) : Prop := ∃ m, s.waits t = some m ∧ s.owner m = some t'

def Deadlocked : Prop := ∃ t, Relation.TransGen s.WaitsOn t t

variable {s} {α : Type*} [Preorder α] (rank : μ → α)

/-- Along a chain of waiting threads the mutexes go up. -/
theorem rank_lt (h : ∀ {t t' m m'}, s.waits t = some m → s.owner m = some t' →
    s.waits t' = some m' → rank m < rank m') {t t' : τ} {m m' : μ}
    (hp : Relation.TransGen s.WaitsOn t t') (hm : s.waits t = some m)
    (hm' : s.waits t' = some m') : rank m < rank m' := by
  induction hp generalizing m' with
  | single hw =>
    obtain ⟨m₁, h₁, ho⟩ := hw
    obtain rfl := Option.some.inj (hm.symm.trans h₁)
    exact h hm ho hm'
  | tail _ hw ih =>
    obtain ⟨m₁, h₁, ho⟩ := hw
    exact (ih h₁).trans (h h₁ ho hm')

/-- No deadlock, where every owner that waits does so for a higher mutex. -/
theorem not_deadlocked (h : ∀ {t t' m m'}, s.waits t = some m → s.owner m = some t' →
    s.waits t' = some m' → rank m < rank m') : ¬ s.Deadlocked := by
  rintro ⟨t, hp⟩
  obtain ⟨_, ⟨m, hm, -⟩, -⟩ := Relation.TransGen.head'_iff.mp hp
  exact lt_irrefl _ (rank_lt rank h hp hm hm)

theorem deadlocked_of_pair {t t' : τ} (h : s.WaitsOn t t') (h' : s.WaitsOn t' t) :
    s.Deadlocked := ⟨t, .tail (.single h) h'⟩

section Owners

/-- The owner of a mutex is the thread that holds it. -/
def OwnerOf (owner : μ → Option τ) (holds : τ → List μ) : Prop :=
  ∀ m t, owner m = some t ↔ m ∈ holds t

variable {owner : μ → Option τ} {holds holds' : τ → List μ} {t : τ} {m : μ}

variable [DecidableEq μ]

theorem OwnerOf.acquire (h : OwnerOf owner holds) (hfree : owner m = none)
    (ht : ∀ m', m' ∈ holds' t ↔ m' = m ∨ m' ∈ holds t)
    (hother : ∀ t', t' ≠ t → holds' t' = holds t') :
    OwnerOf (Function.update owner m (some t)) holds' := by
  intro m' t'
  have hm (u : τ) : m ∉ holds u := fun hu => by simp [(h m u).mpr hu] at hfree
  rw [Function.update_apply]
  by_cases htt : t' = t
  · subst htt
    rw [ht]
    split_ifs with hmm
    · simp [hmm]
    · simp [hmm, h m' t']
  · rw [hother t' htt]
    split_ifs with hmm
    · subst hmm
      simp [hm, Ne.symm htt]
    · exact h m' t'

theorem OwnerOf.release (h : OwnerOf owner holds) (hm : m ∈ holds t)
    (ht : ∀ m', m' ∈ holds' t ↔ m' ≠ m ∧ m' ∈ holds t)
    (hother : ∀ t', t' ≠ t → holds' t' = holds t') :
    OwnerOf (Function.update owner m none) holds' := by
  intro m' t'
  rw [Function.update_apply]
  by_cases htt : t' = t
  · subst htt
    rw [ht]
    split_ifs with hmm
    · simp [hmm]
    · simp [hmm, h m' t']
  · rw [hother t' htt]
    split_ifs with hmm
    · subst hmm
      have hno : m' ∉ holds t' := by
        intro hu
        have heq := (h m' t).mpr hm
        rw [(h m' t').mpr hu] at heq
        exact htt (Option.some.inj heq)
      simp [hno]
    · exact h m' t'

/-- A thread that held `ms` holds `ms'`: it has given back one mutex or none. -/
def GivesBack (owner owner' : μ → Option τ) (ms ms' : List μ) : Prop :=
  ms' = ms ∧ owner' = owner ∨ ∃ m ∈ ms, ms' = ms.erase m ∧ owner' = Function.update owner m none

theorem OwnerOf.givesBack {owner' : μ → Option τ} (h : OwnerOf owner holds)
    (hnodup : (holds t).Nodup) (hback : GivesBack owner owner' (holds t) (holds' t))
    (hother : ∀ t', t' ≠ t → holds' t' = holds t') : OwnerOf owner' holds' := by
  rcases hback with ⟨hsame, rfl⟩ | ⟨m, hm, herase, rfl⟩
  · have heq : holds' = holds := by
      funext t'
      by_cases htt : t' = t
      · rw [htt, hsame]
      · exact hother t' htt
    rwa [heq]
  · apply h.release hm _ hother
    intro m'
    rw [herase, hnodup.mem_erase_iff]

end Owners

end LockState
