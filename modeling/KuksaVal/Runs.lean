import Mathlib.Data.Option.Basic

/-! Labelled transition systems: the states that runs reach, and the rule of invariants. Functions
that answer their inputs one by one, and when two of them answer alike. -/

/-- Steps with labels, from initial states. -/
structure TransitionSystem (σ α : Type*) where
  init : σ → Prop
  step : σ → α → σ → Prop

namespace TransitionSystem

variable {σ α : Type*} (S : TransitionSystem σ α)

/-- The states that are reached by steps which all meet a condition on the state before. -/
inductive Reachable (ok : σ → α → Prop) : σ → Prop
  | init {s : σ} (h : S.init s) : Reachable ok s
  | step {s s' : σ} {a : α} (hr : Reachable ok s) (hok : ok s a) (hs : S.step s a s') :
      Reachable ok s'

/-- Any step may be taken. -/
abbrev Any : σ → α → Prop := fun _ _ => True

variable {S} {ok ok' : σ → α → Prop}

/-- What holds initially and is preserved by the admitted steps holds in every reached state. -/
theorem Reachable.invariant {I : σ → Prop} (hi : ∀ s, S.init s → I s)
    (hs : ∀ s a s', I s → ok s a → S.step s a s' → I s') {s : σ} (h : S.Reachable ok s) :
    I s := by
  induction h with
  | init h => exact hi _ h
  | step _ hok hst ih => exact hs _ _ _ ih hok hst

theorem Reachable.mono (hok : ∀ s a, ok s a → ok' s a) {s : σ} (h : S.Reachable ok s) :
    S.Reachable ok' s := by
  induction h with
  | init h => exact .init h
  | step _ ha hs ih => exact .step ih (hok _ _ ha) hs

section Functions

/-- Steps by a partial function, from one state. -/
def ofNext (start : σ) (next : σ → α → Option σ) : TransitionSystem σ α where
  init s := s = start
  step s a s' := next s a = some s'

/-- Take the steps of a list in order. -/
def exec (next : σ → α → Option σ) : σ → List α → Option σ
  | s, [] => some s
  | s, a :: as => (next s a).bind fun s' => exec next s' as

variable {start : σ} {next : σ → α → Option σ}

/-- A list of steps that are admitted in every state. -/
theorem reachable_of_exec {s s' : σ} (as : List α) (h : (ofNext start next).Reachable ok s)
    (hok : ∀ a ∈ as, ∀ t, ok t a) (he : exec next s as = some s') :
    (ofNext start next).Reachable ok s' := by
  induction as generalizing s with
  | nil =>
    obtain rfl : s = s' := Option.some.inj he
    exact h
  | cons a as ih =>
    obtain ⟨t, ht, he⟩ := Option.bind_eq_some_iff.mp he
    have ha := hok a List.mem_cons_self s
    exact ih (.step h ha ht) (fun b hb => hok b (List.mem_cons_of_mem _ hb)) he

/-- A test of each step of a list where it is taken. -/
def admits (check : σ → α → Bool) (next : σ → α → Option σ) : σ → List α → Bool
  | _, [] => true
  | s, a :: as => check s a && (next s a).all fun s' => admits check next s' as

/-- A list of steps that are admitted where they are taken. -/
theorem reachable_of_admits {check : σ → α → Bool} (hok : ∀ s a, check s a = true → ok s a)
    {s s' : σ} (as : List α) (h : (ofNext start next).Reachable ok s)
    (ha : admits check next s as = true) (he : exec next s as = some s') :
    (ofNext start next).Reachable ok s' := by
  induction as generalizing s with
  | nil =>
    obtain rfl : s = s' := Option.some.inj he
    exact h
  | cons a as ih =>
    obtain ⟨t, ht, he⟩ := Option.bind_eq_some_iff.mp he
    simp only [admits, ht, Option.all_some, Bool.and_eq_true] at ha
    exact ih (.step h (hok s a ha.1) ht) ha.2 he

/-- The state after a list of steps, the start where one of them cannot be taken. -/
def after (start : σ) (next : σ → α → Option σ) (as : List α) : σ :=
  (exec next start as).getD start

theorem exec_eq_some_after {as : List α} (h : (exec next start as).isSome = true) :
    exec next start as = some (after start next as) := by
  obtain ⟨s, hs⟩ := Option.isSome_iff_exists.mp h
  rw [after, hs]
  rfl

theorem after_reachable (as : List α) (hok : ∀ a ∈ as, ∀ t, ok t a) :
    (ofNext start next).Reachable ok (after start next as) := by
  unfold after
  cases he : exec next start as with
  | none => exact .init rfl
  | some s => exact reachable_of_exec as (.init rfl) hok he

end Functions

end TransitionSystem

namespace Answering

variable {σ τ α ο : Type*}

/-- The answers to a list of inputs, and the state after them. -/
def run (step : σ → α → ο × σ) : σ → List α → List ο × σ
  | s, [] => ([], s)
  | s, a :: as =>
      ((step s a).1 :: (run step (step s a).2 as).1, (run step (step s a).2 as).2)

/-- Each input meets a condition on the state it is taken in. -/
def Throughout (P : σ → α → Prop) (step : σ → α → ο × σ) : σ → List α → Prop
  | _, [] => True
  | s, a :: as => P s a ∧ Throughout P step (step s a).2 as

variable {stepS : σ → α → ο × σ} {stepT : τ → α → ο × τ} {f : σ → τ}

/-- States that correspond do so after any inputs. -/
theorem run_state (hstate : ∀ s a, f (stepS s a).2 = (stepT (f s) a).2) (s : σ) (as : List α) :
    f (run stepS s as).2 = (run stepT (f s) as).2 := by
  induction as generalizing s with
  | nil => rfl
  | cons a as ih =>
    simp only [run]
    rw [ih, hstate]

/-- Where the states correspond, the answers are alike exactly where each one is. -/
theorem run_answers_iff {P : τ → α → Prop} (hstate : ∀ s a, f (stepS s a).2 = (stepT (f s) a).2)
    (hanswer : ∀ s a, (stepS s a).1 = (stepT (f s) a).1 ↔ P (f s) a) (s : σ) (as : List α) :
    (run stepS s as).1 = (run stepT (f s) as).1 ↔ Throughout P stepT (f s) as := by
  induction as generalizing s with
  | nil => simp [run, Throughout]
  | cons a as ih =>
    simp only [run, Throughout, List.cons.injEq]
    rw [hanswer, ← hstate, ih]

end Answering
