import KuksaVal.Runs

/-! Information flow in machines that answer their inputs: what an observer is answered does not
depend on inputs that are hidden from it. -/
namespace Answering

variable {σ α ο : Type*}

/-- The answers to the inputs that are the observer's own. -/
def observed (own : α → Bool) (step : σ → α → ο × σ) : σ → List α → List ο
  | _, [] => []
  | s, a :: as =>
      if own a then (step s a).1 :: observed own step (step s a).2 as
      else observed own step (step s a).2 as

/-- States that an observer takes for one another stay so: under its own inputs, which are answered
alike, under those of others, and where only one of them takes a hidden one. -/
structure Unwinds (own hidden : α → Bool) (ok : σ → α → Prop) (step : σ → α → ο × σ)
    (R : σ → σ → Prop) : Prop where
  own_open : ∀ a, hidden a = true → own a = false
  answer : ∀ s t a, R s t → ok s a → own a = true → (step s a).1 = (step t a).1
  open_step : ∀ s t a, R s t → ok s a → hidden a = false → R (step s a).2 (step t a).2
  hidden_step : ∀ s t a, R s t → ok s a → hidden a = true → R (step s a).2 t

variable {own hidden : α → Bool} {ok : σ → α → Prop} {step : σ → α → ο × σ} {R : σ → σ → Prop}

/-- A run is answered like the run without its hidden inputs. -/
theorem Unwinds.purge (h : Unwinds own hidden ok step R) {s t : σ} (hst : R s t) (as : List α)
    (hok : Throughout ok step s as) :
    observed own step s as = observed own step t (as.filter fun a => !hidden a) ∧
      R (run step s as).2 (run step t (as.filter fun a => !hidden a)).2 := by
  induction as generalizing s t with
  | nil => exact ⟨rfl, hst⟩
  | cons a as ih =>
    obtain ⟨ha, has⟩ := hok
    cases hh : hidden a with
    | true =>
      have hown := h.own_open a hh
      simpa [observed, run, hh, hown] using ih (h.hidden_step s t a hst ha hh) has
    | false =>
      obtain ⟨hans, hend⟩ := ih (h.open_step s t a hst ha hh) has
      rw [List.filter_cons_of_pos (by simp [hh])]
      refine ⟨?_, hend⟩
      simp only [observed, hans]
      cases hown : own a with
      | true => rw [h.answer s t a hst ha hown]
      | false => rfl

/-- Two runs with the same open inputs are answered alike. -/
theorem Unwinds.observed_eq (h : Unwinds own hidden ok step R) (hsymm : ∀ s t, R s t → R t s)
    (htrans : ∀ s t u, R s t → R t u → R s u) {s : σ} (hs : R s s) {as bs : List α}
    (has : Throughout ok step s as) (hbs : Throughout ok step s bs)
    (heq : as.filter (fun a => !hidden a) = bs.filter fun a => !hidden a) :
    observed own step s as = observed own step s bs ∧
      R (run step s as).2 (run step s bs).2 := by
  obtain ⟨ha, hra⟩ := h.purge hs as has
  obtain ⟨hb, hrb⟩ := h.purge hs bs hbs
  rw [heq] at ha hra
  exact ⟨ha.trans hb.symm, htrans _ _ _ hra (hsymm _ _ hrb)⟩

end Answering
