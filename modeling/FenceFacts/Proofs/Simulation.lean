import FenceFacts.Proofs.Labels

/-!
# FenceFacts — two runs side by side

The same action is run on two states that are not the same but correspond to
each other.  If the states correspond afterwards as well, and both runs have
answers that correspond or fail with the same error, then whatever tells the
states apart has no influence.  Actions made of parts that keep the
correspondence keep it too, however often the parts are run.

## Results

* `Simulates.bind`, `Simulates.forM`, `Simulates.foldlM` — actions out of parts.
* `Simulates.resultOf_eq`, `Simulates.stateAfter`        — what a run tells of the other.
-/

namespace FenceFacts

variable {ε ε' α α' β β' γ S S' : Type}

/-- Both runs have answers, or both the same error; what they leave corresponds. -/
inductive EndAlike (R : S → S' → Prop) (V : α → α' → Prop) :
    EStateM.Result ε S α → EStateM.Result ε S' α' → Prop
  | ok {a : α} {a' : α'} {s : S} {s' : S'} : V a a' → R s s' →
    EndAlike R V (.ok a s) (.ok a' s')
  | error {s : S} {s' : S'} (e : ε) : R s s' → EndAlike R V (.error e s) (.error e s')

/-- From states that correspond, the runs end alike. -/
def Simulates (R : S → S' → Prop) (V : α → α' → Prop) (action : EStateM ε S α)
    (action' : EStateM ε S' α') : Prop :=
  ∀ s s', R s s' → EndAlike R V (action s) (action' s')

namespace Simulates

variable {R : S → S' → Prop} {V : α → α' → Prop} {W : β → β' → Prop}

theorem pure {a : α} {a' : α'} (h : V a a') :
    Simulates R V (Pure.pure a : EStateM ε S α) (Pure.pure a' : EStateM ε S' α') :=
  fun _ _ hs => .ok h hs

theorem bind {m : EStateM ε S α} {m' : EStateM ε S' α'} {k : α → EStateM ε S β}
    {k' : α' → EStateM ε S' β'} (hm : Simulates R V m m')
    (hk : ∀ a a', V a a' → Simulates R W (k a) (k' a')) :
    Simulates R W (m >>= k) (m' >>= k') := by
  intro s s' hs
  have hfirst := hm s s' hs
  show EndAlike R W (EStateM.bind m k s) (EStateM.bind m' k' s')
  rw [EStateM.bind, EStateM.bind]
  generalize m s = r, m' s' = r' at hfirst ⊢
  cases hfirst with
  | ok ha ht => exact hk _ _ ha _ _ ht
  | error e ht => exact .error e ht

/-- With the same answer both runs go on. -/
theorem bind_same {m : EStateM ε S α} {m' : EStateM ε S' α} {k : α → EStateM ε S β}
    {k' : α → EStateM ε S' β'} (hm : Simulates R Eq m m')
    (hk : ∀ a, Simulates R W (k a) (k' a)) : Simulates R W (m >>= k) (m' >>= k') := by
  refine hm.bind ?_
  rintro a _ rfl
  exact hk a

theorem adaptExcept {m : EStateM ε S α} {m' : EStateM ε S' α'} (f : ε → ε')
    (h : Simulates R V m m') : Simulates R V (m.adaptExcept f) (m'.adaptExcept f) := by
  intro s s' hs
  have hends := h s s' hs
  rw [EStateM.adaptExcept, EStateM.adaptExcept]
  generalize m s = r, m' s' = r' at hends ⊢
  cases hends with
  | ok ha ht => exact .ok ha ht
  | error e ht => exact .error (f e) ht

/-- The parts need not end alike on what is not in the list. -/
theorem forM_of_mem {act : γ → EStateM ε S PUnit} {act' : γ → EStateM ε S' PUnit} {xs : List γ}
    (h : ∀ x ∈ xs, Simulates R Eq (act x) (act' x)) :
    Simulates R Eq (xs.forM act) (xs.forM act') := by
  induction xs with
  | nil => exact pure rfl
  | cons x xs ih =>
    obtain ⟨hx, hxs⟩ := List.forall_mem_cons.mp h
    exact hx.bind_same fun _ => ih hxs

theorem forM {act : γ → EStateM ε S PUnit} {act' : γ → EStateM ε S' PUnit}
    (h : ∀ x, Simulates R Eq (act x) (act' x)) (xs : List γ) :
    Simulates R Eq (xs.forM act) (xs.forM act') :=
  forM_of_mem fun x _ => h x

theorem foldlM {act : β → γ → EStateM ε S β} {act' : β → γ → EStateM ε S' β}
    (h : ∀ b x, Simulates R Eq (act b x) (act' b x)) (b : β) (xs : List γ) :
    Simulates R Eq (xs.foldlM act b) (xs.foldlM act' b) := by
  induction xs generalizing b with
  | nil => exact pure rfl
  | cons x xs ih =>
    rw [List.foldlM_cons, List.foldlM_cons]
    exact (h b x).bind_same fun b' => ih b'

variable {m : EStateM ε S α} {m' : EStateM ε S' α} {s : S} {s' : S'}

theorem resultOf_eq (h : Simulates R Eq m m') (hs : R s s') :
    resultOf (m' s') = resultOf (m s) := by
  have hends := h s s' hs
  generalize m s = r, m' s' = r' at hends ⊢
  cases hends with
  | ok ha ht => rw [resultOf, resultOf, ha]
  | error e ht => rfl

theorem stateAfter (h : Simulates R Eq m m') (hs : R s s') :
    R (stateAfter (m s)) (stateAfter (m' s')) := by
  have hends := h s s' hs
  generalize m s = r, m' s' = r' at hends ⊢
  cases hends with
  | ok ha ht => exact ht
  | error e ht => exact ht

end Simulates

end FenceFacts
