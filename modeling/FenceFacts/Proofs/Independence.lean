import FenceFacts.Proofs.Relabelling
import FenceFacts.Proofs.Truncation
import Mathlib.Algebra.GroupWithZero.Nat

/-!
# FenceFacts — steps of a session do not influence each other

A step of a session does what it does alone: on a sink of its own, with no
label spent and nothing in the store, it ends in the same way, spends as many
labels and adds the same facts.  The only thing that it takes over from the
steps before is how many labels they have spent, by which its own labels are
further.  Whether those steps succeeded, and what they were, makes no
difference.

## Results

* `KeepsInStep.run`           — one step, on two sinks.
* `standsAlone`               — a step and what it does alone.
* `steps_are_independent`     — sessions.
-/

namespace FenceFacts

-- ---------------------------------------------------------------------------
-- Two sinks
-- ---------------------------------------------------------------------------

section TwoSinks

variable {σ τ : Type} [FactStore σ] [FactStore τ] {n : Nat} {R : σ → τ → Prop} {s : Sink σ}
  {s' : Sink τ}

/-- **One step** on two sinks, the second ahead of the first. -/
theorem KeepsInStep.run (hstep : KeepsInStep n R) (h : Ahead n R s s') (step : SessionStep) :
    Ahead n R (step.run s) (step.run s') ∧ step.answer? s' = step.answer? s := by
  cases step with
  | markdown options d =>
    have hrun := simulates_extractMarkdown hstep options d
    exact ⟨hrun.stateAfter h, congrArg some (hrun.resultOf_eq h)⟩
  | script options d =>
    have hrun := simulates_extractScriptFile hstep options d
    exact ⟨hrun.stateAfter h, congrArg some (hrun.resultOf_eq h)⟩
  | label =>
    refine ⟨⟨?_, h.stores⟩, rfl⟩
    show s'.lastLabel + 1 = s.lastLabel + 1 + n
    rw [h.labels]
    omega

theorem KeepsInStep.runSession (hstep : KeepsInStep n R) (h : Ahead n R s s')
    (steps : List SessionStep) : Ahead n R (runSession steps s) (runSession steps s') := by
  induction steps generalizing s s' with
  | nil => exact h
  | cons step steps ih => exact ih (hstep.run h step).1

end TwoSinks

-- ---------------------------------------------------------------------------
-- Alone
-- ---------------------------------------------------------------------------

namespace SessionStep

/-- The sink that the step would leave if there were no other steps. -/
def alone (step : SessionStep) : Sink FactList := step.run { store := {} }

def facts (step : SessionStep) : List Fact := step.alone.store.facts

/-- How many labels the step spends. -/
def spent (step : SessionStep) : Nat := step.alone.lastLabel

/-- On this sink the step does what it does alone, behind the labels that are
spent already. -/
structure StandsAlone {σ : Type} [FactStore σ] (step : SessionStep) (s : Sink σ) : Prop where
  answer : step.answer? s = step.answer? ({ store := {} } : Sink FactList)
  labels : (step.run s).lastLabel = s.lastLabel + step.spent
  facts : FactStore.writeAll (step.facts.map (·.shifted s.lastLabel)) s.store =
    .ok () (step.run s).store

end SessionStep

/-- The facts of the steps, each behind the labels of the steps before. -/
def factsFrom (n : Nat) : List SessionStep → List (List Fact)
  | [] => []
  | step :: steps => step.facts.map (·.shifted n) :: factsFrom (n + step.spent) steps

section Alone

variable {σ : Type} [FactStore σ] {s : Sink σ}

/-- A store that takes every fact has those of a list, further on. -/
def HasTaken (n : Nat) (start : σ) (l : FactList) (s : σ) : Prop :=
  FactStore.writeAll (l.facts.map (·.shifted n)) start = .ok () s

theorem keepsInStep_hasTaken {start : σ} (hstart : FactStore.TakesAll start) (n : Nat) :
    KeepsInStep n (HasTaken n start) := by
  intro f l s htaken
  obtain ⟨s', hmore⟩ := hstart.after htaken [f.shifted n]
  have hwrite := (FactStore.writeAll_singleton _ s).symm.trans hmore
  rw [hwrite]
  refine .ok rfl ?_
  show FactStore.writeAll ((l.facts ++ [f]).map _) start = _
  rw [List.map_append, FactStore.writeAll_append_of_ok htaken]
  exact hmore

/-- A store that takes every fact takes those of **a step that stands alone**. -/
theorem standsAlone (hs : FactStore.TakesAll s.store) (step : SessionStep) : step.StandsAlone s := by
  have hstart : Ahead s.lastLabel (HasTaken s.lastLabel s.store) { store := ({} : FactList) } s :=
    ⟨(Nat.zero_add _).symm, rfl⟩
  obtain ⟨hahead, hanswer⟩ := (keepsInStep_hasTaken hs s.lastLabel).run hstart step
  refine ⟨hanswer, ?_, hahead.stores⟩
  rw [hahead.labels, Nat.add_comm]
  rfl

theorem SessionStep.StandsAlone.takesAll {step : SessionStep} (h : step.StandsAlone s)
    (hs : FactStore.TakesAll s.store) : FactStore.TakesAll (step.run s).store :=
  hs.after h.facts

theorem takesAll_runSession (hs : FactStore.TakesAll s.store) (steps : List SessionStep) :
    FactStore.TakesAll (runSession steps s).store := by
  induction steps generalizing s with
  | nil => exact hs
  | cons step steps ih => exact ih ((standsAlone hs step).takesAll hs)

theorem lastLabel_runSession (hs : FactStore.TakesAll s.store) (steps : List SessionStep) :
    (runSession steps s).lastLabel = s.lastLabel + (steps.map SessionStep.spent).sum := by
  induction steps generalizing s with
  | nil => rfl
  | cons step steps ih =>
    have halone := standsAlone hs step
    have hrest := ih (halone.takesAll hs)
    rw [halone.labels, Nat.add_assoc] at hrest
    exact hrest

/-- A store that takes all facts of a list has them then. -/
theorem FactStore.Keeps.contents_eq {contents : σ → List Fact} (h : Keeps contents)
    {facts : List Fact} {s s' : σ} (hwrite : FactStore.writeAll facts s = .ok () s') :
    contents s' = contents s ++ facts := by
  induction facts generalizing s with
  | nil =>
    injection hwrite with _ hsame
    rw [hsame, List.append_nil]
  | cons f facts ih =>
    rw [writeAll_cons] at hwrite
    cases hf : write f s with
    | error e t =>
      rw [hf] at hwrite
      cases hwrite
    | ok u t =>
      rw [hf] at hwrite
      rw [ih hwrite, h.write_ok f s t hf, List.append_assoc, List.singleton_append]

theorem contributions_eq {contents : σ → List Fact} (hkeeps : FactStore.Keeps contents)
    (hs : FactStore.TakesAll s.store) (steps : List SessionStep) :
    contributions contents steps s = factsFrom s.lastLabel steps := by
  induction steps generalizing s with
  | nil => rfl
  | cons step steps ih =>
    have halone := standsAlone hs step
    rw [contributions, factsFrom, ih (halone.takesAll hs), halone.labels,
      hkeeps.contents_eq halone.facts, List.drop_left]

/-- Steps of a session are **independent**.  On a sink with a store that takes
every fact each of them stands alone, whatever came before, and only the
labels that were spent before it are left to tell its facts from those that it
adds alone. -/
theorem steps_are_independent (hs : FactStore.TakesAll s.store) (steps : List SessionStep) :
    (∀ step : SessionStep, step.StandsAlone s) ∧
    (∀ before step after, steps = before ++ step :: after →
      (runSession before s).lastLabel = s.lastLabel + (before.map SessionStep.spent).sum ∧
      step.StandsAlone (runSession before s)) ∧
    (∀ contents, FactStore.Keeps contents →
      contributions contents steps s = factsFrom s.lastLabel steps) := by
  refine ⟨standsAlone hs, ?_, fun contents hkeeps => contributions_eq hkeeps hs steps⟩
  intro before step after _
  exact ⟨lastLabel_runSession hs before, standsAlone (takesAll_runSession hs before) step⟩

end Alone

/-- A script file that is rejected, a label, and a script file with a variable. -/
def rejectedFirst : List SessionStep :=
  [.script {} ⟨⟨['a']⟩, ['(']⟩, .label,
    .script { extractLines := false } ⟨⟨['b']⟩, ['l', 'e', 't', ' ', 'é']⟩]

/-- The facts of the second file come behind two labels. -/
theorem steps_are_independent_rejectedFirst :
    FactStore.TakesAll ({} : FactList) ∧
    factsFrom 0 rejectedFirst = [[], [],
      [.file ⟨3⟩ ['b'], .topLevel ⟨4⟩ ⟨3⟩ .script false ⟨⟨1, 1⟩, ⟨1, 5⟩⟩,
        .declaration ⟨6⟩ ⟨4⟩ ⟨5⟩ ['é'] .let ⟨⟨1, 5⟩, ⟨1, 5⟩⟩]] ∧
    contributions FactList.facts rejectedFirst { store := {} } = factsFrom 0 rejectedFirst := by
  have htakes := FactStore.takesAll_factList {}
  obtain ⟨-, -, hcontributions⟩ :=
    steps_are_independent (s := { store := ({} : FactList) }) htakes rejectedFirst
  exact ⟨htakes, by decide +kernel, hcontributions FactList.facts FactStore.keeps_factList⟩

end FenceFacts
