import Mathlib.Data.List.Basic
import Mathlib.Data.List.Induction

/-!
# Runs of a partial step function

A step function answers `none` where an action is not possible. A run performs a list of
actions in order. Invariants of the steps hold after every run, and what holds of every
transition of a run is shown by splitting the run there. Two systems whose steps stay in a
relation make the same runs, and these end in related states.
-/

namespace Run

variable {S A : Type*} {step : S → A → Option S}

/-- Perform the actions one after the other. -/
def run (step : S → A → Option S) (s : S) : List A → Option S
  | [] => some s
  | action :: actions => (step s action).bind fun s => run step s actions

/-- The state can be reached by a run. -/
def Reachable (step : S → A → Option S) (init s : S) : Prop :=
  ∃ actions, run step init actions = some s

/-- The run of the actions passes from one state to the next by an action of it. -/
def Passes (step : S → A → Option S) (init : S) (actions : List A) (s : S) (action : A) (s' : S) :
    Prop :=
  ∃ before after, actions = before ++ action :: after ∧ run step init before = some s ∧
    step s action = some s'

/-- A run of two lists is a run of the second after the first. -/
theorem run_append (s : S) (first second : List A) :
    run step s (first ++ second) = (run step s first).bind fun s => run step s second := by
  induction first generalizing s with
  | nil => rfl
  | cons action first ih =>
    rw [List.cons_append, run, run, Option.bind_assoc]
    congr 1
    funext s'
    exact ih s'

/-- One more action continues a run. -/
theorem run_concat {init s s' : S} {actions : List A} {action : A}
    (hrun : run step init actions = some s) (hstep : step s action = some s') :
    run step init (actions ++ [action]) = some s' := by
  rw [run_append, hrun, Option.bind_some, run, hstep]
  rfl

/-- A run passes through a state between any two of its actions. -/
theorem exists_of_run_append {init s : S} {first second : List A}
    (h : run step init (first ++ second) = some s) :
    ∃ middle, run step init first = some middle ∧ run step middle second = some s := by
  rw [run_append] at h
  exact Option.bind_eq_some_iff.mp h

/-- A run that begins with an action begins with its step. -/
theorem exists_of_run_cons {init s : S} {action : A} {actions : List A}
    (h : run step init (action :: actions) = some s) :
    ∃ next, step init action = some next ∧ run step next actions = some s :=
  Option.bind_eq_some_iff.mp h

/-- What holds of the empty run, and of a run continued by one action, holds of every run. -/
theorem run_induction {P : List A → S → Prop} {init : S} (hnil : P [] init)
    (hconcat : ∀ actions s action s', run step init actions = some s → P actions s →
      step s action = some s' → P (actions ++ [action]) s')
    {actions : List A} {s : S} (hrun : run step init actions = some s) : P actions s := by
  induction actions using List.reverseRecOn generalizing s with
  | nil => exact Option.some.inj hrun ▸ hnil
  | append_singleton actions action ih =>
    obtain ⟨middle, hmiddle, hlast⟩ := exists_of_run_append hrun
    obtain ⟨last, hstep, heq⟩ := exists_of_run_cons hlast
    obtain rfl := Option.some.inj heq
    exact hconcat actions middle action last hmiddle (ih hmiddle) hstep

/-- An entry of a history that goes on by one is the new one or one of the old. -/
theorem split_concat {E : Type*} {log before after : List E} {last entry : E}
    (h : log ++ [last] = before ++ entry :: after) :
    (last = entry ∧ before = log) ∨ ∃ rest, log = before ++ entry :: rest := by
  rcases List.eq_nil_or_concat after with rfl | ⟨rest, other, rfl⟩
  · have hinj := List.append_inj' h rfl
    simp only [List.cons.injEq, and_true] at hinj
    exact Or.inl ⟨hinj.2, hinj.1.symm⟩
  · rw [List.concat_eq_append, ← List.cons_append, ← List.append_assoc] at h
    exact Or.inr ⟨rest, (List.append_inj' h rfl).1⟩

/-- Of two entries of a history one comes before the other, or they are the same one. -/
theorem split_compare {E : Type*} {before after before' after' : List E} {entry entry' : E}
    (h : before ++ entry :: after = before' ++ entry' :: after') :
    (∃ between, after = between ++ entry' :: after') ∨ (entry = entry' ∧ after = after') ∨
      ∃ between, after' = between ++ entry :: after := by
  rcases List.append_eq_append_iff.mp h with ⟨middle, -, hrest⟩ | ⟨middle, -, hrest⟩
  · cases middle with
    | nil => exact Or.inr (Or.inl (List.cons.inj hrest))
    | cons first middle => exact Or.inl ⟨middle, (List.cons.inj hrest).2⟩
  · cases middle with
    | nil => exact Or.inr (Or.inl ⟨(List.cons.inj hrest).1.symm, (List.cons.inj hrest).2.symm⟩)
    | cons first middle => exact Or.inr (Or.inr ⟨middle, (List.cons.inj hrest).2⟩)

/-- What every step preserves holds after every run. -/
theorem run_invariant {P : S → Prop} (hstep : ∀ s action s', P s → step s action = some s' → P s')
    {init s : S} {actions : List A} (hinit : P init) (hrun : run step init actions = some s) :
    P s :=
  run_induction (P := fun _ s => P s) hinit (fun _ s action s' _ => hstep s action s') hrun

/-- An invariant whose step uses that the state before is reachable. -/
theorem Reachable.invariant {P : S → Prop} {init s : S} (h : Reachable step init s)
    (hinit : P init)
    (hstep : ∀ s action s', Reachable step init s → P s → step s action = some s' → P s') :
    P s := by
  obtain ⟨actions, hrun⟩ := h
  exact run_induction (P := fun _ s => P s) hinit
    (fun actions s action s' hrun hs => hstep s action s' ⟨actions, hrun⟩ hs) hrun

/-- The states that a run passes through are reachable. -/
theorem Passes.reachable {init s s' : S} {actions : List A} {action : A}
    (h : Passes step init actions s action s') : Reachable step init s := by
  obtain ⟨before, _, _, hrun, _⟩ := h
  exact ⟨before, hrun⟩

/-- An action that a run performs only at its end is performed in the state that the run before
leads to. -/
theorem Passes.last {init s s' : S} {actions : List A} {last action : A}
    (h : Passes step init (actions ++ [last]) s action s') (hother : action ∉ actions) :
    last = action ∧ run step init actions = some s := by
  obtain ⟨before, after, hsplit, hrun, -⟩ := h
  rcases split_concat hsplit with ⟨hsame, hbefore⟩ | ⟨rest, hrest⟩
  · exact ⟨hsame, hbefore ▸ hrun⟩
  · rw [hrest] at hother
    exact absurd (List.mem_append_right before List.mem_cons_self) hother

/-- A longer run passes by everything that the shorter one passes by. -/
theorem Passes.append {init s s' : S} {actions : List A} {action : A}
    (h : Passes step init actions s action s') (more : List A) :
    Passes step init (actions ++ more) s action s' := by
  obtain ⟨before, after, rfl, hrun, hstep⟩ := h
  exact ⟨before, after ++ more, by rw [List.append_assoc, List.cons_append], hrun, hstep⟩

/-- Steps that are possible in both of two related states or in neither, and lead to related
states again, make runs that do so. -/
theorem run_rel {T : Type*} {step' : T → A → Option T} {R : S → T → Prop}
    (hstep : ∀ s t action, R s t → Option.Rel R (step s action) (step' t action))
    (actions : List A) {s : S} {t : T} (h : R s t) :
    Option.Rel R (run step s actions) (run step' t actions) := by
  induction actions generalizing s t with
  | nil => exact .some h
  | cons action actions ih =>
    have hfirst := hstep s t action h
    rw [run, run]
    generalize step s action = next, step' t action = next' at hfirst
    cases hfirst with
    | none => exact .none
    | some hnext => exact ih hnext

/-- Steps behind one guard are possible in both states or in neither. -/
theorem rel_guard {T : Type*} {R : S → T → Prop} {guard : Prop} [Decidable guard] {s : S} {t : T}
    (h : ¬ guard → R s t) :
    Option.Rel R (if guard then none else some s) (if guard then none else some t) := by
  by_cases hguard : guard
  · rw [if_pos hguard, if_pos hguard]
    exact .none
  · rw [if_neg hguard, if_neg hguard]
    exact .some (h hguard)

/-- Where the left run ends, the right one ends in a related state. -/
theorem exists_of_rel_left {T : Type*} {R : S → T → Prop} {s : S} {other : Option T}
    (h : Option.Rel R (some s) other) : ∃ t, other = some t ∧ R s t := by
  cases h with
  | some h => exact ⟨_, rfl, h⟩

/-- Where the right run ends, the left one ends in a related state. -/
theorem exists_of_rel_right {T : Type*} {R : S → T → Prop} {t : T} {other : Option S}
    (h : Option.Rel R other (some t)) : ∃ s, other = some s ∧ R s t := by
  cases h with
  | some h => exact ⟨_, rfl, h⟩

end Run
