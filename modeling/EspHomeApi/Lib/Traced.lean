import Mathlib.Algebra.BigOperators.Group.List.Basic
import Mathlib.Algebra.Order.Group.Nat
import Mathlib.Tactic.Ring

/-!
# Computations that leave a trace

A computation records events and ends with a value or an error. It is specified by the events it
may record, by what they may have cost when it fails, and by a condition on the value and the cost
when it does not. A loop starts a round from the state that the round before it left, as long as
its guard holds. If every round that does not fail lowers a measure, the loop ends, and the measure
bounds the rounds and what they cost.
-/

/-- The events recorded, and the value or error at the end. -/
structure Traced (E ε α : Type*) where
  events : List E
  outcome : Except ε α

namespace Traced

universe u

variable {E ε : Type*} {α β : Type u}

instance : Monad (Traced E ε) where
  pure value := ⟨[], .ok value⟩
  bind x f :=
    match x.outcome with
    | .ok value => ⟨x.events ++ (f value).events, (f value).outcome⟩
    | .error error => ⟨x.events, .error error⟩

/-- Record an event. -/
def log (event : E) : Traced E ε Unit := ⟨[event], .ok ()⟩

/-- End with an error. -/
def fail (error : ε) : Traced E ε α := ⟨[], .error error⟩

/-- What the recorded events cost. -/
def cost (price : E → ℕ) (x : Traced E ε α) : ℕ := (x.events.map price).sum

@[simp] theorem events_pure (value : α) : (pure value : Traced E ε α).events = [] := rfl

@[simp] theorem outcome_pure (value : α) : (pure value : Traced E ε α).outcome = .ok value := rfl

/-- A value is handed to the continuation. -/
theorem bind_of_ok {x : Traced E ε α} {value : α} (h : x.outcome = .ok value)
    (f : α → Traced E ε β) :
    x >>= f = ⟨x.events ++ (f value).events, (f value).outcome⟩ := by
  change (match x.outcome with
    | .ok value => ⟨x.events ++ (f value).events, (f value).outcome⟩
    | .error error => ⟨x.events, .error error⟩ : Traced E ε β) = _
  rw [h]

/-- An error is passed on. -/
theorem bind_of_error {x : Traced E ε α} {error : ε} (h : x.outcome = .error error)
    (f : α → Traced E ε β) : x >>= f = ⟨x.events, .error error⟩ := by
  change (match x.outcome with
    | .ok value => ⟨x.events ++ (f value).events, (f value).outcome⟩
    | .error error => ⟨x.events, .error error⟩ : Traced E ε β) = _
  rw [h]

/-- What a specification says of the events: which may be recorded, what each costs, and what may
have been spent when the computation fails. -/
structure Policy (E : Type*) where
  allowed : E → Prop
  price : E → ℕ
  mayFail : ℕ → Prop

/-- Started when `spent` has been spent, the computation keeps to the policy, and the value it
returns satisfies `post` with what has been spent then. -/
structure Meets (policy : Policy E) (spent : ℕ) (x : Traced E ε α) (post : α → ℕ → Prop) :
    Prop where
  allowed : ∀ event ∈ x.events, policy.allowed event
  returns : ∀ value, x.outcome = .ok value → post value (spent + x.cost policy.price)
  fails : ∀ error, x.outcome = .error error → policy.mayFail (spent + x.cost policy.price)

variable {policy : Policy E} {spent : ℕ} {x : Traced E ε α} {post post' : α → ℕ → Prop}

/-- A value is returned if it satisfies the condition. -/
theorem meets_pure {value : α} (h : post value spent) :
    Meets policy spent (pure value : Traced E ε α) post where
  allowed := by simp
  returns _ hvalue := Except.ok.inj hvalue ▸ h
  fails _ herror := nomatch herror

/-- Failing is possible where the policy says so. -/
theorem meets_fail {error : ε} (h : policy.mayFail spent) :
    Meets policy spent (fail error : Traced E ε α) post where
  allowed := by simp [fail]
  returns _ hvalue := nomatch hvalue
  fails _ _ := h

/-- An allowed event adds its price. -/
theorem meets_log {event : E} {post : Unit → ℕ → Prop} (hallowed : policy.allowed event)
    (h : post () (spent + policy.price event)) :
    Meets policy spent (log event : Traced E ε Unit) post where
  allowed := by simpa [log] using hallowed
  returns _ _ := by simpa [log, cost] using h
  fails _ herror := nomatch herror

/-- A weaker condition is met as well. -/
theorem Meets.mono (h : Meets policy spent x post)
    (hpost : ∀ value spent, post value spent → post' value spent) : Meets policy spent x post' where
  allowed := h.allowed
  returns value hvalue := hpost value _ (h.returns value hvalue)
  fails := h.fails

/-- The continuation starts with the value and with what has been spent on it. -/
theorem Meets.bind {f : α → Traced E ε β} {post' : β → ℕ → Prop} (hx : Meets policy spent x post)
    (hf : ∀ value spent, post value spent → Meets policy spent (f value) post') :
    Meets policy spent (x >>= f) post' := by
  cases houtcome : x.outcome with
  | error error =>
    rw [bind_of_error houtcome]
    exact ⟨hx.allowed, fun _ hvalue => (nomatch hvalue), fun _ _ => hx.fails error houtcome⟩
  | ok value =>
    have hnext := hf value _ (hx.returns value houtcome)
    have hcost : spent + x.cost policy.price + (f value).cost policy.price =
        spent + cost policy.price (⟨x.events ++ (f value).events, (f value).outcome⟩ :
          Traced E ε β) := by
      rw [cost, cost, cost, List.map_append, List.sum_append, Nat.add_assoc]
    rw [bind_of_ok houtcome]
    refine ⟨fun event hevent => ?_, fun result hresult => ?_, fun error herror => ?_⟩
    · rcases List.mem_append.mp hevent with hfirst | hsecond
      · exact hx.allowed event hfirst
      · exact hnext.allowed event hsecond
    · exact hcost ▸ hnext.returns result hresult
    · exact hcost ▸ hnext.fails error herror

/-- Behind an allowed event the continuation starts with its price spent. -/
theorem Meets.log_bind {B : Type} {event : E} {f : Unit → Traced E ε B} {post : B → ℕ → Prop}
    (hallowed : policy.allowed event)
    (hf : Meets policy (spent + policy.price event) (f ()) post) :
    Meets policy spent ((log event : Traced E ε Unit) >>= f) post := by
  have hlog : Meets policy spent (log event : Traced E ε Unit)
      fun _ paid => paid = spent + policy.price event := meets_log hallowed rfl
  refine hlog.bind ?_
  intro _ paid hpaid
  rw [hpaid]
  exact hf

/-! ## Loops -/

section Loop

variable {S : Type*} {guard : S → Prop} {body : S → Traced E ε S}

/-- The loop from a state ends: the states its rounds start in, and its trace and result. -/
inductive Ends (guard : S → Prop) (body : S → Traced E ε S) : S → List S → Traced E ε S → Prop
  | done {s : S} (hguard : ¬ guard s) : Ends guard body s [] (pure s)
  | failed {s : S} {error : ε} (hguard : guard s) (hbody : (body s).outcome = .error error) :
    Ends guard body s [s] ⟨(body s).events, .error error⟩
  | again {s next : S} {heads : List S} {run : Traced E ε S} (hguard : guard s)
    (hbody : (body s).outcome = .ok next) (hrest : Ends guard body next heads run) :
    Ends guard body s (s :: heads) ⟨(body s).events ++ run.events, run.outcome⟩

/-- A round that does not fail keeps the invariant and lowers the measure by at least `least`. -/
def Progress (guard : S → Prop) (body : S → Traced E ε S) (inv : S → Prop) (measure : S → ℕ)
    (least : ℕ) : Prop :=
  ∀ s, inv s → guard s → ∀ next, (body s).outcome = .ok next →
    inv next ∧ measure next + least ≤ measure s

variable {inv : S → Prop} {measure : S → ℕ} {least : ℕ} {s : S} {heads : List S}
  {run : Traced E ε S}

/-- A loop that makes progress ends. -/
theorem Progress.ends (h : Progress guard body inv measure least) (hleast : 0 < least) (s : S)
    (hs : inv s) : ∃ heads run, Ends guard body s heads run := by
  by_cases hguard : guard s
  · cases hbody : (body s).outcome with
    | error error => exact ⟨_, _, .failed hguard hbody⟩
    | ok next =>
      obtain ⟨hnext, hlower⟩ := h s hs hguard next hbody
      have _hless : measure next < measure s := by omega
      obtain ⟨heads, run, hrest⟩ := h.ends hleast next hnext
      exact ⟨_, _, .again hguard hbody hrest⟩
  · exact ⟨_, _, .done hguard⟩
termination_by measure s

/-- The measure pays for the rounds, except for one that fails. -/
theorem Ends.rounds_le (hends : Ends guard body s heads run)
    (h : Progress guard body inv measure least) (hs : inv s) :
    least * heads.length ≤ measure s + if run.outcome.isOk then 0 else least := by
  induction hends with
  | done _ => simp
  | failed _ _ => simp [Except.isOk, Except.toBool]
  | @again s next heads run hguard hbody _ ih =>
    obtain ⟨hnext, hlower⟩ := h s hs hguard next hbody
    have hrest := ih hnext
    change least * (heads.length + 1) ≤ measure s + if run.outcome.isOk then 0 else least
    rw [Nat.mul_add, Nat.mul_one]
    omega

/-- Where no round costs anything if it fails, and at most `budget` otherwise, the measure pays for
what the loop costs. -/
theorem Ends.cost_le (hends : Ends guard body s heads run)
    (h : Progress guard body inv measure least) {price : E → ℕ} {budget : ℕ}
    (hcost : ∀ s, inv s → guard s → (body s).cost price ≤ budget)
    (hfree : ∀ s, inv s → guard s → ∀ error, (body s).outcome = .error error →
      (body s).cost price = 0)
    (hs : inv s) : least * run.cost price ≤ budget * measure s := by
  induction hends with
  | done _ => simp [cost]
  | @failed s error hguard hbody =>
    have hzero : cost price (⟨(body s).events, .error error⟩ : Traced E ε S) = 0 :=
      hfree s hs hguard error hbody
    rw [hzero, Nat.mul_zero]
    exact Nat.zero_le _
  | @again s next heads run hguard hbody _ ih =>
    obtain ⟨hnext, hlower⟩ := h s hs hguard next hbody
    have hrest := ih hnext
    have hsplit : cost price (⟨(body s).events ++ run.events, run.outcome⟩ : Traced E ε S) =
        (body s).cost price + run.cost price := by
      rw [cost, cost, cost, List.map_append, List.sum_append]
    calc least * cost price (⟨(body s).events ++ run.events, run.outcome⟩ : Traced E ε S)
        = least * (body s).cost price + least * run.cost price := by rw [hsplit, Nat.mul_add]
      _ ≤ least * budget + budget * measure next :=
        Nat.add_le_add (Nat.mul_le_mul_left least (hcost s hs hguard)) hrest
      _ = budget * (measure next + least) := by ring
      _ ≤ budget * measure s := Nat.mul_le_mul_left budget hlower

/-- The loop records only what its rounds record. -/
theorem Ends.allowed (hends : Ends guard body s heads run)
    (h : Progress guard body inv measure least) {allowed : E → Prop}
    (hallowed : ∀ s, inv s → guard s → ∀ event ∈ (body s).events, allowed event) (hs : inv s) :
    ∀ event ∈ run.events, allowed event := by
  induction hends with
  | done _ => simp
  | failed hguard _ => exact hallowed _ hs hguard
  | again hguard hbody _ ih =>
    intro event hevent
    rcases List.mem_append.mp hevent with hfirst | hlater
    · exact hallowed _ hs hguard event hfirst
    · exact ih (h _ hs hguard _ hbody).1 event hlater

end Loop

end Traced
