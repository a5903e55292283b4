import EspHomeApi.Lib.Run
import EspHomeApi.MessageWrapper

/-!
# What the wrappers hold

The message of a wrapper came into a run with a construction from a message, and the other actions
only pass it on: either assignment and the copy constructor take it from their source, with its id,
and a move assignment gives the source what the destination held. The move constructor copies too,
but gives its source the id that the storage of the new wrapper contained. Following the messages
and these ids therefore tells the state of every wrapper, and a run is sound at all times exactly
when no wrapper is move-constructed in it.
-/

namespace EspHomeApi

open Exchange

variable {M : Type} {C : Messages M}

/-- What a wrapper holds: the message that one was constructed from, under its own id or under one
that storage contained. -/
structure Contents (C : Messages M) where
  message : TypedPointer C
  /-- The construction whose storage contained the id. -/
  storage : Option ℕ

/-- The members of a wrapper with these contents. -/
def Contents.read (storage : ℕ → MessageWrapper M) (contents : Contents C) : MessageWrapper M where
  messageId := match contents.storage with
    | none => getMessageId contents.message.type
    | some construction => (storage construction).messageId
  message := contents.message.upcast

/-- The message is kept under an id from storage. -/
def Contents.relabel (construction : ℕ) (contents : Contents C) : Contents C :=
  { contents with storage := some construction }

/-- The contents of the wrappers that are alive. -/
structure Provenance (C : Messages M) where
  contents : ℕ → Option (Contents C)
  constructed : ℕ

namespace Provenance

/-- A wrapper is alive. -/
def live (p : Provenance C) (this : ℕ) : Bool := (p.contents this).isSome

/-- Nothing is alive. -/
def empty : Provenance C := ⟨fun _ => none, 0⟩

/-- A construction is counted. -/
def allocate (p : Provenance C) : Provenance C := { p with constructed := p.constructed + 1 }

/-- A wrapper is given contents, or none when it is destroyed. -/
def write (this : ℕ) (contents : Option (Contents C)) (p : Provenance C) : Provenance C :=
  { p with contents := Function.update p.contents this contents }

/-- Two wrappers trade their contents. -/
def trade (this other : ℕ) (p : Provenance C) : Provenance C :=
  { p with contents := p.contents ∘ Equiv.swap this other }

@[simp] theorem contents_allocate (p : Provenance C) : p.allocate.contents = p.contents := rfl

@[simp] theorem contents_write (this : ℕ) (contents : Option (Contents C)) (p : Provenance C) :
    (p.write this contents).contents = Function.update p.contents this contents := rfl

@[simp] theorem contents_trade (this other : ℕ) (p : Provenance C) :
    (p.trade this other).contents = p.contents ∘ Equiv.swap this other := rfl

/-- What an action does to the contents. -/
def step (p : Provenance C) : WrapperAction C → Option (Provenance C)
  | .construct this message =>
    if p.live this then none else some (p.allocate.write this (some ⟨message, none⟩))
  | .copyConstruct this wrapper =>
    if p.live this ∨ ¬ p.live wrapper then none
    else some (p.allocate.write this (p.contents wrapper))
  | .moveConstruct this wrapper =>
    if p.live this ∨ ¬ p.live wrapper then none
    else some ((p.allocate.write this (p.contents wrapper)).write wrapper
      ((p.contents wrapper).map (Contents.relabel p.constructed)))
  | .copyAssign this rhs =>
    if ¬ p.live this ∨ ¬ p.live rhs then none else some (p.write this (p.contents rhs))
  | .moveAssign this rhs =>
    if ¬ p.live this ∨ ¬ p.live rhs then none else some (p.trade this rhs)
  | .destroy this =>
    if ¬ p.live this then none else some (p.write this none)

/-- Where the actions lead. -/
def run (actions : List (WrapperAction C)) : Option (Provenance C) := Run.run step empty actions

/-- Every wrapper that is alive holds its message under the message's own id. -/
def Clean (p : Provenance C) : Prop :=
  ∀ this contents, p.contents this = some contents → contents.storage = none

end Provenance

/-- A wrapper that is alive is not where a new one is put. -/
theorem ne_of_live {live : ℕ → Bool} {this source : ℕ}
    (hguard : ¬ (live this = true ∨ ¬ live source = true)) : source ≠ this := by
  intro hsame
  rw [hsame] at hguard
  exact hguard (Decidable.em _)

/-! ## The members after each operation -/

namespace Memory

variable {storage : ℕ → MessageWrapper M} {s s' : Memory M} {this : ℕ}

@[simp] theorem live_allocate (this : ℕ) :
    (s.allocate storage this).live = Function.update s.live this true := rfl

@[simp] theorem live_destroy (this : ℕ) :
    (s.destroy this).live = Function.update s.live this false := rfl

@[simp] theorem wrapper_allocate (this : ℕ) :
    (s.allocate storage this).wrapper =
      Function.update s.wrapper this (storage s.constructed) := by
  funext address
  by_cases h : address = this
  · subst h
    simp [wrapper, allocate]
  · simp [wrapper, allocate, h]

@[simp] theorem wrapper_construct (this : ℕ) (message : TypedPointer C) :
    (s.construct this message).wrapper =
      Function.update s.wrapper this ⟨getMessageId message.type, message.upcast⟩ := by
  funext address
  by_cases h : address = this
  · subst h
    simp [wrapper, construct]
  · simp [wrapper, construct, h]

@[simp] theorem wrapper_copyConstruct (this wrapper : ℕ) :
    (s.copyConstruct this wrapper).wrapper =
      Function.update s.wrapper this (s.wrapper wrapper) := by
  funext address
  by_cases h : address = this
  · subst h
    simp [Memory.wrapper, copyConstruct]
  · simp [Memory.wrapper, copyConstruct, h]

/-- The old wrapper keeps its message, under the id that the new one's storage contained. -/
@[simp] theorem wrapper_moveConstruct (this wrapper : ℕ) :
    (s.moveConstruct this wrapper).wrapper =
      Function.update (Function.update s.wrapper this (s.wrapper wrapper)) wrapper
        ⟨s.messageId this, s.message wrapper⟩ := by
  funext address
  rw [moveConstruct, assignExchange_eq_swap, constructExchange_eq_update]
  by_cases hwrapper : address = wrapper
  · by_cases hthis : wrapper = this
    · simp [Memory.wrapper, hwrapper, hthis]
    · simp [Memory.wrapper, hwrapper, hthis]
  · by_cases hthis : address = this
    · simp [Memory.wrapper, hthis, hthis ▸ hwrapper]
    · simp [Memory.wrapper, hwrapper, hthis, Equiv.swap_apply_of_ne_of_ne]

@[simp] theorem wrapper_copyAssign (this rhs : ℕ) :
    (s.copyAssign this rhs).wrapper = Function.update s.wrapper this (s.wrapper rhs) := by
  by_cases hsame : this = rhs
  · rw [copyAssign, if_pos hsame, hsame, Function.update_eq_self]
  · rw [copyAssign, if_neg hsame]
    exact wrapper_copyConstruct this rhs

@[simp] theorem live_copyAssign (this rhs : ℕ) : (s.copyAssign this rhs).live = s.live := by
  rw [copyAssign, apply_ite Memory.live, ite_self]

@[simp] theorem constructed_copyAssign (this rhs : ℕ) :
    (s.copyAssign this rhs).constructed = s.constructed := by
  rw [copyAssign, apply_ite Memory.constructed, ite_self]

@[simp] theorem wrapper_moveAssign (this rhs : ℕ) :
    (s.moveAssign this rhs).wrapper = s.wrapper ∘ Equiv.swap this rhs := by
  funext address
  rw [moveAssign, assignExchange_eq_swap, assignExchange_eq_swap]
  rfl

/-- The members of the wrappers that are alive. -/
def held (s : Memory M) (this : ℕ) : Option (MessageWrapper M) :=
  if s.live this then some (s.wrapper this) else none

/-- A wrapper that is alive has its members. -/
theorem held_of_live (h : s.live this = true) : s.held this = some (s.wrapper this) := if_pos h

@[simp] theorem isSome_held (s : Memory M) (this : ℕ) : (s.held this).isSome = s.live this := by
  rw [held]
  cases s.live this <;> rfl

/-- A wrapper is alive with new members, the others stay as they are. -/
theorem held_update {wrapper : MessageWrapper M}
    (hlive : s'.live = Function.update s.live this true)
    (hwrapper : s'.wrapper = Function.update s.wrapper this wrapper) :
    s'.held = Function.update s.held this (some wrapper) := by
  funext address
  rw [held, hlive, hwrapper]
  by_cases hsame : address = this
  · simp [hsame]
  · simp [hsame, held]

/-- A new wrapper is constructed from a message. -/
theorem held_construct (message : TypedPointer C) :
    ((s.allocate storage this).construct this message).held =
      Function.update s.held this (some ⟨getMessageId message.type, message.upcast⟩) :=
  held_update rfl (by rw [wrapper_construct, wrapper_allocate, Function.update_idem])

/-- A new wrapper is a copy. -/
theorem held_copyConstruct {wrapper : ℕ} (hsource : s.live wrapper = true) (hne : wrapper ≠ this) :
    ((s.allocate storage this).copyConstruct this wrapper).held =
      Function.update s.held this (s.held wrapper) := by
  rw [held_of_live hsource]
  refine held_update rfl ?_
  rw [wrapper_copyConstruct, wrapper_allocate, Function.update_idem, Function.update_of_ne hne]

/-- A new wrapper is a copy, and its source has the id that storage contained. -/
theorem held_moveConstruct {wrapper : ℕ} (hsource : s.live wrapper = true) (hne : wrapper ≠ this) :
    ((s.allocate storage this).moveConstruct this wrapper).held =
      Function.update (Function.update s.held this (s.held wrapper)) wrapper
        (some ⟨(storage s.constructed).messageId, s.message wrapper⟩) := by
  have hcopy : ((s.allocate storage this).copyConstruct this wrapper).held =
      Function.update s.held this (s.held wrapper) := held_copyConstruct hsource hne
  rw [← hcopy]
  apply held_update
  · change Function.update s.live this true = Function.update (Function.update s.live this true) _ _
    rw [Function.update_comm hne.symm, ← hsource, Function.update_eq_self]
  · have hid : (s.allocate storage this).messageId this = (storage s.constructed).messageId :=
      Function.update_self ..
    have hmessage : (s.allocate storage this).message wrapper = s.message wrapper :=
      Function.update_of_ne hne ..
    rw [wrapper_moveConstruct, wrapper_copyConstruct, hid, hmessage]

/-- A wrapper that is alive is assigned another one. -/
theorem held_copyAssign {rhs : ℕ} (hthis : s.live this = true) (hrhs : s.live rhs = true) :
    (s.copyAssign this rhs).held = Function.update s.held this (s.held rhs) := by
  rw [held_of_live hrhs]
  refine held_update ?_ (wrapper_copyAssign this rhs)
  rw [live_copyAssign, ← hthis, Function.update_eq_self]

/-- Two wrappers that are alive are swapped. -/
theorem held_moveAssign {rhs : ℕ} (hthis : s.live this = true) (hrhs : s.live rhs = true) :
    (s.moveAssign this rhs).held = s.held ∘ Equiv.swap this rhs := by
  funext address
  have hlive : s.live (Equiv.swap this rhs address) = s.live address := by
    rw [Equiv.swap_apply_def]
    split
    next hsame => rw [hsame, hthis, hrhs]
    next =>
      split
      next hsame => rw [hsame, hthis, hrhs]
      next => rfl
  rw [Function.comp_apply, held, held, hlive, wrapper_moveAssign]
  rfl

/-- A wrapper is gone. -/
theorem held_destroy (this : ℕ) : (s.destroy this).held = Function.update s.held this none := by
  funext address
  rw [held, live_destroy]
  by_cases hsame : address = this
  · simp [hsame]
  · simp [hsame, held]
    rfl

end Memory

/-! ## The memory holds what the contents say -/

/-- The same wrappers are alive, and each has the members that its contents say. -/
structure Related (storage : ℕ → MessageWrapper M) (s : Memory M) (p : Provenance C) : Prop where
  held : s.held = Option.map (Contents.read storage) ∘ p.contents
  constructed : s.constructed = p.constructed

namespace Related

variable {storage : ℕ → MessageWrapper M} {s s' : Memory M} {p : Provenance C} {this : ℕ}

/-- Before the first action. -/
theorem empty : Related storage Memory.empty (Provenance.empty : Provenance C) := ⟨rfl, rfl⟩

/-- The same wrappers are alive. -/
theorem live (h : Related storage s p) : s.live = p.live := by
  funext address
  rw [← Memory.isSome_held, h.held, Function.comp_apply, Option.isSome_map, Provenance.live]

/-- A wrapper that is alive has the members of its contents. -/
theorem wrapper (h : Related storage s p) (hlive : s.live this = true) :
    ∃ contents, p.contents this = some contents ∧ s.wrapper this = contents.read storage := by
  have hheld : (p.contents this).map (Contents.read storage) = some (s.wrapper this) := by
    rw [← Memory.held_of_live hlive, h.held, Function.comp_apply]
  obtain ⟨contents, hcontents, hread⟩ := Option.map_eq_some_iff.mp hheld
  exact ⟨contents, hcontents, hread.symm⟩

/-- A wrapper that has contents is alive, with the members that they say. -/
theorem wrapper_eq (h : Related storage s p) {contents : Contents C}
    (hcontents : p.contents this = some contents) :
    s.live this = true ∧ s.wrapper this = contents.read storage := by
  have hlive : s.live this = true := by rw [h.live, Provenance.live, hcontents, Option.isSome_some]
  obtain ⟨other, hother, hwrapper⟩ := h.wrapper hlive
  rw [hcontents] at hother
  exact ⟨hlive, Option.some.inj hother ▸ hwrapper⟩

/-- A wrapper is given contents. -/
theorem write (h : Related storage s p) {contents : Option (Contents C)}
    (hconstructed : s'.constructed = s.constructed)
    (hheld : s'.held = Function.update s.held this (contents.map (Contents.read storage))) :
    Related storage s' (p.write this contents) where
  constructed := hconstructed.trans h.constructed
  held := by rw [hheld, h.held, Provenance.contents_write, Function.comp_update]

/-- A new wrapper is given contents. -/
theorem write_allocate (h : Related storage s p) {contents : Option (Contents C)}
    (hconstructed : s'.constructed = s.constructed + 1)
    (hheld : s'.held = Function.update s.held this (contents.map (Contents.read storage))) :
    Related storage s' (p.allocate.write this contents) where
  constructed := hconstructed.trans (congrArg (fun constructed => constructed + 1) h.constructed)
  held := by
    rw [hheld, h.held, Provenance.contents_write, Provenance.contents_allocate,
      Function.comp_update]

/-- Two wrappers trade their contents. -/
theorem trade {other : ℕ} (h : Related storage s p) (hconstructed : s'.constructed = s.constructed)
    (hheld : s'.held = s.held ∘ Equiv.swap this other) :
    Related storage s' (p.trade this other) where
  constructed := hconstructed.trans h.constructed
  held := by rw [hheld, h.held, Provenance.contents_trade, Function.comp_assoc]

/-- A new wrapper is a copy of its source, and the id of the source is replaced. -/
theorem moveConstruct {wrapper : ℕ} (h : Related storage s p) (hsource : s.live wrapper = true)
    (hne : wrapper ≠ this) :
    Related storage ((s.allocate storage this).moveConstruct this wrapper)
      ((p.allocate.write this (p.contents wrapper)).write wrapper
        ((p.contents wrapper).map (Contents.relabel p.constructed))) := by
  obtain ⟨contents, hcontents, hwrapper⟩ := h.wrapper hsource
  have hcopied : Related storage ((s.allocate storage this).copyConstruct this wrapper)
      (p.allocate.write this (p.contents wrapper)) := by
    refine h.write_allocate rfl ?_
    rw [Memory.held_copyConstruct hsource hne, h.held, Function.comp_apply]
  refine hcopied.write rfl ?_
  have hmessage : s.message wrapper = contents.message.upcast :=
    congrArg MessageWrapper.message hwrapper
  rw [Memory.held_moveConstruct hsource hne, Memory.held_copyConstruct hsource hne, hcontents,
    hmessage, h.constructed]
  rfl

/-- Every action keeps the memory to what the contents say. -/
theorem step (h : Related storage s p) (action : WrapperAction C) :
    Option.Rel (Related storage) (s.step storage action) (p.step action) := by
  have hread : ∀ address, s.held address = (p.contents address).map (Contents.read storage) :=
    congrFun h.held
  cases action with
  | construct this message =>
    rw [Memory.step, Provenance.step, ← h.live]
    exact Run.rel_guard fun _ => h.write_allocate rfl (Memory.held_construct message)
  | copyConstruct this wrapper =>
    rw [Memory.step, Provenance.step, ← h.live]
    refine Run.rel_guard fun hguard => h.write_allocate rfl ?_
    have hne := ne_of_live hguard
    rw [not_or, not_not] at hguard
    rw [Memory.held_copyConstruct hguard.2 hne, hread]
  | moveConstruct this wrapper =>
    rw [Memory.step, Provenance.step, ← h.live]
    refine Run.rel_guard fun hguard => ?_
    have hne := ne_of_live hguard
    rw [not_or, not_not] at hguard
    exact h.moveConstruct hguard.2 hne
  | copyAssign this rhs =>
    rw [Memory.step, Provenance.step, ← h.live]
    refine Run.rel_guard fun hguard => h.write (Memory.constructed_copyAssign this rhs) ?_
    rw [not_or, not_not, not_not] at hguard
    rw [Memory.held_copyAssign hguard.1 hguard.2, hread]
  | moveAssign this rhs =>
    rw [Memory.step, Provenance.step, ← h.live]
    refine Run.rel_guard fun hguard => h.trade rfl ?_
    rw [not_or, not_not, not_not] at hguard
    exact Memory.held_moveAssign hguard.1 hguard.2
  | destroy this =>
    rw [Memory.step, Provenance.step, ← h.live]
    exact Run.rel_guard fun _ => h.write rfl (Memory.held_destroy this)

/-- A run on any storage leads to the members that the contents say. -/
theorem run (storage : ℕ → MessageWrapper M) (actions : List (WrapperAction C)) :
    Option.Rel (Related storage) (Memory.run storage actions) (Provenance.run actions) :=
  Run.run_rel (fun _ _ action h => h.step action) actions Related.empty

end Related

/-! ## The representation invariant -/

/-- A wrapper is empty, or its id is the id of the message it points to. -/
def MessageWrapper.Consistent (C : Messages M) (wrapper : MessageWrapper M) : Prop :=
  wrapper.message = .null ∨
    ∃ message, wrapper.message = .object message ∧
      wrapper.messageId = getMessageId (C.descriptor message)

/-- `as` gives a wrapper's message out under every type with an id that `holds_message` names. -/
def MessageWrapper.Answers (C : Messages M) (wrapper : MessageWrapper M) : Prop :=
  ∀ type ∈ protocolTypes, wrapper.holdsMessage type = true → wrapper.message ≠ .null →
    wrapper.as C type ≠ .null

/-- The destination and the source of a copy or move. -/
def WrapperAction.transfer : WrapperAction C → Option (ℕ × ℕ)
  | .copyConstruct this wrapper | .moveConstruct this wrapper => some (this, wrapper)
  | .copyAssign this rhs | .moveAssign this rhs => some (this, rhs)
  | .construct _ _ | .destroy _ => none

/-- After the actions, whatever the storage of a wrapper contained before its construction, every
wrapper that is alive is consistent and gives its message out, each copy and move handed its
source's message over, and no wrapper depends on what the storage contained. -/
structure RepresentationInvariant (actions : List (WrapperAction C)) : Prop where
  consistent : ∀ storage s, Memory.run storage actions = some s →
    ∀ this, s.live this = true → (s.wrapper this).Consistent C
  answers : ∀ storage s, Memory.run storage actions = some s →
    ∀ this, s.live this = true → (s.wrapper this).Answers C
  transferred : ∀ storage s action s',
    Run.Passes (Memory.step storage) Memory.empty actions s action s' →
    ∀ this source, action.transfer = some (this, source) → s'.message this = s.message source
  independent : ∀ storage s storage' s', Memory.run storage actions = some s →
    Memory.run storage' actions = some s' →
    ∀ this, s.live this = true → s'.live this = true ∧ s'.wrapper this = s.wrapper this

/-- A wrapper with a message under the message's own id is consistent. -/
theorem consistent_read (storage : ℕ → MessageWrapper M) (message : TypedPointer C) :
    (Contents.read storage ⟨message, none⟩).Consistent C := by
  obtain ⟨type, message, _, hdescriptor⟩ := message
  cases message with
  | none => exact Or.inl rfl
  | some message =>
    exact Or.inr ⟨message, rfl, congrArg getMessageId (hdescriptor message rfl).symm⟩

/-- It gives the message out under the one type that has the id. -/
theorem answers_read (storage : ℕ → MessageWrapper M) (message : TypedPointer C) :
    (Contents.read storage ⟨message, none⟩).Answers C := by
  obtain ⟨type, message, hdefined, hdescriptor⟩ := message
  intro requested hrequested hholds hpointer
  have hid : getMessageId requested = getMessageId type := of_decide_eq_true hholds
  have hsame : requested = type := eq_of_getMessageId hrequested hdefined hid
  cases message with
  | none => exact absurd rfl hpointer
  | some message =>
    have hcast : dynamicPointerCast C requested (.object message) = .object message := by
      rw [dynamicPointerCast, if_pos (by rw [hdescriptor message rfl, hsame])]
    have has : (Contents.read storage ⟨⟨type, some message, hdefined, hdescriptor⟩, none⟩).as C
        requested = .object message := by
      rw [MessageWrapper.as]
      exact (if_pos hid).trans hcast
    rw [has]
    exact nofun

/-- A copy or move hands over both members. -/
theorem wrapper_of_transfer {storage : ℕ → MessageWrapper M} {s s' : Memory M}
    {action : WrapperAction C} {this source : ℕ} (hstep : s.step storage action = some s')
    (htransfer : action.transfer = some (this, source)) : s'.wrapper this = s.wrapper source := by
  cases action with
  | construct _ _ => nomatch htransfer
  | destroy _ => nomatch htransfer
  | copyConstruct destination wrapper =>
    obtain ⟨rfl, rfl⟩ := Prod.mk.inj (Option.some.inj htransfer)
    obtain ⟨hguard, hnext⟩ := Option.ite_none_left_eq_some.mp hstep
    rw [← Option.some.inj hnext, Memory.wrapper_copyConstruct, Function.update_self,
      Memory.wrapper_allocate, Function.update_of_ne (ne_of_live hguard)]
  | moveConstruct destination wrapper =>
    obtain ⟨rfl, rfl⟩ := Prod.mk.inj (Option.some.inj htransfer)
    obtain ⟨hguard, hnext⟩ := Option.ite_none_left_eq_some.mp hstep
    have hne := ne_of_live hguard
    rw [← Option.some.inj hnext, Memory.wrapper_moveConstruct, Function.update_of_ne hne.symm,
      Function.update_self, Memory.wrapper_allocate, Function.update_of_ne hne]
  | copyAssign destination rhs =>
    obtain ⟨rfl, rfl⟩ := Prod.mk.inj (Option.some.inj htransfer)
    obtain ⟨_, hnext⟩ := Option.ite_none_left_eq_some.mp hstep
    rw [← Option.some.inj hnext, Memory.wrapper_copyAssign, Function.update_self]
  | moveAssign destination rhs =>
    obtain ⟨rfl, rfl⟩ := Prod.mk.inj (Option.some.inj htransfer)
    obtain ⟨_, hnext⟩ := Option.ite_none_left_eq_some.mp hstep
    rw [← Option.some.inj hnext, Memory.wrapper_moveAssign, Function.comp_apply,
      Equiv.swap_apply_left]

/-- Actions that are possible on one storage lead to contents. -/
theorem exists_contents {storage : ℕ → MessageWrapper M} {actions : List (WrapperAction C)}
    {s : Memory M} (hrun : Memory.run storage actions = some s) :
    ∃ p, Provenance.run actions = some p ∧ Related storage s p := by
  have hrelated := Related.run storage actions
  rw [hrun] at hrelated
  exact Run.exists_of_rel_left hrelated

/-- Actions that lead to contents are possible on every storage. -/
theorem exists_memory (storage : ℕ → MessageWrapper M) {actions : List (WrapperAction C)}
    {p : Provenance C} (hrun : Provenance.run actions = some p) :
    ∃ s, Memory.run storage actions = some s ∧ Related storage s p := by
  have hrelated := Related.run storage actions
  rw [hrun] at hrelated
  exact Run.exists_of_rel_right hrelated

/-- A wrapper whose id came from storage has another one where the storage contained another. -/
theorem RepresentationInvariant.clean {actions : List (WrapperAction C)} {p : Provenance C}
    (h : RepresentationInvariant actions) (hrun : Provenance.run actions = some p) : p.Clean := by
  intro this contents hcontents
  cases hstorage : contents.storage with
  | none => rfl
  | some construction =>
    obtain ⟨s, hs, hrelated⟩ := exists_memory (fun _ => ⟨7, .null⟩) hrun
    obtain ⟨s', hs', hrelated'⟩ := exists_memory (fun _ => ⟨8, .null⟩) hrun
    obtain ⟨hlive, hwrapper⟩ := hrelated.wrapper_eq hcontents
    obtain ⟨_, hwrapper'⟩ := hrelated'.wrapper_eq hcontents
    obtain ⟨_, hsame⟩ := h.independent _ s _ s' hs hs' this hlive
    have hids : 8 = 7 := by
      have hid := congrArg MessageWrapper.messageId (hwrapper'.symm.trans (hsame.trans hwrapper))
      rwa [Contents.read, Contents.read, hstorage] at hid
    exact absurd hids (by decide)

/-- Where the contents are clean, every wrapper has the members of a message. -/
theorem Provenance.Clean.wrapper_eq {storage : ℕ → MessageWrapper M}
    {actions : List (WrapperAction C)} {p : Provenance C} {s : Memory M} (h : p.Clean)
    (hrun : Provenance.run actions = some p) (hs : Memory.run storage actions = some s) {this : ℕ}
    (hlive : s.live this = true) :
    ∃ message, p.contents this = some ⟨message, none⟩ ∧
      s.wrapper this = Contents.read storage ⟨message, none⟩ := by
  obtain ⟨p', hp, hrelated⟩ := exists_contents hs
  obtain rfl := Option.some.inj (hrun.symm.trans hp)
  obtain ⟨contents, hcontents, hwrapper⟩ := hrelated.wrapper hlive
  have hclean : contents = ⟨contents.message, none⟩ := by rw [← h this contents hcontents]
  exact ⟨contents.message, hclean ▸ hcontents, hclean ▸ hwrapper⟩

/-- Where the contents are clean, the representation invariant holds. -/
theorem Provenance.Clean.representationInvariant {actions : List (WrapperAction C)}
    {p : Provenance C} (h : p.Clean) (hrun : Provenance.run actions = some p) :
    RepresentationInvariant actions where
  consistent storage s hs this hlive := by
    obtain ⟨message, _, hwrapper⟩ := h.wrapper_eq hrun hs hlive
    exact hwrapper ▸ consistent_read storage message
  answers storage s hs this hlive := by
    obtain ⟨message, _, hwrapper⟩ := h.wrapper_eq hrun hs hlive
    exact hwrapper ▸ answers_read storage message
  transferred storage s action s' hpasses this source htransfer := by
    obtain ⟨_, _, _, _, hstep⟩ := hpasses
    exact congrArg MessageWrapper.message (wrapper_of_transfer hstep htransfer)
  independent storage s storage' s' hs hs' this hlive := by
    obtain ⟨message, hcontents, hwrapper⟩ := h.wrapper_eq hrun hs hlive
    obtain ⟨p', hp, hrelated⟩ := exists_contents hs'
    obtain rfl := Option.some.inj (hrun.symm.trans hp)
    obtain ⟨hlive', hwrapper'⟩ := hrelated.wrapper_eq hcontents
    refine ⟨hlive', ?_⟩
    rw [hwrapper', hwrapper]
    rfl

/-- The representation invariant holds after a run exactly when every wrapper that is alive holds
its message under the message's own id. -/
theorem representationInvariant_iff_clean {actions : List (WrapperAction C)} {p : Provenance C}
    (hrun : Provenance.run actions = some p) : RepresentationInvariant actions ↔ p.Clean :=
  ⟨fun h => h.clean hrun, fun h => h.representationInvariant hrun⟩

namespace Provenance

variable {p p' : Provenance C} {this other : ℕ}

/-- A wrapper is given a message under its own id, or is destroyed. -/
theorem Clean.write (h : p.Clean) {contents : Option (Contents C)}
    (hcontents : ∀ held, contents = some held → held.storage = none) :
    (p.write this contents).Clean := by
  intro address held hheld
  rw [contents_write] at hheld
  by_cases hsame : address = this
  · rw [hsame, Function.update_self] at hheld
    exact hcontents held hheld
  · rw [Function.update_of_ne hsame] at hheld
    exact h address held hheld

/-- An action other than a move construction passes on only what wrappers hold. -/
theorem Clean.step (h : p.Clean) {action : WrapperAction C} (hstep : p.step action = some p')
    (hmove : ∀ this wrapper, action ≠ .moveConstruct this wrapper) : p'.Clean := by
  have hallocate : p.allocate.Clean := h
  cases action with
  | construct this message =>
    obtain ⟨_, hnext⟩ := Option.ite_none_left_eq_some.mp hstep
    rw [← Option.some.inj hnext]
    exact hallocate.write fun held hheld => by rw [← Option.some.inj hheld]
  | copyConstruct this wrapper =>
    obtain ⟨_, hnext⟩ := Option.ite_none_left_eq_some.mp hstep
    exact Option.some.inj hnext ▸ hallocate.write (h wrapper)
  | moveConstruct this wrapper => exact absurd rfl (hmove this wrapper)
  | copyAssign this rhs =>
    obtain ⟨_, hnext⟩ := Option.ite_none_left_eq_some.mp hstep
    exact Option.some.inj hnext ▸ h.write (h rhs)
  | moveAssign this rhs =>
    obtain ⟨_, hnext⟩ := Option.ite_none_left_eq_some.mp hstep
    rw [← Option.some.inj hnext]
    exact fun address => h (Equiv.swap this rhs address)
  | destroy this =>
    obtain ⟨_, hnext⟩ := Option.ite_none_left_eq_some.mp hstep
    exact Option.some.inj hnext ▸ h.write nofun

/-- Without a move construction every wrapper goes on holding a message under its own id. -/
theorem Clean.run {actions : List (WrapperAction C)} (h : p.Clean)
    (hrun : Run.run Provenance.step p actions = some p')
    (hmove : ∀ this wrapper, .moveConstruct this wrapper ∉ actions) : p'.Clean := by
  induction actions generalizing p with
  | nil => exact Option.some.inj hrun ▸ h
  | cons action actions ih =>
    obtain ⟨next, hstep, hrest⟩ := Run.exists_of_run_cons hrun
    have hnext : next.Clean := h.step hstep fun this wrapper hsame =>
      hmove this wrapper (hsame ▸ List.mem_cons_self)
    exact ih hnext hrest fun this wrapper hmem =>
      hmove this wrapper (List.mem_cons_of_mem action hmem)

/-- Nothing is alive before the first action. -/
theorem clean_empty : (empty : Provenance C).Clean := fun _ _ h => nomatch h

/-- A move construction leaves its source an id from storage. -/
theorem not_clean_of_moveConstruct (hstep : p.step (.moveConstruct this other) = some p') :
    ¬ p'.Clean := by
  obtain ⟨hguard, hnext⟩ := Option.ite_none_left_eq_some.mp hstep
  rw [not_or, not_not] at hguard
  obtain ⟨held, hheld⟩ := Option.isSome_iff_exists.mp hguard.2
  rw [← Option.some.inj hnext, hheld]
  intro hclean
  exact nomatch hclean other (held.relabel p.constructed) (Function.update_self ..)

end Provenance

/-- At all times of a run the representation invariant holds, whatever storage contained before the
constructions, exactly when no wrapper is move-constructed in it. -/
theorem representationInvariant_iff (C : Messages M) (storage : ℕ → MessageWrapper M)
    (actions : List (WrapperAction C)) (hrun : (Memory.run storage actions).isSome = true) :
    (∀ before after, actions = before ++ after → RepresentationInvariant before) ↔
      ∀ this wrapper, WrapperAction.moveConstruct this wrapper ∉ actions := by
  obtain ⟨s, hs⟩ := Option.isSome_iff_exists.mp hrun
  obtain ⟨p, hp, _⟩ := exists_contents hs
  constructor
  · intro h this wrapper hmem
    obtain ⟨before, after, rfl⟩ := List.append_of_mem hmem
    obtain ⟨middle, hbefore, hrest⟩ := Run.exists_of_run_append hp
    obtain ⟨next, hstep, _⟩ := Run.exists_of_run_cons hrest
    have hmoved : Provenance.run (before ++ [.moveConstruct this wrapper]) = some next :=
      Run.run_concat hbefore hstep
    have hinvariant := h (before ++ [.moveConstruct this wrapper]) after (by simp)
    exact Provenance.not_clean_of_moveConstruct hstep
      ((representationInvariant_iff_clean hmoved).mp hinvariant)
  · intro hmove before after hsplit
    subst hsplit
    obtain ⟨middle, hbefore, _⟩ := Run.exists_of_run_append hp
    apply (representationInvariant_iff_clean hbefore).mpr
    apply Provenance.clean_empty.run hbefore
    intro this wrapper hmem
    exact hmove this wrapper (List.mem_append_left after hmem)

/-- A pointer to a HelloResponse. -/
def helloPointer : TypedPointer wireMessages where
  type := .helloResponse
  message := some helloMessage
  defined := Or.inl (by decide +kernel)
  descriptor_eq _ h := Option.some.inj h ▸ rfl

/-- A wrapper, a copy of it, both assigned to themselves, and the two of them swapped. -/
theorem representationInvariant_iff_assignments :
    (Memory.run (C := wireMessages) (fun _ => ⟨7, .wild⟩)
      [.construct 0 helloPointer, .copyConstruct 1 0, .copyAssign 1 1, .moveAssign 0 0,
        .moveAssign 0 1]).isSome = true ∧
      ∀ before after, [.construct 0 helloPointer, .copyConstruct 1 0, .copyAssign 1 1,
        .moveAssign 0 0, .moveAssign 0 1] = before ++ after → RepresentationInvariant before :=
  ⟨rfl, (representationInvariant_iff wireMessages (fun _ => ⟨7, .wild⟩)
    [.construct 0 helloPointer, .copyConstruct 1 0, .copyAssign 1 1, .moveAssign 0 0,
      .moveAssign 0 1] rfl).mpr (by simp)⟩

/-- A wrapper that was moved into a new one still points to its message, but has the id that storage
contained: here that of a pong. -/
theorem representationInvariant_fails_moveConstruct :
    ¬ RepresentationInvariant (C := wireMessages)
      [.construct 0 helloPointer, .moveConstruct 1 0] := by
  intro h
  obtain ⟨s, hrun, hlive, hwrapper⟩ : ∃ s, Memory.run (C := wireMessages) (fun _ => ⟨8, .null⟩)
      [.construct 0 helloPointer, .moveConstruct 1 0] = some s ∧ s.live 0 = true ∧
      s.wrapper 0 = ⟨8, .object helloMessage⟩ := ⟨_, rfl, rfl, rfl⟩
  rcases hwrapper ▸ h.consistent _ s hrun 0 hlive with hnull | ⟨message, hmessage, hid⟩
  · nomatch hnull
  · rw [← Pointer.object.inj hmessage] at hid
    exact absurd hid (by decide +kernel)

/-! ## Delivery -/

/-- A wrapper is moved on from one new wrapper to the next. -/
def moveAlong (source : ℕ) : List ℕ → List (WrapperAction C)
  | [] => []
  | this :: rest => .moveConstruct this source :: moveAlong this rest

/-- The last wrapper holds what the first one held, whatever storage contained. -/
theorem wrapper_moveAlong {storage : ℕ → MessageWrapper M} {s s' : Memory M} {source : ℕ}
    {chain : List ℕ}
    (hrun : Run.run (Memory.step storage) s (moveAlong (C := C) source chain) = some s') :
    s'.wrapper (chain.getLastD source) = s.wrapper source := by
  induction chain generalizing s source with
  | nil => rw [← Option.some.inj hrun]; rfl
  | cons this rest ih =>
    obtain ⟨next, hstep, hrest⟩ := Run.exists_of_run_cons hrun
    rw [List.getLastD_cons, ih hrest]
    exact wrapper_of_transfer hstep rfl

/-- A handler is called with a wrapper that was copied into a closure and then moved on, any number
of times. It holds the message of the original. -/
theorem wrapper_delivered {storage : ℕ → MessageWrapper M} {s s' : Memory M} {result message : ℕ}
    {chain : List ℕ}
    (hrun : Run.run (Memory.step storage) s
      (.copyConstruct (C := C) result message :: moveAlong result chain) = some s') :
    s'.wrapper (chain.getLastD result) = s.wrapper message := by
  obtain ⟨next, hstep, hrest⟩ := Run.exists_of_run_cons hrun
  rw [wrapper_moveAlong hrest]
  exact wrapper_of_transfer hstep rfl

/-- The wrapper of a message. -/
def Messages.wrap (C : Messages M) (message : M) : MessageWrapper M :=
  ⟨getMessageId (C.descriptor message), .object message⟩

/-- A wrapper holds a message as the message itself was said to be held. -/
theorem holdsMessage_wrap (type : MessageType) (message : M) :
    (C.wrap message).holdsMessage type = C.holdsMessage type message := rfl

/-- `as` of a wrapper is `as` of its message. -/
theorem as_wrap (type : MessageType) (message : M) :
    (C.wrap message).as C type = (C.as type message).elim .null .object := by
  rw [MessageWrapper.as, Messages.as, Messages.holdsMessage, Messages.wrap, dynamicPointerCast]
  by_cases hid : getMessageId type = getMessageId (C.descriptor message)
  · by_cases hsame : C.descriptor message = type
    · rw [if_pos hid, if_pos hsame, if_pos ⟨decide_eq_true hid, hsame⟩]
      rfl
    · rw [if_pos hid, if_neg hsame, if_neg (fun h => hsame h.2)]
      rfl
  · rw [if_neg hid, if_neg (fun h => hid (of_decide_eq_true h.1))]
    rfl

end EspHomeApi
