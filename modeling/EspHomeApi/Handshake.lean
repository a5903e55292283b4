import EspHomeApi.History
import EspHomeApi.WireClient

/-!
# The handshake

`connect` sends its password to a device that has answered its greeting, and it succeeds only if
the device accepts the password. Every event of a history tells what happened before it, so these
are read off the history; what is left is that the name and the version of the device are always
those of the last greeting.
-/

namespace EspHomeApi

open Run

variable {M : Type} {C : Client M} {s s' : State M} {task : ℕ}

/-- The name and the version of the device are those of the last greeting. -/
structure State.Introduced (C : Client M) (s : State M) : Prop where
  deviceName : s.deviceName = (lastGreeting (s.log.map Prod.snd)).elim [] C.name
  apiVersion : s.apiVersion = (lastGreeting (s.log.map Prod.snd)).elim none fun message =>
    some ⟨C.apiVersionMajor message, C.apiVersionMinor message⟩

/-- The last greeting is that of the later events, if they have one. -/
theorem lastGreeting_append (earlier later : List (Event M)) :
    lastGreeting (earlier ++ later) = (lastGreeting later).or (lastGreeting earlier) := by
  rw [lastGreeting, List.reverse_append, List.findSome?_append]
  rfl

/-- A state that differs in other fields has the same name and version. -/
theorem State.Introduced.of_same (h : s.Introduced C) (hname : s'.deviceName = s.deviceName)
    (hversion : s'.apiVersion = s.apiVersion) (hlog : s'.log = s.log) : s'.Introduced C :=
  ⟨by rw [hname, hlog, h.deviceName], by rw [hversion, hlog, h.apiVersion]⟩

/-- A coroutine that goes on sets the name and the version with its greetings. -/
theorem State.Introduced.move (h : s.Introduced C) (hname : s'.deviceName = s.deviceName)
    (hversion : s'.apiVersion = s.apiVersion) (hlog : s'.log = s.log) {next : Next M} :
    (s'.move C task next).Introduced C := by
  have hs' := h.of_same hname hversion hlog
  have hevents : (next.2.map fun event => (task, event)).map Prod.snd = next.2 := by
    rw [List.map_map]
    exact List.map_id _
  have hlast : lastGreeting ((s'.move C task next).log.map Prod.snd) =
      (lastGreeting next.2).or (lastGreeting (s'.log.map Prod.snd)) := by
    rw [move_log, List.map_append, hevents, lastGreeting_append]
  constructor
  · rw [hlast]
    cases hgreeting : lastGreeting next.2 with
    | none => simp only [State.move, hgreeting, Option.elim_none, Option.none_or, hs'.deviceName]
    | some message => simp only [State.move, hgreeting, Option.elim_some, Option.some_or]
  · rw [hlast]
    cases hgreeting : lastGreeting next.2 with
    | none => simp only [State.move, hgreeting, Option.elim_none, Option.none_or, hs'.apiVersion]
    | some message => simp only [State.move, hgreeting, Option.elim_some, Option.some_or]

/-- Every step keeps the name and the version right. -/
theorem State.Introduced.step (h : s.Introduced C) (hstep : Transition C s s') :
    s'.Introduced C := by
  cases hstep with
  | connected htask hconnected =>
    simp only [State.connected, htask, Option.some.injEq] at hconnected
    subst hconnected
    apply h.move <;> rfl
  | submit hregistry => exact h.of_same rfl rfl rfl
  | cancel => exact h.of_same rfl rfl rfl
  | _ => apply h.move <;> rfl

/-- The device answers the greeting, and the ConnectRequest is written. -/
def greetedHandshake : List Action :=
  [.connect, .resolved 0 (.ok ()), .connected 0 (.ok ()), .sent 0 .success 11,
    .expired 0 .operationAborted, .resume 0, .register 0, .received 1 (.ok helloPacket),
    .dispatch 1, .submit, .execute 0, .expired 0 .operationAborted, .resume 0, .dispatch 1,
    .sent 0 .success 3, .expired 0 .operationAborted, .resume 0, .register 0]

/-- The device accepts the password. -/
def acceptedHandshake : List Action :=
  greetedHandshake ++ [.received 1 (.ok [0, 0, 4]), .dispatch 1, .submit, .execute 0,
    .expired 0 .operationAborted, .resume 0]

/-- The state after that handshake. -/
def acceptedState : State WireMessage :=
  (run (State.step wireClient) State.init acceptedHandshake).getD State.init

end EspHomeApi
