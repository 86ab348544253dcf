import ControlRig.Registry.Simulated

/-!
# Calls that come and go

Callers are expected to make one call after the other. Here they need not: calls enter and end in
any order, and the registry is asked afterwards whether it has noticed. What really happened is kept
beside the registry, as the calls that have entered and not ended (`underway`) and whether one of
them was there when another entered (`overlapped`).

A call ends whether or not it was successful. What it does to the rest of the registry before it
ends leaves the marks alone (`SimRegistry.perform`), so endings are all there is to tell.
-/

namespace ControlRig

/-- A registry, and what really goes on there. -/
structure Traffic where
  registry : SimRegistry
  /-- The calls that have entered and not ended, by the numbers of their entries. -/
  underway : List Nat
  /-- How many calls have entered. -/
  entered : Nat
  /-- Whether a call has entered while another one was underway. -/
  overlapped : Bool

namespace Traffic

/-- Nobody has called yet. -/
def fresh (registry : SimRegistry) : Traffic := ⟨registry, [], 0, false⟩

/-- Something that happens to a registry. -/
inductive Event where
  /-- A call enters. -/
  | enter (operation : Operation)
  /-- A call has its effect at a moment, within the time that it was given. -/
  | perform (call : Nat) (operation : Operation) (now : Instant) (limit : Duration)
  /-- A call ends. -/
  | leave (call : Nat)

/-- The registry after an event, if the event can happen. -/
def step? (t : Traffic) : Event → Option Traffic
  | .enter operation =>
    some ⟨t.registry.enter operation, t.entered :: t.underway, t.entered + 1,
      t.overlapped || !t.underway.isEmpty⟩
  | .perform call operation now limit =>
    if call ∈ t.underway then
      some { t with registry := (t.registry.perform now limit operation).registry }
    else none
  | .leave call =>
    if call ∈ t.underway then
      some { t with registry := t.registry.leave, underway := t.underway.erase call }
    else none

/-- The registry after several events, if all of them can happen. -/
def run? (t : Traffic) : List Event → Option Traffic
  | [] => some t
  | event :: rest => (t.step? event).bind (·.run? rest)

end Traffic

end ControlRig
