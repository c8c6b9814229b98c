/-
  Hotspot/Manager/Event.lean
  ==========================
  **What other parts of the system report in their own time.**

  Reports wait in a queue and are applied in the order they came in.  A queue that is
  closed takes nothing more and loses what it held.
-/
import Hotspot.Manager.Resolution

namespace Hotspot

/-- A report. -/
inductive Event where
  | fetchResult (bssid : MacAddress) (elements : Anqp.Elements)
  | fetchFailure (bssid : MacAddress)
  | authorizationChanged (package : String)
  | networkConnected (fqdn : String)
deriving DecidableEq

namespace Manager

def handle (m : Manager) (p : Platform) : Event → Manager
  | .fetchResult bssid elements => (m.fetchResult p bssid elements).2
  | .fetchFailure bssid => (m.fetchFailure bssid).2
  | .authorizationChanged package => (m.authorizationChanged p package).2
  | .networkConnected fqdn => (m.networkConnected p fqdn).2

def handleAll (m : Manager) (p : Platform) (events : List Event) : Manager :=
  events.foldl (fun m e => m.handle p e) m

end Manager

/-- The reports that wait, the oldest first; none when the queue is closed. -/
structure EventQueue where
  waiting : Option (List Event)
deriving DecidableEq

namespace EventQueue

def opened : EventQueue := { waiting := some [] }

def closed : EventQueue := { waiting := none }

def send (q : EventQueue) (e : Event) : Bool × EventQueue :=
  match q.waiting with
  | none => (false, q)
  | some events => (true, { waiting := some (events ++ [e]) })

def events (q : EventQueue) : List Event := q.waiting.getD []

end EventQueue

/-- Apply everything that waits; the result is the number of reports. -/
def Manager.drain (m : Manager) (p : Platform) (q : EventQueue) : Nat × Manager × EventQueue :=
  (q.events.length, m.handleAll p q.events, { waiting := q.waiting.map fun _ => [] })

end Hotspot
