/-
# Scripted transports

A transport that answers from prepared lists and keeps a record of what it is given. It
stands in for a responder where only the caller's side is looked at.
-/
import KeyedRpc.Transport.Basic

namespace KeyedRpc

/-- What a transport is given to do. -/
inductive Delivery where
  | load (module version : String)
  | request (m : Message)

/-- The answers that are left, and what was delivered so far. -/
structure Script where
  replies : List (Except TransportError Message)
  loads : List (Except TransportError Unit)
  delivered : List Delivery

namespace Script

/-- Takes up a delivery. -/
def record (s : Script) (d : Delivery) : Script :=
  { s with delivered := s.delivered ++ [d] }

/-- The failure of a script without a reply that is left. -/
def ended : TransportError :=
  .connectionLost "script ended"

end Script

/-- The transport of a script: requests need a prepared reply, and modules can be loaded
unless an answer says otherwise. -/
def Transport.scripted : Transport (StateM Script) where
  load module version := fun s =>
    let s := s.record (.load module version)
    match s.loads with
    | [] => (.ok (), s)
    | answer :: rest => (answer, { s with loads := rest })
  send request := fun s =>
    let s := s.record (.request request)
    match s.replies with
    | [] => (.error Script.ended, s)
    | answer :: rest => (answer, { s with replies := rest })

end KeyedRpc
