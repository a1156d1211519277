import LinkedProof.Action

/-! Requests for JSON values, and what becomes of them. The connection is a parameter: a function
from requests to replies that may keep a state of its own. -/
namespace LinkedProof

inductive Timeout
  | unlimited
  | whole (seconds : Int)
  | fractional (seconds : Binary64)

def Timeout.text : Timeout → Text
  | unlimited => Json.null.shown
  | whole seconds => (Json.int seconds).shown
  | fractional seconds => (Json.float seconds).shown

def Timeout.standard : Timeout := .fractional (Binary64.ofInt 30)

namespace Http

structure Request where
  method : Text
  url : Text
  timeout : Timeout
  verify : Bool
  accept : Text
  payload : Option Json

inductive Reply
  | response (status : Int) (body : Bytes)
  | failed (failure : Failure)

abbrev Client (σ : Type) := Request → StateM σ Reply

def Client.onSecond {σ τ : Type} (c : Client σ) : Client (τ × σ) := fun r (t, s) =>
  let (reply, s) := c r s
  (reply, (t, s))

def isSuccess (status : Int) : Bool := 200 ≤ status && status ≤ 299

def Reply.value (room : Nat) : Reply → Outcome (Except ExchangeFault Json)
  | response status body =>
    if isSuccess status then
      match Json.parseBytes room body with
      | .ok value => .ok (.ok value)
      | .error (.text (.depth container)) => .error (.nesting container)
      | .error _ => .ok (.error .body)
    else .ok (.error (.status status))
  | failed failure =>
    if failure.isRequest then .ok (.error (.network failure.message))
    else if failure.isUnfit then .ok (.error .body)
    else .error failure

def exchange {σ : Type} (room : Nat) (c : Client σ) (r : Request) :
    Action σ (Except ExchangeFault Json) :=
  ExceptT.mk fun s =>
    let (reply, s) := c r s
    (reply.value room, s)

end Http

end LinkedProof
