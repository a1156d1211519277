import LinkedProof.Http

/-! A client without a network: its replies are laid down by address, and it keeps the requests. -/
namespace LinkedProof.Http

structure Script where
  routes : List (Text × List Reply)
  log : List Request

namespace Script

def next (url : Text) : List (Text × List Reply) → Reply × List (Text × List Reply)
  | [] => (.failed (.external .connect "no route"), [])
  | (address, replies) :: rest =>
    if address = url then
      match replies with
      | first :: second :: later => (first, (address, second :: later) :: rest)
      | [reply] => (reply, (address, [reply]) :: rest)
      | [] => (.failed (.external .connect "no route"), (address, []) :: rest)
    else
      let (reply, rest) := next url rest
      (reply, (address, replies) :: rest)

def client : Client Script := fun request script =>
  let (reply, routes) := next request.url script.routes
  (reply, ⟨routes, script.log ++ [request]⟩)

end Script

end LinkedProof.Http
