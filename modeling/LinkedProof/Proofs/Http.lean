import LinkedProof.Http
import LinkedProof.Proofs.Action
import LinkedProof.Proofs.Json.FromBytes

/-! What becomes of a request: when its reply has a value, and what else it ends with. -/
namespace LinkedProof.Http

variable {room : Nat} {reply : Reply} {failure : Failure}

theorem isSuccess_iff {status : Int} : isSuccess status = true ↔ 200 ≤ status ∧ status ≤ 299 := by
  simp [isSuccess]

theorem Reply.value_ok {data : Json} : reply.value room = .ok (.ok data) ↔
    ∃ status body, reply = .response status body ∧ isSuccess status = true ∧
      Json.parseBytes room body = .ok data := by
  cases reply with
  | failed failure =>
    rw [value]
    by_cases request : failure.isRequest = true
    · simp [request]
    · by_cases unfit : failure.isUnfit = true
      · simp [request, unfit]
      · simp [request, unfit]
  | response status body =>
    unfold value
    by_cases success : isSuccess status = true
    · cases read : Json.parseBytes room body with
      | ok value =>
        simp only [if_pos success, read, Except.ok.injEq]
        constructor
        · rintro rfl
          exact ⟨status, body, rfl, success, read⟩
        · rintro ⟨_, _, ⟨⟩, _, read'⟩
          exact Except.ok.inj (read.symm.trans read')
      | error fault =>
        simp only [if_pos success, read]
        refine iff_of_false (fun same => ?_) fun ⟨_, _, same, _, read'⟩ => ?_
        · split at same
          · rename_i read'
            cases read'
          · cases same
          · cases same
        · cases same
          cases read.symm.trans read'
    · simp [success]

/-- What is left of a reply that is no fault of the exchange: the body of a success nests too
deeply, or the client failed, and not on the way of the request. -/
inductive Reply.Escapes (room : Nat) : Reply → Failure → Prop
  | nested {status : Int} {body : Bytes} {container : Json.Container}
    (success : isSuccess status = true)
    (deep : Json.parseBytes room body = .error (.text (.depth container))) :
    Escapes room (.response status body) (.nesting container)
  | foreign {failure : Failure} (sent : failure.isRequest = false) (fit : failure.isUnfit = false) :
    Escapes room (.failed failure) failure

theorem Reply.value_error_iff :
    reply.value room = .error failure ↔ reply.Escapes room failure := by
  constructor
  · intro stopped
    cases reply with
    | response status body =>
      rw [value] at stopped
      split at stopped
      · rename_i success
        split at stopped
        · cases stopped
        · rename_i deep
          obtain rfl := Except.error.inj stopped
          exact .nested success deep
        · cases stopped
      · cases stopped
    | failed reason =>
      rw [value] at stopped
      split at stopped
      · cases stopped
      · rename_i sent
        split at stopped
        · cases stopped
        · rename_i fit
          obtain rfl := Except.error.inj stopped
          exact .foreign (by simpa using sent) (by simpa using fit)
  · intro escapes
    cases escapes with
    | nested success deep => rw [value, if_pos success, deep]
    | foreign sent fit => simp [value, sent, fit]

/-- What stays a failure is a body that nests too deeply, or was reported by the client. -/
theorem Reply.value_error (stopped : reply.value room = .error failure) :
    (∃ container, failure = .nesting container) ∨ reply = .failed failure := by
  cases value_error_iff.mp stopped with
  | nested _ _ => exact .inl ⟨_, rfl⟩
  | foreign _ _ => exact .inr rfl

theorem ends_exchange {σ : Type} {client : Client σ} {request : Request} {s t : σ}
    {o : Outcome (Except ExchangeFault Json)} : (exchange room client request).Ends s o t ↔
      (client request s).1.value room = o ∧ (client request s).2 = t := Prod.ext_iff

def Reply.ofJson (v : Json) : Reply :=
  .response 200 ((v.render .literal).flatMap Utf8.encodePoint)

theorem Reply.ofJson_value {v : Json} (fits : Json.Fits room v)
    (clear : ¬Json.Broken (v.render .literal)) :
    (Reply.ofJson v).value room = .ok (.ok (v.readBack false)) := by
  rw [ofJson, value, if_pos (isSuccess_iff.mpr ⟨by decide, by decide⟩),
    Json.parseBytes_render fits clear]

end LinkedProof.Http
