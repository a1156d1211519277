import LinkedProof.CommandLine.Report
import LinkedProof.CommandLine.RunResult
import LinkedProof.Proofs.Console
import LinkedProof.Proofs.Json.Surrogate
import LinkedProof.Proofs.Utf8

/-! When what a run says can be said: what keeps verdicts from their JSON value, and a text or a
line of markup from being printed. -/
namespace LinkedProof

open Json (Broken HoldsBroken)

namespace Report

variable {policy : Policy} {found : List Verdict}

private theorem holdsBroken_proofValue {v : Verdict} : HoldsBroken (proofValue v) ↔
    Broken v.type ∨ Broken v.method ∨ ∃ cause, v.error = some cause ∧ Broken cause.message := by
  have names : ¬Broken (Text.ofString "index") ∧ ¬Broken (Text.ofString "type") ∧
    ¬Broken (Text.ofString "verification_method") ∧ ¬Broken (Text.ofString "valid") ∧
      ¬Broken (Text.ofString "error") := by decide
  have error : HoldsBroken (errorValue v) ↔
      ∃ cause, v.error = some cause ∧ Broken cause.message := by
    cases said : v.error with
    | none => simp [errorValue, said]
    | some cause => simp [errorValue, said]
  simp [proofValue, Json.holdsBroken_object, names, error]

theorem holdsBroken_value : HoldsBroken (value policy found) ↔ ∃ v ∈ found,
    Broken v.type ∨ Broken v.method ∨ ∃ cause, v.error = some cause ∧ Broken cause.message := by
  have names : ¬Broken (Text.ofString "accepted") ∧ ¬Broken (Text.ofString "policy") ∧
    ¬Broken (Text.ofString "proofs") := by decide
  have policies : ¬Broken policy.name := by cases policy <;> decide
  simp [value, Json.holdsBroken_object, Json.holdsBroken_array, names, policies,
    holdsBroken_proofValue]

end Report

namespace CommandLine

variable {files : Files} {code : Nat} {t : Text}

/-- What is printed keeps its status when UTF-8 can carry it. -/
theorem printing_code :
    (printing files code t).ending.code = if Broken t then rejected else code := by
  rw [printing]
  by_cases broken : Broken t
  · obtain ⟨fault, stopped⟩ := Utf8.encodeFrom_surrogate 0 t broken
    rw [Utf8.encode, stopped, if_pos broken]
    rfl
  · have clear : ∀ c ∈ t, c.isSurrogate = false := by simpa [Broken] using broken
    rw [Utf8.encode_ok.mpr ⟨clear, rfl⟩, if_neg broken]
    rfl

theorem broken_line {v : Json} :
    Broken (v.render .pretty ++ Text.ofString "\n") ↔ HoldsBroken v := by
  have lineFeed : ¬Broken (Text.ofString "\n") := by decide
  simp only [Json.render, Json.broken_append, lineFeed, or_false]
  exact Json.broken_layout rfl 0 v

theorem printing_value_code (v : Json) :
    (printing files code (v.render .pretty ++ Text.ofString "\n")).ending.code =
      if HoldsBroken v then rejected else code := by
  rw [printing_code]
  exact if_congr broken_line rfl rfl

variable {console : Console} {markup output : Text}

theorem showing_files (files : Files) (code : Nat) (console : Console) (markup output : Text) :
    (showing files code console markup output).files = files := by
  rw [showing]
  split <;> rfl

/-- What is shown keeps its status when the console can show it. -/
theorem showing_printed (prints : console.Prints markup) :
    (showing files code console markup output).ending.code = code := by
  obtain ⟨shown, printed⟩ := prints
  rw [showing, printed]
  rfl

theorem showing_unprinted (prints : ¬console.Prints markup) :
    (showing files code console markup output).ending.code = rejected := by
  rw [showing]
  cases printed : console.print markup with
  | ok shown => exact absurd ⟨shown, printed⟩ prints
  | error failure => rfl

end CommandLine

end LinkedProof
