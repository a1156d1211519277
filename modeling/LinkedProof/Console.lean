import LinkedProof.Action

/-! What shows a run to people. How a console reads markup and sets out a table is its own affair:
the commands hand texts to it, and it gives back what is to be written or fails. -/
namespace LinkedProof

/-- Markup of a text as it is, a line of markup as it is shown, and a table under a title. -/
structure Console where
  escape : Text → Text
  print : Text → Outcome Text
  table : Text → List Text → List (List Text) → Outcome Text

end LinkedProof
