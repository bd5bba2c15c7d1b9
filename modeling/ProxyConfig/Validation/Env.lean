import ProxyConfig.Validation.Lines

/-! # Checking environment variables

Every line is `NAME = value` with a name.
-/

namespace ProxyConfig

/-- The report on a line that should set a variable. -/
def checkVariable (line : NumberedLine) : List Diagnostic :=
  match line.entry? with
  | none => [line.report .variableWithoutEquals]
  | some entry => if entry.key.isEmpty then [line.report .unnamedVariable] else []

/-- The report on the environment variables. -/
def Document.checkEnv (doc : Document) : List Diagnostic :=
  (doc.solidLines (doc.sectionsOf .env)).flatMap checkVariable

end ProxyConfig
