import ProxyConfig.Validation.Actors
import ProxyConfig.Validation.Env
import ProxyConfig.Validation.General
import ProxyConfig.Validation.Hosts
import ProxyConfig.Validation.Rules
import ProxyConfig.Validation.Sections

/-! # Validation

Each validator looks at one family of sections and reports everything it finds. A validation runs a
list of validators over one document and appends their reports.
-/

namespace ProxyConfig

/-- The validators. -/
inductive Validator where
  | sections
  | general
  | hosts
  | actors
  | rules
  | env
deriving DecidableEq

namespace Validator

/-- All validators in their usual order. -/
def all : List Validator := [sections, general, hosts, actors, rules, env]

def name : Validator → String
  | sections => "sections"
  | general => "general"
  | hosts => "hosts"
  | actors => "actors"
  | rules => "rules"
  | env => "env"

/-- The family of codes that the validator stands for. -/
def codeFamily : Validator → String
  | sections => "LC0"
  | general => "LC1"
  | hosts => "LC5"
  | actors => "LC2"
  | rules => "LC4"
  | env => "LC6"

/-- What the validator finds in a document. -/
def run (v : Validator) (doc : Document) : List Diagnostic :=
  match v with
  | sections => doc.checkSections
  | general => doc.checkGeneral
  | hosts => doc.checkHosts
  | actors => doc.checkActors
  | rules => doc.checkRules
  | env => doc.checkEnv

end Validator

namespace Document

/-- The reports of the validators, one after the other. -/
def validateWith (validators : List Validator) (doc : Document) : List Diagnostic :=
  validators.flatMap fun v => v.run doc

/-- The report of all validators. -/
def validate (doc : Document) : List Diagnostic := doc.validateWith Validator.all

end Document

/-- The report of all validators on a text. -/
def validate (s : Text) : List Diagnostic := (Document.parse s).validate

/-- The diagnostics of a document and how many of them are bad. -/
structure Report where
  diagnostics : List Diagnostic

namespace Report

def errors (r : Report) : Nat := r.diagnostics.countP Diagnostic.isError

def warnings (r : Report) : Nat := r.diagnostics.countP Diagnostic.isWarning

/-- Whether there is nothing to report. -/
def isClean (r : Report) : Bool := r.diagnostics.isEmpty

end Report

end ProxyConfig
