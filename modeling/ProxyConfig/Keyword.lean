import ProxyConfig.Text.Blank

/-! # Keyword families

A family of keywords is a finite type that lists its members in documentation order, with the
spelling and a short description of each. Reading a keyword is a search in that list, so it accepts
exactly the listed spellings.
-/

namespace ProxyConfig

/-- A closed family of keywords. -/
class Keyword (K : Type) where
  /-- Every member, in documentation order. -/
  all : List K
  spelling : K → String
  /-- What hover and completion show for the keyword. -/
  description : K → String

namespace Keyword

variable {K : Type} [Keyword K]

/-- The spelling as a text of the document. -/
def text (k : K) : Text := (spelling k).toList

/-- The keyword with exactly this spelling. -/
def parse? (s : Text) : Option K := all.find? fun k => text k == s

variable (K) in
/-- The spellings of the whole family. -/
def spellings : List String := (all : List K).map spelling

theorem text_of_parse? {s : Text} {k : K} (h : parse? s = some k) : text k = s :=
  eq_of_beq (List.find?_some h :)

end Keyword

/-- Spellings joined for a message that puts the whole list between quotes. -/
def quotedList (names : List String) : String := "\", \"".intercalate names

end ProxyConfig
