import ProxyConfig.Proofs.Text.Edit
import ProxyConfig.Server.Query
import ProxyConfig.Validation

/-! # Line ends

A carriage return in front of a line feed belongs to the line end, so a text keeps its lines when it
is written with such line ends. All that is asked about a document is asked about its lines: the
diagnostics, the sites and renames of a name, and every answer to a client are the same for both texts.
-/

namespace ProxyConfig

namespace Text

/-- The text with a carriage return put in front of every line feed. -/
def withReturns (s : Text) : Text := s.flatMap fun c => if c = '\n' then ['\r', '\n'] else [c]

theorem withReturns_of_not_mem {s : Text} (flat : '\n' ∉ s) : s.withReturns = s := by
  have kept : ∀ c ∈ s, (if c = '\n' then ['\r', '\n'] else [c]) = [c] := fun c member =>
    if_neg fun (same : c = '\n') => flat (same ▸ member)
  rw [withReturns, List.flatMap_congr kept, List.flatMap_singleton']

theorem withReturns_append_cons {line : Text} (flat : '\n' ∉ line) (s : Text) :
    (line ++ '\n' :: s).withReturns = (line ++ ['\r']) ++ '\n' :: s.withReturns := by
  have front := withReturns_of_not_mem flat
  rw [withReturns] at front
  rw [withReturns, List.flatMap_append, front, List.flatMap_cons, if_pos rfl, ← withReturns]
  simp

theorem lines_append_cons {line : Text} (flat : '\n' ∉ line) (s : Text) :
    (line ++ '\n' :: s).lines = line.dropReturn :: s.lines := by
  rw [lines, pieces_append_cons flat, List.map_cons, ← lines]

/-- A text keeps its lines when its line ends get carriage returns. -/
theorem lines_withReturns {s : Text} (bare : '\r' ∉ s) : s.withReturns.lines = s.lines := by
  -- all lines but the last, which has no line end, get a return that is dropped again
  induction s using pieces_induction (d := '\n') with
  | single s flat => rw [withReturns_of_not_mem flat]
  | more line s flat ih =>
    rw [List.mem_append, List.mem_cons, not_or, not_or] at bare
    have flatToo : '\n' ∉ line ++ ['\r'] := by simp [flat]
    have unended : line.getLast? ≠ some '\r' := fun last => bare.1 (List.mem_of_getLast? last)
    have whole : line.dropReturn = line := by rw [dropReturn, if_neg unended]
    rw [withReturns_append_cons flat, lines_append_cons flatToo, lines_append_cons flat,
      ih bare.2.2, dropReturn_append (.inr rfl), whole]

end Text

namespace Document

theorem parse_withReturns {s : Text} (bare : '\r' ∉ s) : parse s.withReturns = parse s :=
  congrArg Document.mk (Text.lines_withReturns bare)

/-- Nothing that is asked about a document tells apart how its lines end. -/
theorem line_ends_inert (s : Text) (bare : '\r' ∉ s) :
    (parse s.withReturns).lines = (parse s).lines ∧
      (parse s.withReturns).sections = (parse s).sections ∧
      ProxyConfig.validate s.withReturns = ProxyConfig.validate s ∧
      (∀ name declarations,
        (parse s.withReturns).sites name declarations = (parse s).sites name declarations) ∧
      (∀ p, (parse s.withReturns).siteAt? p = (parse s).siteAt? p) ∧
      (∀ p newName, (parse s.withReturns).planRename p newName = (parse s).planRename p newName) ∧
      (∀ p, (parse s.withReturns).hoverAt? p = (parse s).hoverAt? p) ∧
      (∀ p snippets,
        (Cursor.mk (parse s.withReturns) p).items snippets = (Cursor.mk (parse s) p).items snippets) ∧
      (parse s.withReturns).outline = (parse s).outline ∧
      ∀ encoding uri snippets query,
        (ClientView.mk (parse s.withReturns) encoding).answer uri snippets query =
          (ClientView.mk (parse s) encoding).answer uri snippets query := by
  have validated : ProxyConfig.validate s.withReturns = ProxyConfig.validate s := by
    rw [ProxyConfig.validate, parse_withReturns bare, ← ProxyConfig.validate]
  rw [validated, parse_withReturns bare]
  exact ⟨rfl, rfl, rfl, fun _ _ => rfl, fun _ => rfl, fun _ _ => rfl, fun _ => rfl, fun _ _ => rfl, rfl,
    fun _ _ _ _ => rfl⟩

/-- A header, a keyword, a blank line and a last line without a line end. -/
theorem line_ends_inert_rule :
    let s : Text := "[Rule]\nFINAL, a\n\n[Proxy]\na = direct".toList
    '\r' ∉ s ∧ s.withReturns = "[Rule]\r\nFINAL, a\r\n\r\n[Proxy]\r\na = direct".toList ∧
      (parse s.withReturns).sections = (parse s).sections ∧
      ProxyConfig.validate s.withReturns = ProxyConfig.validate s := by
  intro s
  have bare : '\r' ∉ s := by decide +kernel
  obtain ⟨-, sections, validated, -⟩ := line_ends_inert s bare
  exact ⟨bare, by decide +kernel, sections, validated⟩

end Document

end ProxyConfig
