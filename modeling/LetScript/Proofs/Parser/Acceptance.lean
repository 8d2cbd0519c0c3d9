import LetScript.Proofs.Parser.Completeness
import LetScript.Parser

/-! Which texts are programs. A text that is read without a report stands for the program
that the grammar derives from its tokens, and from no tokens does it derive two. -/
namespace LetScript

/-- A program is what is read from its text when nothing is reported. -/
theorem Program.parse_eq_ok_iff_reads {text : String} {p : Program} :
    Program.parse text = .ok p ↔
      ∃ rest, (Phrase.statements (Lexer.tokens text.toList)).Reads p.statements rest := by
  obtain ⟨ss⟩ := p
  simp only [Program.parse, Parser.program, Parser.ofText, List.nil_append, List.isEmpty_iff]
  constructor
  · intro h
    split at h
    · next hreports =>
      cases h
      exact ⟨_, rfl, hreports, rfl⟩
    · cases h
  · rintro ⟨_, rfl, hreports, -⟩
    rw [if_pos hreports]

theorem Grammar.Statements.unique {ts : List Token} {ss ss' : List Stmt} (h : Statements ts ss)
    (h' : Statements ts ss') : ss = ss' :=
  (Phrase.reads_statements h).1.symm.trans (Phrase.reads_statements h').1

/-- The texts that parse are those with a derivation, and they parse to the tree it dictates. -/
theorem Program.parse_eq_ok_iff_derivation (text : String) (p : Program) :
    Program.parse text = .ok p ↔ Grammar.Statements (Lexer.tokens text.toList) p.statements := by
  rw [Program.parse_eq_ok_iff_reads]
  constructor
  · rintro ⟨rest, h⟩
    exact Phrase.statements_sound _ h
  · intro h
    exact ⟨[], Phrase.reads_statements h⟩

end LetScript
