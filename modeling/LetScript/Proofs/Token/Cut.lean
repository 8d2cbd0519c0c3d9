import LetScript.Proofs.Token.Lexer
import Mathlib.Data.List.Chain
import Mathlib.Data.List.TakeWhile

/-! The tokens of a text, described without the scan that finds them. A text is cut into
tokens when it is their literals with blanks before, between and after them, each token is
of the kind that its literal determines, and two tokens with no blank between them could
not have been one longer token. Every text can be cut so in one way only, and a lexer
delivers that cut, token by token, however it is asked. -/
namespace LetScript

open Lexer (isBlank isWordChar symbol? tokens tokenAt)

namespace TokenKind

/-- The character that a token of the kind is. -/
def mark? : TokenKind → Option Char
  | equal => some '='
  | plus => some '+'
  | minus => some '-'
  | bang => some '!'
  | star => some '*'
  | slash => some '/'
  | less => some '<'
  | greater => some '>'
  | comma => some ','
  | semicolon => some ';'
  | parenLeft => some '('
  | parenRight => some ')'
  | braceLeft => some '{'
  | braceRight => some '}'
  | _ => none

/-- The literal of a kind that has only one. -/
def spelling? : TokenKind → Option String
  | equalEqual => some "=="
  | bangEqual => some "!="
  | keyword word => some word.spelling
  | kind => kind.mark?.map String.singleton

/-- Names and reserved words. -/
def isWord : TokenKind → Bool
  | identifier | keyword _ => true
  | _ => false

theorem mark?_eq_some_iff {kind : TokenKind} {c : Char} :
    kind.mark? = some c ↔ symbol? c = some kind := by
  constructor
  · intro h
    cases kind <;> cases h <;> rfl
  · intro h
    unfold Lexer.symbol? at h
    split at h <;> cases h <;> rfl

theorem spelling?_of_symbol? {kind : TokenKind} {c : Char} (h : symbol? c = some kind) :
    kind.spelling? = some (String.singleton c) := by
  rw [← mark?_eq_some_iff] at h
  cases kind <;> cases h <;> rfl

/-- What has only one literal is a character by itself, one of the two longer operators, or a
reserved word. -/
theorem eq_of_spelling? {kind : TokenKind} {literal : String} (h : kind.spelling? = some literal) :
    (∃ c, symbol? c = some kind ∧ literal = String.singleton c) ∨
      kind = .equalEqual ∧ literal = "==" ∨ kind = .bangEqual ∧ literal = "!=" ∨
      ∃ word, kind = .keyword word ∧ literal = word.spelling := by
  unfold spelling? at h
  split at h
  · exact .inr (.inl ⟨rfl, (Option.some.inj h).symm⟩)
  · exact .inr (.inr (.inl ⟨rfl, (Option.some.inj h).symm⟩))
  · exact .inr (.inr (.inr ⟨_, rfl, (Option.some.inj h).symm⟩))
  · obtain ⟨c, hc, hliteral⟩ := Option.map_eq_some_iff.mp h
    exact .inl ⟨c, mark?_eq_some_iff.mp hc, hliteral.symm⟩

end TokenKind

namespace Lexer

theorem plain_of_not_or {c : Char} (h : ¬ (isWordChar c = true ∨ c.isDigit = true)) :
    isWordChar c = false ∧ c.isDigit = false := by
  simpa using h

theorem plain_of_symbol? {c : Char} {kind : TokenKind} (h : symbol? c = some kind) :
    isWordChar c = false ∧ c.isDigit = false :=
  plain_of_not_or fun hc => by simp [symbol?_eq_none hc] at h

end Lexer

namespace Token

/-- The token is of the kind that its literal determines. -/
inductive IsLexeme : Token → Prop where
  | fixed {kind : TokenKind} {literal : String} (h : kind.spelling? = some literal) :
      IsLexeme ⟨kind, literal⟩
  | name {literal : String} (h : IsName literal) : IsLexeme ⟨.identifier, literal⟩
  | number {digits : List Char} (hne : digits ≠ []) (h : ∀ c ∈ digits, c.isDigit = true) :
      IsLexeme ⟨.int, String.ofList digits⟩
  | illegal {c : Char} (hblank : isBlank c = false) (hword : isWordChar c = false)
      (hdigit : c.isDigit = false)
      (hfixed : ∀ kind : TokenKind, kind.spelling? ≠ some (String.singleton c)) :
      IsLexeme ⟨.illegal, String.singleton c⟩

/-- With no blank between them the two tokens are still two. -/
structure Separate (t u : Token) : Prop where
  words : ¬ (t.kind.isWord = true ∧ u.kind.isWord = true)
  numbers : ¬ (t.kind = .int ∧ u.kind = .int)
  marks : t.kind = .equal ∨ t.kind = .bang → u.literal.toList.head? ≠ some '='

/-- The token does not go on with `cs`. -/
structure EndsBefore (t : Token) (cs : List Char) : Prop where
  word : t.kind.isWord = true → ∀ c ∈ cs.head?, isWordChar c = false
  number : t.kind = .int → ∀ c ∈ cs.head?, c.isDigit = false
  mark : t.kind = .equal ∨ t.kind = .bang → cs.head? ≠ some '='

end Token

namespace Lexer

/-- Tokens, each with the blanks after it, put together to a text. -/
def spread (pieces : List (Token × List Char)) : List Char :=
  pieces.flatMap fun piece => piece.1.literal.toList ++ piece.2

/-- The text is `blanks` and then the tokens of `pieces`, with the blanks after each. -/
structure Cut (cs blanks : List Char) (pieces : List (Token × List Char)) : Prop where
  lossless : cs = blanks ++ spread pieces
  isBlank_first : ∀ c ∈ blanks, isBlank c = true
  isBlank_between : ∀ piece ∈ pieces, ∀ c ∈ piece.2, isBlank c = true
  isLexeme : ∀ piece ∈ pieces, piece.1.IsLexeme
  separate : pieces.IsChain fun p q => p.2 = [] → p.1.Separate q.1

/-- The text can be cut into these tokens. -/
def CutsInto (cs : List Char) (ts : List Token) : Prop :=
  ∃ blanks pieces, Cut cs blanks pieces ∧ pieces.map Prod.fst = ts

end Lexer

/-! ### A token and what comes after it -/

namespace Token

open Lexer (tokens_cons tokens_symbol_of tokens_keyword tokens_name tokens_digits)

theorem endsBefore_nil (t : Token) : t.EndsBefore [] :=
  ⟨fun _ => nofun, fun _ => nofun, fun _ => nofun⟩

theorem endsBefore_blank (t : Token) {c : Char} (h : isBlank c = true) (cs : List Char) :
    t.EndsBefore (c :: cs) := by
  have hplain : isWordChar c = false ∧ c.isDigit = false := by
    refine Lexer.plain_of_not_or fun hc => ?_
    rw [Lexer.isBlank_eq_false hc] at h
    cases h
  refine ⟨fun _ => ?_, fun _ => ?_, fun _ => ?_⟩
  · rintro _ ⟨⟩
    exact hplain.1
  · rintro _ ⟨⟩
    exact hplain.2
  · rintro ⟨⟩
    cases h

namespace IsLexeme

variable {t : Token} {cs : List Char}

/-- A token that nothing lengthens is cut from the front of a text. -/
theorem tokens_append (ht : t.IsLexeme) (h : t.EndsBefore cs) :
    tokens (t.literal.toList ++ cs) = t :: tokens cs := by
  cases ht with
  | @fixed kind literal hfixed =>
    obtain ⟨c, hc, rfl⟩ | ⟨rfl, rfl⟩ | ⟨rfl, rfl⟩ | ⟨word, rfl, rfl⟩ :=
      TokenKind.eq_of_spelling? hfixed
    · have hnext : cs.head? ≠ some '=' ∨ c ≠ '=' ∧ c ≠ '!' := by
        by_cases heq : c = '=' ∨ c = '!'
        · refine .inl (h.mark ?_)
          obtain rfl | rfl := heq <;> cases hc
          · exact .inl rfl
          · exact .inr rfl
        · exact .inr (not_or.mp heq)
      have hsymbol := tokens_symbol_of hc hnext
      rw [ofSymbol, hc, Option.getD_some] at hsymbol
      simpa using hsymbol
    · have hequal : isBlank '=' = false := rfl
      simp [tokens_cons hequal, tokenAt]
    · have hbang : isBlank '!' = false := rfl
      simp [tokens_cons hbang, tokenAt]
    · exact tokens_keyword word (h.word rfl)
  | name hname => exact tokens_name hname (h.word rfl)
  | number hne hdigits =>
    rw [String.toList_ofList]
    exact tokens_digits hne hdigits (h.number rfl)
  | @illegal c hblank hword hdigit hfixed =>
    have hsymbol : symbol? c = none := by
      cases hc : symbol? c with
      | none => rfl
      | some kind => exact absurd (TokenKind.spelling?_of_symbol? hc) (hfixed kind)
    have hat : tokenAt c cs = (⟨.illegal, String.singleton c⟩, cs) := by
      unfold tokenAt
      split
      · cases hsymbol
      · cases hsymbol
      · simp [hsymbol, hword, hdigit]
    simp [tokens_cons hblank, hat]

/-- The mark of the end is no token of a text. -/
theorem kind_ne_eof (ht : t.IsLexeme) : t.kind ≠ .eof := by
  cases ht with
  | fixed hfixed =>
    rintro rfl
    cases hfixed
  | name => nofun
  | number => nofun
  | illegal => nofun

/-- The first character of a token tells whether it is a word, a number or neither. -/
theorem exists_first (ht : t.IsLexeme) :
    ∃ c w, t.literal.toList = c :: w ∧ isWordChar c = t.kind.isWord ∧
      (c.isDigit = true ↔ t.kind = .int) := by
  have hword {w : List Char} (hne : w ≠ []) (hw : ∀ c ∈ w, isWordChar c = true) :
      ∃ c v, w = c :: v ∧ isWordChar c = true ∧ c.isDigit = false := by
    obtain ⟨c, v, rfl⟩ := List.exists_cons_of_ne_nil hne
    refine ⟨c, v, rfl, hw c List.mem_cons_self, Bool.eq_false_iff.mpr fun hc => ?_⟩
    exact absurd (hw c List.mem_cons_self) (by simp [Lexer.isWordChar_of_isDigit hc])
  cases ht with
  | @fixed kind literal hfixed =>
    obtain ⟨c, hc, rfl⟩ | ⟨rfl, rfl⟩ | ⟨rfl, rfl⟩ | ⟨word, rfl, rfl⟩ :=
      TokenKind.eq_of_spelling? hfixed
    · obtain ⟨hplain, hdigit⟩ := Lexer.plain_of_symbol? hc
      have hkind : kind.isWord = false ∧ kind ≠ .int := by
        rw [← TokenKind.mark?_eq_some_iff] at hc
        cases kind <;> cases hc <;> exact ⟨rfl, nofun⟩
      exact ⟨c, [], by simp, hplain.trans hkind.1.symm, by simp [hdigit, hkind.2]⟩
    · exact ⟨'=', ['='], by simp, by decide, by decide⟩
    · exact ⟨'!', ['='], by simp, by decide, by decide⟩
    · obtain ⟨c, v, hliteral, hc, hdigit⟩ := hword word.spelling_run.1 word.spelling_run.2
      exact ⟨c, v, hliteral, hc, by simp [hdigit]⟩
  | name hname =>
    obtain ⟨c, v, hliteral, hc, hdigit⟩ := hword (by simpa using hname.1) hname.2.1
    exact ⟨c, v, hliteral, hc, by simp [hdigit]⟩
  | number hne hdigits =>
    obtain ⟨c, v, rfl⟩ := List.exists_cons_of_ne_nil hne
    have hc := hdigits c List.mem_cons_self
    exact ⟨c, v, String.toList_ofList, Lexer.isWordChar_of_isDigit hc, by simp [hc]⟩
  | @illegal c hblank hword hdigit hfixed =>
    exact ⟨c, [], by simp, hword, by simp [hdigit]⟩

variable {u : Token}

/-- Where a token ends depends on the first character of the next one. -/
theorem endsBefore_iff (hu : u.IsLexeme) :
    t.EndsBefore (u.literal.toList ++ cs) ↔ t.Separate u := by
  obtain ⟨c, w, hliteral, hword, hdigit⟩ := hu.exists_first
  have hhead : (u.literal.toList ++ cs).head? = some c := by rw [hliteral]; rfl
  constructor
  · intro h
    refine ⟨fun ⟨ht, hu⟩ => ?_, fun ⟨ht, hu⟩ => ?_, fun ht => ?_⟩
    · have hc := h.word ht c hhead
      rw [hword, hu] at hc
      cases hc
    · have hc := h.number ht c hhead
      rw [hdigit.mpr hu] at hc
      cases hc
    · simpa [hliteral] using h.mark ht
  · intro h
    refine ⟨fun ht d hd => ?_, fun ht d hd => ?_, fun ht => ?_⟩
    · obtain rfl : c = d := Option.some.inj (hhead.symm.trans hd)
      rw [hword]
      exact Bool.eq_false_iff.mpr fun hu => h.words ⟨ht, hu⟩
    · obtain rfl : c = d := Option.some.inj (hhead.symm.trans hd)
      exact Bool.eq_false_iff.mpr fun hc => h.numbers ⟨ht, hdigit.mp hc⟩
    · simpa [hliteral] using h.marks ht

end IsLexeme

end Token

namespace Lexer

variable {c : Char} {cs : List Char} {ts : List Token}

theorem isLexeme_word {w : List Char} (hne : w ≠ []) (hw : ∀ c ∈ w, isWordChar c = true) :
    (word w).IsLexeme := by
  rw [word, TokenKind.ofWord]
  cases hkind : Keyword.ofSpelling? (String.ofList w) with
  | some keyword =>
    obtain hspelling := Keyword.ofSpelling?_eq_some_iff.mp hkind
    exact .fixed (congrArg some hspelling)
  | none =>
    refine .name ⟨by simpa using hne, by simpa using hw, fun keyword hspelling => ?_⟩
    rw [Keyword.ofSpelling?_eq_some_iff.mpr hspelling] at hkind
    cases hkind

theorem isWord_ofWord (text : String) : (TokenKind.ofWord text).isWord = true := by
  unfold TokenKind.ofWord
  split <;> rfl

theorem eq_false_of_mem_head?_dropWhile {p : Char → Bool} {cs : List Char} :
    ∀ c ∈ (cs.dropWhile p).head?, p c = false := by
  intro c hc
  have hstop := List.head?_dropWhile_not p cs
  rwa [Option.mem_def.mp hc] at hstop

theorem endsBefore_symbol {kind : TokenKind} (hsymbol : symbol? c = some kind)
    (hequal : ∀ w, c = '=' → cs ≠ '=' :: w) (hbang : ∀ w, c = '!' → cs ≠ '=' :: w) :
    Token.EndsBefore ⟨kind, String.singleton c⟩ cs := by
  rw [← TokenKind.mark?_eq_some_iff] at hsymbol
  refine ⟨fun hk => ?_, fun hk => ?_, fun hk hhead => ?_⟩
  · cases kind <;> cases hk <;> cases hsymbol
  · cases hk
    cases hsymbol
  · obtain ⟨w, rfl⟩ := List.head?_eq_some_iff.mp hhead
    obtain hk | hk := hk <;> cases hk <;> cases hsymbol
    · exact hequal w rfl rfl
    · exact hbang w rfl rfl

theorem endsBefore_word {text : String} (h : ∀ c ∈ cs.head?, isWordChar c = false) :
    Token.EndsBefore ⟨.ofWord text, text⟩ cs := by
  have hkind := isWord_ofWord text
  refine ⟨fun _ => h, fun hk => ?_, fun hk => ?_⟩
  · rw [show TokenKind.ofWord text = .int from hk] at hkind
    cases hkind
  · obtain hk | hk : TokenKind.ofWord text = .equal ∨ TokenKind.ofWord text = .bang := hk
    all_goals
      rw [hk] at hkind
      cases hkind

/-- Nothing goes on with a longer operator or with a character that is no token. -/
theorem endsBefore_whole {kind : TokenKind}
    (h : kind = .equalEqual ∨ kind = .bangEqual ∨ kind = .illegal) (literal : String)
    (cs : List Char) : Token.EndsBefore ⟨kind, literal⟩ cs := by
  obtain rfl | rfl | rfl := h
  all_goals exact ⟨by simp [TokenKind.isWord], by simp, by simp⟩

theorem spelling?_ne_singleton (hsymbol : symbol? c = none) (hword : isWordChar c = false)
    (kind : TokenKind) : kind.spelling? ≠ some (String.singleton c) := by
  intro hkind
  obtain ⟨d, hd, heq⟩ | ⟨-, heq⟩ | ⟨-, heq⟩ | ⟨keyword, -, heq⟩ := TokenKind.eq_of_spelling? hkind
  all_goals have hlist := congrArg String.toList heq
  · obtain rfl : c = d := by simpa using hlist
    rw [hsymbol] at hd
    cases hd
  · simp at hlist
  · simp at hlist
  · have hc := keyword.spelling_run.2 c (by simp [← hlist])
    rw [hword] at hc
    cases hc

/-- What is cut from the front of a text is a token, nothing is lost, and the token is not cut
short. -/
theorem tokenAt_spec (h : isBlank c = false) (cs : List Char) :
    (tokenAt c cs).1.IsLexeme ∧ (tokenAt c cs).1.literal.toList ++ (tokenAt c cs).2 = c :: cs ∧
      (tokenAt c cs).1.EndsBefore (tokenAt c cs).2 := by
  unfold tokenAt
  split
  · exact ⟨.fixed rfl, by simp, endsBefore_whole (.inl rfl) _ _⟩
  · exact ⟨.fixed rfl, by simp, endsBefore_whole (.inr (.inl rfl)) _ _⟩
  · next hequal hbang =>
    split
    · next kind hsymbol =>
      exact ⟨.fixed (TokenKind.spelling?_of_symbol? hsymbol), by simp,
        endsBefore_symbol hsymbol hequal hbang⟩
    · next hsymbol =>
      by_cases hword : isWordChar c = true
      · have hw : ∀ d ∈ c :: cs.takeWhile isWordChar, isWordChar d = true :=
          List.forall_mem_cons.mpr ⟨hword, fun d => List.mem_takeWhile_imp⟩
        rw [if_pos hword]
        exact ⟨isLexeme_word (by simp) hw, by simp [word],
          endsBefore_word eq_false_of_mem_head?_dropWhile⟩
      · have hplain := Bool.eq_false_iff.mpr hword
        rw [if_neg hword]
        by_cases hdigit : c.isDigit = true
        · have hw : ∀ d ∈ c :: cs.takeWhile Char.isDigit, d.isDigit = true :=
            List.forall_mem_cons.mpr ⟨hdigit, fun d => List.mem_takeWhile_imp⟩
          rw [if_pos hdigit]
          exact ⟨.number (by simp) hw, by simp, by simp [TokenKind.isWord],
            fun _ => eq_false_of_mem_head?_dropWhile, by simp⟩
        · rw [if_neg hdigit]
          have hfixed := spelling?_ne_singleton hsymbol hplain
          exact ⟨.illegal h hplain (Bool.eq_false_iff.mpr hdigit) hfixed, by simp,
            endsBefore_whole (.inr (.inr rfl)) _ _⟩

/-! ### The only cut -/

theorem tokens_blanks {blanks : List Char} (h : ∀ c ∈ blanks, isBlank c = true) (cs : List Char) :
    tokens (blanks ++ cs) = tokens cs :=
  tokens_of_dropWhile_eq (List.dropWhile_append_of_pos h)

/-- A token before a cut text ends there unless the next token comes at once and would join it. -/
theorem Cut.endsBefore_iff {t : Token} {blanks : List Char} {pieces : List (Token × List Char)}
    (h : Cut cs blanks pieces) :
    t.EndsBefore cs ↔ ∀ piece ∈ pieces.head?, blanks = [] → t.Separate piece.1 := by
  rw [h.lossless]
  cases blanks with
  | cons c blanks =>
    have hblank := h.isBlank_first c List.mem_cons_self
    have hends := t.endsBefore_blank hblank (blanks ++ spread pieces)
    exact iff_of_true hends fun _ _ => nofun
  | nil =>
    cases pieces with
    | nil => exact iff_of_true t.endsBefore_nil nofun
    | cons piece pieces =>
      have hpiece := h.isLexeme piece List.mem_cons_self
      rw [List.nil_append, spread, List.flatMap_cons, List.append_assoc, hpiece.endsBefore_iff]
      simp

theorem Cut.tail {blanks after : List Char} {t : Token} {pieces : List (Token × List Char)}
    (h : Cut cs blanks ((t, after) :: pieces)) : Cut (after ++ spread pieces) after pieces where
  lossless := rfl
  isBlank_first := h.isBlank_between _ List.mem_cons_self
  isBlank_between piece hpiece := h.isBlank_between piece (List.mem_cons_of_mem _ hpiece)
  isLexeme piece hpiece := h.isLexeme piece (List.mem_cons_of_mem _ hpiece)
  separate := h.separate.tail

theorem Cut.tokens_eq {blanks : List Char} {pieces : List (Token × List Char)}
    (h : Cut cs blanks pieces) : tokens cs = pieces.map Prod.fst := by
  induction pieces generalizing cs blanks with
  | nil =>
    have hcs : cs = blanks ++ [] := h.lossless
    rw [hcs, tokens_blanks h.isBlank_first, tokens_nil, List.map_nil]
  | cons piece pieces ih =>
    obtain ⟨t, after⟩ := piece
    have hcs : cs = blanks ++ (t.literal.toList ++ (after ++ spread pieces)) := by
      rw [h.lossless, spread, List.flatMap_cons, List.append_assoc, spread]
    have hends : t.EndsBefore (after ++ spread pieces) :=
      h.tail.endsBefore_iff.mpr fun piece hpiece => List.IsChain.rel_head? h.separate hpiece
    rw [hcs, tokens_blanks h.isBlank_first,
      (h.isLexeme _ List.mem_cons_self).tokens_append hends, ih h.tail, List.map_cons]

theorem cutsInto_tokens (cs : List Char) : CutsInto cs (tokens cs) := by
  fun_induction tokens cs with
  | case1 cs hcs =>
    refine ⟨cs, [], ⟨(List.append_nil cs).symm, ?_, by simp, by simp, .nil⟩, rfl⟩
    exact List.dropWhile_eq_nil_iff.mp hcs
  | case2 cs c rest hcs ih =>
    obtain ⟨after, pieces, hcut, hpieces⟩ := ih
    have hblank : isBlank c = false := eq_false_of_mem_head?_dropWhile c (by rw [hcs]; rfl)
    obtain ⟨hlexeme, hlossless, hends⟩ := tokenAt_spec hblank rest
    refine ⟨cs.takeWhile isBlank, ((tokenAt c rest).1, after) :: pieces, ⟨?_, ?_, ?_, ?_, ?_⟩, ?_⟩
    · rw [spread, List.flatMap_cons, List.append_assoc, ← spread, ← hcut.lossless, hlossless, ← hcs,
        List.takeWhile_append_dropWhile]
    · exact fun c => List.mem_takeWhile_imp
    · exact List.forall_mem_cons.mpr ⟨hcut.isBlank_first, hcut.isBlank_between⟩
    · exact List.forall_mem_cons.mpr ⟨hlexeme, hcut.isLexeme⟩
    · exact List.isChain_cons.mpr ⟨hcut.endsBefore_iff.mp hends, hcut.separate⟩
    · rw [List.map_cons, hpieces]

theorem cutsInto_iff : CutsInto cs ts ↔ ts = tokens cs := by
  constructor
  · rintro ⟨blanks, pieces, hcut, rfl⟩
    exact hcut.tokens_eq.symm
  · rintro rfl
    exact cutsInto_tokens cs

theorem isLexeme_of_mem_tokens {t : Token} (h : t ∈ tokens cs) : t.IsLexeme := by
  obtain ⟨_, pieces, hcut, hpieces⟩ := cutsInto_tokens cs
  rw [← hpieces] at h
  obtain ⟨piece, hpiece, rfl⟩ := List.mem_map.mp h
  exact hcut.isLexeme piece hpiece

/-! ### Asking a lexer -/

/-- A way to ask for a token. -/
inductive Request where
  /-- The next token, or the mark of the end. -/
  | nextToken
  /-- The next token, or none at the end. -/
  | next
  deriving DecidableEq

/-- What a request is answered with. -/
inductive Answer where
  | token (token : Token)
  | item (token? : Option Token)
  deriving DecidableEq

def Request.ask : Request → Lexer → Answer × Lexer
  | nextToken, lexer => (.token lexer.nextToken.1, lexer.nextToken.2)
  | next, lexer => (.item lexer.next?.1, lexer.next?.2)

/-- The answer when `token?` is the next token, if there is one. -/
def Request.answer : Request → Option Token → Answer
  | nextToken, token? => .token (token?.getD ⟨.eof, ""⟩)
  | next, token? => .item token?

/-- The answers to requests that are made of one lexer, one after the other. -/
def answers : List Request → Lexer → List Answer
  | [], _ => []
  | request :: requests, lexer =>
    (request.ask lexer).1 :: answers requests (request.ask lexer).2

theorem nextToken_spec (lexer : Lexer) :
    lexer.nextToken.1 = (tokens lexer.remaining).head?.getD .eof ∧
      tokens lexer.nextToken.2.remaining = (tokens lexer.remaining).tail := by
  obtain ⟨cs⟩ := lexer
  rw [nextToken, tokens]
  dsimp only
  cases cs.dropWhile isBlank with
  | nil => exact ⟨rfl, tokens_nil⟩
  | cons c rest => exact ⟨rfl, rfl⟩

theorem next?_spec (lexer : Lexer) : lexer.next?.1 = (tokens lexer.remaining).head? := by
  unfold next?
  dsimp only
  rw [(nextToken_spec lexer).1]
  cases hts : tokens lexer.remaining with
  | nil => rfl
  | cons token ts =>
    have htoken : token ∈ tokens lexer.remaining := hts ▸ List.mem_cons_self
    exact if_neg (isLexeme_of_mem_tokens htoken).kind_ne_eof

theorem ask_spec (request : Request) (lexer : Lexer) :
    (request.ask lexer).1 = request.answer (tokens lexer.remaining).head? ∧
      tokens (request.ask lexer).2.remaining = (tokens lexer.remaining).tail := by
  obtain ⟨htoken, htail⟩ := nextToken_spec lexer
  cases request with
  | nextToken => exact ⟨congrArg Answer.token htoken, htail⟩
  | next => exact ⟨congrArg Answer.item (next?_spec lexer), htail⟩

theorem getElem?_answers (requests : List Request) (lexer : Lexer) (i : Nat) :
    (answers requests lexer)[i]? =
      requests[i]?.map fun request => request.answer (tokens lexer.remaining)[i]? := by
  induction requests generalizing lexer i with
  | nil => rfl
  | cons request requests ih =>
    obtain ⟨hanswer, hrest⟩ := ask_spec request lexer
    cases i with
    | zero => simpa [answers, List.head?_eq_getElem?] using hanswer
    | succ i => simpa [answers, hrest] using ih (request.ask lexer).2 i

end Lexer

/-- A text has one cut into tokens, and `tokenize` finds it and marks its end. A lexer that is asked
for tokens, in whichever way each time, delivers the tokens of the cut in their order and then the
end as often as it is asked. -/
theorem tokenize_cut (text : String) :
    ∃ ts, tokenize text = ts ++ [⟨.eof, ""⟩] ∧
      (∀ us, Lexer.CutsInto text.toList us ↔ us = ts) ∧
      ∀ (requests : List Lexer.Request) (i : Nat), (Lexer.answers requests (.ofText text))[i]? =
        requests[i]?.map fun request => request.answer ts[i]? :=
  ⟨tokens text.toList, rfl, fun _ => Lexer.cutsInto_iff, fun requests =>
    Lexer.getElem?_answers requests (.ofText text)⟩

end LetScript
