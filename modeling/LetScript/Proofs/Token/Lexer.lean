import LetScript.Proofs.Tree.Canonical

/-! What is cut from the front of a text. A word or a number ends where a character
follows that neither could go on with, so a text that is put together with such
characters between its words is cut piece by piece, and one that ends with a semicolon is
cut alike whatever text comes after it. -/
namespace LetScript

namespace Text

theorem isAlphabetic_of_isDigit {c : Char} (h : c.isDigit = true) : isAlphabetic c = false := by
  have hnine : c.val ≤ '9'.val := of_decide_eq_true (Bool.and_eq_true_iff.mp h).2
  have hbelow (m : UInt32) (hm : '9'.val < m) : ¬ m ≤ c.val :=
    UInt32.not_le.mpr (UInt32.lt_of_le_of_lt hnine hm)
  have hupper : c.isUpper = false := decide_eq_false fun hA => hbelow 'A'.val (by decide) hA.1
  have hlower : c.isLower = false :=
    Bool.and_eq_false_iff.mpr (.inl (decide_eq_false (hbelow 'a'.val (by decide))))
  have hascii : c.toNat < 0x80 := Nat.lt_of_le_of_lt (UInt32.le_iff_toNat_le.mp hnine) (by decide)
  rw [isAlphabetic, if_pos hascii]
  exact Bool.or_eq_false_iff.mpr ⟨hupper, hlower⟩

end Text

/-- A reserved word is spelled with letters. -/
theorem Keyword.spelling_run (keyword : Keyword) :
    keyword.spelling.toList ≠ [] ∧ ∀ c ∈ keyword.spelling.toList, Lexer.isWordChar c = true := by
  have hchars : keyword.spelling.toList.all Lexer.isWordChar = true := by cases keyword <;> decide
  exact ⟨by cases keyword <;> decide, List.all_eq_true.mp hchars⟩

/-- A token that is one character. -/
def Token.ofSymbol (c : Char) : Token :=
  ⟨(Lexer.symbol? c).getD .illegal, String.singleton c⟩

namespace Lexer

variable {c : Char} {cs : List Char}

/-- Is a token by itself, whatever follows. -/
def isMark (c : Char) : Bool :=
  (symbol? c).isSome && c ≠ '=' && c ≠ '!'

/-- Neither a word nor a number goes on with `cs`. -/
def Boundary (cs : List Char) : Prop :=
  ∀ c ∈ cs.head?, isWordChar c = false ∧ c.isDigit = false

theorem boundary_nil : Boundary [] := nofun

theorem Boundary.word (h : Boundary cs) : ∀ c ∈ cs.head?, isWordChar c = false :=
  fun c hc => (h c hc).1

theorem Boundary.digits (h : Boundary cs) : ∀ c ∈ cs.head?, c.isDigit = false :=
  fun c hc => (h c hc).2

theorem boundary_cons (h : (isWordChar c || c.isDigit) = false) : Boundary (c :: cs) := by
  rintro _ ⟨⟩
  exact Bool.or_eq_false_iff.mp h

/-- A run of characters of one class ends where a character of another comes. -/
theorem span_append {p : Char → Bool} {w : List Char} (hw : ∀ c ∈ w, p c = true)
    (h : ∀ c ∈ cs.head?, p c = false) :
    (w ++ cs).takeWhile p = w ∧ (w ++ cs).dropWhile p = cs := by
  rw [List.takeWhile_append_of_pos hw, List.dropWhile_append_of_pos hw]
  cases cs with
  | nil => simp
  | cons c cs => simp [h c rfl]

theorem isWordChar_of_isDigit (h : c.isDigit = true) : isWordChar c = false := by
  have hne : c ≠ '_' := by
    rintro rfl
    cases h
  simp [isWordChar, Text.isAlphabetic_of_isDigit h, hne]

theorem symbol?_eq_none (h : isWordChar c = true ∨ c.isDigit = true) : symbol? c = none := by
  unfold symbol?
  split <;> first | rfl | exact absurd h (by decide)

theorem isBlank_eq_false (h : isWordChar c = true ∨ c.isDigit = true) : isBlank c = false := by
  simp only [isBlank, Bool.or_eq_false_iff, decide_eq_false_iff_not]
  refine ⟨⟨⟨?_, ?_⟩, ?_⟩, ?_⟩ <;> rintro rfl <;> exact absurd h (by decide)

@[simp] theorem tokens_nil : tokens [] = [] := by
  rw [tokens]
  rfl

theorem tokens_blank (h : isBlank c = true) : tokens (c :: cs) = tokens cs := by
  rw [tokens, tokens, List.dropWhile_cons_of_pos h]

theorem tokens_cons (h : isBlank c = false) :
    tokens (c :: cs) = (tokenAt c cs).1 :: tokens (tokenAt c cs).2 := by
  rw [tokens, List.dropWhile_cons_of_neg (by simp [h])]

/-- A character is cut alone unless it is `=` or `!` and starts a longer token. -/
theorem tokens_symbol_of {kind : TokenKind} (h : symbol? c = some kind)
    (hnext : cs.head? ≠ some '=' ∨ c ≠ '=' ∧ c ≠ '!') :
    tokens (c :: cs) = .ofSymbol c :: tokens cs := by
  have hblank : isBlank c = false := by
    unfold symbol? at h
    split at h <;> first | rfl | cases h
  have hat : tokenAt c cs = (.ofSymbol c, cs) := by
    unfold tokenAt Token.ofSymbol
    split
    · exact absurd hnext (by simp)
    · exact absurd hnext (by simp)
    · rw [h, Option.getD_some]
  rw [tokens_cons hblank, hat]

theorem tokens_symbol (h : isMark c = true) : tokens (c :: cs) = .ofSymbol c :: tokens cs := by
  simp only [isMark, Bool.and_eq_true, decide_eq_true_eq] at h
  obtain ⟨kind, hkind⟩ := Option.isSome_iff_exists.mp h.1.1
  exact tokens_symbol_of hkind (.inr ⟨h.1.2, h.2⟩)

theorem boundary_mark (h : isMark c = true) : Boundary (c :: cs) := by
  refine boundary_cons (Bool.eq_false_iff.mpr fun hc => ?_)
  simp [isMark, symbol?_eq_none (by simpa using hc)] at h

theorem tokens_word {w : List Char} (hne : w ≠ []) (hw : ∀ c ∈ w, isWordChar c = true)
    (h : ∀ c ∈ cs.head?, isWordChar c = false) : tokens (w ++ cs) = word w :: tokens cs := by
  obtain ⟨c, w, rfl⟩ := List.exists_cons_of_ne_nil hne
  obtain ⟨hc, hw⟩ := List.forall_mem_cons.mp hw
  have hat : tokenAt c (w ++ cs) = (word (c :: w), cs) := by
    obtain ⟨htake, hdrop⟩ := span_append hw h
    unfold tokenAt
    split
    · cases hc
    · cases hc
    · rw [symbol?_eq_none (.inl hc)]
      simp only [hc, if_true, htake, hdrop]
  rw [List.cons_append, tokens_cons (isBlank_eq_false (.inl hc)), hat]

theorem tokens_digits {w : List Char} (hne : w ≠ []) (hw : ∀ c ∈ w, c.isDigit = true)
    (h : ∀ c ∈ cs.head?, c.isDigit = false) :
    tokens (w ++ cs) = ⟨.int, String.ofList w⟩ :: tokens cs := by
  obtain ⟨c, w, rfl⟩ := List.exists_cons_of_ne_nil hne
  obtain ⟨hc, hw⟩ := List.forall_mem_cons.mp hw
  have hat : tokenAt c (w ++ cs) = (⟨.int, String.ofList (c :: w)⟩, cs) := by
    obtain ⟨htake, hdrop⟩ := span_append hw h
    unfold tokenAt
    split
    · cases hc
    · cases hc
    · rw [symbol?_eq_none (.inr hc)]
      simp only [isWordChar_of_isDigit hc, hc, if_true, htake, hdrop]
      rfl
  rw [List.cons_append, tokens_cons (isBlank_eq_false (.inr hc)), hat]

theorem tokens_name {name : String} (hname : IsName name)
    (h : ∀ c ∈ cs.head?, isWordChar c = false) :
    tokens (name.toList ++ cs) = ⟨.identifier, name⟩ :: tokens cs := by
  obtain ⟨hne, hchars, hfree⟩ := hname
  have hlist : name.toList ≠ [] := by simpa using hne
  rw [tokens_word hlist hchars h, word, String.ofList_toList, ofWord_eq_identifier_iff.mpr hfree]

theorem tokens_keyword (keyword : Keyword) (h : ∀ c ∈ cs.head?, isWordChar c = false) :
    tokens (keyword.spelling.toList ++ cs) = ⟨.keyword keyword, keyword.spelling⟩ :: tokens cs := by
  obtain ⟨hne, hchars⟩ := keyword.spelling_run
  rw [tokens_word hne hchars h, word, String.ofList_toList, TokenKind.ofWord,
    Keyword.ofSpelling?_eq_some_iff.mpr rfl]

variable {ds : List Char}

theorem tokens_of_dropWhile_eq (h : cs.dropWhile isBlank = ds.dropWhile isBlank) :
    tokens cs = tokens ds := by
  rw [tokens, tokens, h]

theorem tokens_append_of_eq_nil (h : tokens cs = []) : tokens (cs ++ ds) = tokens ds := by
  refine tokens_of_dropWhile_eq ?_
  rw [tokens] at h
  split at h
  · next hblank => rw [List.dropWhile_append, hblank, List.isEmpty_nil, if_pos rfl]
  · cases h

/-- A run that ends before the end of the text ends there whatever the text goes on with. -/
theorem span_append_of_dropWhile_ne_nil {p : Char → Bool} (h : cs.dropWhile p ≠ [])
    (ds : List Char) :
    (cs ++ ds).takeWhile p = cs.takeWhile p ∧ (cs ++ ds).dropWhile p = cs.dropWhile p ++ ds := by
  rw [List.takeWhile_append, List.dropWhile_append, if_neg, if_neg]
  · exact ⟨rfl, rfl⟩
  · simpa using h
  · intro hlength
    have hsum := congrArg List.length (List.takeWhile_append_dropWhile (p := p) (l := cs))
    rw [List.length_append, hlength] at hsum
    exact h (List.eq_nil_of_length_eq_zero (by omega))

/-- The same holds of a token. -/
theorem tokenAt_append (h : (tokenAt c cs).2 ≠ []) :
    tokenAt c (cs ++ ds) = ((tokenAt c cs).1, (tokenAt c cs).2 ++ ds) := by
  cases cs with
  | nil => exact absurd (List.eq_nil_of_length_eq_zero (Nat.le_zero.mp (length_tokenAt_le c []))) h
  | cons d cs =>
    rw [List.cons_append]
    unfold tokenAt at h ⊢
    split at h
    · next heq =>
      cases heq
      rfl
    · next heq =>
      cases heq
      rfl
    · next hequal hbang =>
      split
      · next heq =>
        cases heq
        exact absurd rfl (hequal _ rfl)
      · next heq =>
        cases heq
        exact absurd rfl (hbang _ rfl)
      · rw [← List.cons_append]
        split at h
        · rfl
        · split at h
          · next hword =>
            obtain ⟨htake, hdrop⟩ := span_append_of_dropWhile_ne_nil h ds
            simp only [hword, if_true, htake, hdrop]
          · next hword =>
            split at h
            · next hdigit =>
              obtain ⟨htake, hdrop⟩ := span_append_of_dropWhile_ne_nil h ds
              simp only [hword, hdigit, if_true, htake, hdrop]
              rfl
            · next hdigit =>
              simp only [hword, hdigit]
              rfl

theorem eq_of_kind_tokenAt_eq_semicolon (h : (tokenAt c cs).1.kind = .semicolon) : c = ';' := by
  unfold tokenAt at h
  split at h
  · cases h
  · cases h
  · split at h
    · next kind hsymbol =>
      obtain rfl : kind = .semicolon := h
      unfold symbol? at hsymbol
      split at hsymbol <;> first | rfl | cases hsymbol
    · split at h
      · have hkind : TokenKind.ofWord _ = .semicolon := h
        unfold TokenKind.ofWord at hkind
        split at hkind <;> cases hkind
      · split at h <;> cases h

/-- No token goes on over a semicolon, and nothing after one has to do with what came before. -/
theorem tokens_append (h : (tokens cs).getLast?.map Token.kind = some .semicolon) :
    tokens (cs ++ ds) = tokens cs ++ tokens ds := by
  fun_induction tokens cs with
  | case1 => cases h
  | case2 cs c rest hcs ih =>
    have hdrop : (cs ++ ds).dropWhile isBlank = c :: (rest ++ ds) := by
      rw [List.dropWhile_append, hcs]
      rfl
    have hcut : tokens (cs ++ ds) =
        (tokenAt c (rest ++ ds)).1 :: tokens (tokenAt c (rest ++ ds)).2 := by
      rw [tokens, hdrop]
    rw [hcut]
    cases hmore : tokens (tokenAt c rest).2 with
    | nil =>
      rw [hmore] at h
      obtain rfl := eq_of_kind_tokenAt_eq_semicolon (Option.some.inj h)
      exact congrArg _ (tokens_append_of_eq_nil hmore)
    | cons token more =>
      have hleft : (tokenAt c rest).2 ≠ [] := by
        intro hnil
        rw [hnil, tokens_nil] at hmore
        cases hmore
      rw [hmore, List.getLast?_cons_cons, ← hmore] at h
      rw [tokenAt_append hleft, ← hmore, ih h, List.cons_append]

end Lexer

end LetScript
